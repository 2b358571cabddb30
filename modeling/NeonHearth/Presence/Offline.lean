import NeonHearth.Presence.Departure

/-!
# Staying offline

A device that has departed is offline until something says otherwise: positive evidence, a verified
enforcement, an impairment or a contradiction.  But the engine computes the state anew on every call,
from failures that leave the confirmation window after a while, and then a device that was offline
becomes unknown with no new evidence at all (`forgottenFailures_not_stable`).

* `stable_of_staysConfirmed` : as long as enough failures are in the window at every call on an
  offline device whose support has expired, it stays offline.
-/

namespace NeonHearth.Presence

open List Prod

/-- Evidence that may end a departure. -/
def wakes (e : PresenceEvidence) : Bool :=
  isPositive e.kind || isEnforcement e.kind || e.kind = .sensorImpaired || e.kind = .contradiction

namespace PresenceEntry

def wakes : PresenceEntry → Bool
  | .accepted e => Presence.wakes e
  | .moved _ => false

/-- A transition to offline. -/
def departs : PresenceEntry → Bool
  | .moved t => t.toState = .offline
  | .accepted _ => false

/-- The state changes from offline; a correction does not change it. -/
def returns : PresenceEntry → Bool
  | .moved t => t.fromState = .offline && t.correctionOf = none
  | .accepted _ => false

end PresenceEntry

/-- A device has departed and nothing has been accepted since that may change it. -/
def Departs (l : List PresenceEntry) : Prop := OpenSince (·.departs) (·.wakes) l
  deriving Decidable

/-- Offline is left only after evidence that may change it. -/
def OfflineStable (l : List PresenceEntry) : Prop := NeverWhile (·.returns) Departs l
  deriving Decidable

/-- When a call on an offline device comes without new evidence that may wake it, some support of the
device has not expired, or enough failures are in the window. -/
def StaysConfirmed : DeviceGuard
  | cfg, d, .ingest e arrival => d.state = .offline → wakes e = true ∨
      (∃ x ∈ d.evidence, (supportEnd cfg x).any (arrival ≤ ·) = true) ∨
      cfg.departureConfirmations ≤ distinctCount (freshFailures cfg (d.evidence ++ [e]) arrival)
  | cfg, d, .evaluate at' => d.state = .offline →
      (∃ x ∈ d.evidence, (supportEnd cfg x).any (at' ≤ ·) = true) ∨
      cfg.departureConfirmations ≤ distinctCount (freshFailures cfg d.evidence at')

instance (cfg : PresenceConfig) (d : DevicePresence) (call : DeviceCall) :
    Decidable (StaysConfirmed cfg d call) := by
  induction call using DeviceCall.casesOn <;> dsimp only [StaysConfirmed] <;> infer_instance

/-! ### The state -/

section State

variable {cfg : PresenceConfig} {d : DevicePresence} {at' : DateTime}

/-- All support of the device has expired. -/
def Unsupported (cfg : PresenceConfig) (d : DevicePresence) : Prop :=
  ∀ x ∈ d.evidence, ∀ u, supportEnd cfg x = some u → u < d.lastEvaluation

/-- Traffic that is kept has an end. -/
def TrafficOk (cfg : PresenceConfig) (d : DevicePresence) : Prop :=
  ∀ x ∈ d.evidence, x.kind = .traffic → supportEnd cfg x ≠ none

theorem FoundOffline.unsupported (h : FoundOffline cfg d d.lastEvaluation) (hvalid : cfg.Valid) :
    Unsupported cfg d := by
  intro x hx u hu
  have hpos : 0 < distinctCount (freshFailures cfg d.evidence d.lastEvaluation) :=
    (Nat.pos_of_ne_zero hvalid.departureConfirmations).trans_le h.failures
  obtain ⟨f, hf⟩ : ∃ f, f ∈ freshFailures cfg d.evidence d.lastEvaluation := by
    refine exists_mem_of_ne_nil _ fun hnil => ?_
    rw [hnil] at hpos
    exact absurd hpos (by decide)
  obtain ⟨-, -, hle, hend, -⟩ := mem_freshFailures.1 hf
  exact (hend x hx u hu).trans_le hle

/-- A device without support is found offline while there are enough failures. -/
theorem candidate_offline (h : FoundOffline cfg d d.lastEvaluation) (hvalid : cfg.Valid)
    (htraffic : TrafficOk cfg d) : candidate d d.lastEvaluation cfg = .offline := by
  have hexpired := h.unsupported hvalid
  have hnotraffic : ¬(d.evidence.any fun e => e.kind = .traffic && e.observedAt ≤ d.lastEvaluation &&
      signedDurationSince d.lastEvaluation e.observedAt < cfg.onlineWindow) = true := by
    simp only [any_eq_true, Bool.and_eq_true, decide_eq_true_eq]
    rintro ⟨x, hx, ⟨hk, -⟩, hwindow⟩
    obtain ⟨u, hu⟩ := Option.ne_none_iff_exists'.1 (htraffic x hx hk)
    have hlt := hexpired x hx u hu
    rw [supportEnd, hk, DateTime.checkedAddSigned_eq_some] at hu
    rw [DateTime.lt_iff] at hlt
    rw [signedDurationSince] at hwindow
    omega
  have hnosupport : ¬((d.evidence.any fun e =>
      (e.kind = .lease || e.kind = .routerAssociation || e.kind = .neighborCache ||
        e.kind = .probeSuccess) && e.observedAt ≤ d.lastEvaluation &&
          e.validUntil.any (d.lastEvaluation ≤ ·)) && d.everSupported) = true := by
    simp only [Bool.and_eq_true, any_eq_true, Bool.or_eq_true, decide_eq_true_eq]
    rintro ⟨⟨x, hx, ⟨hk, -⟩, hvalidUntil⟩, -⟩
    obtain ⟨u, hu, hle⟩ := (Option.any_eq_true ..).1 hvalidUntil
    have hend : supportEnd cfg x = some u := by
      rcases hk with ((hk | hk) | hk) | hk <;> rw [supportEnd, hk] <;> exact hu
    exact not_lt_of_ge (of_decide_eq_true hle) (hexpired x hx u hend)
  have hfailures : (d.everSupported && decide (cfg.departureConfirmations ≤
      distinctCount (freshFailures cfg d.evidence d.lastEvaluation))) = true := by
    rw [h.everSupported, Bool.true_and]
    exact decide_eq_true h.failures
  rw [candidate, h.blocked, if_neg Bool.false_ne_true, h.impaired, h.contradictory, Bool.or_false,
    if_neg Bool.false_ne_true, if_neg hnotraffic, if_neg hnosupport]
  exact if_pos hfailures

theorem flags_of_gated (h : gated cfg d at' = .offline) :
    d.blocked = false ∧ d.impaired = false ∧ d.contradictory = false := by
  have hcandidate : candidate d at' cfg = .offline ∨ candidate d at' cfg = .online ∨
      candidate d at' cfg = .quiet := by
    unfold gated at h
    dsimp only at h
    split at h
    · next hgate => exact .inr hgate.1
    · exact .inl h
  unfold candidate at hcandidate
  split at hcandidate
  · simp at hcandidate
  next hblocked =>
  split at hcandidate
  · simp at hcandidate
  next hflags =>
  simp only [Bool.or_eq_true, not_or, Bool.not_eq_true] at hblocked hflags
  exact ⟨hblocked, hflags⟩

end State

/-! ### One device -/

/-- What holds of a device and its log. -/
structure Rests (cfg : PresenceConfig) (d : DevicePresence) (l : List PresenceEntry) : Prop where
  flags : d.state = .offline → d.blocked = false ∧ d.impaired = false ∧ d.contradictory = false
  traffic : TrafficOk cfg d
  departed : Departs l → d.state = .offline ∧ d.everSupported = true ∧ Unsupported cfg d
  stable : OfflineStable l

section Rests

variable {cfg : PresenceConfig} {d : DevicePresence} {l : List PresenceEntry} {id : DeviceId}
  {e : PresenceEvidence} {arrival at' : DateTime} {events : List PresenceTransition}
  {state : PresenceState} {history : List PresenceTransition} {evictedThrough : Option ℕ}

/-- A recomputation, at which a device that has departed is found offline. -/
theorem rests_of_settles (hvalid : cfg.Valid) (htraffic : TrafficOk cfg d)
    (hdeparted : Departs l → d.state = .offline ∧ FoundOffline cfg d d.lastEvaluation)
    (hstable : OfflineStable l) (hs : Settles cfg id d d.lastEvaluation state events) :
    Rests cfg (d.revise state history evictedThrough) (events.map .moved ++ l) := by
  cases hs with
  | stay hsame =>
    refine ⟨fun hoffline => flags_of_gated (hsame.trans hoffline), htraffic, fun hdeparts => ?_,
      hstable⟩
    obtain ⟨hoffline, hfound⟩ := hdeparted hdeparts
    exact ⟨hoffline, hfound.everSupported, hfound.unsupported hvalid⟩
  | @move t hne hdevice hfrom hto hoccurred hcorrection =>
    -- a device that has departed does not move
    have hnot : ¬Departs l := by
      intro hdeparts
      obtain ⟨hoffline, hfound⟩ := hdeparted hdeparts
      refine hne (Eq.trans ?_ hoffline.symm)
      rw [gated, candidate_offline hfound hvalid htraffic]
      exact if_neg (by simp)
    refine ⟨flags_of_gated, htraffic, fun hdeparts => ?_, hstable.cons fun _ => hnot⟩
    obtain ⟨-, hdeparts | hdeparts⟩ := hdeparts
    · have hoffline : gated cfg d d.lastEvaluation = .offline :=
        hto.symm.trans (of_decide_eq_true hdeparts)
      have hfound := foundOffline_of_candidate ((candidate_of_gated_ne hne).symm.trans hoffline)
      exact ⟨hoffline, hfound.everSupported, hfound.unsupported hvalid⟩
    · exact (hnot hdeparts).elim

theorem Settles.reverse_eq (h : Settles cfg id d at' state events) : events.reverse = events := by
  cases h <;> rfl

theorem departs_corrections {corrections : List PresenceTransition}
    (h : ∀ t ∈ corrections, Corrects id t) :
    (Departs (corrections.map .moved ++ l) ↔ Departs l) ∧
      (OfflineStable l → OfflineStable (corrections.map .moved ++ l)) := by
  induction corrections with
  | nil => exact ⟨Iff.rfl, fun hstable => hstable⟩
  | cons t rest ih =>
    obtain ⟨hdeparts, hstable⟩ := ih fun u hu => h u (mem_cons_of_mem _ hu)
    have ht := h t mem_cons_self
    refine ⟨(openSince_cons_of_not ?_ ?_).trans hdeparts, fun hl => (hstable hl).cons ?_⟩
    · obtain hto | hto := ht.toState <;> simp [PresenceEntry.departs, hto]
    · simp [PresenceEntry.wakes]
    · simp [PresenceEntry.returns, ht.correctionOf]

theorem trafficOk_absorb (h : TrafficOk cfg d) (he : e.kind = .traffic → supportEnd cfg e ≠ none) :
    TrafficOk cfg (absorb cfg d e arrival) := by
  intro x hx hk
  obtain hx | rfl := (absorb_spec cfg d e arrival).mem_evidence hx
  · exact h x hx hk
  · exact he hk

/-- Evidence that wakes nothing sets no flag. -/
theorem flags_absorb (he : wakes e = false)
    (h : d.blocked = false ∧ d.impaired = false ∧ d.contradictory = false) :
    (absorb cfg d e arrival).blocked = false ∧ (absorb cfg d e arrival).impaired = false ∧
      (absorb cfg d e arrival).contradictory = false := by
  have hcontrol := (absorb_spec cfg d e arrival).control
  have hflags : (applyFlags d e).blocked = false ∧ (applyFlags d e).impaired = false ∧
      (applyFlags d e).contradictory = false := by
    unfold applyFlags
    split
    case h_2 | h_4 | h_6 => split <;> simp [h]
    case h_7 => exact h
    all_goals next hk => simp [wakes, isEnforcement, hk] at he
  exact ⟨(congrArg fst (hcontrol 0)).trans hflags.1,
    (congrArg fst (hcontrol 1)).trans hflags.2.1,
    (congrArg fst (hcontrol 2)).trans hflags.2.2⟩

theorem freshFailures_absorb (he : isPositive e.kind = false) :
    distinctCount (freshFailures cfg (d.evidence ++ [e]) arrival) ≤
      distinctCount (freshFailures cfg (absorb cfg d e arrival).evidence arrival) := by
  have habsorbed := absorb_spec cfg d e arrival
  refine distinctCount_le fun f hf => ?_
  obtain ⟨hmem, hk, hle, hend, hwindow⟩ := mem_freshFailures.1 hf
  have hretained : semanticallyRetained f arrival cfg = true := by
    rw [semanticallyRetained, hk]
    exact decide_eq_true hwindow
  have hcontrol : controlFamily f.kind = none := by rw [hk]; rfl
  refine mem_freshFailures.2 ⟨?_, hk, hle, fun x hx u hu => hend x ?_ u hu, hwindow⟩
  · obtain hmem | hmem := mem_append.1 hmem
    · exact habsorbed.mem_of_retained hmem hretained hcontrol
    · rw [mem_singleton.1 hmem] at hretained hcontrol ⊢
      exact habsorbed.mem_input (by simp [keepsInput, hretained, he]) hcontrol
  · obtain hx | rfl := habsorbed.mem_evidence hx
    · exact mem_append_left _ hx
    · exact mem_append_right _ mem_cons_self

/-- Support that has expired does not come back. -/
theorem not_any_unexpired (h : Unsupported cfg d) (hmono : d.lastEvaluation ≤ at') :
    ¬∃ x ∈ d.evidence, (supportEnd cfg x).any (at' ≤ ·) = true := by
  rintro ⟨x, hx, hany⟩
  obtain ⟨u, hu, hle⟩ := (Option.any_eq_true ..).1 hany
  exact not_lt_of_ge (of_decide_eq_true hle) ((h x hx u hu).trans_le hmono)

theorem Rests.ingest (hvalid : cfg.Valid) (h : Rests cfg d l)
    (hg : StaysConfirmed cfg d (.ingest e arrival)) (hmono : d.lastEvaluation ≤ arrival)
    (htraffic : e.kind = .traffic → supportEnd cfg e ≠ none) {d'}
    (hi : Ingested cfg id d e arrival d' events) :
    Rests cfg d' ((events.map .moved).reverse ++ .accepted e :: l) := by
  have habsorbed := absorb_spec cfg d e arrival
  have htaken : TrafficOk cfg (absorb cfg d e arrival) := trafficOk_absorb h.traffic htraffic
  have hstable : OfflineStable (.accepted e :: l) := h.stable.cons nofun
  cases hi with
  | late hlate =>
    have hpositive := positive_of_late hlate
    have hflags : (absorb cfg d e arrival).blocked = d.blocked ∧ _ := flags_absorb_positive hpositive
    refine ⟨fun hoffline => ?_, htaken, fun hdeparts => ?_, hstable⟩
    · rw [hflags.1, hflags.2.1, hflags.2.2]
      exact h.flags (habsorbed.state.symm.trans hoffline)
    · exact (hdeparts.1 (by simp [PresenceEntry.wakes, wakes, hpositive])).elim
  | @settled corrections current state history evictedThrough hcorrections hs =>
    obtain ⟨hdeparts, hcorrected⟩ :=
      departs_corrections (l := .accepted e :: l) fun t ht => hcorrections t (mem_reverse.1 ht)
    have hlast := habsorbed.lastEvaluation
    rw [← map_reverse, reverse_append, hs.reverse_eq, map_append, append_assoc]
    refine rests_of_settles hvalid htaken (fun hdeparted => ?_) (hcorrected hstable) (by rwa [hlast])
    -- nothing has woken the device, so it is still offline and enough confirmations have failed
    obtain ⟨hsleeps, hdeparted | hdeparted⟩ := hdeparts.1 hdeparted
    · cases hdeparted
    have hsleeps : wakes e = false := Bool.eq_false_iff.2 hsleeps
    have hpositive : isPositive e.kind = false := by
      simp only [wakes, Bool.or_eq_false_iff] at hsleeps
      exact hsleeps.1.1.1
    obtain ⟨hoffline, hever, hunsupported⟩ := h.departed hdeparted
    obtain hwakes | hunexpired | hfailures := hg hoffline
    · rw [hsleeps] at hwakes
      cases hwakes
    · exact (not_any_unexpired hunsupported hmono hunexpired).elim
    · obtain ⟨hblocked, himpaired, hcontradictory⟩ := flags_absorb hsleeps (h.flags hoffline)
      refine ⟨habsorbed.state.trans hoffline, hblocked, himpaired, hcontradictory, ?_, ?_⟩
      · rw [absorb_everSupported, hever, Bool.true_or]
      · rw [hlast]
        exact hfailures.trans (freshFailures_absorb hpositive)

theorem Rests.evaluate (hvalid : cfg.Valid) (h : Rests cfg d l)
    (hg : StaysConfirmed cfg d (.evaluate at')) (hmono : d.lastEvaluation ≤ at')
    (hs : Settles cfg id { d with lastEvaluation := at' } at' state events) :
    Rests cfg ({ d with lastEvaluation := at' }.revise state history evictedThrough)
      (events.map .moved ++ l) := by
  have htraffic : TrafficOk cfg { d with lastEvaluation := at' } := h.traffic
  refine rests_of_settles hvalid htraffic (fun hdeparted => ?_) h.stable hs
  obtain ⟨hoffline, hever, hunsupported⟩ := h.departed hdeparted
  obtain hunexpired | hfailures := hg hoffline
  · exact (not_any_unexpired hunsupported hmono hunexpired).elim
  · obtain ⟨hblocked, himpaired, hcontradictory⟩ := h.flags hoffline
    exact ⟨hoffline, hblocked, himpaired, hcontradictory, hever, hfailures⟩

theorem rests_of_traced (hvalid : cfg.Valid) (h : Traced StaysConfirmed cfg id d l) :
    Rests cfg d l := by
  induction h with
  | initial arrival =>
    refine ⟨fun hoffline => ?_, fun x hx => ?_, fun hdeparted => hdeparted.elim, trivial⟩
    · cases hoffline
    · cases hx
  | ingest h hg hdevice hmono haccepted htraffic hi ih => exact ih.ingest hvalid hg hmono htraffic hi
  | evaluate h hg hmono hs ih => exact ih.evaluate hvalid hg hmono hs

end Rests

/-- **Offline is stable** in runs that keep it confirmed: no device leaves it before evidence is
accepted that may change it. -/
theorem stable_of_staysConfirmed {s : LoggedEngine}
    (h : loggedMachine.Via StaysConfirmed.lift s) (id : DeviceId) :
    OfflineStable (deviceLog id s.log) := by
  have htraces := traced_of_via h
  obtain hnone | ⟨d, hd⟩ := Option.eq_none_or_eq_some (s.engine.devices.get id)
  · rw [htraces.unknown hnone]
    trivial
  · exact (rests_of_traced s.engine.cfg_valid (htraces.known hd)).stable

/-- A timer while the failures are in the window. -/
theorem confirmedDeparture_stable : ∃ s, loggedMachine.Via StaysConfirmed.lift s ∧
    movedTo s = [.offline, .quiet] ∧ OfflineStable (deviceLog 1 s.log) :=
  exists_and_imp (via_loggedRun .default (departure ++ [.evaluate 1 (halfSecond 200)])
    (by decide +kernel) (by decide +kernel)) fun _ hvia _ => stable_of_staysConfirmed hvia 1

/-- A timer after the failures have left the window: the device becomes unknown. -/
theorem forgottenFailures_not_stable : ∃ s, loggedMachine.Reachable s ∧
    movedTo s = [.unknown, .offline, .quiet] ∧ ¬OfflineStable (deviceLog 1 s.log) :=
  (exists_loggedRun .default (departure ++ [.evaluate 1 (halfSecond 300)])
    (by decide +kernel)).imp fun _ h => h.2

end NeonHearth.Presence
