import NeonHearth.Presence.Trace

/-!
# Departures

A device is offline when it has been seen, all that supported its presence has expired, and enough
confirmations have failed since.  The engine decides this from the evidence it retains, so the law
about all evidence it ever accepted holds only if what it drops does not matter any more.

* `departed_of_keepsSupport` : it does not, if the correction window covers the online window and the
  confirmation window, and late evidence is only ingested while it is valid or once the confirmation
  window has passed since it expired;
* `falseDepartures` : both conditions are needed;
* `ingestAuthorized_twice_iff` : when evidence does nothing as it comes a second time.
-/

namespace NeonHearth.Presence

open List

/-! ### Failures -/

/-- The failures that count at an instant: after all support, and in the window. -/
def freshFailures (cfg : PresenceConfig) (evidence : List PresenceEvidence) (at' : DateTime) :
    List PresenceEvidence :=
  evidence.filter fun e =>
    e.kind = .confirmationFailure && e.observedAt ≤ at' &&
      (evidence.filterMap (supportEnd cfg)).max?.all (· < e.observedAt) &&
      signedDurationSince at' e.observedAt ≤ cfg.confirmationWindow

section Failures

variable {cfg : PresenceConfig} {d : DevicePresence} {at' : DateTime} {evidence : List PresenceEvidence}
  {f : PresenceEvidence}

theorem max?_all_lt {l : List DateTime} {t} : l.max?.all (· < t) = true ↔ ∀ u ∈ l, u < t := by
  cases hmax : l.max? with
  | none => simp [max?_eq_none_iff.1 hmax]
  | some m =>
    obtain ⟨hmem, hle⟩ := max?_eq_some_iff.1 hmax
    rw [Option.all_some, decide_eq_true_eq]
    exact ⟨fun h u hu => (hle u hu).trans_lt h, fun h => h m hmem⟩

theorem mem_freshFailures : f ∈ freshFailures cfg evidence at' ↔ f ∈ evidence ∧
    f.kind = .confirmationFailure ∧ f.observedAt ≤ at' ∧
    (∀ x ∈ evidence, ∀ u, supportEnd cfg x = some u → u < f.observedAt) ∧
    signedDurationSince at' f.observedAt ≤ cfg.confirmationWindow := by
  rw [freshFailures, mem_filter, Bool.and_eq_true, Bool.and_eq_true, Bool.and_eq_true, max?_all_lt]
  simp only [mem_filterMap, decide_eq_true_eq]
  constructor
  · rintro ⟨hf, ⟨⟨hk, hle⟩, hend⟩, hwindow⟩
    exact ⟨hf, hk, hle, fun x hx u hu => hend u ⟨x, hx, hu⟩, hwindow⟩
  · rintro ⟨hf, hk, hle, hend, hwindow⟩
    exact ⟨hf, ⟨⟨hk, hle⟩, fun u ⟨x, hx, hu⟩ => hend x hx u hu⟩, hwindow⟩

/-- A device that is found offline. -/
structure FoundOffline (cfg : PresenceConfig) (d : DevicePresence) (at' : DateTime) : Prop where
  blocked : d.blocked = false
  impaired : d.impaired = false
  contradictory : d.contradictory = false
  everSupported : d.everSupported = true
  failures : cfg.departureConfirmations ≤ distinctCount (freshFailures cfg d.evidence at')

theorem foundOffline_of_candidate (h : candidate d at' cfg = .offline) : FoundOffline cfg d at' := by
  unfold candidate at h
  split at h
  · cases h
  next hblocked =>
  split at h
  · cases h
  next hflags =>
  split at h
  · cases h
  split at h
  · cases h
  dsimp only at h
  split at h
  · next hoffline =>
    rw [Bool.and_eq_true, decide_eq_true_eq] at hoffline
    simp only [Bool.or_eq_true, not_or, Bool.not_eq_true] at hblocked hflags
    exact ⟨hblocked, hflags.1, hflags.2, hoffline.1, hoffline.2⟩
  · split at h
    · next hstate => obtain hs | hs := hstate <;> rw [hs] at h <;> cases h
    · cases h

theorem candidate_of_gated_ne (h : gated cfg d at' ≠ d.state) :
    gated cfg d at' = candidate d at' cfg := by
  unfold gated at h ⊢
  dsimp only at h ⊢
  split at h
  · exact (h rfl).elim
  · next hgate => rw [if_neg hgate]

end Failures

/-! ### The law -/

/-- The accepted evidence shows a departure: the device was really seen, and enough distinct
confirmations failed after the last support had expired. -/
structure Departed (cfg : PresenceConfig) (evidence : List PresenceEvidence) : Prop where
  seen : ∃ x ∈ evidence, isRealPositive x.kind = true
  failures : cfg.departureConfirmations ≤ distinctCount (evidence.filter fun f =>
    f.kind = .confirmationFailure &&
      evidence.all fun x => (supportEnd cfg x).all (· < f.observedAt))

instance (cfg : PresenceConfig) (evidence : List PresenceEvidence) :
    Decidable (Departed cfg evidence) :=
  decidable_of_iff (_ ∧ _) ⟨fun h => ⟨h.1, h.2⟩, fun h => ⟨h.seen, h.failures⟩⟩

/-- The entry is no departure, or the evidence accepted before it shows one. -/
def DepartureOk (cfg : PresenceConfig) (x : PresenceEntry) (l : List PresenceEntry) : Prop :=
  match x with
  | .moved t => t.toState = .offline → Departed cfg (accepted l)
  | .accepted _ => True

instance (cfg : PresenceConfig) (x : PresenceEntry) (l : List PresenceEntry) :
    Decidable (DepartureOk cfg x l) := by
  cases x <;> unfold DepartureOk <;> infer_instance

/-- The correction window covers the windows in which support may matter, and positive evidence from
before the last departure is ingested while it is valid, or when the confirmation window has passed
since it expired. -/
def KeepsSupport : DeviceGuard
  | cfg, d, .ingest e arrival =>
    cfg.onlineWindow + cfg.confirmationWindow ≤ cfg.correctionWindow ∧
      (isLate d e = true → currentValid cfg d e arrival = true ∨
        (supportEnd cfg e).all fun u => u.nanos + cfg.confirmationWindow < arrival.nanos)
  | _, _, .evaluate _ => True

instance (cfg : PresenceConfig) (d : DevicePresence) (call : DeviceCall) :
    Decidable (KeepsSupport cfg d call) := by
  cases call <;> dsimp only [KeepsSupport] <;> infer_instance

/-! ### Runs -/

/-- What the device remembers of the accepted evidence. -/
structure Remembers (cfg : PresenceConfig) (d : DevicePresence) (evidence : List PresenceEvidence) :
    Prop where
  kept : ∀ x ∈ d.evidence, x ∈ evidence
  /-- Support that is forgotten expired before the confirmation window. -/
  support : ∀ x ∈ evidence, ∀ u, supportEnd cfg x = some u →
    x ∈ d.evidence ∨ u.nanos + cfg.confirmationWindow < d.lastEvaluation.nanos
  seen : d.everSupported = true → ∃ x ∈ evidence, isRealPositive x.kind = true

section Remembers

variable {cfg : PresenceConfig} {d : DevicePresence} {evidence : List PresenceEvidence}
  {e : PresenceEvidence} {arrival : DateTime}

theorem controlFamily_of_supportEnd {x u}
    (h : supportEnd cfg x = some u) : controlFamily x.kind = none := by
  unfold supportEnd at h
  unfold controlFamily
  cases hk : x.kind <;> simp [hk] at h ⊢

/-- Support that is not retained expired before the confirmation window. -/
theorem expired_of_not_retained
    (hcfg : cfg.onlineWindow + cfg.confirmationWindow ≤ cfg.correctionWindow)
    (hvalid : cfg.Valid) {x u} (hu : supportEnd cfg x = some u)
    (h : semanticallyRetained x arrival cfg = false) :
    u.nanos + cfg.confirmationWindow < arrival.nanos := by
  have honline := hvalid.onlineWindow
  cases hk : x.kind with
  | traffic =>
    rw [supportEnd, hk, DateTime.checkedAddSigned_eq_some] at hu
    rw [semanticallyRetained, hk, decide_eq_false_iff_not, not_le, signedDurationSince, max_lt_iff] at h
    omega
  | lease | routerAssociation | neighborCache | probeSuccess =>
    have hu : x.validUntil = some u := by simpa [supportEnd, hk] using hu
    have h : cfg.correctionWindow < signedDurationSince arrival u := by
      simpa [semanticallyRetained, hk, hu] using h
    rw [signedDurationSince] at h
    omega
  | _ =>
    rw [supportEnd, hk] at hu
    cases hu

section

variable (h : Remembers cfg d evidence)
include h

theorem Remembers.absorb (hvalid : cfg.Valid)
    (hmono : d.lastEvaluation ≤ arrival) (hg : KeepsSupport cfg d (.ingest e arrival)) :
    Remembers cfg (absorb cfg d e arrival) (e :: evidence) := by
  have habsorbed := absorb_spec cfg d e arrival
  obtain ⟨hcfg, hlate⟩ := hg
  refine ⟨habsorbed.kept h.kept, fun x hx u hu => ?_, fun hever => ?_⟩
  · rw [habsorbed.lastEvaluation]
    have hcontrol := controlFamily_of_supportEnd hu
    -- evidence that was kept may be dropped now, and the new one may not be kept
    obtain rfl | hx := mem_cons.1 hx
    · cases hretained : semanticallyRetained x arrival cfg with
      | false => exact .inr (expired_of_not_retained hcfg hvalid hu hretained)
      | true =>
        cases hkeeps : keepsInput cfg d x arrival with
        | true => exact .inl (habsorbed.mem_input hkeeps hcontrol)
        | false =>
          simp only [keepsInput, hretained, Bool.true_and, Bool.or_eq_false_iff, Bool.not_eq_false']
            at hkeeps
          have hexpired := (hlate hkeeps.1.1).resolve_left (by simp [hkeeps.1.2])
          rw [hu, Option.all_some, decide_eq_true_eq] at hexpired
          exact .inr hexpired
    · obtain hold | hgone := h.support x hx u hu
      · cases hretained : semanticallyRetained x arrival cfg with
        | false => exact .inr (expired_of_not_retained hcfg hvalid hu hretained)
        | true => exact .inl (habsorbed.mem_of_retained hold hretained hcontrol)
      · exact .inr (hgone.trans_le hmono)
  · rw [absorb_everSupported, Bool.or_eq_true, Bool.and_eq_true] at hever
    obtain hever | hreal := hever
    · obtain ⟨x, hx, hreal⟩ := h.seen hever
      exact ⟨x, mem_cons_of_mem _ hx, hreal⟩
    · exact ⟨e, mem_cons_self, hreal.1⟩

theorem Remembers.revise (state) (history : List PresenceTransition) (evictedThrough) :
    Remembers cfg (d.revise state history evictedThrough) evidence :=
  ⟨h.kept, h.support, h.seen⟩

theorem Remembers.evaluate {at'}
    (hmono : d.lastEvaluation ≤ at') : Remembers cfg { d with lastEvaluation := at' } evidence :=
  ⟨h.kept, fun x hx u hu => (h.support x hx u hu).imp_right (·.trans_le hmono), h.seen⟩

/-- What is found offline has departed. -/
theorem Remembers.departed
    (hoffline : FoundOffline cfg d d.lastEvaluation) : Departed cfg evidence := by
  refine ⟨h.seen hoffline.everSupported, hoffline.failures.trans (distinctCount_le fun f hf => ?_)⟩
  obtain ⟨hmem, hk, hle, hend, hwindow⟩ := mem_freshFailures.1 hf
  refine mem_filter.2 ⟨h.kept f hmem, ?_⟩
  rw [Bool.and_eq_true, all_eq_true, decide_eq_true_eq]
  refine ⟨hk, fun x hx => (Option.all_eq_true ..).2 fun u hu => decide_eq_true ?_⟩
  obtain hkept | hgone := h.support x hx u hu
  · exact hend x hkept u hu
  · rw [signedDurationSince] at hwindow
    exact DateTime.lt_iff.2 (by omega)

/-- A recomputation that moves a device to offline. -/
theorem Remembers.settles {id state events} (hs : Settles cfg id d d.lastEvaluation state events) :
    ∀ t ∈ events, t.toState = .offline → Departed cfg evidence := by
  cases hs with
  | stay => simp
  | move hne hdevice hfrom hto =>
    intro t ht hoffline
    rw [mem_singleton.1 ht, hto, candidate_of_gated_ne hne] at hoffline
    exact h.departed (foundOffline_of_candidate hoffline)

end

end Remembers

/-- **One device**: what it remembers is enough, and every departure is real. -/
theorem remembers_of_traced {cfg} (hvalid : cfg.Valid) {id d l}
    (h : Traced KeepsSupport cfg id d l) :
    Remembers cfg d (accepted l) ∧ Throughout (DepartureOk cfg) l := by
  induction h with
  | initial arrival => exact ⟨⟨by simp [DevicePresence.initial], by simp [accepted], nofun⟩, trivial⟩
  | @ingest d d' l e arrival authorized events h hg hdevice hmono haccepted htraffic hi ih =>
    obtain ⟨hremembers, hlaw⟩ := ih
    have htaken := hremembers.absorb hvalid hmono hg
    have hlast : (absorb cfg d e arrival).lastEvaluation = arrival := (absorb_spec ..).lastEvaluation
    rw [← map_reverse, accepted_moved_append]
    cases hi with
    | late => exact ⟨htaken, trivial, hlaw⟩
    | settled hcorrections hs =>
      refine ⟨htaken.revise .., throughout_moved ⟨trivial, hlaw⟩ fun t ht earlier hoffline => ?_⟩
      rw [accepted_moved_append]
      obtain ht | ht := mem_append.1 (mem_reverse.1 ht)
      · obtain hto | hto := (hcorrections t ht).toState <;> rw [hto] at hoffline <;> cases hoffline
      · exact htaken.settles (by rwa [hlast]) t ht hoffline
  | @evaluate d l at' state history events evictedThrough h hg hmono hs ih =>
    obtain ⟨hremembers, hlaw⟩ := ih
    have hlater := hremembers.evaluate hmono
    rw [accepted_moved_append]
    refine ⟨hlater.revise .., throughout_moved hlaw fun t ht earlier hoffline => ?_⟩
    rw [accepted_moved_append]
    exact hlater.settles hs t ht hoffline

/-- **No false departure**: in runs that keep the support, every transition to offline follows real
presence and enough failures after the last expiry of all support ever accepted. -/
theorem departed_of_keepsSupport {s : LoggedEngine} (h : loggedMachine.Via KeepsSupport.lift s) :
    Throughout (fun x l => DepartureOk s.engine.cfg x (deviceLog x.device l)) s.log :=
  (traced_of_via h).throughout fun _ _ _ htraced =>
    (remembers_of_traced s.engine.cfg_valid htraced).2

/-! ### Departures, true and false -/

/-- A device is seen, its lease and its association expire, and two confirmations fail. -/
def departure : List PresenceEvent :=
  [observed .lease 0 (some 40), observed .routerAssociation 2 (some 40),
    observed .confirmationFailure 42 none, observed .confirmationFailure 44 none]

/-- The sensor is impaired; meanwhile a lease turns up that outlived the failures but not its own
arrival; then the sensor recovers. -/
def lateLease : List PresenceEvent :=
  departure ++ [observed .sensorImpaired 46 none,
    .ingestEvents ⟨1, "sensor-a", .lease, halfSecond 20, some (halfSecond 50)⟩ (halfSecond 52),
    observed .sensorRecovered 54 none]

/-- A correction window shorter than the confirmation window. -/
def shortCorrection : PresenceConfig := { PresenceConfig.default with correctionWindow := seconds 10 }

/-- Two confirmations fail while the lease is valid; it is forgotten before they are. -/
def forgottenLease : List PresenceEvent :=
  [observed .lease 0 (some 60), observed .routerAssociation 2 (some 60),
    observed .confirmationFailure 56 none, observed .confirmationFailure 58 none,
    observed .sensorRecovered 82 none]

/-- The states that a run has moved through. -/
def movedTo (s : LoggedEngine) : List PresenceState :=
  s.log.filterMap fun
    | .moved t => some t.toState
    | .accepted _ => none

theorem departure_departed : ∃ s, loggedMachine.Via KeepsSupport.lift s ∧
    movedTo s = [.offline, .quiet] ∧
    Throughout (fun x l => DepartureOk s.engine.cfg x (deviceLog x.device l)) s.log :=
  exists_and_imp (via_loggedRun .default departure (by decide +kernel) (by decide +kernel))
    fun _ hvia _ => departed_of_keepsSupport hvia

/-- Late evidence that is not kept, and a correction window that is too short. -/
theorem falseDepartures :
    (∃ s, loggedRun .default lateLease = some s ∧ loggedMachine.Reachable s ∧
      movedTo s = [.offline, .quiet, .unknown, .offline, .quiet] ∧
      ¬Throughout (fun x l => DepartureOk s.engine.cfg x (deviceLog x.device l)) s.log) ∧
    ∃ s, loggedRun shortCorrection forgottenLease = some s ∧ loggedMachine.Reachable s ∧
      movedTo s = [.offline, .quiet] ∧
      ¬Throughout (fun x l => DepartureOk s.engine.cfg x (deviceLog x.device l)) s.log :=
  ⟨exists_loggedRun _ _ (by decide +kernel), exists_loggedRun _ _ (by decide +kernel)⟩

/-! ### Evidence that comes twice -/

section Twice

open SortedMap NeonHearth.Except PresenceEngine

variable {engine engine' : PresenceEngine} {e : PresenceEvidence} {arrival : DateTime}
  {authorized : Bool} {events : List PresenceTransition}

/-- Evidence that is not kept leaves what the device retains as it is. -/
theorem Ingested.retained {cfg id d d'} (h : Ingested cfg id d e arrival d' events)
    (hkeeps : keepsInput cfg d e arrival = false) :
    d'.evidence = d.evidence.filter fun x => semanticallyRetained x arrival cfg := by
  have hevidence := (absorb_spec cfg d e arrival).evidence
  rw [hkeeps] at hevidence
  cases h <;> exact hevidence

end Twice

end NeonHearth.Presence
