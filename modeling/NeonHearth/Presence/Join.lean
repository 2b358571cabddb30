import NeonHearth.Presence.Departure

/-!
# Joins

A device joins when it becomes online or quiet after it was unknown, offline or blocked.  The join
gate asks for enough distinct confirmations in the window, but it only looks at devices that are
unknown or offline.  A blocked device passes it by: after the release a single observation is enough
(`releasedDevice_not_joined`).

* `joined_of_confirmsRelease` : every join is confirmed, if no device is released whose evidence
  supports presence without enough confirmations.
-/

namespace NeonHearth.Presence

open List Prod

/-- The real observations in the confirmation window that ends at `at'`. -/
def windowConfirmations (cfg : PresenceConfig) (evidence : List PresenceEvidence) (at' : DateTime) :
    ℕ :=
  distinctCount (evidence.filter fun e => isRealPositive e.kind && e.observedAt ≤ at' &&
    signedDurationSince at' e.observedAt ≤ cfg.confirmationWindow)

/-- A transition by which a device joins. -/
structure Joins (t : PresenceTransition) : Prop where
  current : t.correctionOf = none
  fromState : t.fromState = .unknown ∨ t.fromState = .offline ∨ t.fromState = .blocked
  toState : t.toState = .online ∨ t.toState = .quiet

instance (t : PresenceTransition) : Decidable (Joins t) :=
  decidable_of_iff (_ ∧ _ ∧ _)
    ⟨fun h => ⟨h.1, h.2.1, h.2.2⟩, fun h => ⟨h.current, h.fromState, h.toState⟩⟩

/-- The entry is no join, or the evidence accepted before it confirms it. -/
def JoinOk (cfg : PresenceConfig) (x : PresenceEntry) (l : List PresenceEntry) : Prop :=
  match x with
  | .moved t => Joins t → cfg.joinConfirmations ≤ windowConfirmations cfg (accepted l) t.occurredAt
  | .accepted _ => True

instance (cfg : PresenceConfig) (x : PresenceEntry) (l : List PresenceEntry) :
    Decidable (JoinOk cfg x l) := by
  induction x using PresenceEntry.casesOn <;> unfold JoinOk <;> infer_instance

/-- A blocked device is released only while its sensor is impaired or contradicted, while none of its
evidence supports presence, or with enough confirmations in the window. -/
def ConfirmsRelease : DeviceGuard
  | cfg, d, .ingest e arrival => e.kind = .enforcementUnblocked → d.state = .blocked →
      d.impaired = true ∨ d.contradictory = true ∨
      (∀ x ∈ d.evidence, supportAt x arrival d.everSupported cfg.onlineWindow = none) ∨
      cfg.joinConfirmations ≤ windowConfirmations cfg d.evidence arrival
  | _, _, .evaluate _ => True

instance (cfg : PresenceConfig) (d : DevicePresence) (call : DeviceCall) :
    Decidable (ConfirmsRelease cfg d call) := by
  induction call using DeviceCall.casesOn <;> dsimp only [ConfirmsRelease] <;> infer_instance

/-! ### The state -/

section State

variable {cfg : PresenceConfig} {d : DevicePresence} {at' : DateTime}

theorem windowConfirmations_le {l l'} (h : ∀ x ∈ l, x ∈ l') :
    windowConfirmations cfg l at' ≤ windowConfirmations cfg l' at' := by
  refine distinctCount_le fun x hx => ?_
  obtain ⟨hmem, hx⟩ := mem_filter.1 hx
  exact mem_filter.2 ⟨h x hmem, hx⟩

theorem confirmed_of_gated (hstate : d.state = .unknown ∨ d.state = .offline)
    (hne : gated cfg d at' ≠ d.state) (hto : gated cfg d at' = .online ∨ gated cfg d at' = .quiet) :
    cfg.joinConfirmations ≤ windowConfirmations cfg d.evidence at' := by
  rw [candidate_of_gated_ne hne] at hto
  by_contra hfew
  refine hne ?_
  rw [gated]
  exact if_pos ⟨hto, hstate, not_le.1 hfew⟩

/-- Evidence that supports nothing makes no device online or quiet. -/
theorem candidate_of_unsupported (hstate : d.state = .blocked)
    (h : d.impaired = true ∨ d.contradictory = true ∨
      ∀ x ∈ d.evidence, supportAt x at' d.everSupported cfg.onlineWindow = none) :
    ¬(candidate d at' cfg = .online ∨ candidate d at' cfg = .quiet) := by
  unfold candidate
  split
  · simp
  split
  · simp
  next hflags =>
  simp only [Bool.or_eq_true, not_or] at hflags
  have hnone := (h.resolve_left hflags.1).resolve_left hflags.2
  split
  · next htraffic =>
    simp only [any_eq_true, Bool.and_eq_true, decide_eq_true_eq] at htraffic
    obtain ⟨x, hx, ⟨hk, hle⟩, hwindow⟩ := htraffic
    have hx := hnone x hx
    rw [supportAt, if_neg (not_lt.2 hle), hk] at hx
    simp only [hwindow, if_true] at hx
    cases hx
  split
  · next hsupport =>
    simp only [Bool.and_eq_true, any_eq_true, Bool.or_eq_true, decide_eq_true_eq] at hsupport
    obtain ⟨⟨x, hx, ⟨hk, hle⟩, hvalid⟩, hever⟩ := hsupport
    have hx := hnone x hx
    rw [supportAt, if_neg (not_lt.2 hle)] at hx
    rcases hk with ((hk | hk) | hk) | hk <;> simp [hk, hvalid, hever] at hx
  · dsimp only
    split
    · simp
    · simp [hstate]

end State

/-! ### One device -/

/-- What holds of a device and the evidence accepted for it. -/
structure Attested (d : DevicePresence) (evidence : List PresenceEvidence) : Prop where
  kept : ∀ x ∈ d.evidence, x ∈ evidence
  blocked_iff : d.blocked = true ↔ d.state = .blocked

section Attested

variable {cfg : PresenceConfig} {d : DevicePresence} {evidence : List PresenceEvidence}
  {id : DeviceId} {e : PresenceEvidence} {arrival at' : DateTime} {events : List PresenceTransition}

/-- The state agrees with the flag after a recomputation. -/
theorem Settles.blocked_iff {state}
    (h : Settles cfg id d at' state events) : d.blocked = true ↔ state = .blocked := by
  cases h with
  | stay hsame => rw [← hsame, gated_eq_blocked]
  | move => exact gated_eq_blocked.symm

/-- A recomputation, at which a blocked device may not join without confirmations. -/
theorem joined_of_settles (hkept : ∀ x ∈ d.evidence, x ∈ evidence) (hblocked : d.state = .blocked →
      ¬(candidate d at' cfg = .online ∨ candidate d at' cfg = .quiet) ∨
      cfg.joinConfirmations ≤ windowConfirmations cfg evidence at') {state}
    (hs : Settles cfg id d at' state events) :
    ∀ t ∈ events, Joins t → cfg.joinConfirmations ≤ windowConfirmations cfg evidence t.occurredAt := by
  cases hs with
  | stay => simp
  | move hne hdevice hfrom hto hoccurred =>
    intro t ht hjoins
    rw [mem_singleton.1 ht] at hjoins ⊢
    have hgated := hto ▸ hjoins.toState
    rw [hoccurred]
    obtain hstate | hstate | hstate := hjoins.fromState
    · exact (confirmed_of_gated (.inl (hfrom.symm.trans hstate)) hne hgated).trans
        (windowConfirmations_le hkept)
    · exact (confirmed_of_gated (.inr (hfrom.symm.trans hstate)) hne hgated).trans
        (windowConfirmations_le hkept)
    · rw [candidate_of_gated_ne hne] at hgated
      exact (hblocked (hfrom.symm.trans hstate)).resolve_left fun hnot => hnot hgated

theorem candidate_blocked (h : d.blocked = true) :
    ¬(candidate d at' cfg = .online ∨ candidate d at' cfg = .quiet) := by
  simp [candidate_of_blocked h]

/-- A blocked device that takes evidence in stays blocked, or it is released under the condition. -/
theorem Attested.released (h : Attested d evidence) (hg : ConfirmsRelease cfg d (.ingest e arrival))
    (hstate : d.state = .blocked) :
    ¬(candidate (absorb cfg d e arrival) arrival cfg = .online ∨
        candidate (absorb cfg d e arrival) arrival cfg = .quiet) ∨
      cfg.joinConfirmations ≤ windowConfirmations cfg (e :: evidence) arrival := by
  have habsorbed := absorb_spec cfg d e arrival
  have hcontrol := habsorbed.control
  have hset : d.blocked = true := h.blocked_iff.2 hstate
  by_cases hk : e.kind = .enforcementUnblocked
  · have hreal : isRealPositive e.kind = false := by rw [hk]; rfl
    have hever : (absorb cfg d e arrival).everSupported = d.everSupported := by
      rw [absorb_everSupported, hreal, Bool.false_and, Bool.or_false]
    have hflag : ∀ family, family ≠ 0 →
        (absorb cfg d e arrival).control family = d.control family := by
      intro family hne
      refine (hcontrol family).trans (control_applyFlags_of_ne fun hfamily => hne ?_)
      rw [hk] at hfamily
      exact (Option.some.inj hfamily).symm
    have hstate' : (absorb cfg d e arrival).state = .blocked := habsorbed.state.trans hstate
    obtain himpaired | hcontradictory | hnone | henough := hg hk hstate
    · refine .inl (candidate_of_unsupported hstate' (.inl ?_))
      exact (congrArg fst (hflag 1 (by decide))).trans himpaired
    · refine .inl (candidate_of_unsupported hstate' (.inr (.inl ?_)))
      exact (congrArg fst (hflag 2 (by decide))).trans hcontradictory
    · refine .inl (candidate_of_unsupported hstate' (.inr (.inr fun x hx => ?_)))
      rw [hever]
      obtain hx | rfl := habsorbed.mem_evidence hx
      · exact hnone x hx
      · rw [supportAt, hk]
        split <;> rfl
    · refine .inr (henough.trans (windowConfirmations_le fun x hx => ?_))
      exact mem_cons_of_mem _ (h.kept x hx)
  · refine .inl (candidate_blocked ?_)
    have hflags : (applyFlags d e).blocked = true := by
      unfold applyFlags
      split
      case h_2 => contradiction
      all_goals
        first
        | exact hset
        | split <;> first | rfl | exact hset
    exact (congrArg fst (hcontrol 0)).trans hflags

/-- **One device**: every join is confirmed. -/
theorem attested_of_traced {l} (h : Traced ConfirmsRelease cfg id d l) :
    Attested d (accepted l) ∧ Throughout (JoinOk cfg) l := by
  induction h with
  | initial arrival => exact ⟨⟨by rintro x ⟨⟩, iff_of_false nofun nofun⟩, trivial⟩
  | @ingest d d' l e arrival authorized events h hg hdevice hmono haccepted htraffic hi ih =>
    obtain ⟨hattested, hlaw⟩ := ih
    have hkept := (absorb_spec cfg d e arrival).kept hattested.kept
    rw [← map_reverse, accepted_moved_append]
    cases hi with
    | late hlate =>
      have hflags : (absorb cfg d e arrival).blocked = d.blocked ∧ _ :=
        flags_absorb_positive (positive_of_late hlate)
      refine ⟨⟨hkept, ?_⟩, trivial, hlaw⟩
      rw [hflags.1, (absorb_spec cfg d e arrival).state]
      exact hattested.blocked_iff
    | settled hcorrections hs =>
      refine ⟨⟨hkept, hs.blocked_iff⟩, throughout_moved ⟨trivial, hlaw⟩ fun t ht earlier hjoins => ?_⟩
      rw [accepted_moved_append]
      obtain ht | ht := mem_append.1 (mem_reverse.1 ht)
      · exact ((hcorrections t ht).correctionOf hjoins.current).elim
      · refine joined_of_settles hkept (fun hstate => ?_) hs t ht hjoins
        exact hattested.released hg ((absorb_spec cfg d e arrival).state.symm.trans hstate)
  | @evaluate d l at' state history events evictedThrough h hg hmono hs ih =>
    obtain ⟨hattested, hlaw⟩ := ih
    rw [accepted_moved_append]
    refine ⟨⟨hattested.kept, hs.blocked_iff⟩, throughout_moved hlaw fun t ht earlier hjoins => ?_⟩
    rw [accepted_moved_append]
    -- Without new evidence the flag still holds a blocked device.
    refine joined_of_settles (d := { d with lastEvaluation := at' }) hattested.kept
      (fun hstate => .inl (candidate_blocked ?_)) hs t ht hjoins
    exact hattested.blocked_iff.2 hstate

end Attested

/-- **Join hysteresis** in runs that confirm releases: every device that becomes online or quiet after
it was unknown, offline or blocked has enough real confirmations in the window. -/
theorem joined_of_confirmsRelease {s : LoggedEngine}
    (h : loggedMachine.Via ConfirmsRelease.lift s) :
    Throughout (fun x l => JoinOk s.engine.cfg x (deviceLog x.device l)) s.log :=
  (traced_of_via h).throughout fun _ _ _ htraced => (attested_of_traced htraced).2

/-- A device is blocked, seen twice, and released. -/
def confirmedRelease : List PresenceEvent :=
  [.recordVerifiedEnforcement 1 true "sensor-a" (halfSecond 0) (halfSecond 0),
    observed .traffic 2 none, observed .traffic 4 none,
    .recordVerifiedEnforcement 1 false "sensor-a" (halfSecond 6) (halfSecond 6)]

/-- A device is blocked, seen once, and released. -/
def releasedDevice : List PresenceEvent :=
  [.recordVerifiedEnforcement 1 true "sensor-a" (halfSecond 0) (halfSecond 0),
    observed .traffic 2 none,
    .recordVerifiedEnforcement 1 false "sensor-a" (halfSecond 4) (halfSecond 4)]

theorem confirmedRelease_joined : ∃ s, loggedMachine.Via ConfirmsRelease.lift s ∧
    movedTo s = [.online, .blocked] ∧
    Throughout (fun x l => JoinOk s.engine.cfg x (deviceLog x.device l)) s.log :=
  exists_and_imp (via_loggedRun .default confirmedRelease (by decide +kernel) (by decide +kernel))
    fun _ hvia _ => joined_of_confirmsRelease hvia

theorem releasedDevice_not_joined : ∃ s, loggedMachine.Reachable s ∧
    movedTo s = [.online, .blocked] ∧ s.engine.cfg.joinConfirmations = 2 ∧
    ¬Throughout (fun x l => JoinOk s.engine.cfg x (deviceLog x.device l)) s.log :=
  (exists_loggedRun .default releasedDevice (by decide +kernel)).imp fun _ h => h.2

end NeonHearth.Presence
