import NeonHearth.Data.LatestWrite
import NeonHearth.Presence.Journal

/-!
# Control flags

Enforcement, impairment and contradiction messages may reach the engine in any order.  Each family is
a flag with a clock, which is to hold what the newest message says, a restrictive one if several speak
of the newest time.

* `control_latest` : flags and clocks are a function of the set of messages that were submitted, in
  whatever order they came and whatever happened between them;
* `state_of_flags` : the state is blocked exactly while the flag is, and unknown while the device is
  impaired or contradictory and not blocked.

Two paths drop messages: `staleControl` before anything changes, and `pruneControlEvidence`, which
drops them from the evidence.  Neither loses anything, since a message that is dropped was a write
that is older than the flag (`DeviceRun.latest`).
-/

namespace NeonHearth.Presence

open Option Prod

/-- What messages of one family write: the time they speak of and the flag. -/
def controlWrites (family : Fin 3) (submitted : List PresenceEvidence) : Set (DateTime × Bool) :=
  {w | ∃ e ∈ submitted, controlFamily e.kind = some family ∧
    w = (e.observedAt, decide (e.kind = activeKind family))}

section Writes

variable {family : Fin 3} {e : PresenceEvidence} {submitted : List PresenceEvidence}

theorem controlWrites_cons (hfam : controlFamily e.kind = some family) :
    controlWrites family (e :: submitted) =
      insert (e.observedAt, decide (e.kind = activeKind family)) (controlWrites family submitted) := by
  ext w
  simp [controlWrites, hfam]

theorem controlWrites_cons_of_ne (hfam : controlFamily e.kind ≠ some family) :
    controlWrites family (e :: submitted) = controlWrites family submitted := by
  ext w
  simp [controlWrites, hfam]

/-- Only the set of messages of the family counts. -/
theorem controlWrites_congr {submitted'}
    (h : ∀ e, controlFamily e.kind = some family → (e ∈ submitted ↔ e ∈ submitted')) :
    controlWrites family submitted = controlWrites family submitted' := by
  ext w
  constructor
  · rintro ⟨e, he, hfam, hw⟩
    exact ⟨e, (h e hfam).1 he, hfam, hw⟩
  · rintro ⟨e, he, hfam, hw⟩
    exact ⟨e, (h e hfam).2 he, hfam, hw⟩

/-- The flag of a family, read off the messages. -/
theorem flag_iff_of_latest {r} (h : LatestWrite (controlWrites family submitted) r) :
    r.1 = true ↔ ∃ e ∈ submitted, e.kind = activeKind family ∧
      ∀ x ∈ submitted, controlFamily x.kind = some family → x.observedAt ≤ e.observedAt := by
  refine h.flag_iff.trans ⟨?_, ?_⟩
  · rintro ⟨t, ⟨e, he, hfam, heq⟩, hle⟩
    obtain ⟨rfl, hactive⟩ := Prod.mk.inj heq
    exact ⟨e, he, of_decide_eq_true hactive.symm, fun x hx hxfam => hle _ ⟨x, hx, hxfam, rfl⟩⟩
  · rintro ⟨e, he, hactive, hle⟩
    refine ⟨e.observedAt, ⟨e, he, controlFamily_eq_some.2 (.inl hactive), ?_⟩, ?_⟩
    · rw [decide_eq_true hactive]
    · rintro w ⟨x, hx, hxfam, rfl⟩
      exact hle x hx hxfam

end Writes

/-! ### The flags of a device -/

section Device

variable {family : Fin 3} {e : PresenceEvidence} {d : DevicePresence}
  {submitted : List PresenceEvidence}

theorem latest_of_stale (h : LatestWrite (controlWrites family submitted) (d.control family))
    (hstale : staleControl d e = true) :
    LatestWrite (controlWrites family (e :: submitted)) (d.control family) := by
  by_cases hfam : controlFamily e.kind = some family
  · rw [staleControl_eq hfam] at hstale
    rw [controlWrites_cons hfam]
    generalize d.control family = r at h hstale ⊢
    obtain ⟨flag, clock⟩ := r
    obtain ⟨clock, rfl, hold⟩ := (any_eq_true ..).1 hstale
    refine h.insert_stale ?_
    simpa using hold
  · rwa [controlWrites_cons_of_ne hfam]

/-- A message that is not stale is what the flag and the clock hold afterwards. -/
theorem latest_of_fresh (h : LatestWrite (controlWrites family submitted) (d.control family))
    (hfresh : staleControl d e = false) :
    LatestWrite (controlWrites family (e :: submitted)) ((applyFlags d e).control family) := by
  by_cases hfam : controlFamily e.kind = some family
  · rw [controlWrites_cons hfam,
      control_applyFlags hfam fun clock hclock => clock_le_of_not_stale hfresh hfam hclock]
    refine h.insert_fresh fun clock hclock => ?_
    rw [staleControl_eq hfam, staleControlAt, hclock] at hfresh
    simp only [any_some, Bool.or_eq_false_iff, decide_eq_false_iff_not, not_lt,
      Bool.and_eq_false_imp, decide_eq_true_eq] at hfresh
    obtain ⟨hle, hsame⟩ := hfresh
    refine hle.lt_or_eq.imp_right fun heq => ⟨heq, ?_⟩
    simpa using (hsame heq.symm).2
  · rw [controlWrites_cons_of_ne hfam, control_applyFlags_of_ne hfam]
    exact h

variable {emitted : List PresenceTransition}

/-- **One device**: its flags and clocks are what all messages that were submitted give. -/
theorem DeviceRun.latest {id}
    (h : DeviceRun id d submitted emitted) : (∀ x ∈ d.evidence, x ∈ submitted) ∧
      ∀ family, LatestWrite (controlWrites family submitted) (d.control family) := by
  induction h with
  | initial arrival =>
    refine ⟨by simp [DevicePresence.initial], fun family => ?_⟩
    have hunset : (DevicePresence.initial arrival).control family = (false, none) := by
      fin_cases family <;> rfl
    rw [hunset]
    exact .unset (by simp [controlWrites])
  | @ignored d submitted emitted e h hskip ih =>
    refine ⟨fun x hx => List.mem_cons_of_mem _ (ih.1 x hx), fun family => ?_⟩
    obtain hmem | hstale := hskip
    · -- what the device has was submitted before, so the set of messages is the same
      have hsame : controlWrites family (e :: submitted) = controlWrites family submitted := by
        refine controlWrites_congr fun x _ => List.mem_cons.trans (or_iff_right_of_imp ?_)
        rintro rfl
        exact ih.1 x hmem
      rw [hsame]
      exact ih.2 family
    · exact latest_of_stale (ih.2 family) hstale
  | @ingested d d' submitted emitted events e cfg arrival next h _ _ hfresh hrecorded _ ih =>
    obtain ⟨hevidence, hcontrol⟩ := hrecorded.frame
    have habsorbed := absorb_spec cfg d e arrival
    refine ⟨fun x hx => habsorbed.kept ih.1 x (hevidence ▸ hx), fun family => ?_⟩
    rw [hcontrol, habsorbed.control]
    exact latest_of_fresh (ih.2 family) hfresh
  | @evaluated d d' submitted emitted events cfg at' next h _ _ hrecorded _ ih =>
    obtain ⟨hevidence, hcontrol⟩ := hrecorded.frame
    refine ⟨fun x hx => ih.1 x (hevidence ▸ hx), fun family => ?_⟩
    rw [hcontrol, show ({ d with lastEvaluation := at' } : DevicePresence).control family =
      d.control family from control_eq rfl rfl rfl rfl rfl rfl family]
    exact ih.2 family

/-- The state is what the flags demand. -/
structure Governed (d : DevicePresence) : Prop where
  blocked_iff : d.state = .blocked ↔ d.blocked = true
  unknown : d.blocked = false → d.impaired = true ∨ d.contradictory = true → d.state = .unknown

theorem Governed.congr {d'} (h : Governed d) (hstate : d'.state = d.state)
    (hcontrol : ∀ family, d'.control family = d.control family) : Governed d' := by
  have hblocked : d'.blocked = d.blocked := congrArg fst (hcontrol 0)
  have himpaired : d'.impaired = d.impaired := congrArg fst (hcontrol 1)
  have hcontradictory : d'.contradictory = d.contradictory := congrArg fst (hcontrol 2)
  constructor
  · rw [hstate, hblocked]
    exact h.blocked_iff
  · rw [hstate, hblocked, himpaired, hcontradictory]
    exact h.unknown

theorem governed_of_gated {cfg at' d₁ d'}
    (hstate : d'.state = gated cfg d₁ at') (hcontrol : ∀ family, d'.control family = d₁.control family) :
    Governed d' :=
  Governed.congr (d := { d₁ with state := gated cfg d₁ at' })
    ⟨gated_eq_blocked, gated_eq_unknown (d := d₁)⟩ hstate hcontrol

theorem DeviceRun.governed {id} (h : DeviceRun id d submitted emitted) : Governed d := by
  induction h with
  | initial arrival => exact ⟨by simp [DevicePresence.initial], fun _ _ => rfl⟩
  | ignored _ _ ih => exact ih
  | @ingested d d' submitted emitted events e cfg arrival next h _ _ _ hrecorded hstate ih =>
    have hcontrol := hrecorded.frame.2
    obtain ⟨hpositive, hsame⟩ | hgated := hstate
    · -- late evidence is positive and leaves the flags alone
      exact ih.congr hsame fun family =>
        (hcontrol family).trans (control_absorb_positive hpositive family)
    · exact governed_of_gated hgated hcontrol
  | evaluated _ _ _ hrecorded hstate => exact governed_of_gated hstate hrecorded.frame.2

end Device

/-! ### Runs -/

section Runs

variable {s : Journal} {id : DeviceId} {d : DevicePresence}

theorem mem_submittedTo {e} : e ∈ s.submittedTo id ↔ e ∈ s.submitted ∧ e.deviceId = id := by
  simp [Journal.submittedTo]

/-- **Flags as a function of the messages**: the flag and the clock of every family are those of the
newest message that was submitted, restrictive ones first, and any two runs that were given the same
messages of the family agree on them. -/
theorem control_latest (h : journalMachine.Reachable s) (hd : s.engine.devices.get id = some d)
    (family : Fin 3) :
    LatestWrite (controlWrites family (s.submittedTo id)) (d.control family) ∧
      ∀ s', journalMachine.Reachable s' → ∀ d', s'.engine.devices.get id = some d' →
        (∀ e : PresenceEvidence, e.deviceId = id → controlFamily e.kind = some family →
          (e ∈ s.submitted ↔ e ∈ s'.submitted)) → d'.control family = d.control family := by
  have hlatest := ((ok_of_reachable h).known hd).latest.2 family
  refine ⟨hlatest, fun s' h' d' hd' hsame => ?_⟩
  have hlatest' := ((ok_of_reachable h').known hd').latest.2 family
  rw [controlWrites_congr fun e hfam => ?_] at hlatest'
  · exact hlatest'.unique hlatest
  · rw [mem_submittedTo, mem_submittedTo, and_congr_left fun hdevice => (hsame e hdevice hfam).symm]

/-- A device is released and blocked at the same time; the messages arrive one after the other, with a
timer between them. -/
def releaseFirst : List JournalEvent :=
  [.call (.recordVerifiedEnforcement 1 false "sensor-a" (halfSecond 60) (halfSecond 60)),
    .call (.evaluate 1 (halfSecond 61)),
    .call (.recordVerifiedEnforcement 1 true "sensor-a" (halfSecond 60) (halfSecond 62))]

/-- The same messages the other way round. -/
def blockFirst : List JournalEvent :=
  [.call (.recordVerifiedEnforcement 1 true "sensor-a" (halfSecond 60) (halfSecond 60)),
    .call (.recordVerifiedEnforcement 1 false "sensor-a" (halfSecond 60) (halfSecond 62))]

theorem releaseFirst_blockFirst : ∃ s s' d d', journalRun .default releaseFirst = some s ∧
    journalRun .default blockFirst = some s' ∧ s.engine.devices.get 1 = some d ∧
    s'.engine.devices.get 1 = some d' ∧ s'.submitted = s.submitted.reverse ∧
    d.control 0 = (true, some (halfSecond 60)) ∧ d'.control 0 = d.control 0 := by
  obtain ⟨s, hs, s', hs', d, hd, d', hd', hsubmitted, hflag⟩ :
      ∃ s, journalRun .default releaseFirst = some s ∧
        ∃ s', journalRun .default blockFirst = some s' ∧ ∃ d, s.engine.devices.get 1 = some d ∧
          ∃ d', s'.engine.devices.get 1 = some d' ∧ s'.submitted = s.submitted.reverse ∧
            d.control 0 = (true, some (halfSecond 60)) := by decide +kernel
  refine ⟨s, s', d, d', hs, hs', hd, hd', hsubmitted, hflag, ?_⟩
  refine (control_latest (reachable_journalRun hs) hd 0).2 s' (reachable_journalRun hs') d' hd' ?_
  intro e _ _
  rw [hsubmitted, List.mem_reverse]

/-- **Blocked precedence**: the state is blocked exactly when the flag is set, which is when the newest
enforcement that was submitted, or one of several at that time, is a block; an impaired or
contradictory device that is not blocked is unknown. -/
theorem state_of_flags (h : journalMachine.Reachable s) (hd : s.engine.devices.get id = some d) :
    (d.state = .blocked ↔ d.blocked = true) ∧
    (d.blocked = true ↔ ∃ e ∈ s.submitted, e.deviceId = id ∧ e.kind = .enforcementBlocked ∧
      ∀ x ∈ s.submitted, x.deviceId = id → isEnforcement x.kind = true →
        x.observedAt ≤ e.observedAt) ∧
    (d.blocked = false → d.impaired = true ∨ d.contradictory = true → d.state = .unknown) := by
  have hrun := (ok_of_reachable h).known hd
  refine ⟨hrun.governed.blocked_iff, ?_, hrun.governed.unknown⟩
  refine (flag_iff_of_latest (hrun.latest.2 0)).trans ?_
  simp only [mem_submittedTo, activeKind, isEnforcement_iff, and_imp, and_assoc]

/-- A device joins and is blocked; then the service restarts. -/
def blockedRestart : List JournalEvent := joinRun.map .call ++ [.restart .default]

theorem blockedRestart_blocked : ∃ s d, journalRun .default blockedRestart = some s ∧
    s.engine.devices.get 1 = some d ∧ d.blocked = true ∧ d.state = .blocked ∧
    ∃ e ∈ s.submitted, e.deviceId = 1 ∧ e.kind = .enforcementBlocked ∧
      ∀ x ∈ s.submitted, x.deviceId = 1 → isEnforcement x.kind = true →
        x.observedAt ≤ e.observedAt := by
  refine exists₂_and_imp (by decide +kernel) fun s d hs hd hblocked => ?_
  obtain ⟨hstate, hnewest, -⟩ := state_of_flags (reachable_journalRun hs) hd
  exact ⟨hstate.2 hblocked, hnewest.1 hblocked⟩

end Runs

end NeonHearth.Presence
