import NeonHearth.Presence.Transitions
import NeonHearth.System.Machine

/-!
# The latest verified control

The control state of a device is read from the table of transitions, where it is ordered by the times
that callers gave.

* `latestWins_of_inOrder` : the table tells what the last call that changed the control state did, in
  runs whose calls come with times that do not go back.  A release recorded with an earlier time than
  the block is not seen (`earlyRelease_not_latestWins`).
-/

namespace NeonHearth.Presence

/-- A committed call: a block or a release of a device. -/
structure ControlCall where
  device : DeviceId
  blocks : Bool

/-- What the last call that changed the control state of the device did. -/
def lastChange (d : DeviceId) : List ControlCall → Option Bool
  | [] => none
  | call :: earlier =>
    let before := lastChange d earlier
    if call.device = d ∧ call.blocks ≠ decide (before = some true) then some call.blocks else before

/-- The table and the committed calls, the latest first. -/
structure ControlTable where
  rows : List TransitionRow
  calls : List ControlCall

inductive ControlEvent where
  | recordVerifiedBlock (d : DeviceId) (at' : DateTime)
  | recordVerifiedUnblock (d : DeviceId) (at' : DateTime)
  /-- Discovery commits transitions. -/
  | commit (new : List TransitionRow)

/-- Discovery has no control evidence, so it does not block a device. -/
def TransitionRow.isDiscovered (r : TransitionRow) : Bool := !r.isControl && r.toState ≠ .blocked

def ControlTable.step (s : ControlTable) : ControlEvent → Option ControlTable
  | .recordVerifiedBlock d at' =>
    some ⟨Presence.recordVerifiedBlock s.rows d at', ⟨d, true⟩ :: s.calls⟩
  | .recordVerifiedUnblock d at' =>
    some ⟨Presence.recordVerifiedUnblock s.rows d at', ⟨d, false⟩ :: s.calls⟩
  | .commit new => if new.all (·.isDiscovered) then some { s with rows := s.rows ++ new } else none

def controlMachine : Machine ControlTable ControlEvent where
  init s := s = ⟨[], []⟩
  step := ControlTable.step

/-- The table tells whether the last change of the control state was a block. -/
def ControlTable.LatestWins (s : ControlTable) : Prop :=
  ∀ d, verifiedControlBlocked s.rows d = true ↔ lastChange d s.calls = some true

/-- The call is not recorded with an earlier time than another one of the device. -/
def ControlTable.InOrder (s : ControlTable) : ControlEvent → Prop
  | .recordVerifiedBlock d at' => (topTransition s.rows d).map (·.toState) = some .blocked ∨
      inEra at' ∧ ∀ r ∈ controlRows s.rows d, r.occurredAt ≤ at'
  | .recordVerifiedUnblock d at' => inEra at' ∧ ∀ r ∈ controlRows s.rows d, r.occurredAt ≤ at'
  | .commit _ => True

variable {s s' : ControlTable} {d : DeviceId}

/-! ### Calls -/

theorem lastChange_of_ne {call earlier} (h : call.device ≠ d) :
    lastChange d (call :: earlier) = lastChange d earlier := by
  simp [lastChange, h]

/-- After a call the control state is what the call asked for. -/
theorem lastChange_self (b : Bool) (earlier) :
    lastChange d (⟨d, b⟩ :: earlier) = some true ↔ b = true := by
  by_cases h : lastChange d earlier = some true <;> cases b <;> simp [lastChange, h]

/-! ### The table -/

theorem verifiedControlBlocked_of_some {rows r} (h : latestControl rows d = some r) :
    verifiedControlBlocked rows d = true ↔ r.toState = .blocked := by
  simp [verifiedControlBlocked, h]

/-- A row of one device does not matter for another. -/
theorem verifiedControlBlocked_append {rows new}
    (h : ∀ r ∈ new, r.deviceId = d → r.isControl = false) :
    verifiedControlBlocked (rows ++ new) d = verifiedControlBlocked rows d := by
  rw [verifiedControlBlocked, latestControl_append h, verifiedControlBlocked]

/-- What is known about the table. -/
structure ControlInv (s : ControlTable) : Prop where
  latest : s.LatestWins
  /-- Only control transitions block. -/
  discovered : ∀ r ∈ s.rows, r.isControl = false → r.toState ≠ .blocked

theorem ControlInv.shown_blocked (h : ControlInv s) :
    (topTransition s.rows d).map (·.toState) = some .blocked ↔ verifiedControlBlocked s.rows d = true := by
  rw [topTransition_eq]
  cases hc : latestControl s.rows d with
  | some r => simp [verifiedControlBlocked_of_some hc]
  | none =>
    -- without a control transition nothing is blocked
    refine iff_of_false ?_ (by simp [verifiedControlBlocked, hc])
    rw [Option.none_or]
    cases hd : latestDiscovery s.rows d with
    | none => simp
    | some r =>
      obtain ⟨hr, -, hdiscovered⟩ := mem_discoveryRows.1 (List.argmax_mem hd)
      simp [h.discovered r hr hdiscovered]

/-- A control transition that is recorded in order. -/
theorem ControlInv.record (h : ControlInv s) {r} {b : Bool}
    (hid : r.transitionId = nextControlId s.rows) (hd : r.deviceId = d) (hc : r.isControl = true)
    (hstate : r.toState = .blocked ↔ b = true)
    (horder : ∀ x ∈ controlRows s.rows d, x.occurredAt ≤ r.occurredAt) :
    ControlInv ⟨s.rows ++ [r], ⟨d, b⟩ :: s.calls⟩ := by
  refine ⟨fun d' => ?_, forall_mem_concat.2 ⟨h.discovered, fun hr => ?_⟩⟩
  · by_cases hne : d' = d
    · subst hne
      rw [verifiedControlBlocked_of_some (latestControl_concat hid hd hc horder), hstate,
        lastChange_self]
    · rw [lastChange_of_ne (Ne.symm hne), verifiedControlBlocked_append]
      · exact h.latest d'
      · simpa using fun hr => absurd (hr.symm.trans hd) hne
  · rw [hc] at hr
    cases hr

theorem ControlInv.recordVerifiedBlock (h : ControlInv s) {at'}
    (hg : s.InOrder (.recordVerifiedBlock d at')) :
    ControlInv ⟨Presence.recordVerifiedBlock s.rows d at', ⟨d, true⟩ :: s.calls⟩ := by
  unfold Presence.recordVerifiedBlock
  dsimp only
  split
  · next hblocked =>
    -- the device is blocked already: the call changes nothing
    refine ⟨fun d' => ?_, h.discovered⟩
    by_cases hne : d' = d
    · subst hne
      exact iff_of_true (h.shown_blocked.1 hblocked) ((lastChange_self true _).2 rfl)
    · rw [lastChange_of_ne (Ne.symm hne)]
      exact h.latest d'
  · next hblocked =>
    obtain ⟨-, horder⟩ := hg.resolve_left hblocked
    exact h.record rfl rfl rfl (by simp) horder

theorem ControlInv.step (h : ControlInv s) {e} (hg : s.InOrder e)
    (hs : s.step e = some s') : ControlInv s' := by
  cases e with
  | recordVerifiedBlock d at' =>
    cases hs
    exact h.recordVerifiedBlock hg
  | recordVerifiedUnblock d at' =>
    cases hs
    exact h.record rfl rfl rfl (by simp) hg.2
  | commit new =>
    rw [ControlTable.step] at hs
    split at hs
    · next hnew =>
      cases hs
      have hnew : ∀ r ∈ new, r.isControl = false ∧ r.toState ≠ .blocked := by
        simpa [TransitionRow.isDiscovered] using hnew
      refine ⟨fun d => ?_, fun r hr hdiscovered => ?_⟩
      · rw [verifiedControlBlocked_append fun r hr _ => (hnew r hr).1]
        exact h.latest d
      · obtain hr | hr := List.mem_append.1 hr
        · exact h.discovered r hr hdiscovered
        · exact (hnew r hr).2
    · cases hs

/-- **The latest verified control wins** in every run whose calls are recorded in order. -/
theorem latestWins_of_inOrder (h : controlMachine.Via ControlTable.InOrder s) : s.LatestWins := by
  refine (h.invariant (I := ControlInv) ?_ fun s e s' hi hg hs => hi.step hg hs).latest
  rintro s rfl
  exact ⟨fun d => by simp [verifiedControlBlocked, latestControl, controlRows, lastChange],
    by simp⟩

instance (s : ControlTable) (e : ControlEvent) : Decidable (s.InOrder e) := by
  cases e <;> dsimp only [ControlTable.InOrder] <;> infer_instance

/-- A block, and a release whose caller read the clock before the block's did. -/
def earlyRelease : List ControlEvent :=
  [.recordVerifiedBlock 7 (halfSecond 20), .recordVerifiedUnblock 7 (halfSecond 10)]

theorem earlyRelease_not_latestWins : ∃ s, controlMachine.Reachable s ∧
    verifiedControlBlocked s.rows 7 = true ∧ lastChange 7 s.calls = some false ∧ ¬s.LatestWins := by
  obtain ⟨s, hs, hblocked, hlast⟩ : ∃ s, controlMachine.exec ⟨[], []⟩ earlyRelease = some s ∧
      verifiedControlBlocked s.rows 7 = true ∧ lastChange 7 s.calls = some false := by
    decide +kernel
  refine ⟨s, Machine.reachable_of_exec rfl hs, hblocked, hlast, fun h => ?_⟩
  simp [(h 7).1 hblocked] at hlast

/-- A block, a repeated block with an earlier time, a release and another block. -/
def orderedCalls : List ControlEvent :=
  [.recordVerifiedBlock 7 (halfSecond 20), .recordVerifiedBlock 7 (halfSecond 10),
    .recordVerifiedUnblock 7 (halfSecond 30), .recordVerifiedBlock 7 (halfSecond 30)]

theorem orderedCalls_latestWins : ∃ s, controlMachine.exec ⟨[], []⟩ orderedCalls = some s ∧
    verifiedControlBlocked s.rows 7 = true ∧ s.LatestWins := by
  refine exists_and_imp (by decide +kernel) fun s hs _ => ?_
  exact latestWins_of_inOrder (.exec (.start rfl) (by decide +kernel) hs)

end NeonHearth.Presence
