import NeonHearth.Data.TopRow
import NeonHearth.Presence.Discovery
import NeonHearth.Presence.Replay

/-!
# The table of presence transitions

The store keeps the transitions that discovery commits and the control transitions that the policy
service records after the router has verified a block or a release.  Control transitions take
negative ids, the newest the smallest, and every query ranks them above all others.

* `topTransition_eq` : a control transition is shown as long as there is one, however old it is.
-/

namespace NeonHearth.Presence

open List PresenceTransition

/-- A number as a query sorts it. -/
def SortNumber : Type := ℤ

-- the order of the integers themselves would be found in a lattice that does not compute
instance : LinearOrder SortNumber := Int.instLinearOrder

/-- The years 0 to 9999, in which the text of times sorts like the times. -/
def inEra (t : DateTime) : Prop := -62167219200 ≤ t.timestamp ∧ t.timestamp ≤ 253402300799
  deriving Decidable

/-- A row of `presence_transitions`, with the columns that queries read. -/
structure TransitionRow where
  transitionId : ℤ
  deviceId : DeviceId
  fromState : PresenceState
  toState : PresenceState
  -- stored as RFC 3339 text
  occurredAt : DateTime
  triggerSource : String
  triggerKind : PresenceEvidenceKind
  deriving DecidableEq

namespace TransitionRow

/-- `trigger_kind IN ('enforcement_blocked','enforcement_unblocked')`. -/
def isControl (r : TransitionRow) : Bool := isEnforcement r.triggerKind

/-- The `ORDER BY` of snapshots, as a key whose greatest value comes first. -/
def rank (r : TransitionRow) : ℕ ×ₗ DateTime ×ₗ SortNumber ×ₗ SortNumber :=
  toLex (if r.isControl then 1 else 0, toLex (r.occurredAt,
    toLex ((if r.isControl then -r.transitionId else 0 : ℤ), r.transitionId)))

/-- `ORDER BY occurred_at DESC, transition_id ASC`. -/
def controlRank (r : TransitionRow) : DateTime ×ₗ SortNumber :=
  toLex (r.occurredAt, (-r.transitionId : ℤ))

/-- What the order of snapshots compares among the transitions of discovery. -/
def discoveryRank (r : TransitionRow) : DateTime ×ₗ SortNumber :=
  toLex (r.occurredAt, r.transitionId)

end TransitionRow

variable (rows : List TransitionRow) (d : DeviceId)

/-- The transition that a snapshot shows. -/
def topTransition : Option TransitionRow :=
  (rows.filter fun r => r.deviceId = d).argmax TransitionRow.rank

/-- The control transitions of a device. -/
def controlRows : List TransitionRow := rows.filter fun r => r.deviceId = d && r.isControl

/-- The transitions of a device that discovery committed. -/
def discoveryRows : List TransitionRow := rows.filter fun r => r.deviceId = d && !r.isControl

def latestControl : Option TransitionRow := (controlRows rows d).argmax TransitionRow.controlRank

def latestDiscovery : Option TransitionRow :=
  (discoveryRows rows d).argmax TransitionRow.discoveryRank

/-- `verified_control_blocked`. -/
def verifiedControlBlocked : Bool := (latestControl rows d).any (·.toState = .blocked)

/-- `COALESCE(MIN(transition_id), 0) - 1` over the negative ids. -/
def nextControlId : ℤ :=
  ((rows.filter (·.transitionId < 0)).map (·.transitionId)).foldr min 0 - 1

/-- `record_verified_block`; a device that is shown as blocked stays as it is. -/
def recordVerifiedBlock (at' : DateTime) : List TransitionRow :=
  let current := (topTransition rows d).map (·.toState)
  if current = some .blocked then rows
  else rows ++ [⟨nextControlId rows, d, current.getD .unknown, .blocked, at', "policy",
    .enforcementBlocked⟩]

/-- `record_verified_unblock`. -/
def recordVerifiedUnblock (at' : DateTime) : List TransitionRow :=
  rows ++ [⟨nextControlId rows, d, .blocked, .unknown, at', "policy", .enforcementUnblocked⟩]

/-! ### Commits of discovery -/

inductive CheckpointError where
  | invalid (reason : String)
  | corrupt (reason : String)
  | conflict (reason : String)
  | capacity (reason : String)
  | storage
  deriving DecidableEq

def wholeSeconds (t : DateTime) : Bool := t.nanos % 1000000000 = 0

/-- The checks of `validate_input` on a transition. -/
def validateTransition (t : PresenceChanged) : Except CheckpointError Unit := do
  reject (t.transitionId = 0 ∨ 2 ^ 63 ≤ t.transitionId ∨
      t.correctionOf.any fun id => id = 0 ∨ 2 ^ 63 ≤ id)
    (.invalid "transition identifier is out of SQLite range")
  reject (t.fromState = t.toState) (.invalid "presence transition cannot keep the same state")
  reject (t.correctionOf.any (t.transitionId ≤ ·))
    (.invalid "transition correction must reference an earlier identifier")
  reject (t.triggerArrivalAt < t.evidenceObservedAt ∨ t.triggerArrivalAt < t.occurredAt)
    (.invalid "transition timestamps are not causally ordered")
  reject (¬wholeSeconds t.occurredAt ∨ ¬wholeSeconds t.evidenceObservedAt ∨
      ¬wholeSeconds t.triggerArrivalAt ∨ t.evidenceValidUntil.any fun u => ¬wholeSeconds u)
    (.invalid "transition timestamps must be whole UTC seconds")
  reject (t.evidenceValidUntil.any (· < t.evidenceObservedAt))
    (.invalid "transition evidence expiry is before observation")

def PresenceTransition.row (t : PresenceTransition) : TransitionRow :=
  ⟨t.transitionId, t.deviceId, t.fromState, t.toState, t.occurredAt, t.trigger.source,
    t.trigger.kind⟩

/-- `insert_transition`, for the columns of `Row`. -/
def insertRow {Row : Type} [DecidableEq Row] (id : Row → ℤ) (rows : List Row) (transition : ℕ)
    (correctionOf : Option ℕ) (row : Row) : Except CheckpointError (List Row) := do
  reject (correctionOf.any fun target => !rows.any fun r => id r = target)
    (.invalid s!"transition {transition} references a missing correction target")
  match rows.find? fun r => id r = transition with
  | some existing =>
    reject (existing ≠ row) (.conflict s!"transition {transition} already exists with different data")
    return rows
  | none => return rows ++ [row]

def insertTransition (t : PresenceTransition) : Except CheckpointError (List TransitionRow) :=
  insertRow (·.transitionId) rows t.transitionId t.correctionOf t.row

/-- The transitions of a commit. -/
def commitTransitions (transitions : List PresenceTransition) :
    Except CheckpointError (List TransitionRow) := do
  transitions.forM fun t => validateTransition (.ofTransition t)
  transitions.foldlM insertTransition rows

/-! ### Control transitions rank first -/

variable {rows : List TransitionRow} {d : DeviceId} {r : TransitionRow}

theorem mem_controlRows :
    r ∈ controlRows rows d ↔ r ∈ rows ∧ r.deviceId = d ∧ r.isControl = true := by
  simp [controlRows]

theorem mem_discoveryRows :
    r ∈ discoveryRows rows d ↔ r ∈ rows ∧ r.deviceId = d ∧ r.isControl = false := by
  simp [discoveryRows]

open TransitionRow

/-- **The transition that a snapshot shows** is the latest control transition, and one of discovery
only for a device without any. -/
theorem topTransition_eq (rows d) :
    topTransition rows d = (latestControl rows d).or (latestDiscovery rows d) := by
  have hrank : ∀ a ∈ rows.filter fun r => r.deviceId = d, ∀ b ∈ rows.filter fun r => r.deviceId = d,
      a.isControl = true → b.isControl = false → b.rank < a.rank := by
    intro a _ b _ ha hb
    simp only [rank, ha, hb, Prod.Lex.toLex_lt_toLex]
    exact .inl Nat.zero_lt_one
  rw [topTransition, argmax_eq_or isControl hrank, filter_filter, filter_filter]
  congr 1
  · have hrows : (rows.filter fun r => r.isControl && decide (r.deviceId = d)) =
        controlRows rows d := filter_congr fun r _ => Bool.and_comm ..
    rw [hrows]
    refine argmax_congr fun a ha b hb => ?_
    simp only [rank, controlRank, (mem_controlRows.1 ha).2.2,
      (mem_controlRows.1 hb).2.2, if_true, Prod.Lex.toLex_lt_toLex, lt_irrefl, true_and, false_or]
    refine or_congr_right (and_congr_right fun _ => or_iff_left ?_)
    rintro ⟨heq, hlt⟩
    have heq' : a.transitionId = b.transitionId := neg_injective heq
    exact absurd hlt (heq' ▸ lt_irrefl _)
  · have hrows : (rows.filter fun r => !r.isControl && decide (r.deviceId = d)) =
        discoveryRows rows d := filter_congr fun r _ => Bool.and_comm ..
    rw [hrows]
    refine argmax_congr fun a ha b hb => ?_
    simp only [rank, discoveryRank, (mem_discoveryRows.1 ha).2.2, (mem_discoveryRows.1 hb).2.2,
      Prod.Lex.toLex_lt_toLex, lt_irrefl, true_and, false_or, Bool.false_eq_true, if_false]
    exact or_congr_right (and_congr_right fun _ =>
      (or_iff_right (lt_irrefl (0 : ℤ))).trans (and_iff_right rfl))

/-! ### Appending -/

theorem controlRows_append (new) :
    controlRows (rows ++ new) d = controlRows rows d ++ controlRows new d := filter_append ..

theorem discoveryRows_append (new) :
    discoveryRows (rows ++ new) d = discoveryRows rows d ++ discoveryRows new d :=
  filter_append ..

variable {new : List TransitionRow}

theorem filter_append_of_false {p : TransitionRow → Bool} (h : ∀ r ∈ new, p r = false) :
    (rows ++ new).filter p = rows.filter p := by
  have hnil : new.filter p = [] := filter_eq_nil_iff.2 (by simpa using h)
  rw [filter_append, hnil, append_nil]

theorem latestControl_append (h : ∀ r ∈ new, r.deviceId = d → r.isControl = false) :
    latestControl (rows ++ new) d = latestControl rows d := by
  rw [latestControl, controlRows, filter_append_of_false (by simpa using h)]
  rfl

theorem latestDiscovery_append (h : ∀ r ∈ new, r.deviceId = d → r.isControl = true) :
    latestDiscovery (rows ++ new) d = latestDiscovery rows d := by
  rw [latestDiscovery, discoveryRows, filter_append_of_false (by simpa using h)]
  rfl

theorem foldr_min_le {l : List ℤ} {i : ℤ} (h : i ∈ 0 :: l) : l.foldr min 0 ≤ i := by
  induction l with
  | nil => exact (mem_singleton.1 h).ge
  | cons j l ih =>
    obtain rfl | h := mem_cons.1 ((Perm.swap ..).mem_iff.1 h)
    · exact min_le_left ..
    · exact (min_le_right ..).trans (ih h)

theorem nextControlId_neg (rows) : nextControlId rows < 0 :=
  Int.sub_one_lt_of_le (foldr_min_le mem_cons_self)

theorem nextControlId_lt (hr : r ∈ rows) : nextControlId rows < r.transitionId := by
  by_cases hneg : r.transitionId < 0
  · have hmem : r ∈ rows.filter (·.transitionId < 0) :=
      mem_filter.2 ⟨hr, decide_eq_true hneg⟩
    exact Int.sub_one_lt_of_le (foldr_min_le (mem_cons_of_mem _ (mem_map_of_mem hmem)))
  · exact (nextControlId_neg rows).trans_le (not_lt.1 hneg)

/-- A control transition with a fresh id that is not older than the others is the latest one. -/
theorem latestControl_concat (hid : r.transitionId = nextControlId rows) (hd : r.deviceId = d)
    (hc : r.isControl = true) (hnew : ∀ x ∈ controlRows rows d, x.occurredAt ≤ r.occurredAt) :
    latestControl (rows ++ [r]) d = some r := by
  have hsingle : controlRows [r] d = [r] := by simp [controlRows, hd, hc]
  rw [latestControl, controlRows_append, hsingle]
  refine argmax_concat_of_lt fun x hx => Prod.Lex.toLex_lt_toLex.2 ?_
  obtain hlt | heq := lt_or_eq_of_le (hnew x hx)
  · exact .inl hlt
  · refine .inr ⟨heq, ?_⟩
    have := nextControlId_lt (mem_controlRows.1 hx).1
    exact neg_lt_neg (hid ▸ this)

/-- Discovery appends transitions of one device with increasing ids at one time: the last of them
is the latest one. -/
theorem latestDiscovery_append_of_lt {arrival}
    (hnew : ∀ r ∈ new, r.deviceId = d ∧ r.isControl = false ∧ r.occurredAt = arrival)
    (hold : ∀ r ∈ discoveryRows rows d, r.occurredAt ≤ arrival ∧
      ∀ x ∈ new, r.transitionId < x.transitionId)
    (hids : new.Pairwise fun a b => a.transitionId < b.transitionId) :
    latestDiscovery (rows ++ new) d = new.getLast?.or (latestDiscovery rows d) := by
  have hall : discoveryRows new d = new := by
    refine filter_eq_self.2 fun r hr => ?_
    simp [(hnew r hr).1, (hnew r hr).2.1]
  have hrank : ∀ a b : TransitionRow, a.occurredAt ≤ b.occurredAt → a.transitionId < b.transitionId →
      a.discoveryRank < b.discoveryRank := by
    intro a b hle hlt
    refine Prod.Lex.toLex_lt_toLex.2 ?_
    obtain h | h := lt_or_eq_of_le hle
    · exact .inl h
    · exact .inr ⟨h, hlt⟩
  rw [latestDiscovery, discoveryRows_append, hall]
  refine argmax_append_of_lt (fun a ha b hb => ?_) (hids.imp_of_mem fun {a b} ha hb hlt => ?_)
  · exact hrank a b ((hnew b hb).2.2 ▸ (hold a ha).1) ((hold a ha).2 b hb)
  · exact hrank a b (by rw [(hnew a ha).2.2, (hnew b hb).2.2]) hlt

/-- A commit of transitions with fresh ids appends them. -/
theorem commitTransitions_eq {transitions rows'}
    (h : commitTransitions rows transitions = .ok rows')
    (hfresh : ∀ r ∈ rows, ∀ t ∈ transitions, r.transitionId ≠ t.transitionId)
    (hids : transitions.Pairwise fun a b => a.transitionId < b.transitionId) :
    rows' = rows ++ transitions.map row := by
  obtain ⟨_, -, h⟩ := Except.bind_eq_ok.1 h
  refine foldlM_invariant h (I := fun done rows' => rows' = rows ++ done.map row)
    (by simp) ?_
  rintro done t rest _ rows' hsplit rfl hinsert
  obtain ⟨_, -, hinsert⟩ := Except.bind_eq_ok.1 hinsert
  have hnone : (rows ++ done.map row).find?
      (fun r => r.transitionId = (t.transitionId : ℤ)) = none := by
    refine List.find?_eq_none.2 fun r hr => ?_
    simp only [decide_eq_true_eq]
    obtain hr | hr := mem_append.1 hr
    · exact hfresh r hr t (by simp [hsplit])
    · obtain ⟨u, hu, rfl⟩ := mem_map.1 hr
      rw [hsplit] at hids
      have := (pairwise_append.1 hids).2.2 u hu t mem_cons_self
      simp only [row]
      omega
  rw [hnone] at hinsert
  rw [← Except.pure_eq_ok.1 hinsert, map_append, append_assoc]
  rfl

end NeonHearth.Presence
