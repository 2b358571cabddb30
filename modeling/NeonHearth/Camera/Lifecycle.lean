import NeonHearth.Camera.Conserved

/-!
# The end of the session manager

Sessions and snapshots are set up under the read side of `lifecycle`, and a shutdown that is past its
write side has cleared `accepting` before.  So when a shutdown finds all permits available, no call can
get one any more.

* `sessions_conserved` : the resources are conserved in every state that is reached.
-/

namespace NeonHearth.Camera

open Books SortedMap List Option Multiset

/-- Where the call may go on without a permit. -/
def Stage.points : Stage → List Point
  | .waiting point => [point]
  | .building .. => []
  | .cleaning _ _ _ _ onOk onError => [onOk, onError]

variable {queue : List Cleanup} {onOk onError q : Point}

open Stage

theorem Stage.mem_points_next {point : Point} (hpoint : point = onOk ∨ point = onError)
    (h : q ∈ (Stage.next queue point onOk onError).points) : q = onOk ∨ q = onError := by
  cases queue with
  | nil =>
    rw [List.mem_singleton.1 h]
    exact hpoint
  | cons cleanup queue => simpa [next, points] using h

theorem Stage.eq_of_next_eq_waiting {point : Point}
    (h : Stage.next queue point onOk onError = .waiting q) : q = point := by
  cases queue with
  | nil => cases h; rfl
  | cons cleanup queue => cases h

/-- The call will return when it has cleaned up. -/
def Stage.Ends (stage : Stage) : Prop := ∀ q ∈ stage.points, ∃ result, q = .done result

theorem Stage.ends_building (job : Job) (owner : ℕ) (build : Build) :
    (Stage.building job owner build).Ends :=
  fun _ h => nomatch h

theorem Stage.ends_done (r) : (Stage.waiting (.done r)).Ends := by
  intro q hq
  exact ⟨r, List.mem_singleton.1 hq⟩

theorem Stage.ends_cleanOne (cleanup : Cleanup) (r r') :
    (Stage.cleanOne cleanup (.done r) (.done r')).Ends := by
  intro q hq
  obtain rfl | rfl := mem_points_next (.inl rfl) hq
  · exact ⟨r, rfl⟩
  · exact ⟨r', rfl⟩

/-- The guards of `lifecycle` that a call has at a point. -/
def Point.Guards (reading writing : Bool) : Point → Prop
  | .admission _ | .acquire _ => reading = true
  | .drain | .retryAll | .verdict | .stopped => writing = true
  | .done _ => True
  | _ => reading = false ∧ writing = false

/-- The points of a shutdown after it has cleared `accepting`. -/
def Point.Closing : Point → Prop
  | .lock | .drain | .retryAll | .verdict | .stopped => True
  | _ => False

/-- What steps change besides the resources. -/
structure Control where
  config : SessionConfig
  tasks : SortedMap ℕ Task
  shutDown : Bool
  accepting : Bool
  readers : ℕ
  writer : Bool

namespace Manager

variable {m m' : Manager} {t t' : Task} {a : Answer}

def control (m : Manager) : Control :=
  ⟨m.config, m.tasks, m.shutDown, m.accepting, m.readers, m.writer⟩

/-- What a step does to the guards and flags. -/
inductive Controls (m : Manager) (t : Task) (m' : Manager) (t' : Task) : Prop
  | keep (hcontrol : m'.control = m.control) (hreading : t'.reading = t.reading)
      (hwriting : t'.writing = t.writing)
  | stop (hcontrol : m'.control = { m.control with accepting := false })
      (hreading : t'.reading = t.reading) (hwriting : t'.writing = t.writing)
  | enter (hwriter : m.writer = false) (hbefore : t.reading = false)
      (hcontrol : m'.control = { m.control with readers := m.readers + 1 })
      (hreading : t'.reading = true) (hwriting : t'.writing = t.writing)
  | lock (hwriter : m.writer = false) (hreaders : m.readers = 0) (hbefore : t.writing = false)
      (hcontrol : m'.control = { m.control with writer := true })
      (hreading : t'.reading = t.reading) (hwriting : t'.writing = true)

theorem ends_abort (t : Task) (owner : ℕ) (r) : (abort t owner r).stage.Ends :=
  ends_cleanOne ⟨owner, r, 0⟩ (.error .unavailable) (.error .unavailable)

theorem build_controls {job : Job} {owner : ℕ} {b : Build}
    (h : m.build t a job owner b = (t', m')) : Controls m t m' t' ∧ t'.stage.Ends := by
  cases b with
  | authorize outputDir proxy process =>
    rw [build.eq_def] at h
    by_cases hok : a.ok = true
    · simp only [hok, if_true] at h
      cases job <;> cases h <;> exact ⟨.keep rfl rfl rfl, ends_building _ _ _⟩
    · simp only [hok] at h
      cases h
      exact ⟨.keep rfl rfl rfl, ends_abort _ _ _⟩
  | capture outputDir proxy process =>
    cases h
    exact ⟨.keep rfl rfl rfl, ends_cleanOne _ _ _⟩
  | _ =>
    -- the next step, or the end, or a cleanup of what was made
    rw [build] at h
    split_ifs at h <;> cases h <;> refine ⟨.keep rfl rfl rfl, ?_⟩ <;>
      first | exact ends_building _ _ _ | exact ends_done _ | exact ends_abort _ _ _

theorem clean_control {cleanup} {failed : Bool} {phase : Phase}
    (h : m.clean t a cleanup failed queue onOk onError phase = (t', m')) :
    m'.control = m.control ∧ t'.reading = t.reading ∧ t'.writing = t.writing ∧
      ∀ q ∈ t'.stage.points, q = onOk ∨ q = onError := by
  have hpoints : ∀ {cleanup : Cleanup} {phase : Phase} {failed : Bool} {q : Point},
      q ∈ (cleaning cleanup phase failed queue onOk onError).points →
        q = onOk ∨ q = onError := by
    simp [points]
  cases phase with
  | settle =>
    rw [clean] at h
    split_ifs at h <;> cases h
    · exact ⟨rfl, rfl, rfl, fun q hq => mem_points_next (.inr rfl) hq⟩
    · exact ⟨rfl, rfl, rfl, fun q hq => mem_points_next (.inl rfl) hq⟩
  | _ =>
    rw [clean] at h
    split at h
    · cases h
      exact ⟨rfl, rfl, rfl, fun q hq => hpoints hq⟩
    · split_ifs at h <;> cases h <;> exact ⟨rfl, rfl, rfl, fun q hq => hpoints hq⟩

/-- The points of a call fit its guards, `accepting` is cleared where they are those of a shutdown, and a
shutdown does not clean up when it has found that nothing is left. -/
def Orderly (m : Manager) (t : Task) : Prop :=
  ∀ q ∈ t.stage.points, q.Guards t.reading t.writing ∧ (q.Closing → m.accepting = false) ∧
    (q = .stopped → t.stage = .waiting .stopped)

/-- A point that matters for the end of the manager is reached only for a reason: a permit is asked for
if the manager is accepting, and a shutdown succeeds if all permits are available. -/
def Reason (m : Manager) (p : Point) : Point → Prop
  | .acquire _ => m.accepting = true
  | .stopped => p = .verdict ∧ m.available = m.config.maxSessions
  | _ => True

/-- What a step from a point does: to the guards and flags, to where the call may go on, and why it goes on
there. -/
structure Leads (m : Manager) (t : Task) (p : Point) (m' : Manager) (t' : Task) : Prop where
  controls : Controls m t m' t'
  orderly : Orderly m' t'
  reason : ∀ q, t'.stage = .waiting q → Reason m p q

variable {p : Point}

theorem leads_goto {u : Task} (hcontrols : Controls m t m' (u.goto q))
    (hguards : q.Guards u.reading u.writing) (hclosing : q.Closing → m'.accepting = false)
    (hreason : Reason m p q) : Leads m t p m' (u.goto q) where
  controls := hcontrols
  orderly := by
    intro q' hq'
    cases List.mem_singleton.1 hq'
    exact ⟨hguards, hclosing, fun h => h ▸ rfl⟩
  reason := by
    intro q' hq'
    cases hq'
    exact hreason

/-- The call may go on at the point after it has cleaned up. -/
def Fits (m : Manager) (t : Task) (p q : Point) : Prop :=
  q.Guards t.reading t.writing ∧ (q.Closing → m.accepting = false) ∧ q ≠ .stopped ∧ Reason m p q

theorem fits_done (r) : Fits m t p (.done r) := ⟨trivial, False.elim, by simp, trivial⟩

theorem leads_clean (hcontrol : m'.control = m.control) (hok : Fits m t p onOk)
    (herror : Fits m t p onError) : Leads m t p m' (t.to (.next queue onOk onOk onError)) where
  controls := .keep hcontrol rfl rfl
  orderly := by
    have haccepting : m'.accepting = m.accepting := congrArg Control.accepting hcontrol
    intro q hq
    rw [haccepting]
    obtain rfl | rfl := mem_points_next (.inl rfl) hq
    · exact ⟨hok.1, hok.2.1, fun h => absurd h hok.2.2.1⟩
    · exact ⟨herror.1, herror.2.1, fun h => absurd h herror.2.2.1⟩
  reason := by
    intro q hq
    cases eq_of_next_eq_waiting hq
    exact hok.2.2.2

theorem leads_cleanAll (hcontrol : m'.control = m.control) (h : Fits m t p q) :
    Leads m t p m' (t.to (.cleanAll queue q)) :=
  leads_clean hcontrol h h

theorem leads_atPoint (hguards : p.Guards t.reading t.writing)
    (hclosing : p.Closing → m.accepting = false) (h : m.atPoint t a p = some (t', m')) :
    Leads m t p m' t' := by
  have hdone : ∀ {m'} r, m'.control = m.control → Leads m t p m' (t.goto (.done r)) :=
    fun r hcontrol => leads_goto (.keep hcontrol rfl rfl) trivial False.elim trivial
  cases p with
  | retry includeCrashed after =>
    cases h
    exact leads_cleanAll rfl ⟨hguards, False.elim, by simp, trivial⟩
  | expire includeCrashed after =>
    cases h
    refine leads_cleanAll rfl ?_
    cases after with
    | resolve job | readFile session => exact ⟨hguards, False.elim, by simp [AfterReap.point], trivial⟩
    | finish => exact fits_done _
  | enter job =>
    rw [atPoint, ite_none_left_eq_some, Bool.not_eq_true] at h
    cases h.2
    exact leads_goto (u := { t with reading := true }) (.enter h.1 hguards.1 rfl rfl rfl) rfl
      False.elim trivial
  | admission job =>
    cases h
    split_ifs with haccepting
    · exact leads_goto (.keep rfl rfl rfl) hguards False.elim haccepting
    · exact hdone _ rfl
  | acquire job =>
    rw [atPoint] at h
    split at h <;> cases h
    · exact hdone _ rfl
    · exact ⟨.keep rfl rfl rfl, by simp [Orderly, points], by simp⟩
  | readFile session =>
    rw [atPoint] at h
    split at h
    · cases h
      exact hdone _ rfl
    · split at h <;> cases h
      · exact leads_goto (.keep rfl rfl rfl) hguards False.elim trivial
      · exact hdone _ rfl
  | evict | closePending =>
    rw [atPoint] at h
    split at h <;> cases h
    · exact hdone _ rfl
    · exact leads_clean rfl (fits_done _) (fits_done _)
  | closeActive session =>
    rw [atPoint] at h
    split at h <;> cases h
    · exact leads_goto (.keep rfl rfl rfl) hguards False.elim trivial
    · exact leads_clean rfl (fits_done _) (fits_done _)
  | stop =>
    cases h
    exact leads_goto (.stop rfl rfl rfl) hguards (fun _ => rfl) trivial
  | lock =>
    rw [atPoint, ite_none_left_eq_some] at h
    cases h.2
    have hfree : m.writer = false ∧ m.readers = 0 := by simpa using h.1
    exact leads_goto (u := { t with writing := true })
      (.lock hfree.1 hfree.2 hguards.2 rfl rfl rfl) rfl (fun _ => hclosing trivial) trivial
  | drain | retryAll =>
    cases h
    exact leads_cleanAll rfl ⟨hguards, fun _ => hclosing trivial, by simp, trivial⟩
  | verdict =>
    cases h
    split_ifs with hleft
    · exact hdone _ rfl
    · simp only [Bool.or_eq_true, decide_eq_true_eq, not_or, not_not] at hleft
      exact leads_goto (.keep rfl rfl rfl) hguards (fun _ => hclosing trivial) ⟨rfl, hleft.2⟩
  | stopped | done result => cases h
  | _ =>
    cases h
    split_ifs
    · exact leads_goto (.keep rfl rfl rfl) hguards False.elim trivial
    · exact hdone _ rfl

theorem Orderly.mono (h : Orderly m t) (haccepting : m.accepting = false → m'.accepting = false) :
    Orderly m' t := fun q hq => (h q hq).imp_right (.imp_left fun hclosing hq => haccepting (hclosing hq))

theorem Orderly.waiting (h : Orderly m t) (hstage : t.stage = .waiting p) :
    p.Guards t.reading t.writing ∧ (p.Closing → m.accepting = false) := by
  obtain ⟨hguards, hclosing, -⟩ := h p (by rw [hstage]; exact List.mem_singleton_self _)
  exact ⟨hguards, hclosing⟩

/-- A step of a call keeps it orderly, and leads to the end of a shutdown only if nothing is left. -/
theorem advance_controls (horderly : Orderly m t) (h : m.advance t a = some (t', m')) :
    Controls m t m' t' ∧ Orderly m' t' ∧ (t'.stage = .waiting .stopped →
      t.stage = .waiting .verdict ∧ m.available = m.config.maxSessions) := by
  rw [advance] at h
  split at h
  · next point hstage =>
    obtain ⟨hguards, hclosing⟩ := horderly.waiting hstage
    have hleads := leads_atPoint hguards hclosing h
    refine ⟨hleads.controls, hleads.orderly, fun hend => ?_⟩
    obtain ⟨rfl, hempty⟩ := hleads.reason _ hend
    exact ⟨hstage, hempty⟩
  · next job owner b hstage =>
    obtain ⟨hcontrols, hends⟩ := build_controls (some.inj h)
    refine ⟨hcontrols, fun q hq => ?_, fun hend => ?_⟩
    · obtain ⟨result, rfl⟩ := hends q hq
      exact ⟨trivial, False.elim, by simp⟩
    · rw [hend] at hends
      obtain ⟨result, hresult⟩ := hends _ (List.mem_singleton_self _)
      cases hresult
  · next cleanup phase failed queue onOk onError hstage =>
    obtain ⟨hcontrol, hreading, hwriting, hpoints⟩ := clean_control (some.inj h)
    have hmem : ∀ q ∈ t'.stage.points, q ∈ t.stage.points := by
      intro q hq
      rw [hstage]
      simpa [points] using hpoints q hq
    have hstopped : ∀ q ∈ t'.stage.points, q ≠ .stopped := by
      rintro q hq rfl
      have hwait := (horderly _ (hmem _ hq)).2.2 rfl
      rw [hstage] at hwait
      cases hwait
    have haccepting : m'.accepting = m.accepting := congrArg Control.accepting hcontrol
    refine ⟨.keep hcontrol hreading hwriting, fun q hq => ?_, fun hend => ?_⟩
    · obtain ⟨hguards, hclosing, -⟩ := horderly q (hmem q hq)
      rw [hreading, hwriting, haccepting]
      exact ⟨hguards, hclosing, fun h => absurd h (hstopped q hq)⟩
    · exact absurd rfl (hstopped .stopped (by rw [hend]; exact List.mem_singleton_self _))

/-! ### Runs -/

/-- The state after a shutdown that returned `Ok`: nothing has a permit, and no call can get one. -/
structure Stopped (m : Manager) : Prop where
  accepting : m.accepting = false
  holders : m.ledger.holders = 0
  acquire : ∀ i t, m.tasks.get i = some t → ∀ job, t.stage ≠ .waiting (.acquire job)

/-- What holds in every state that is reached. -/
structure Sound (m : Manager) : Prop where
  balanced : m.ledger.Balanced Resource.number m.config.maxSessions
  calls : ∀ i t, m.tasks.get i = some t → t.stage.Sound ∧ Orderly m t
  readers : m.readers = m.tasks.total fun _ t => t.reading.toNat
  writer : m.writer.toNat = m.tasks.total fun _ t => t.writing.toNat
  exclusive : m.writer = true → m.readers = 0
  stopped : (m.shutDown = true ∨ ∃ i t, m.tasks.get i = some t ∧ t.stage = .waiting .stopped) →
    m.Stopped

theorem Controls.frame (h : Controls m t m' t') :
    m'.config = m.config ∧ m'.tasks = m.tasks ∧ m'.shutDown = m.shutDown ∧
      (m.accepting = false → m'.accepting = false) := by
  cases h with
  | keep hcontrol | enter _ _ hcontrol | lock _ _ _ hcontrol =>
    injection hcontrol with hconfig htasks hshut haccepting
    exact ⟨hconfig, htasks, hshut, haccepting.trans⟩
  | stop hcontrol =>
    injection hcontrol with hconfig htasks hshut haccepting
    exact ⟨hconfig, htasks, hshut, fun _ => haccepting⟩

theorem Controls.count (h : Controls m t m' t') (readers writers : ℕ)
    (hreaders : m.readers = t.reading.toNat + readers)
    (hwriter : m.writer.toNat = t.writing.toNat + writers)
    (hexclusive : m.writer = true → m.readers = 0) :
    m'.readers = t'.reading.toNat + readers ∧ m'.writer.toNat = t'.writing.toNat + writers ∧
      (m'.writer = true → m'.readers = 0) := by
  cases h with
  | keep hcontrol hreading hwriting | stop hcontrol hreading hwriting =>
    injection hcontrol with _ _ _ _ hr hw
    rw [hr, hw, hreading, hwriting]
    exact ⟨hreaders, hwriter, hexclusive⟩
  | enter hfree hbefore hcontrol hreading hwriting =>
    injection hcontrol with _ _ _ _ hr hw
    rw [hbefore, Bool.toNat_false] at hreaders
    rw [hr, hw, hreading, hwriting, Bool.toNat_true]
    refine ⟨by omega, hwriter, fun hwrite => ?_⟩
    cases hfree.symm.trans hwrite
  | lock hfree hnone hbefore hcontrol hreading hwriting =>
    injection hcontrol with _ _ _ _ hr hw
    rw [hbefore, hfree, Bool.toNat_false] at hwriter
    rw [hr, hw, hreading, hwriting, Bool.toNat_true]
    exact ⟨hreaders, by omega, fun _ => hnone⟩

/-- The state after a step of one call. -/
def put (m : Manager) (i : ℕ) (t : Task) : Manager := { m with tasks := m.tasks.insert i t }

theorem ledger_put (m : Manager) (i : ℕ) (t : Task) :
    (m.put i t).ledger = (m.books t.stage).add ((m.tasks.erase i).total fun _ t => t.stage.owners)
      ((m.tasks.erase i).total fun _ t => t.stage.held) := by
  rw [ledger_eq (get_insert_self m.tasks i t)]
  simp only [put, erase_insert]
  rfl

section

variable {i : ℕ}

/-- When nothing has a permit, a call is at a point at which it has none. -/
theorem Stopped.waiting (h : m.Stopped) (hget : m.tasks.get i = some t) :
    ∃ p, t.stage = .waiting p ∧ ∀ job, p ≠ .acquire job := by
  have howners : t.stage.owners = 0 := by
    have hall := h.holders
    rw [ledger_eq hget, Books.add, add_eq_zero] at hall
    exact (add_eq_zero.1 hall.1).2
  cases hstage : t.stage with
  | waiting p => exact ⟨p, rfl, fun job hp => h.acquire i t hget job (hstage.trans (hp ▸ rfl))⟩
  | building job owner b =>
    rw [hstage, owners_building] at howners
    exact absurd howners (singleton_ne_zero owner)
  | cleaning cleanup phase failed queue onOk onError =>
    rw [hstage, owners_cleaning, add_eq_zero] at howners
    exact absurd howners.1 (singleton_ne_zero cleanup.owner)

/-- A step after the end changes nothing in the books. -/
theorem Stopped.run (h : m.Stopped) (horderly : Orderly m t) (hget : m.tasks.get i = some t)
    (ha : m.advance t a = some (t', m')) :
    (m'.put i t').ledger = m.ledger ∧ (m'.put i t').Stopped := by
  obtain ⟨p, hstage, hp⟩ := h.waiting hget
  obtain ⟨hguards, hclosing⟩ := horderly.waiting hstage
  rw [advance, hstage] at ha
  have hleads := leads_atPoint hguards hclosing ha
  obtain ⟨-, htasks, -, haccepting⟩ := hleads.controls.frame
  have hledger : (m'.put i t').ledger = m.ledger := by
    rw [ledger_put, ledger_eq hget, htasks, (books_atPoint ha).1 hp, hstage]
  refine ⟨hledger, haccepting h.accepting, hledger ▸ h.holders, fun j u hj job hu => ?_⟩
  rw [put, htasks] at hj
  obtain ⟨-, rfl⟩ | ⟨-, hj⟩ := get_insert_eq_some.1 hj
  · have haccept : m.accepting = true := hleads.reason _ hu
    rw [h.accepting] at haccept
    cases haccept
  · exact h.acquire j u hj job hu

/-- A shutdown that finds everything released has stopped the manager. -/
theorem Sound.stopped_of_verdict (h : m.Sound) (hget : m.tasks.get i = some t)
    (hstage : t.stage = .waiting .verdict) (hempty : m.available = m.config.maxSessions) :
    m.Stopped := by
  obtain ⟨hwriting, hclosing⟩ := (h.calls i t hget).2.waiting hstage
  have hslots := h.balanced.slots
  have hwriter : m.writer = true := by
    have hcount := h.writer
    rw [total_erase hget, hwriting, Bool.toNat_true] at hcount
    cases hw : m.writer with
    | true => rfl
    | false =>
      rw [hw, Bool.toNat_false] at hcount
      omega
  refine ⟨hclosing trivial, ?_, fun j u hj job hu => ?_⟩
  · rw [← card_eq_zero]
    have havailable : m.ledger.available = m.available := rfl
    omega
  · -- the call would have a read guard, while the shutdown has the write guard
    obtain ⟨hreading, -⟩ := (h.calls j u hj).2.waiting hu
    have hcount := h.readers
    rw [h.exclusive hwriter, total_erase hj, hreading, Bool.toNat_true] at hcount
    omega

theorem Sound.run (h : m.Sound) (hget : m.tasks.get i = some t)
    (ha : m.advance t a = some (t', m')) : (m'.put i t').Sound := by
  obtain ⟨hstage, hbefore⟩ := h.calls i t hget
  obtain ⟨hcontrols, horderly, hverdict⟩ := advance_controls hbefore ha
  obtain ⟨hconfig, htasks, hshut, haccepting⟩ := hcontrols.frame
  have hnodup : (m.books t.stage).holders.Nodup := by
    have hall := h.balanced.holders_nodup
    rw [ledger_eq hget] at hall
    exact (nodup_add.1 hall).1
  obtain ⟨hentry, hsound⟩ := advance_entry hstage hnodup ha
  have hother : ∀ {j u}, (m'.put i t').tasks.get j = some u → j = i ∧ u = t' ∨
      j ≠ i ∧ m.tasks.get j = some u := by
    intro j u hj
    rw [put, htasks] at hj
    exact get_insert_eq_some.1 hj
  have hcount := hcontrols.count ((m.tasks.erase i).total fun _ t => t.reading.toNat)
    ((m.tasks.erase i).total fun _ t => t.writing.toNat)
    (h.readers.trans (total_erase hget)) (h.writer.trans (total_erase hget))
    h.exclusive
  have htotal : ∀ f : ℕ → Task → ℕ, (m'.put i t').tasks.total f =
      f i t' + (m.tasks.erase i).total f := by
    intro f
    rw [put, total_insert, htasks]
  refine
    { balanced := ?_, calls := ?_, exclusive := hcount.2.2, stopped := ?_
      readers := hcount.1.trans (htotal fun _ t => t.reading.toNat).symm
      writer := hcount.2.1.trans (htotal fun _ t => t.writing.toNat).symm }
  · have hbalanced := h.balanced
    rw [ledger_eq hget] at hbalanced
    rw [ledger_put, htasks]
    have hcapacity : (m'.put i t').config = m.config := hconfig
    rw [hcapacity]
    exact hbalanced.entry (hentry.add _ _)
  · intro j u hj
    obtain ⟨-, rfl⟩ | ⟨-, hu⟩ := hother hj
    · exact ⟨hsound, horderly⟩
    · exact (h.calls j u hu).imp_right (·.mono haccepting)
  · intro hstopped
    have hstopped : m.Stopped := by
      obtain hdown | ⟨j, u, hj, hu⟩ := hstopped
      · exact h.stopped (.inl (hshut ▸ hdown))
      · obtain ⟨-, rfl⟩ | ⟨-, hget'⟩ := hother hj
        · obtain ⟨hstage, hempty⟩ := hverdict hu
          exact h.stopped_of_verdict hget hstage hempty
        · exact h.stopped (.inr ⟨j, u, hget', hu⟩)
    exact (hstopped.run hbefore hget ha).2

theorem Sound.call (h : m.Sound) {c : Call} (hget : m.tasks.get i = none) :
    (m.put i ⟨.waiting c.start, false, false⟩).Sound := by
  have hledger : (m.put i ⟨.waiting c.start, false, false⟩).ledger = m.ledger := by
    refine Books.ext rfl ?_ ?_ rfl rfl rfl rfl
    · simp only [ledger, operations, put, total_insert_of_none hget, owners_waiting, zero_add]
      rfl
    · simp only [ledger, put, total_insert_of_none hget, held_waiting, zero_add]
      rfl
  have hother : ∀ {j u}, (m.put i ⟨.waiting c.start, false, false⟩).tasks.get j = some u →
      u = ⟨.waiting c.start, false, false⟩ ∨ m.tasks.get j = some u := by
    exact fun hj => (get_insert_eq_some.1 hj).imp And.right And.right
  have hstart : ∀ job, c.start ≠ .acquire job := by cases c <;> simp [Call.start]
  have hend : c.start ≠ .stopped := by cases c <;> simp [Call.start]
  refine
    { balanced := hledger ▸ h.balanced, calls := ?_, readers := ?_, writer := ?_,
      exclusive := h.exclusive, stopped := ?_ }
  · intro j u hj
    obtain rfl | hu := hother hj
    · refine ⟨trivial, fun q hq => ?_⟩
      cases List.mem_singleton.1 hq
      refine ⟨?_, ?_, fun hq => absurd hq hend⟩
      · cases c <;> exact ⟨rfl, rfl⟩
      · cases c <;> exact False.elim
    · exact h.calls j u hu
  · rw [put, total_insert_of_none hget]
    exact h.readers.trans (Nat.zero_add _).symm
  · rw [put, total_insert_of_none hget]
    exact h.writer.trans (Nat.zero_add _).symm
  · intro hstopped
    have hbefore : m.Stopped := by
      obtain hdown | ⟨j, u, hj, hu⟩ := hstopped
      · exact h.stopped (.inl hdown)
      · obtain rfl | hget' := hother hj
        · exact absurd (waiting.inj hu) hend
        · exact h.stopped (.inr ⟨j, u, hget', hu⟩)
    refine ⟨hbefore.accepting, hledger ▸ hbefore.holders, fun j u hj job hu => ?_⟩
    obtain rfl | hget' := hother hj
    · exact hstart job (waiting.inj hu)
    · exact hbefore.acquire j u hget' job hu

/-- The state after a call has returned. -/
def drop (m : Manager) (i : ℕ) (t : Task) (stopped : Bool) : Manager :=
  { m with
    tasks := m.tasks.erase i
    readers := if t.reading then m.readers - 1 else m.readers
    writer := if t.writing then false else m.writer
    shutDown := m.shutDown || stopped }

theorem Sound.finish (h : m.Sound) (hget : m.tasks.get i = some t) {stopped : Bool}
    (hreturns : t.returns = some stopped) : (m.drop i t stopped).Sound := by
  have hstage : ∃ p, t.stage = .waiting p ∧ (stopped = true → p = .stopped) := by
    unfold Task.returns at hreturns
    split at hreturns
    · next hstage => exact ⟨_, hstage, fun _ => rfl⟩
    · next hstage =>
      cases hreturns
      exact ⟨_, hstage, nofun⟩
    · cases hreturns
  obtain ⟨p, hstage, hp⟩ := hstage
  have hledger : (m.drop i t stopped).ledger = m.ledger := by
    rw [ledger_eq hget, hstage]
    refine Books.ext rfl ?_ ?_ rfl rfl rfl rfl
    · simp only [ledger, operations, drop, books, Books.add, owners_waiting, add_zero]
      rfl
    · simp only [ledger, drop, books, Books.add, held_waiting, add_zero]
      rfl
  have hother : ∀ {j u}, (m.drop i t stopped).tasks.get j = some u → m.tasks.get j = some u := by
    intro j u hj
    rw [drop, get_erase] at hj
    split_ifs at hj
    exact hj
  have hreaders := h.readers.trans (total_erase hget)
  have hwriter := h.writer.trans (total_erase hget)
  refine
    { balanced := hledger ▸ h.balanced, calls := fun j u hj => h.calls j u (hother hj),
      readers := ?_, writer := ?_, exclusive := ?_, stopped := ?_ }
  · dsimp only [drop]
    cases hreading : t.reading with
    | true =>
      rw [hreading, Bool.toNat_true] at hreaders
      rw [if_pos rfl]
      omega
    | false =>
      rw [hreading, Bool.toNat_false, Nat.zero_add] at hreaders
      exact hreaders
  · dsimp only [drop]
    cases hwriting : t.writing with
    | true =>
      rw [hwriting, Bool.toNat_true] at hwriter
      rw [if_pos rfl, Bool.toNat_false]
      have hbool := Bool.toNat_le m.writer
      omega
    | false =>
      rw [hwriting, Bool.toNat_false, Nat.zero_add] at hwriter
      exact hwriter
  · dsimp only [drop]
    intro hw
    split_ifs at hw
    have hnone := h.exclusive hw
    split_ifs <;> omega
  · intro hstopped
    have hbefore : m.Stopped := by
      obtain hdown | ⟨j, u, hj, hu⟩ := hstopped
      · obtain hdown | hdown := Bool.or_eq_true_iff.1 hdown
        · exact h.stopped (.inl hdown)
        · exact h.stopped (.inr ⟨i, t, hget, hstage.trans (congrArg _ (hp hdown))⟩)
      · exact h.stopped (.inr ⟨j, u, hother hj, hu⟩)
    exact ⟨hbefore.accepting, hledger ▸ hbefore.holders, fun j u hj => hbefore.acquire j u (hother hj)⟩

end

theorem sound_new (config) : (new config).Sound := by
  have hempty : ∀ {i t}, (new config).tasks.get i = some t → False := by
    intro i t h
    rw [new, get_empty] at h
    cases h
  have hledger : (new config).ledger = ⟨config.maxSessions, 0, 0, 0, 0, 0, 0⟩ := by
    simp [ledger, new, owners, held, operations]
  refine
    { balanced := ?_, calls := fun i t h => (hempty h).elim, readers := ?_, writer := ?_,
      exclusive := by simp [new], stopped := ?_ }
  · rw [hledger]
    exact ⟨rfl, nodup_zero, fun _ h => absurd h (notMem_zero _), rfl,
      nodup_zero, fun _ h => absurd h (notMem_zero _)⟩
  · rw [new, total_empty]
  · rw [new, total_empty]
    rfl
  · rintro (h | ⟨i, t, h, -⟩)
    · cases h
    · exact (hempty h).elim

/-- A step keeps the state sound, and after the end it makes nothing. -/
theorem Sound.step (h : m.Sound) {e} (hs : m.step e = some m') : m'.Sound ∧
    (m.shutDown = true → m'.ledger.made = m.ledger.made ∧ m'.shutDown = true) := by
  cases e with
  | call i c =>
    rw [Manager.step, ite_none_left_eq_some] at hs
    cases hs.2
    exact ⟨h.call (by simpa using hs.1), fun hdown => ⟨rfl, hdown⟩⟩
  | run i a =>
    obtain ⟨t, hget, hs⟩ := bind_eq_some_iff.1 hs
    obtain ⟨⟨t', m₁⟩, hadvance, hs⟩ := bind_eq_some_iff.1 hs
    cases hs
    refine ⟨h.run hget hadvance, fun hdown => ?_⟩
    have horderly := (h.calls i t hget).2
    obtain ⟨-, -, hshut, -⟩ := (advance_controls horderly hadvance).1.frame
    have hledger := ((h.stopped (.inl hdown)).run horderly hget hadvance).1
    exact ⟨congrArg Books.made hledger, hshut.trans hdown⟩
  | finish i =>
    obtain ⟨t, hget, hs⟩ := bind_eq_some_iff.1 hs
    obtain ⟨stopped, hreturns, hs⟩ := bind_eq_some_iff.1 hs
    cases hs
    exact ⟨h.finish hget hreturns, fun hdown => ⟨rfl, Bool.or_eq_true_iff.2 (.inl hdown)⟩⟩

/-! ### Who holds a resource -/

inductive Holder where
  | session (id : ℕ)
  | pending (id : ℕ)
  | call (task : ℕ)

def Holds (m : Manager) : Holder → Resource → Prop
  | .session id, r => ∃ value, m.sessions.get id = some value ∧ r ∈ value.held
  | .pending id, r => ∃ value, m.pending.get id = some value ∧ r ∈ value.resources.held
  | .call i, r => ∃ t, m.tasks.get i = some t ∧ r ∈ t.stage.held

variable {r : Resource}

theorem mem_held_iff : r ∈ m.ledger.held ↔ ∃ holder, m.Holds holder r := by
  rw [ledger, mem_add, held, mem_add, mem_total, mem_total, mem_total]
  constructor
  · rintro ((⟨id, value, h⟩ | ⟨id, value, h⟩) | ⟨i, t, h⟩)
    · exact ⟨.session id, value, h⟩
    · exact ⟨.pending id, value, h⟩
    · exact ⟨.call i, t, h⟩
  · rintro ⟨id | id | i, value, h⟩
    · exact .inl (.inl ⟨id, value, h⟩)
    · exact .inl (.inr ⟨id, value, h⟩)
    · exact .inr ⟨i, value, h⟩

/-- The books have each resource once, so it has one holder. -/
theorem holder_eq (hnodup : m.ledger.held.Nodup) {x y} (hx : m.Holds x r) (hy : m.Holds y r) :
    x = y := by
  rw [ledger, held, nodup_add, nodup_add] at hnodup
  obtain ⟨⟨hsessions, hpending, hmaps⟩, htasks, hcalls⟩ := hnodup
  -- the resource is in one of the three maps
  have hmaps : ∀ id j, m.Holds (.session id) r → ¬m.Holds (.pending j) r := fun id j h h' =>
    disjoint_left.1 hmaps (mem_total.2 ⟨id, h⟩) (mem_total.2 ⟨j, h'⟩)
  have hcall : ∀ {x} i, (∀ j, x ≠ .call j) → m.Holds x r → ¬m.Holds (.call i) r := by
    intro x i hx h h'
    refine disjoint_left.1 hcalls (mem_add.2 ?_) (mem_total.2 ⟨i, h'⟩)
    cases x with
    | session id => exact .inl (mem_total.2 ⟨id, h⟩)
    | pending id => exact .inr (mem_total.2 ⟨id, h⟩)
    | call j => exact absurd rfl (hx j)
  -- and in one entry of it
  obtain id | id | i := x <;> obtain j | j | j := y
  case session.session | pending.pending | call.call =>
    obtain ⟨value, hget, hr⟩ := hx
    obtain ⟨value', hget', hr'⟩ := hy
    rw [eq_of_nodup_total ‹_› hget hr hget' hr']
  case session.pending => exact absurd hy (hmaps id j hx)
  case pending.session => exact absurd hx (hmaps j id hy)
  case session.call | pending.call => exact absurd hy (hcall j (by simp) hx)
  case call.session | call.pending => exact absurd hx (hcall i (by simp) hy)

/-- The permits in use. -/
def inUse (m : Manager) : ℕ := m.config.maxSessions - m.available

/-- The operations in progress: sessions and snapshots that are being set up, and cleanups that calls have
taken on and not settled yet. -/
def inProgress (m : Manager) : ℕ := m.operations.card

theorem Sound.available_add (h : m.Sound) :
    m.available + (m.sessions.size + m.pending.size + m.inProgress) = m.config.maxSessions := by
  have hslots := h.balanced.slots
  rw [ledger, card_add, owners, card_add, card_total_keys, card_total_keys] at hslots
  exact hslots

theorem size_eq_zero {V : Type} {map : SortedMap ℕ V} (h : map.size = 0) : map = ∅ := by
  refine SortedMap.ext fun k => ?_
  rw [get_empty]
  refine eq_none_iff_forall_ne_some.2 fun v hv => ?_
  have hmem := SortedMap.mem_toList.2 hv
  rw [length_eq_zero_iff.1 ((length_toList map).trans h)] at hmem
  cases hmem

theorem Sound.released (h : m.Sound) (hdown : m.shutDown = true) :
    m.inUse = 0 ∧ m.sessions = ∅ ∧ m.pending = ∅ ∧ m.inProgress = 0 ∧
      ∀ r ∈ m.created, r ∈ m.released := by
  have hstopped := h.stopped (.inl hdown)
  have hcard : m.sessions.size + m.pending.size + m.inProgress = 0 := by
    have hslots := h.balanced.slots
    have hsum := h.available_add
    rw [hstopped.holders, card_zero] at hslots
    have havailable : m.ledger.available = m.available := rfl
    omega
  have hsessions : m.sessions = ∅ := size_eq_zero (by omega)
  have hpending : m.pending = ∅ := size_eq_zero (by omega)
  refine ⟨?_, hsessions, hpending, by omega, fun r hr => ?_⟩
  · have hsum := h.available_add
    rw [inUse]
    omega
  by_contra hnot
  obtain ⟨holder, hholds⟩ := mem_held_iff.1 (h.balanced.mem_held (mem_coe.2 hr)
    fun hmem => hnot (mem_coe.1 hmem))
  match holder, hholds with
  | .session id, ⟨value, hget, _⟩ =>
    rw [hsessions, get_empty] at hget
    cases hget
  | .pending id, ⟨value, hget, _⟩ =>
    rw [hpending, get_empty] at hget
    cases hget
  | .call i, ⟨t, hget, hr⟩ =>
    obtain ⟨p, hstage, -⟩ := hstopped.waiting hget
    rw [hstage] at hr
    exact absurd hr (notMem_zero r)

theorem Sound.of_reachable (h : sessionMachine.Reachable m) : m.Sound := by
  refine h.invariant ?_ fun _ _ _ hsound _ hs => (hsound.step hs).1
  rintro _ ⟨config, rfl⟩
  exact sound_new config

end Manager

/-- **The resources of camera sessions are conserved**, whatever calls are made, in whatever order they
run, and whichever of their steps fail. -/
theorem sessions_conserved {m : Manager} (h : sessionMachine.Reachable m) :
    m.inUse = m.sessions.size + m.pending.size + m.inProgress ∧
      m.inUse ≤ m.config.maxSessions ∧
      (∀ r ∈ m.created, r ∉ m.released → ∃! holder, m.Holds holder r) ∧
      (∀ r ∈ m.released, ∀ holder, ¬m.Holds holder r) ∧
      (m.shutDown = true →
        (m.inUse = 0 ∧ m.sessions = ∅ ∧ m.pending = ∅ ∧ m.inProgress = 0 ∧
          ∀ r ∈ m.created, r ∈ m.released) ∧
        ∀ es m', sessionMachine.exec m es = some m' →
          m'.sessions = ∅ ∧ ∀ r ∈ m'.created, r ∈ m.created) := by
  have hsound := Manager.Sound.of_reachable h
  have hsum := hsound.available_add
  refine ⟨?_, Nat.sub_le _ _, fun r hr hnot => ?_, fun r hr holder hholds => ?_, fun hdown => ?_⟩
  · rw [Manager.inUse]
    omega
  · obtain ⟨holder, hholds⟩ := Manager.mem_held_iff.1 (hsound.balanced.mem_held
      (mem_coe.2 hr) fun hmem => hnot (mem_coe.1 hmem))
    exact ⟨holder, hholds, fun y hy => Manager.holder_eq hsound.balanced.held_nodup hy hholds⟩
  · exact hsound.balanced.not_mem_held (mem_coe.2 hr) (Manager.mem_held_iff.2 ⟨holder, hholds⟩)
  · refine ⟨hsound.released hdown, fun es m' hes => ?_⟩
    -- the end is kept along every run from there
    obtain ⟨hsound', hdown', hmade⟩ := Machine.exec_invariant
      (I := fun n => n.Sound ∧ n.shutDown = true ∧ n.ledger.made = m.ledger.made)
      (fun n e n' ⟨hn, hdown, hmade⟩ _ hs => ⟨(hn.step hs).1, ((hn.step hs).2 hdown).2,
        ((hn.step hs).2 hdown).1.trans hmade⟩)
      ⟨hsound, hdown, rfl⟩ (Machine.guarded_true m es) hes
    refine ⟨(hsound'.released hdown').2.1, fun r hr => mem_coe.1 ?_⟩
    have hmem : r ∈ m'.ledger.made := mem_coe.2 hr
    rw [hmade] at hmem
    exact hmem

/-! ### A run -/

/-- What was awaited succeeded. -/
def succeeded : Answer := ⟨true, false, 0, fun _ => false, .unavailable⟩

/-- What was awaited failed. -/
def failed : Answer := ⟨false, false, 0, fun _ => false, .unavailable⟩

/-- Steps of a call that succeed. -/
def steps (i n : ℕ) : List SessionEvent := List.replicate n (.run i succeeded)

/-- A session is started, and then the manager is shut down; the process cannot be closed at first. -/
def shutdownRun : List SessionEvent :=
  [[.call 0 .startSession], steps 0 14, [.finish 0, .call 1 .shutdown], steps 1 3, [.run 1 failed],
    steps 1 9, [.finish 1]].flatten

/-- In the run everything that was made is closed in the end, the process by the second attempt. -/
theorem shutdownRun_conserved : ∃ m, sessionMachine.exec (.new ⟨2, 30000, 300000⟩) shutdownRun = some m ∧
    m.created = [.process 2, .proxy 1, .outputDir 0] ∧ m.inUse = 0 ∧ m.sessions = ∅ ∧
      ∀ r ∈ m.created, r ∈ m.released := by
  obtain ⟨m, hexec, hshutDown, hcreated⟩ :
      ∃ m, sessionMachine.exec (.new ⟨2, 30000, 300000⟩) shutdownRun = some m ∧ m.shutDown = true ∧
        m.created = [.process 2, .proxy 1, .outputDir 0] := by decide +kernel
  have hinit : sessionMachine.init (.new ⟨2, 30000, 300000⟩) := ⟨_, rfl⟩
  obtain ⟨-, -, -, -, hend⟩ := sessions_conserved (Machine.reachable_of_exec hinit hexec)
  obtain ⟨⟨hinUse, hsessions, -, -, hreleased⟩, -⟩ := hend hshutDown
  exact ⟨m, hexec, hcreated, hinUse, hsessions, hreleased⟩

end NeonHearth.Camera
