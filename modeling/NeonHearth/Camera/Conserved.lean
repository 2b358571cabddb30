import NeonHearth.Camera.Sessions
import NeonHearth.Data.Custody
import NeonHearth.Data.Total

/-!
# Camera resources are conserved

The books of the session manager: each permit that is not available and each process, proxy and output
directory that was made and not closed is in one place, which is a session, a pending cleanup or a call
in progress.

`Manager.advance_entry` : every step of a call makes one entry in the books.
-/

namespace NeonHearth.Camera

open Books SortedMap Multiset CleanupResources Option

/-! ### Who holds what -/

/-- A thing that may be there. -/
def held? (f : ℕ → Resource) : Option ℕ → Multiset Resource
  | none => 0
  | some n => {f n}

@[simp]
theorem held?_none (f) : held? f none = 0 := rfl

@[simp]
theorem held?_some (f) (n : ℕ) : held? f (some n) = {f n} := rfl

def CleanupResources.held (r : CleanupResources) : Multiset Resource :=
  held? .process r.process + held? .proxy r.proxy + held? .outputDir r.outputDir

def ManagedSession.held (value : ManagedSession) : Multiset Resource :=
  (fromSession value).held

def Build.held : Build → Multiset Resource
  | .contract | .makeDir => 0
  | .startProxy outputDir => (transient none none outputDir).held
  | .makeSpec outputDir proxy | .spawn outputDir proxy =>
    (transient none (some proxy) outputDir).held
  | .authorize outputDir proxy process | .capture outputDir proxy process
  | .install outputDir proxy process =>
    (transient (some process) (some proxy) outputDir).held

def ownersOf (queue : List Cleanup) : Multiset ℕ :=
  (queue.map fun cleanup => ({cleanup.owner} : Multiset ℕ)).sum

def heldBy (queue : List Cleanup) : Multiset Resource :=
  (queue.map fun cleanup => cleanup.resources.held).sum

@[simp]
theorem ownersOf_cons (cleanup : Cleanup) (queue) :
    ownersOf (cleanup :: queue) = {cleanup.owner} + ownersOf queue := List.sum_cons

@[simp]
theorem heldBy_cons (cleanup : Cleanup) (queue) :
    heldBy (cleanup :: queue) = cleanup.resources.held + heldBy queue := List.sum_cons

@[simp]
theorem Job.held_build (job : Job) : job.build.held = 0 := by
  cases job <;> rfl

@[simp]
theorem ownersOf_nil : ownersOf [] = 0 := rfl

@[simp]
theorem heldBy_nil : heldBy [] = 0 := rfl

namespace Stage

/-- The operations that a call has in progress, by their owners: each of them has a permit.  A start or a
snapshot is one, and each cleanup that the call still has to settle. -/
def owners : Stage → Multiset ℕ
  | .waiting _ => 0
  | .building _ owner _ => {owner}
  | .cleaning cleanup _ _ queue _ _ => ownersOf (cleanup :: queue)

def held : Stage → Multiset Resource
  | .waiting _ => 0
  | .building _ _ build => build.held
  | .cleaning cleanup _ _ queue _ _ => heldBy (cleanup :: queue)

@[simp]
theorem owners_waiting (point : Point) : (waiting point).owners = 0 := rfl

@[simp]
theorem held_waiting (point : Point) : (waiting point).held = 0 := rfl

@[simp]
theorem owners_building (job : Job) (owner : ℕ) (build : Build) :
    (building job owner build).owners = {owner} := rfl

@[simp]
theorem held_building (job : Job) (owner : ℕ) (build : Build) :
    (building job owner build).held = build.held := rfl

@[simp]
theorem owners_cleaning (cleanup : Cleanup) (phase : Phase) (failed : Bool) (queue)
    (onOk onError : Point) :
    (cleaning cleanup phase failed queue onOk onError).owners = {cleanup.owner} + ownersOf queue :=
  ownersOf_cons _ _

@[simp]
theorem held_cleaning (cleanup : Cleanup) (phase : Phase) (failed : Bool) (queue)
    (onOk onError : Point) : (cleaning cleanup phase failed queue onOk onError).held =
      cleanup.resources.held + heldBy queue :=
  heldBy_cons _ _

section

variable (queue : List Cleanup) (point onOk onError : Point)
include queue point onOk onError

@[simp]
theorem owners_next : (next queue point onOk onError).owners = ownersOf queue := by
  cases queue <;> rfl

@[simp]
theorem held_next : (next queue point onOk onError).held = heldBy queue := by
  cases queue <;> rfl

/-- What has been closed so far, if nothing has failed. -/
def Closed (r : CleanupResources) : Phase → Prop
  | .process => True
  | .proxy => r.process = none
  | .outputDir => r.process = none ∧ r.proxy = none
  | .settle => r.process = none ∧ r.proxy = none ∧ r.outputDir = none

/-- A cleanup in which nothing has failed has closed what it has passed. -/
def Sound : Stage → Prop
  | .waiting _ | .building .. => True
  | .cleaning cleanup phase failed _ _ _ => failed = false → Closed cleanup.resources phase

theorem sound_next : (next queue point onOk onError).Sound := by
  cases queue with
  | nil => trivial
  | cons cleanup queue => exact fun _ => trivial

end

theorem sound_cleanOne (cleanup : Cleanup) (onOk onError : Point) :
    (cleanOne cleanup onOk onError).Sound :=
  sound_next ..

end Stage

namespace Manager

variable (m : Manager)

/-- The sessions and the pending cleanups, each of which has a permit. -/
def owners : Multiset ℕ := m.sessions.total (fun id _ => {id}) + m.pending.total (fun id _ => {id})

/-- What the sessions and the pending cleanups hold. -/
def held : Multiset Resource := m.sessions.total (fun _ value => value.held) +
  m.pending.total (fun _ value => value.resources.held)

/-- The books of the maps and of one call. -/
def books (stage : Stage) : Books Resource where
  available := m.available
  holders := m.owners + stage.owners
  held := m.held + stage.held
  made := m.created
  returned := m.released
  nextHolder := m.nextOwner
  nextThing := m.nextResource

variable {m} {m' : Manager} {t t' : Task} {a : Answer}

/-! ### Taking entries out of the maps -/

theorem ownersOf_ofSession (sessions : SortedMap ℕ ManagedSession) :
    ownersOf (sessions.toList.map ofSession) = sessions.total fun id _ => {id} := by
  rw [ownersOf, List.map_map]
  rfl

theorem heldBy_ofSession (sessions : SortedMap ℕ ManagedSession) :
    heldBy (sessions.toList.map ofSession) = sessions.total fun _ value => value.held := by
  rw [heldBy, List.map_map]
  rfl

theorem ownersOf_ofPending (pending : SortedMap ℕ PendingCleanup) :
    ownersOf (pending.toList.map ofPending) = pending.total fun id _ => {id} := by
  rw [ownersOf, List.map_map]
  rfl

theorem heldBy_ofPending (pending : SortedMap ℕ PendingCleanup) :
    heldBy (pending.toList.map ofPending) = pending.total fun _ value => value.resources.held := by
  rw [heldBy, List.map_map]
  rfl

open Stage

/-- Entries are taken out of the maps to be cleaned up. -/
theorem books_take {sessions pending queue}
    (howners : ownersOf queue + { m with sessions, pending }.owners = m.owners)
    (hheld : heldBy queue + { m with sessions, pending }.held = m.held) (p point onOk onError : Point) :
    { m with sessions, pending }.books (.next queue point onOk onError) = m.books (.waiting p) := by
  refine Books.ext rfl ?_ ?_ rfl rfl rfl rfl
  · rw [books, books, owners_waiting, owners_next, ← howners, add_zero]
    exact add_comm _ _
  · rw [books, books, held_waiting, held_next, ← hheld, add_zero]
    exact add_comm _ _

theorem books_takeSessions (p : ℕ → ManagedSession → Bool) (q point : Point) :
    { m with sessions := m.sessions.filter fun id value => !p id value }.books
        (.cleanAll ((m.sessions.filter p).toList.map ofSession) point) =
      m.books (.waiting q) := by
  refine books_take ?_ ?_ q point point point
  · rw [ownersOf_ofSession, owners, owners, ← add_assoc, total_filter]
  · rw [heldBy_ofSession, held, held, ← add_assoc, total_filter]

theorem books_takePending (p : ℕ → PendingCleanup → Bool) (q point : Point) :
    { m with pending := m.pending.filter fun id value => !p id value }.books
        (.cleanAll ((m.pending.filter p).toList.map ofPending) point) =
      m.books (.waiting q) := by
  refine books_take ?_ ?_ q point point point
  · rw [ownersOf_ofPending, owners, owners, add_left_comm, total_filter]
  · rw [heldBy_ofPending, held, held, add_left_comm, total_filter]

variable {value : ManagedSession}

theorem books_takeSession {id : ℕ} (hget : m.sessions.get id = some value)
    (p point onOk onError : Point) : { m with sessions := m.sessions.erase id }.books
        (.next [⟨id, .fromSession value, 0⟩] point onOk onError) = m.books (.waiting p) := by
  refine books_take ?_ ?_ p point onOk onError
  · simp [owners, total_erase hget, ownersOf_cons, ownersOf_nil]
  · simp [held, total_erase hget, heldBy_cons, heldBy_nil, add_assoc, ManagedSession.held]

theorem books_takeOnePending {id : ℕ} {value}
    (hget : m.pending.get id = some value) (p point onOk onError : Point) :
    { m with pending := m.pending.erase id }.books
        (.next [⟨id, value.resources, value.attempts⟩] point onOk onError) =
      m.books (.waiting p) := by
  refine books_take ?_ ?_ p point onOk onError
  · simp [owners, total_erase hget, ownersOf_cons, ownersOf_nil]
  · simp [held, total_erase hget, heldBy_cons, heldBy_nil, add_left_comm]

/-- A change of a session that keeps what it holds. -/
theorem books_touch {id : ℕ} (hget : m.sessions.get id = some value) (now : ℕ) (p q : Point) :
    { m with sessions := m.sessions.insert id { value with lastAccess := now } }.books (.waiting q) =
      m.books (.waiting p) := by
  have howners := total_insert_of_some (f := fun id _ => ({id} : Multiset ℕ))
    (v := { value with lastAccess := now }) hget
  have hheld := total_insert_of_some (f := fun _ (value : ManagedSession) => value.held)
    (v := { value with lastAccess := now }) hget
  refine Books.ext rfl ?_ ?_ rfl rfl rfl rfl
  · rw [books, books, owners, owners, add_left_cancel howners]
    rfl
  · rw [books, books, held, held, add_left_cancel (a := value.held) hheld]
    rfl

/-! ### Steps -/

/-- Without a permit, a call only moves things around, and it has no cleanup under way when it takes them
out of the maps. -/
theorem books_atPoint {p : Point} (h : m.atPoint t a p = some (t', m')) :
    ((∀ job, p ≠ .acquire job) → m'.books t'.stage = m.books (.waiting p)) ∧ t'.stage.Sound := by
  cases p with
  | accept job | resolve job | admission job | verdict | stop =>
    cases h
    exact ⟨fun _ => rfl, trivial⟩
  | retry includeCrashed after =>
    cases h
    exact ⟨fun _ => books_takePending _ _ _, sound_next _ _ _ _⟩
  | expire includeCrashed after =>
    cases h
    exact ⟨fun _ => books_takeSessions _ _ _, sound_next _ _ _ _⟩
  | enter job | lock =>
    rw [atPoint, ite_none_left_eq_some] at h
    cases h.2
    exact ⟨fun _ => rfl, trivial⟩
  | acquire job =>
    rw [atPoint] at h
    split at h <;> cases h <;> exact ⟨fun hp => absurd rfl (hp job), trivial⟩
  | readFile session =>
    rw [atPoint] at h
    split at h
    · cases h
      exact ⟨fun _ => rfl, trivial⟩
    · next value hget =>
      split at h <;> cases h
      · exact ⟨fun _ => rfl, trivial⟩
      · exact ⟨fun _ => books_touch hget _ _ _, trivial⟩
  | evict session | closeActive session =>
    rw [atPoint] at h
    split at h <;> cases h
    · exact ⟨fun _ => rfl, trivial⟩
    · next hget => exact ⟨fun _ => books_takeSession hget _ (.done (.ok ())) _ _, fun _ => trivial⟩
  | closePending session =>
    rw [atPoint] at h
    split at h <;> cases h
    · exact ⟨fun _ => rfl, trivial⟩
    · next hget => exact ⟨fun _ => books_takeOnePending hget _ (.done (.ok ())) _ _, fun _ => trivial⟩
  | drain =>
    cases h
    refine ⟨fun _ => books_take ?_ ?_ _ _ _ _, sound_next _ _ _ _⟩
    · rw [ownersOf_ofSession, owners, owners, total_empty, zero_add]
    · rw [heldBy_ofSession, held, held, total_empty, zero_add]
  | retryAll =>
    cases h
    refine ⟨fun _ => books_take ?_ ?_ _ _ _ _, sound_next _ _ _ _⟩
    · rw [ownersOf_ofPending, owners, owners, total_empty, add_zero, add_comm]
    · rw [heldBy_ofPending, held, held, total_empty, add_zero, add_comm]
  | stopped | done result => cases h

theorem acquire_entry {job : Job} (h : m.atPoint t a (.acquire job) = some (t', m')) :
    Entry Resource.number (m.books (.waiting (.acquire job))) (m'.books t'.stage) := by
  rw [atPoint] at h
  split at h
  · cases h
    exact .move _
  next n hn =>
  cases h
  convert Entry.acquire (m.books (.waiting (.acquire job))) n using 1
  · exact Books.ext hn rfl rfl rfl rfl rfl rfl
  · refine Books.ext rfl ?_ ?_ rfl rfl rfl rfl
    · simp only [books, Task.stage_to, owners_building, owners_waiting, add_zero]
      exact (add_comm _ _).trans (singleton_add _ _)
    · simp [books, held]

variable {stage stage' : Stage}

theorem stage_entry (howners : stage'.owners = stage.owners) (hheld : stage'.held = stage.held) :
    Entry Resource.number (m.books stage) (m.books stage') := by
  refine .of_eq (Books.ext rfl ?_ ?_ rfl rfl rfl rfl)
  · rw [books, books, howners]
  · rw [books, books, hheld]

theorem make_entry {r} (hr : r.number = m.nextResource)
    (howners : stage'.owners = stage.owners) (hheld : stage'.held = r ::ₘ stage.held) :
    Entry Resource.number (m.books stage) ((m.make r).books stage') := by
  convert Entry.make (m.books stage) r hr using 1
  refine Books.ext rfl (congrArg (m.owners + ·) howners) ?_ rfl rfl rfl rfl
  rw [books, hheld, add_cons]
  rfl

theorem release_entry {r} (howners : stage'.owners = stage.owners)
    (hheld : stage.held = r ::ₘ stage'.held) :
    Entry Resource.number (m.books stage) ((m.release r).books stage') := by
  convert Entry.giveBack (m.books stage') r using 1
  · refine Books.ext rfl (congrArg (m.owners + ·) howners.symm) ?_ rfl rfl rfl rfl
    rw [books, hheld, add_cons]
    rfl
  · rfl

/-- A permit is dropped by an operation that holds nothing. -/
theorem drop_entry (owner : ℕ) (howners : stage.owners = {owner} + stage'.owners)
    (hheld : stage.held = stage'.held) :
    Entry Resource.number (m.books stage)
      ({ m with available := m.available + 1 }.books stage') := by
  convert Entry.free (m.books stage') owner using 1
  · refine Books.ext rfl ?_ (congrArg (m.held + ·) hheld) rfl rfl rfl rfl
    rw [books, howners, singleton_add, add_cons]
    rfl
  · rfl

variable {owner : ℕ}

/-- The names in the books are different, so an operation is in neither of the maps. -/
theorem get_eq_none (hnodup : (m.books stage).holders.Nodup) (howner : owner ∈ stage.owners) :
    m.sessions.get owner = none ∧ m.pending.get owner = none := by
  have hnot := disjoint_right.1 (nodup_add.1 hnodup).2.2 howner
  rw [owners, mem_add, not_or, mem_total, mem_total] at hnot
  simp only [eq_none_iff_forall_ne_some]
  exact ⟨fun value hget => hnot.1 ⟨owner, value, hget, mem_singleton_self _⟩,
    fun value hget => hnot.2 ⟨owner, value, hget, mem_singleton_self _⟩⟩

@[simp]
theorem owners_abort (t : Task) (owner : ℕ) (r) : (abort t owner r).stage.owners = {owner} := by
  simp [abort, cleanAll]

@[simp]
theorem held_abort (t : Task) (owner : ℕ) (r) : (abort t owner r).stage.held = r.held := by
  simp [abort, cleanAll]

theorem sound_abort (t : Task) (owner : ℕ) (r) : (abort t owner r).stage.Sound :=
  fun _ => trivial

/-- What was set up is handed to a cleanup. -/
theorem abort_entry {job : Job} {b : Build} {r} (hr : r.held = b.held) :
    Entry Resource.number (m.books (.building job owner b)) (m.books (abort t owner r).stage) ∧
      (abort t owner r).stage.Sound :=
  ⟨stage_entry (owners_abort ..) ((held_abort ..).trans hr), sound_abort _ _ _⟩

theorem build_entry {job : Job} {b : Build}
    (hnodup : (m.books (.building job owner b)).holders.Nodup) :
    Entry Resource.number (m.books (.building job owner b))
        ((m.build t a job owner b).2.books (m.build t a job owner b).1.stage) ∧
      (m.build t a job owner b).1.stage.Sound := by
  obtain ⟨hsession, -⟩ := get_eq_none hnodup (mem_singleton_self owner)
  cases b with
  | contract =>
    rw [build]
    split_ifs
    · exact ⟨stage_entry rfl rfl, trivial⟩
    · exact ⟨drop_entry owner rfl rfl, trivial⟩
  | makeDir =>
    rw [build]
    split_ifs
    · exact ⟨make_entry rfl rfl rfl, trivial⟩
    · exact ⟨make_entry rfl (owners_abort ..) (held_abort ..), sound_abort _ _ _⟩
    · exact ⟨drop_entry owner rfl rfl, trivial⟩
  | startProxy | spawn =>
    rw [build]
    split_ifs
    · exact ⟨make_entry rfl rfl rfl, trivial⟩
    · exact abort_entry rfl
  | makeSpec outputDir proxy =>
    rw [build]
    split_ifs
    · exact ⟨stage_entry rfl rfl, trivial⟩
    · exact abort_entry rfl
  | authorize outputDir proxy process =>
    by_cases hok : a.ok = true
    · rw [build.eq_def]
      simp only [hok, if_true]
      cases job <;> exact ⟨stage_entry rfl rfl, trivial⟩
    · rw [build.eq_def]
      simp only [hok]
      exact abort_entry rfl
  | capture outputDir proxy process =>
    refine ⟨stage_entry ?_ ?_, sound_cleanOne _ _ _⟩
    · simp [build, cleanOne]
    · simp [build, cleanOne, Build.held]
  | install outputDir proxy process =>
    rw [build]
    split_ifs
    · refine ⟨.of_eq (Books.ext rfl ?_ ?_ rfl rfl rfl rfl), trivial⟩
      · simp only [books, owners, owners_building, Task.stage_goto, owners_waiting,
          total_insert_of_none hsession]
        abel
      · simp only [books, held, held_building, Task.stage_goto, held_waiting,
          total_insert_of_none hsession, Build.held, ManagedSession.held, fromSession, transient]
        abel
    · exact abort_entry rfl

theorem clean_entry {cleanup} {phase : Phase} {failed : Bool} {queue} {onOk onError : Point}
    (hsound : (Stage.cleaning cleanup phase failed queue onOk onError).Sound)
    (hnodup : (m.books (.cleaning cleanup phase failed queue onOk onError)).holders.Nodup) :
    Entry Resource.number (m.books (.cleaning cleanup phase failed queue onOk onError))
        ((m.clean t a cleanup failed queue onOk onError phase).2.books
          (m.clean t a cleanup failed queue onOk onError phase).1.stage) ∧
      (m.clean t a cleanup failed queue onOk onError phase).1.stage.Sound := by
  cases phase with
  | process | proxy | outputDir =>
    rw [clean]
    split
    · next hnone =>
      exact ⟨stage_entry rfl rfl, fun h => by grind [hsound h, Stage.Closed]⟩
    next n hn =>
    split_ifs
    · refine ⟨release_entry rfl ?_, fun h => by grind [hsound h, Stage.Closed]⟩
      simp only [Task.stage_to, held_cleaning, CleanupResources.held, hn, held?_some, held?_none,
        ← singleton_add]
      abel
    · exact ⟨stage_entry rfl rfl, fun h => by cases h⟩
  | settle =>
    obtain ⟨-, hpending⟩ := get_eq_none hnodup
      (by simp : cleanup.owner ∈ (cleaning cleanup .settle failed queue onOk onError).owners)
    rw [clean]
    split_ifs with hfailed
    · refine ⟨.of_eq (Books.ext rfl ?_ ?_ rfl rfl rfl rfl), sound_next _ _ _ _⟩
      · simp only [books, owners, owners_cleaning, Task.stage_to, owners_next,
          total_insert_of_none hpending]
        abel
      · simp only [books, held, held_cleaning, Task.stage_to, held_next,
          total_insert_of_none hpending]
        abel
    · obtain ⟨hprocess, hproxy, hdir⟩ := hsound (Bool.not_eq_true _ ▸ hfailed)
      refine ⟨drop_entry cleanup.owner (by simp) ?_, sound_next _ _ _ _⟩
      simp [CleanupResources.held, hprocess, hproxy, hdir]

/-- **Every step of a call makes one entry in the books.** -/
theorem advance_entry (hsound : t.stage.Sound) (hnodup : (m.books t.stage).holders.Nodup)
    (h : m.advance t a = some (t', m')) :
    Entry Resource.number (m.books t.stage) (m'.books t'.stage) ∧ t'.stage.Sound := by
  rw [advance] at h
  split at h
  · next point hstage =>
    rw [hstage]
    refine ⟨?_, (books_atPoint h).2⟩
    by_cases hp : ∃ job, point = .acquire job
    · obtain ⟨job, rfl⟩ := hp
      exact acquire_entry h
    · exact .of_eq ((books_atPoint h).1 fun job hjob => hp ⟨job, hjob⟩).symm
  · next job owner b hstage =>
    rw [hstage] at hnodup ⊢
    have hentry := build_entry (t := t) (a := a) hnodup
    rwa [some.inj h] at hentry
  · next cleanup phase failed queue onOk onError hstage =>
    rw [hstage] at hnodup hsound ⊢
    have hentry := clean_entry (t := t) (a := a) hsound hnodup
    rwa [some.inj h] at hentry

/-! ### All calls -/

variable (m) in
/-- The operations that are in progress. -/
def operations : Multiset ℕ := m.tasks.total fun _ t => t.stage.owners

variable (m) in
/-- The books of the maps and of all calls. -/
def ledger : Books Resource where
  available := m.available
  holders := m.owners + m.operations
  held := m.held + m.tasks.total fun _ t => t.stage.held
  made := m.created
  returned := m.released
  nextHolder := m.nextOwner
  nextThing := m.nextResource

theorem ledger_eq {i : ℕ} (hget : m.tasks.get i = some t) :
    m.ledger = (m.books t.stage).add ((m.tasks.erase i).total fun _ t => t.stage.owners)
      ((m.tasks.erase i).total fun _ t => t.stage.held) := by
  refine Books.ext rfl ?_ ?_ rfl rfl rfl rfl
  · rw [ledger, operations, total_erase hget, ← add_assoc]
    rfl
  · rw [ledger, total_erase hget, ← add_assoc]
    rfl

end Manager

end NeonHearth.Camera
