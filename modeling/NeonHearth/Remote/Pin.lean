import NeonHearth.Data.Except
import NeonHearth.Remote.Session
import NeonHearth.System.Machine

/-!
# The PIN guess budget

A step-up request reads the session row and the clock, is refused while the PIN is locked,
compares the PIN, and then either charges a failure (`recordPinFailure`) or grants the grace
(`grantStepup`).  Each update of the row is atomic, but the lock check, the comparison and the
update are separate steps, and any number of requests of one session may be between them.

* `Stepup.GuessBudget` : at most `pinMaxFailures` wrong PINs are compared in one failure window,
  none of them while the PIN is locked, and no grace is written while the PIN is locked.

Requests that have all passed the lock check before the first failure is charged break the budget
(`parallelGuesses_not_guessBudget`).  It holds in every run whose requests load the row alone or
while the charged failures and the requests in flight leave room (`guessBudget_of_paced`).
-/

namespace NeonHearth

open Multiset

namespace Remote

/-- A step-up request between two of its steps, with its reading of the clock. -/
inductive Attempt where
  /-- Past the lock check. -/
  | checked (now : ℤ)
  /-- The PIN was wrong; the failure is not charged yet. -/
  | failed (now : ℤ)
  /-- The PIN was right; the grace is not written yet. -/
  | matched (now : ℤ)
  /-- The grace is written; the audit entry is not. -/
  | granted (now : ℤ)
  /-- The audit entry could not be written; the grace is to be withdrawn. -/
  | withdrawing (now : ℤ)
  deriving DecidableEq

/-- The clock reading of the request. -/
def Attempt.now : Attempt → ℤ
  | .checked now | .failed now | .matched now | .granted now | .withdrawing now => now

/-- The request has compared a wrong PIN that is not charged yet. -/
def Attempt.isFailed : Attempt → Bool
  | .failed _ => true
  | _ => false

/-- The length of a failure window. -/
def pinWindow : ℤ := minutes pinWindowMinutes

end Remote

open Remote

/-- A session row and the step-up requests on it. -/
structure Stepup where
  /-- The clock. -/
  now : ℤ
  /-- The stored row. -/
  row : PhoneSessionRow
  /-- The requests in flight. -/
  inflight : Multiset Attempt
  /-- The wrong PINs of the stored failure window: the one that opened it and those compared
  while it was live. -/
  guesses : ℕ

namespace Stepup

/-- A phone that has just been paired. -/
def start (now : ℤ) : Stepup := ⟨now, .paired now, 0, 0⟩

variable (st : Stepup)

/-- The stored failure window is live at the instant `t`. -/
def windowLiveAt (t : ℤ) : Bool := st.row.windowLive (encodeTime (t - pinWindow))

/-- The steps of the requests. -/
inductive Event where
  /-- Time passes. -/
  | tick (elapsed : ℕ)
  /-- A request reads the row and the clock and checks the lock. -/
  | load
  /-- A request compares its PIN. -/
  | compare (now : ℤ) (right : Bool)
  /-- A request charges its wrong PIN. -/
  | recordPinFailure (now : ℤ)
  /-- A request writes its grace. -/
  | grantStepup (now : ℤ)
  /-- A request writes the audit entry of its grace. -/
  | appendAudit (now : ℤ) (written : Bool)
  /-- A request withdraws its unaudited grace. -/
  | withdraw (now : ℤ)

/-- Replaces a request in flight by its next stage. -/
def advance (a : Attempt) (next : Multiset Attempt) : Stepup :=
  { st with inflight := next + st.inflight.erase a }

/-- One step. -/
def step : Event → Option Stepup
  | .tick elapsed => some { st with now := st.now + elapsed }
  | .load =>
    if st.row.pinLocked st.now then some st
    else some { st with inflight := .checked st.now ::ₘ st.inflight }
  | .compare now right =>
    if .checked now ∈ st.inflight then
      if right then some (st.advance (.checked now) {.matched now})
      else
        let st' := st.advance (.checked now) {.failed now}
        some { st' with guesses := if st.windowLiveAt st.now then st.guesses + 1 else st.guesses }
    else none
  | .recordPinFailure now =>
    if .failed now ∈ st.inflight then
      let st' := st.advance (.failed now) 0
      some { st' with
        row := st.row.recordPinFailure now pinWindow pinMaxFailures
        guesses := if st.windowLiveAt now then st.guesses else 1 }
    else none
  | .grantStepup now =>
    if .matched now ∈ st.inflight then
      let st' := st.advance (.matched now) {.granted now}
      some { st' with row := st.row.grantStepup (now + minutes stepupGraceMinutes), guesses := 0 }
    else none
  | .appendAudit now written =>
    if .granted now ∈ st.inflight then
      some (st.advance (.granted now) (if written then 0 else {.withdrawing now}))
    else none
  | .withdraw now =>
    if .withdrawing now ∈ st.inflight then
      let st' := st.advance (.withdrawing now) 0
      some { st' with row := st.row.grantStepup (now - seconds 1), guesses := 0 }
    else none

end Stepup

/-- All interleavings of step-up requests on one session. -/
def stepupMachine : Machine Stepup Stepup.Event where
  init st := ∃ now, st = Stepup.start now
  step := Stepup.step

namespace Stepup

/-- The event compares a wrong PIN or writes a grace. -/
def Event.needsUnlocked : Event → Bool
  | .compare _ right => !right
  | .grantStepup _ | .withdraw _ => true
  | _ => false

/-- At most `pinMaxFailures` wrong PINs are compared in one failure window, and while the PIN is
locked no step that meets `G` compares a wrong PIN or writes a grace. -/
def GuessBudget (G : Stepup → Event → Prop) (st : Stepup) : Prop :=
  st.guesses ≤ pinMaxFailures ∧
    ∀ e st', G st e → st.step e = some st' → e.needsUnlocked → st.row.pinLocked st.now = false

/-- A request loads the row alone, or while the charged failures and the requests in flight leave
room for one more failure below the limit. -/
def Paced (st : Stepup) : Event → Prop
  | .load => st.inflight = 0 ∨ st.row.pinFailedCount + st.inflight.card + 1 < pinMaxFailures
  | _ => True

/-! ### The invariant -/

/-- The wrong PINs in flight that are not charged yet. -/
def uncharged (st : Stepup) : ℕ := st.inflight.countP (·.isFailed)

/-- The only request in flight: it passed the lock check against the stored row, whose window was
opened no later than its reading of the clock. -/
def Alone (st : Stepup) (a : Attempt) : Prop :=
  st.inflight = {a} ∧ st.row.pinLocked a.now = false ∧
    ∀ startedAt, st.row.pinWindowStartedAt = some startedAt → startedAt ≤ encodeTime a.now

/-- What holds in every state of a paced run. -/
structure PinInv (st : Stepup) : Prop where
  started : ∀ startedAt, st.row.pinWindowStartedAt = some startedAt → startedAt ≤ encodeTime st.now
  reading : ∀ a ∈ st.inflight, a.now ≤ st.now
  locked : st.row.pinLocked st.now → st.inflight = 0
  room : st.inflight = 0 ∨ st.row.pinFailedCount + st.inflight.card < pinMaxFailures ∨
    ∃ a, st.Alone a
  full : st.row.pinFailedCount ≤ pinMaxFailures
  closed : st.row.pinFailedCount = pinMaxFailures → ∀ t, st.row.pinLocked t = false →
    st.windowLiveAt t = false
  charged : st.guesses ≤ st.row.pinFailedCount + st.uncharged
  bounded : st.guesses ≤ pinMaxFailures

variable {st st' : Stepup}

theorem pinInv_start (now : ℤ) : (start now).PinInv where
  started _ h := by simp [start, PhoneSessionRow.paired] at h
  reading _ h := by simp [start] at h
  locked _ := rfl
  room := .inl rfl
  full := Nat.zero_le _
  closed h := by simp [start, PhoneSessionRow.paired, pinMaxFailures] at h
  charged := Nat.zero_le _
  bounded := Nat.zero_le _

variable {row : PhoneSessionRow}

theorem pinLocked_mono {t u : ℤ} (h : t ≤ u)
    (hu : row.pinLocked u = true) : row.pinLocked t = true := by
  unfold PhoneSessionRow.pinLocked at *
  split at hu
  · cases hu
  · simp only [decide_eq_true_eq] at hu ⊢
    exact h.trans_lt hu

theorem PinInv.tick (h : st.PinInv) (elapsed : ℕ) : PinInv { st with now := st.now + elapsed } := by
  have hle : st.now ≤ st.now + elapsed := Int.le_add_of_nonneg_right (Int.natCast_nonneg _)
  exact { h with
    started := fun t ht => (h.started t ht).trans (encodeTime_mono hle)
    reading := fun a ha => (h.reading a ha).trans hle
    locked := fun hl => h.locked (pinLocked_mono hle hl) }

theorem PinInv.load (h : st.PinInv) (hunlocked : st.row.pinLocked st.now = false)
    (hpaced : st.Paced .load) :
    PinInv { st with inflight := .checked st.now ::ₘ st.inflight } where
  started := h.started
  reading a ha := by
    obtain rfl | ha := mem_cons.1 ha
    · exact le_rfl
    · exact h.reading a ha
  locked hl := by simp [hunlocked] at hl
  room := by
    obtain hnone | hroom := hpaced
    · exact .inr (.inr ⟨.checked st.now, by simp [hnone], hunlocked, h.started⟩)
    · refine .inr (.inl ?_)
      simp only [card_cons]
      omega
  full := h.full
  closed := h.closed
  charged := by
    have hcount : uncharged { st with inflight := .checked st.now ::ₘ st.inflight } =
        st.uncharged := countP_cons_of_neg _ (by simp [Attempt.isFailed])
    rw [hcount]
    exact h.charged
  bounded := h.bounded

variable {a : Attempt} {now : ℤ}

theorem exists_rest (ha : a ∈ st.inflight) (next) :
    ∃ rest, st.inflight = a ::ₘ rest ∧ (st.advance a next).inflight = next + rest ∧
      (st.Alone a → rest = 0) := by
  obtain ⟨rest, hrest⟩ := exists_cons_of_mem ha
  refine ⟨rest, hrest, by simp [advance, hrest], fun hal => ?_⟩
  exact (cons_inj_right a).1 (hrest ▸ hal.1)

/-- The request ends, or goes on with its reading of the clock. -/
def Goes (a : Attempt) (next : Multiset Attempt) : Prop :=
  next = 0 ∨ ∃ b, next = {b} ∧ b.now = a.now

section

variable (h : st.PinInv) (ha : a ∈ st.inflight)
include h ha

/-- The request is the only one in flight, unless there is room. -/
theorem PinInv.room_of_mem :
    st.row.pinFailedCount + st.inflight.card < pinMaxFailures ∨ st.Alone a := by
  obtain hnone | hroom | ⟨b, hb⟩ := h.room
  · simp [hnone] at ha
  · exact .inl hroom
  · have : a = b := by simpa [hb.1] using ha
    exact .inr (this ▸ hb)

/-- While a request is in flight the PIN is not locked. -/
theorem PinInv.unlocked_of_mem : st.row.pinLocked st.now = false := by
  refine Bool.eq_false_iff.2 fun hl => ?_
  simp [h.locked hl] at ha

theorem PinInv.reading_advance {next} (hnext : Goes a next) :
    ∀ b ∈ (st.advance a next).inflight, b.now ≤ st.now := by
  intro b hb
  obtain ⟨rest, hrest, hadv, -⟩ := exists_rest ha next
  rw [hadv] at hb
  obtain hb | hb := mem_add.1 hb
  · obtain rfl | ⟨b', rfl, hnow⟩ := hnext
    · simp at hb
    · rw [mem_singleton.1 hb, hnow]
      exact h.reading a ha
  · exact h.reading b (by simp [hrest, hb])

/-- A request whose stage changes without a write to the row. -/
theorem PinInv.advance {next} (hnext : Goes a next) {guesses : ℕ}
    (hcharged : guesses + a.isFailed.toNat ≤ st.guesses + next.countP (·.isFailed))
    (hbounded : guesses ≤ pinMaxFailures) :
    PinInv { st.advance a next with guesses := guesses } := by
  obtain ⟨rest, hrest, hadv, hzero⟩ := exists_rest ha next
  refine ⟨h.started, h.reading_advance ha hnext, fun hl => ?_, ?_, h.full, h.closed, ?_, hbounded⟩
  · have hunlocked := h.unlocked_of_mem ha
    rw [show (st.row.pinLocked st.now = true) from hl] at hunlocked
    cases hunlocked
  · obtain hroom | hal := h.room_of_mem ha
    · refine .inr (.inl (lt_of_le_of_lt (Nat.add_le_add_left ?_ _) hroom))
      obtain rfl | ⟨b, rfl, -⟩ := hnext <;> simp [hrest, hadv]
    · rw [hzero hal, add_zero] at hadv
      exact hnext.imp hadv.trans fun ⟨b, hb, hnow⟩ => .inr ⟨b, hadv.trans hb, hnow ▸ hal.2⟩
  · have hcount : (st.advance a next).uncharged + a.isFailed.toNat =
        st.uncharged + next.countP (·.isFailed) := by
      rw [uncharged, uncharged, hrest, hadv, countP_add]
      cases ha' : a.isFailed <;> simp [ha'] <;> omega
    have := h.charged
    change guesses ≤ st.row.pinFailedCount + (st.advance a next).uncharged
    omega

end

/-- A wrong PIN compared in a live window stays within the budget. -/
theorem PinInv.compare_wrong (h : st.PinInv) (ha : .checked now ∈ st.inflight) :
    PinInv { st.advance (.checked now) {.failed now} with
      guesses := if st.windowLiveAt st.now then st.guesses + 1 else st.guesses } := by
  have hle : (if st.windowLiveAt st.now then st.guesses + 1 else st.guesses) ≤ st.guesses + 1 := by
    split <;> omega
  refine h.advance ha (.inr ⟨.failed now, rfl, rfl⟩) hle ?_
  split_ifs with hlive
  · have hcount : st.row.pinFailedCount < pinMaxFailures := by
      refine lt_of_le_of_ne h.full fun hfull => ?_
      simp [h.closed hfull _ (h.unlocked_of_mem ha)] at hlive
    have hcharged := h.charged
    obtain ⟨rest, hrest, -, hzero⟩ := exists_rest ha 0
    -- the comparing request itself is not charged yet
    have huncharged : st.uncharged ≤ rest.card := by
      rw [uncharged, hrest, countP_cons_of_neg _ (by simp [Attempt.isFailed])]
      exact countP_le_card _ _
    obtain hroom | hal := h.room_of_mem ha
    · rw [hrest, card_cons] at hroom
      omega
    · simp only [hzero hal, card_zero, Nat.le_zero] at huncharged
      omega
  · exact h.bounded

/-- The charged row: the window was opened no later than `encodeTime` of the later one of the two
readings. -/
theorem started_recordPinFailure {bound : ℤ} {window : ℤ} {max : ℕ}
    (hrow : ∀ t, row.pinWindowStartedAt = some t → t ≤ encodeTime bound) (hle : now ≤ bound) (t : ℤ)
    (ht : (row.recordPinFailure now window max).pinWindowStartedAt = some t) :
    t ≤ encodeTime bound := by
  simp only [PhoneSessionRow.recordPinFailure] at ht
  split_ifs at ht with hlive
  · exact hrow t ht
  · cases ht
    exact encodeTime_mono hle

/-- Once the lock that a charge has set is over, the charged window is over too. -/
theorem windowLive_of_lock {t : ℤ}
    (hrow : ∀ u, row.pinWindowStartedAt = some u → u ≤ encodeTime now)
    (ht : encodeTime (now + pinWindow) ≤ t) :
    row.windowLive (encodeTime (t - pinWindow)) = false := by
  unfold PhoneSessionRow.windowLive
  split
  · rfl
  · next u hu =>
    have hu := hrow u hu
    rw [decide_eq_false_iff_not]
    simp only [encodeTime, microsecond, pinWindow, minutes, seconds, pinWindowMinutes] at *
    omega

theorem PinInv.recordPinFailure (h : st.PinInv) (ha : .failed now ∈ st.inflight) :
    PinInv { st.advance (.failed now) 0 with
      row := st.row.recordPinFailure now pinWindow pinMaxFailures
      guesses := if st.windowLiveAt now then st.guesses else 1 } := by
  obtain ⟨rest, hrest, hadv, hzero⟩ := exists_rest ha 0
  rw [zero_add] at hadv
  have hreading := h.reading _ ha
  have hnext : st.row.nextFailedCount (encodeTime (now - pinWindow)) ≤ st.row.pinFailedCount + 1 := by
    unfold PhoneSessionRow.nextFailedCount
    split <;> omega
  have huncharged : st.uncharged = rest.countP (·.isFailed) + 1 := by
    rw [uncharged, hrest, countP_cons_of_pos _ (by simp [Attempt.isFailed])]
  have hcharged := h.charged
  -- either there is room for the failure, or the request is alone and its charge may lock the PIN
  have hcases : st.row.nextFailedCount (encodeTime (now - pinWindow)) + rest.card < pinMaxFailures ∨
      rest = 0 ∧ st.Alone (.failed now) := by
    refine (h.room_of_mem ha).imp (fun hroom => ?_) fun hal => ⟨hzero hal, hal⟩
    rw [hrest, card_cons] at hroom
    omega
  refine ⟨started_recordPinFailure h.started hreading, h.reading_advance ha (.inl rfl),
    fun hl => ?_, ?_, ?_, fun hfull t ht => ?_, ?_, ?_⟩
  · obtain hroom | ⟨hzero, -⟩ := hcases
    · have hopen : ¬pinMaxFailures ≤ st.row.nextFailedCount (encodeTime (now - pinWindow)) := by omega
      simp [PhoneSessionRow.recordPinFailure, PhoneSessionRow.pinLocked, hopen] at hl
    · rw [hadv, hzero]
  · refine hcases.elim (fun hroom => .inr (.inl ?_)) fun hal => .inl (by rw [hadv, hal.1])
    rw [hadv]
    exact hroom
  · obtain hroom | ⟨-, hal⟩ := hcases
    · exact (Nat.le_add_right _ _).trans hroom.le
    obtain hfull | hfull := h.full.lt_or_eq
    · exact hnext.trans hfull
    · have hdead : st.windowLiveAt now = false := h.closed hfull now hal.2.1
      change st.row.nextFailedCount (encodeTime (now - pinWindow)) ≤ pinMaxFailures
      rw [PhoneSessionRow.nextFailedCount, if_neg (by simpa [windowLiveAt] using hdead)]
      decide
  · have hfull : st.row.nextFailedCount (encodeTime (now - pinWindow)) = pinMaxFailures := hfull
    obtain hroom | ⟨-, hal⟩ := hcases
    · omega
    · refine windowLive_of_lock (started_recordPinFailure hal.2.2 le_rfl) ?_
      have hlock : ¬t < encodeTime (now + pinWindow) := by
        simpa [PhoneSessionRow.recordPinFailure, PhoneSessionRow.pinLocked, hfull] using ht
      exact not_lt.1 hlock
  · change (if st.windowLiveAt now then st.guesses else 1) ≤
      st.row.nextFailedCount (encodeTime (now - pinWindow)) +
      (st.advance (.failed now) 0).inflight.countP (·.isFailed)
    rw [hadv, PhoneSessionRow.nextFailedCount]
    cases hlive : st.windowLiveAt now with
    | true =>
      rw [if_pos rfl, if_pos (by simpa [windowLiveAt] using hlive)]
      omega
    | false =>
      rw [if_neg (by simp), if_neg (by simpa [windowLiveAt] using hlive)]
      omega
  · have := h.bounded
    change (if st.windowLiveAt now then st.guesses else 1) ≤ pinMaxFailures
    split
    · exact this
    · decide

theorem PinInv.grantStepup (h : st.PinInv) (ha : a ∈ st.inflight) {next}
    (hnext : Goes a next) (expiresAt : ℤ) :
    PinInv { st.advance a next with row := st.row.grantStepup expiresAt, guesses := 0 } := by
  obtain ⟨rest, hrest, hadv, hzero⟩ := exists_rest ha next
  have hcard : next.card ≤ 1 := by
    obtain rfl | ⟨b, rfl, -⟩ := hnext <;> simp
  refine ⟨fun t ht => ?_, h.reading_advance ha hnext, fun hl => ?_, .inr (.inl ?_), Nat.zero_le _,
    fun hfull => ?_, Nat.zero_le _, Nat.zero_le _⟩
  · cases ht
  · cases hl
  · change 0 + (st.advance a next).inflight.card < pinMaxFailures
    rw [hadv, card_add]
    obtain hroom | hal := h.room_of_mem ha
    · rw [hrest, card_cons] at hroom
      omega
    · rw [hzero hal, card_zero, pinMaxFailures]
      omega
  · cases hfull

theorem PinInv.appendAudit (h : st.PinInv) (ha : .granted now ∈ st.inflight) (written : Bool) :
    (st.advance (.granted now) (if written then 0 else {.withdrawing now})).PinInv := by
  cases written with
  | false => exact h.advance ha (.inr ⟨.withdrawing now, rfl, rfl⟩) le_rfl h.bounded
  | true => exact h.advance ha (.inl rfl) le_rfl h.bounded

/-- Every paced step keeps the invariant. -/
theorem PinInv.step (h : st.PinInv) {e : Event} (hp : st.Paced e) (hs : st.step e = some st') :
    st'.PinInv := by
  cases e with
  | tick elapsed =>
    cases hs
    exact h.tick elapsed
  | load =>
    simp only [Stepup.step] at hs
    split_ifs at hs with hl <;> cases hs
    · exact h
    · exact h.load (by simpa using hl) hp
  | compare now right =>
    simp only [Stepup.step] at hs
    split at hs
    · cases right <;> cases hs
      · exact h.compare_wrong ‹_›
      · exact h.advance (a := .checked now) ‹_› (.inr ⟨.matched now, rfl, rfl⟩) le_rfl h.bounded
    · cases hs
  | recordPinFailure now =>
    simp only [Stepup.step] at hs
    split at hs <;> cases hs
    exact h.recordPinFailure ‹_›
  | grantStepup now =>
    simp only [Stepup.step] at hs
    split at hs <;> cases hs
    exact h.grantStepup (a := .matched now) ‹_› (.inr ⟨.granted now, rfl, rfl⟩) _
  | appendAudit now written =>
    simp only [Stepup.step] at hs
    split at hs <;> cases hs
    exact h.appendAudit ‹_› written
  | withdraw now =>
    simp only [Stepup.step] at hs
    split at hs <;> cases hs
    exact h.grantStepup ‹_› (.inl rfl) _

/-- A request that compares a PIN or writes a grace is in flight, so the PIN is not locked. -/
theorem PinInv.unlocked (h : st.PinInv) {e : Event} (hs : st.step e = some st')
    (he : e.needsUnlocked) : st.row.pinLocked st.now = false := by
  cases e with
  | tick _ | load | recordPinFailure _ | appendAudit _ _ => cases he
  | compare now right | grantStepup now | withdraw now =>
    simp only [Stepup.step] at hs
    split at hs
    · exact h.unlocked_of_mem ‹_›
    · cases hs

/-- **The PIN guess budget** holds in every paced run. -/
theorem guessBudget_of_paced (h : stepupMachine.Via Paced st) : st.GuessBudget Paced := by
  have hinv : st.PinInv := h.invariant (fun _ ⟨now, hst⟩ => hst ▸ pinInv_start now)
    fun _ _ _ hi hp hs => hi.step hp hs
  exact ⟨hinv.bounded, fun _ _ _ hs he => hinv.unlocked hs he⟩

instance (st : Stepup) (e : Event) : Decidable (st.Paced e) := by
  cases e <;> dsimp only [Paced] <;> infer_instance

/-- Five wrong PINs, the second and the third of them in overlapping requests. -/
def pacedGuesses : List Event :=
  [.load, .compare 0 false, .recordPinFailure 0, .load, .load, .compare 0 false, .compare 0 false,
    .recordPinFailure 0, .recordPinFailure 0, .load, .compare 0 false, .recordPinFailure 0,
    .load, .compare 0 false, .recordPinFailure 0]

theorem pacedGuesses_guessBudget :
    ∃ st, stepupMachine.exec (start 0) pacedGuesses = some st ∧
      (st.guesses, st.row.pinLocked st.now) = (5, true) ∧ st.GuessBudget Paced := by
  refine exists_and_imp (by decide +kernel) fun st hst _ => ?_
  have hstart : stepupMachine.Via Paced (start 0) := .start ⟨0, rfl⟩
  exact guessBudget_of_paced (hstart.exec (by decide +kernel) hst)

/-- Nine requests pass the lock check before the first failure is charged. -/
def parallelGuesses : List Event :=
  List.replicate 9 .load ++ [.compare 0 false, .recordPinFailure 0] ++
    List.replicate 6 (.compare 0 false) ++ List.replicate 4 (.recordPinFailure 0) ++
    [.compare 0 true]

/-- Seven wrong PINs are compared in one live window.  The PIN is locked by then, yet the next
wrong PIN is still compared, and a right one wins a grace that also lifts the lock. -/
theorem parallelGuesses_not_guessBudget :
    ∃ st, stepupMachine.exec (start 0) parallelGuesses = some st ∧
      (st.guesses, st.row.pinLocked st.now) = (7, true) ∧
      (st.step (.compare 0 false)).map (·.guesses) = some 8 ∧
      (st.step (.grantStepup 0)).map (fun st' => st'.row.pinLocked st'.now) = some false ∧
      ¬st.GuessBudget fun _ _ => True := by
  simp only [← and_assoc]
  refine exists_and_of_imp ?_ fun st ⟨⟨⟨_, hguesses⟩, _⟩, _⟩ h => ?_
  · simp only [and_assoc]
    decide +kernel
  · exact absurd ((Prod.mk.inj hguesses).1 ▸ h.1) (by decide)

end Stepup

end NeonHearth
