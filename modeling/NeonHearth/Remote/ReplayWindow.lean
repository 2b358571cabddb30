import NeonHearth.Remote.Dedup

/-!
# Phone commands run once

For every interleaving of requests, completions, disconnects and revocations the replay windows
are meant to give three guarantees: at most one request of a session and command id runs its
handler (`Remote.AtMostOneRunning`), a settled id among the newest `commandDedupWindow` ones is
not executed again (`Remote.NotReexecuted`), and a parked duplicate is woken whenever the slot it
waits on goes away (`Remote.WaitersNotified`).

`forgetSession` drops the whole window with its pending slots and wakes nobody, so the guarantees
fail in general (`revocationRace_not_commandDedup`).  They hold in every run that drops a window
only while its session is `Quiet` (`commandDedup_of_dropsQuiet`).
-/

namespace NeonHearth.Remote

open List Option SessionDedup PhoneSessionRow Function Remote

/-! ### The window of one session -/

namespace SessionDedup

theorem evict_order (l f) : (evict l f).order = l.rtake commandDedupWindow := by
  induction l generalizing f with
  | nil => rfl
  | cons c l ih =>
    rw [evict]
    split_ifs with h
    · rw [ih, rtake, rtake, length_cons,
        Nat.succ_sub (by simpa [Nat.lt_succ_iff] using h), drop_succ_cons]
    · rw [rtake, Nat.sub_eq_zero_of_le (by simpa using h), drop_zero]

theorem evict_slots (l f) (c : Uuid) :
    (evict l f).slots c = if c ∈ l.rdrop commandDedupWindow then none else f c := by
  induction l generalizing f with
  | nil => simp [evict]
  | cons d l ih =>
    by_cases h : (d :: l).length > commandDedupWindow
    · have hd : (d :: l).rdrop commandDedupWindow = d :: l.rdrop commandDedupWindow := by
        rw [rdrop, rdrop, length_cons,
          Nat.succ_sub (by simpa [Nat.lt_succ_iff] using h), take_succ_cons]
      rw [evict, if_pos h, ih, hd]
      by_cases hc : c = d
      · subst hc; simp
      · simp [hc]
    · have hd : (d :: l).rdrop commandDedupWindow = [] := by
        rw [rdrop, Nat.sub_eq_zero_of_le (by simpa using h), take_zero]
      rw [evict, if_neg h, hd]
      simp

/-- The settled ids are exactly those in the eviction order, each of them once. -/
structure Wf (w : SessionDedup) : Prop where
  nodup : w.order.Nodup
  mem_order : ∀ c, c ∈ w.order ↔ ∃ cached, w.slots c = some (.done cached)

theorem empty_wf : empty.Wf := ⟨nodup_nil, by simp [empty]⟩

variable {w : SessionDedup} {c : Uuid} {n : ℕ}

theorem Wf.begin (h : w.Wf) (hc : w.slots c = none) (n : ℕ) : (w.begin c n).Wf where
  nodup := h.nodup
  mem_order d := by
    rw [show (w.begin c n).order = w.order from rfl, h.mem_order]
    by_cases hd : d = c
    · subst hd; simp [begin, hc]
    · simp [SessionDedup.begin, hd]

theorem Wf.release (h : w.Wf) (hc : w.slots c = some (.pending n)) : (w.release c).1.Wf where
  nodup := by simpa [SessionDedup.release, hc] using h.nodup
  mem_order d := by
    simp only [SessionDedup.release, hc]
    rw [h.mem_order]
    by_cases hd : d = c
    · subst hd; simp [hc]
    · simp [hd]

theorem settle_pending (hc : w.slots c = some (.pending n)) (response) : w.settle c response =
      (evict (w.order ++ [c]) (Function.update w.slots c (some (.done response))), some n) := by
  simp [settle, hc]

section

variable (h : w.Wf) (hc : w.slots c = some (.pending n))
include h hc

/-- An id in flight is not among the settled ones. -/
theorem Wf.notMem_of_pending : c ∉ w.order := by
  rw [h.mem_order]
  rintro ⟨cached, hd⟩
  rw [hc] at hd
  cases hd

theorem Wf.settle (response) : (w.settle c response).1.Wf := by
  have hnodup : (w.order ++ [c]).Nodup :=
    nodup_append.2 ⟨h.nodup, by simp, fun a ha b hb => by
      rw [mem_singleton.1 hb]
      rintro rfl
      exact h.notMem_of_pending hc ha⟩
  have hsplit : (w.order ++ [c]).rdrop commandDedupWindow ++
      (w.order ++ [c]).rtake commandDedupWindow = w.order ++ [c] := take_append_drop _ _
  rw [← hsplit] at hnodup
  obtain ⟨-, hkeep, hdisj⟩ := nodup_append.1 hnodup
  rw [settle_pending hc]
  refine ⟨by rw [evict_order]; exact hkeep, fun d => ?_⟩
  rw [evict_order, evict_slots]
  have hmem : d ∈ w.order ++ [c] ↔ ∃ cached,
      update w.slots c (some (.done response)) d = some (.done cached) := by
    rw [mem_append, mem_singleton, h.mem_order]
    by_cases hd : d = c
    · subst hd; simp
    · simp [hd]
  by_cases hd : d ∈ (w.order ++ [c]).rdrop commandDedupWindow
  · simp only [hd, if_true]
    exact iff_of_false (fun hk => hdisj d hd d hk rfl) (by simp)
  · have hsplit_mem : d ∈ w.order ++ [c] ↔ d ∈ (w.order ++ [c]).rtake commandDedupWindow := by
      conv_lhs => rw [← hsplit, mem_append]
      simp [hd]
    simp only [hd, if_false]
    rw [← hmem, hsplit_mem]

/-- Settling an id leaves every other id in flight alone. -/
theorem Wf.settle_pending_slots (response) {d : Uuid} {m : ℕ} (hd : d ≠ c)
    (hm : w.slots d = some (.pending m)) : (w.settle c response).1.slots d = some (.pending m) := by
  have hnot : d ∉ (w.order ++ [c]).rdrop commandDedupWindow := fun hmem => by
    have := mem_of_mem_take hmem
    rw [mem_append, mem_singleton] at this
    exact this.elim (h.notMem_of_pending hm) hd
  rw [settle_pending hc, evict_slots, if_neg hnot, update_of_ne hd, hm]

end

theorem rtake_append_singleton (l) (c : Uuid) (n : ℕ) :
    (l.rtake n ++ [c]).rtake n = (l ++ [c]).rtake n := by
  simp only [rtake_eq_reverse_take_reverse, reverse_append, reverse_reverse]
  cases n with
  | zero => simp
  | succ n => simp [take_take]

end SessionDedup

/-! ### What the windows are meant to guarantee -/

/-- The ids that still count as settled: the newest `commandDedupWindow` ones. -/
def lastSettled (st : Remote) (s : Uuid) : List Uuid := (st.settled s).rtake commandDedupWindow

/-- At most one request of a session and command id is running its handler. -/
def AtMostOneRunning (st : Remote) : Prop :=
  ∀ r r' s c, st.request r = some ⟨s, c, .running⟩ → st.request r' = some ⟨s, c, .running⟩ →
    r = r'

/-- The step does not start the handler of an id that is still settled in a session that was not
revoked. -/
def NotReexecuted (st : Remote) (e : Event) (st' : Remote) : Prop :=
  ∀ r s c, e = .claim r → st'.request r = some ⟨s, c, .running⟩ → st.revoked s = false →
    c ∉ st.lastSettled s

/-- When the step settles, releases or removes a pending slot, no request that was parked on the
id of the slot stays parked. -/
def WaitersNotified (st st' : Remote) : Prop :=
  ∀ s c n, st.slot s c = some (.pending n) → st'.slot s c ≠ some (.pending n) →
    ∀ r m m', st.request r = some ⟨s, c, .parked m⟩ → st'.request r ≠ some ⟨s, c, .parked m'⟩

/-- The three guarantees in a state, for the steps from it that meet `G`. -/
def CommandDedup (G : Remote → Event → Prop) (st : Remote) : Prop :=
  st.AtMostOneRunning ∧
    ∀ e st', G st e → st.step e = some st' → st.NotReexecuted e st' ∧ st.WaitersNotified st'

/-! ### When a window may be dropped -/

/-- The session is past its expiry. -/
def expired (st : Remote) (s : Uuid) : Prop :=
  ∃ row, st.session s = some row ∧ row.expiresAt ≤ st.now

/-- The event drops the window of session `s`: the second half of a revocation, or a request that
has read a revoked or expired row. -/
def Drops (st : Remote) (s : Uuid) : Event → Prop
  | .authenticate r _ => ∃ c row, st.request r = some ⟨s, c, .fetched row⟩ ∧ row.dead st.now
  | .forget s' => s' = s
  | _ => False

/-- No handler of the session is running.  Unless the session is revoked, its stored row is
expired and no request of it but the one of the event is on its way to the claim. -/
def Quiet (st : Remote) (s : Uuid) (e : Event) : Prop :=
  (∀ c n, st.slot s c ≠ some (.pending n)) ∧
    (st.revoked s = false → st.expired s ∧ ∀ r c stage, st.request r = some ⟨s, c, stage⟩ →
      stage.beforeClaim → ∃ authorized, e = .authenticate r authorized)

/-- Windows are dropped only while their session is quiet. -/
def DropsQuiet (st : Remote) (e : Event) : Prop := ∀ s, st.Drops s e → st.Quiet s e

/-! ### The invariant -/

/-- The request cannot reach the claim any more: it has ended, or it has read a dead row. -/
def Stage.Refused (now : ℤ) : Stage → Prop
  | .fetched row => row.dead now
  | .authenticated _ _ | .claiming => False
  | _ => True

/-- No request of the session can reach the claim any more. -/
def Refuses (st : Remote) (s : Uuid) : Prop :=
  ∀ r c stage, st.request r = some ⟨s, c, stage⟩ → stage.Refused st.now

/-- What holds in every state of a run that drops windows quietly. -/
structure WindowInv (st : Remote) : Prop where
  running_slot : ∀ {r s c}, st.request r = some ⟨s, c, .running⟩ →
    ∃ n, st.slot s c = some (.pending n)
  running_unique : st.AtMostOneRunning
  parked_slot : ∀ {r s c n}, st.request r = some ⟨s, c, .parked n⟩ →
    st.slot s c = some (.pending n)
  window_wf : ∀ {s w}, st.dedup s = some w → w.Wf
  window_order : ∀ {s w}, st.revoked s = false → st.dedup s = some w →
    w.order = st.lastSettled s
  no_window : ∀ {s}, st.revoked s = false → st.dedup s = none →
    st.settled s = [] ∨ st.expired s ∧ st.Refuses s

theorem windowInv_start (now : ℤ) : (start now).WindowInv where
  running_slot h := by simp [start] at h
  running_unique r r' s c h := by simp [start] at h
  parked_slot h := by simp [start] at h
  window_wf h := by simp [start] at h
  window_order _ h := by simp [start] at h
  no_window _ _ := .inl rfl

variable {st st' : Remote}

@[simp]
theorem setStage_request (r : ℕ) (q : Request) (stage : Stage) (r' : ℕ) :
    (st.setStage r q stage).request r' =
      if r' = r then some { q with stage := stage } else st.request r' := by
  simp [setStage, update_apply]

/-- Steps that leave the windows alone: the active requests, the revocation marks and the
expired sessions without a window stay as they are. -/
theorem WindowInv.frame (h : st.WindowInv) (hd : st'.dedup = st.dedup)
    (hs : st'.settled = st.settled)
    (hactive : ∀ r s c stage, st'.request r = some ⟨s, c, stage⟩ →
      stage = .running ∨ (∃ n, stage = .parked n) → st.request r = some ⟨s, c, stage⟩)
    (hrev : ∀ s, st'.revoked s = false → st.revoked s = false)
    (hidle : ∀ s, st.revoked s = false → st.expired s → st.Refuses s →
      st'.expired s ∧ st'.Refuses s) : st'.WindowInv where
  running_slot hr := by
    simpa only [slot, hd] using h.running_slot (hactive _ _ _ _ hr (.inl rfl))
  running_unique r r' s c hr hr' :=
    h.running_unique r r' s c (hactive _ _ _ _ hr (.inl rfl)) (hactive _ _ _ _ hr' (.inl rfl))
  parked_slot hr := by
    simpa only [slot, hd] using h.parked_slot (hactive _ _ _ _ hr (.inr ⟨_, rfl⟩))
  window_wf hw := h.window_wf (hd ▸ hw)
  window_order hr hw := by
    simpa only [lastSettled, hs] using h.window_order (hrev _ hr) (hd ▸ hw)
  no_window hr hw := by
    rw [hs]
    exact (h.no_window (hrev _ hr) (hd ▸ hw)).imp_right fun hx => hidle _ (hrev _ hr) hx.1 hx.2

variable {r : ℕ} {stage : Stage} {s c : Uuid} {row : PhoneSessionRow} {q : Request}

/-- Moving a request to another stage keeps the invariant when a handler or a place in the queue
belongs to a pending slot, no other handler of the command is running, and the stage cannot reach the
claim of an expired session without a window. -/
theorem WindowInv.setStage (h : st.WindowInv)
    (hrun : stage = .running → (∃ n, st.slot q.session q.command = some (.pending n)) ∧
      ∀ r', st.request r' ≠ some ⟨q.session, q.command, .running⟩)
    (hpark : ∀ n, stage = .parked n → st.slot q.session q.command = some (.pending n))
    (hidle : st.expired q.session → st.Refuses q.session → stage.Refused st.now) :
    (st.setStage r q stage).WindowInv := by
  refine ⟨fun {r' s' c'} hr' => ?_, fun r₁ r₂ s' c' h₁ h₂ => ?_, fun {r' s' c' m} hr' => ?_,
    h.window_wf, h.window_order, fun {s'} hrev hw => ?_⟩
  · rw [setStage_request] at hr'
    split_ifs at hr' with heq
    · cases hr'
      exact (hrun rfl).1
    · exact h.running_slot hr'
  · rw [setStage_request] at h₁ h₂
    split_ifs at h₁ h₂ with heq₁ heq₂ heq₂
    · rw [heq₁, heq₂]
    · cases h₁
      exact ((hrun rfl).2 _ h₂).elim
    · cases h₂
      exact ((hrun rfl).2 _ h₁).elim
    · exact h.running_unique _ _ _ _ h₁ h₂
  · rw [setStage_request] at hr'
    split_ifs at hr' with heq
    · cases hr'
      exact hpark m rfl
    · exact h.parked_slot hr'
  · refine (h.no_window hrev hw).imp_right fun hx => ⟨hx.1, fun r' c' stage hr' => ?_⟩
    rw [setStage_request] at hr'
    split_ifs at hr' with heq
    · cases hr'
      exact hidle hx.1 hx.2
    · exact hx.2 r' c' stage hr'

/-- Updating a session row keeps the invariant when it does not lift a revocation and does not
revive an expired session without a window. -/
theorem WindowInv.updateSession (h : st.WindowInv) {f} (hrev : ∀ row, row.revoked → (f row).revoked)
    (hidle : ∀ row, st.session s = some row → row.expiresAt ≤ st.now → st.Refuses s →
      (f row).expiresAt ≤ st.now) : (st.updateSession s f).WindowInv := by
  refine h.frame rfl rfl (fun _ _ _ _ hr _ => hr) (fun s' hs' => ?_)
    fun s' _ hexp href => ⟨?_, href⟩
  · by_cases heq : s' = s
    · subst heq
      cases hrow : st.session s' with
      | none => simp [revoked, hrow]
      | some row =>
        simp only [revoked, updateSession, hrow, update_self, map_some]
          at hs' ⊢
        exact Bool.eq_false_iff.2 fun hr => by simp [hrev row hr] at hs'
    · simpa [revoked, Remote.updateSession, heq] using hs'
  · obtain ⟨row, hrow, hle⟩ := hexp
    by_cases heq : s' = s
    · subst heq
      exact ⟨f row, by simp [updateSession, hrow], hidle row hrow hle href⟩
    · exact ⟨row, by simp [Remote.updateSession, heq, hrow], hle⟩

variable {n : ℕ}

section

variable {o : Option SessionDedup} {s' : Uuid}

/-- Another window, or none, for session `s` keeps an id in flight that it has. -/
theorem slot_setDedup (h : st.slot s' c = some (.pending n))
    (hpend : s' = s → o.bind (·.slots c) = some (.pending n)) :
    slot { st with dedup := Function.update st.dedup s o } s' c = some (.pending n) := by
  by_cases heq : s' = s
  · simpa [slot, heq] using hpend heq
  · simpa [slot, heq] using h

/-- It keeps the invariant when it keeps the pending slots, stays well formed and lists the newest
settled ids; without a window the session must be idle. -/
theorem WindowInv.setDedup (h : st.WindowInv) (hwf : ∀ w, o = some w → w.Wf)
    (hpend : ∀ c n, st.slot s c = some (.pending n) → o.bind (·.slots c) = some (.pending n))
    (hord : st.revoked s = false → ∀ w, o = some w → w.order = st.lastSettled s)
    (hidle : st.revoked s = false → o = none → st.expired s ∧ st.Refuses s) :
    WindowInv { st with dedup := Function.update st.dedup s o } := by
  have hslot : ∀ {s' c n}, st.slot s' c = some (.pending n) →
      slot { st with dedup := update st.dedup s o } s' c = some (.pending n) :=
    fun hc => slot_setDedup hc fun heq => hpend _ _ (heq ▸ hc)
  refine ⟨fun hr => (h.running_slot hr).imp fun _ => hslot, h.running_unique,
    fun hr => hslot (h.parked_slot hr), fun {s' w} hw => ?_, fun {s' w} hr hw => ?_,
    fun {s'} hr hw => ?_⟩ <;> by_cases heq : s' = s
  · exact hwf w (by simpa [heq] using hw)
  · exact h.window_wf (by simpa [heq] using hw)
  · subst heq
    exact hord hr w (by simpa using hw)
  · exact h.window_order hr (by simpa [heq] using hw)
  · subst heq
    exact .inr (hidle hr (by simpa using hw))
  · exact h.no_window hr (by simpa [heq] using hw)

theorem slot_forgetSession (hpend : ∀ c n, st.slot s c ≠ some (.pending n))
    (h : st.slot s' c = some (.pending n)) :
    (st.forgetSession s).slot s' c = some (.pending n) :=
  slot_setDedup h fun heq => (hpend c n (heq ▸ h)).elim

end

/-- Dropping the window of a quiet session keeps the invariant. -/
theorem WindowInv.forgetSession (h : st.WindowInv) (hpend : ∀ c n, st.slot s c ≠ some (.pending n))
    (hidle : st.revoked s = false → st.expired s ∧ st.Refuses s) :
    (st.forgetSession s).WindowInv :=
  h.setDedup nofun (fun c n hc => (hpend c n hc).elim) (fun _ => nofun) fun hr _ => hidle hr

/-! ### The claim loop -/

theorem slot_eq_window (s c : Uuid) : st.slot s c = (st.window s).slots c := by
  cases h : st.dedup s <;> simp [slot, window, h, empty]

section

variable (h : st.WindowInv)
include h

theorem WindowInv.window_wf' (s : Uuid) : (st.window s).Wf := by
  cases hw : st.dedup s with
  | none => simpa [window, hw] using empty_wf
  | some w => simpa [window, hw] using h.window_wf hw

theorem WindowInv.claiming_order (hr : st.request r = some ⟨s, c, .claiming⟩)
    (hrev : st.revoked s = false) : (st.window s).order = st.lastSettled s := by
  cases hw : st.dedup s with
  | some w => simpa [window, hw] using h.window_order hrev hw
  | none =>
    obtain hnil | ⟨-, href⟩ := h.no_window hrev hw
    · simp [window, hw, empty, lastSettled, hnil]
    · exact (href r c _ hr).elim

theorem WindowInv.setWindow {w} (hwf : w.Wf)
    (hpend : ∀ c n, st.slot s c = some (.pending n) → w.slots c = some (.pending n))
    (hord : st.revoked s = false → w.order = st.lastSettled s) : (st.setWindow s w).WindowInv := by
  refine h.setDedup ?_ hpend (fun hr => ?_) nofun
  · rintro _ ⟨⟩
    exact hwf
  · rintro _ ⟨⟩
    exact hord hr

/-- A request that finds its id free starts its handler. -/
theorem WindowInv.begin (hr : st.request r = some ⟨s, c, .claiming⟩)
    (hc : (st.window s).slots c = none) (n : ℕ) :
    ((st.setWindow s ((st.window s).begin c n)).setStage r ⟨s, c, .claiming⟩ .running).WindowInv := by
  have hwin := h.setWindow (s := s) ((h.window_wf' s).begin hc n)
    (fun d m hd => by
      rw [slot_eq_window] at hd
      have hne : d ≠ c := by
        rintro rfl
        rw [hc] at hd
        cases hd
      simpa [SessionDedup.begin, hne] using hd)
    (h.claiming_order hr)
  refine hwin.setStage (fun _ => ⟨⟨n, ?_⟩, fun r' hr' => ?_⟩) (by simp) fun _ _ => trivial
  · simp [slot, Remote.setWindow, SessionDedup.begin]
  · -- a second request running `c` would have a pending slot already
    obtain ⟨m, hm⟩ := h.running_slot hr'
    rw [slot_eq_window, hc] at hm
    cases hm

theorem WindowInv.claim (hr : st.request r = some ⟨s, c, .claiming⟩) :
    (st.claim r ⟨s, c, .claiming⟩).WindowInv := by
  -- the window itself is stored back when the id is taken
  have hwin := h.setWindow (h.window_wf' s) (fun d m hd => by rwa [slot_eq_window] at hd)
    (h.claiming_order hr)
  cases hc : (st.window s).slots c with
  | none =>
    have hb := h.begin hr hc st.freshNotify
    simp only [Remote.claim, hc]
    exact { hb with }
  | some slot =>
    cases slot with
    | pending n =>
      simp only [Remote.claim, hc]
      refine hwin.setStage (by simp) (fun _ heq => ?_) fun _ _ => trivial
      cases heq
      simpa [Remote.slot, Remote.setWindow] using hc
    | done cached =>
      simp only [Remote.claim, hc]
      exact hwin.setStage (by simp) (by simp) fun _ _ => trivial

end

/-! ### Completion -/

theorem notifyWaiters_request (h : (st.notifyWaiters n).request r = some q) :
    st.request r = some q ∧ q.stage ≠ .parked n ∨
      q.stage = .claiming ∧ st.request r = some { q with stage := .parked n } := by
  obtain ⟨q', hq', hq⟩ := map_eq_some_iff.1 h
  split_ifs at hq with hn
  · subst hq
    refine .inr ⟨rfl, ?_⟩
    rw [hq', ← hn]
  · subst hq
    exact .inl ⟨hq', hn⟩

/-- Completing a claimed id stores a window without the claim and wakes every request parked
on it. -/
theorem finishCommand_eq (h : st.WindowInv) (hc : st.slot s c = some (.pending n)) (cached) :
    ∃ w ids, st.finishCommand s c cached = notifyWaiters { st with
        dedup := Function.update st.dedup s (some w)
        settled := Function.update st.settled s ids } n ∧
      w.Wf ∧ (∀ m, w.slots c ≠ some (.pending m)) ∧
      (∀ d m, d ≠ c → st.slot s d = some (.pending m) → w.slots d = some (.pending m)) ∧
      (st.revoked s = false → w.order = ids.rtake commandDedupWindow) := by
  obtain ⟨w, hw, hwc⟩ := bind_eq_some_iff.1 hc
  have hslot : ∀ d, st.slot s d = w.slots d := fun d => by simp [slot, hw]
  have hwf := h.window_wf hw
  cases cached with
  | none =>
    refine ⟨(w.release c).1, st.settled s, ?_, hwf.release hwc, ?_, fun d m hd hm => ?_, fun hr => ?_⟩
    · simp [finishCommand, hw, release, hwc, setWindow]
    · simp [release, hwc]
    · simp [release, hwc, hd, ← hslot, hm]
    · simpa [release, hwc, lastSettled] using h.window_order hr hw
  | some response =>
    refine ⟨(w.settle c response).1, st.settled s ++ [c], ?_, hwf.settle hwc response, fun m hm => ?_,
      fun d m hd hm => ?_, fun hr => ?_⟩
    · simp [finishCommand, hw, settle_pending hwc, setWindow]
    · rw [settle_pending hwc, evict_slots] at hm
      split_ifs at hm
      simp at hm
    · exact hwf.settle_pending_slots hwc response hd (by rw [← hslot, hm])
    · rw [settle_pending hwc, evict_order, h.window_order hr hw, lastSettled,
        rtake_append_singleton]

/-- A request still active after a completion was active before it, with another id. -/
theorem WindowInv.finish_active (h : st.WindowInv) (hr : st.request r = some ⟨s, c, .running⟩)
    (cached) (hend : stage.ended) {r' : ℕ} {s' c' : Uuid} {stage' : Stage}
    (hr' : ((st.finishCommand s c cached).setStage r ⟨s, c, .running⟩ stage).request r' =
      some ⟨s', c', stage'⟩) (hact : stage' = .running ∨ ∃ m, stage' = .parked m) :
    st.request r' = some ⟨s', c', stage'⟩ ∧ ¬(s' = s ∧ c' = c) := by
  obtain ⟨n, hc⟩ := h.running_slot hr
  obtain ⟨w, ids, hfin, -⟩ := finishCommand_eq h hc cached
  rw [setStage_request] at hr'
  split_ifs at hr' with heq
  · cases hr'
    rcases hact with rfl | ⟨m, rfl⟩ <;> simp [Stage.ended] at hend
  rw [hfin] at hr'
  obtain ⟨hq, hne⟩ | ⟨hcl, -⟩ := notifyWaiters_request hr'
  · refine ⟨hq, ?_⟩
    rintro ⟨rfl, rfl⟩
    rcases hact with rfl | ⟨m, rfl⟩
    · exact heq (h.running_unique _ _ _ _ hq hr)
    · have := h.parked_slot hq
      rw [hc] at this
      cases this
      exact hne rfl
  · rcases hact with rfl | ⟨m, rfl⟩ <;> cases hcl

/-- Completing an id leaves every other id in flight alone. -/
theorem WindowInv.finish_slot (h : st.WindowInv) (hr : st.request r = some ⟨s, c, .running⟩)
    (cached) (stage : Stage) {s' c' : Uuid} {m : ℕ}
    (hne : ¬(s' = s ∧ c' = c)) (hm : st.slot s' c' = some (.pending m)) :
    ((st.finishCommand s c cached).setStage r ⟨s, c, .running⟩ stage).slot s' c' =
      some (.pending m) := by
  obtain ⟨n, hc⟩ := h.running_slot hr
  obtain ⟨w, ids, hfin, -, -, hkeep, -⟩ := finishCommand_eq h hc cached
  rw [hfin]
  by_cases heq : s' = s
  · subst heq
    simpa [slot, Remote.setStage, notifyWaiters] using hkeep c' m (fun h => hne ⟨rfl, h⟩) hm
  · simpa [slot, Remote.setStage, notifyWaiters, heq] using hm

/-- A request that ends its handler gives its claim up. -/
theorem WindowInv.finish (h : st.WindowInv) (hr : st.request r = some ⟨s, c, .running⟩)
    (cached) (hend : stage.ended) :
    ((st.finishCommand s c cached).setStage r ⟨s, c, .running⟩ stage).WindowInv := by
  obtain ⟨n, hc⟩ := h.running_slot hr
  obtain ⟨w, ids, hfin, hwf, -, -, hord⟩ := finishCommand_eq h hc cached
  have hactive {r' s' c' stage'} := @h.finish_active _ r stage s c hr cached hend r' s' c' stage'
  refine ⟨fun {r' s' c'} hr' => ?_, fun r₁ r₂ s' c' h₁ h₂ => ?_, fun {r' s' c' m} hr' => ?_,
    fun {s' w'} hw => ?_, fun {s' w'} hrev hw => ?_, fun {s'} hrev hw => ?_⟩
  · obtain ⟨hq, hne⟩ := hactive hr' (.inl rfl)
    obtain ⟨m, hm⟩ := h.running_slot hq
    exact ⟨m, h.finish_slot hr cached stage hne hm⟩
  · exact h.running_unique _ _ _ _ (hactive h₁ (.inl rfl)).1 (hactive h₂ (.inl rfl)).1
  · obtain ⟨hq, hne⟩ := hactive hr' (.inr ⟨m, rfl⟩)
    exact h.finish_slot hr cached stage hne (h.parked_slot hq)
  · rw [hfin] at hw
    by_cases heq : s' = s
    · subst heq
      simp only [Remote.setStage, notifyWaiters, update_self, some.injEq] at hw
      exact hw ▸ hwf
    · exact h.window_wf (by simpa [Remote.setStage, notifyWaiters, heq] using hw)
  · rw [hfin] at hw hrev ⊢
    by_cases heq : s' = s
    · subst heq
      simp only [Remote.setStage, notifyWaiters, update_self, some.injEq] at hw
      simpa [lastSettled, Remote.setStage, notifyWaiters, hw] using hord hrev
    · simpa [lastSettled, Remote.setStage, notifyWaiters, heq] using h.window_order hrev
        (by simpa [Remote.setStage, notifyWaiters, heq] using hw)
  · rw [hfin] at hw hrev
    have heq : s' ≠ s := by
      rintro rfl
      simp [Remote.setStage, notifyWaiters] at hw
    have hnone : st.dedup s' = none := by simpa [Remote.setStage, notifyWaiters, heq] using hw
    rw [hfin]
    refine (h.no_window hrev hnone).imp (fun hx => ?_) fun hx => ⟨hx.1, fun r' c' stage' hr' => ?_⟩
    · simpa [Remote.setStage, notifyWaiters, heq] using hx
    rw [setStage_request] at hr'
    split_ifs at hr' with heq'
    · cases hr'
      exact (heq rfl).elim
    · obtain ⟨hq, -⟩ | ⟨-, hq⟩ := notifyWaiters_request hr'
      · exact hx.2 r' c' stage' hq
      · -- a parked request has a window
        have := h.parked_slot hq
        simp [slot, hnone] at this

/-! ### Steps -/

/-- What a step can be. -/
inductive Transition (st : Remote) : Event → Remote → Prop
  | tick (elapsed : ℕ) : Transition st (.tick elapsed) { st with now := st.now + elapsed }
  | pair {s : Uuid} (h : st.session s = none) : Transition st (.pair s)
      { st with session := Function.update st.session s (some (.paired st.now)) }
  | unknown {r : ℕ} {s : Uuid} (c : Uuid) (h : st.request r = none) : Transition st (.arrive r s c)
      (st.setStage r ⟨s, c, .dropped⟩ (.answered .unauthorized))
  | fetch {r : ℕ} {s : Uuid} (c : Uuid) {row} (h : st.request r = none)
      (hrow : st.session s = some row) : Transition st (.arrive r s c)
      (st.setStage r ⟨s, c, .dropped⟩ (.fetched row))
  | authenticate {r : ℕ} {s c : Uuid} {row} (authorized : Bool)
      (h : st.request r = some ⟨s, c, .fetched row⟩) : Transition st (.authenticate r authorized)
      (st.authenticate r ⟨s, c, .fetched row⟩ row authorized)
  | letThrough {r : ℕ} {s c : Uuid} {now : ℤ} {row} (admitted : Bool)
      (h : st.request r = some ⟨s, c, .authenticated now row⟩) : Transition st (.letThrough r admitted)
      (st.letThrough r ⟨s, c, .authenticated now row⟩ now row admitted)
  | claim {r : ℕ} {s c : Uuid} (h : st.request r = some ⟨s, c, .claiming⟩) :
      Transition st (.claim r) (st.claim r ⟨s, c, .claiming⟩)
  | complete {r : ℕ} {s c : Uuid} (response : Response)
      (h : st.request r = some ⟨s, c, .running⟩) : Transition st (.complete r response)
      ((st.finishCommand s c (cachedCommand response)).setStage r ⟨s, c, .running⟩
        (.answered (.executed (cachedCommand response))))
  | disconnect {r : ℕ} {s c : Uuid} (h : st.request r = some ⟨s, c, .running⟩) :
      Transition st (.cancel r) ((st.finishCommand s c none).setStage r ⟨s, c, .running⟩ .dropped)
  | cancel {r : ℕ} {q} (h : st.request r = some q) (hrun : q.stage ≠ .running) :
      Transition st (.cancel r) (st.setStage r q .dropped)
  | revoke (s : Uuid) : Transition st (.revoke s) (st.updateSession s revoke)
  | forget {s : Uuid} (h : st.revoked s = true) : Transition st (.forget s) (st.forgetSession s)

variable {e : Event}

theorem transition_of_step (hs : st.step e = some st') : Transition st e st' := by
  cases e with
  | tick elapsed => cases hs; exact .tick elapsed
  | arrive r s c =>
    simp only [step] at hs
    split at hs <;> cases hs
    · exact .unknown c ‹_›
    · exact .fetch c ‹_› ‹_›
  | cancel r =>
    simp only [step] at hs
    split at hs
    · cases hs
    · cases hs
      exact .disconnect ‹_›
    · next q hrun hq =>
      split_ifs at hs
      cases hs
      exact .cancel hq fun h => hrun _ _ (by rw [← h])
  | forget s =>
    simp only [step] at hs
    split_ifs at hs with h
    cases hs
    exact .forget h
  | _ =>
    simp only [step] at hs
    split at hs <;> cases hs
    constructor <;> assumption

theorem Stage.refused_of_not_beforeClaim (h : ¬stage.beforeClaim) (now : ℤ) :
    stage.Refused now := by
  cases stage <;> simp_all [Stage.beforeClaim, Stage.Refused]

theorem PhoneSessionRow.dead_mono {now now' : ℤ} (h : row.dead now) (hle : now ≤ now') :
    row.dead now' := by
  simp only [dead, Bool.or_eq_true, decide_eq_true_eq] at h ⊢
  exact h.imp_right fun hx => hx.trans hle

theorem Stage.Refused.mono {now now' : ℤ} (h : stage.Refused now) (hle : now ≤ now') :
    stage.Refused now' := by
  cases stage with
  | fetched row => exact dead_mono h hle
  | authenticated _ _ | claiming => exact h
  | parked _ | running | answered _ | dropped => trivial

section

variable (h : st.WindowInv)
include h

theorem WindowInv.tick (elapsed : ℕ) : WindowInv { st with now := st.now + elapsed } :=
  h.frame rfl rfl (fun _ _ _ _ hr _ => hr) (fun _ => id) fun s _ hexp href => by
    obtain ⟨row, hrow, hle⟩ := hexp
    exact ⟨⟨row, hrow, hle.trans (Int.le_add_of_nonneg_right (Int.natCast_nonneg _))⟩,
      fun r c stage hr => (href r c stage hr).mono
        (Int.le_add_of_nonneg_right (Int.natCast_nonneg _))⟩

theorem WindowInv.pair (hs : st.session s = none) :
    WindowInv { st with session := Function.update st.session s (some (.paired st.now)) } := by
  refine h.frame rfl rfl (fun _ _ _ _ hr _ => hr) (fun s' hs' => ?_)
    fun s' _ hexp href => ⟨?_, href⟩
  · by_cases heq : s' = s
    · simp [revoked, heq, hs]
    · simpa [revoked, heq] using hs'
  obtain ⟨row, hrow, hle⟩ := hexp
  have heq : s' ≠ s := by
    rintro rfl
    rw [hs] at hrow
    cases hrow
  exact ⟨row, by simp [heq, hrow], hle⟩

theorem WindowInv.authenticate (hr : st.request r = some ⟨s, c, .fetched row⟩)
    {authorized : Bool} (hq : DropsQuiet st (.authenticate r authorized)) :
    (st.authenticate r ⟨s, c, .fetched row⟩ row authorized).WindowInv := by
  rw [Remote.authenticate]
  split_ifs with hdead hauth
  · obtain ⟨hpend, hidle⟩ := hq s ⟨c, row, hr, hdead⟩
    refine (h.forgetSession hpend fun hrev => ⟨(hidle hrev).1, fun r' c' stage hr' => ?_⟩).setStage
      (by simp) (by simp) fun _ _ => trivial
    by_cases hb : stage.beforeClaim
    · obtain ⟨authorized', he⟩ := (hidle hrev).2 r' c' stage hr' hb
      cases he
      rw [hr] at hr'
      cases hr'
      exact hdead
    · exact Stage.refused_of_not_beforeClaim hb _
  · exact h.setStage (by simp) (by simp) fun _ href => (hdead (href r c _ hr)).elim
  · exact h.setStage (by simp) (by simp) fun _ _ => trivial

theorem WindowInv.letThrough {now : ℤ}
    (hr : st.request r = some ⟨s, c, .authenticated now row⟩) (admitted : Bool) :
    (st.letThrough r ⟨s, c, .authenticated now row⟩ now row admitted).WindowInv := by
  have hset : ∀ st' : Remote, st'.WindowInv → st'.request = st.request →
      (st'.setStage r ⟨s, c, .authenticated now row⟩
        (if admitted then .claiming else .answered .refused)).WindowInv := by
    intro st' h' hreq
    refine h'.setStage (by split <;> simp) (by split <;> simp) fun _ href => ?_
    exact (href r c (.authenticated now row) (by rw [hreq, hr])).elim
  cases hdue : row.touchDue now with
  | false => simpa only [Remote.letThrough, hdue, Bool.false_eq_true, if_false] using hset _ h rfl
  | true =>
    simp only [Remote.letThrough, hdue, if_true]
    refine hset _ (h.updateSession (fun _ hrow => hrow) fun _ _ _ href => ?_) rfl
    exact (href r c _ hr).elim

/-- Every step that drops windows quietly keeps the invariant. -/
theorem WindowInv.step (hq : st.DropsQuiet e) (hs : st.step e = some st') : st'.WindowInv := by
  cases transition_of_step hs with
  | tick elapsed => exact h.tick elapsed
  | pair hnone => exact h.pair hnone
  | unknown | cancel => exact h.setStage (by simp) (by simp) fun _ _ => trivial
  | fetch c _ hrow =>
    refine h.setStage (by simp) (by simp) fun ⟨row, hrow', hle⟩ _ => ?_
    rw [hrow] at hrow'
    cases hrow'
    simpa [Stage.Refused, dead] using .inr hle
  | authenticate authorized hr => exact h.authenticate hr hq
  | letThrough admitted hr => exact h.letThrough hr admitted
  | claim hr => exact h.claim hr
  | complete response hr | disconnect hr => exact h.finish hr _ rfl
  | revoke s => exact h.updateSession (fun _ _ => rfl) fun _ _ hle _ => hle
  | forget hrev =>
    exact h.forgetSession (hq _ rfl).1 fun hfalse => by simp [hrev] at hfalse

/-! ### The guarantees -/

/-- Only a claim in the window of an unrevoked session starts a handler, and the window lists the
newest settled ids. -/
theorem WindowInv.notReexecuted (hs : st.step e = some st') : st.NotReexecuted e st' := by
  rintro r s c rfl hrun hrev
  cases transition_of_step hs with
  | @claim _ s' c' hr =>
    have hwf := h.window_wf' s'
    cases hc : (st.window s').slots c' with
    | some slot =>
      cases slot <;> simp [Remote.claim, hc, Remote.setWindow] at hrun
    | none =>
      simp only [Remote.claim, hc, setStage_request, if_true, some.injEq,
        Request.mk.injEq, and_true] at hrun
      obtain ⟨rfl, rfl⟩ := hrun
      rw [← h.claiming_order hr hrev, hwf.mem_order]
      simp [hc]

theorem WindowInv.waitersNotified_finish (hr : st.request r = some ⟨s, c, .running⟩) (cached)
    (hend : stage.ended) :
    st.WaitersNotified ((st.finishCommand s c cached).setStage r ⟨s, c, .running⟩ stage) := by
  intro s' c' n hn hgone r' m m' _ hr'
  obtain ⟨-, hne⟩ := h.finish_active hr cached hend hr' (.inr ⟨m', rfl⟩)
  exact hgone (h.finish_slot hr cached stage hne hn)

end

theorem waitersNotified_of_slot (h : ∀ s c n, st.slot s c = some (.pending n) →
    st'.slot s c = some (.pending n)) : st.WaitersNotified st' :=
  fun s c n hn hgone => (hgone (h s c n hn)).elim

theorem slot_claim {s' c' : Uuid} (h : st.slot s' c' = some (.pending n)) :
    (st.claim r ⟨s, c, stage⟩).slot s' c' = some (.pending n) := by
  have hwin : s' = s → (st.window s).slots c' = some (.pending n) := by
    rintro rfl
    rw [← slot_eq_window, h]
  cases hc : (st.window s).slots c with
  | none =>
    simp only [claim, hc]
    refine slot_setDedup h fun heq => ?_
    have hne : c' ≠ c := by
      rintro rfl
      rw [hwin heq] at hc
      cases hc
    simpa [begin, hne] using hwin heq
  | some slot =>
    cases slot <;>
    · simp only [claim, hc]
      exact slot_setDedup h hwin

/-- A pending slot only goes away by a completion, which wakes the requests parked on it. -/
theorem WindowInv.waitersNotified (h : st.WindowInv) (hq : st.DropsQuiet e)
    (hs : st.step e = some st') : st.WaitersNotified st' := by
  cases transition_of_step hs with
  | tick _ | pair _ | unknown _ _ | fetch _ _ _ | cancel _ _ | revoke _ =>
    exact waitersNotified_of_slot fun _ _ _ hn => hn
  | @authenticate r s c row authorized hr =>
    refine waitersNotified_of_slot fun s' c' n hn => ?_
    rw [Remote.authenticate]
    split_ifs with hdead hauth
    · exact slot_forgetSession (hq s ⟨c, row, hr, hdead⟩).1 hn
    all_goals exact hn
  | @letThrough r s c now row admitted hr =>
    refine waitersNotified_of_slot fun s' c' n hn => ?_
    rw [Remote.letThrough]
    split_ifs <;> exact hn
  | claim hr => exact waitersNotified_of_slot fun _ _ _ hn => slot_claim hn
  | complete response hr | disconnect hr => exact h.waitersNotified_finish hr _ rfl
  | forget hrev =>
    exact waitersNotified_of_slot fun _ _ _ hn => slot_forgetSession (hq _ rfl).1 hn

theorem windowInv_of_via (h : remoteMachine.Via DropsQuiet st) : st.WindowInv :=
  h.invariant (fun _ ⟨now, hst⟩ => hst ▸ windowInv_start now) fun _ _ _ hi hq hs => hi.step hq hs

/-- **Phone commands run once** in every run that drops windows only while their session is
quiet. -/
theorem commandDedup_of_dropsQuiet (h : remoteMachine.Via DropsQuiet st) :
    st.CommandDedup DropsQuiet :=
  have hinv := windowInv_of_via h
  ⟨hinv.running_unique, fun _ _ hq hs => ⟨hinv.notReexecuted hs, hinv.waitersNotified hq hs⟩⟩

/-- A phone sends a command, a retry and a second retry; the handler is still running, the first
retry is parked and the second one is about to claim when the owner revokes the session. -/
def revocationRace : List Event :=
  [.pair 1, .arrive 1 1 7, .authenticate 1 true, .letThrough 1 true, .claim 1,
    .arrive 2 1 7, .authenticate 2 true, .letThrough 2 true, .claim 2,
    .arrive 3 1 7, .authenticate 3 true, .letThrough 3 true, .revoke 1]

/-- The revocation removes the pending slot without waking the parked retry, and the other retry
then starts the handler of the same id a second time. -/
theorem revocationRace_not_commandDedup :
    ∃ st st' st'', remoteMachine.exec (start 0) revocationRace = some st ∧
      st.step (.forget 1) = some st' ∧ ¬st.WaitersNotified st' ∧
      st'.step (.claim 3) = some st'' ∧ ¬st''.AtMostOneRunning := by
  refine ⟨_, _, _, rfl, rfl, fun h => ?_, rfl, fun h => ?_⟩
  · exact h 1 7 0 (by decide) (by decide) 2 0 0 (by decide) (by decide)
  · exact absurd (h 1 3 1 7 (by decide) (by decide)) (by decide)

/-- A phone's command settles, its session is revoked and the window is dropped. -/
def quietRevocation : List Event :=
  [.pair 1, .arrive 1 1 7, .authenticate 1 true, .letThrough 1 true, .claim 1,
    .complete 1 ⟨200, none, some []⟩, .arrive 2 1 7, .authenticate 2 true, .letThrough 2 true, .claim 2,
    .revoke 1, .forget 1]

theorem dropsQuiet_authenticate (h : st.request r = some ⟨s, c, .fetched row⟩)
    (hlive : row.dead st.now = false) (authorized : Bool) :
    st.DropsQuiet (.authenticate r authorized) := by
  rintro s' ⟨c', row', h', hdead⟩
  rw [h] at h'
  cases h'
  simp [hlive] at hdead

theorem quietRevocation_commandDedup :
    ∃ st, remoteMachine.exec (start 0) quietRevocation = some st ∧ st.CommandDedup DropsQuiet := by
  have hstart : remoteMachine.Via DropsQuiet (start 0) := .start ⟨0, rfl⟩
  have hpass : ∀ {st e}, (∀ s, ¬Drops st s e) → DropsQuiet st e := fun h s hd => (h s hd).elim
  have hguard : remoteMachine.Guarded DropsQuiet (start 0) quietRevocation := by
    refine ⟨hpass fun _ => id, hpass fun _ => id, dropsQuiet_authenticate rfl (by decide) _,
      hpass fun _ => id, hpass fun _ => id, hpass fun _ => id, hpass fun _ => id,
      dropsQuiet_authenticate rfl (by decide) _, hpass fun _ => id, hpass fun _ => id,
      hpass fun _ => id, ?_, trivial⟩
    rintro s rfl
    refine ⟨fun c n hc => ?_, fun hrev => ?_⟩
    · by_cases h7 : c = 7
      · subst h7
        cases hc
      · have hslots : update (update empty.slots 7
            (some (.pending 0))) 7 (some (.done ⟨200, none, []⟩)) c = some (.pending n) := hc
        simp [h7, empty] at hslots
    · cases hrev
  exact ⟨_, rfl, commandDedup_of_dropsQuiet (hstart.exec hguard rfl)⟩

end NeonHearth.Remote
