import Mathlib.Data.Finset.Card

/-!
# Breadth-first search

A search keeps a queue of nodes that it has seen and not looked at, and the nodes that it has looked
at.  It takes the first node of the queue and puts the neighbours it has not seen yet at the end.

* `mem_search` : with a round for every node of a finite set that the neighbours do not leave, these
  are the nodes that can be reached.
-/

namespace NeonHearth

open List

variable {α : Type*} {neighbours : α → List α}

/-- One can go from a node to another. -/
def Leads (neighbours : α → List α) : α → α → Prop :=
  Relation.ReflTransGen fun x y => y ∈ neighbours x

theorem Leads.step {x y z : α} (h : Leads neighbours x y) (hz : z ∈ neighbours y) :
    Leads neighbours x z := Relation.ReflTransGen.tail h hz

/-- What is kept from node to neighbour is kept along the way. -/
theorem Leads.invariant {P : α → Prop} (hstep : ∀ x, P x → ∀ y ∈ neighbours x, P y) {x y : α}
    (h : Leads neighbours x y) (hx : P x) : P y := by
  induction h with
  | refl => exact hx
  | tail _ hmem ih => exact hstep _ ih _ hmem

variable [DecidableEq α]

/-- The nodes seen after at most `fuel` rounds, from the nodes of a queue. -/
def search (neighbours : α → List α) : ℕ → List α → List α → List α
  | 0, done, queue => done ++ queue
  | _ + 1, done, [] => done
  | fuel + 1, done, x :: queue =>
    let unseen := (neighbours x).filter (· ∉ done ++ x :: queue)
    search neighbours fuel (done ++ [x]) (queue ++ unseen.dedup)

variable {fuel : ℕ} {done queue : List α}

/-- **The invariant rule**: what holds of the nodes seen holds at the end, if it stays when the
neighbours of one of them are added. -/
theorem search_invariant {I : List α → Prop}
    (hstep : ∀ l, ∀ x ∈ l, I l → I (l ++ ((neighbours x).filter (· ∉ l)).dedup))
    (h : I (done ++ queue)) : I (search neighbours fuel done queue) := by
  induction fuel generalizing done queue with
  | zero => exact h
  | succ fuel ih =>
    cases queue with
    | nil => simpa [search] using h
    | cons x queue =>
      refine ih ?_
      simpa only [append_assoc, cons_append, nil_append] using hstep _ x (by simp) h

/-- Every node seen can be reached from the start. -/
theorem leads_of_mem_search {start y : α} (hseen : ∀ x ∈ done ++ queue, Leads neighbours start x)
    (h : y ∈ search neighbours fuel done queue) : Leads neighbours start y := by
  refine search_invariant (I := fun l => ∀ x ∈ l, Leads neighbours start x) ?_ hseen y h
  intro l x hx hl z hz
  obtain hz | hz := mem_append.1 hz
  · exact hl z hz
  · exact (hl x hx).step (mem_filter.1 (mem_dedup.1 hz)).1

theorem mem_search_of_mem {y : α} (h : y ∈ done ++ queue) :
    y ∈ search neighbours fuel done queue :=
  search_invariant (I := fun l => y ∈ l) (fun _ _ _ => mem_append_left _) h

theorem nodup_search (h : (done ++ queue).Nodup) : (search neighbours fuel done queue).Nodup := by
  refine search_invariant (fun l x _ hl => hl.append (nodup_dedup _) fun z hz hnew => ?_) h
  rw [mem_dedup, mem_filter, decide_eq_true_eq] at hnew
  exact hnew.2 hz

/-- With a round for every node, the search ends because the queue is empty: it has seen the
neighbours of all nodes that it has seen. -/
theorem search_closed {nodes : Finset α} (hnodes : ∀ x ∈ nodes, ∀ y ∈ neighbours x, y ∈ nodes)
    (hseen : ∀ x ∈ done ++ queue, x ∈ nodes) (hnodup : (done ++ queue).Nodup)
    (hdone : ∀ x ∈ done, ∀ y ∈ neighbours x, y ∈ done ++ queue)
    (hfuel : nodes.card ≤ fuel + done.length) :
    ∀ x ∈ search neighbours fuel done queue, ∀ y ∈ neighbours x,
      y ∈ search neighbours fuel done queue := by
  induction fuel generalizing done queue with
  | zero =>
    -- All nodes are done, so nothing is left in the queue.
    have hcard : (done ++ queue).length ≤ nodes.card := by
      rw [← toFinset_card_of_nodup hnodup]
      exact Finset.card_le_card fun x hx => hseen x (mem_toFinset.1 hx)
    have hqueue : queue = [] := by
      rw [length_append] at hcard
      exact eq_nil_of_length_eq_zero (by omega)
    intro x hx y hy
    rw [hqueue] at hx
    exact hdone x (by simpa [search] using hx) y hy
  | succ fuel ih =>
    cases queue with
    | nil => simpa [search] using hdone
    | cons x queue =>
      have hnew : ∀ y, y ∈ done ++ [x] ++ (queue ++
          ((neighbours x).filter (· ∉ done ++ x :: queue)).dedup) ↔
            y ∈ done ++ x :: queue ∨ y ∈ neighbours x := by
        intro y
        simp only [mem_append, mem_cons, mem_dedup, mem_filter, decide_eq_true_eq]
        tauto
      refine ih (fun y hy => ?_) ?_ (fun z hz y hy => ?_) ?_
      · obtain hy | hy := (hnew y).1 hy
        · exact hseen y hy
        · exact hnodes x (hseen x (by simp)) y hy
      · exact show (search neighbours 1 done (x :: queue)).Nodup from nodup_search hnodup
      · obtain hz | hz := mem_append.1 hz
        · exact (hnew y).2 (.inl (hdone z hz y hy))
        · rw [mem_singleton.1 hz] at hy
          exact (hnew y).2 (.inr hy)
      · simp only [length_append, length_cons, length_nil]
        omega

/-- **The search** finds the nodes that can be reached. -/
theorem mem_search {start y : α} {nodes : Finset α}
    (hnodes : ∀ x ∈ nodes, ∀ y ∈ neighbours x, y ∈ nodes) (hstart : start ∈ nodes)
    (hfuel : nodes.card ≤ fuel) :
    y ∈ search neighbours fuel [] [start] ↔ Leads neighbours start y := by
  constructor
  · refine leads_of_mem_search fun x hx => ?_
    rw [nil_append, mem_singleton] at hx
    exact hx ▸ Relation.ReflTransGen.refl
  · intro h
    have hclosed : ∀ x ∈ search neighbours fuel [] [start], ∀ y ∈ neighbours x,
        y ∈ search neighbours fuel [] [start] :=
      search_closed hnodes (by simpa using hstart) (by simp) (by simp) (by simpa using hfuel)
    exact h.invariant hclosed (mem_search_of_mem (by simp))

end NeonHearth
