import Mathlib.Data.Multiset.UnionInter

/-!
# Custody

Books about things that are limited and things that have to be given back.  A holder takes one of a fixed
number of slots under a new name; things are made under new numbers, are in somebody's hands, and are
given back in the end.

* `Books.Balanced`, `Balanced.entry` : nothing is lost and nothing is there twice;
* `Books.add`, `Entry.add` : entries about some hands leave the others alone.
-/

namespace NeonHearth

open Multiset

variable {R : Type*} (number : R → ℕ)

/-- Books about slots, which are held under names, and about things. -/
@[ext]
structure Books (R : Type*) where
  available : ℕ
  holders : Multiset ℕ
  held : Multiset R
  made : Multiset R
  returned : Multiset R
  /-- The next name. -/
  nextHolder : ℕ
  /-- The next number of a thing. -/
  nextThing : ℕ

namespace Books

/-- One change of the books. -/
inductive Entry : Books R → Books R → Prop
  | move (b : Books R) : Entry b b
  | acquire (b : Books R) (n : ℕ) :
      Entry { b with available := n + 1 }
        { b with
          available := n, holders := b.nextHolder ::ₘ b.holders, nextHolder := b.nextHolder + 1 }
  | free (b : Books R) (holder : ℕ) :
      Entry { b with holders := holder ::ₘ b.holders } { b with available := b.available + 1 }
  | make (b : Books R) (r : R) (hr : number r = b.nextThing) :
      Entry b { b with held := r ::ₘ b.held, made := r ::ₘ b.made, nextThing := b.nextThing + 1 }
  | giveBack (b : Books R) (r : R) :
      Entry { b with held := r ::ₘ b.held } { b with returned := r ::ₘ b.returned }

/-- Nothing is lost and nothing is there twice. -/
structure Balanced (capacity : ℕ) (b : Books R) : Prop where
  slots : b.available + b.holders.card = capacity
  holders_nodup : b.holders.Nodup
  holders_lt : ∀ holder ∈ b.holders, holder < b.nextHolder
  made_eq : b.made = b.returned + b.held
  made_nodup : b.made.Nodup
  made_lt : ∀ r ∈ b.made, number r < b.nextThing

variable {number} {b b' : Books R}

theorem Entry.of_eq (h : b = b') : Entry number b b' := h ▸ .move b

variable {capacity : ℕ}

section

variable (h : b.Balanced number capacity)
include h

theorem Balanced.entry (he : Entry number b b') : b'.Balanced number capacity := by
  cases he with
  | move => exact h
  | acquire b n =>
    have hslots := h.slots
    have hnew : b.nextHolder ∉ b.holders := fun hmem => Nat.lt_irrefl _ (h.holders_lt _ hmem)
    refine { h with slots := ?_, holders_nodup := ?_, holders_lt := fun holder hmem => ?_ }
    · rw [card_cons]
      dsimp only at hslots ⊢
      omega
    · exact nodup_cons.2 ⟨hnew, h.holders_nodup⟩
    · obtain rfl | hmem := mem_cons.1 hmem
      · exact Nat.lt_succ_self _
      · exact Nat.lt_succ_of_lt (h.holders_lt _ hmem)
  | free b holder =>
    have hslots := h.slots
    refine { h with
      slots := ?_, holders_nodup := (nodup_cons.1 h.holders_nodup).2,
      holders_lt := fun holder hmem => h.holders_lt _ (mem_cons_of_mem hmem) }
    rw [card_cons] at hslots
    dsimp only at hslots ⊢
    omega
  | make _ r hr =>
    have hnew : r ∉ b.made := fun hmem => Nat.lt_irrefl _ (hr ▸ h.made_lt _ hmem)
    refine { h with made_eq := ?_, made_nodup := ?_, made_lt := fun r' hmem => ?_ }
    · rw [h.made_eq, add_cons]
    · exact nodup_cons.2 ⟨hnew, h.made_nodup⟩
    · obtain rfl | hmem := mem_cons.1 hmem
      · exact hr ▸ Nat.lt_succ_self _
      · exact Nat.lt_succ_of_lt (h.made_lt _ hmem)
  | giveBack b r =>
    refine { h with made_eq := ?_ }
    rw [h.made_eq, add_cons, cons_add]

/-- What was made and not given back is in somebody's hands. -/
theorem Balanced.mem_held {r : R} (hr : r ∈ b.made) (hnot : r ∉ b.returned) : r ∈ b.held := by
  rw [h.made_eq, mem_add] at hr
  exact hr.resolve_left hnot

theorem Balanced.not_mem_held {r : R} (hr : r ∈ b.returned) : r ∉ b.held := by
  have hnodup := h.made_nodup
  rw [h.made_eq, nodup_add] at hnodup
  exact disjoint_left.1 hnodup.2.2 hr

theorem Balanced.held_nodup : b.held.Nodup := by
  have hnodup := h.made_nodup
  rw [h.made_eq, nodup_add] at hnodup
  exact hnodup.2.1

end

/-- The books with what is in other hands. -/
def add (b : Books R) (holders : Multiset ℕ) (held : Multiset R) : Books R :=
  { b with holders := b.holders + holders, held := b.held + held }

theorem Entry.add (he : Entry number b b') (holders : Multiset ℕ) (held : Multiset R) :
    Entry number (b.add holders held) (b'.add holders held) := by
  cases he with
  | move => exact .move _
  | acquire b n =>
    have hentry : Entry number _ _ := .acquire (b.add holders held) n
    simpa only [Books.add, cons_add] using hentry
  | free b holder =>
    have hentry : Entry number _ _ := .free (b.add holders held) holder
    simpa only [Books.add, cons_add] using hentry
  | make _ r hr =>
    have hentry := Entry.make (b.add holders held) r hr
    simpa only [Books.add, cons_add] using hentry
  | giveBack b r =>
    have hentry : Entry number _ _ := .giveBack (b.add holders held) r
    simpa only [Books.add, cons_add] using hentry

end Books

end NeonHearth
