import NeonHearth.Identity.Engine

/-!
# Components are connectivity

The component of a device is found by a search over the active edges.  Edges have no direction, so the
search finds the devices that are connected to it, and the id that stands for them is the least of
theirs.

* `mem_component` : the devices of a component are those connected to the given one;
* `isLeast_resolve`, `resolve_eq_iff` : what resolving an id gives, and when two ids resolve to the
  same.
-/

namespace NeonHearth.Identity

open List SortedMap

namespace IdentityEngine

variable {engine : IdentityEngine} {id x y : DeviceId} {c : List DeviceId}

/-- An active edge joins two devices. -/
def Adjacent (engine : IdentityEngine) (x y : DeviceId) : Prop :=
  ∃ i e, engine.edges.get i = some e ∧ e.active = true ∧ (e.a = x ∧ e.b = y ∨ e.b = x ∧ e.a = y)

/-- Active edges lead from one device to the other. -/
def Connected (engine : IdentityEngine) : DeviceId → DeviceId → Prop :=
  Relation.ReflTransGen engine.Adjacent

theorem mem_neighbours : y ∈ engine.neighbours x ↔ engine.Adjacent x y := by
  simp only [neighbours, mem_filterMap, Prod.exists, mem_toList, Adjacent]
  refine exists_congr fun i => exists_congr fun e => and_congr_right fun _ => ?_
  cases e.active <;> grind

theorem leads_iff : Leads engine.neighbours x y ↔ engine.Connected x y := by
  have hstep : (fun x y => y ∈ engine.neighbours x) = engine.Adjacent := by
    funext x y
    exact propext mem_neighbours
  rw [Leads, hstep, Connected]

theorem Adjacent.symm (h : engine.Adjacent x y) : engine.Adjacent y x := by
  obtain ⟨i, e, he, hactive, hends⟩ := h
  exact ⟨i, e, he, hactive, hends.symm.imp And.symm And.symm⟩

theorem Connected.symm (h : engine.Connected x y) : engine.Connected y x := by
  induction h with
  | refl => exact .refl
  | tail _ hadj ih => exact .head hadj.symm ih

/-- The ends of the edges. -/
def ends (engine : IdentityEngine) : List DeviceId :=
  engine.edges.toList.flatMap fun (_, e) => [e.a, e.b]

theorem mem_ends (h : engine.Adjacent x y) : y ∈ engine.ends := by
  obtain ⟨i, e, he, -, hends⟩ := h
  refine mem_flatMap.2 ⟨(i, e), mem_toList.2 he, ?_⟩
  obtain ⟨-, rfl⟩ | ⟨-, rfl⟩ := hends <;> simp

theorem length_ends : engine.ends.length = 2 * engine.edges.size := by
  rw [← length_toList, ends, length_flatMap]
  simp [mul_comm]

theorem component_eq_ok : engine.component id = .ok c ↔ engine.facts.get id ≠ none ∧
    ¬engine.cfg.maxCandidateWork < min (engine.facts.size * max engine.edges.size 1) (2 ^ 64 - 1) ∧
    (search engine.neighbours (2 * engine.edges.size + 1) [] [id]).insertionSort (· ≤ ·) = c := by
  simp only [component, Except.bind_eq_ok, Except.pure_eq_ok, reject_eq_ok, exists_const,
    Option.isNone_iff_eq_none, ne_eq]

/-- **The component** of a device has the devices connected to it: the search has a round for each. -/
theorem mem_component (h : engine.component id = .ok c) : y ∈ c ↔ engine.Connected id y := by
  obtain ⟨-, -, rfl⟩ := component_eq_ok.1 h
  rw [mem_insertionSort, ← leads_iff]
  refine mem_search (fun x (_ : x ∈ insert id engine.ends.toFinset) y hy => ?_)
    (Finset.mem_insert_self _ _) ?_
  · exact Finset.mem_insert_of_mem (mem_toFinset.2 (mem_ends (mem_neighbours.1 hy)))
  · calc (insert id engine.ends.toFinset).card
      _ ≤ engine.ends.toFinset.card + 1 := Finset.card_insert_le _ _
      _ ≤ engine.ends.length + 1 := Nat.add_le_add_right (toFinset_card_le _) 1
      _ = 2 * engine.edges.size + 1 := by rw [length_ends]

theorem nodup_component (h : engine.component id = .ok c) : c.Nodup := by
  obtain ⟨-, -, rfl⟩ := component_eq_ok.1 h
  exact (perm_insertionSort _ _).nodup_iff.2 (nodup_search (by simp))

theorem self_mem_component (h : engine.component id = .ok c) : id ∈ c :=
  (mem_component h).2 .refl

theorem isLeast_canon {c} (h : x ∈ c) : IsLeast {y | y ∈ c} (canon c) := by
  obtain ⟨m, hm⟩ : ∃ m, c.min? = some m :=
    Option.isSome_iff_exists.1 (isSome_min?_of_mem h)
  rw [canon, hm]
  obtain ⟨hmem, hle⟩ := List.min?_eq_some_iff.1 hm
  exact ⟨hmem, fun y hy => hle y hy⟩

theorem resolve_eq_ok {r} :
    engine.resolve id = .ok r ↔ ∃ c, engine.component id = .ok c ∧ canon c = r := by
  simp only [resolve, Except.bind_eq_ok, Except.pure_eq_ok]

/-- Resolving gives the least id of the connected ones. -/
theorem isLeast_resolve {r} (h : engine.resolve id = .ok r) :
    IsLeast {y | engine.Connected id y} r := by
  obtain ⟨c, hc, rfl⟩ := resolve_eq_ok.1 h
  have hset : {y | y ∈ c} = {y | engine.Connected id y} := Set.ext fun y => mem_component hc
  exact hset ▸ isLeast_canon (self_mem_component hc)

/-- Two ids resolve to the same exactly when they are connected. -/
theorem resolve_eq_iff {r s} (hx : engine.resolve x = .ok r)
    (hy : engine.resolve y = .ok s) : r = s ↔ engine.Connected x y := by
  have hr := isLeast_resolve hx
  have hs := isLeast_resolve hy
  constructor
  · rintro rfl
    exact hr.1.trans (Connected.symm hs.1)
  · intro hxy
    have hset : {z | engine.Connected x z} = {z | engine.Connected y z} :=
      Set.ext fun z => ⟨hxy.symm.trans, hxy.trans⟩
    exact (hset ▸ hr).unique hs

end IdentityEngine

end NeonHearth.Identity
