import NeonHearth.Identity.Restore

/-!
# Merges are connectivity

Accepted proposals say which devices are one.  The engine keeps them as edges, and finds the devices
that count as one by a search over the active edges (`component`); here is what that amounts to in terms
of the proposals alone.

* `component_merges` : components are its classes, and so they are the same in any two engines with the
  same accepted pairs, whatever led to them.
-/

namespace NeonHearth.Identity

open IdentityEngine MergeProposal List

/-- Pairs of devices make them one, and so do chains of pairs. -/
def Together (pairs : Set (DeviceId × DeviceId)) : DeviceId → DeviceId → Prop :=
  Relation.EqvGen fun x y => (x, y) ∈ pairs

namespace IdentityEngine

variable {engine engine' : IdentityEngine} {x y : DeviceId} {c : List DeviceId}

/-- The pairs that are merged now. -/
def accepted (engine : IdentityEngine) : Set (DeviceId × DeviceId) :=
  {pair | ∃ p ∈ engine.proposals, p.status = .accepted ∧ (p.left, p.right) = pair}

theorem active_edge_iff {p : MergeProposal} {e : Edge} (h : p.edge = some e) :
    e.active = true ↔ p.status = .accepted := by
  unfold edge at h
  split at h <;> cases h <;> simp [*]

/-- The active edges are those of accepted proposals. -/
theorem StoreOk.mem_accepted (h : engine.StoreOk) : (x, y) ∈ engine.accepted ↔
    ∃ i, engine.edges.get i = some ⟨x, y, true⟩ := by
  constructor
  · rintro ⟨p, hp, hstatus, hpair⟩
    obtain ⟨rfl, rfl⟩ := Prod.mk.inj hpair
    exact ⟨p.id, (h.get_edge hp).trans (edge_of_accepted hstatus)⟩
  · rintro ⟨i, hedge⟩
    rw [h.merges.edges_eq] at hedge
    obtain ⟨p, hp, hedge⟩ := Option.bind_eq_some_iff.1 hedge
    obtain ⟨ha, hb⟩ := edge_ends hedge
    exact ⟨p, (h.merges.proposalWith_eq_some.1 hp).1, (active_edge_iff hedge).1 rfl, by rw [← ha, ← hb]⟩

theorem StoreOk.adjacent_iff (h : engine.StoreOk) :
    engine.Adjacent x y ↔ (x, y) ∈ engine.accepted ∨ (y, x) ∈ engine.accepted := by
  rw [h.mem_accepted, h.mem_accepted]
  constructor
  · rintro ⟨i, ⟨a, b, active⟩, hedge, rfl, ⟨rfl, rfl⟩ | ⟨rfl, rfl⟩⟩
    · exact .inl ⟨i, hedge⟩
    · exact .inr ⟨i, hedge⟩
  · rintro (⟨i, hedge⟩ | ⟨i, hedge⟩)
    · exact ⟨i, _, hedge, rfl, .inl ⟨rfl, rfl⟩⟩
    · exact ⟨i, _, hedge, rfl, .inr ⟨rfl, rfl⟩⟩

theorem StoreOk.connected_iff (h : engine.StoreOk) :
    engine.Connected x y ↔ Together engine.accepted x y := by
  constructor
  · intro hconnected
    induction hconnected with
    | refl => exact .refl _
    | tail _ hadj ih =>
      obtain hpair | hpair := h.adjacent_iff.1 hadj
      · exact .trans _ _ _ ih (.rel _ _ hpair)
      · exact .trans _ _ _ ih (.symm _ _ (.rel _ _ hpair))
  · intro htogether
    induction htogether with
    | rel x y hpair => exact .single (h.adjacent_iff.2 (.inl hpair))
    | refl x => exact .refl
    | symm x y _ ih => exact ih.symm
    | trans x y z _ _ ihxy ihyz => exact ihxy.trans ihyz

/-- The devices of a component in order, so that components with the same devices are the same. -/
theorem component_ext {c'} (hc : engine.component x = .ok c)
    (hc' : engine'.component y = .ok c') (h : ∀ z, z ∈ c ↔ z ∈ c') : c = c' := by
  have hperm : c.Perm c' := (perm_ext_iff_of_nodup (nodup_component hc) (nodup_component hc')).2 h
  obtain ⟨-, -, rfl⟩ := component_eq_ok.1 hc
  obtain ⟨-, -, rfl⟩ := component_eq_ok.1 hc'
  exact hperm.eq_of_pairwise' (pairwise_insertionSort _ _) (pairwise_insertionSort _ _)

theorem StoreOk.component_congr (h : engine.StoreOk) (h' : engine'.StoreOk)
    (haccepted : engine.accepted = engine'.accepted) {c'}
    (hc : engine.component x = .ok c) (hc' : engine'.component x = .ok c') : c = c' := by
  refine component_ext hc hc' fun z => ?_
  rw [mem_component hc, mem_component hc', h.connected_iff, h'.connected_iff, haccepted]

/-- Undoing what was just accepted leaves the pairs as they were. -/
theorem StoreOk.accepted_undo (h : engine.StoreOk) {i : ℕ} {engine₁ engine₂}
    (haccept : engine.decide i .accept = .ok engine₁) (hundo : engine₁.undo i = .ok engine₂) :
    engine₂.StoreOk ∧ engine₂.accepted = engine.accepted := by
  obtain ⟨haudit, p, hp, rfl, hstatus, hdeciding⟩ := decide_deciding haccept
  have h₁ := h.deciding haudit hp hstatus hdeciding
  cases hdeciding with
  | accepted hroom =>
  obtain ⟨haudit', q, hq, hid, hstatus', rfl⟩ := h₁.undo_eq hundo
  have h₂ := h₁.undone haudit' hq hstatus'
  refine ⟨h₂, Set.ext fun ⟨x, y⟩ => ?_⟩
  -- The edge was not there before, and is not active now.
  have hnone : engine.edges.get p.id = none := by
    rw [h.get_edge hp, edge, hstatus]
  rw [h₂.mem_accepted, h.mem_accepted]
  refine exists_congr fun j => ?_
  simp only [IdentityEngine.undone, SortedMap.get_insert, hid]
  by_cases hj : j = p.id
  · simp [hj, hnone]
  · simp [hj]

end IdentityEngine

/-- **Merges are connectivity**: two devices resolve to the same id exactly when accepted proposals
connect them, and that id is the least among the devices that are connected.  Components depend on the
accepted pairs alone, and accepting and undoing a proposal restores them. -/
theorem component_merges {engine : IdentityEngine} (h : identityMachine.Reachable engine) :
    (∀ x y r s, engine.resolve x = .ok r → engine.resolve y = .ok s →
      (r = s ↔ Together engine.accepted x y)) ∧
    (∀ x r, engine.resolve x = .ok r → IsLeast {y | Together engine.accepted x y} r) ∧
    (∀ engine', identityMachine.Reachable engine' → engine.accepted = engine'.accepted →
      ∀ x c c', engine.component x = .ok c → engine'.component x = .ok c' → c = c') ∧
    ∀ i engine₁ engine₂, engine.decide i .accept = .ok engine₁ → engine₁.undo i = .ok engine₂ →
      ∀ x c c', engine.component x = .ok c → engine₂.component x = .ok c' → c = c' := by
  have hstore := storeOk_of_reachable h
  refine ⟨fun x y r s hx hy => ?_, fun x r hx => ?_, fun engine' h' haccepted x c c' hc hc' => ?_,
    fun i engine₁ engine₂ haccept hundo x c c' hc hc' => ?_⟩
  · rw [← hstore.connected_iff]
    exact resolve_eq_iff hx hy
  · have hset : {y | engine.Connected x y} = {y | Together engine.accepted x y} :=
      Set.ext fun y => hstore.connected_iff
    exact hset ▸ isLeast_resolve hx
  · exact hstore.component_congr (storeOk_of_reachable h') haccepted hc hc'
  · obtain ⟨hstore₂, haccepted⟩ := hstore.accepted_undo haccept hundo
    exact hstore.component_congr hstore₂ haccepted.symm hc hc'

theorem mergedDevices_component : ∃ engine : IdentityEngine, identityMachine.Reachable engine ∧
    engine.resolve 2 = .ok 1 ∧ IsLeast {y | Together engine.accepted 2 y} 1 := by
  obtain ⟨engine, hreachable, hresolve⟩ := reachable_of_run .default [1, 2, 3] mergedDevices
    (p := (·.resolve 2 = .ok 1)) (by decide +kernel)
  exact ⟨engine, hreachable, hresolve, (component_merges hreachable).2.1 2 1 hresolve⟩

end NeonHearth.Identity
