import NeonHearth.Identity.Store

/-!
# What the calls do

For every call of the identity engine, what it does when it succeeds and what it leaves behind when it
fails.  From this, `StoreOk` holds along every run.

* `StoreOk.after`, `storeOk_of_reachable` : the store stays in order.
-/

namespace NeonHearth.Identity

open SortedMap NeonHearth.Except List Option

open IdentityEngine (ownerKeys)

namespace IdentityEngine

variable {engine : IdentityEngine} {id d : DeviceId} {c : List DeviceId} {now : DateTime}
  {incoming : List EvidenceFact}

/-! ### Storing facts -/

/-- The facts after the expired ones of some devices have been dropped. -/
def pruned (engine : IdentityEngine) (c : List DeviceId) (now : DateTime) :
    SortedMap DeviceId (List EvidenceFact) :=
  c.foldl (retainLive · now) engine.facts

theorem get_retainLive (facts x) : (retainLive facts now x).get d =
      if d = x then (facts.get d).map (·.filter (live · now)) else facts.get d := by
  unfold retainLive
  split
  next fs hget =>
    rw [get_insert]
    split_ifs with hd
    · rw [hd, hget, map_some]
    · rfl
  next hget =>
    split_ifs with hd
    · rw [hd, hget, map_none]
    · rfl

theorem get_pruned : (engine.pruned c now).get d =
    if d ∈ c then (engine.facts.get d).map (·.filter (live · now)) else engine.facts.get d := by
  suffices h : ∀ facts : SortedMap DeviceId (List EvidenceFact), (c.foldl (retainLive · now) facts).get d =
      if d ∈ c then (facts.get d).map (·.filter (live · now)) else facts.get d from h engine.facts
  induction c with
  | nil => simp
  | cons x c ih =>
    intro facts
    rw [foldl_cons, ih, get_retainLive]
    by_cases hx : d = x
    · -- Dropping expired facts twice is dropping them once.
      simp [hx, Option.map_map, Function.comp_def, List.filter_filter]
    · simp [hx]

theorem get_pruned_eq_none : (engine.pruned c now).get d = none ↔ engine.facts.get d = none := by
  rw [get_pruned]
  split_ifs <;> simp

variable {facts : SortedMap DeviceId (List EvidenceFact)}

/-- Components do not depend on the facts, only on which devices have some. -/
theorem component_refacts (h : ∀ d, facts.get d = none ↔ engine.facts.get d = none) :
    { engine with facts }.component id = engine.component id := by
  have hid : (facts.get id).isNone = (engine.facts.get id).isNone := by
    rw [Bool.eq_iff_iff, isNone_iff_eq_none, isNone_iff_eq_none, h]
  simp only [component, hid, size_congr h]
  rfl

/-- What storing facts does. -/
inductive Storing (engine : IdentityEngine) (id : DeviceId) (incoming : List EvidenceFact)
    (now : DateTime) : IdentityEngine × Except IdentityError Unit → Prop
  /-- The device is not known, or there is too much to search. -/
  | unknown {e} (h : engine.component id = .error e) :
    Storing engine id incoming now (engine, .error e)
  /-- There is no room, but what has expired is gone. -/
  | full {c : List DeviceId} (h : engine.component id = .ok c)
    (hfull : engine.cfg.maxFactsPerDevice < engine.liveCount c now + incoming.length) :
    Storing engine id incoming now
      ({ engine with facts := engine.pruned c now }, .error (.capacity "facts"))
  | stored {c : List DeviceId} {fs} (h : engine.component id = .ok c)
    (hget : engine.facts.get id = some fs)
    (hroom : engine.liveCount c now + incoming.length ≤ engine.cfg.maxFactsPerDevice) :
    Storing engine id incoming now
      ({ engine with
          facts := (engine.pruned c now).insert id (fs.filter (live · now) ++ incoming) }, .ok ())

/-- The facts of a device that have not expired stay. -/
theorem filter_factsOf_pruned : ({ engine with facts := engine.pruned c now }.factsOf d).filter
    (live · now) = (engine.factsOf d).filter (live · now) := by
  simp only [factsOf, get_pruned]
  split_ifs
  · cases engine.facts.get d <;> simp
  · rfl

theorem liveCount_pruned {c'} :
    { engine with facts := engine.pruned c now }.liveCount c' now = engine.liveCount c' now := by
  simp only [liveCount, filter_factsOf_pruned]

variable {fs : List EvidenceFact} {found : List (DeviceId × Match)} {engine' : IdentityEngine}

theorem extend_pruned (hc : engine.component id = .ok c) (hget : engine.facts.get id = some fs) :
    { engine with facts := engine.pruned c now }.extend id incoming now =
      if engine.cfg.maxFactsPerDevice < engine.liveCount c now + incoming.length then
        .error (.capacity "facts")
      else .ok { engine with
        facts := (engine.pruned c now).insert id (fs.filter (live · now) ++ incoming) } := by
  have hcomponent : { engine with facts := engine.pruned c now }.component id = .ok c :=
    (component_refacts fun _ => get_pruned_eq_none).trans hc
  have hstored : (engine.pruned c now).get id = some (fs.filter (live · now)) := by
    rw [get_pruned, if_pos (self_mem_component hc), hget, map_some]
  simp only [extend, preadd, hcomponent, liveCount_pruned, hstored, okOr, reject, bind, Except.bind,
    pure, Except.pure]
  by_cases hfull : engine.cfg.maxFactsPerDevice < engine.liveCount c now + incoming.length
  · simp only [hfull, if_true]
  · simp only [hfull, if_false]

theorem store_storing (engine id incoming now) :
    Storing engine id incoming now (engine.store id incoming now) := by
  cases hc : engine.component id with
  | error e =>
    have hstore : engine.store id incoming now = (engine, .error e) := by
      simp only [store, pruneExpired, hc]
      rfl
    exact hstore ▸ .unknown hc
  | ok c =>
    obtain ⟨fs, hget⟩ := ne_none_iff_exists'.1 (component_eq_ok.1 hc).1
    have hprune : engine.pruneExpired id now = .ok { engine with facts := engine.pruned c now } := by
      simp only [pruneExpired, hc]
      rfl
    rw [store, hprune]
    dsimp only
    rw [extend_pruned hc hget]
    by_cases hroom : engine.cfg.maxFactsPerDevice < engine.liveCount c now + incoming.length
    · rw [if_pos hroom]
      exact .full hc hroom
    · rw [if_neg hroom]
      exact .stored hc hget (not_lt.1 hroom)

/-- A device has no more facts than its component. -/
theorem length_filter_le_liveCount (hc : engine.component id = .ok c)
    (hget : engine.facts.get id = some fs) :
    (fs.filter (live · now)).length ≤ engine.liveCount c now := by
  refine single_le_sum (by simp) _ (mem_map.2 ⟨id, self_mem_component hc, ?_⟩)
  rw [factsOf, hget, getD_some]

theorem StoreOk.component_known (h : engine.StoreOk) (hc : engine.component id = .ok c) :
    ∀ d ∈ c, engine.facts.get d ≠ none := by
  intro d hd
  have hconnected := (mem_component hc).1 hd
  clear hd
  induction hconnected with
  | refl => exact (component_eq_ok.1 hc).1
  | tail _ hadj _ =>
    obtain ⟨i, e, he, -, hends⟩ := hadj
    have hknown := h.merges.ends_known he
    obtain ⟨-, rfl⟩ | ⟨-, rfl⟩ := hends
    · exact hknown.2
    · exact hknown.1

theorem StoreOk.refacts (h : engine.StoreOk)
    (hknown : ∀ d, facts.get d = none ↔ engine.facts.get d = none)
    (hle : ∀ {d fs}, facts.get d = some fs → fs.length ≤ engine.cfg.maxFactsPerDevice) :
    { engine with facts }.StoreOk where
  facts := ⟨(size_congr hknown).trans_le h.facts.devices_le, hle⟩
  merges := h.merges.mono fun d => (hknown d).not.2
  owners := h.owners.mono fun o _ => (hknown o.deviceId).not.2

theorem sublist_of_pruned (hget : (engine.pruned c now).get d = some fs) :
    ∃ gs, engine.facts.get d = some gs ∧ fs <+ gs := by
  rw [get_pruned] at hget
  split_ifs at hget
  · obtain ⟨gs, hgs, rfl⟩ := map_eq_some_iff.1 hget
    exact ⟨gs, hgs, filter_sublist⟩
  · exact ⟨fs, hget, .refl _⟩

theorem length_pruned_le (h : engine.StoreOk) (hget : (engine.pruned c now).get d = some fs) :
    fs.length ≤ engine.cfg.maxFactsPerDevice := by
  obtain ⟨gs, hgs, hsub⟩ := sublist_of_pruned hget
  exact hsub.length_le.trans (h.facts.facts_le hgs)

theorem get_stored_eq_none (hget : engine.facts.get id = some fs) {gs} :
    ((engine.pruned c now).insert id gs).get d = none ↔ engine.facts.get d = none := by
  rw [get_insert]
  split_ifs with hd
  · simp [hd, hget]
  · exact get_pruned_eq_none

variable {outcome : IdentityEngine × Except IdentityError Unit}

/-- Storing facts changes nothing but facts: no device gets any that are not new, and the devices that
have facts stay the same. -/
theorem Storing.refacts (h : Storing engine id incoming now outcome) :
    ∃ facts, outcome.1 = { engine with facts } ∧
      (∀ d, facts.get d = none ↔ engine.facts.get d = none) ∧
      ∀ d fs, facts.get d = some fs → ∀ f ∈ fs, f ∈ engine.factsOf d ∨ d = id ∧ f ∈ incoming := by
  have hold : ∀ c d fs, (engine.pruned c now).get d = some fs → ∀ f ∈ fs, f ∈ engine.factsOf d := by
    intro c d fs hget f hf
    obtain ⟨gs, hgs, hsub⟩ := sublist_of_pruned hget
    exact mem_factsOf.2 ⟨gs, hgs, hsub.subset hf⟩
  cases h with
  | unknown =>
    exact ⟨_, rfl, fun _ => Iff.rfl, fun d fs hget f hf => .inl (mem_factsOf.2 ⟨fs, hget, hf⟩)⟩
  | @full c hc _ =>
    exact ⟨_, rfl, fun _ => get_pruned_eq_none, fun d fs hget f hf => .inl (hold c d fs hget f hf)⟩
  | @stored c fs hc hget hroom =>
    refine ⟨_, rfl, fun _ => get_stored_eq_none hget, fun d gs hgs f hf => ?_⟩
    obtain ⟨rfl, rfl⟩ | ⟨-, hgs⟩ := get_insert_eq_some.1 hgs
    · obtain hf | hf := mem_append.1 hf
      · exact .inl (mem_factsOf.2 ⟨fs, hget, mem_of_mem_filter hf⟩)
      · exact .inr ⟨rfl, hf⟩
    · exact .inl (hold c d gs hgs f hf)

/-! ### Observations -/

variable {comps : List (List DeviceId)}

theorem mem_components (h : engine.components = .ok comps) :
    ∀ c ∈ comps, ∃ id, engine.component id = .ok c := by
  obtain ⟨-, -, hloop⟩ := bind_eq_ok.1 h
  refine foldlM_invariant (I := fun _ out => ∀ c ∈ out, ∃ id, engine.component id = .ok c) hloop
    (by simp) ?_
  intro done id rest out out' _ hout hstep
  split_ifs at hstep
  · rw [pure_eq_ok] at hstep
    exact hstep ▸ hout
  obtain ⟨c, hc, hstep⟩ := bind_eq_ok.1 hstep
  rw [pure_eq_ok] at hstep
  intro c' hc'
  rw [← hstep, mem_append, mem_singleton] at hc'
  obtain hc' | rfl := hc'
  · exact hout c' hc'
  · exact ⟨id, hc⟩

theorem refs_eq_ok {facts} (h : engine.refs c = .ok facts) : facts = c.flatMap engine.factsOf := by
  obtain ⟨-, -, h⟩ := bind_eq_ok.1 h
  exact (pure_eq_ok.1 h).symm

/-- The match of a component, if there is one. -/
def matchWith (engine : IdentityEngine) (incoming : List EvidenceFact) (now : DateTime)
    (c : List DeviceId) : Option (DeviceId × Match) :=
  let m := matching (c.flatMap engine.factsOf) incoming now engine.cfg
  if m.any then some (canon c, m) else none

theorem findMatches_eq_ok (h : engine.findMatches incoming now = .ok found) :
    incoming.length ≤ engine.cfg.maxFactsPerDevice ∧ engine.facts.size < engine.cfg.maxDevices ∧
      ∃ comps, engine.components = .ok comps ∧
        found = (comps.filterMap (engine.matchWith incoming now)).insertionSort fun x y => x.1 ≤ y.1 := by
  simp only [findMatches, bind_eq_ok, pure_eq_ok, reject_eq_ok, not_or, not_lt, not_le,
    exists_const] at h
  obtain ⟨⟨hlength, hsize⟩, comps, hcomps, ⟨work, found'⟩, hloop, rfl⟩ := h
  refine ⟨hlength, hsize, comps, hcomps, ?_⟩
  have hfound : found' = comps.filterMap (engine.matchWith incoming now) := by
    refine foldlM_invariant (I := fun done (acc : ℕ × List (DeviceId × Match)) =>
      acc.2 = done.filterMap (engine.matchWith incoming now)) hloop rfl ?_
    rintro done c rest ⟨work, found⟩ ⟨work', found'⟩ - hfound hstep
    simp only [bind_eq_ok, pure_eq_ok, reject_eq_ok, exists_const, Prod.mk.injEq] at hstep
    obtain ⟨facts, hrefs, -, rfl, rfl⟩ := hstep
    rw [filterMap_append, ← hfound, refs_eq_ok hrefs]
    simp only [matchWith, filterMap_cons, filterMap_nil]
    split_ifs
    · rfl
    · exact (append_nil _).symm
  rw [hfound]

/-- Where a match comes from: the facts of a component. -/
structure Found (engine : IdentityEngine) (incoming : List EvidenceFact) (now : DateTime)
    (x : DeviceId × Match) (c : List DeviceId) : Prop where
  listed : ∃ comps, engine.components = .ok comps ∧ c ∈ comps
  root : canon c = x.1
  eq : x.2 = matching (c.flatMap engine.factsOf) incoming now engine.cfg
  any : x.2.any = true

theorem found_of_mem (h : engine.findMatches incoming now = .ok found) :
    ∀ x ∈ found, ∃ c, Found engine incoming now x c := by
  obtain ⟨-, -, comps, hcomps, rfl⟩ := findMatches_eq_ok h
  intro x hx
  obtain ⟨c, hc, hmatch⟩ := mem_filterMap.1 ((mem_insertionSort _).1 hx)
  unfold matchWith at hmatch
  dsimp only at hmatch
  split_ifs at hmatch with hany
  cases hmatch
  exact ⟨c, ⟨comps, hcomps, hc⟩, rfl, rfl, hany⟩

theorem Found.known {x} (hx : Found engine incoming now x c) (h : engine.StoreOk) :
    engine.facts.get x.1 ≠ none := by
  obtain ⟨comps, hcomps, hc⟩ := hx.listed
  obtain ⟨id, hc⟩ := mem_components hcomps c hc
  refine h.component_known hc _ ?_
  rw [← hx.root]
  exact (isLeast_canon (self_mem_component hc)).1

variable {families : List EvidenceFamily} {fresh : DeviceId}
  {reasons : List String} {a b : DeviceId} {score : F32}

theorem StoreOk.insertProp (h : engine.StoreOk) (ha : engine.facts.get a ≠ none)
    (hb : engine.facts.get b ≠ none)
    (hroom : engine.proposals.length + 1 ≤ engine.cfg.maxProposals) :
    (engine.insertProp a b score families reasons).StoreOk where
  facts := h.facts
  merges := h.merges.insert rfl rfl ha hb hroom
  owners := h.owners

theorem StoreOk.proposeAll (h : engine.StoreOk) (hfresh : engine.facts.get fresh ≠ none)
    (hfound : ∀ x ∈ found, engine.facts.get x.1 ≠ none)
    (hroom : engine.proposals.length + found.length ≤ engine.cfg.maxProposals) :
    (engine.proposeAll fresh found).StoreOk := by
  induction found generalizing engine with
  | nil => exact h
  | cons x found ih =>
    rw [length_cons] at hroom
    refine ih (h.insertProp (hfound x mem_cons_self) hfresh (by omega)) hfresh
      (fun y hy => hfound y (mem_cons_of_mem _ hy)) ?_
    simp only [IdentityEngine.insertProp, length_append, length_singleton]
    omega

/-- The proposals for a new device, numbered from `next`. -/
def proposalsFor (fresh : DeviceId) (found : List (DeviceId × Match)) (next : ℕ) : List MergeProposal :=
  (found.zipIdx next).map fun (x, i) =>
    { id := i
      left := x.1
      right := fresh
      score := x.2.score
      families := sortfam x.2.families
      reasons := sortReasons x.2.reasons
      status := .pending }

theorem proposeAll_eq (engine : IdentityEngine) (fresh found) :
    engine.proposeAll fresh found = { engine with
      nextProposal := engine.nextProposal + found.length
      proposals := engine.proposals ++ proposalsFor fresh found engine.nextProposal } := by
  induction found generalizing engine with
  | nil => simp [IdentityEngine.proposeAll, proposalsFor]
  | cons x found ih =>
    refine (ih _).trans ?_
    simp [IdentityEngine.insertProp, proposalsFor, zipIdx_cons, Nat.add_assoc, Nat.add_comm 1]

theorem enroll_eq_ok :
    engine.enroll incoming found = .ok (engine', fresh) ↔
      engine.preprops found.length = .ok () ∧ engine.ids.head? = some fresh ∧
      engine.facts.get fresh = none ∧
      { engine with ids := engine.ids.tail, facts := engine.facts.insert fresh incoming }.proposeAll
        fresh found = engine' := by
  simp only [enroll, bind_eq_ok, pure_eq_ok, okOr_eq_ok, reject_eq_ok, exists_const,
    not_isSome_iff_eq_none, Prod.mk.injEq]
  constructor
  · rintro ⟨⟨⟩, hroom, x, hhead, hnew, rfl, rfl⟩
    exact ⟨hroom, hhead, hnew, rfl⟩
  · rintro ⟨hroom, hhead, hnew, rfl⟩
    exact ⟨⟨⟩, hroom, fresh, hhead, hnew, rfl, rfl⟩

variable {ids : List DeviceId}

theorem StoreOk.addDevice (h : engine.StoreOk)
    (hnew : engine.facts.get fresh = none) (hroom : engine.facts.size < engine.cfg.maxDevices)
    (hle : incoming.length ≤ engine.cfg.maxFactsPerDevice) :
    { engine with ids, facts := engine.facts.insert fresh incoming }.StoreOk := by
  refine ⟨⟨?_, fun {id fs} hget => ?_⟩, h.merges.mono fun d => get_insert_ne_none,
    h.owners.mono fun o _ => get_insert_ne_none⟩
  · rw [size_insert, if_pos hnew]
    exact hroom
  · obtain ⟨-, rfl⟩ | ⟨-, hget⟩ := get_insert_eq_some.1 hget
    · exact hle
    · exact h.facts.facts_le hget

theorem length_of_preprops {n : ℕ} (h : engine.preprops n = .ok ()) :
    engine.proposals.length + n ≤ engine.cfg.maxProposals := by
  rw [preprops, reject_eq_ok, not_or, not_lt] at h
  exact h.1

theorem StoreOk.enroll (h : engine.StoreOk) (hfound : engine.findMatches incoming now = .ok found)
    (henroll : engine.enroll incoming found = .ok (engine', fresh)) : engine'.StoreOk := by
  obtain ⟨hlength, hsize, -⟩ := findMatches_eq_ok hfound
  obtain ⟨hroom, -, hnew, rfl⟩ := enroll_eq_ok.1 henroll
  refine (h.addDevice hnew hsize hlength).proposeAll (by simp) (fun x hx => ?_)
    (length_of_preprops hroom)
  obtain ⟨c, hc⟩ := found_of_mem hfound x hx
  exact get_insert_ne_none (hc.known h)

/-- What observing facts does. -/
inductive Observing (engine : IdentityEngine) (facts : List EvidenceFact) (now : DateTime) :
    Option DeviceId → IdentityEngine × Except IdentityError DeviceId → Prop
  /-- Nothing is stored. -/
  | refused {id : Option DeviceId} {e} : Observing engine facts now id (engine, .error e)
  /-- The device is named. -/
  | named {device root prepared outcome}
    (hprepare : prepare engine.cfg facts = .ok prepared) (hroot : engine.resolve device = .ok root)
    (hstore : Storing engine device prepared now outcome) :
    Observing engine facts now (some device) (outcome.1, outcome.2.map fun _ => root)
  /-- The facts match one device, and strongly. -/
  | matched {root prepared found outcome} (hprepare : prepare engine.cfg facts = .ok prepared)
    (hfound : engine.findMatches prepared now = .ok found) (hauto : automatic found = some root)
    (hstore : Storing engine root prepared now outcome) :
    Observing engine facts now none (outcome.1, outcome.2.map fun _ => root)
  /-- The facts are for a new device. -/
  | enrolled {prepared found engine' fresh} (hprepare : prepare engine.cfg facts = .ok prepared)
    (hfound : engine.findMatches prepared now = .ok found) (hauto : automatic found = none)
    (henroll : engine.enroll prepared found = .ok (engine', fresh)) :
    Observing engine facts now none (engine', .ok fresh)

theorem observeAt_observing (engine id facts now) :
    Observing engine facts now id (engine.observeAt id facts now) := by
  unfold observeAt
  cases hprepare : prepare engine.cfg facts with
  | error e => exact .refused
  | ok prepared =>
    cases id with
    | none =>
      simp only [observeUnknown]
      cases hfound : engine.findMatches prepared now with
      | error e => exact .refused
      | ok found =>
        dsimp only
        split
        next root hauto => exact .matched hprepare hfound hauto (store_storing ..)
        next hauto =>
          cases henroll : engine.enroll prepared found with
          | error e => exact .refused
          | ok result => exact .enrolled hprepare hfound hauto henroll
    | some device =>
      dsimp only
      split
      next => exact .refused
      next root hroot => exact .named hprepare hroot (store_storing ..)

theorem StoreOk.storing (h : engine.StoreOk)
    (hstoring : Storing engine id incoming now outcome) : outcome.1.StoreOk := by
  cases hstoring with
  | unknown => exact h
  | full hc _ => exact h.refacts (fun d => get_pruned_eq_none) (length_pruned_le h)
  | stored hc hget hroom =>
    refine h.refacts (fun d => get_stored_eq_none hget) fun {d fs} hfs => ?_
    obtain ⟨-, rfl⟩ | ⟨-, hfs⟩ := get_insert_eq_some.1 hfs
    · rw [length_append]
      exact (Nat.add_le_add_right (length_filter_le_liveCount hc hget) _).trans hroom
    · exact length_pruned_le h hfs

/-! ### Merges -/

theorem known_of_resolve {r} (h : engine.resolve id = .ok r) : engine.facts.get id ≠ none := by
  obtain ⟨c, hc, -⟩ := resolve_eq_ok.1 h
  exact (component_eq_ok.1 hc).1

variable {result : IdentityEngine × ℕ}

theorem proposeMerge_eq_ok : engine.proposeMerge a b score families reasons = .ok result ↔
      (∃ r, engine.resolve a = .ok r) ∧ (∃ r, engine.resolve b = .ok r) ∧
      validprop score families reasons = .ok () ∧ engine.preprops 1 = .ok () ∧
      (engine.insertProp a b score families reasons, engine.nextProposal) = result := by
  simp only [proposeMerge, bind_eq_ok, pure_eq_ok]
  constructor
  · rintro ⟨r, hr, s, hs, ⟨⟩, hvalid, ⟨⟩, hroom, rfl⟩
    exact ⟨⟨r, hr⟩, ⟨s, hs⟩, hvalid, hroom, rfl⟩
  · rintro ⟨⟨r, hr⟩, ⟨s, hs⟩, hvalid, hroom, rfl⟩
    exact ⟨r, hr, s, hs, ⟨⟩, hvalid, ⟨⟩, hroom, rfl⟩

theorem StoreOk.proposeMerge (h : engine.StoreOk)
    (hpropose : engine.proposeMerge a b score families reasons = .ok result) : result.1.StoreOk := by
  obtain ⟨⟨r, hr⟩, ⟨s, hs⟩, -, hroom, rfl⟩ := proposeMerge_eq_ok.1 hpropose
  exact h.insertProp (known_of_resolve hr) (known_of_resolve hs) (length_of_preprops hroom)

/-- What a decision does. -/
inductive Deciding (engine : IdentityEngine) (p : MergeProposal) : Decision → IdentityEngine → Prop
  | accepted (hroom : engine.edges.size < engine.cfg.maxMergeEdges) :
    Deciding engine p .accept { engine with
      edges := engine.edges.insert p.id ⟨p.left, p.right, true⟩
      proposals := setStatus engine.proposals p.id .pending .accepted
      audit := engine.audit ++ [⟨p.id, .accepted⟩] }
  | rejected : Deciding engine p .reject { engine with
      proposals := setStatus engine.proposals p.id .pending .rejected
      audit := engine.audit ++ [⟨p.id, .rejected⟩] }

theorem decide_deciding {i : ℕ} {choice} (h : engine.decide i choice = .ok engine') :
    engine.audit.length < engine.cfg.maxAuditRecords ∧
      ∃ p ∈ engine.proposals, p.id = i ∧ p.status = .pending ∧ Deciding engine p choice engine' := by
  simp only [IdentityEngine.decide, bind_eq_ok, okOr_eq_ok, reject_eq_ok, not_le, exists_const] at h
  obtain ⟨haudit, p, hfind, h⟩ := h
  obtain ⟨rfl, hstatus⟩ : p.id = i ∧ p.status = .pending := by simpa using find?_some hfind
  refine ⟨haudit, p, mem_of_find?_eq_some hfind, rfl, hstatus, ?_⟩
  cases choice with
  | accept =>
    simp only [bind_eq_ok, pure_eq_ok, reject_eq_ok, not_le, exists_const] at h
    obtain ⟨hroom, rfl⟩ := h
    exact .accepted hroom
  | reject =>
    obtain rfl := pure_eq_ok.1 h
    exact .rejected

/-- The engine after a merge has been undone. -/
def undone (engine : IdentityEngine) (p : MergeProposal) : IdentityEngine :=
  { engine with
    edges := engine.edges.insert p.id ⟨p.left, p.right, false⟩
    proposals := setStatus engine.proposals p.id .accepted .undone
    audit := engine.audit ++ [⟨p.id, .undone⟩] }

variable {p : MergeProposal}

theorem edge_of_accepted (h : p.status = .accepted) : p.edge = some ⟨p.left, p.right, true⟩ := by
  simp only [MergeProposal.edge, h]

theorem StoreOk.undo_eq (h : engine.StoreOk) {i : ℕ} (hundo : engine.undo i = .ok engine') :
    engine.audit.length < engine.cfg.maxAuditRecords ∧
      ∃ p ∈ engine.proposals, p.id = i ∧ p.status = .accepted ∧ engine.undone p = engine' := by
  simp only [undo, bind_eq_ok, pure_eq_ok, okOr_eq_ok, reject_eq_ok, not_le, exists_const] at hundo
  obtain ⟨haudit, p, hfind, rfl⟩ := hundo
  have hp := mem_of_find?_eq_some hfind
  obtain ⟨rfl, hstatus⟩ : p.id = i ∧ p.status = .accepted := by simpa using find?_some hfind
  refine ⟨haudit, p, hp, rfl, hstatus, ?_⟩
  rw [h.get_edge hp, edge_of_accepted hstatus]
  rfl

section

variable (h : engine.StoreOk) (haudit : engine.audit.length < engine.cfg.maxAuditRecords)
  (hp : p ∈ engine.proposals)
include h haudit hp

theorem StoreOk.deciding {choice}
    (hstatus : p.status = .pending) (hdeciding : Deciding engine p choice engine') :
    engine'.StoreOk := by
  have hnone : engine.edges.get p.id = none := by
    rw [h.get_edge hp, MergeProposal.edge, hstatus]
  cases hdeciding with
  | accepted hroom =>
    refine ⟨h.facts, ?_, h.owners⟩
    rw [← hstatus]
    refine h.merges.record hp (by rw [hstatus]; rfl) (fun i => ?_) ?_ haudit
    · rw [get_insert]
      rfl
    · rw [size_insert, if_pos hnone]
      exact hroom
  | rejected =>
    refine ⟨h.facts, ?_, h.owners⟩
    rw [← hstatus]
    refine h.merges.record hp (by rw [hstatus]; rfl) (fun i => ?_) h.merges.edges_le haudit
    split_ifs with hi
    · rw [hi, hnone]
      rfl
    · rfl

theorem StoreOk.undone (hstatus : p.status = .accepted) : (engine.undone p).StoreOk := by
  refine ⟨h.facts, ?_, h.owners⟩
  rw [IdentityEngine.undone, ← hstatus]
  refine h.merges.record hp (by rw [hstatus]; rfl) (fun i => ?_) ?_ haudit
  · rw [get_insert]
    rfl
  · rw [size_insert, h.get_edge hp, edge_of_accepted hstatus, if_neg (some_ne_none _)]
    exact h.merges.edges_le

end

/-! ### The owner -/

theorem owner_eq_ok {key value at'} :
    engine.owner id key value at' = .ok engine' ↔ ∃ root, engine.resolve id = .ok root ∧
      (key ∈ ownerKeys ∧
        ¬(value.any fun x => x = "" || engine.cfg.maxValueLen < x.utf8ByteSize) = true) ∧
      engine.owners.length < engine.cfg.maxAuditRecords ∧ engine.nextOwner + 1 < 2 ^ 64 ∧
      { engine with
        owners := engine.owners ++ [⟨engine.nextOwner, root, key, value, at'⟩]
        nextOwner := engine.nextOwner + 1 } = engine' := by
  simp only [owner, bind_eq_ok, pure_eq_ok, reject_eq_ok, not_or, not_not, not_le, exists_const]

theorem StoreOk.owner (h : engine.StoreOk) {key value at'}
    (howner : engine.owner id key value at' = .ok engine') : engine'.StoreOk := by
  obtain ⟨root, hroot, ⟨hkey, hvalue⟩, hroom, -, rfl⟩ := owner_eq_ok.1 howner
  obtain ⟨c, hc, rfl⟩ := resolve_eq_ok.1 hroot
  have hknown := h.component_known hc _ (isLeast_canon (self_mem_component hc)).1
  exact ⟨h.facts, h.merges, h.owners.append rfl ⟨hknown, hkey, hvalue⟩ hroom⟩

/-! ### Eviction -/

variable {result : IdentityEngine × List DeviceId}

theorem evictStaleAt_eq_ok {retention : ℤ} :
    engine.evictStaleAt now retention = .ok result ↔ ∃ cutoff comps,
      now.checkedSubSigned retention = some cutoff ∧ engine.components = .ok comps ∧
      (if (comps.filter (engine.evicts now cutoff)).flatten = [] then
        (engine, (comps.filter (engine.evicts now cutoff)).flatten)
      else (engine.forget (comps.filter (engine.evicts now cutoff)).flatten,
        (comps.filter (engine.evicts now cutoff)).flatten.insertionSort (· ≤ ·))) = result := by
  simp only [evictStaleAt, bind_eq_ok, okOr_eq_ok, ← apply_ite (pure (f := Except IdentityError)),
    pure_eq_ok]
  constructor
  · rintro ⟨cutoff, hcutoff, comps, hcomps, rfl⟩
    exact ⟨cutoff, comps, hcutoff, hcomps, rfl⟩
  · rintro ⟨cutoff, comps, hcutoff, hcomps, rfl⟩
    exact ⟨cutoff, hcutoff, comps, hcomps, rfl⟩

theorem StoreOk.forget (h : engine.StoreOk) {gone}
    (howners : ∀ o ∈ engine.owners, o.deviceId ∉ gone) : (engine.forget gone).StoreOk where
  facts := by
    refine ⟨(size_filter_le _ _).trans h.facts.devices_le, fun {id fs} hget => ?_⟩
    obtain ⟨hget, -⟩ := filter_eq_some_iff.1 ((SortedMap.get_filter ..).symm.trans hget)
    exact h.facts.facts_le hget
  merges := h.merges.forget rfl
  owners := h.owners.mono fun o ho hknown => get_filter_ne_none.2 ⟨hknown, howners o ho⟩

/-- What is evicted, the owner said nothing about. -/
theorem not_mem_evicted {cutoff o}
    (ho : o ∈ engine.owners) : o.deviceId ∉ (comps.filter (engine.evicts now cutoff)).flatten := by
  intro hmem
  obtain ⟨c, hc, hd⟩ := mem_flatten.1 hmem
  have hevicts := (mem_filter.1 hc).2
  simp only [evicts, Bool.and_eq_true, Bool.not_eq_true', List.any_eq_false, decide_eq_true_eq]
    at hevicts
  exact hevicts.1.2 o ho hd

theorem StoreOk.evictStaleAt (h : engine.StoreOk) {retention : ℤ}
    (hevict : engine.evictStaleAt now retention = .ok result) : result.1.StoreOk := by
  obtain ⟨cutoff, comps, -, -, rfl⟩ := evictStaleAt_eq_ok.1 hevict
  split_ifs
  · exact h
  · exact h.forget fun o => not_mem_evicted

/-! ### Runs -/

/-- The device that a call stores facts for, with the facts, if there is a known one. -/
def target (engine : IdentityEngine) :
    IdentityCall → Option (DeviceId × List EvidenceFact × DateTime)
  | .observeAt (some device) facts now | .addFactsAt device facts now => do
    let prepared ← (prepare engine.cfg facts).toOption
    some (device, prepared, now)
  | .observeAt none facts now => do
    let prepared ← (prepare engine.cfg facts).toOption
    let found ← (engine.findMatches prepared now).toOption
    let root ← automatic found
    some (root, prepared, now)
  | _ => none

/-- What a call changes. -/
inductive Change (engine : IdentityEngine) (call : IdentityCall) : IdentityEngine → Prop
  | same : Change engine call engine
  | stored {facts prepared now device outcome} (hcall : call.brings = some (facts, now))
    (hprepare : prepare engine.cfg facts = .ok prepared)
    (htarget : engine.target call = some (device, prepared, now))
    (hstore : Storing engine device prepared now outcome) : Change engine call outcome.1
  | enrolled {facts prepared now} {found : List (DeviceId × Match)}
    {fresh engine'} (hcall : call = .observeAt none facts now)
    (hprepare : prepare engine.cfg facts = .ok prepared)
    (hfound : engine.findMatches prepared now = .ok found) (hauto : automatic found = none)
    (henroll : engine.enroll prepared found = .ok (engine', fresh)) : Change engine call engine'
  | proposed {a b : DeviceId} {score : F32} {families reasons result}
    (hcall : call = .proposeMerge a b score families reasons)
    (hpropose : engine.proposeMerge a b score families reasons = .ok result) :
    Change engine call result.1
  | decided {p : MergeProposal} {choice engine'}
    (hcall : call = .decide p.id choice) (haudit : engine.audit.length < engine.cfg.maxAuditRecords)
    (hp : p ∈ engine.proposals) (hstatus : p.status = .pending)
    (hdeciding : Deciding engine p choice engine') : Change engine call engine'
  | undone {p : MergeProposal} (hcall : call = .undo p.id)
    (haudit : engine.audit.length < engine.cfg.maxAuditRecords) (hp : p ∈ engine.proposals)
    (hstatus : p.status = .accepted) : Change engine call (engine.undone p)
  | said {id : DeviceId} {key value at' engine'} (hcall : call.states = some (id, key, value, at'))
    (howner : engine.owner id key value at' = .ok engine') : Change engine call engine'
  | evicted {now : DateTime} {retention : ℤ} {result} (hcall : call = .evictStaleAt now retention)
    (hevict : engine.evictStaleAt now retention = .ok result) : Change engine call result.1

theorem Change.orSame {call} {result : Except IdentityError IdentityEngine}
    (hok : ∀ engine', result = .ok engine' → Change engine call engine') :
    Change engine call (engine.orSame result) := by
  cases result with
  | ok engine' => exact hok engine' rfl
  | error e => exact .same

theorem StoreOk.change (h : engine.StoreOk) (call) : Change engine call (engine.after call) := by
  cases call with
  | observeAt id facts now =>
    change Change engine _ (engine.observeAt id facts now).1
    have hobserving := observeAt_observing engine id facts now
    generalize engine.observeAt id facts now = outcome at hobserving ⊢
    cases hobserving with
    | refused => exact .same
    | named hprepare _ hstore =>
      exact .stored rfl hprepare (by simp [target, hprepare, Except.toOption]) hstore
    | matched hprepare hfound hauto hstore =>
      exact .stored rfl hprepare (by simp [target, hprepare, hfound, hauto, Except.toOption]) hstore
    | enrolled hprepare hfound hauto henroll => exact .enrolled rfl hprepare hfound hauto henroll
  | addFactsAt id facts now =>
    change Change engine _ (engine.addFactsAt id facts now).1
    unfold IdentityEngine.addFactsAt
    split
    next => exact .same
    next hprepare =>
      exact .stored rfl hprepare (by simp [target, hprepare, Except.toOption]) (store_storing ..)
  | proposeMerge a b score families reasons =>
    refine Change.orSame fun engine' hok => ?_
    obtain ⟨result, hresult, rfl⟩ := map_eq_ok.1 hok
    exact .proposed rfl hresult
  | decide i choice =>
    refine Change.orSame fun engine' hok => ?_
    obtain ⟨haudit, p, hp, rfl, hstatus, hdeciding⟩ := decide_deciding hok
    exact .decided rfl haudit hp hstatus hdeciding
  | undo i =>
    refine Change.orSame fun engine' hok => ?_
    obtain ⟨haudit, p, hp, rfl, hstatus, rfl⟩ := h.undo_eq hok
    exact .undone rfl haudit hp hstatus
  | evictStaleAt now retention =>
    refine Change.orSame fun engine' hok => ?_
    obtain ⟨result, hresult, rfl⟩ := map_eq_ok.1 hok
    exact .evicted rfl hresult
  | _ => exact Change.orSame fun engine' hok => .said rfl hok

theorem StoreOk.of_change (h : engine.StoreOk) {call}
    (hchange : Change engine call engine') : engine'.StoreOk := by
  cases hchange with
  | same => exact h
  | stored _ _ _ hstore => exact h.storing hstore
  | enrolled _ _ hfound _ henroll => exact h.enroll hfound henroll
  | proposed _ hpropose => exact h.proposeMerge hpropose
  | decided _ haudit hp hstatus hdeciding => exact h.deciding haudit hp hstatus hdeciding
  | undone _ haudit hp hstatus => exact h.undone haudit hp hstatus
  | said _ howner => exact h.owner howner
  | evicted _ hevict => exact h.evictStaleAt hevict

theorem StoreOk.after (h : engine.StoreOk) (call) : (engine.after call).StoreOk :=
  h.of_change (h.change call)

section Change

variable {call : IdentityCall}

section

variable (h : Change engine call engine')
include h

/-- What a call changes about the facts and about the ids that are left. -/
inductive Refiling (engine : IdentityEngine) (call : IdentityCall) :
    SortedMap DeviceId (List EvidenceFact) → List DeviceId → Prop
  | same : Refiling engine call engine.facts engine.ids
  | stored {facts prepared now device outcome} (hcall : call.brings = some (facts, now))
    (hprepare : prepare engine.cfg facts = .ok prepared)
    (htarget : engine.target call = some (device, prepared, now))
    (hstore : Storing engine device prepared now outcome) :
    Refiling engine call outcome.1.facts engine.ids
  | enrolled {facts prepared now fresh}
    (hcall : call.brings = some (facts, now)) (hprepare : prepare engine.cfg facts = .ok prepared)
    (hhead : engine.ids.head? = some fresh) (hnew : engine.facts.get fresh = none) :
    Refiling engine call (engine.facts.insert fresh prepared) engine.ids.tail
  | evicted {gone : List DeviceId} :
    Refiling engine call (engine.facts.filter fun d _ => d ∉ gone) engine.ids

/-- A call leaves the configuration as it is, refiles the facts, and keeps the records of the owner or
adds to them what the owner says. -/
theorem Change.effects : engine'.cfg = engine.cfg ∧
    Refiling engine call engine'.facts engine'.ids ∧
    (engine'.owners = engine.owners ∨
      ∃ id key value at' root, call.states = some (id, key, value, at') ∧
        engine.owner id key value at' = .ok engine' ∧ engine.resolve id = .ok root ∧
        engine'.owners = engine.owners ++ [⟨engine.nextOwner, root, key, value, at'⟩]) := by
  cases h with
  | same | undone => exact ⟨rfl, .same, .inl rfl⟩
  | stored hcall hprepare htarget hstoring =>
    have hstored := Refiling.stored hcall hprepare htarget hstoring
    obtain ⟨facts, heq, -⟩ := hstoring.refacts
    rw [heq] at hstored ⊢
    exact ⟨rfl, hstored, .inl rfl⟩
  | enrolled hcall hprepare _ _ henroll =>
    subst hcall
    obtain ⟨-, hhead, hnew, rfl⟩ := enroll_eq_ok.1 henroll
    rw [proposeAll_eq]
    exact ⟨rfl, .enrolled rfl hprepare hhead hnew, .inl rfl⟩
  | proposed _ hpropose =>
    obtain ⟨-, -, -, -, rfl⟩ := proposeMerge_eq_ok.1 hpropose
    exact ⟨rfl, .same, .inl rfl⟩
  | decided _ _ _ _ hdeciding => cases hdeciding <;> exact ⟨rfl, .same, .inl rfl⟩
  | said hcall howner =>
    obtain ⟨root, hroot, -, -, -, rfl⟩ := owner_eq_ok.1 howner
    exact ⟨rfl, .same, .inr ⟨_, _, _, _, root, hcall, howner, hroot, rfl⟩⟩
  | evicted _ hevict =>
    obtain ⟨cutoff, comps, -, -, rfl⟩ := evictStaleAt_eq_ok.1 hevict
    split_ifs
    · exact ⟨rfl, .same, .inl rfl⟩
    · exact ⟨rfl, .evicted, .inl rfl⟩

theorem Change.cfg : engine'.cfg = engine.cfg := h.effects.1

theorem Change.refiling : Refiling engine call engine'.facts engine'.ids := h.effects.2.1

/-- What holds of all facts still does, if it holds of the facts that the call brings. -/
theorem Change.facts_all {P : EvidenceFact → Prop}
    (hold : ∀ {d fs}, engine.facts.get d = some fs → ∀ f ∈ fs, P f)
    (hnew : ∀ {facts now}, call.brings = some (facts, now) →
      ∀ f ∈ facts, ∀ g, prepareFact engine.cfg f = .ok g → P g) {d : DeviceId}
    (hget : engine'.facts.get d = some fs) : ∀ f ∈ fs, P f := by
  have hprepared : ∀ {facts prepared now}, call.brings = some (facts, now) →
      prepare engine.cfg facts = .ok prepared → ∀ g ∈ prepared, P g := by
    intro facts prepared now hcall hprepare g hg
    obtain ⟨f, hf, hfact⟩ := mem_prepare hprepare hg
    exact hnew hcall f hf g hfact
  have hrefiling := h.refiling
  generalize engine'.facts = facts', engine'.ids = ids' at hrefiling hget
  cases hrefiling with
  | same => exact hold hget
  | stored hcall hprepare _ hstoring =>
    obtain ⟨facts, heq, hnone, hmem⟩ := hstoring.refacts
    rw [heq] at hget
    intro f hf
    obtain hf | ⟨-, hf⟩ := hmem d fs hget f hf
    · obtain ⟨gs, hgs, hf⟩ := mem_factsOf.1 hf
      exact hold hgs f hf
    · exact hprepared hcall hprepare f hf
  | enrolled hcall hprepare =>
    obtain ⟨-, rfl⟩ | ⟨-, hget⟩ := get_insert_eq_some.1 hget
    · exact hprepared hcall hprepare
    · exact hold hget
  | evicted =>
    obtain ⟨hget, -⟩ := filter_eq_some_iff.1 ((SortedMap.get_filter ..).symm.trans hget)
    exact hold hget

/-- What holds of all owner records still does, if it holds of what the owner says. -/
theorem Change.owners_all {Q : OwnerAuditRecord → Prop} (hold : ∀ o ∈ engine.owners, Q o)
    (hnew : ∀ {id key value at'}, call.states = some (id, key, value, at') →
      ∀ sequence root, Q ⟨sequence, root, key, value, at'⟩) : ∀ o ∈ engine'.owners, Q o := by
  obtain heq | ⟨_, _, _, _, _, hcall, -, -, heq⟩ := h.effects.2.2
  · rw [heq]
    exact hold
  · rw [heq]
    exact forall_mem_concat.2 ⟨hold, hnew hcall _ _⟩

end

end Change

end IdentityEngine

variable {engine : IdentityEngine} {cfg : IdentityConfig} {ids : List DeviceId}

theorem cfg_of_new (h : IdentityEngine.new cfg ids = .ok engine) : engine.cfg = cfg := by
  unfold IdentityEngine.new at h
  split at h
  · cases h
  · cases h
    rfl

theorem storeOk_of_new (h : IdentityEngine.new cfg ids = .ok engine) : engine.StoreOk := by
  unfold IdentityEngine.new at h
  split at h
  · cases h
  cases h
  refine ⟨⟨Nat.zero_le _, by simp⟩, ⟨.nil, by simp, Nat.zero_le _, Nat.one_pos, ?_, Nat.zero_le _, ?_,
    Nat.zero_le _⟩, ⟨by simp, Nat.zero_le _, rfl, rfl⟩⟩
  · intro i
    exact get_empty i
  · intro i
    rfl

theorem storeOk_of_reachable (h : identityMachine.Reachable engine) : engine.StoreOk := by
  refine Machine.Via.invariant h ?_ ?_
  · rintro engine ⟨cfg, ids, hnew⟩
    exact storeOk_of_new hnew
  · rintro engine call engine' hok - hstep
    cases hstep
    exact hok.after call

end NeonHearth.Identity
