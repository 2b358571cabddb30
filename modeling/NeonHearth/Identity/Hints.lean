import NeonHearth.Identity.Restore

/-!
# Router hints have no authority

Two engines are given the same calls, except that the batches of facts differ in router hints.  The
answers are the same, and so are the proposals, the components and what the devices are identified as:
hints are stored, but matching and identification do not look at them.

Hints are not without any effect.  They count against the capacities, so both runs must be free of
capacity errors, and a hint that is not valid input makes its whole batch fail
(`invalidHint_refused`), so only valid hints may differ (`withoutHints`).

* `answers_of_valid_hints` : the statement about whole runs.
-/

namespace NeonHearth.Identity

open NeonHearth.Except List Option IdentityEngine SortedMap

/-! ### Answers -/

/-- What a call that succeeds returns. -/
inductive Answer where
  | done
  | device (id : DeviceId)
  | proposal (id : ℕ)
  | evicted (ids : List DeviceId)
  deriving DecidableEq

def IdentityError.isCapacity : IdentityError → Bool
  | .capacity _ => true
  | _ => false

/-- The result is a capacity error. -/
def overfull {α : Type} : Except IdentityError α → Bool
  | .error e => e.isCapacity
  | .ok _ => false

theorem overfull_map {α β : Type} (f : α → β) (result) :
    overfull (result.map f) = overfull result := by
  cases result <;> rfl

namespace IdentityEngine

def answer (engine : IdentityEngine) : IdentityCall → Except IdentityError Answer
  | .observeAt id facts now => (engine.observeAt id facts now).2.map .device
  | .addFactsAt id facts now => (engine.addFactsAt id facts now).2.map fun _ => .done
  | .proposeMerge a b score families reasons =>
    (engine.proposeMerge a b score families reasons).map fun r => .proposal r.2
  | .decide id d => (engine.decide id d).map fun _ => .done
  | .undo id => (engine.undo id).map fun _ => .done
  | .setOwnerFact id key value at' => (engine.setOwnerFact id key value at').map fun _ => .done
  | .clearOwnerFactAt id key at' => (engine.clearOwnerFactAt id key at').map fun _ => .done
  | .evictStaleAt now retention => (engine.evictStaleAt now retention).map fun r => .evicted r.2

/-- The engine after some calls, and the answers. -/
def play (engine : IdentityEngine) :
    List IdentityCall → IdentityEngine × List (Except IdentityError Answer)
  | [] => (engine, [])
  | call :: calls =>
    let (engine', answers) := play (engine.after call) calls
    (engine', engine.answer call :: answers)

end IdentityEngine

/-! ### Calls that differ in hints -/

/-- The facts that are not router hints. -/
def solid (facts : List EvidenceFact) : List EvidenceFact := facts.filter (·.family ≠ .routerHint)

/-- The facts that are not router hints which are valid input. -/
def unhinted (cfg : IdentityConfig) (facts : List EvidenceFact) : List EvidenceFact :=
  facts.filter fun f => ¬(f.family = .routerHint ∧ (prepareFact cfg f).isOk = true)

/-- The call without its valid hints. -/
def IdentityCall.withoutHints (cfg : IdentityConfig) : IdentityCall → IdentityCall
  | .observeAt id facts now => .observeAt id (unhinted cfg facts) now
  | .addFactsAt id facts now => .addFactsAt id (unhinted cfg facts) now
  | call => call

section Solid

variable {cfg : IdentityConfig} {facts facts' : List EvidenceFact} {now : DateTime}

theorem solid_append (l l') : solid (l ++ l') = solid l ++ solid l' :=
  filter_append ..

theorem solid_filter_live (l) : solid (l.filter (live · now)) = (solid l).filter (live · now) :=
  filter_comm ..

theorem prepareFact_family {f g} (h : prepareFact cfg f = .ok g) : g.family = f.family := by
  simp only [prepareFact, bind_eq_ok, pure_eq_ok] at h
  obtain ⟨-, -, -, -, -, -, -, -, value, -, rfl⟩ := h
  rfl

theorem map_solid_prepare_cons (cfg f facts) : (prepare cfg (f :: facts)).map solid =
    prepareFact cfg f >>= fun g => ((prepare cfg facts).map solid).map (solid [g] ++ ·) := by
  rw [prepare, mapM_cons]
  cases prepareFact cfg f with
  | error e => rfl
  | ok g =>
    change _ = ((facts.mapM (prepareFact cfg)).map solid).map _
    cases facts.mapM (prepareFact cfg) with
    | error e => rfl
    | ok prepared => exact congrArg Except.ok (solid_append [g] prepared)

/-- Valid hints do not matter for preparing the other facts. -/
theorem prepare_unhinted (cfg facts) :
    (prepare cfg (unhinted cfg facts)).map solid = (prepare cfg facts).map solid := by
  induction facts with
  | nil => rfl
  | cons f facts ih =>
    rw [map_solid_prepare_cons, unhinted, filter_cons]
    split_ifs with hkeep
    · rw [map_solid_prepare_cons, ← ih, unhinted]
    · rw [← unhinted, ih]
      obtain ⟨hhint, hok⟩ := not_not.1 (mt decide_eq_true hkeep)
      obtain ⟨g, hprepare⟩ : ∃ g, prepareFact cfg f = .ok g := by
        cases hprepare : prepareFact cfg f with
        | error e =>
          rw [hprepare] at hok
          cases hok
        | ok g => exact ⟨g, rfl⟩
      have hg : solid [g] = [] := by simp [solid, prepareFact_family hprepare, hhint]
      rw [hprepare]
      change _ = ((prepare cfg facts).map solid).map _
      rw [hg]
      cases prepare cfg facts <;> rfl

theorem filter_comparable (h : solid facts = solid facts') :
    facts.filter (comparable now) = facts'.filter (comparable now) := by
  have hsolid : ∀ l, l.filter (comparable now) = (solid l).filter (live · now) := by
    intro l
    rw [solid, List.filter_filter]
    rfl
  rw [hsolid, hsolid, h]

theorem matching_congr {old old' new new'} (hold : solid old = solid old')
    (hnew : solid new = solid new') : matching old new now cfg = matching old' new' now cfg := by
  have hcomparisons : comparisons old new now = comparisons old' new' now := by
    rw [comparisons, comparisons, filter_comparable hold, filter_comparable hnew]
  rw [matching, matching, hcomparisons]

end Solid

/-! ### Alike engines -/

/-- The same facts for every device, up to hints. -/
def SameButHints (m m' : SortedMap DeviceId (List EvidenceFact)) : Prop :=
  ∀ d, (m.get d).map solid = (m'.get d).map solid

section SameButHints

variable {m m' : SortedMap DeviceId (List EvidenceFact)} {d : DeviceId} {fs fs' : List EvidenceFact}

theorem SameButHints.none_iff (h : SameButHints m m') (d) : m'.get d = none ↔ m.get d = none := by
  rw [← map_eq_none_iff (f := solid), ← h d, map_eq_none_iff]

theorem SameButHints.insert (h : SameButHints m m') (hfs : solid fs = solid fs') :
    SameButHints (m.insert d fs) (m'.insert d fs') := by
  intro x
  rw [get_insert, get_insert]
  split_ifs
  · rw [map_some, map_some, hfs]
  · exact h x

end SameButHints

variable {e : IdentityError} {facts : List EvidenceFact}

namespace IdentityEngine

/-- Two engines that differ in hints only. -/
def Alike (engine engine' : IdentityEngine) : Prop :=
  ∃ facts, engine' = { engine with facts } ∧ SameButHints engine.facts facts

variable {engine engine' : IdentityEngine} {id : DeviceId} {c : List DeviceId} {now : DateTime}
  {incoming incoming' : List EvidenceFact}

theorem Alike.refl (engine) : Alike engine engine := ⟨engine.facts, rfl, fun _ => rfl⟩

theorem resolve_refacts {facts} (h : ∀ d, facts.get d = none ↔ engine.facts.get d = none) :
    { engine with facts }.resolve id = engine.resolve id := by
  rw [resolve, resolve, component_refacts h]

section

variable (h : Alike engine engine')
include h

theorem Alike.component (id) : engine'.component id = engine.component id := by
  obtain ⟨facts, rfl, hfacts⟩ := h
  exact component_refacts hfacts.none_iff

theorem Alike.resolve (id) : engine'.resolve id = engine.resolve id := by
  obtain ⟨facts, rfl, hfacts⟩ := h
  exact resolve_refacts hfacts.none_iff

theorem Alike.components : engine'.components = engine.components := by
  have hcomponent := h.component
  obtain ⟨facts, rfl, hfacts⟩ := h
  simp [components, hcomponent, keys_congr hfacts.none_iff]

theorem Alike.solid_factsOf (d) : solid (engine.factsOf d) = solid (engine'.factsOf d) := by
  obtain ⟨facts, rfl, hfacts⟩ := h
  have hd := hfacts d
  simp only [factsOf]
  cases hget : engine.facts.get d <;> cases hget' : facts.get d <;> simp_all

theorem Alike.solid_flatMap (c : List DeviceId) :
    solid (c.flatMap engine.factsOf) = solid (c.flatMap engine'.factsOf) := by
  induction c with
  | nil => rfl
  | cons d c ih => rw [flatMap_cons, flatMap_cons, solid_append, solid_append, h.solid_factsOf, ih]

theorem Alike.cfg : engine'.cfg = engine.cfg := by
  obtain ⟨facts, rfl, -⟩ := h
  rfl

theorem Alike.matchWith (hincoming : solid incoming = solid incoming') :
    engine.matchWith incoming now = engine'.matchWith incoming' now := by
  funext c
  simp [IdentityEngine.matchWith, h.cfg, matching_congr (h.solid_flatMap c) hincoming]

end

theorem Alike.pruned (h : SameButHints engine.facts engine'.facts) :
    SameButHints (engine.pruned c now) (engine'.pruned c now) := by
  have hcomm : (solid ∘ fun fs : List EvidenceFact => fs.filter (live · now)) =
      (fun fs => fs.filter (live · now)) ∘ solid :=
    funext solid_filter_live
  intro d
  rw [get_pruned, get_pruned]
  split_ifs
  · rw [Option.map_map, Option.map_map, hcomm, ← Option.map_map, ← Option.map_map, h d]
  · exact h d

/-! ### Storing -/

/-- The same answer, and alike engines after it. -/
def Agrees {α : Type} (outcome outcome' : IdentityEngine × Except IdentityError α) : Prop :=
  outcome.2 = outcome'.2 ∧ Alike outcome.1 outcome'.1

theorem Alike.store (h : Alike engine engine') (hincoming : solid incoming = solid incoming')
    (hroom : overfull (engine.store id incoming now).2 = false)
    (hroom' : overfull (engine'.store id incoming' now).2 = false) :
    Agrees (engine.store id incoming now) (engine'.store id incoming' now) := by
  have hstoring := store_storing engine id incoming now
  have hstoring' := store_storing engine' id incoming' now
  generalize engine.store id incoming now = outcome at hstoring hroom ⊢
  generalize engine'.store id incoming' now = outcome' at hstoring' hroom' ⊢
  have hcomponent := h.component id
  cases hstoring with
  | unknown hc =>
    cases hstoring' with
    | unknown hc' =>
      cases hc'.symm.trans (hcomponent.trans hc)
      exact ⟨rfl, h⟩
    | full hc' | stored hc' => cases hc'.symm.trans (hcomponent.trans hc)
  | full => cases hroom
  | @stored c fs hc hget =>
    cases hstoring' with
    | unknown hc' => cases hc'.symm.trans (hcomponent.trans hc)
    | full => cases hroom'
    | @stored c' fs' hc' hget' =>
      cases hc'.symm.trans (hcomponent.trans hc)
      obtain ⟨facts, rfl, hfacts⟩ := h
      refine ⟨rfl, _, rfl, (Alike.pruned hfacts).insert ?_⟩
      have hfs : solid fs = solid fs' := by
        have hid := hfacts id
        rw [hget, show facts.get id = some fs' from hget'] at hid
        exact some.inj hid
      rw [solid_append, solid_append, hincoming, solid_filter_live, solid_filter_live, hfs]

/-! ### Observing -/

theorem isCapacity_of_reject {p : Prop} [Decidable p] {what}
    (h : reject p (.capacity what) = .error e) : e.isCapacity = true := by
  rw [reject_eq_error] at h
  rw [← h.2]
  rfl

/-- A known device has a component, unless there is too much to search. -/
theorem isCapacity_of_component (hknown : engine.facts.get id ≠ none)
    (h : engine.component id = .error e) : e.isCapacity = true := by
  obtain h | ⟨-, -, h⟩ := bind_eq_error.1 h
  · rw [reject_eq_error, isNone_iff_eq_none] at h
    exact absurd h.1 hknown
  obtain h | ⟨-, -, h⟩ := bind_eq_error.1 h
  · exact isCapacity_of_reject h
  · cases h

theorem isCapacity_of_components (h : engine.components = .error e) : e.isCapacity = true := by
  obtain h | ⟨-, -, h⟩ := bind_eq_error.1 h
  · exact isCapacity_of_reject h
  obtain ⟨d, hd, out, hstep⟩ := foldlM_error h
  split_ifs at hstep
  · cases hstep
  · obtain hstep | ⟨c, -, hstep⟩ := bind_eq_error.1 hstep
    · exact isCapacity_of_component (mem_keys.1 hd) hstep
    · cases hstep

theorem isCapacity_of_refs (h : engine.refs c = .error e) : e.isCapacity = true := by
  obtain h | ⟨-, -, h⟩ := bind_eq_error.1 h
  · exact isCapacity_of_reject h
  · cases h

theorem refs_of_not_overfull {α : Type} {f : List EvidenceFact → Except IdentityError α}
    (h : overfull (engine.refs c >>= f) = false) : ∃ facts, engine.refs c = .ok facts := by
  cases hrefs : engine.refs c with
  | error e =>
    rw [hrefs] at h
    cases (isCapacity_of_refs hrefs).symm.trans h
  | ok facts => exact ⟨facts, rfl⟩

theorem isCapacity_of_findMatches (h : engine.findMatches incoming now = .error e) :
    e.isCapacity = true := by
  obtain h | ⟨-, -, h⟩ := bind_eq_error.1 h
  · exact isCapacity_of_reject h
  obtain h | ⟨comps, -, h⟩ := bind_eq_error.1 h
  · exact isCapacity_of_components h
  obtain h | ⟨acc, -, h⟩ := bind_eq_error.1 h
  · obtain ⟨c, -, acc, hstep⟩ := foldlM_error h
    obtain hstep | ⟨refs, -, hstep⟩ := bind_eq_error.1 hstep
    · exact isCapacity_of_refs hstep
    obtain hstep | ⟨-, -, hstep⟩ := bind_eq_error.1 hstep
    · exact isCapacity_of_reject hstep
    · cases hstep
  · cases h

section

variable (h : Alike engine engine') (hincoming : solid incoming = solid incoming')
include h hincoming

theorem Alike.findMatches {found found'} (hfound : engine.findMatches incoming now = .ok found)
    (hfound' : engine'.findMatches incoming' now = .ok found') : found = found' := by
  obtain ⟨-, -, comps, hcomps, rfl⟩ := findMatches_eq_ok hfound
  obtain ⟨-, -, comps', hcomps', rfl⟩ := findMatches_eq_ok hfound'
  cases hcomps.symm.trans (h.components.symm.trans hcomps')
  rw [h.matchWith hincoming]

/-- A new device gets the same id, or none for the same reason. -/
theorem Alike.enroll (found) :
    (∃ e, engine.enroll incoming found = .error e ∧ engine'.enroll incoming' found = .error e) ∨
      ∃ fresh result result', engine.enroll incoming found = .ok (result, fresh) ∧
        engine'.enroll incoming' found = .ok (result', fresh) ∧ Alike result result' := by
  obtain ⟨facts, rfl, hfacts⟩ := h
  cases hroom : engine.preprops found.length with
  | error e =>
    have hroom' : { engine with facts }.preprops found.length = .error e := hroom
    exact .inl ⟨e, by rw [enroll, hroom]; rfl, by rw [enroll, hroom']; rfl⟩
  | ok =>
  have hroom' : { engine with facts }.preprops found.length = .ok () := hroom
  cases hhead : engine.ids.head? with
  | none =>
    refine .inl ⟨.idSourceExhausted, ?_, ?_⟩
    · rw [enroll, hroom, hhead]
      rfl
    · rw [enroll, hroom']
      rw [hhead]
      rfl
  | some fresh =>
  by_cases hnew : engine.facts.get fresh = none
  · refine .inr ⟨fresh, _, _, enroll_eq_ok.2 ⟨hroom, hhead, hnew, rfl⟩,
      enroll_eq_ok.2 ⟨hroom', hhead, (hfacts.none_iff fresh).2 hnew, rfl⟩, ?_⟩
    rw [proposeAll_eq, proposeAll_eq]
    exact ⟨_, rfl, hfacts.insert hincoming⟩
  · have hnew' : facts.get fresh ≠ none := (hfacts.none_iff fresh).not.2 hnew
    refine .inl ⟨.invalidInput "duplicate id", ?_, ?_⟩
    · rw [enroll, hroom, hhead]
      simp [okOr, reject, bind, Except.bind, isSome_iff_ne_none, hnew]
    · rw [enroll, hroom']
      simp [okOr, reject, bind, Except.bind, isSome_iff_ne_none, hhead, hnew']

theorem Alike.storeFor (root : DeviceId)
    (hroom : overfull ((engine.store id incoming now).2.map fun _ => root) = false)
    (hroom' : overfull ((engine'.store id incoming' now).2.map fun _ => root) = false) :
    Agrees ((engine.store id incoming now).1, (engine.store id incoming now).2.map fun _ => root)
      ((engine'.store id incoming' now).1, (engine'.store id incoming' now).2.map fun _ => root) := by
  rw [overfull_map] at hroom hroom'
  obtain ⟨hresult, halike⟩ := h.store hincoming hroom hroom'
  exact ⟨congrArg (Except.map fun _ => root) hresult, halike⟩

theorem Alike.observeUnknown (hroom : overfull (engine.observeUnknown incoming now).2 = false)
    (hroom' : overfull (engine'.observeUnknown incoming' now).2 = false) :
    Agrees (engine.observeUnknown incoming now) (engine'.observeUnknown incoming' now) := by
  unfold IdentityEngine.observeUnknown at hroom hroom' ⊢
  cases hfound : engine.findMatches incoming now with
  | error e =>
    rw [hfound] at hroom
    cases (isCapacity_of_findMatches hfound).symm.trans hroom
  | ok found =>
  cases hfound' : engine'.findMatches incoming' now with
  | error e =>
    rw [hfound'] at hroom'
    cases (isCapacity_of_findMatches hfound').symm.trans hroom'
  | ok found' =>
  obtain rfl := h.findMatches hincoming hfound hfound'
  rw [hfound] at hroom
  rw [hfound'] at hroom'
  dsimp only at hroom hroom' ⊢
  cases hauto : automatic found with
  | some root =>
    rw [hauto] at hroom hroom'
    exact h.storeFor hincoming root hroom hroom'
  | none =>
    obtain ⟨e, henroll, henroll'⟩ | ⟨fresh, result, result', henroll, henroll', halike⟩ :=
      h.enroll hincoming found
    · rw [henroll, henroll']
      exact ⟨rfl, h⟩
    · rw [henroll, henroll']
      exact ⟨rfl, halike⟩

end

/-- The batches of two calls, prepared: they fail alike, or are the same up to hints. -/
theorem prepare_alike {cfg facts'} (hfacts : unhinted cfg facts = unhinted cfg facts') :
    (∃ e, prepare cfg facts = .error e ∧ prepare cfg facts' = .error e) ∨
      ∃ prepared prepared', prepare cfg facts = .ok prepared ∧ prepare cfg facts' = .ok prepared' ∧
        solid prepared = solid prepared' := by
  have hsolid : (prepare cfg facts).map solid = (prepare cfg facts').map solid := by
    rw [← prepare_unhinted, hfacts, prepare_unhinted]
  cases hprepare : prepare cfg facts with
  | error e =>
    rw [hprepare] at hsolid
    exact .inl ⟨e, rfl, map_eq_error.1 hsolid.symm⟩
  | ok prepared =>
    rw [hprepare] at hsolid
    obtain ⟨prepared', hprepare', heq⟩ := map_eq_ok.1 hsolid.symm
    exact .inr ⟨prepared, prepared', rfl, hprepare', heq.symm⟩

section Batches

variable {facts facts' : List EvidenceFact} (h : Alike engine engine')
  (hfacts : unhinted engine.cfg facts = unhinted engine.cfg facts')
include h hfacts

theorem Alike.observeAt (id : Option DeviceId)
    (hroom : overfull (engine.observeAt id facts now).2 = false)
    (hroom' : overfull (engine'.observeAt id facts' now).2 = false) :
    Agrees (engine.observeAt id facts now) (engine'.observeAt id facts' now) := by
  unfold IdentityEngine.observeAt at hroom hroom' ⊢
  rw [h.cfg] at hroom' ⊢
  obtain ⟨e, hprepare, hprepare'⟩ | ⟨prepared, prepared', hprepare, hprepare', hsolid⟩ :=
    prepare_alike hfacts
  · rw [hprepare, hprepare']
    exact ⟨rfl, h⟩
  rw [hprepare] at hroom ⊢
  rw [hprepare'] at hroom' ⊢
  cases id with
  | none => exact h.observeUnknown hsolid hroom hroom'
  | some device =>
    dsimp only at hroom hroom' ⊢
    rw [h.resolve] at hroom' ⊢
    cases hresolve : engine.resolve device with
    | error e => exact ⟨rfl, h⟩
    | ok root =>
      rw [hresolve] at hroom hroom'
      exact h.storeFor hsolid root hroom hroom'

theorem Alike.addFactsAt (hroom : overfull (engine.addFactsAt id facts now).2 = false)
    (hroom' : overfull (engine'.addFactsAt id facts' now).2 = false) :
    Agrees (engine.addFactsAt id facts now) (engine'.addFactsAt id facts' now) := by
  unfold IdentityEngine.addFactsAt at hroom hroom' ⊢
  rw [h.cfg] at hroom' ⊢
  obtain ⟨e, hprepare, hprepare'⟩ | ⟨prepared, prepared', hprepare, hprepare', hsolid⟩ :=
    prepare_alike hfacts
  · rw [hprepare, hprepare']
    exact ⟨rfl, h⟩
  · rw [hprepare] at hroom ⊢
    rw [hprepare'] at hroom' ⊢
    exact h.store hsolid hroom hroom'

end Batches

/-! ### The other calls -/

section Refacts

variable {facts : SortedMap DeviceId (List EvidenceFact)}

theorem decide_refacts (i : ℕ) (choice) : { engine with facts }.decide i choice =
    (engine.decide i choice).map fun r => { r with facts } := by
  unfold decide
  cases choice <;> simp only [Except.map_bind] <;> rfl

theorem undo_refacts (i : ℕ) :
    { engine with facts }.undo i = (engine.undo i).map fun r => { r with facts } := by
  simp only [undo, Except.map_bind]
  rfl

theorem owner_refacts (hresolve : { engine with facts }.resolve id = engine.resolve id) (key : String)
    (value at') : { engine with facts }.owner id key value at' =
      (engine.owner id key value at').map fun r => { r with facts } := by
  simp only [owner, Except.map_bind, hresolve]
  rfl

theorem proposeMerge_refacts (hresolve : ∀ id, { engine with facts }.resolve id = engine.resolve id)
    (a b) (score : F32) (families reasons) :
    { engine with facts }.proposeMerge a b score families reasons =
      (engine.proposeMerge a b score families reasons).map fun r => ({ r.1 with facts }, r.2) := by
  simp only [proposeMerge, Except.map_bind, hresolve]
  rfl

/-- A call that neither looks at the facts nor changes them. -/
theorem alike_of_refacts (h : Alike engine engine')
    {f : IdentityEngine → Except IdentityError IdentityEngine}
    (hf : ∀ facts, (∀ d, facts.get d = none ↔ engine.facts.get d = none) →
      f { engine with facts } = (f engine).map fun r => { r with facts }) :
    ((f engine).map fun _ => Answer.done) = ((f engine').map fun _ => .done) ∧
      Alike (engine.orSame (f engine)) (engine'.orSame (f engine')) := by
  obtain ⟨facts, rfl, hfacts⟩ := h
  rw [hf facts hfacts.none_iff]
  cases hresult : f engine with
  | error e => exact ⟨rfl, facts, rfl, hfacts⟩
  | ok r =>
    -- With the facts it has, the engine is given back with those.
    have hsame : f engine = (f engine).map fun r => { r with facts := engine.facts } :=
      hf engine.facts fun _ => Iff.rfl
    rw [hresult] at hsame
    have hr : r.facts = engine.facts := congrArg (·.facts) (Except.ok.inj hsame)
    exact ⟨rfl, facts, rfl, hr ▸ hfacts⟩

end Refacts

end IdentityEngine

variable {call : IdentityCall}

namespace IdentityCall

variable {cfg : IdentityConfig} {now : DateTime}

theorem observeAt_of_withoutHints {id}
    (h : (observeAt id facts now).withoutHints cfg = call.withoutHints cfg) :
    ∃ facts', call = .observeAt id facts' now ∧ unhinted cfg facts = unhinted cfg facts' := by
  cases call with
  | observeAt id' facts' now' =>
    obtain ⟨rfl, hfacts, rfl⟩ := observeAt.inj h
    exact ⟨facts', rfl, hfacts⟩
  | _ => cases h

theorem addFactsAt_of_withoutHints {id}
    (h : (addFactsAt id facts now).withoutHints cfg = call.withoutHints cfg) :
    ∃ facts', call = .addFactsAt id facts' now ∧ unhinted cfg facts = unhinted cfg facts' := by
  cases call with
  | addFactsAt id' facts' now' =>
    obtain ⟨rfl, hfacts, rfl⟩ := addFactsAt.inj h
    exact ⟨facts', rfl, hfacts⟩
  | _ => cases h

theorem eq_of_withoutHints {call'} (hbrings : call.brings = none)
    (h : call.withoutHints cfg = call'.withoutHints cfg) : call = call' := by
  cases call with
  | observeAt | addFactsAt => cases hbrings
  | _ =>
    cases call' with
    | observeAt | addFactsAt => cases h
    | _ => exact h

end IdentityCall

/-! ### Runs -/

variable {engine engine' : IdentityEngine}

open IdentityCall

/-- **One call**: it has the same answer in alike engines, and leaves them alike. -/
theorem IdentityEngine.Alike.step {call'}
    (h : Alike engine engine')
    (hcalls : call.withoutHints engine.cfg = call'.withoutHints engine.cfg)
    (hevict : ∀ now retention, call ≠ .evictStaleAt now retention)
    (hroom : overfull (engine.answer call) = false)
    (hroom' : overfull (engine'.answer call') = false) :
    engine.answer call = engine'.answer call' ∧ Alike (engine.after call) (engine'.after call') := by
  cases call with
  | observeAt id facts now =>
    obtain ⟨facts', rfl, hfacts⟩ := observeAt_of_withoutHints hcalls
    obtain ⟨hresult, halike⟩ := h.observeAt hfacts id
      ((overfull_map ..).symm.trans hroom) ((overfull_map ..).symm.trans hroom')
    exact ⟨congrArg (Except.map Answer.device) hresult, halike⟩
  | addFactsAt id facts now =>
    obtain ⟨facts', rfl, hfacts⟩ := addFactsAt_of_withoutHints hcalls
    obtain ⟨hresult, halike⟩ := h.addFactsAt hfacts
      ((overfull_map ..).symm.trans hroom) ((overfull_map ..).symm.trans hroom')
    exact ⟨congrArg (Except.map fun _ => Answer.done) hresult, halike⟩
  | proposeMerge a b score families reasons =>
    obtain rfl := eq_of_withoutHints rfl hcalls
    have hrefacts := fun facts hknown => @proposeMerge_refacts engine facts
      (fun id => resolve_refacts hknown) a b score families reasons
    refine ⟨?_, (alike_of_refacts h
      (f := fun x => (x.proposeMerge a b score families reasons).map Prod.fst)
      fun facts hknown => ?_).2⟩
    · obtain ⟨facts, rfl, hfacts⟩ := h
      simp only [answer, hrefacts facts hfacts.none_iff]
      cases engine.proposeMerge a b score families reasons <;> rfl
    · rw [hrefacts facts hknown]
      cases engine.proposeMerge a b score families reasons <;> rfl
  | decide i choice =>
    obtain rfl := eq_of_withoutHints rfl hcalls
    exact alike_of_refacts h (f := fun x => x.decide i choice)
      fun _ _ => decide_refacts i choice
  | undo i =>
    obtain rfl := eq_of_withoutHints rfl hcalls
    exact alike_of_refacts h (f := fun x => x.undo i) fun _ _ => undo_refacts i
  | setOwnerFact id key value at' =>
    obtain rfl := eq_of_withoutHints rfl hcalls
    exact alike_of_refacts h (f := fun x => x.owner id key (some value) at')
      fun _ hknown => owner_refacts (resolve_refacts hknown) key (some value) at'
  | clearOwnerFactAt id key at' =>
    obtain rfl := eq_of_withoutHints rfl hcalls
    exact alike_of_refacts h (f := fun x => x.owner id key none at')
      fun _ hknown => owner_refacts (resolve_refacts hknown) key none at'
  | evictStaleAt now retention => exact absurd rfl (hevict now retention)

/-- What an identification needs is the same. -/
theorem IdentityEngine.Alike.identificationAt (h : Alike engine engine') {id now}
    (hroom : overfull (engine.identificationAt id now) = false)
    (hroom' : overfull (engine'.identificationAt id now) = false) :
    engine.identificationAt id now = engine'.identificationAt id now := by
  unfold IdentityEngine.identificationAt at hroom hroom' ⊢
  rw [h.component] at hroom' ⊢
  cases hc : engine.component id with
  | error e => rfl
  | ok c =>
  rw [hc] at hroom hroom'
  obtain ⟨facts, hrefs⟩ := refs_of_not_overfull hroom
  obtain ⟨facts', hrefs'⟩ := refs_of_not_overfull hroom'
  have hsolid : solid facts = solid facts' := by
    rw [refs_eq_ok hrefs, refs_eq_ok hrefs', h.solid_flatMap]
  have hcomparable : facts.filter (comparable now) = facts'.filter (comparable now) :=
    filter_comparable hsolid
  obtain ⟨stored, rfl, -⟩ := h
  simp only [bind, Except.bind, hrefs, hrefs', hcomparable]
  rfl

/-- **Hints have no authority**: two runs of the same engine whose calls differ only in valid router
hints, without capacity errors and without evictions, have the same answers, and at the end the same
proposals, components and identifications. -/
theorem answers_of_valid_hints {cfg : IdentityConfig} {ids : List DeviceId} {engine₀ : IdentityEngine}
    (hnew : new cfg ids = .ok engine₀) {calls calls' : List IdentityCall}
    (hcalls : List.Forall₂ (fun call call' => call.withoutHints cfg = call'.withoutHints cfg)
      calls calls')
    (hevict : ∀ call ∈ calls, ∀ now retention, call ≠ .evictStaleAt now retention)
    (hroom : ∀ answer ∈ (engine₀.play calls).2 ++ (engine₀.play calls').2, overfull answer = false) :
    (engine₀.play calls).2 = (engine₀.play calls').2 ∧
    (engine₀.play calls).1.proposals = (engine₀.play calls').1.proposals ∧
    (∀ id, (engine₀.play calls).1.component id = (engine₀.play calls').1.component id) ∧
    ∀ id now, overfull ((engine₀.play calls).1.identificationAt id now) = false →
      overfull ((engine₀.play calls').1.identificationAt id now) = false →
      (engine₀.play calls).1.identificationAt id now =
        (engine₀.play calls').1.identificationAt id now := by
  have hrun : ∀ engine engine' : IdentityEngine, engine.Alike engine' → engine.cfg = cfg →
      engine.StoreOk →
      (∀ answer ∈ (engine.play calls).2 ++ (engine'.play calls').2, overfull answer = false) →
      (engine.play calls).2 = (engine'.play calls').2 ∧
        (engine.play calls).1.Alike (engine'.play calls').1 := by
    clear hroom
    induction hcalls with
    | nil =>
      intro engine engine' halike _ _ _
      exact ⟨rfl, halike⟩
    | @cons call call' calls calls' hcall _ ih =>
      intro engine engine' halike hcfg hstore hroom
      obtain ⟨hanswer, halike⟩ := halike.step (hcfg ▸ hcall) (hevict call mem_cons_self)
        (hroom _ (by simp [play])) (hroom _ (by simp [play]))
      have hchange := hstore.change call
      obtain ⟨hanswers, hlast⟩ := ih (fun x hx => hevict x (mem_cons_of_mem _ hx)) _ _ halike
        (hchange.cfg.trans hcfg) (hstore.of_change hchange)
        fun x hx => hroom x (by simp [play] at hx ⊢; tauto)
      exact ⟨congrArg₂ List.cons hanswer hanswers, hlast⟩
  obtain ⟨hanswers, halike⟩ := hrun engine₀ engine₀ (.refl _) (cfg_of_new hnew) (storeOk_of_new hnew) hroom
  refine ⟨hanswers, ?_, fun id => (halike.component id).symm, fun id now => halike.identificationAt⟩
  obtain ⟨facts, heq, -⟩ := halike
  rw [heq]

/-- A router's name for a device. -/
def labelled (label : String) : EvidenceFact := sureFact .routerHint "label" label

/-- A fact with a key that hints may not have. -/
def invalidHint : EvidenceFact := sureFact .routerHint "mac" "02:00:00:00:00:01"

/-- Two devices with one serial number, what the router calls them, and a batch that is refused. -/
def labelledDevices : List IdentityCall :=
  [.observeAt none [sureFact .service "serial" "s-1", labelled "printer"] (halfSecond 0),
    .observeAt none [labelled "printer", sureFact .service "serial" "s-1"] (halfSecond 2),
    .addFactsAt 1 [labelled "camera", invalidHint] (halfSecond 4),
    .decide 1 .accept]

theorem labelledDevices_answers :
    let calls' := labelledDevices.map (·.withoutHints .default)
    ∃ engine₀, new .default [1, 2] = .ok engine₀ ∧ (engine₀.play labelledDevices).2 =
      [.ok (.device 1), .ok (.device 2), .error (.invalidInput "taxonomy"), .ok .done] ∧
    (engine₀.play labelledDevices).2 = (engine₀.play calls').2 := by
  intro calls'
  obtain ⟨engine₀, hnew, hanswers, hroom⟩ : ∃ engine₀, new .default [1, 2] = .ok engine₀ ∧
      (engine₀.play labelledDevices).2 =
        [.ok (.device 1), .ok (.device 2), .error (.invalidInput "taxonomy"), .ok .done] ∧
      ∀ answer ∈ (engine₀.play labelledDevices).2 ++ (engine₀.play calls').2,
        overfull answer = false := by
    decide +kernel
  have hcalls := answers_of_valid_hints hnew (by repeat constructor) (by simp [labelledDevices]) hroom
  exact ⟨engine₀, hnew, hanswers, hcalls.1⟩

/-- An invalid hint makes its whole batch fail, and the device is not enrolled. -/
theorem invalidHint_refused :
    let batch := [sureFact .service "serial" "s-1"]
    solid (batch ++ [invalidHint]) = solid batch ∧
    ((new .default [1]).toOption.map fun engine₀ =>
      (engine₀.answer (.observeAt none batch (halfSecond 0)),
        engine₀.answer (.observeAt none (batch ++ [invalidHint]) (halfSecond 0)))) =
      some (.ok (.device 1), .error (.invalidInput "taxonomy")) := by
  decide +kernel

end NeonHearth.Identity
