import NeonHearth.Identity.Calls
import NeonHearth.Identity.Checkpoint

/-!
# Restoring the identity engine

The reader of checkpoints asks more than the calls of the engine check.  A run whose calls meet
`Keeps` leads to engines that can be restored:

* facts do not expire before they are observed, and there is room for a hardware address in full;
* a device that facts match at all they match with confidence, since the match becomes a proposal, and
  a proposal must name a family;
* no device is to be merged with itself;
* the owner's keys are no longer than other keys.

The ids for new devices must also be distinct.  For each of these there is a run without it that
cannot be restored (`unrestorable_runs`).
-/

namespace NeonHearth.Identity

open SortedMap List IdentityEngine

namespace IdentityEngine

/-! ### The condition -/

/-- By default the quantifier is decided over all ids there are. -/
instance (priority := high) {p : DeviceId → Prop} [DecidablePred p] (c : List DeviceId) :
    Decidable (∀ d ∈ c, p d) :=
  List.decidableBAll p c

/-- Every component that matches the facts matches some of them with confidence. -/
def MatchesStrongly (engine : IdentityEngine) (prepared : List EvidenceFact) (now : DateTime) : Prop :=
  match engine.components with
  | .error _ => True
  | .ok comps => ∀ c ∈ comps,
    (∃ p ∈ comparisons (c.flatMap engine.factsOf) prepared now, agrees p = true) →
      ∃ p ∈ comparisons (c.flatMap engine.factsOf) prepared now, agreesStrongly engine.cfg p = true

instance (engine : IdentityEngine) (prepared : List EvidenceFact) (now : DateTime) :
    Decidable (engine.MatchesStrongly prepared now) := by
  unfold MatchesStrongly
  split <;> infer_instance

/-- The call leads to an engine that can be restored. -/
def Keeps (engine : IdentityEngine) : IdentityCall → Prop
  | .observeAt id facts now => (∀ f ∈ facts, Keepable engine.cfg f) ∧ (id = none →
      match prepare engine.cfg facts with
      | .error _ => True
      | .ok prepared => engine.MatchesStrongly prepared now)
  | .addFactsAt _ facts _ => ∀ f ∈ facts, Keepable engine.cfg f
  | .proposeMerge a b _ _ _ => a ≠ b
  | .setOwnerFact _ key _ _ | .clearOwnerFactAt _ key _ => key.utf8ByteSize ≤ engine.cfg.maxKeyLen
  | .decide _ _ | .undo _ | .evictStaleAt _ _ => True

instance (engine : IdentityEngine) (call : IdentityCall) : Decidable (engine.Keeps call) := by
  cases call <;> dsimp only [Keeps]
  case observeAt id facts now => cases prepare engine.cfg facts <;> infer_instance
  all_goals infer_instance

variable {engine : IdentityEngine} {call : IdentityCall}

theorem Keeps.keepable (h : engine.Keeps call) {facts now}
    (hcall : call.brings = some (facts, now)) :
    ∀ f ∈ facts, Keepable engine.cfg f := by
  cases call with
  | observeAt =>
    cases hcall
    exact h.1
  | addFactsAt =>
    cases hcall
    exact h
  | _ => cases hcall

theorem Keeps.factOk (h : engine.Keeps call)
    {facts prepared now} (hcall : call.brings = some (facts, now))
    (hprepare : prepare engine.cfg facts = .ok prepared) : ∀ f ∈ prepared, FactOk engine.cfg f := by
  intro f hf
  obtain ⟨g, hg, hfact⟩ := mem_prepare hprepare hf
  exact factOk_of_prepareFact engine.cfg_valid hfact (h.keepable hcall g hg)

theorem Keeps.key_le (h : engine.Keeps call) {id key value at'}
    (hcall : call.states = some (id, key, value, at')) :
    key.utf8ByteSize ≤ engine.cfg.maxKeyLen := by
  cases call with
  | setOwnerFact | clearOwnerFactAt =>
    cases hcall
    exact h
  | _ => cases hcall

end IdentityEngine

/-! ### What the calls keep -/

section IdsOk

variable {cfg : IdentityConfig} {facts facts' : SortedMap DeviceId (List EvidenceFact)}
  {ids : List DeviceId}

theorem IdsOk.mono (h : IdsOk cfg facts ids) (hsize : facts'.size ≤ facts.size)
    (hnone : ∀ d, facts.get d = none → facts'.get d = none) : IdsOk cfg facts' ids :=
  ⟨h.nodup, fun id hid => hnone id (h.fresh id hid), (Nat.add_le_add_right hsize _).trans h.room⟩

theorem IdsOk.addDevice (h : IdsOk cfg facts ids) {fresh} (hhead : ids.head? = some fresh)
    {fs} : IdsOk cfg (facts.insert fresh fs) ids.tail := by
  obtain ⟨rest, rfl⟩ := List.head?_eq_some_iff.1 hhead
  obtain ⟨hnew, hnodup⟩ := nodup_cons.1 h.nodup
  have hfresh := h.fresh fresh mem_cons_self
  refine ⟨hnodup, fun id hid => ?_, ?_⟩
  · have hne : id ≠ fresh := ne_of_mem_of_not_mem hid hnew
    rw [get_insert, if_neg hne]
    exact h.fresh id (mem_cons_of_mem _ hid)
  · have hroom := h.room
    rw [length_cons] at hroom
    rw [size_insert, if_pos hfresh, tail_cons]
    omega

end IdsOk

theorem Proposable.restatus {p} (h : Proposable p) {id : ℕ}
    {old status} : Proposable (restatus id old status p) := by
  unfold Identity.restatus
  split_ifs
  · exact ⟨h.ne, h.valid⟩
  · exact h

namespace IdentityEngine

variable {engine : IdentityEngine} {incoming : List EvidenceFact} {now : DateTime}

theorem Restorable.confidence (h : engine.Restorable) {c : List DeviceId} :
    ∀ f ∈ c.flatMap engine.factsOf, f.confidence.isConfidence = true := by
  intro f hf
  obtain ⟨d, -, hf⟩ := mem_flatMap.1 hf
  obtain ⟨fs, hget, hf⟩ := mem_factsOf.1 hf
  exact (h.facts_ok hget f hf).confidence

theorem Restorable.proposable_of_found (h : engine.Restorable)
    (hincoming : ∀ f ∈ incoming, FactOk engine.cfg f) (hstrong : engine.MatchesStrongly incoming now)
    {x c} (hx : Found engine incoming now x c) :
    validprop x.2.score (sortfam x.2.families) (sortReasons x.2.reasons) = .ok () := by
  obtain ⟨comps, hcomps, hc⟩ := hx.listed
  have hany := hx.any
  rw [hx.eq, any_matching] at hany
  rw [MatchesStrongly, hcomps] at hstrong
  have hvalid := validprop_matching h.confidence (fun f hf => (hincoming f hf).confidence)
    (hstrong c hc hany)
  rw [hx.eq]
  exact validprop_sorted hvalid

variable {call : IdentityCall} {engine' : IdentityEngine}

theorem IdsOk.of_change (h : IdsOk engine.cfg engine.facts engine.ids)
    (hchange : Change engine call engine') : IdsOk engine'.cfg engine'.facts engine'.ids := by
  rw [hchange.cfg]
  have hrefiling := hchange.refiling
  generalize engine'.facts = facts', engine'.ids = ids' at hrefiling ⊢
  cases hrefiling with
  | same => exact h
  | stored _ _ _ hstoring =>
    obtain ⟨facts, heq, hnone, -⟩ := hstoring.refacts
    rw [heq]
    exact h.mono (size_congr hnone).le fun d => (hnone d).2
  | enrolled _ _ hhead => exact h.addDevice hhead
  | evicted =>
    refine h.mono (size_filter_le _ _) fun d hnone => ?_
    rw [get_filter, hnone, Option.filter_none]

section

variable (h : engine.Restorable) (hkeeps : engine.Keeps call) (hchange : Change engine call engine')
include h hkeeps hchange

/-- The proposals after a call can be restored, too. -/
theorem Restorable.proposable : ∀ p ∈ engine'.proposals, Proposable p := by
  -- The proposals after a decision are the old ones, up to a status.
  have hrestatus : ∀ i old status, ∀ p ∈ setStatus engine.proposals i old status, Proposable p := by
    intro i old status p hp
    rw [setStatus_eq_map h.merges.proposals_lt] at hp
    obtain ⟨q, hq, rfl⟩ := mem_map.1 hp
    exact (h.proposals_ok q hq).restatus
  cases hchange with
  | same => exact h.proposals_ok
  | stored _ _ _ hstoring =>
    obtain ⟨facts, heq, -⟩ := hstoring.refacts
    rw [heq]
    exact h.proposals_ok
  | @enrolled facts prepared now found fresh _ hcall hprepare hfound _ henroll =>
    subst hcall
    have hstrong : engine.MatchesStrongly prepared now := by
      have hmatches := hkeeps.2 rfl
      rwa [hprepare] at hmatches
    obtain ⟨-, -, hnew, rfl⟩ := enroll_eq_ok.1 henroll
    rw [proposeAll_eq]
    intro p hp
    obtain hp | hp := mem_append.1 hp
    · exact h.proposals_ok p hp
    · obtain ⟨⟨x, i⟩, hx, rfl⟩ := mem_map.1 hp
      obtain ⟨c, hc⟩ := found_of_mem hfound x (fst_mem_of_mem_zipIdx hx)
      have hne : x.1 ≠ fresh := fun heq => hc.known h.toStoreOk (heq ▸ hnew)
      exact ⟨hne, h.proposable_of_found (hkeeps.factOk rfl hprepare) hstrong hc⟩
  | proposed hcall hpropose =>
    subst hcall
    obtain ⟨-, -, hvalid, -, rfl⟩ := proposeMerge_eq_ok.1 hpropose
    exact forall_mem_concat.2 ⟨h.proposals_ok, hkeeps, validprop_sorted hvalid⟩
  | decided _ _ _ _ hdeciding =>
    cases hdeciding with
    | accepted | rejected => exact hrestatus _ _ _
  | undone => exact hrestatus _ _ _
  | said _ howner =>
    obtain ⟨root, -, -, -, -, rfl⟩ := owner_eq_ok.1 howner
    exact h.proposals_ok
  | evicted _ hevict =>
    obtain ⟨cutoff, comps, -, -, rfl⟩ := evictStaleAt_eq_ok.1 hevict
    split_ifs
    · exact h.proposals_ok
    · exact fun p hp => h.proposals_ok p (mem_of_mem_filter hp)

theorem Restorable.of_change : engine'.Restorable where
  toStoreOk := h.toStoreOk.of_change hchange
  ids := IdsOk.of_change h.ids hchange
  facts_ok := by
    rw [hchange.cfg]
    refine hchange.facts_all h.facts_ok fun hcall f hf g hg => ?_
    exact factOk_of_prepareFact engine.cfg_valid hg (hkeeps.keepable hcall f hf)
  proposals_ok := h.proposable hkeeps hchange
  keys_le := by
    rw [hchange.cfg]
    exact hchange.owners_all h.keys_le fun hcall _ _ => hkeeps.key_le hcall

end

end IdentityEngine

theorem restorable_of_new {cfg ids engine}
    (hids : (ids.take cfg.maxDevices).Nodup) (hnew : new cfg ids = .ok engine) :
    engine.Restorable := by
  have hstore := storeOk_of_new hnew
  unfold new at hnew
  split at hnew
  · cases hnew
  · cases hnew
    refine ⟨hstore, ⟨hids, by simp, ?_⟩, by simp, by simp, by simp⟩
    exact (Nat.zero_add _).trans_le (length_take_le _ _)

/-- **The round trip**: an engine that starts with distinct ids and is called in ways that keep it
restorable reads back as itself at any time. -/
theorem fromCheckpoint_of_keeps {cfg : IdentityConfig} {ids : List DeviceId}
    {engine₀ engine : IdentityEngine} {calls : List IdentityCall}
    (hids : (ids.take cfg.maxDevices).Nodup) (hnew : new cfg ids = .ok engine₀)
    (hkeeps : identityMachine.Guarded IdentityEngine.Keeps engine₀ calls)
    (hexec : identityMachine.exec engine₀ calls = some engine) :
    fromCheckpoint cfg engine.checkpoint = .ok engine := by
  have hinvariant : engine.Restorable ∧ engine.cfg = cfg := by
    refine Machine.exec_invariant (I := fun engine => engine.Restorable ∧ engine.cfg = cfg) ?_
      ⟨restorable_of_new hids hnew, cfg_of_new hnew⟩ hkeeps hexec
    rintro engine call engine' ⟨hok, hcfg⟩ hkeeps hstep
    cases hstep
    have hchange := hok.toStoreOk.change call
    exact ⟨hok.of_change hkeeps hchange, hchange.cfg.trans hcfg⟩
  obtain ⟨hok, rfl⟩ := hinvariant
  exact fromCheckpoint_checkpoint hok

/-- A fact with confidence 1. -/
def sureFact (family : EvidenceFamily) (key value : String) : EvidenceFact where
  family
  source := "sensor"
  key
  value
  confidence := .one
  observedAt := halfSecond 0
  expiresAt := none
  ownerConfirmed := false

/-- What holds after a run that succeeds, in a reachable engine. -/
theorem reachable_of_run (cfg ids calls)
    {p : IdentityEngine → Prop} (h : ∃ engine₀, new cfg ids = .ok engine₀ ∧
      ∃ engine, identityMachine.exec engine₀ calls = some engine ∧ p engine) :
    ∃ engine, identityMachine.Reachable engine ∧ p engine := by
  obtain ⟨engine₀, hnew, h⟩ := h
  exact Machine.exists_reachable ⟨_, _, hnew⟩ calls h

/-- Two devices with one serial number, merged by the owner. -/
def mergedDevices : List IdentityCall :=
  [.observeAt none [sureFact .service "serial" "s-1", sureFact .linkLayer "mac" "02:00:00:00:00:01"]
      (halfSecond 0), .observeAt none [sureFact .service "serial" "s-1"] (halfSecond 2),
    .decide 1 .accept, .setOwnerFact 2 "room" "kitchen" (halfSecond 4)]

theorem mergedDevices_restored : ∃ engine₀ engine : IdentityEngine,
    new .default [1, 2, 3] = .ok engine₀ ∧
    identityMachine.exec engine₀ mergedDevices = some engine ∧
    engine.facts.size = 2 ∧ engine.edges.size = 1 ∧ engine.owners.length = 1 ∧
    fromCheckpoint .default engine.checkpoint = .ok engine := by
  obtain ⟨engine₀, hnew, engine, hexec, hfacts, hedges, howners, hkeeps⟩ :
      ∃ engine₀, new .default [1, 2, 3] = .ok engine₀ ∧
        ∃ engine, identityMachine.exec engine₀ mergedDevices = some engine ∧
          engine.facts.size = 2 ∧ engine.edges.size = 1 ∧ engine.owners.length = 1 ∧
          identityMachine.Guarded IdentityEngine.Keeps engine₀ mergedDevices := by decide +kernel
  exact ⟨engine₀, engine, hnew, hexec, hfacts, hedges, howners,
    fromCheckpoint_of_keeps (by decide) hnew hkeeps hexec⟩

/-- The answer of the reader after successful calls. -/
def restart (cfg : IdentityConfig) (ids : List DeviceId) (calls : List IdentityCall) :
    Except IdentityError (Except IdentityError Unit) := do
  let engine ← new cfg ids
  let engine ← calls.foldlM attempt engine
  pure ((fromCheckpoint cfg engine.checkpoint).map fun _ => ())

/-- A fact expires before it is observed. -/
def expiredFact : List IdentityCall :=
  [.observeAt none [{ sureFact .service "serial" "s-1" with
    observedAt := halfSecond 4, expiresAt := some (halfSecond 2) }] (halfSecond 4)]

/-- Two devices share a serial number, with little confidence. -/
def weakMatch : List IdentityCall :=
  let weak := { sureFact .service "serial" "s-1" with confidence := F32.one.quarter }
  [.observeAt none [weak] (halfSecond 0), .observeAt none [weak] (halfSecond 2)]

/-- A device is to be merged with itself. -/
def selfMerge : List IdentityCall :=
  [.observeAt none [sureFact .service "serial" "s-1"] (halfSecond 0),
    .proposeMerge 1 1 .one [.service] ["same"]]

/-- The dots of a hardware address become colons, and more of them. -/
def dottedMac : List IdentityCall :=
  [.observeAt none [sureFact .linkLayer "mac" "0200.0000.0001"] (halfSecond 0)]

/-- The owner's key is longer than the keys of facts may be. -/
def longKey : List IdentityCall :=
  [.observeAt none [sureFact .linkLayer "mac" "02:00:00:00:00:01"] (halfSecond 0),
    .setOwnerFact 1 "firmware" "2" (halfSecond 2)]

/-- Runs of successful calls after which the engine cannot be restored. -/
theorem unrestorable_runs :
    restart .default [1] expiredFact = .ok (.error (.invalidCheckpoint "fact time")) ∧
    restart .default [1, 2] weakMatch = .ok (.error (.invalidInput "proposal families")) ∧
    restart .default [1] selfMerge = .ok (.error (.invalidCheckpoint "proposal")) ∧
    restart { IdentityConfig.default with maxValueLen := 16 } [1] dottedMac =
      .ok (.error (.invalidInput "field bounds")) ∧
    restart { IdentityConfig.default with maxKeyLen := 4 } [1] longKey =
      .ok (.error (.invalidCheckpoint "owner audit")) ∧
    restart .default [1, 1] [] = .ok (.error (.invalidCheckpoint "duplicate id")) := by
  decide +kernel

end NeonHearth.Identity
