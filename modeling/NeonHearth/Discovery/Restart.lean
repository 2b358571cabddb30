import NeonHearth.Discovery.Pipeline
import NeonHearth.Identity.Restore
import NeonHearth.Presence.Trace
import NeonHearth.System.Transducer

/-!
# Restarting discovery

A service that restarts opens its pipeline on the database of the one before.  In a run of observations
of neighbours, without changes of the rollups, the pipeline that it opens is the one that it had
(`reopened_of_inEra`): the same engines with the same sequence number, and so the same answers to all
that follows.

The observations arrive when they are made, and for one device one after another (`Run.InOrder`).
Three things are asked beyond that.  The ids for new devices are distinct, or the identity engine is
not read back.  The observations are made in the years 0 to 9999, or the time of the checkpoint is not
(`noticed_restarts`).  And the ticks of what follows do not go back, since the last tick is
forgotten in a restart.

`Run.Kept` is what every step keeps: the engines can be restored, and the database holds their
checkpoint.
-/

namespace NeonHearth.Discovery

open NeonHearth.Except Option PersistentDiscoveryPipeline DiscoveryPipeline Identity List Presence

open NeonHearth.Flow (FlowLiveAdapter)
open NeonHearth.Identity (IdentityConfig IdentityEngine)
open NeonHearth.Presence (PresenceEngine PresenceEvidence PresenceInv inEra)

variable {Bytes Digest : Type}

/-! ### Runs -/

/-- An observation of a neighbour, without changes of the rollups. -/
structure LinkCall where
  observation : LinkPresenceObservation
  tickMs : ℕ
  arrival : DateTime
  faults : Faults

/-- The service answers calls, and a failed call changes nothing. -/
def linkTransducer [DecidableEq Bytes] [DecidableEq Digest] (lib : PipelineLibraries Bytes Digest) :
    Transducer (Service Bytes Digest) LinkCall (Except DiscoveryError DiscoveryPipelineOutcome) where
  step s call :=
    match s.observeLinkPresenceWithFlow lib call.observation [] call.tickMs call.arrival
        call.faults with
    | .ok (outcome, s') => (s', .ok outcome)
    | .error e => (s, .error e)

/-- A service with the devices that it has committed observations of, and the times of these. -/
structure Run (Bytes Digest : Type) extends Service Bytes Digest where
  seen : List (DeviceId × DateTime)

inductive LinkEvent where
  | call (call : LinkCall)
  /-- The service restarts. -/
  | reopen

/-- The device that an observation is about. -/
def Service.deviceOf (s : Service Bytes Digest) (o : LinkPresenceObservation) : Option DeviceId := do
  let source ← (s.linkSource o.sourceId).toOption
  let input ← (s.linkObservation o source).toOption
  (s.memory.pipeline.identity.observeAt input.candidate input.facts input.observedAt).2.toOption

namespace Run

/-- The device of an answer, if it tells of a commit. -/
def newlySeen (o : LinkPresenceObservation) :
    Except DiscoveryError DiscoveryPipelineOutcome → List (DeviceId × DateTime)
  | .ok (.committed result _ _) => [(result.deviceId, o.observedAt)]
  | _ => []

def step [DecidableEq Bytes] [DecidableEq Digest] (lib : PipelineLibraries Bytes Digest)
    (setup : Setup) (ids : List DeviceId) (run : Run Bytes Digest) :
    LinkEvent → Option (Run Bytes Digest)
  | .call call =>
    let (service, answer) := (linkTransducer lib).step run.toService call
    some ⟨service, newlySeen call.observation answer ++ run.seen⟩
  | .reopen =>
    (openOn lib setup run.db ids).toOption.map fun memory =>
      { run with memory }

/-- The observation arrives when it is made, after all earlier ones of its device. -/
def InOrder (run : Run Bytes Digest) : LinkEvent → Prop
  | .call call => call.arrival = call.observation.observedAt ∧
    ∀ seen ∈ run.seen, run.deviceOf call.observation = some seen.1 →
      seen.2 < call.observation.observedAt
  | .reopen => True

/-- The observation arrives in a year that can be read back. -/
def InEra (_ : Run Bytes Digest) : LinkEvent → Prop
  | .call call => inEra call.arrival
  | .reopen => True

end Run

/-- All runs of a service, from an empty database. -/
def linkMachine [DecidableEq Bytes] [DecidableEq Digest] (lib : PipelineLibraries Bytes Digest)
    (setup : Setup) (ids : List DeviceId) : Machine (Run Bytes Digest) LinkEvent where
  init run := openOn lib setup .empty ids = .ok run.memory ∧
    run.db = .empty ∧ run.seen = []
  step := Run.step lib setup ids

/-- The tick of a call does not go back. -/
def Service.TickFollows (s : Service Bytes Digest) (call : LinkCall) : Prop :=
  s.memory.live.Follows call.tickMs
  deriving Decidable

/-! ### What the engines are told -/

/-- An observation of a neighbour: a new fact or a known device, and evidence that controls nothing. -/
structure IsLink (o : LinkPresenceObservation) (source : String) (input : DiscoveryObservation) :
    Prop where
  observedAt : input.observedAt = o.observedAt
  kind : input.presenceKind = .neighborCache ∨ input.presenceKind = .confirmationFailure
  facts : input.facts = [] ∧ input.candidate ≠ none ∨ input.facts = [linkFact o source]

variable {input : DiscoveryObservation} {source : String} {o : LinkPresenceObservation}

theorem isLink_of_linkInput {binding} (h : linkInput o source binding = .ok input) :
    IsLink o source input := by
  unfold linkInput at h
  split at h
  · cases h
    refine ⟨rfl, .inl rfl, ?_⟩
    by_cases hbinding : binding = none
    · exact .inr (if_pos hbinding)
    · exact .inl ⟨if_neg hbinding, hbinding⟩
  · obtain ⟨id, -, h⟩ := bind_eq_ok.1 h
    cases h
    exact ⟨rfl, .inr rfl, .inl ⟨rfl, by simp⟩⟩

variable {result : DiscoveryResult}

theorem stage_eq_ok {p p' : DiscoveryPipeline} {arrival}
    (h : p.stage input arrival = .ok (p', result)) :
    ∃ name, (p.identity.observeAt input.candidate input.facts input.observedAt).2 =
        .ok result.deviceId ∧
      p.presence.ingestEvents ⟨result.deviceId, name, input.presenceKind, input.observedAt,
        input.validUntil⟩ arrival = .ok (result.presence, p'.presence) ∧
      p' = ⟨(p.identity.observeAt input.candidate input.facts input.observedAt).1, p'.presence,
        p.sources⟩ := by
  simp only [stage, bind_eq_ok, pure_eq_ok, okOr_eq_ok, mapError_eq_ok] at h
  obtain ⟨source, -, -, -, -, -, id, hid, ⟨transitions, presence⟩, hingest, identification, -, h⟩ := h
  cases h
  exact ⟨source.name, hid, hingest, rfl⟩

/-! ### The identity engine -/

/-- All that the engine knows comes from neighbours. -/
def LinkFacts (engine : IdentityEngine) : Prop :=
  ∀ {id fs}, engine.facts.get id = some fs → ∀ f ∈ fs, f.confidence = linkConfidence

section Identity

variable {engine : IdentityEngine}

/-- A prepared fact keeps its confidence, if it is not a hint. -/
theorem confidence_of_prepareFact {cfg f g}
    (h : Identity.prepareFact cfg f = .ok g) (hfamily : f.family ≠ .routerHint) :
    g.confidence = f.confidence := by
  simp only [prepareFact, bind_eq_ok, pure_eq_ok] at h
  obtain ⟨-, -, -, -, -, -, -, -, value, -, rfl⟩ := h
  exact if_neg hfamily

theorem IsLink.eq_linkFact (h : IsLink o source input) {f} (hf : f ∈ input.facts) :
    f = linkFact o source := by
  obtain ⟨hnil, -⟩ | hfact := h.facts
  · rw [hnil] at hf
    cases hf
  · rwa [hfact, mem_singleton] at hf

theorem IsLink.confidence (h : IsLink o source input) {f g}
    (hf : f ∈ input.facts) (hg : Identity.prepareFact engine.cfg f = .ok g) :
    g.confidence = linkConfidence := by
  obtain rfl := h.eq_linkFact hf
  exact confidence_of_prepareFact hg (by simp [linkFact])

/-- Facts of neighbours that agree agree strongly. -/
theorem matchesStrongly_of_linkFacts (hfacts : LinkFacts engine) (hcfg : engine.cfg = .default)
    {prepared} (hprepared : ∀ f ∈ prepared, f.confidence = linkConfidence) (now) :
    engine.MatchesStrongly prepared now := by
  unfold IdentityEngine.MatchesStrongly
  split
  · trivial
  rintro c - ⟨p, hp, hagrees⟩
  refine ⟨p, hp, ?_⟩
  obtain ⟨hold, hnew⟩ := mem_comparisons hp
  obtain ⟨d, -, hold⟩ := mem_flatMap.1 hold
  obtain ⟨fs, hget, hold⟩ := IdentityEngine.mem_factsOf.1 hold
  have hconfidence : p.1.confidence = linkConfidence := hfacts hget _ hold
  simp only [agreesStrongly, hagrees, hconfidence, hprepared _ hnew, hcfg, Bool.true_and]
  decide

theorem keeps_of_isLink (hfacts : LinkFacts engine) (hcfg : engine.cfg = .default)
    (h : IsLink o source input) :
    engine.Keeps (.observeAt input.candidate input.facts input.observedAt) := by
  refine ⟨fun f hf => ?_, fun hnone => ?_⟩
  · rw [h.eq_linkFact hf, hcfg]
    exact ⟨rfl, fun _ => by decide⟩
  · split
    · trivial
    · next prepared hprepare =>
      refine matchesStrongly_of_linkFacts hfacts hcfg (fun g hg => ?_) _
      obtain ⟨f, hf, hfact⟩ := mem_prepare hprepare hg
      exact h.confidence hf hfact

/-- **The identity engine** stays restorable. -/
theorem identity_of_isLink (hrestorable : engine.Restorable) (hfacts : LinkFacts engine)
    (hcfg : engine.cfg = .default) (h : IsLink o source input) {engine'}
    (hobserve : (engine.observeAt input.candidate input.facts input.observedAt).1 = engine') :
    engine'.Restorable ∧ LinkFacts engine' ∧ engine'.cfg = .default := by
  have hchange := hrestorable.toStoreOk.change
    (.observeAt input.candidate input.facts input.observedAt)
  change IdentityEngine.Change engine _
    (engine.observeAt input.candidate input.facts input.observedAt).1 at hchange
  rw [hobserve] at hchange
  refine ⟨hrestorable.of_change (keeps_of_isLink hfacts hcfg h) hchange, fun {id fs} hget => ?_,
    hchange.cfg.trans hcfg⟩
  refine hchange.facts_all hfacts (fun hcall f hf g hg => ?_) hget
  cases hcall
  exact h.confidence hf hg

end Identity

/-! ### The presence engine -/

section Presence

variable {engine engine' : PresenceEngine} {e : PresenceEvidence} {arrival : DateTime}
  {d : Presence.DevicePresence}

/-- Evidence from after the last evaluation corrects nothing. -/
theorem correction_of_lt {next : ℕ} {id}
    (h : Presence.Restorable engine.cfg next id d) (hlt : d.lastEvaluation < e.observedAt) :
    Presence.correction engine.cfg d e arrival = none := by
  unfold correction
  rw [bind_eq_none_iff]
  intro departure hfind
  have hmem := mem_reverse.1 (mem_of_find?_eq_some hfind)
  have hbefore := ((h.transitions departure hmem).occurred).trans_lt hlt
  rw [supportAt, if_pos hbefore, map_none]

/-- Evidence about neighbours takes part in no control. -/
theorem takesIn_of_link
    (hkind : e.kind = .neighborCache ∨ e.kind = .confirmationFailure) (hle : e.observedAt ≤ arrival)
    (hcorrection : Presence.correction engine.cfg d e arrival = none) :
    Presence.TakesIn engine.cfg d e arrival := by
  have hcontrol : controlFamily e.kind = none := by
    obtain hkind | hkind := hkind <;> rw [hkind] <;> rfl
  have henforcement : isEnforcement e.kind = false := by
    obtain hkind | hkind := hkind <;> rw [hkind] <;> rfl
  refine ⟨hle, hcorrection, ?_, ?_, ?_⟩
  · simp [hcontrol]
  · simp [henforcement]
  · simp [henforcement]

/-- **The presence engine** stays restorable, if its device has not been evaluated since. -/
theorem presence_of_link (h : PresenceInv engine)
    (hkind : e.kind = .neighborCache ∨ e.kind = .confirmationFailure)
    (harrival : arrival = e.observedAt)
    (hlater : ∀ d, engine.devices.get e.deviceId = some d → d.lastEvaluation < e.observedAt)
    {events} (hingest : engine.ingestEvents e arrival = .ok (events, engine')) :
    PresenceInv engine' := by
  refine h.ingest (by simp) ?_ hingest
  unfold PresenceEngine.Admits
  split
  · exact takesIn_of_link hkind harrival.ge rfl
  · next d hd =>
    refine .inr (.inr (takesIn_of_link hkind harrival.ge ?_))
    exact correction_of_lt (h.restorable.devices hd) (hlater d hd)

end Presence

/-! ### What every step keeps -/

/-- What the database holds of a pipeline: nothing of a new one, or its checkpoint. -/
inductive Stored [DecidableEq Digest] (lib : PipelineLibraries Bytes Digest) (setup : Setup)
    (db : Database Bytes Digest) (p : DiscoveryPipeline) : ℕ → Prop
  | fresh (hnone : db.checkpoint = none)
      (hnew : withSources p.identity.ids setup.sources = .ok p) :
      Stored lib setup db p 0
  | committed {c} (hsome : db.checkpoint ≠ none) (hload : db.load setup.config lib.toLibraries
        (lib.sha256Hex setup.sources.fingerprintText) = .ok (some c))
      (hbytes : c.bytes = lib.encode (p.checkpoint lib)) : Stored lib setup db p c.commitSequence

/-- The engines can be restored, and the database holds them. -/
structure Run.Kept [DecidableEq Digest] (lib : PipelineLibraries Bytes Digest) (setup : Setup)
    (run : Run Bytes Digest) : Prop where
  identity : run.memory.pipeline.identity.Restorable
  links : LinkFacts run.memory.pipeline.identity
  identity_cfg : run.memory.pipeline.identity.cfg = .default
  presence : PresenceInv run.memory.pipeline.presence
  presence_cfg : run.memory.pipeline.presence.cfg = setup.sources.presenceConfig
  sources : run.memory.pipeline.sources = setup.sources
  config : run.memory.config = setup.config
  flow : run.memory.flowMaxBatch = setup.flowMaxBatch
  live : run.memory.live.Idle
  evaluated : ∀ {id d}, run.memory.pipeline.presence.devices.get id = some d →
    (id, d.lastEvaluation) ∈ run.seen
  stored : Stored lib setup run.db run.memory.pipeline run.memory.sequence

/-- The setup is one that a service can start with. -/
def Setup.Opens (setup : Setup) (live : FlowLiveAdapter) : Prop :=
  setup.flowMaxBatch ≠ 0 ∧ FlowLiveAdapter.new setup.live setup.maxLiveRows = .ok live

section Open

variable [DecidableEq Digest] {lib : PipelineLibraries Bytes Digest} {setup : Setup}
  {db : Database Bytes Digest} {ids : List DeviceId} {live : FlowLiveAdapter}
  {memory : PersistentDiscoveryPipeline}

theorem openOn_eq_ok : openOn lib setup db ids = .ok memory ↔
      ∃ p sequence live, PersistentDiscoveryPipeline.restore lib setup db ids = .ok (p, sequence) ∧
        setup.Opens live ∧ memory = ⟨p, live, setup.config, setup.flowMaxBatch, sequence⟩ := by
  simp only [openOn, bind_eq_ok, pure_eq_ok, reject_eq_ok, mapError_eq_ok, Prod.exists, Setup.Opens]
  constructor
  · rintro ⟨p, sequence, hrestore, -, hbatch, live, hlive, rfl⟩
    exact ⟨p, sequence, live, hrestore, ⟨hbatch, hlive⟩, rfl⟩
  · rintro ⟨p, sequence, live, hrestore, ⟨hbatch, hlive⟩, rfl⟩
    exact ⟨p, sequence, hrestore, ⟨⟩, hbatch, live, hlive, rfl⟩

/-- A new pipeline is made of what is left of its ids. -/
theorem withSources_remaining {p sources}
    (h : withSources ids sources = .ok p) : withSources p.identity.ids sources = .ok p := by
  simp only [withSources, bind_eq_ok, pure_eq_ok, mapError_eq_ok] at h ⊢
  obtain ⟨identity, hidentity, presence, hpresence, rfl⟩ := h
  refine ⟨identity, ?_, presence, hpresence, rfl⟩
  unfold IdentityEngine.new at hidentity ⊢
  split at hidentity
  · cases hidentity
  · cases hidentity
    simp [take_take]

theorem Run.Kept.restore {run : Run Bytes Digest} (h : run.Kept lib setup)
    (hids : run.db.checkpoint = none → ids = run.memory.pipeline.identity.ids) :
    PersistentDiscoveryPipeline.restore lib setup run.db ids =
      .ok (run.memory.pipeline, run.memory.sequence) := by
  have hstored := h.stored
  generalize run.memory.sequence = sequence at hstored ⊢
  simp only [PersistentDiscoveryPipeline.restore, bind_eq_ok, mapError_eq_ok]
  cases hstored with
  | fresh hnone hnew =>
    refine ⟨none, by rw [Database.load, hnone]; rfl, ?_⟩
    rw [hids hnone, hnew]
    rfl
  | @committed c hsome hload hbytes =>
    refine ⟨some c, hload, ?_⟩
    have hidentity := IdentityEngine.fromCheckpoint_checkpoint h.identity
    have hpresence := fromCheckpoint_checkpoint h.presence.restorable
    rw [h.identity_cfg] at hidentity
    rw [h.presence_cfg] at hpresence
    simp only [hbytes, lib.decode_encode, bind_eq_ok, pure_eq_ok, okOr_eq_ok, fromCheckpoint,
      checkpoint, reject_eq_ok, mapError_eq_ok, h.sources]
    refine ⟨_, rfl, _, ⟨⟨⟩, by simp, _, hidentity, _, hpresence, rfl⟩, ?_⟩
    rw [← h.sources]

/-- A pipeline that is opened on a database without a checkpoint. -/
theorem kept_of_fresh {seen}
    (hids : (ids.take IdentityConfig.default.maxDevices).Nodup) (hnone : db.checkpoint = none)
    (hopen : openOn lib setup db ids = .ok memory) : Run.Kept lib setup ⟨⟨memory, db⟩, seen⟩ := by
  obtain ⟨p, sequence, live, hrestore, hopens, rfl⟩ := openOn_eq_ok.1 hopen
  obtain ⟨stored, hload, hnew⟩ := bind_eq_ok.1 hrestore
  rw [mapError_eq_ok, Database.load, hnone] at hload
  cases hload
  obtain ⟨p', hp, h⟩ := bind_eq_ok.1 hnew
  cases h
  have hremaining := withSources_remaining hp
  simp only [withSources, bind_eq_ok, pure_eq_ok, mapError_eq_ok] at hp
  obtain ⟨identity, hidentity, presence, hpresence, rfl⟩ := hp
  have hpresence_cfg : presence.cfg = setup.sources.presenceConfig ∧ presence.devices = ∅ := by
    unfold PresenceEngine.new at hpresence
    split at hpresence <;> cases hpresence
    exact ⟨rfl, rfl⟩
  have hfacts : identity.facts = ∅ := by
    unfold IdentityEngine.new at hidentity
    split at hidentity <;> cases hidentity
    rfl
  exact {
    identity := restorable_of_new hids hidentity
    links := fun hget => by simp [hfacts] at hget
    identity_cfg := cfg_of_new hidentity
    presence := presenceInv_start ⟨_, hpresence⟩
    presence_cfg := hpresence_cfg.1
    sources := rfl
    config := rfl
    flow := rfl
    live := (FlowLiveAdapter.idle_of_new hopens.2).1
    evaluated := fun hget => by simp [hpresence_cfg.2] at hget
    stored := .fresh hnone hremaining }

end Open

section Steps

variable [DecidableEq Bytes] [DecidableEq Digest] {lib : PipelineLibraries Bytes Digest}
  {setup : Setup} {ids : List DeviceId} {run run' : Run Bytes Digest} {call : LinkCall}

section

variable (h : run.Kept lib setup) (horder : run.InOrder (.call call)) (hera : inEra call.arrival)
include h horder hera

/-- **A commit** keeps the engines restorable and stores them. -/
theorem Run.Kept.commit {s'} (hsource : run.linkSource call.observation.sourceId = .ok source)
    (hinput : run.linkObservation call.observation source = .ok input)
    (hcommits : run.Commits lib input [] call.tickMs call.arrival
      (lib.inputHash call.observation source []) result s') :
    Run.Kept lib setup ⟨s', (result.deviceId, call.observation.observedAt) :: run.seen⟩ := by
  obtain ⟨harrival, hlater⟩ := horder
  obtain ⟨_, -, hlinked⟩ := bind_eq_ok.1 hinput
  have hlink := isLink_of_linkInput hlinked
  obtain ⟨name, hdevice, hingest, hstaged⟩ := stage_eq_ok hcommits.staged
  have hdeviceOf : run.deviceOf call.observation = some result.deviceId := by
    simp [Service.deviceOf, hsource, hinput, hdevice, Except.toOption]
  obtain ⟨hidentity, hlinks, hidentity_cfg⟩ := identity_of_isLink h.identity h.links h.identity_cfg
    hlink (congrArg DiscoveryPipeline.identity hstaged).symm
  have hpresence := presence_of_link h.presence hlink.kind (harrival.trans hlink.observedAt.symm)
    (fun d hd => hlink.observedAt ▸ hlater _ (h.evaluated hd) hdeviceOf) hingest
  obtain ⟨hpresence_cfg, hevaluated⟩ := ingestAuthorized_evaluates hingest
  have hsources : s'.memory.pipeline.sources = setup.sources :=
    (congrArg DiscoveryPipeline.sources hstaged).trans h.sources
  have hlive : s'.memory.live.Idle := by
    obtain ⟨payload, hpayload⟩ := hcommits.live
    rw [FlowLiveAdapter.eq_ticked_of_idle h.live hpayload]
    exact h.live.ticked _
  refine {
    identity := hidentity
    links := hlinks
    identity_cfg := hidentity_cfg
    presence := hpresence
    presence_cfg := hpresence_cfg.trans h.presence_cfg
    sources := hsources
    config := (congrArg PersistentDiscoveryPipeline.config hcommits.memory).trans h.config
    flow := (congrArg flowMaxBatch hcommits.memory).trans h.flow
    live := hlive
    evaluated := fun {id d} hd => ?_
    stored := ?_ }
  · obtain hold | ⟨rfl, hnow⟩ := hevaluated hd
    · exact mem_cons_of_mem _ (h.evaluated hold)
    · rw [hnow, harrival]
      exact mem_cons_self
  · obtain ⟨fault, hwritten⟩ := hcommits.written
    obtain ⟨hvalid, -, hrow⟩ := Database.checkpoint_of_commitWithFlow hwritten hcommits.new
    have hload := Database.load_of_written hvalid hera hrow
    have hfingerprint : (s'.memory.pipeline.checkpoint lib).sourceFingerprint =
        lib.sha256Hex setup.sources.fingerprintText := by
      rw [← hsources]
      rfl
    rw [h.config, Service.commitInput, hfingerprint] at hload
    rw [congrArg PersistentDiscoveryPipeline.sequence hcommits.memory]
    exact .committed (by simp [hrow]) hload rfl

theorem Run.Kept.observe (hstep : run.step lib setup ids (.call call) = some run') :
    run'.Kept lib setup := by
  simp only [Run.step, linkTransducer] at hstep
  split at hstep
  · next outcome s' hobserve =>
    cases hstep
    obtain ⟨⟨summary, rfl⟩, rfl⟩ | ⟨source, input, result, payload, hsource, hinput, rfl, hcommits⟩ :=
      Service.observeLinkPresenceWithFlow_cases hobserve
    · exact h
    · exact h.commit horder hera hsource hinput hcommits
  · cases hstep
    exact h

end

/-- A restart finds the engines that were there, or makes new ones. -/
theorem Run.Kept.reopen (hids : (ids.take IdentityConfig.default.maxDevices).Nodup)
    (h : run.Kept lib setup) (hstep : run.step lib setup ids .reopen = some run') :
    run'.Kept lib setup := by
  obtain ⟨memory, hopen, rfl⟩ := map_eq_some_iff.1 hstep
  rw [toOption_eq_some] at hopen
  by_cases hnone : run.db.checkpoint = none
  · exact kept_of_fresh hids hnone hopen
  · obtain ⟨p, sequence, live, hrestore, hopens, rfl⟩ := openOn_eq_ok.1 hopen
    rw [h.restore fun hcheckpoint => absurd hcheckpoint hnone] at hrestore
    cases hrestore
    exact { h with config := rfl, flow := rfl, live := (FlowLiveAdapter.idle_of_new hopens.2).1 }

theorem kept_of_via (hids : (ids.take IdentityConfig.default.maxDevices).Nodup)
    (h : (linkMachine lib setup ids).Via (fun run e => run.InOrder e ∧ run.InEra e) run) :
    run.Kept lib setup := by
  refine Machine.Via.invariant (I := fun run => run.Kept lib setup) h ?_ ?_
  · rintro ⟨⟨memory, db⟩, seen⟩ ⟨hopen, hdb, -⟩
    cases hdb
    exact kept_of_fresh hids rfl hopen
  · rintro run (call | _) run' hkept ⟨horder, hera⟩ hstep
    · have hstep : run.step lib setup ids (.call call) = some run' := hstep
      exact hkept.observe horder hera hstep
    · exact hkept.reopen hids hstep

/-- The setup of a run is one that a service can start with. -/
theorem opens_of_via {G} (h : (linkMachine lib setup ids).Via G run) :
    ∃ live, setup.Opens live := by
  induction h with
  | start hinit =>
    obtain ⟨_, _, live, -, hopens, -⟩ := openOn_eq_ok.1 hinit.1
    exact ⟨live, hopens⟩
  | next _ _ _ ih => exact ih

end Steps

/-! ### What follows a restart -/

/-- The service with another live adapter. -/
def Service.withLive (s : Service Bytes Digest) (live : FlowLiveAdapter) : Service Bytes Digest :=
  ⟨{ s.memory with live }, s.db⟩

/-- Two services that differ only in their last ticks, the second of which is not after the first. -/
def Twins (s t : Service Bytes Digest) : Prop :=
  ∃ live, t = s.withLive live ∧ s.memory.live.Idle ∧ live.Idle ∧
    ∀ tickMs, s.memory.live.Follows tickMs → live.Follows tickMs

section Twins

variable [DecidableEq Bytes] [DecidableEq Digest] {lib : PipelineLibraries Bytes Digest}
  {s : Service Bytes Digest} {live : FlowLiveAdapter} {tickMs : ℕ}

/-- The live adapter after an answer. -/
def answered (live : FlowLiveAdapter) (tickMs : ℕ) : DiscoveryPipelineOutcome → FlowLiveAdapter
  | .committed .. => live.ticked tickMs
  | .duplicate .. => live

/-- What a call with another live adapter gives. -/
def relive (live : FlowLiveAdapter) (tickMs : ℕ) (x : Except DiscoveryError (Answer Bytes Digest)) :
    Except DiscoveryError (Answer Bytes Digest) :=
  x.map fun x => (x.1, x.2.withLive (answered live tickMs x.1))

omit [DecidableEq Bytes] [DecidableEq Digest] in
theorem relive_bind {α : Type} (x) (f : α → Except DiscoveryError (Answer Bytes Digest)) :
    relive live tickMs (x >>= f) = x >>= fun a => relive live tickMs (f a) :=
  map_bind ..

omit [DecidableEq Bytes] in
theorem unlessExisting_withLive {fault : Bool} {inputHash next} :
    (s.withLive live).unlessExisting lib fault inputHash (relive live tickMs next) =
      relive live tickMs (s.unlessExisting lib fault inputHash next) := by
  simp only [Service.unlessExisting, relive_bind]
  refine bind_congr_ok fun found hfound => ?_
  cases found with
  | none => rfl
  | some outcome =>
    obtain ⟨summary, rfl⟩ := Service.existing_of_some hfound
    rfl

/-- Another live adapter changes nothing but itself. -/
theorem commitStaged_withLive (input arrival) (inputHash : Digest) (faults : Faults) (staged) :
    (s.withLive live).commitStaged lib input [] arrival inputHash faults staged
        (live.ticked tickMs, none) =
      relive live tickMs (s.commitStaged lib input [] arrival inputHash faults staged
        (s.memory.live.ticked tickMs, none)) := by
  simp only [Service.commitStaged, relive_bind]
  refine bind_congr (m := Except DiscoveryError) fun _ => ?_
  have hcommit : (s.withLive live).commitInput lib staged.1 staged.2 input.facts
      input.presenceSource inputHash arrival = s.commitInput lib staged.1 staged.2 input.facts
        input.presenceSource inputHash arrival := rfl
  rw [hcommit]
  simp only [Service.withLive]
  split
  · rfl
  · -- the answer is that of the other writer, and nothing has ticked
    rw [relive_bind]
    refine bind_congr_ok fun found hfound => ?_
    cases found with
    | none => rfl
    | some outcome =>
      obtain ⟨summary, rfl⟩ := Service.existing_of_some hfound
      rfl
  · rfl

theorem observeNew_withLive (hs : s.memory.live.Idle) (hlive : live.Idle)
    (hfollows : s.memory.live.Follows tickMs) (hfollows' : live.Follows tickMs)
    (input arrival) (inputHash : Digest) (faults : Faults) :
    (s.withLive live).observeNew lib input [] tickMs arrival inputHash faults =
      relive live tickMs (s.observeNew lib input [] tickMs arrival inputHash faults) := by
  have hpayload := FlowLiveAdapter.stagedPayload_of_idle hs tickMs arrival
  have hpayload' : (s.withLive live).memory.live.stagedPayload tickMs [] arrival = _ :=
    FlowLiveAdapter.stagedPayload_of_idle hlive tickMs arrival
  rw [if_pos hfollows] at hpayload
  rw [if_pos hfollows'] at hpayload'
  simp only [Service.observeNew, relive_bind, hpayload, hpayload']
  refine bind_congr (m := Except DiscoveryError) fun staged => ?_
  refine bind_congr (m := Except DiscoveryError) fun _ => ?_
  exact commitStaged_withLive input arrival inputHash faults staged

variable (lib) in
theorem observeLinkPresenceWithFlow_withLive (hs : s.memory.live.Idle) (hlive : live.Idle)
    (hfollows : s.memory.live.Follows tickMs) (hfollows' : live.Follows tickMs)
    (o arrival) (faults : Faults) :
    (s.withLive live).observeLinkPresenceWithFlow lib o [] tickMs arrival faults =
      relive live tickMs (s.observeLinkPresenceWithFlow lib o [] tickMs arrival faults) := by
  simp only [Service.observeLinkPresenceWithFlow, Service.observeWithFlowHashed, relive_bind,
    ← unlessExisting_withLive, observeNew_withLive hs hlive hfollows hfollows']
  rfl

/-- Twins answer alike and stay twins, as long as the ticks do not go back. -/
theorem Twins.step {s t} (h : Twins s t) {call} (hfollows : s.TickFollows call) :
    ((linkTransducer lib).step s call).2 = ((linkTransducer lib).step t call).2 ∧
      Twins ((linkTransducer lib).step s call).1 ((linkTransducer lib).step t call).1 := by
  obtain ⟨live, rfl, hs, hlive, hearlier⟩ := h
  have hcall := observeLinkPresenceWithFlow_withLive lib hs hlive hfollows
    (hearlier _ hfollows) call.observation call.arrival call.faults
  simp only [linkTransducer, hcall]
  cases hobserve : s.observeLinkPresenceWithFlow lib call.observation [] call.tickMs call.arrival
    call.faults with
  | error e => exact ⟨rfl, live, rfl, hs, hlive, hearlier⟩
  | ok x =>
    obtain ⟨outcome, s'⟩ := x
    obtain ⟨⟨summary, rfl⟩, rfl⟩ | ⟨source, input, result, payload, -, -, rfl, hcommits⟩ :=
      Service.observeLinkPresenceWithFlow_cases hobserve
    · exact ⟨rfl, live, rfl, hs, hlive, hearlier⟩
    obtain ⟨payload, hpayload⟩ := hcommits.live
    have hticked := FlowLiveAdapter.eq_ticked_of_idle hs hpayload
    refine ⟨rfl, live.ticked call.tickMs, rfl, hticked ▸ hs.ticked _, hlive.ticked _,
      fun tickMs hnext => ?_⟩
    change s'.memory.live.Follows tickMs at hnext
    rw [hticked, FlowLiveAdapter.follows_ticked] at hnext
    exact FlowLiveAdapter.follows_ticked.2 hnext

end Twins

/-! ### Restarts -/

variable [DecidableEq Bytes] [DecidableEq Digest] {lib : PipelineLibraries Bytes Digest}
  {setup : Setup} {ids : List DeviceId} {run : Run Bytes Digest}

/-- **A restart is not noticed**: after any run of observations in order and in the era, the pipeline
that is opened on the database is the one in memory but for its live adapter, and it gives the same
answers to all further observations whose ticks do not go back.  The ids for new devices matter only
while nothing has been committed. -/
theorem reopened_of_inEra (hids : (ids.take IdentityConfig.default.maxDevices).Nodup)
    (h : (linkMachine lib setup ids).Via (fun run e => run.InOrder e ∧ run.InEra e) run)
    (ids' : List DeviceId)
    (hids' : run.db.checkpoint = none → ids' = run.memory.pipeline.identity.ids) :
    ∃ live, openOn lib setup run.db ids' = .ok { run.memory with live } ∧
      ∀ calls, ((linkTransducer lib).toMachine (· = run.toService)).Guarded Service.TickFollows
          run.toService calls →
        (linkTransducer lib).answers ⟨{ run.memory with live }, run.db⟩ calls =
          (linkTransducer lib).answers run.toService calls := by
  have hkept := kept_of_via hids h
  obtain ⟨live, hopens⟩ := opens_of_via h
  obtain ⟨hlive, hnever⟩ := FlowLiveAdapter.idle_of_new hopens.2
  refine ⟨live, ?_, fun calls hcalls => ?_⟩
  · refine openOn_eq_ok.2 ⟨_, _, live, hkept.restore hids', hopens, ?_⟩
    rw [← hkept.config, ← hkept.flow]
  · have htwins : Twins run.toService ⟨{ run.memory with live }, run.db⟩ :=
      ⟨live, rfl, hkept.live, hlive, fun tickMs _ => by simp [FlowLiveAdapter.Follows, hnever]⟩
    exact (Transducer.answers_eq (fun s t call hst hg => hst.step hg) htwins hcalls).symm

instance (run : Run Bytes Digest) (e : LinkEvent) : Decidable (run.InOrder e) := by
  cases e <;> unfold Run.InOrder <;> infer_instance

instance (run : Run Bytes Digest) (e : LinkEvent) : Decidable (run.InEra e) := by
  cases e <;> unfold Run.InEra <;> infer_instance

/-! ### Sample runs -/

/-- Checkpoints as they are, and observations as their own hashes. -/
def sampleLibraries :
    PipelineLibraries DiscoveryPipelineCheckpoint (Option (LinkPresenceObservation × String)) where
  size _ := 0
  isJson _ := true
  summarySize _ := 0
  checkpointChecksum _ := none
  legacyCheckpointChecksum _ := none
  summaryDigest _ := none
  rowChecksum _ := none
  commitDigest _ _ := none
  sha256Hex _ := "0"
  inputHash o source _ := some (o, source)
  encode c := c
  decode c := some c
  decode_encode _ := rfl

/-- One sensor that sees neighbours. -/
def sampleSetup : Setup where
  config := .default
  sources := ⟨(∅ : SortedMap ℕ DiscoverySource).insert 1 ⟨1, "sensor-a", [.linkLayer], true⟩⟩
  live := .default
  flowMaxBatch := 1
  maxLiveRows := 1

instance neZeroSeconds : NeZero 10000 := ⟨by decide⟩

/-- An observation of the same neighbour at some second after the epoch. -/
def sampleCall (second : Fin 10000) (present : Bool) (tickMs : ℕ) : LinkCall :=
  let at' := halfSecond ⟨2 * second, by omega⟩
  { observation :=
      { sourceId := 1
        linkAddress := ⟨[2, 0, 0, 0, 0, 1], rfl, by decide, rfl⟩
        observedAt := at'
        kind := if present then .present (halfSecond 19998) else .missed }
    tickMs
    arrival := at'
    faults := .none }

/-- The runs of the sample service. -/
abbrev SampleRun := Run DiscoveryPipelineCheckpoint (Option (LinkPresenceObservation × String))

/-- The run of some events from an empty database, if all of them meet a condition. -/
def linkRun (G : SampleRun → LinkEvent → Prop) [∀ run e, Decidable (G run e)] (ids : List DeviceId)
    (events : List LinkEvent) : Option SampleRun := do
  let memory ← (openOn sampleLibraries sampleSetup .empty ids).toOption
  let start : SampleRun := ⟨⟨memory, .empty⟩, []⟩
  if (linkMachine sampleLibraries sampleSetup ids).Guarded G start events then
    (linkMachine sampleLibraries sampleSetup ids).exec start events
  else none

theorem via_linkRun {G} [∀ run e, Decidable (G run e)] {ids events run}
    (h : linkRun G ids events = some run) :
    (linkMachine sampleLibraries sampleSetup ids).Via G run := by
  rw [linkRun] at h
  obtain ⟨memory, hopen, h⟩ := bind_eq_some_iff.1 h
  obtain ⟨hguarded, hexec⟩ := ite_none_right_eq_some.1 h
  exact Machine.Via.exec (.start ⟨toOption_eq_some.1 hopen, rfl, rfl⟩) hguarded hexec

/-- A neighbour is seen, once while the storage fails, then after a restart, and then missed. -/
def seenTwice : List LinkEvent :=
  [.call (sampleCall 0 true 0),
    .call { sampleCall 1 true 0 with faults := { Faults.none with transaction := some .storage } },
    .reopen,
    .call (sampleCall 1 true 0),
    .call (sampleCall 2 false 0)]

theorem seenTwice_reopened :
    ∃ run live, linkRun (fun run e => run.InOrder e ∧ run.InEra e) [1, 2] seenTwice = some run ∧
      run.memory.sequence = 3 ∧
      openOn sampleLibraries sampleSetup run.db [] =
        .ok { run.memory with live } ∧
      (linkTransducer sampleLibraries).answers ⟨{ run.memory with live }, run.db⟩
          [sampleCall 3 false 0] =
        (linkTransducer sampleLibraries).answers run.toService [sampleCall 3 false 0] := by
  obtain ⟨run, hrun, hsequence, hcommitted, htick⟩ :
      ∃ run, linkRun (fun run e => run.InOrder e ∧ run.InEra e) [1, 2] seenTwice = some run ∧
        run.memory.sequence = 3 ∧ run.db.checkpoint.isSome ∧
        run.TickFollows (sampleCall 3 false 0) := by decide +kernel
  obtain ⟨live, hreopen, hanswers⟩ := reopened_of_inEra (by decide) (via_linkRun hrun) []
    (fun hnone => by simp [hnone] at hcommitted)
  exact ⟨run, live, hrun, hsequence, hreopen, hanswers _ ⟨htick, trivial⟩⟩

/-- The first second of the year 10000. -/
def year10000 : DateTime := ⟨253402300800000000000, by decide, by decide⟩

/-- An observation in the year 10000. -/
def lateCall : LinkCall :=
  { sampleCall 0 true 0 with
    observation := { (sampleCall 0 true 0).observation with
      observedAt := year10000
      kind := .present ⟨253402300801000000000, by decide, by decide⟩ }
    arrival := year10000 }

/-- Whether the calls of a list are accepted, one after another. -/
def acceptedCalls (s : Service DiscoveryPipelineCheckpoint (Option (LinkPresenceObservation × String)))
    (calls : List LinkCall) : List Bool :=
  ((linkTransducer sampleLibraries).answers s calls).map (·.isOk)

/-- After an observation in the year 10000 the service cannot be opened again, nor with an id twice
among the ids for new devices.  And a restart lets ticks go back. -/
theorem noticed_restarts :
    (∃ run, linkRun Run.InOrder [1, 2] [.call lateCall] = some run ∧ run.memory.sequence = 1 ∧
      openOn sampleLibraries sampleSetup run.db [] =
        .error (.checkpoint (.corrupt "checkpoint written_at: input contains invalid characters"))) ∧
    (∃ run, linkRun Run.InOrder [1, 1] [.call (sampleCall 0 true 0)] = some run ∧
      run.memory.sequence = 1 ∧
      openOn sampleLibraries sampleSetup run.db [] =
        .error (.identity (.invalidCheckpoint "duplicate or facts"))) ∧
    ∃ run memory, linkRun Run.InOrder [1, 2] [.call (sampleCall 0 true 1000)] = some run ∧
      openOn sampleLibraries sampleSetup run.db [] = .ok memory ∧
      acceptedCalls run.toService [sampleCall 1 true 0] = [false] ∧
      acceptedCalls ⟨memory, run.db⟩ [sampleCall 1 true 0] = [true] := by
  simp only [exists_and_left]
  decide +kernel

end NeonHearth.Discovery
