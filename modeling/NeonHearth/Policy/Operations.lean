import NeonHearth.Policy.Discipline

/-!
# Every operation obeys the rules

The programs of the coordinator are walked through once, from the inside out: the publication of a
decision, the parts of an evaluation, the evaluation, the actions of the owner.

* `program_obeys` : every operation obeys the rules, and `Returns` holds when it returns.
-/

namespace NeonHearth.Policy

open List Option PolicyCoordinator StoreCommand Policy

variable {ctx : Context} {d d' d₁ : Device} {s : Site}

/-- What the operation asks for. -/
abbrev Context.action (ctx : Context) : RequestedAction := ctx.evaluation.requestedAction

/-! ### What rules can tell -/

variable {entry : Entry} {result : EnforcementStatus}

theorem lastCall_of_log (h : d'.log = entry :: d.log) :
    d'.lastCall = if entry.isCall then some entry else d.lastCall := by
  rw [Device.lastCall, h, List.find?_cons]
  cases entry.isCall <;> rfl

/-- Between the two devices nothing happened but publications. -/
structure Quiet (d d' : Device) : Prop where
  releaseRetry : d'.releaseRetry = d.releaseRetry
  blocks : d'.blocks = d.blocks
  lastCall : d'.lastCall = d.lastCall
  log : ∃ l, d'.log = l ++ d.log ∧ ∀ a att r, Entry.enforced a att r ∉ l

theorem Quiet.refl (d : Device) : Quiet d d := ⟨rfl, rfl, rfl, [], rfl, fun _ _ _ => by simp⟩

theorem Quiet.trans (h : Quiet d d') (h' : Quiet d' d₁) : Quiet d d₁ := by
  obtain ⟨l, hl, hnot⟩ := h.log
  obtain ⟨l', hl', hnot'⟩ := h'.log
  refine ⟨h'.releaseRetry.trans h.releaseRetry, h'.blocks.trans h.blocks,
    h'.lastCall.trans h.lastCall, l' ++ l, by rw [hl', hl, append_assoc], ?_⟩
  exact fun a att r => not_mem_append (hnot' a att r) (hnot a att r)

theorem Quiet.of_note (hentry : entry.isCall = false) (hretry : d'.releaseRetry = d.releaseRetry)
    (hblocks : d'.blocks = d.blocks) (hlog : d'.log = entry :: d.log) : Quiet d d' := by
  refine ⟨hretry, hblocks, ?_, [entry], hlog, fun a att r hmem => ?_⟩
  · rw [lastCall_of_log hlog, hentry]
    rfl
  · rw [← mem_singleton.1 hmem] at hentry
    cases hentry

variable {l : List Entry}

theorem Context.Noted.of_log (h : ctx.Noted d entry) (hlog : d'.log = l ++ d.log) :
    ctx.Noted d' entry := by
  obtain ⟨recent, hrecent, hmem⟩ := h
  exact ⟨l ++ recent, by rw [Context.Since, hlog, hrecent, append_assoc],
    mem_append_right l hmem⟩

theorem Context.First.of_log (h : ctx.First d) (hlog : d'.log = l ++ d.log)
    (hl : ∀ a att r, Entry.enforced a att r ∉ l) : ctx.First d' := by
  obtain ⟨recent, hrecent, hnot⟩ := h
  exact ⟨l ++ recent, by rw [Context.Since, hlog, hrecent, append_assoc],
    fun a att r => not_mem_append (hl a att r) (hnot a att r)⟩

theorem Context.First.noted (h : ctx.First d) (hlog : d'.log = entry :: d.log) :
    ctx.Noted d' entry := by
  obtain ⟨recent, hrecent, -⟩ := h
  exact ⟨entry :: recent, by rw [Context.Since, hlog, hrecent]; rfl, mem_cons_self⟩

theorem Context.Disproved.of_log (h : ctx.Disproved d)
    (hlog : d'.log = l ++ d.log) : ctx.Disproved d' :=
  fun row hrow => (h row hrow).of_log hlog

theorem Approval.quiet {published} (h : Approval ctx d published result)
    (hq : Quiet d d') : Approval ctx d' published result := by
  obtain ⟨l, hlog, -⟩ := hq.log
  cases h with
  | pending hretry hresult =>
    exact .pending (hq.releaseRetry ▸ hretry) (hq.lastCall ▸ hresult)
  | undone h => exact .undone (hq.lastCall.trans h)
  | waiting hpub hlast hresult hblock hretry hblocks hdisproved =>
    exact .waiting hpub hlast hresult hblock (hq.releaseRetry ▸ hretry) (hq.blocks.trans hblocks)
      (hdisproved.of_log hlog)
  | fenced hretry hstart => exact .fenced (hq.releaseRetry.trans hretry) hstart
  | unreleased hpub hstart hretry hblock hdisproved =>
    exact .unreleased hpub hstart (hq.releaseRetry.trans hretry) hblock (hdisproved.of_log hlog)

variable {e : PolicyChanged}

theorem Reported.quiet (h : Reported ctx d e) (hq : Quiet d d') (hpub : d'.published = d.published) :
    Reported ctx d' e := by
  cases h with
  | enforced h => exact .enforced (hq.lastCall.trans h)
  | reconciled h => exact .reconciled (hq.lastCall.trans h)
  | repeated h hblock => exact .repeated (hpub ▸ h) hblock
  | released h haction => exact .released h haction

theorem MayPublish.quiet (h : MayPublish ctx d e) (hq : Quiet d d')
    (hpub : d'.published = d.published) : MayPublish ctx d' e := by
  refine ⟨h.coherent, h.version, fun hb => (h.reported hb).quiet hq hpub, fun ha => ?_⟩
  rw [hpub]
  exact (h.approved ha).imp_right (·.quiet hq)

/-! ### Publication -/

/-- What the publication of a decision leaves. -/
structure Publication (d d' : Device) (e : PolicyChanged) (attempt : Option ActuationAttempt) :
    Prop where
  quiet : Quiet d d'
  policy : d'.policy = d.policy
  published : d'.published = some e
  /-- The decision was published already, or it is acknowledged now. -/
  outcome : d' = d ∨ d'.outbox = none ∧ (attempt ≠ none → d'.journal = none)
  stored : Stored d'

theorem Stored.acknowledge (h : Stored d)
    (hcoherent : e.requestedAction = e.evaluation.requestedAction)
    (hkept : ∀ row, d.journal = some row → row.decision ≠ some e) : Stored (d.acknowledge e) := by
  refine ⟨fun row hrow => ?_, fun e' he' => ?_⟩
  · obtain ⟨e', hreserves, -⟩ := h.row row hrow
    refine ⟨e', hreserves, fun heq => hkept row hrow ?_⟩
    rw [hreserves.decision]
    exact heq.symm
  · cases he'
    exact hcoherent

theorem Stored.mono (h : Stored d) (hpub : d'.published = d.published)
    (hjournal : ∀ row, d'.journal = some row → d.journal = some row) : Stored d' :=
  ⟨fun row hrow => hpub ▸ h.row row (hjournal row hrow), fun e he => h.coherent e (hpub ▸ he)⟩

/-- The journal row of a verified decision, as the acknowledgement looks for it. -/
theorem filter_journal (h : Stored d) (hversion : e.policyVersion = Policy.policyVersion) {p}
    (hp : p = fun attempt => attempt.policyVersion = e.policyVersion &&
      attempt.action = e.requestedAction && attempt.decision = some e) :
    (∀ row, d.journal.filter p = some row → d.journal = some row ∧ row.decision = some e.base) ∧
      (d.journal.filter p = none → ∀ row, d.journal = some row → row.decision ≠ some e) := by
  subst hp
  refine ⟨fun row hrow => ?_, fun hnone row hrow hdecision => ?_⟩
  · obtain ⟨hjournal, hmatch⟩ := filter_eq_some_iff.1 hrow
    simp only [Bool.and_eq_true, decide_eq_true_eq] at hmatch
    obtain ⟨e', hreserves, -⟩ := h.row row hjournal
    obtain rfl : e' = e := some.inj (hreserves.decision.symm.trans hmatch.2)
    refine ⟨hjournal, hmatch.2.trans (congrArg some ?_)⟩
    rw [PolicyChanged.base, ← hreserves.undoAvailable]
  · obtain ⟨e', hreserves, -⟩ := h.row row hrow
    obtain rfl : e' = e := some.inj (hreserves.decision.symm.trans hdecision)
    have := filter_eq_none_iff.1 hnone row hrow
    simp [hreserves.version, hversion, hreserves.action, hreserves.decision] at this

section Publish

variable {co : PolicyCoordinator routerCalls}
  {Q : Except PolicyError Unit → Site → Prop} {attempt : Option ActuationAttempt}

theorem obeys_mark (hst : Stored s.device) (h : MayAcknowledge ctx s.device e attempt)
    (hQ : ∀ d', Publication s.device d' e attempt → Q (.ok ()) { s with device := d' }) :
    Obeys ctx Q (store (.markDecisionPublishedAndClearAttempt e attempt)) s := by
  have hquiet : Quiet s.device (s.device.acknowledge e) := .of_note rfl rfl rfl rfl
  have houtbox : (s.device.acknowledge e).outbox = none := by simp [h.outbox]
  cases attempt with
  | none =>
    refine obeys_store (f := pure) rfl h (hQ _ ⟨hquiet, rfl, rfl, .inr ⟨houtbox, ?_⟩, ?_⟩)
    · exact fun hne => absurd rfl hne
    · exact hst.acknowledge h.coherent (h.kept rfl)
  | some row =>
    obtain ⟨hrow, hdecision⟩ := h.retired row rfl
    refine obeys_store (f := pure) (if_pos (by simp [hrow, StoreCommand.Matches])) h
      (hQ _ ⟨?_, rfl, rfl, .inr ⟨houtbox, fun _ => rfl⟩, ?_⟩)
    · exact { hquiet with }
    · refine ⟨by simp, ?_⟩
      rintro _ ⟨⟩
      exact h.coherent

/-- **The outbox protocol**: a decision that may be published is published exactly once. -/
theorem obeys_publishExact (hst : Stored s.device) (h : MayPublish ctx s.device e)
    (hatt : ∀ row, attempt = some row → s.device.journal = some row ∧ row.decision = some e.base)
    (hQ : ∀ d', Publication s.device d' e attempt → Q (.ok ()) { s with device := d' }) :
    Obeys ctx Q (co.publishExact e attempt) s := by
  unfold publishExact
  by_cases hp : s.device.published = some e
  · exact obeys_store (if_pos hp) trivial (hQ s.device ⟨.refl _, rfl, hp, .inl rfl, hst⟩)
  refine obeys_store (if_neg hp) trivial ?_
  -- whether or not the bus is told, the outbox row is acknowledged
  have hmark : ∀ d₁ : Device, Quiet s.device d₁ → d₁.published = s.device.published →
      d₁.journal = s.device.journal → d₁.policy = s.device.policy → d₁.outbox = some e →
      Obeys ctx Q (matchingAttempt e attempt >>= fun retired =>
        store (.markDecisionPublishedAndClearAttempt e retired)) { s with device := d₁ } := by
    intro d₁ hquiet hpub hjournal hpolicy houtbox
    have hst₁ : Stored d₁ := hst.mono hpub fun row hrow => hjournal ▸ hrow
    have hmay := h.quiet hquiet hpub
    have hdone : ∀ att, (attempt ≠ none → att ≠ none) → MayAcknowledge ctx d₁ e att →
        Obeys ctx Q (store (.markDecisionPublishedAndClearAttempt e att)) { s with device := d₁ } := by
      intro att hsome hack
      refine obeys_mark hst₁ hack fun d' hd' => hQ d' ⟨hquiet.trans hd'.quiet,
        hd'.policy.trans hpolicy, hd'.published, .inr ?_, hd'.stored⟩
      obtain rfl | ⟨hnone, hret⟩ := hd'.outcome
      · exact absurd (hpub.symm.trans hd'.published) hp
      · exact ⟨hnone, fun hne => hret (hsome hne)⟩
    cases attempt with
    | some row =>
      refine hdone (some row) (fun _ => by simp) ⟨hmay, houtbox, ?_, by simp⟩
      rw [hjournal]
      exact hatt
    | none =>
      rw [matchingAttempt]
      split
      · obtain ⟨hret, hkept⟩ := filter_journal hst₁ h.version rfl
        exact obeys_store rfl trivial
          (hdone _ (fun hne => absurd rfl hne) ⟨hmay, houtbox, hret, hkept⟩)
      next hnot =>
      refine hdone none (fun hne => absurd rfl hne) ⟨hmay, houtbox,
        by simp, fun _ row hrow hrd => ?_⟩
      obtain ⟨e', hreserves, -⟩ := hst₁.row row hrow
      obtain rfl : e' = e := some.inj (hreserves.decision.symm.trans hrd)
      exact hnot ⟨hreserves.result, hreserves.action ▸ hreserves.block⟩
  have hprepare : Quiet s.device (s.device.prepare e) := .of_note rfl rfl rfl rfl
  by_cases hevents : co.events = true
  · simp only [hevents, if_true]
    refine obeys_store rfl trivial (hmark _ (hprepare.trans (.of_note rfl rfl rfl rfl)) rfl rfl rfl rfl)
  · simp only [hevents, if_true]
    exact hmark _ hprepare rfl rfl rfl rfl

end Publish

/-! ### The end of an operation -/

/-- The operation may end with the result. -/
structure MayFinish (ctx : Context) (d : Device) (result : EnforcementStatus) : Prop where
  stored : Stored d
  reported : result = .verified → ctx.action.isBlock →
    ∀ e : PolicyChanged, e.requestedAction = ctx.action → Reported ctx d e
  approved : ctx.approves → Approval ctx d d.published result
  /-- A decision that is published already was published when the operation began. -/
  known : (d.published = ctx.start.published ∧ d.outbox = ctx.start.outbox) ∨ d.outbox = none ∨
    ∀ last, d.published = some last → last.evaluation ≠ ctx.evaluation

theorem Approval.published {published}
    (h : Approval ctx d published result) : Approval ctx d ctx.start.published result := by
  cases h with
  | pending hretry hresult => exact .pending hretry hresult
  | undone h => exact .undone h
  | waiting _ hlast hresult hblock hretry hblocks hdisproved =>
    exact .waiting rfl hlast hresult hblock hretry hblocks hdisproved
  | fenced hretry hstart => exact .fenced hretry hstart
  | unreleased _ hstart hretry hblock hdisproved =>
    exact .unreleased rfl hstart hretry hblock hdisproved

theorem MayFinish.mayPublish (h : MayFinish ctx d result) (undoAvailable : Bool) :
    MayPublish ctx d (ctx.event result undoAvailable) where
  coherent := rfl
  version := evaluatePolicy_policyVersion ..
  reported hb := h.reported hb.1 hb.2 _ rfl
  approved ha := .inr (h.approved ha)

theorem MayFinish.quiet (h : MayFinish ctx d result) (hq : Quiet d d') (hst : Stored d')
    (hpub : d'.published = d.published) (houtbox : d'.outbox = d.outbox) :
    MayFinish ctx d' result := by
  refine ⟨hst, fun hr hb e he => (h.reported hr hb e he).quiet hq hpub, fun ha => ?_, ?_⟩
  · rw [hpub]
    exact (h.approved ha).quiet hq
  · rw [hpub, houtbox]
    exact h.known

/-- The postcondition of operations. -/
abbrev Ends (ctx : Context) (r : Except PolicyError AuditedDecision) (s : Site) : Prop :=
  Returns ctx s.device r

variable {co : PolicyCoordinator routerCalls}

theorem obeys_finish (undoAvailable : Bool) (h : MayFinish ctx s.device result) :
    Obeys ctx (Ends ctx) (co.finish ctx.policy ctx.evaluation result undoAvailable) s := by
  refine Prog.Obeys.bind (obeys_publishExact h.stored (h.mayPublish undoAvailable)
    (fun _ hnone => by cases hnone) fun d' hd' => ?_)
  refine ⟨hd'.published, rfl, ?_, fun ha => ((h.approved ha).published).quiet hd'.quiet⟩
  obtain rfl | ⟨hnone, -⟩ := hd'.outcome
  · obtain ⟨hpub, houtbox⟩ | hnone | hne := h.known
    · exact .inr ⟨houtbox, hpub.symm⟩
    · exact .inl hnone
    · exact absurd rfl (hne _ hd'.published)
  · exact .inl hnone

/-! ### The action -/

section Evaluate

variable {presence events : Bool}

/-- What is known when the requested action is about to be taken. -/
structure Acting (ctx : Context) (d : Device) : Prop where
  stored : Stored d
  known : (d.published = ctx.start.published ∧ d.outbox = ctx.start.outbox) ∨
    ∀ last, d.published = some last → last.evaluation ≠ ctx.evaluation
  journal : ∀ row, d.journal = some row → row.action = ctx.action ∨
    (ctx.action.isBlock → ∃ last, ctx.Superseded row last)
  first : ctx.First d
  ban : ∀ row, ctx.start.journal = some row → row.action = .permanentBan →
    ctx.action.isBlock →
    (d.journal = some row ∧ ctx.action = .permanentBan) ∨
      ctx.Noted d (.reconciled .permanentBan .provenNotApplied)
  release : ctx.NoRetry
  decided : ctx.decides → ∀ retry, ctx.start.releaseRetry = some retry →
    retry.1 = ctx.action →
      ctx.Noted d (.reconciled ctx.action .provenNotApplied)
  approved : ctx.approves → d.journal = none ∧ d.published = ctx.start.published ∧
    NoVerifiedBlock ctx.start.published ∧ d.releaseRetry = ctx.start.releaseRetry ∧
    d.blocks = ctx.start.blocks ∧ ctx.Disproved d ∧ ctx.decides = false

/-- An acting operation may end with a result for which there is a reason. -/
theorem Acting.mayFinish (h : Acting ctx d) (hst : Stored d')
    (hpub : d'.published = d.published) (houtbox : d'.outbox = d.outbox)
    (hretry : d'.releaseRetry = d.releaseRetry) (hlog : d'.log = l ++ d.log)
    (hreported : result = .verified → ctx.action.isBlock →
      ∀ e : PolicyChanged, e.requestedAction = ctx.action → Reported ctx d' e) :
    MayFinish ctx d' result := by
  refine ⟨hst, hreported, fun ha => ?_, ?_⟩
  · obtain ⟨-, hpub', hblock, hretry', -, hdisproved, hdecides⟩ := h.approved ha
    exact .unreleased (hpub.trans hpub') (h.release hdecides) (hretry.trans hretry') hblock
      (hdisproved.of_log hlog)
  · rw [hpub, houtbox]
    exact h.known.imp_right .inr

theorem not_priorVerified (hcoherent : ∀ e, d.published = some e →
    e.requestedAction = e.evaluation.requestedAction)
    (h : priorMatches ctx.evaluation d.published .verified = false) :
    ¬ctx.PriorVerified d.published := by
  rintro ⟨last, hlast, heval, hresult⟩
  have haction : last.requestedAction = ctx.action := by
    rw [hcoherent last hlast, heval]
  simp [priorMatches, hlast, heval, hresult, haction] at h

theorem Acting.not_priorVerified (h : Acting ctx d) (hstart : ¬ctx.PriorVerified ctx.start.published) :
    ¬ctx.PriorVerified d.published := by
  obtain ⟨hpub, -⟩ | hne := h.known
  · rwa [hpub]
  · rintro ⟨last, hlast, heval, -⟩
    exact hne last hlast heval

/-- The postcondition of the part that takes the action. -/
abbrev ActionEnds (ctx : Context) (r : Except PolicyError EnforcementStatus) (s : Site) : Prop :=
  match r with
  | .ok result => MayFinish ctx s.device result
  | .error e => Returns ctx s.device (.error e)

/-- The row that the operation reserves. -/
def Context.attempt (ctx : Context) : ActuationAttempt :=
  ⟨ctx.evaluation.policyVersion, ctx.action, some (ctx.event .verified false)⟩

theorem Stored.reserve (h : Stored d) (hblock : ctx.action.isBlock)
    (hprior : ¬ctx.PriorVerified d.published) : Stored (d.reserve ctx.attempt) := by
  refine ⟨fun row hrow => ?_, h.coherent⟩
  cases hrow
  refine ⟨ctx.event .verified false, ⟨rfl, evaluatePolicy_policyVersion .., hblock, rfl, rfl,
    evaluatePolicy_policyVersion .., rfl, rfl⟩, fun hpub => hprior ⟨_, hpub, rfl, rfl⟩⟩

/-- The router is asked to block the device, right after the reservation. -/
theorem Acting.obeys_enforce (h : Acting ctx s.device)
    (hblock : ctx.action.isBlock) (hprotection : ctx.policy.protection = .none)
    (hstart : ¬ctx.PriorVerified ctx.start.published) (hnone : s.device.journal = none) :
    Obeys ctx (ActionEnds ctx) (router.enforce ctx.action)
      { s with device := s.device.reserve ctx.attempt } := by
  have hprior := h.not_priorVerified hstart
  have hst := h.stored.reserve hblock hprior
  have hlog : (s.device.reserve ctx.attempt).log = [.reserved ctx.attempt] ++ s.device.log := rfl
  refine Policy.obeys_enforce (f := pure) ⟨rfl, hblock, hprotection,
    ⟨ctx.attempt, rfl, rfl, rfl, rfl⟩, hprior, ?_, hstart, fun row hrow hban => ?_, h.release,
    fun hd retry hretry heq => ?_, fun ha => ?_⟩
    fun result applied => ?_
  · exact h.first.of_log hlog (by simp)
  · obtain ⟨hrow', -⟩ | hnoted := h.ban row hrow hban hblock
    · simp [hnone] at hrow'
    · exact hnoted.of_log hlog
  · exact (h.decided hd retry hretry heq).of_log hlog
  · obtain ⟨-, -, hno, hretry, -⟩ := h.approved ha
    exact ⟨hno, hretry⟩
  · -- what the router did decides the result
    have hst' : Stored ((s.device.reserve ctx.attempt).enforce ctx.action
        result applied) := ⟨hst.row, hst.coherent⟩
    refine h.mayFinish hst' rfl rfl rfl (l := [_, _]) rfl ?_
    rintro rfl - e -
    exact .enforced rfl

theorem Acting.disproved (h : Acting ctx d) :
    Acting ctx (d.note (.reconciled ctx.action .provenNotApplied)).retire := by
  have hlog : (d.note (.reconciled ctx.action .provenNotApplied)).retire.log =
    [.reconciled ctx.action .provenNotApplied] ++ d.log := rfl
  refine ⟨h.stored.mono rfl (by simp), h.known, by simp,
    h.first.of_log hlog (by simp), fun row hrow hban hblock => ?_, h.release,
    fun hd retry hretry heq => (h.decided hd retry hretry heq).of_log hlog, fun ha => ?_⟩
  · obtain ⟨-, haction⟩ | hnoted := h.ban row hrow hban hblock
    · exact .inr (haction ▸ h.first.noted rfl)
    · exact .inr (hnoted.of_log hlog)
  · obtain ⟨-, hpub, hno, hretry, hblocks, hdisproved, hdecides⟩ := h.approved ha
    exact ⟨rfl, hpub, hno, hretry, hblocks, hdisproved.of_log hlog, hdecides⟩

theorem Acting.mayReserve (h : Acting ctx d) (hblock : ctx.action.isBlock)
    (hstart : ¬ctx.PriorVerified ctx.start.published) :
    MayReserve ctx d ctx.evaluation.policyVersion ctx.action
      (some (ctx.event .verified false)) :=
  ⟨hblock, evaluatePolicy_policyVersion .., rfl, rfl, h.not_priorVerified hstart⟩

theorem Acting.obeys_enforceReserved (h : Acting ctx s.device)
    (hblock : ctx.action.isBlock) (hprotection : ctx.policy.protection = .none)
    (hstart : ¬ctx.PriorVerified ctx.start.published) :
    Obeys ctx (ActionEnds ctx)
      ((coordinator presence events).enforceReserved ctx.policy ctx.evaluation) s := by
  have hmay := h.mayReserve hblock hstart
  have hreserve : ∀ s : Site, s.device.journal = none →
      run s (.reserveActuationWithDecision ctx.evaluation.policyVersion
        ctx.action (some (ctx.event .verified false))) =
      some (.ok .reserved, { s with device := s.device.reserve ctx.attempt }) := by
    intro s hnone
    rw [run, hnone]
    rfl
  unfold enforceReserved
  obtain hnone | ⟨row, hrow⟩ := eq_none_or_eq_some s.device.journal
  · exact obeys_store (hreserve s hnone) hmay (h.obeys_enforce hblock hprotection hstart hnone)
  have hrun : run s (.reserveActuationWithDecision ctx.evaluation.policyVersion ctx.action
      (some (ctx.event .verified false))) = if Matches ctx.evaluation.policyVersion ctx.action row then
        some (.ok .existing, s) else some (.error .supersededAttempt, s) := by
    rw [run, hrow]
  split_ifs at hrun with hmatch
  · refine obeys_store hrun hmay (obeys_reconcile (fun ha => (h.approved ha).2.2.2.2.1)
      fun answer => ?_)
    have hdone : ∀ result, (result = .verified → answer = .verifiedApplied) →
        MayFinish ctx (s.device.note (.reconciled ctx.action answer)) result := by
      intro result hresult
      refine h.mayFinish ⟨h.stored.row, h.stored.coherent⟩ rfl rfl rfl (l := [_]) rfl ?_
      intro hv _ e _
      rw [hresult hv]
      exact .reconciled rfl
    cases answer with
    | verifiedApplied => exact hdone .verified fun _ => rfl
    | failed => exact hdone .failed (by simp)
    | provenNotApplied =>
      -- the row had no effect: it is reserved once more
      refine obeys_clear rfl hrow hmatch ?_
      refine obeys_store (hreserve _ rfl) (h.disproved.mayReserve hblock hstart) ?_
      exact h.disproved.obeys_enforce hblock hprotection hstart rfl
    | _ => exact hdone .manualRequired (by simp)
  · refine obeys_store_error hrun hmay ?_
    obtain haction | hsuperseded := h.journal row hrow
    · obtain ⟨e, hreserves, -⟩ := h.stored.row row hrow
      exact absurd ⟨hreserves.version.trans (evaluatePolicy_policyVersion ..).symm, haction⟩ hmatch
    · obtain ⟨last, hlast⟩ := hsuperseded hblock
      exact .supersededAttempt hlast

variable {α : Type} {now : DateTime}

theorem obeys_waits {Q evaluation published} {f : Bool → Program α}
    (hf : ∀ b, Obeys ctx Q (f b) s) :
    Obeys ctx Q (waits evaluation published now result >>= f) s := by
  unfold waits
  split
  · exact obeys_store rfl trivial (hf _)
  · exact hf false

theorem Acting.obeys_enforcement (h : Acting ctx s.device) (hst : Stored ctx.start)
    (hrecovered : s.device.published = ctx.start.published ∨
      ∃ a, s.device.lastCall = some (.reconciled a .verifiedApplied)) (now) :
    Obeys ctx (ActionEnds ctx) ((coordinator presence events).enforcement ctx.policy ctx.evaluation
      ctx.start.published now) s := by
  have hdone : ∀ result, (result = .verified → ctx.action.isBlock →
      ctx.PriorVerified ctx.start.published) → MayFinish ctx s.device result := by
    intro result hresult
    refine h.mayFinish h.stored rfl rfl rfl (l := []) rfl fun hv hb e _ => ?_
    obtain hpub | ⟨a, ha⟩ := hrecovered
    · exact .repeated (hpub ▸ hresult hv hb) hb
    · exact .reconciled ha
  unfold enforcement
  split
  · exact hdone .notRequested (by simp)
  next hblock =>
  rw [not_or, Bool.not_eq_true', Bool.not_eq_false, not_not] at hblock
  split
  · next hprior =>
    refine hdone .verified fun _ _ => ?_
    obtain ⟨last, hlast, hmatch⟩ := Option.any_eq_true _ _ |>.1 hprior
    simp only [Bool.and_eq_true, decide_eq_true_eq] at hmatch
    exact ⟨last, hlast, hmatch.1.1, hmatch.2⟩
  next hprior =>
  have hstart := Policy.not_priorVerified hst.coherent (Bool.not_eq_true _ ▸ hprior)
  refine obeys_waits fun b => ?_
  cases b with
  | true => exact hdone .manualRequired (by simp)
  | false =>
    refine obeys_waits fun b => ?_
    cases b with
    | true => exact hdone .failed (by simp)
    | false => exact h.obeys_enforceReserved hblock.1 hblock.2 hstart

theorem obeys_scheduleRetry {Q} {f : Unit → Program α}
    (hf : ∀ at', Obeys ctx Q (f ()) { s with device := s.device.setEnforcementRetry at' }) :
    Obeys ctx Q (scheduleRetry now result >>= f) s := by
  unfold scheduleRetry
  split
  · exact obeys_store_map rfl trivial fun _ _ => hf _
  · exact obeys_store_map rfl trivial fun _ _ => hf _
  · exact obeys_store rfl trivial (hf _)
  · exact obeys_store rfl trivial (hf _)

theorem MayFinish.obeys_announce (h : MayFinish ctx s.device result) (now) : Obeys ctx (Ends ctx)
      ((coordinator presence events).announce ctx.policy ctx.evaluation now result) s := by
  have hrest : ∀ t : List Presence.TransitionRow, Obeys ctx (Ends ctx)
      ((coordinator presence events).undoOffered ctx.evaluation result >>=
        (coordinator presence events).finish ctx.policy ctx.evaluation result)
      { s with transitions := t } := by
    intro t
    unfold undoOffered
    split
    · refine obeys_undoAvailable fun answer => obeys_finish answer ?_
      exact h.quiet (.of_note rfl rfl rfl rfl) (h.stored.mono rfl fun _ => id) rfl rfl
    · exact obeys_finish false h
  unfold announce recordBlock
  split
  · exact obeys_store rfl trivial (hrest _)
  · exact hrest _

theorem Acting.obeys_actuate (h : Acting ctx s.device) (hst : Stored ctx.start)
    (hrecovered : s.device.published = ctx.start.published ∨
      ∃ a, s.device.lastCall = some (.reconciled a .verifiedApplied)) (now) :
    Obeys ctx (Ends ctx) ((coordinator presence events).actuate ctx.policy ctx.evaluation
      ctx.start.published now) s := by
  refine Prog.Obeys.bind ((h.obeys_enforcement hst hrecovered now).mono fun r s₁ hr => ?_)
  cases r with
  | error e => exact hr
  | ok result =>
    have hr : MayFinish ctx s₁.device result := hr
    refine obeys_scheduleRetry fun at' => MayFinish.obeys_announce ?_ now
    exact hr.quiet ⟨rfl, rfl, rfl, [], rfl, by simp⟩ (hr.stored.mono rfl fun _ => id) rfl rfl

/-! ### The evaluation -/

/-- The device of an operation that has only looked at it, or disproved its journal row. -/
structure Seen (ctx : Context) (d : Device) : Prop where
  stored : Stored d
  published : d.published = ctx.start.published
  outbox : d.outbox = ctx.start.outbox
  blocks : d.blocks = ctx.start.blocks
  first : ctx.First d
  journal : ∀ row, d.journal = some row → ctx.start.journal = some row
  row : ∀ row, ctx.start.journal = some row →
    d.journal = some row ∨ ctx.Noted d (.reconciled row.action .provenNotApplied)

theorem Seen.start (hst : Stored ctx.start) : Seen ctx ctx.start :=
  ⟨hst, rfl, rfl, rfl, ⟨[], rfl, by simp⟩, fun _ => id, fun _ => .inl⟩

/-- The policy and what is scheduled do not matter. -/
theorem Seen.congr (h : Seen ctx d) (hpub : d'.published = d.published) (houtbox : d'.outbox = d.outbox)
    (hblocks : d'.blocks = d.blocks) (hlog : d'.log = d.log) (hjournal : d'.journal = d.journal) :
    Seen ctx d' := by
  have hsince : ctx.Since d' = ctx.Since d := by
    funext recent
    rw [Context.Since, hlog, Context.Since]
  obtain ⟨hst, hpub', houtbox', hblocks', hfirst, hjournal', hrow⟩ := h
  refine ⟨hst.mono hpub fun row => hjournal ▸ id, hpub.trans hpub', houtbox.trans houtbox',
    hblocks.trans hblocks', ?_, hjournal ▸ hjournal', ?_⟩
  · rwa [Context.First, hsince]
  · simpa only [hjournal, Context.Noted, hsince] using hrow

theorem Seen.note (h : Seen ctx d) (hentry : ∀ a att r, entry ≠ .enforced a att r) :
    Seen ctx (d.note entry) := by
  have hlog : (d.note entry).log = [entry] ++ d.log := rfl
  refine { h with
    stored := h.stored.mono rfl fun _ => id
    first := h.first.of_log hlog fun a att r hmem => ?_
    row := fun row hrow => (h.row row hrow).imp_right fun hnoted => hnoted.of_log hlog }
  exact hentry a att r (mem_singleton.1 hmem).symm

/-- The device as an operation hands it to an evaluation. -/
structure Ready (ctx : Context) (d : Device) : Prop extends Seen ctx d where
  release : ctx.decides = false → d.releaseRetry = ctx.start.releaseRetry
  decided : ctx.decides → d.releaseRetry = none ∧ ∀ retry, ctx.start.releaseRetry = some retry →
    retry.1 = ctx.action →
      ctx.Noted d (.reconciled ctx.action .provenNotApplied)
  approved : ctx.approves → d.journal = none ∧ NoVerifiedBlock ctx.start.published ∧
    ctx.decides = false

/-- An operation that found no row of another action. -/
theorem Ready.acting (h : Ready ctx d) (hrelease : ctx.NoRetry)
    (hjournal : ∀ row, d.journal = some row → row.action = ctx.action) :
    Acting ctx d where
  stored := h.stored
  known := .inl ⟨h.published, h.outbox⟩
  journal row hrow := .inl (hjournal row hrow)
  first := h.first
  ban row hrow hban _ := (h.row row hrow).imp
    (fun hrow' => ⟨hrow', (hjournal row hrow').symm.trans hban⟩) fun hnoted => hban ▸ hnoted
  release := hrelease
  decided hd := (h.decided hd).2
  approved ha := by
    obtain ⟨hnone, hno, hdecides⟩ := h.approved ha
    refine ⟨hnone, h.published, hno, h.release hdecides, h.blocks, fun row hrow => ?_, hdecides⟩
    exact (h.row row hrow).resolve_left (by simp [hnone])

/-- The postcondition of the part that settles a journal row of another action. -/
abbrev OlderEnds (ctx : Context) (r : Except PolicyError (Option AuditedDecision)) (s : Site) :
    Prop :=
  match r with
  | .ok (some decision) => Returns ctx s.device (.ok decision)
  | .ok none => Acting ctx s.device ∧ (s.device.published = ctx.start.published ∨
      ∃ a, s.device.lastCall = some (.reconciled a .verifiedApplied))
  | .error e => Returns ctx s.device (.error e)

theorem obeys_finish_some (undoAvailable : Bool) (h : MayFinish ctx s.device result) :
    Obeys ctx (OlderEnds ctx) (co.finish ctx.policy ctx.evaluation result undoAvailable >>=
      fun decision => pure (some decision)) s := by
  refine Prog.Obeys.bind ((obeys_finish undoAvailable h).mono fun r s₁ hr => ?_)
  cases r with
  | ok | error => exact hr

theorem Ready.obeys_reconcileOlder (h : Ready ctx s.device) (hrelease : ctx.NoRetry) (now) :
    Obeys ctx (OlderEnds ctx) ((coordinator presence events).reconcileOlder
      ctx.policy ctx.evaluation ctx.start.published now) s := by
  unfold reconcileOlder
  refine obeys_store rfl trivial ?_
  obtain hnone | ⟨old, hold⟩ := eq_none_or_eq_some s.device.journal
  · rw [hnone]
    exact ⟨h.acting hrelease (by simp [hnone]), .inl h.published⟩
  rw [hold]
  dsimp only
  have happroves {p : Prop} (ha : ctx.approves) : p := by simp [(h.approved ha).1] at hold
  obtain ⟨e, hreserves, -⟩ := h.stored.row old hold
  split
  swap
  · next hsame =>
    rw [not_or, not_not, not_not] at hsame
    refine ⟨h.acting hrelease fun row hrow => ?_, .inl h.published⟩
    obtain rfl := some.inj (hold.symm.trans hrow)
    exact hsame.2
  next hother =>
  have haction : old.action ≠ ctx.action := by
    refine hother.resolve_left (not_not.2 ?_)
    rw [hreserves.version]
    exact (evaluatePolicy_policyVersion ..).symm
  refine obeys_reconcile happroves fun answer => ?_
  cases answer with
  | provenNotApplied =>
    refine obeys_clear rfl hold ⟨rfl, rfl⟩ ⟨?_, .inl h.published⟩
    have hlog : (s.device.note (.reconciled old.action .provenNotApplied)).retire.log =
      [.reconciled old.action .provenNotApplied] ++ s.device.log := rfl
    refine ⟨h.stored.mono rfl (by simp), .inl ⟨h.published, h.outbox⟩, by simp,
      h.first.of_log hlog (by simp), fun row hrow hban _ => .inr ?_, hrelease,
      fun hd retry hretry heq => ((h.decided hd).2 retry hretry heq).of_log hlog,
      happroves⟩
    obtain hrow' | hnoted := h.row row hrow
    · obtain rfl := some.inj (hold.symm.trans hrow')
      exact hban ▸ h.first.noted rfl
    · exact hban ▸ hnoted.of_log hlog
  | verifiedApplied =>
    rw [hreserves.decision]
    unfold undoRecovered
    rw [if_pos hreserves.block]
    refine obeys_undoAvailable fun undoAvailable => ?_
    set d₁ := (s.device.note (.reconciled old.action .verifiedApplied)).note
      (.availability old.action undoAvailable)
    have hlastCall : d₁.lastCall = some (.reconciled old.action .verifiedApplied) := rfl
    have hmay : MayPublish ctx d₁ { e with undoAvailable := undoAvailable } :=
      ⟨hreserves.action.trans hreserves.evaluation.symm, hreserves.policyVersion,
        fun _ => .reconciled hlastCall, happroves⟩
    have hbase : ({ e with undoAvailable := undoAvailable } : PolicyChanged).base = e := by
      rw [PolicyChanged.base, ← hreserves.undoAvailable]
    refine Prog.Obeys.bind (obeys_publishExact (h.stored.mono rfl fun _ => id) hmay ?_ fun d₂ hd₂ => ?_)
    · rintro _ ⟨⟩
      exact ⟨hold, by rw [hbase, hreserves.decision]⟩
    have hne : ∀ last, d₂.published = some last → last.evaluation ≠ ctx.evaluation := by
      rintro last hlast heq
      obtain rfl := some.inj (hd₂.published.symm.trans hlast)
      exact haction (hreserves.evaluation.symm.trans (congrArg Evaluation.requestedAction heq))
    dsimp only
    split
    · -- the ban has to be lifted first
      refine obeys_store_map rfl trivial fun at' _ => obeys_finish_some false ?_
      exact ⟨hd₂.stored.mono rfl fun _ => id, by simp, happroves, .inr (.inr hne)⟩
    next hdowngrade =>
    obtain ⟨l, hlog, hl⟩ := hd₂.quiet.log
    have hnoted : ∀ entry, ctx.Noted s.device entry → ctx.Noted d₂ entry :=
      fun _ hs => (hs.of_log (l := [_, _]) rfl).of_log hlog
    refine ⟨⟨hd₂.stored, .inr hne, fun row hrow => .inr ?_,
      (h.first.of_log (l := [_, _]) rfl (by simp)).of_log hlog hl,
      fun row hrow hban hblock => .inr ?_, hrelease,
      fun hd retry hretry heq => hnoted _ ((h.decided hd).2 retry hretry heq),
      happroves⟩, .inr ⟨old.action, hd₂.quiet.lastCall.trans hlastCall⟩⟩
    · -- the row is left only when the very same decision is published already
      obtain rfl | ⟨-, hnone⟩ := hd₂.outcome
      · obtain rfl : old = row := some.inj (hold.symm.trans hrow)
        refine fun hblock => ⟨_, h.journal old hold, h.published.symm.trans hd₂.published, ?_,
          haction, hblock⟩
        rw [hreserves.decision, hbase]
      · simp [hnone] at hrow
    · obtain hrow' | hrow' := h.row row hrow
      · obtain rfl := some.inj (hold.symm.trans hrow')
        refine absurd ⟨hban, ?_⟩ hdowngrade
        change ctx.action = .quarantine
        rw [hban] at haction
        revert hblock haction
        cases ctx.action <;> simp [RequestedAction.isBlock]
      · exact hban ▸ hnoted _ hrow'
  | _ =>
    -- what is left unanswered is left to the owner
    exact obeys_finish_some false ⟨h.stored.mono rfl fun _ => id, by simp, happroves,
      .inl ⟨h.published, h.outbox⟩⟩

theorem Ready.obeys_settleJournal (h : Ready ctx s.device) (hst : Stored ctx.start)
    (hrelease : ctx.NoRetry) (now) : Obeys ctx (Ends ctx) ((coordinator presence events).settleJournal
      ctx.policy ctx.evaluation ctx.start.published now) s := by
  refine Prog.Obeys.bind ((h.obeys_reconcileOlder hrelease now).mono fun r s₁ hr => ?_)
  cases r with
  | error e => exact hr
  | ok decision =>
    cases decision with
    | some decision => exact hr
    | none => exact hr.1.obeys_actuate hst hr.2 now

/-- A release that has been tried is settled; its device may then be handed on. -/
theorem obeys_settleRelease {Q action undo} {f : Unit → Program α}
    (hcall : undo = .verified → ∃ a, s.device.lastCall = some (.undone a .verified))
    (hf : ∀ retry t, (undo ≠ .verified → retry ≠ none) → Obeys ctx Q (f ())
      { s with device := s.device.setRelease retry, transitions := t }) :
    Obeys ctx Q ((coordinator presence events).settleRelease now action undo >>= f) s := by
  unfold settleRelease
  by_cases hv : undo = .verified
  · simp only [hv, if_true]
    by_cases hp : (coordinator presence events).presence = true
    · simp only [hp, if_true]
      exact obeys_store rfl trivial (obeys_store rfl (fun _ => .inl (hcall hv))
        (hf none _ fun hne => absurd hv hne))
    · simp only [hp]
      exact obeys_store rfl (fun _ => .inl (hcall hv)) (hf none _ fun hne => absurd hv hne)
  · rw [if_neg hv]
    exact obeys_store_map rfl trivial fun at' _ => hf (some (action, at')) _ fun _ => by simp

/-- The release is verified, or scheduled. -/
theorem Approval.of_undone {action published} (hlast : d.lastCall = some (.undone action result))
    (hretry : result ≠ .verified → d.releaseRetry ≠ none) : Approval ctx d published result := by
  by_cases hv : result = .verified
  · exact .undone (hv ▸ hlast)
  · refine .pending (hretry hv) ?_
    by_cases hn : result = .notRequested
    · exact .inr ⟨action, hn ▸ hlast⟩
    · exact .inl hn

theorem Ready.obeys_release (h : Ready ctx s.device) (hdecides : ctx.decides = false)
    (hretry : ctx.start.releaseRetry ≠ none) (now action) :
    Obeys ctx (Ends ctx) ((coordinator presence events).release ctx.policy ctx.evaluation now action)
      s := by
  have hreleases : ctx.Releases := .inr ⟨hdecides, hretry⟩
  have hundo : Obeys ctx (Ends ctx) (router.undo action >>= fun undo =>
      router.undoAvailable action >>= fun available =>
      (coordinator presence events).settleRelease now action undo >>= fun _ =>
      (coordinator presence events).finish ctx.policy ctx.evaluation undo available) s := by
    refine obeys_undo hreleases fun undo => obeys_undoAvailable fun available => ?_
    set d₁ := (s.device.undo action undo).note (.availability action available) with hd₁
    have hlastCall : d₁.lastCall = some (.undone action undo) := rfl
    refine obeys_settleRelease (fun hv => ⟨action, by rw [hlastCall, hv]⟩) fun retry t hsome => ?_
    refine obeys_finish available ⟨h.stored.mono rfl fun _ => id, fun _ _ e he => .released hreleases he,
      fun _ => .of_undone hlastCall hsome, .inl ⟨h.published, h.outbox⟩⟩
  have hfence : Obeys ctx (Ends ctx) (store .clearReleaseRetry >>= fun _ =>
      (coordinator presence events).finish ctx.policy ctx.evaluation .verified false) s := by
    refine obeys_store rfl (fun ha => .inr ?_) (obeys_finish false ?_)
    · obtain ⟨hnone, hno, -⟩ := h.approved ha
      exact ⟨hnone, h.published ▸ hno⟩
    · exact ⟨h.stored.mono rfl fun _ => id, fun _ _ e he => .released hreleases he,
        fun _ => .fenced rfl hretry, .inl ⟨h.published, h.outbox⟩⟩
  unfold PolicyCoordinator.release PolicyCoordinator.releaseRecorded
  split
  · refine obeys_store rfl trivial ?_
    cases Presence.verifiedControlBlocked s.transitions s.device.policy.deviceId with
    | true => exact hundo
    | false => exact hfence
  · exact hundo

theorem obeys_retireAcknowledged {Q}
    {f : Unit → Program α} (hst : Stored s.device) (hf : Obeys ctx Q (f ()) s) :
    Obeys ctx Q (retireAcknowledged s.device.published >>= f) s := by
  refine Prog.Obeys.bind ?_
  unfold retireAcknowledged
  split
  · exact hf
  next last hlast =>
  split
  · refine obeys_store rfl trivial ?_
    -- no row stands for the decision that is published
    obtain hnone | ⟨row, hrow⟩ := eq_none_or_eq_some s.device.journal
    · rw [hnone]
      exact hf
    rw [hrow]
    dsimp only
    rw [if_neg]
    · exact hf
    · rintro ⟨-, -, hdecision⟩
      obtain ⟨e, hreserves, hne⟩ := hst.row row hrow
      exact hne (hlast.trans (hdecision.symm.trans hreserves.decision))
  · exact hf

/-- **An evaluation obeys the rules.** -/
theorem Ready.obeys_evaluate (h : Ready ctx s.device) (hst : Stored ctx.start) :
    Obeys ctx (Ends ctx) ((coordinator presence events).evaluate ctx.policy ctx.job.now) s := by
  refine obeys_store rfl trivial (obeys_retireAcknowledged h.stored (obeys_store rfl trivial ?_))
  have hsettle : ctx.NoRetry →
      Obeys ctx (Ends ctx) ((coordinator presence events).settleJournal ctx.policy ctx.evaluation
        s.device.published ctx.job.now) s := fun hrelease => by
    rw [h.published]
    exact h.obeys_settleJournal hst hrelease ctx.job.now
  obtain hnone | ⟨⟨action, at'⟩, hretry⟩ := eq_none_or_eq_some s.device.releaseRetry
  · rw [hnone]
    exact hsettle fun hd => .inl ((h.release hd).symm.trans hnone)
  rw [hretry]
  have hdecides : ctx.decides = false := by
    cases hd : ctx.decides with
    | false => rfl
    | true => simp [(h.decided hd).1] at hretry
  have hstart : ctx.start.releaseRetry ≠ none := by
    rw [← h.release hdecides, hretry]
    simp
  refine obeys_store rfl trivial ?_
  split
  · exact h.obeys_release hdecides hstart ctx.job.now action
  -- the retry is not due
  obtain hnone | ⟨last, hlast⟩ := eq_none_or_eq_some s.device.published
  · rw [hnone] at hsettle ⊢
    exact hsettle fun _ => .inr (h.published.symm.trans hnone)
  rw [hlast]
  refine obeys_finish _ ⟨h.stored, fun _ _ e he => .released (.inr ⟨hdecides, hstart⟩) he,
    fun ha => ?_, .inl ⟨h.published, h.outbox⟩⟩
  obtain ⟨hnone, hno, -⟩ := h.approved ha
  have hlast' := h.published.symm.trans hlast
  refine .waiting h.published hlast' rfl (hno last hlast') (by simp [hretry]) h.blocks
    fun row hrow => (h.row row hrow).resolve_left (by simp [hnone])

/-! ### The owner -/

/-- What is known when a release is approved. -/
structure Approving (ctx : Context) (d : Device) : Prop where
  approves : ctx.approves
  policy : { d.policy with ownerDecision := .approved } = ctx.policy
  stored : Stored d
  known : (d.published = ctx.start.published ∧ d.outbox = ctx.start.outbox) ∨ d.outbox = none

/-- An approval with its release scheduled may end with what came of it. -/
theorem Approving.mayFinish (h : Approving ctx d) (hst : Stored d')
    (hpub : d'.published = d.published) (houtbox : d'.outbox = d.outbox)
    (happroval : Approval ctx d' d'.published result) : MayFinish ctx d' result := by
  refine ⟨hst, fun _ _ e he => .released (.inl h.approves) he, fun _ => happroval, ?_⟩
  rw [hpub, houtbox]
  exact h.known.imp_right .inl

theorem Approving.obeys_approveVerifiedAction (h : Approving ctx s.device) (action) :
    Obeys ctx (Ends ctx) ((coordinator presence events).approveVerifiedAction action ctx.job.now)
      s := by
  refine obeys_store_map rfl trivial fun at' _ => obeys_store rfl trivial ?_
  rw [show (Site.device _).policy = ctx.policy from h.policy]
  refine obeys_undoAvailable fun canUndo => ?_
  set d₁ := ((s.device.setPolicy { s.device.policy with ownerDecision := .approved }).setRelease
    (some (action, at'))).note (.availability action canUndo) with hd₁
  unfold undoIf
  cases canUndo with
  | true =>
    refine obeys_undo (.inl h.approves) fun undo => ?_
    have hlastCall : (d₁.undo action undo).lastCall = some (.undone action undo) := rfl
    refine obeys_settleRelease (fun hv => ⟨action, by rw [hlastCall, hv]⟩) fun retry t hsome => ?_
    exact obeys_finish _ (h.mayFinish (h.stored.mono rfl fun _ => id) rfl rfl
      (.of_undone hlastCall hsome))
  | false =>
    refine obeys_settleRelease nofun fun retry t hsome => ?_
    refine obeys_finish _ (h.mayFinish (h.stored.mono rfl fun _ => id) rfl rfl ?_)
    exact .pending (hsome (by simp)) (.inl (by simp))

theorem Approving.obeys_approvePendingRelease (h : Approving ctx s.device) (action)
    {outcome} (houtcome : outcome ≠ .notRequested) :
    Obeys ctx (Ends ctx) ((coordinator presence events).approvePendingRelease action outcome
      ctx.job.now) s := by
  refine obeys_store_map rfl trivial fun at' _ => obeys_store rfl trivial ?_
  rw [show (Site.device _).policy = ctx.policy from h.policy]
  refine obeys_undoAvailable fun available => obeys_finish _ ?_
  exact h.mayFinish (h.stored.mono rfl fun _ => id) rfl rfl (.pending (by simp) (.inl houtcome))

theorem approves_iff : ctx.approves = true ↔ ctx.job.request = .approve := decide_eq_true_iff

theorem decides_of_approves (h : ctx.approves) : ctx.decides = false := by
  rw [Context.decides, approves_iff.1 h]

theorem Seen.approving (h : Seen ctx d) (hpolicy : d.policy = ctx.start.policy) (ha : ctx.approves) :
    Approving ctx d := by
  refine ⟨ha, ?_, h.stored, .inl ⟨h.published, h.outbox⟩⟩
  rw [Context.policy, approves_iff.1 ha, hpolicy]

theorem Seen.obeys_approvePublished (h : Seen ctx s.device)
    (hpolicy : s.device.policy = ctx.start.policy) (hst : Stored ctx.start) (ha : ctx.approves)
    (hretry : s.device.releaseRetry = ctx.start.releaseRetry)
    (hjournal : NoVerifiedBlock ctx.start.published → s.device.journal = none) :
    Obeys ctx (Ends ctx) ((coordinator presence events).approvePublished ctx.start.published
      ctx.job.now) s := by
  unfold approvePublished
  split
  · exact (h.approving hpolicy ha).obeys_approveVerifiedAction _
  next hfilter =>
  have hno : NoVerifiedBlock ctx.start.published := by
    intro last hlast hblock
    exact absurd (filter_eq_none_iff.1 hfilter last hlast) (by simp [hblock])
  have hdecides := decides_of_approves ha
  refine obeys_store rfl trivial (obeys_store rfl trivial ?_)
  rw [show (Site.device _).policy = ctx.policy from (h.approving hpolicy ha).policy]
  exact Ready.obeys_evaluate ⟨h.congr rfl rfl rfl rfl rfl, fun _ => hretry, by simp [hdecides],
    fun _ => ⟨hjournal hno, hno, hdecides⟩⟩ hst

/-- **An approval obeys the rules.** -/
theorem obeys_approve (hst : Stored ctx.start) (ha : ctx.approves) (t) :
    Obeys ctx (Ends ctx) ((coordinator presence events).approve ctx.job.now) ⟨ctx.start, t⟩ := by
  have hstart := Seen.start hst
  refine obeys_store rfl trivial (obeys_store rfl trivial ?_)
  dsimp only
  split
  · next hfilter =>
    -- a row that is left stands for the published block
    refine hstart.obeys_approvePublished rfl hst ha rfl fun hno => ?_
    obtain hnone | ⟨row, hrow⟩ := eq_none_or_eq_some ctx.start.journal
    · exact hnone
    obtain ⟨e, hreserves, -⟩ := hst.row row hrow
    have hprior := filter_eq_none_iff.1 hfilter row hrow
    simp only [Bool.not_eq_true', Bool.not_eq_false, Option.any_eq_true, Bool.and_eq_true,
      decide_eq_true_eq] at hprior
    obtain ⟨last, hlast, ⟨hresult, -⟩, haction⟩ := hprior
    exact absurd ⟨hresult, haction ▸ hreserves.block⟩ (hno last hlast)
  · next row hfilter =>
    obtain ⟨hrow, -⟩ := filter_eq_some_iff.1 hfilter
    obtain ⟨e, hreserves, hunpublished⟩ := hst.row row hrow
    refine obeys_reconcile (fun _ => rfl) fun answer => ?_
    have hnoted : Seen ctx (ctx.start.note (.reconciled row.action answer)) := hstart.note (by simp)
    cases answer with
    | provenNotApplied =>
      refine obeys_clear rfl hrow ⟨rfl, rfl⟩ ?_
      refine Seen.obeys_approvePublished ⟨hnoted.stored.mono rfl (by simp), rfl, rfl, rfl,
        hnoted.first, by simp, fun row' hrow' => .inr ?_⟩ rfl hst ha rfl fun _ => rfl
      obtain rfl := some.inj (hrow.symm.trans hrow')
      exact hstart.first.noted rfl
    | verifiedApplied =>
      rw [hreserves.decision]
      have hbase : e.base = e := by rw [PolicyChanged.base, ← hreserves.undoAvailable]
      have hblock : e.VerifiedBlock := ⟨hreserves.result, hreserves.action ▸ hreserves.block⟩
      have hmay : MayPublish ctx (ctx.start.note (.reconciled row.action .verifiedApplied)) e :=
        ⟨hreserves.action.trans hreserves.evaluation.symm, hreserves.policyVersion,
          fun _ => .reconciled rfl, fun _ => .inl hblock⟩
      refine Prog.Obeys.bind (obeys_publishExact hnoted.stored hmay ?_ fun d₂ hd₂ => ?_)
      · rintro _ ⟨⟩
        exact ⟨hrow, by rw [hbase, hreserves.decision]⟩
      have happroving : Approving ctx d₂ := by
        refine ⟨ha, ?_, hd₂.stored, .inr ?_⟩
        · rw [hd₂.policy]
          exact (hnoted.approving rfl ha).policy
        · obtain rfl | ⟨hnone, -⟩ := hd₂.outcome
          · exact absurd hd₂.published hunpublished
          · exact hnone
      unfold recordRecovered
      dsimp only
      split
      · exact obeys_store rfl trivial (happroving.obeys_approveVerifiedAction _)
      · exact happroving.obeys_approveVerifiedAction _
    | _ =>
      exact (hnoted.approving rfl ha).obeys_approvePendingRelease _ (by simp)

/-- **A rejection or a quarantine obeys the rules.** -/
theorem obeys_setOwnerDecisionAfterReleaseGuard (hst : Stored ctx.start) (hdecides : ctx.decides)
    {owner} (hpolicy : { ctx.start.policy with ownerDecision := owner } = ctx.policy) (t) :
    Obeys ctx (Ends ctx) ((coordinator presence events).setOwnerDecisionAfterReleaseGuard owner
      ctx.job.now) ⟨ctx.start, t⟩ := by
  have happroves {p : Prop} (ha : ctx.approves) : p := by
    simp [Context.decides, approves_iff.1 ha] at hdecides
  have hstart := Seen.start hst
  -- once no release is scheduled the decision is evaluated
  have hevaluate : ∀ d, Seen ctx d → d.policy = ctx.start.policy →
      (∀ retry, ctx.start.releaseRetry = some retry → retry.1 = ctx.action →
        ctx.Noted d (.reconciled ctx.action .provenNotApplied)) →
      Obeys ctx (Ends ctx) ((coordinator presence events).decideAndEvaluate owner ctx.job.now)
        ⟨d.setRelease none, t⟩ := by
    intro d hd hsame hdecided
    refine obeys_store rfl trivial (obeys_store rfl trivial ?_)
    have hp : { d.policy with ownerDecision := owner } = ctx.policy := hsame ▸ hpolicy
    rw [show (Site.device _).policy = ctx.policy from hp]
    exact Ready.obeys_evaluate ⟨hd.congr rfl rfl rfl rfl rfl, by simp [hdecides],
      fun _ => ⟨rfl, hdecided⟩, happroves⟩ hst
  refine obeys_store rfl trivial (obeys_store rfl trivial ?_)
  dsimp only
  rw [hpolicy]
  obtain hnone | ⟨⟨action, at'⟩, hretry⟩ := eq_none_or_eq_some ctx.start.releaseRetry
  · rw [hnone]
    have hsame : ctx.start.setRelease none = ctx.start := hnone ▸ rfl
    exact hsame ▸ hevaluate _ hstart rfl (by simp [hnone])
  rw [hretry]
  dsimp only [map_some]
  split
  · next haction =>
    have haction : ctx.action = action := haction
    refine obeys_reconcile happroves fun answer => ?_
    cases answer with
    | provenNotApplied =>
      refine obeys_store rfl happroves (hevaluate _ (hstart.note (by simp)) rfl fun retry _ _ => ?_)
      rw [haction]
      exact hstart.first.noted rfl
    | verifiedApplied =>
      refine obeys_store rfl happroves (obeys_store rfl trivial
        (obeys_store rfl trivial ?_))
      rw [show (Site.device _).policy = ctx.policy from hpolicy]
      refine obeys_undoAvailable fun undoAvailable => obeys_finish _ ?_
      exact ⟨hst.mono rfl fun _ => id, fun _ _ e _ => .reconciled rfl,
        happroves, .inl ⟨rfl, rfl⟩⟩
    | _ => exact .pendingRelease hdecides
  · next haction =>
    refine obeys_store rfl happroves (hevaluate _ hstart rfl fun retry hretry' heq => ?_)
    obtain rfl := some.inj (hretry.symm.trans hretry')
    exact absurd heq.symm haction

theorem obeys_extendOnce (hst : Stored ctx.start) {until'}
    (hrequest : ctx.job.request = .extendOnce until') (t) :
    Obeys ctx (Ends ctx) ((coordinator presence events).extendOnce until' ctx.job.now)
      ⟨ctx.start, t⟩ := by
  have hdecides : ctx.decides = false := by rw [Context.decides, hrequest]
  have happroves {p : Prop} (ha : ctx.approves) : p := by simp [approves_iff.1 ha] at hrequest
  have hevaluate : ∀ used, Obeys ctx (Ends ctx) (store .load >>= fun p =>
      (coordinator presence events).evaluate p ctx.job.now)
      ⟨{ ctx.start with policy := ctx.policy, extensionUsed := used }, t⟩ := by
    intro used
    refine obeys_store rfl trivial ?_
    exact Ready.obeys_evaluate ⟨(Seen.start hst).congr rfl rfl rfl rfl rfl, fun _ => rfl,
      by simp [hdecides], happroves⟩ hst
  cases hdue : ctx.start.policy.firstSeenAt.checkedAddSigned
      ctx.start.policy.identification.deadline.2.1 with
  | none =>
    refine obeys_store_none ?_ trivial
    simp [run, hdue]
  | some due =>
    by_cases hlater : due < until'
    · cases hused : ctx.start.extensionUsed with
      | true =>
        have hrun : run ⟨ctx.start, t⟩ (.extendOnce until') =
            some (.ok false, ⟨ctx.start, t⟩) := by
          simp [run, hdue, hlater, hused]
        have hpolicy : ctx.policy = ctx.start.policy := by
          simp [Context.policy, hrequest, hused]
        have := hevaluate ctx.start.extensionUsed
        rw [hpolicy] at this
        exact obeys_store hrun trivial this
      | false =>
        have hrun : run ⟨ctx.start, t⟩ (.extendOnce until') = some (.ok true,
            ⟨{ ctx.start with policy := ctx.policy, extensionUsed := true }, t⟩) := by
          simp [run, hdue, hlater, hused, Context.policy, hrequest]
        exact obeys_store hrun trivial (hevaluate true)
    · have hrun : run ⟨ctx.start, t⟩ (.extendOnce until') =
          some (.error .extensionNotLater, ⟨ctx.start, t⟩) := by
        simp [run, hdue, hlater]
      exact obeys_store_error hrun trivial (.extensionNotLater hrequest hdue (not_lt.1 hlater))

end Evaluate

/-- **Every operation obeys the rules.** -/
theorem program_obeys (presence events : Bool) (hst : Stored ctx.start) (t) :
    Obeys ctx (Ends ctx) (ctx.job.program (coordinator presence events)) ⟨ctx.start, t⟩ := by
  unfold Job.program
  cases hrequest : ctx.job.request with
  | evaluate p =>
    have hdecides : ctx.decides = false := by rw [Context.decides, hrequest]
    have hpolicy : p = ctx.policy := by rw [Context.policy, hrequest]
    dsimp only
    rw [hpolicy]
    refine Ready.obeys_evaluate ⟨.start hst, fun _ => rfl, by simp [hdecides], fun ha => ?_⟩ hst
    simp [approves_iff.1 ha] at hrequest
  | approve => exact obeys_approve hst (approves_iff.2 hrequest) t
  | reject | quarantine =>
    exact obeys_setOwnerDecisionAfterReleaseGuard hst (by rw [Context.decides, hrequest])
      (by rw [Context.policy, hrequest]) t
  | extendOnce until' => exact obeys_extendOnce hst hrequest t

end NeonHearth.Policy
