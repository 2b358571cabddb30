import NeonHearth.Data.History
import NeonHearth.Policy.Sequential

/-!
# Blocks are asked for once

A journal row is reserved before the router is asked for a block, and it stays until its decision
has been published or a look at the router has shown that the block is not in place.

* `single_actuation` : across all operations and crashes, and whatever the router answers, no second
  block is asked for before the row of the first is settled;
* `banned_once` : a verified permanent ban is neither asked for again nor replaced by a quarantine
  before it is lifted, in runs whose operations find the ban fenced.  The journal row of a ban
  that has been acknowledged is gone, and an owner who then asks for a quarantine gets one over the
  ban (`quarantinedBan_not_bannedOnce`).
-/

namespace NeonHearth.Policy

open Option List

variable {presence events : Bool} {ctx : Context} {d d' : Device} {s : CoordinatorState}

/-- The router was asked to block the device. -/
def Entry.isEnforced : Entry → Bool
  | .enforced .. => true
  | _ => false

theorem Entry.isEnforced_iff {entry : Entry} :
    entry.isEnforced ↔ ∃ a att r, entry = .enforced a att r := by
  cases entry <;> simp [isEnforced]

/-! ### Single actuation -/

namespace ActuationAttempt

variable (row : ActuationAttempt)

/-- The verified decision of the row is published, or its block was shown not to be in place. -/
def Settles : Entry → Prop
  | .acknowledged e => e.enforcementResult = .verified ∧ row.decision = some e.base
  | .reconciled action answer => action = row.action ∧ answer = .provenNotApplied
  | _ => False

/-- The router was asked for the block of the row. -/
def Asks (entry : Entry) : Prop := ∃ a r, entry = .enforced a (some row) r

/-- The router was asked for the block of the row, and the row is not settled. -/
abbrev Unsettled (log : List Entry) : Prop := OpenSince row.Asks row.Settles log

end ActuationAttempt

/-- Every block is asked for with its journal row, and only after every row asked for before it has
been settled; the row stays until it is settled. -/
structure SingleActuation (d : Device) : Prop where
  row : ∀ later a att r earlier, d.log = later ++ .enforced a att r :: earlier → ∃ row,
    att = some row ∧ row.action = a ∧ ((∃ entry ∈ later, row.Settles entry) ∨ d.journal = some row)
  once : ∀ later a att r between a' row r' earlier,
    d.log = later ++ .enforced a att r :: (between ++ .enforced a' (some row) r' :: earlier) →
      ∃ entry ∈ between, row.Settles entry

/-- What the calls keep about the journal and the log. -/
structure Journalled (d : Device) : Prop where
  rows : ∀ a att r, Entry.enforced a att r ∈ d.log → ∃ row, att = some row ∧ row.action = a
  unsettled : ∀ row : ActuationAttempt, row.Unsettled d.log → d.journal = some row
  /-- After a reservation nothing is unsettled. -/
  reserved : ∀ row, d.log.head? = some (.reserved row) → ∀ row' : ActuationAttempt,
    ¬row'.Unsettled d.log
  once : NeverWhile (·.isEnforced) (fun log => ∃ row : ActuationAttempt, row.Unsettled log) d.log

/-- An entry about anything but a block or a reservation. -/
theorem Journalled.entry (h : Journalled d) {entry : Entry} (hlog : d'.log = entry :: d.log)
    (hblock : ¬entry.isEnforced) (hreserved : ∀ row, entry ≠ .reserved row)
    (hjournal : ∀ row, d.journal = some row → row.Unsettled d.log → ¬row.Settles entry →
      d'.journal = some row) : Journalled d' := by
  refine ⟨fun a att r hmem => ?_, fun row hrow => ?_, fun row hhead => ?_, ?_⟩
  · rw [hlog, mem_cons] at hmem
    obtain rfl | hmem := hmem
    · exact absurd rfl hblock
    · exact h.rows a att r hmem
  · rw [hlog, ActuationAttempt.Unsettled, openSince_cons] at hrow
    obtain ⟨hnot, hasks | hrow⟩ := hrow
    · obtain ⟨a, r, rfl⟩ := hasks
      exact absurd rfl hblock
    · exact hjournal row (h.unsettled row hrow) hrow hnot
  · rw [hlog] at hhead
    exact absurd (some.inj hhead) (hreserved row)
  · rw [hlog]
    exact h.once.cons fun hb => absurd hb hblock

/-- Nothing is noted, and the journal may lose a row that is settled. -/
theorem Journalled.mono (h : Journalled d) (hlog : d'.log = d.log)
    (hjournal : ∀ row, d.journal = some row → row.Unsettled d.log → d'.journal = some row) :
    Journalled d' := by
  refine ⟨hlog ▸ h.rows, fun row hrow => ?_, hlog ▸ h.reserved, hlog ▸ h.once⟩
  rw [hlog] at hrow
  exact hjournal row (h.unsettled row hrow) hrow

theorem Journalled.reserve (h : Journalled d) (hnone : d.journal = none) (row) :
    Journalled (d.reserve row) := by
  -- with no row in the journal nothing is unsettled
  have hsettled : ∀ row' : ActuationAttempt, ¬row'.Unsettled (d.reserve row).log := by
    intro row' hrow'
    obtain ⟨-, ⟨a, r, hasks⟩ | hrow'⟩ := openSince_cons.1 hrow'
    · cases hasks
    · simpa [hnone] using h.unsettled row' hrow'
  refine ⟨fun a att r hmem => ?_, fun row' hrow' => absurd hrow' (hsettled row'),
    fun _ _ => hsettled, h.once.cons (by simp [Entry.isEnforced])⟩
  exact h.rows a att r (by simpa using hmem)

variable {action : RequestedAction}

theorem Journalled.enforce (h : Journalled d) {result}
    {applied : Bool} (hmay : MayEnforce ctx d action) :
    Journalled (d.enforce action result applied) := by
  obtain ⟨row, hrow, haction, -, hhead⟩ := hmay.reserved
  have hsettled := h.reserved row hhead
  refine ⟨fun a att r hmem => ?_, fun row' hrow' => ?_, fun _ hhead => by simp at hhead,
    h.once.cons fun _ hopen => ?_⟩
  · obtain heq | hmem := mem_cons.1 hmem
    · cases heq
      exact ⟨row, hrow, haction⟩
    · exact h.rows a att r hmem
  · obtain ⟨-, ⟨a, r, hasks⟩ | hrow'⟩ := openSince_cons.1 hrow'
    · injection hasks
    · exact absurd hrow' (hsettled row')
  · obtain ⟨row', hrow'⟩ := hopen
    exact hsettled row' hrow'

theorem journalled_keeps : Keeps .free Journalled fun _ => Journalled where
  enrolled _ _ _ := ⟨by simp [Device.enrolled], fun _ h => h.elim, by simp [Device.enrolled], trivial⟩
  edited h _ := h.mono rfl fun _ hrow _ => hrow
  begins h _ _ := h
  ends h := h
  calls := by
    intro ctx d d' c answer h hst hc _ hchange
    cases hchange with
    | keep | scheduleRelease | clearRelease => exact h.mono rfl fun _ hrow _ => hrow
    | reserve policyVersion action decision hnone => exact h.reserve hnone _
    | retire policyVersion action =>
      obtain ⟨hhead, row, hrow, -, haction⟩ := hc
      refine h.mono rfl fun row' hrow' hunsettled => ?_
      -- the look that retires the row settles it
      obtain rfl := some.inj (hrow.symm.trans hrow')
      obtain ⟨l, hl⟩ := head?_eq_some_iff.1 hhead
      rw [hl] at hunsettled
      exact absurd ⟨haction.symm, rfl⟩ hunsettled.1
    | acknowledgeAndRetire event attempt =>
      have hc : MayAcknowledge ctx d event (some attempt) := hc
      refine h.entry rfl (by simp [Entry.isEnforced]) (by simp) fun row hrow _ hnot => ?_
      -- the row that is retired stands for the decision
      obtain ⟨hattempt, hdecision⟩ := hc.retired attempt rfl
      obtain rfl := some.inj (hattempt.symm.trans hrow)
      obtain ⟨e, hreserves, -⟩ := hst.row _ hrow
      obtain rfl := some.inj (hdecision.symm.trans hreserves.decision)
      exact absurd ⟨hreserves.result, hdecision⟩ hnot
    | enforce action result applied => exact h.enforce hc
    | _ =>
      exact h.entry rfl (by simp [Entry.isEnforced]) (by simp) fun _ hrow _ _ => hrow

/-- **Crash-safe single actuation**, in every run and whatever the router answers. -/
theorem single_actuation (h : (coordinatorMachine presence events).Reachable s) {id : DeviceId}
    (hd : s.devices.get id = some d) : SingleActuation d := by
  have hj := journalled_keeps.idle_of_via
    (h.mono fun s e _ => by cases e <;> simp [Guard.Holds, Guard.free]) hd
  have hasks : ∀ (row : ActuationAttempt) a r, row.Asks (.enforced a (some row) r) :=
    fun _ a r => ⟨a, r, rfl⟩
  refine ⟨fun later a att r earlier hlog => ?_, fun later a att r between a' row r' earlier hlog => ?_⟩
  · obtain ⟨row, rfl, haction⟩ := hj.rows a att r (by simp [hlog])
    refine ⟨row, rfl, haction, ?_⟩
    have hopen := closed_or_openSince later earlier (hasks row a r)
      (show ¬row.Settles (.enforced a (some row) r) from not_false)
    exact hopen.imp_right fun hopen => hj.unsettled row (hlog ▸ hopen)
  · have hnever := neverWhile_iff.1 hj.once later _ _ hlog rfl
    have hopen := closed_or_openSince between earlier (hasks row a' r')
      (show ¬row.Settles (.enforced a' (some row) r') from not_false)
    exact hopen.resolve_right fun hopen => hnever ⟨row, hopen⟩

/-- A rejection is cut off after the router was asked, and the owner asks again. -/
def repeatedRejection : List CoordinatorEvent :=
  enrollCamera :: begin' (.reject camera (halfSecond 10)) 8 ++
    [.call (.enforced .failed true), .crash] ++ begin' (.reject camera (halfSecond 20)) 8 ++
    answer (.reconciled .provenNotApplied) 2 ++ answer (.enforced .verified true) 1 ++
    answer (.available false) 3 ++ [.finish]

theorem repeatedRejection_single : ∃ s d,
    (coordinatorMachine false false).exec newCoordinator repeatedRejection = some s ∧
      s.devices.get camera = some d ∧ d.log.countP (·.isEnforced) = 2 ∧ SingleActuation d := by
  refine exists₂_and_imp (by decide +kernel) fun s d hs hd _ => ?_
  exact single_actuation (Machine.reachable_of_exec newCoordinator_init hs) hd

/-! ### Bans -/

/-- A permanent ban is verified. -/
def Entry.bans : Entry → Bool
  | .enforced .permanentBan _ .verified => true
  | _ => false

/-- A ban is lifted, or was shown not to be in place. -/
def Entry.lifts : Entry → Bool
  | .undone _ .verified | .reconciled .permanentBan .provenNotApplied => true
  | _ => false

/-- The device carries a verified ban, as far as the router has told. -/
abbrev Banned (log : List Entry) : Prop := OpenSince (·.bans) (·.lifts) log

/-- After a verified ban no block is asked for before the ban is lifted. -/
def BannedOnce (d : Device) : Prop :=
  ∀ later a att r between att' earlier,
    d.log = later ++ .enforced a att r ::
      (between ++ .enforced .permanentBan att' .verified :: earlier) →
    ∃ entry ∈ between, entry.lifts

theorem Entry.bans_iff {entry : Entry} :
    entry.bans ↔ ∃ att, entry = .enforced .permanentBan att .verified := by
  constructor
  · intro h
    unfold Entry.bans at h
    split at h
    · exact ⟨_, rfl⟩
    · cases h
  · rintro ⟨att, rfl⟩
    rfl

/-- What keeps an operation from asking for a block over a ban: the journal row of the ban, the
verified decision of the same evaluation, a release that waits, or the approval of a verified
block. -/
def Context.Fenced (ctx : Context) : Prop :=
  (∃ row ∈ ctx.start.journal, row.action = .permanentBan) ∨
  ctx.PriorVerified ctx.start.published ∨
  (ctx.decides = false ∧ ctx.start.releaseRetry ≠ none ∧ ctx.start.published ≠ none) ∨
  (ctx.decides ∧ ctx.evaluation.requestedAction = .permanentBan ∧
    ∃ retry ∈ ctx.start.releaseRetry, retry.1 = .permanentBan) ∨
  (ctx.approves ∧ ∃ last ∈ ctx.start.published, last.VerifiedBlock)
  deriving Decidable

/-- An operation that asks for a block of a banned device finds the ban fenced. -/
abbrev fencesBans : Guard where
  begins ctx := Banned ctx.start.log → ctx.evaluation.requestedAction.isBlock →
    ctx.policy.protection = .none → ctx.Fenced
  calls _ _ _ _ := True

/-- An operation that asks for its first block while the device is banned has found it banned, and
has not been told otherwise. -/
theorem banned_start (hfirst : ctx.First d) (hbanned : Banned d.log) :
    Banned ctx.start.log ∧ ∀ entry, ctx.Noted d entry → ¬entry.lifts := by
  obtain ⟨recent, hrecent, hnot⟩ := hfirst
  rw [hrecent] at hbanned
  obtain hopen | ⟨hlifts, hstart⟩ := openSince_append.1 hbanned
  · -- a ban among the recent entries would be a block asked for
    obtain ⟨later, ban, earlier, rfl, hbans, -⟩ := openSince_iff.1 hopen
    obtain ⟨att, rfl⟩ := Entry.bans_iff.1 hbans
    exact absurd (by simp) (hnot .permanentBan att .verified)
  · refine ⟨hstart, ?_⟩
    rintro entry ⟨recent', hrecent', hmem⟩
    rw [append_cancel_right (hrecent'.symm.trans hrecent)] at hmem
    exact hlifts entry hmem

/-- A fenced ban keeps every rule for a block from being met. -/
theorem Context.Fenced.not_mayEnforce (h : ctx.Fenced)
    (hnoted : ∀ entry, ctx.Noted d entry → ¬entry.lifts) (hmay : MayEnforce ctx d action) : False := by
  obtain ⟨row, hrow, haction⟩ | hprior | ⟨hd, hretry, hpub⟩ | ⟨hd, haction, retry, hretry, heq⟩ |
    ⟨ha, last, hlast, hblock⟩ := h
  · exact hnoted _ (hmay.ban row hrow haction) rfl
  · exact hmay.start hprior
  · exact (hmay.release hd).elim hretry hpub
  · have hban : action = .permanentBan := hmay.requested.trans haction
    subst hban
    exact hnoted _ (hmay.decided hd retry hretry heq) rfl
  · exact (hmay.approved ha).1 last hlast hblock

theorem bannedOnce_keeps : Keeps fencesBans
    (fun d => NeverWhile (·.isEnforced) Banned d.log)
    (fun ctx d => fencesBans.begins ctx ∧ NeverWhile (·.isEnforced) Banned d.log) where
  enrolled _ _ _ := trivial
  edited h _ := h
  begins h _ hg := ⟨hg, h⟩
  ends h := h.2
  calls := by
    rintro ctx d d' c answer ⟨hg, h⟩ hst hc - hchange
    refine ⟨hg, ?_⟩
    cases hchange with
    | keep | retire | scheduleRelease | clearRelease => exact h
    | enforce action result applied =>
      have hc : MayEnforce ctx d action := hc
      refine h.cons fun _ hbanned => ?_
      obtain ⟨hstart, hnoted⟩ := banned_start hc.first hbanned
      exact (hg hstart (hc.requested ▸ hc.block) hc.unprotected).not_mayEnforce hnoted hc
    | _ => exact h.cons (by simp [Entry.isEnforced])

theorem bannedOnce_iff : BannedOnce d ↔ NeverWhile (·.isEnforced) Banned d.log := by
  rw [neverWhile_iff]
  constructor
  · rintro h later entry earlier hlog hentry hbanned
    obtain ⟨a, att, r, rfl⟩ := Entry.isEnforced_iff.1 hentry
    obtain ⟨between, ban, earlier, rfl, hbans, -, hlifts⟩ := openSince_iff.1 hbanned
    obtain ⟨att', rfl⟩ := Entry.bans_iff.1 hbans
    obtain ⟨entry, hmem, hlift⟩ := h later a att r between att' earlier hlog
    exact hlifts entry hmem hlift
  · intro h later a att r between att' earlier hlog
    have hban : (∃ entry ∈ between, entry.lifts) ∨
        Banned (between ++ .enforced .permanentBan att' .verified :: earlier) :=
      closed_or_openSince between earlier rfl (by simp [Entry.lifts])
    exact hban.resolve_right (h later _ _ hlog rfl)

instance (d : Device) : Decidable (BannedOnce d) := decidable_of_iff _ bannedOnce_iff.symm

/-- **A ban is applied once and not downgraded** in every run whose operations find bans fenced. -/
theorem banned_once (h : (coordinatorMachine presence events).Via fencesBans.Holds s) {id : DeviceId}
    (hd : s.devices.get id = some d) : BannedOnce d :=
  bannedOnce_iff.2 (bannedOnce_keeps.idle_of_via h hd)

/-- The owner rejects the camera; the ban is verified and acknowledged. -/
def ban : List CoordinatorEvent :=
  enrollCamera :: begin' (.reject camera (halfSecond 10)) 8 ++ answer (.enforced .verified true) 1 ++
    answer (.available false) 3 ++ [.finish]

/-- The owner asks for a quarantine of the banned camera. -/
def quarantinedBan : List CoordinatorEvent :=
  ban ++ begin' (.quarantine camera (halfSecond 20)) 9 ++ [.call (.enforced .verified true)]

theorem quarantinedBan_not_bannedOnce : ∃ s d, (coordinatorMachine false false).Reachable s ∧
    s.devices.get camera = some d ∧ ¬BannedOnce d := by
  obtain ⟨s, hs, d, h⟩ :
      ∃ s, (coordinatorMachine false false).exec newCoordinator quarantinedBan = some s ∧
        ∃ d, s.devices.get camera = some d ∧ ¬BannedOnce d := by decide +kernel
  exact ⟨s, d, Machine.reachable_of_exec newCoordinator_init hs, h⟩

/-- A sweep finds the ban verified; after the release of the camera it is quarantined. -/
def releasedBan : List CoordinatorEvent :=
  ban ++ begin' (.sweep (halfSecond 20)) 5 ++ answer (.available false) 1 ++ [.finish] ++
    begin' (.approve camera (halfSecond 30)) 4 ++ answer (.available true) 0 ++
    answer (.undone .verified) 3 ++ [.finish] ++
    begin' (.quarantine camera (halfSecond 40)) 9 ++ [.call (.enforced .verified true)]

theorem releasedBan_bannedOnce : ∃ s d,
    (coordinatorMachine false false).exec newCoordinator releasedBan = some s ∧
      s.devices.get camera = some d ∧ d.log.countP (·.isEnforced) = 2 ∧ BannedOnce d := by
  refine exists₂_and_imp (by decide +kernel) fun s d hs hd _ => ?_
  exact banned_once (.exec (.start newCoordinator_init) (by decide +kernel) hs) hd

end NeonHearth.Policy
