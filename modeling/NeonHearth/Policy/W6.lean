import NeonHearth.Policy.Discipline

/-!
# The W6 actuator

The actuator that drives a W6 appliance keeps an attempt record of its own beside the journal: it is
written before the appliance is asked to block, and completed after the appliance has verified the
block.  The connector is behind a mutex that `enforce` holds from the first look at the appliance to
the completion of the record; `reconcile` and `undo` read the record before they take it.
-/

namespace NeonHearth.Policy

/-- How far the appliance is trusted. -/
inductive DiscoveryStatus where
  | trusted
  | readOnly
  | manualRequired
  deriving DecidableEq

/-- The capabilities of the appliance that the policy uses. -/
inductive RequestedQuarantine where
  | denyInternet
  | persistentFilter
  deriving DecidableEq

/-- What can go wrong with the appliance. -/
inductive W6Error where
  | transport
  | authentication
  | sessionExpired
  | unknownProfile
  | capabilityUnavailable
  | capacityExhausted
  | invalidCapacity
  | verificationFailed
  | manualRequired
  | readOnly
  deriving DecidableEq

/-- What reading back has shown. -/
inductive Verification where
  | verified
  | unverified

/-- What the appliance does to a device. -/
structure DeviceState where
  disconnectNow : Bool
  denyWifiAssociation : Bool
  denyInternet : Bool
  denyLan : Bool
  persistentFilter : Bool
  filterEntries : ℕ
  deriving DecidableEq

/-- What the appliance was found to support. -/
structure Profile where
  capabilities : List RequestedQuarantine
  filterCapacity : Option ℕ

/-- A request, and the state it was prepared in. -/
structure PreparedMutation where
  request : RequestedQuarantine
  previous : DeviceState

/-- A row of `w6_policy_prior_state`. -/
structure W6Attempt where
  restore : DeviceState
  action : RequestedAction
  preparedBefore : DeviceState
  verifiedAfter : Option DeviceState

/-- The capability for an action. -/
def RequestedAction.request : RequestedAction → Option RequestedQuarantine
  | .quarantine => some .denyInternet
  | .permanentBan => some .persistentFilter
  | .none | .ownerAttention => Option.none

/-- The action that a capability is for. -/
def RequestedQuarantine.action : RequestedQuarantine → RequestedAction
  | .denyInternet => .quarantine
  | .persistentFilter => .permanentBan

/-! ### Calls -/

/-- What the actuator asks of the appliance and the record. -/
inductive W6Command where
  | lock
  | unlock
  | discoveryStatus
  | prepareQuarantine (request : RequestedQuarantine)
  | beginAttempt (action : RequestedAction) (before : DeviceState)
  | applyPrepared (prepared : PreparedMutation)
  | readState
  | markVerified (action : RequestedAction) (after : DeviceState)
  | loadAttempt
  | load
  | restore (previous : DeviceState)
  | remove

/-- A write to the record replies whether it succeeded, a read of it with `none` if it did not. -/
@[reducible]
def W6Command.Reply : W6Command → Type
  | lock | unlock => Unit
  | discoveryStatus => DiscoveryStatus
  | prepareQuarantine _ => Except W6Error PreparedMutation
  | beginAttempt .. | markVerified .. | remove => Bool
  | applyPrepared _ | restore _ => Except W6Error Verification
  | readState => Except W6Error DeviceState
  | loadAttempt => Option (Option W6Attempt)
  | load => Option (Option DeviceState)

/-- The calls of the actuator. -/
@[reducible]
def w6Calls : PFunctor.{0, 0} := ⟨W6Command, W6Command.Reply⟩

/-- A call of a coordinator that works with the appliance. -/
abbrev W6Call : Type := (Calls w6Calls).A

/-- A program of such a coordinator. -/
abbrev W6Program (α : Type) : Type := Prog (Calls w6Calls) PolicyError α

/-- One call of the actuator. -/
def w6 (c : W6Command) : W6Program c.Reply := Prog.await (F := Calls w6Calls) (.inr c)

namespace W6PolicyActuator

/-- With the connector. -/
def locked {α : Type} (body : W6Program α) : W6Program α := do
  w6 .lock
  let result ← body
  w6 .unlock
  return result

/-- The errors that a later attempt may not meet. -/
def isFailure : W6Error → Bool
  | .transport | .authentication | .sessionExpired => true
  | _ => false

/-- The record of a verified block is completed. -/
def recordVerified (action : RequestedAction) : W6Program EnforcementStatus := do
  match ← w6 .readState with
  | .error _ => return .failed
  | .ok after =>
    let written ← w6 (.markVerified action after)
    return if written then .verified else .failed

/-- The block is asked for, and recorded once verified. -/
def applyAttempt (action : RequestedAction) (prepared : PreparedMutation) :
    W6Program EnforcementStatus := do
  match ← w6 (.applyPrepared prepared) with
  | .ok .verified => recordVerified action
  | .ok .unverified => return .manualRequired
  | .error e => return if isFailure e ∨ e = .verificationFailed then .failed else .manualRequired

/-- The record is written before the block is asked for. -/
def enforceLocked (action : RequestedAction) (request : RequestedQuarantine) :
    W6Program EnforcementStatus := do
  if (← w6 .discoveryStatus) = .trusted then
    match ← w6 (.prepareQuarantine request) with
    | .error e => return if isFailure e then .failed else .manualRequired
    | .ok prepared =>
      if ← w6 (.beginAttempt action prepared.previous) then applyAttempt action prepared
      else return .failed
  else return .manualRequired

/-- A block. -/
def enforce (action : RequestedAction) : W6Program EnforcementStatus :=
  match action.request with
  | none => pure .manualRequired
  | some request => locked (enforceLocked action request)

/-- The record against the appliance. -/
def reconcileLocked (attempt : W6Attempt) : W6Program ActuationReconciliation := do
  if (← w6 .discoveryStatus) = .trusted then
    match ← w6 .readState with
    | .error e => return if isFailure e then .failed else .manualRequired
    | .ok current =>
      return if current = attempt.preparedBefore ∧ attempt.verifiedAfter = none then .provenNotApplied
        else if attempt.verifiedAfter = some current then .verifiedApplied
        else .indeterminate
  else return .manualRequired

/-- Whether a block is in place. -/
def reconcile (action : RequestedAction) : W6Program ActuationReconciliation :=
  match action.request with
  | none => pure .manualRequired
  | some _ => do
    match ← w6 .loadAttempt with
    | none => return .indeterminate
    -- without a record nothing was asked for
    | some none => return .provenNotApplied
    | some (some attempt) =>
      if attempt.action = action then locked (reconcileLocked attempt) else return .indeterminate

/-- The state is restored and the record removed. -/
def undoLocked (previous : DeviceState) : W6Program EnforcementStatus := do
  match ← w6 (.restore previous) with
  | .ok .verified =>
    let removed ← w6 .remove
    return if removed then .verified else .failed
  | .ok .unverified => return .failed
  | .error e => return if e = .verificationFailed then .failed else .manualRequired

/-- A release. -/
def undo (action : RequestedAction) : W6Program EnforcementStatus :=
  match action.request with
  | none => pure .manualRequired
  | some _ => do
    match ← w6 .load with
    | some (some previous) => locked (undoLocked previous)
    | some none | none => return .manualRequired

/-- Whether there is a state to restore. -/
def undoAvailable (action : RequestedAction) : W6Program Bool :=
  match action.request with
  | none => pure false
  | some _ => do
    let state ← w6 .load
    return state.any (·.isSome)

end W6PolicyActuator

/-- `W6PolicyActuator`. -/
def w6PolicyActuator : Actuator w6Calls where
  enforce := W6PolicyActuator.enforce
  reconcile := W6PolicyActuator.reconcile
  undo := W6PolicyActuator.undo
  undoAvailable := W6PolicyActuator.undoAvailable

/-- The coordinator of this actuator. -/
def w6Coordinator (presence events : Bool) : PolicyCoordinator w6Calls :=
  ⟨w6PolicyActuator, presence, events⟩

/-! ### The appliance -/

/-- The two coordinators. -/
inductive Side where
  | sweep
  | owner
  deriving DecidableEq

/-- The other one. -/
def Side.other : Side → Side
  | .sweep => .owner
  | .owner => .sweep

/-- What the coordinators share besides the tables of the policy. -/
structure Appliance where
  attempt : Option W6Attempt
  /-- The state of the device on the appliance. -/
  state : DeviceState
  status : DiscoveryStatus
  profile : Option Profile
  /-- Who holds the connector. -/
  holder : Option Side

/-- How a call goes. -/
inductive W6Answer where
  | works
  /-- It fails and has no effect. -/
  | fails (e : W6Error)
  /-- It has its effect, and the reply is an error. -/
  | lost (e : W6Error)

/-- What the appliance makes of a request. -/
def DeviceState.apply (state : DeviceState) : RequestedQuarantine → DeviceState
  | .denyInternet => { state with denyInternet := true }
  | .persistentFilter =>
    { state with persistentFilter := true, filterEntries := state.filterEntries + 1 }

/-- `W6_PERSISTENT_FILTER_LIMIT`. -/
def w6PersistentFilterLimit : ℕ := 32

/-- There is room for one more persistent filter. -/
def Profile.requireCapacity (profile : Profile) (previous : DeviceState) : Except W6Error Unit :=
  match profile.filterCapacity with
  | none => .error .invalidCapacity
  | some capacity =>
    if capacity = 0 ∨ w6PersistentFilterLimit < capacity then .error .invalidCapacity
    else if capacity ≤ previous.filterEntries then .error .capacityExhausted
    else .ok ()

/-- The state after a request is as it should be. -/
def Profile.verifies (profile : Profile) (prepared : PreparedMutation) (after : DeviceState) : Bool :=
  match prepared.request with
  | .denyInternet => after.denyInternet
  | .persistentFilter => after.persistentFilter &&
    prepared.previous.filterEntries + 1 = after.filterEntries &&
    profile.filterCapacity.any (after.filterEntries ≤ ·) &&
    after.filterEntries ≤ w6PersistentFilterLimit

namespace Appliance

variable (a : Appliance)

/-- The appliance may be written to. -/
def requireTrusted : Except W6Error Unit :=
  match a.status with
  | .trusted => .ok ()
  | .readOnly => .error .readOnly
  | .manualRequired => .error .manualRequired

/-- The profile, if it is known. -/
def knownProfile : Except W6Error Profile :=
  match a.profile with
  | some profile => .ok profile
  | none => .error .unknownProfile

/-- The state that the appliance reports. -/
def callState : W6Answer → Except W6Error DeviceState
  | .fails e => .error e
  | .works | .lost _ => .ok a.state

/-- The appliance can do what is asked. -/
def prepareQuarantine (request : RequestedQuarantine) (answer : W6Answer) :
    Except W6Error PreparedMutation := do
  a.requireTrusted
  let profile ← a.knownProfile
  if request ∈ profile.capabilities then
    let previous ← a.callState answer
    if request = .persistentFilter then profile.requireCapacity previous
    return ⟨request, previous⟩
  else throw .capabilityUnavailable

/-- What `apply_prepared` checks before it asks for the block: the state has not changed. -/
def confirmPrepared (prepared : PreparedMutation) (answer : W6Answer) : Except W6Error Profile := do
  a.requireTrusted
  let profile ← a.knownProfile
  let current ← a.callState answer
  if current = prepared.previous then return profile else throw .verificationFailed

/-- The block is asked for and read back. -/
def applyPrepared (prepared : PreparedMutation) (answer : W6Answer) :
    Except W6Error Verification × Appliance :=
  match a.confirmPrepared prepared answer with
  | .error e => (.error e, a)
  | .ok profile =>
    let after := a.state.apply prepared.request
    let reply := match answer with
      | .lost e => .error e
      | .works | .fails _ =>
        if profile.verifies prepared after then .ok .verified else .error .verificationFailed
    (reply, { a with state := after })

/-- The state, if the appliance is trusted. -/
def readState (answer : W6Answer) : Except W6Error DeviceState := do
  a.requireTrusted
  a.callState answer

/-- The state before is put back. -/
def restore (previous : DeviceState) (answer : W6Answer) : Except W6Error Verification × Appliance :=
  match a.requireTrusted, answer with
  | .error e, _ | .ok (), .fails e => (.error e, a)
  | .ok (), .works => (.ok .verified, { a with state := previous })
  | .ok (), .lost e => (.error e, { a with state := previous })

/-- `begin_attempt`; the state to restore is that of the first attempt. -/
def beginAttempt (action : RequestedAction) (before : DeviceState) : Appliance :=
  { a with attempt := some {
      restore := (a.attempt.map (·.restore)).getD before
      action := action
      preparedBefore := before
      verifiedAfter := none } }

/-- `mark_verified`, if there is an attempt of the action. -/
def markVerified (action : RequestedAction) (after : DeviceState) : Bool × Appliance :=
  match a.attempt with
  | none => (false, a)
  | some attempt =>
    if attempt.action = action then
      (true, { a with attempt := some { attempt with verifiedAfter := some after } })
    else (false, a)

end Appliance

/-- What a call does; `none` while the connector is in use. -/
def w6Call (side : Side) : (c : W6Command) → W6Answer → Appliance → Option (c.Reply × Appliance)
  | .lock, .works, a => if a.holder = none then some ((), { a with holder := some side }) else none
  | .unlock, .works, a => some ((), { a with holder := none })
  | .discoveryStatus, .works, a => some (a.status, a)
  | .prepareQuarantine request, answer, a => some (a.prepareQuarantine request answer, a)
  | .beginAttempt action before, .works, a => some (true, a.beginAttempt action before)
  | .beginAttempt .., .fails _, a => some (false, a)
  | .applyPrepared prepared, answer, a => some (a.applyPrepared prepared answer)
  | .readState, answer, a => some (a.readState answer, a)
  | .markVerified action after, .works, a => some (a.markVerified action after)
  | .markVerified .., .fails _, a => some (false, a)
  | .loadAttempt, .works, a => some (some a.attempt, a)
  | .loadAttempt, .fails _, a => some (none, a)
  | .load, .works, a => some (some (a.attempt.map (·.restore)), a)
  | .load, .fails _, a => some (none, a)
  | .restore previous, answer, a => some (a.restore previous answer)
  | .remove, .works, a => some (true, { a with attempt := none })
  | .remove, .fails _, a => some (false, a)
  | _, _, _ => none

/-- What a call of a coordinator does to the tables and the appliance. -/
def sharedCall (side : Side) :
    Prog.Handler (Calls w6Calls) PolicyError W6Answer (Site × Appliance)
  | .inl c, .works, (site, a) => (c.run site).map fun (reply, site) => (reply, site, a)
  | .inl _, .fails _, s => some (.error .storage, s)
  | .inl _, .lost _, _ => none
  | .inr c, answer, (site, a) =>
    (w6Call side c answer a).map fun (reply, a) => (.ok reply, site, a)

end NeonHearth.Policy
