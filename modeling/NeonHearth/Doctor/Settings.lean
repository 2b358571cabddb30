import NeonHearth.Data.Chars
import NeonHearth.Data.Except
import NeonHearth.System.Machine

/-!
# The settings of the doctor

`PUT /doctor/settings` publishes an update under a write lock and audits it without the lock.  When the
audit entry cannot be written, the request takes the lock again and puts back the settings that it
found.

* `settings_eq_answered` : if only the latest update in force is rolled back, the settings are made of
  the updates that were answered with 200;
* `overlapping_lost` : the rollback of an earlier update undoes a later one that is audited.
-/

namespace NeonHearth.Doctor

open Chars List

/-- Where the gateway comes from. -/
inductive TargetSource where
  | platform | owner | unknown
  deriving DecidableEq

/-- What the doctor probes. -/
structure DoctorSettings where
  interface : String
  gateway : Option String
  gatewaySource : TargetSource
  configuredResolvers : List String
  independentResolver : String
  internetProbeAddress : String
  internetProbePort : UInt16
  dnsProbeName : String
  externalProbesConfirmed : Bool
  deriving DecidableEq

/-- What an update sets. -/
structure DoctorSettingsUpdate where
  interface : Option String := none
  /-- The empty text clears the gateway. -/
  gateway : Option String := none
  configuredResolvers : Option (List String) := none
  independentResolver : Option String := none
  internetProbeAddress : Option String := none
  internetProbePort : Option UInt16 := none
  dnsProbeName : Option String := none
  externalProbesConfirmed : Option Bool := none
  deriving DecidableEq

/-- `MAX_RESOLVERS`. -/
def maxResolvers : ℕ := 8

/-- `MAX_SETTING_LEN`, in bytes. -/
def maxSettingLen : ℕ := 253

/-- A short text of printable characters. -/
def validName (value : String) : Bool :=
  value ≠ "" && value.utf8ByteSize ≤ maxSettingLen &&
    value.toList.all fun c => !isControl c && !isWhitespace c

/-- The text does not begin or end with the character. -/
def unframed (c : Char) (text : List Char) : Bool := text.head? ≠ some c && text.getLast? ≠ some c

/-- Labels of letters, digits and hyphens. -/
def validHostname (value : String) : Bool :=
  value ≠ "" && value.utf8ByteSize ≤ maxSettingLen && unframed '.' value.toList &&
    (value.toList.splitOn '.').all fun label =>
      label ≠ [] && (String.ofList label).utf8ByteSize ≤ 63 && unframed '-' label &&
        label.all fun c => c.isAlphanum || c = '-'

namespace DoctorSettings

variable (settings : DoctorSettings)

/-- What the update leaves out stays. -/
def apply (update : DoctorSettingsUpdate) : DoctorSettings where
  interface := update.interface.getD settings.interface
  gateway := match update.gateway with
    | none => settings.gateway
    | some gateway => if gateway = "" then none else some gateway
  gatewaySource := match update.gateway with
    | none => settings.gatewaySource
    | some gateway => if gateway = "" then .unknown else .owner
  configuredResolvers := update.configuredResolvers.getD settings.configuredResolvers
  independentResolver := update.independentResolver.getD settings.independentResolver
  internetProbeAddress := update.internetProbeAddress.getD settings.internetProbeAddress
  internetProbePort := update.internetProbePort.getD settings.internetProbePort
  dnsProbeName := update.dnsProbeName.getD settings.dnsProbeName
  externalProbesConfirmed := update.externalProbesConfirmed.getD settings.externalProbesConfirmed

/-- The parser of addresses is that of the standard library. -/
def validate (isIp : String → Bool) : Except String Unit := do
  reject (!validName settings.interface) "interface must be 1..=253 printable characters"
  reject (settings.gateway.any (!isIp ·)) "gateway must be an IP address"
  reject (maxResolvers < settings.configuredResolvers.length) "at most 8 configured resolvers"
  reject (settings.configuredResolvers.any (!isIp ·)) "configured resolvers must be IP addresses"
  reject (!isIp settings.independentResolver) "independent resolver must be an IP address"
  reject (!isIp settings.internetProbeAddress) "internet probe address must be an IP address"
  reject (settings.internetProbePort = 0) "internet probe port must be 1..=65535"
  reject (!validHostname settings.dnsProbeName) "dns probe name must be a hostname"

end DoctorSettings

/-- A request that has published its update. -/
structure Request where
  update : DoctorSettingsUpdate
  /-- The settings that it found. -/
  previous : DoctorSettings
  /-- The audit entry is written, and the answer is 200. -/
  audited : Bool

/-- The settings in force, and the requests that have not put back what they found, the latest first. -/
structure DoctorState where
  settings : DoctorSettings
  requests : List Request

/-- What a request does. -/
inductive SettingsEvent where
  | publish (update : DoctorSettingsUpdate)
  /-- The audit entry of a request is written. -/
  | audit (i : ℕ)
  /-- The audit entry of a request could not be written, and it puts back what it found. -/
  | restore (i : ℕ)

namespace DoctorState

/-- A request publishes, audits or rolls back. -/
def step (isIp : String → Bool) (s : DoctorState) : SettingsEvent → Option DoctorState
  | .publish update =>
    match (s.settings.apply update).validate isIp with
    -- answered with 400
    | .error _ => some s
    | .ok _ => some ⟨s.settings.apply update, ⟨update, s.settings, false⟩ :: s.requests⟩
  | .audit i => (s.requests[i]?).bind fun r =>
    if r.audited then none
    else some { s with requests := s.requests.set i { r with audited := true } }
  | .restore i => (s.requests[i]?).bind fun r =>
    if r.audited then none else some ⟨r.previous, s.requests.eraseIdx i⟩

/-- No request is in progress. -/
def Idle (s : DoctorState) : Prop := ∀ r ∈ s.requests, r.audited = true

/-- The updates that were answered with 200, the latest first. -/
def answered (s : DoctorState) : List DoctorSettingsUpdate :=
  (s.requests.filter (·.audited)).map (·.update)

/-- Only the latest update in force is rolled back. -/
def RestoresLatest (_ : DoctorState) : SettingsEvent → Prop
  | .restore i => i = 0
  | _ => True

instance (s : DoctorState) (e : SettingsEvent) : Decidable (s.RestoresLatest e) := by
  cases e <;> unfold RestoresLatest <;> infer_instance

end DoctorState

/-- Updates on top of each other, the latest first. -/
def applied (initial : DoctorSettings) (updates : List DoctorSettingsUpdate) : DoctorSettings :=
  updates.foldr (fun update settings => settings.apply update) initial

/-- The requests in any order. -/
def settingsMachine (isIp : String → Bool) (initial : DoctorSettings) :
    Machine DoctorState SettingsEvent where
  init s := s = ⟨initial, []⟩
  step := DoctorState.step isIp

variable {isIp : String → Bool} {initial settings : DoctorSettings} {s : DoctorState}

/-- Every request has put its update on what it found, which the earlier ones have left. -/
def Stacked (initial : DoctorSettings) : DoctorSettings → List Request → Prop
  | settings, [] => settings = initial
  | settings, r :: requests => settings = r.previous.apply r.update ∧ Stacked initial r.previous requests

theorem Stacked.audit {requests} {i : ℕ} {r}
    (h : Stacked initial settings requests) (hr : requests[i]? = some r) :
    Stacked initial settings (requests.set i { r with audited := true }) := by
  induction requests generalizing settings i with
  | nil => exact h
  | cons r' requests ih =>
    obtain ⟨hsettings, hrest⟩ := h
    cases i with
    | zero =>
      cases hr
      exact ⟨hsettings, hrest⟩
    | succ i => exact ⟨hsettings, ih hrest hr⟩

theorem Stacked.eq_applied {requests} (h : Stacked initial settings requests) :
    settings = applied initial (requests.map (·.update)) := by
  induction requests generalizing settings with
  | nil => exact h
  | cons r requests ih =>
    obtain ⟨hsettings, hrest⟩ := h
    rw [hsettings, ih hrest]
    rfl

theorem Stacked.step {e s'} (h : Stacked initial s.settings s.requests)
    (hlatest : s.RestoresLatest e) (hs : s.step isIp e = some s') :
    Stacked initial s'.settings s'.requests := by
  cases e with
  | publish update =>
    rw [DoctorState.step] at hs
    split at hs <;> cases hs
    · exact h
    · exact ⟨rfl, h⟩
  | audit i =>
    obtain ⟨r, hr, hs⟩ := Option.bind_eq_some_iff.1 hs
    split at hs <;> cases hs
    exact h.audit hr
  | restore i =>
    obtain rfl : i = 0 := hlatest
    obtain ⟨r, hr, hs⟩ := Option.bind_eq_some_iff.1 hs
    split at hs <;> cases hs
    obtain ⟨requests, hrequests⟩ := List.head?_eq_some_iff.1 (head?_eq_getElem? .. ▸ hr)
    rw [hrequests] at h ⊢
    exact h.2

/-- **The settings are the audited updates** whenever no request is in progress, in every interleaving
that rolls back only the latest update in force. -/
theorem settings_eq_answered
    (h : (settingsMachine isIp initial).Via DoctorState.RestoresLatest s) (hidle : s.Idle) :
    s.settings = applied initial s.answered := by
  have hstacked : Stacked initial s.settings s.requests := by
    refine Machine.Via.invariant (I := fun s => Stacked initial s.settings s.requests) h ?_
      fun s e s' hs hlatest hstep => hs.step hlatest hstep
    rintro _ rfl
    rfl
  rw [DoctorState.answered, filter_eq_self.2 hidle]
  exact hstacked.eq_applied

/-- Settings that a host without a default route starts with. -/
def hostSettings : DoctorSettings :=
  ⟨"primary", none, .unknown, [], "9.9.9.9", "1.1.1.1", 443, "example.com", false⟩

/-- The addresses of these settings. -/
def hostIp (text : String) : Bool := text ∈ ["9.9.9.9", "1.1.1.1"]

/-- An update of the interface. -/
def renames : DoctorSettingsUpdate := { interface := some "eth0" }

/-- An update of the confirmation. -/
def confirms : DoctorSettingsUpdate := { externalProbesConfirmed := some true }

/-- The confirmation is published on top of the new name, and rolled back first. -/
theorem nested_eq_answered : ∃ s, (settingsMachine hostIp hostSettings).exec ⟨hostSettings, []⟩
      [.publish renames, .publish confirms, .restore 0, .audit 0] = some s ∧
    s.answered = [renames] ∧ s.settings = applied hostSettings s.answered := by
  obtain ⟨s, hs, hidle, hanswered⟩ : ∃ s, (settingsMachine hostIp hostSettings).exec
      ⟨hostSettings, []⟩ [.publish renames, .publish confirms, .restore 0, .audit 0] = some s ∧
        (∀ r ∈ s.requests, r.audited) ∧ s.answered = [renames] := by decide +kernel
  exact ⟨s, hs, hanswered, settings_eq_answered
    (.exec (.start rfl) (by decide +kernel) hs) hidle⟩

/-- The confirmation is audited, and then the new name under it is rolled back. -/
theorem overlapping_lost : ∃ s, (settingsMachine hostIp hostSettings).Reachable s ∧ s.Idle ∧
    s.answered = [confirms] ∧ s.settings = hostSettings ∧
    s.settings ≠ applied hostSettings s.answered :=
  Machine.exists_reachable rfl [.publish renames, .publish confirms, .audit 0, .restore 1]
    (by unfold DoctorState.Idle; decide +kernel)

end NeonHearth.Doctor
