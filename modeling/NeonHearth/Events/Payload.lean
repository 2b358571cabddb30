import NeonHearth.Flow.Bandwidth
import NeonHearth.Policy.Types
import NeonHearth.Presence.Replay

/-!
# What events say

The payloads of the events of the service (`event.rs` of the domain).
-/

namespace NeonHearth.Events

structure ServiceStatus where
  state : String
  detail : String

structure BandwidthFrame where
  intervalMs : ℕ
  observedAt : DateTime
  emittedAt : DateTime
  samples : List Flow.BandwidthSample

/-- Homes are known by UUIDs, as devices are. -/
structure HomeChanged where
  homeId : Fin (2 ^ 128)
  version : ℕ
  summary : String

inductive EventPayload where
  | presenceChanged (change : Presence.PresenceChanged)
  | serviceStatus (status : ServiceStatus)
  | bandwidthFrame (frame : BandwidthFrame)
  | policyChanged (policy : Policy.PolicyChanged)
  | homeChanged (home : HomeChanged)

end NeonHearth.Events
