import NeonHearth.Remote.ReplayWindow
import NeonHearth.Remote.Pin
import NeonHearth.Flow.Agreement
import NeonHearth.Flow.Atomic
import NeonHearth.Flow.Watermark
import NeonHearth.Presence.Offline
import NeonHearth.Presence.Join
import NeonHearth.Presence.Flags
import NeonHearth.Presence.Atomic
import NeonHearth.Identity.Bounds
import NeonHearth.Identity.Merges
import NeonHearth.Identity.Retention
import NeonHearth.Identity.Owner
import NeonHearth.Identity.Hints
import NeonHearth.Identity.Identification
import NeonHearth.Policy.Actuation
import NeonHearth.Policy.Outcome
import NeonHearth.Policy.Reports
import NeonHearth.Policy.Approvals
import NeonHearth.Policy.Concurrent
import NeonHearth.Live.Consistency
import NeonHearth.Identity.Atomic
import NeonHearth.Audit.Tamper
import NeonHearth.Events.Feed
import NeonHearth.Client.Live
import NeonHearth.Camera.Lifecycle
import NeonHearth.Sensor.LanPlan
import NeonHearth.Sensor.Neighbor
import NeonHearth.Sensor.Scheduler
import NeonHearth.Wasm.Broker
import NeonHearth.Discovery.Race
import NeonHearth.Doctor.Settings
import NeonHearth.Audit.Prune
import NeonHearth.Advisory.Cpe
import NeonHearth.Advisory.Risk
