import EspClawPlatform.Lib.Run
import EspClawPlatform.Lib.Chain
import EspClawPlatform.Lib.Cell
import EspClawPlatform.Lib.Ipv4
import EspClawPlatform.Bus.Failures
import EspClawPlatform.Bus.Ordering
import EspClawPlatform.Bus.Patterns
import EspClawPlatform.Bus.Drain
import EspClawPlatform.Bus.Balance
import EspClawPlatform.Identity.IdentityService
import EspClawPlatform.Identity.Steps
import EspClawPlatform.Identity.ActiveAdmin
import EspClawPlatform.Identity.Authority
import EspClawPlatform.Identity.BruteForce
import EspClawPlatform.Identity.Independence
import EspClawPlatform.Identity.SlidingWindow
import EspClawPlatform.Identity.Lockouts
import EspClawPlatform.Identity.TrackedKeys
import EspClawPlatform.Identity.AuditTrail
import EspClawPlatform.Identity.Revocation
import EspClawPlatform.Identity.Freshness
import EspClawPlatform.Identity.Bootstrap
import EspClawPlatform.Mqtt.Correlation
import EspClawPlatform.Mqtt.RoundTrip
import EspClawPlatform.Commands.CommandsService
import EspClawPlatform.Commands.Completion
import EspClawPlatform.Commands.Outcomes
import EspClawPlatform.Commands.CrossTalk
import EspClawPlatform.Commands.Causes
import EspClawPlatform.Devices.Presence
import EspClawPlatform.Devices.Lifecycle
import EspClawPlatform.Devices.Reachability
import EspClawPlatform.Devices.Containment
import EspClawPlatform.Devices.Refresh
import EspClawPlatform.Provisioning.Audit
import EspClawPlatform.Provisioning.Refusals
import EspClawPlatform.Provisioning.Secrecy
import EspClawPlatform.Provisioning.MasterKey
import EspClawPlatform.Twin.LostUpdates
import EspClawPlatform.Twin.History
import EspClawPlatform.Twin.Publication
import EspClawPlatform.Telemetry.Provenance
import EspClawPlatform.Audit.Paging
import EspClawPlatform.Consumers.Redelivery
import EspClawPlatform.Backend.BaseTopic
import EspClawPlatform.Commands.Tracing
import EspClawPlatform.Provisioning.Ledger
import EspClawPlatform.Provisioning.ProbeVerdict
import EspClawPlatform.Identity.Orders
import EspClawPlatform.Identity.Ledger
import EspClawPlatform.Observability.Counting
import EspClawPlatform.Bus.Termination
import EspClawPlatform.Commands.Termination
