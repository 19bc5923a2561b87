import Videum.Videos.Lifecycle
import Videum.Videos.SizeIntegrity
import Videum.Videos.Traces
import Videum.Videos.Readiness
import Videum.Videos.Stranded
import Videum.Videos.Leaks
import Videum.Videos.Playback
import Videum.Videos.Handover
import Videum.Videos.MissingObject
import Videum.Videos.Sweep
import Videum.Videos.Worker
import Videum.Videos.PartPlan
import Videum.Videos.Overlaps
import Videum.Videos.Disposition
import Videum.Videos.Verdict
import Videum.Videos.Recovery
import Videum.Frontend.Sessions
import Videum.Frontend.Owner
import Videum.Frontend.Logout
import Videum.Frontend.SingleFlight
import Videum.Frontend.Routes
import Videum.Auth.Rotation
import Videum.Auth.Revocation
import Videum.Auth.Grace
import Videum.Auth.Containment
import Videum.Auth.Compensation
import Videum.Auth.Enumeration
import Videum.Auth.Consumption
import Videum.Auth.Acceptance
import Videum.Auth.Authentication
import Videum.Auth.Atomicity
import Videum.Auth.Channels
import Videum.Auth.NicknameRaces
import Videum.Auth.Reissues
import Videum.Auth.RegisterRaces
import Videum.Auth.Expiry
import Videum.Auth.AccountRuns
import Videum.Backend.Ownership
import Videum.Schema.Acceptance
