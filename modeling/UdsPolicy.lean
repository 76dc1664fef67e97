import UdsPolicy.General.Runs
import UdsPolicy.General.Simulation
import UdsPolicy.General.Programs
import UdsPolicy.General.Observation
import UdsPolicy.General.Conduct
import UdsPolicy.General.Likeness
import UdsPolicy.General.Accompanied
import UdsPolicy.General.Custody
import UdsPolicy.General.Access
import UdsPolicy.General.Tenancy
import UdsPolicy.General.Text
import UdsPolicy.General.Numerals
import UdsPolicy.General.Duration
import UdsPolicy.General.Lossy
import UdsPolicy.Call
import UdsPolicy.Caller
import UdsPolicy.NameCache
import UdsPolicy.NameLock
import UdsPolicy.Authorization
import UdsPolicy.Socket.Kernel
import UdsPolicy.Socket.Bind
import UdsPolicy.Socket.World
import UdsPolicy.Socket.Directory
import UdsPolicy.Socket.Outcome
import UdsPolicy.Socket.Ownership
import UdsPolicy.Socket.Reclaim
import UdsPolicy.Socket.Drop
import UdsPolicy.Socket.Lifecycle
import UdsPolicy.Socket.Vanishing
import UdsPolicy.Socket.Admission
import UdsPolicy.Socket.Reports
import UdsPolicy.Socket.Deadlines
import UdsPolicy.Watchdog.Activity
import UdsPolicy.Watchdog.Verdict
import UdsPolicy.Watchdog.Serve
import UdsPolicy.Watchdog.Heartbeat
import UdsPolicy.Watchdog.Supervision
import UdsPolicy.Watchdog.Interval
import UdsPolicy.Watchdog.Notify
import UdsPolicy.Watchdog.Arming
import UdsPolicy.Audit.Operation
import UdsPolicy.Audit.Lines
import UdsPolicy.Audit.Attribution
import UdsPolicy.Audit.Journal
import UdsPolicy.Gatekeeper.Program
import UdsPolicy.Gatekeeper.Story
import UdsPolicy.Gatekeeper.Mediation
import UdsPolicy.Gatekeeper.Secrecy
import UdsPolicy.Gatekeeper.Pace
import UdsPolicy.Gatekeeper.Naming
import UdsPolicy.Gatekeeper.Startup
import UdsPolicy.Gatekeeper.Attended
import UdsPolicy.Gatekeeper.Served
import UdsPolicy.Gatekeeper.Queue
import UdsPolicy.Gatekeeper.Conversations
