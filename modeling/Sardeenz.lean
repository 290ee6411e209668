import Sardeenz.Lifecycle.Linear
import Sardeenz.Lifecycle.MoveFence
import Sardeenz.Cutover.Barrier
import Sardeenz.Services.EndpointLeak
import Sardeenz.Services.Orphan
import Sardeenz.Election.Exclusion
import Sardeenz.Routes.Accounting
import Sardeenz.Routes.Wake
import Sardeenz.Services.Drain
import Sardeenz.Services.MoveProgress
import Sardeenz.Memory.Balance
import Sardeenz.Routes.Reclamations
import Sardeenz.Workers.Captured
import Sardeenz.Routes.LaunchFailure
import Sardeenz.Routes.Prune
import Sardeenz.Reconciliation.Healing
import Sardeenz.Routing.Frame
import Sardeenz.Proxy.Decode
import Sardeenz.Proxy.CircuitBreaker
import Sardeenz.Reconciliation.Leadership
import Sardeenz.Workers.Events
import Sardeenz.Reconciliation.Orphans
import Sardeenz.Routes.Sleep
import Sardeenz.Routes.Release
import Sardeenz.Routes.Update
import Sardeenz.Proxy.Slots
import Sardeenz.Proxy.Limiter
import Sardeenz.Runners.Ports
import Sardeenz.Runners.Status
import Sardeenz.Runners.Launcher
import Sardeenz.Runners.LogBuffer
import Sardeenz.Runners.Memory
import Sardeenz.Runners.Shim
import Sardeenz.Dashboard.Chat
import Sardeenz.Dashboard.Events
import Sardeenz.Routes.StartupLogs
import Sardeenz.Services.Notifications
import Sardeenz.Services.ModuleStore
import Sardeenz.Runners.Paths
import Sardeenz.Dashboard.Auth
import Sardeenz.Services.RoundTrip
