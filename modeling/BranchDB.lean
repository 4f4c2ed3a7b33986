import BranchDB.Concur.System
import BranchDB.Concur.Register
import BranchDB.Concur.Ends
import BranchDB.Concur.Clients
import BranchDB.Strings
import BranchDB.Zfs.OneClone
import BranchDB.Zfs.Overwrite
import BranchDB.Zfs.Collected
import BranchDB.Zfs.Nfsd
import BranchDB.Zfs.Race
import BranchDB.Zfs.Reset
import BranchDB.Zfs.Reasons
import BranchDB.Zfs.Refused
import BranchDB.Zfs.Gc
import BranchDB.Zfs.Newest
import BranchDB.Zfs.Lossless
import BranchDB.Zfs.Sorted
import BranchDB.Domain
import BranchDB.Operator.Finalizer
import BranchDB.Operator.Phases
import BranchDB.Operator.Ttl
import BranchDB.Operator.Clones
import BranchDB.Operator.Teardown
import BranchDB.Operator.Retry
import BranchDB.Operator.Settle
import BranchDB.Operator.Specified
import BranchDB.Operator.Orphans
import BranchDB.Operator.Life
import BranchDB.K8sDatabase.Binding
import BranchDB.K8sDatabase.Converge
import BranchDB.K8sDatabase.Frame
import BranchDB.ZfsAgent.Default
import BranchDB.ZfsAgent.Exact
import BranchDB.ZfsAgent.Snapshots
import BranchDB.ZfsAgent.Backend
import BranchDB.ZfsAgent.CloneCalls
import BranchDB.ZfsAgent.Current
import BranchDB.ZfsAgent.Listed
import BranchDB.ZfsAgent.Tenants
import BranchDB.ZfsAgent.Datasets
import BranchDB.ZfsAgent.Startup
import BranchDB.Rest.Gc
import BranchDB.Rest.Hub
import BranchDB.Rest.Reset
import BranchDB.Rest.Role
import BranchDB.Rest.Poll
import BranchDB.Rest.Asks
import BranchDB.Rest.Shown
import BranchDB.Rest.Stack
import BranchDB.Zfs.Reuse
