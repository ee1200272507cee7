import Clonebox.Lib.Prog
import Clonebox.Lib.Steps
import Clonebox.Lib.Machine
import Clonebox.Core.Data
import Clonebox.Core.Error
import Clonebox.Core.Sys
import Clonebox.Core.StateFile
import Clonebox.Core.Resources
import Clonebox.Core.Namespace
import Clonebox.Core.Container
import Clonebox.Daemon.Entry
import Clonebox.Daemon.Handlers
import Clonebox.System.Kernel
import Clonebox.System.Machine
import Clonebox.System.Protocol
import Clonebox.System.Conformance
import Clonebox.System.Frame
import Clonebox.System.Inversion
import Clonebox.System.Run
import Clonebox.Lifecycle.Supervisor
import Clonebox.Lifecycle.NoResurrection
import Clonebox.Lifecycle.ExitRecord
import Clonebox.Lifecycle.OneCreation
import Clonebox.Lifecycle.Leftovers
import Clonebox.Requests.Map
import Clonebox.Requests.CreateReply
import Clonebox.Requests.Duplicate
import Clonebox.Requests.Wait
import Clonebox.Requests.ExitStatus
import Clonebox.Lib.Overwrite
import Clonebox.Lifecycle.TornState
import Clonebox.Requests.Incarnations
import Clonebox.Lib.Reaches
import Clonebox.Lifecycle.Gate
import Clonebox.Lifecycle.Ready
import Clonebox.Requests.AfterWait
import Clonebox.Lifecycle.Stranded
import Clonebox.Lifecycle.FailClosed
import Clonebox.Requests.Recovered
import Clonebox.Lifecycle.FailedOperation
import Clonebox.Lifecycle.Deletion
import Clonebox.Netlink.Message
import Clonebox.Netlink.Requests
import Clonebox.Netlink.WellFormed
import Clonebox.Netlink.Replies
import Clonebox.Lifecycle.Freezer
import Clonebox.Requests.EventOrder
import Clonebox.Lib.Lineage
import Clonebox.Lifecycle.LostUpdate
import Clonebox.Lib.Retire
import Clonebox.Lifecycle.Cycle
import Clonebox.Lifecycle.Accumulation
import Clonebox.Lib.Fields
import Clonebox.Setup.ChildEnd
import Clonebox.Setup.OverlayOptions
import Clonebox.Setup.Controllers
import Clonebox.Setup.Identifiers
import Clonebox.Setup.Names
import Clonebox.Setup.Spelling
import Clonebox.Namespaces.Caller
import Clonebox.Namespaces.Exec
import Clonebox.Namespaces.Network
import Clonebox.Lib.MountTable
import Clonebox.Setup.Mounts
import Clonebox.Setup.WritableRoot
import Clonebox.Lifecycle.OwnProcess
import Clonebox.Netlink.Reader
import Clonebox.Daemon.Recovery
import Clonebox.Namespaces.Status
import Clonebox.Lifecycle.OneStart
import Clonebox.Lifecycle.Retry
import Clonebox.Lib.Scan
import Clonebox.Lib.Json
import Clonebox.Lib.JsonPrint
import Clonebox.Lib.Utf8
import Clonebox.Lib.JsonText
import Clonebox.Lib.JsonRecord
import Clonebox.Lib.Overlay
import Clonebox.Lib.Codec
import Clonebox.Format.State
import Clonebox.Format.StateFile
import Clonebox.Format.EventStream
import Clonebox.Core.Calls
import Clonebox.System.StartSocket
import Clonebox.System.OwnWrites
import Clonebox.Lifecycle.Identity
import Clonebox.Lib.Answers
import Clonebox.Requests.Snapshot
import Clonebox.Lifecycle.Atomic
import Clonebox.Lifecycle.StateMachine
import Clonebox.Lifecycle.Isolation
import Clonebox.Lifecycle.Gone
import Clonebox.Requests.WaitReply
import Clonebox.Requests.Stale
import Clonebox.Requests.Accepted
import Clonebox.Requests.Reloaded
