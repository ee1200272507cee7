import Clonebox.Core.Container
import Clonebox.Daemon.Entry

/-! # The shim and the handlers of the daemon

`clonebox-shim/src/main.rs` and the service of `daemon.rs`. A handler runs a core operation without
holding the map, and takes the map only to record the outcome. -/

namespace Clonebox
open Conc

/-! ### The shim -/

/-- The event a shim sends when `create` has failed. -/
def failureReport (containerId : String) : Event := ⟨containerId, .stopped, some (-1)⟩

/-- `main` of the shim. An event that cannot be sent is an `unwrap` on an error. -/
def shimMain (containerId configPath eventSocket : String) : Core Unit := do
  match ← (create containerId configPath (some eventSocket)).attempt with
  | .ok () => pure ()
  | .error e => do
    match ← ((failureReport containerId).sendEvent eventSocket).attempt with
    | .ok () => .fail e
    | .error (_ : CoreError) => panic

/-! ### `daemon.rs` -/

def getEventSocketPath : String := "/run/clonebox/event.sk"

/-- What an operation or a request returns. -/
inductive Reply where
  | unit
  | state (s : State)
  | exit (code : Int)
  | states (l : List State)
  deriving DecidableEq

abbrev Handler := Prog Sys Status Reply

namespace Cloneboxd

def create (containerId configPath : String) : Handler := do
  mapErr (sys .shimPath) fun e => ⟨.internal, e.ioDisplay⟩
  let created ← sys .channel
  sys (.insertEntry containerId ⟨.creating, some created, []⟩)
  mapErr (sys (.spawnShim containerId configPath getEventSocketPath)) fun e =>
    ⟨.internal, e.ioDisplay⟩
  if ← sys (.awaitCreated containerId created) then pure .unit
  else .fail ⟨.internal, "container creation failed"⟩

/-- A core operation, then its outcome in the map. -/
def mirror (containerId : String) (op : Core Unit) (state : ContainerState) : Handler := do
  op.mapError toStatus
  sys (.setEntry containerId state)
  pure .unit

def start (containerId : String) : Handler :=
  mirror containerId (Clonebox.start containerId) .running

def kill (containerId : String) : Handler :=
  mirror containerId (Clonebox.kill containerId) .stopped

def pause (containerId : String) : Handler :=
  mirror containerId (Clonebox.pause containerId) .paused

def resume (containerId : String) : Handler :=
  mirror containerId (Clonebox.resume containerId) .running

def state (containerId : String) : Handler := do
  let s ← (Clonebox.state containerId).mapError toStatus
  pure (.state s)

def delete (containerId : String) (force : Bool) : Handler := do
  (Clonebox.delete containerId force).mapError toStatus
  sys (.removeStopped containerId)
  pure .unit

def exec : Handler :=
  .fail ⟨.unimplemented,
    "exec over gRPC is not implemented in v1; use the clonebox CLI directly"⟩

def wait (containerId : String) : Handler := do
  let exit ← sys .channel
  let found ← sys (.pushWaiter containerId exit)
  .throwIf (found = false) ⟨.internal, "not found"⟩
  match ← sys (.awaitExit containerId exit) with
  | some code => pure (.exit code)
  | none => .fail ⟨.internal, "channel closed"⟩

/-- The states of the containers whose file can be read. -/
def readStates : List String → Prog Sys Status (List State)
  | [] => pure []
  | id :: ids => do
    let s ← (Clonebox.state id).attempt
    let states ← readStates ids
    match s with
    | .ok s => pure (s :: states)
    | .error (_ : CoreError) => pure states

def list : Handler := do
  let ids ← sys .keys
  let states ← readStates ids
  pure (.states states)

end Cloneboxd

/-- A request of a client. -/
inductive Request where
  | create (containerId configPath : String)
  | start (containerId : String)
  | state (containerId : String)
  | kill (containerId : String)
  | delete (containerId : String) (force : Bool)
  | pause (containerId : String)
  | resume (containerId : String)
  | exec
  | wait (containerId : String)
  | list
  deriving DecidableEq

def Request.handler : Request → Handler
  | .create id config => Cloneboxd.create id config
  | .start id => Cloneboxd.start id
  | .state id => Cloneboxd.state id
  | .kill id => Cloneboxd.kill id
  | .delete id force => Cloneboxd.delete id force
  | .pause id => Cloneboxd.pause id
  | .resume id => Cloneboxd.resume id
  | .exec => Cloneboxd.exec
  | .wait id => Cloneboxd.wait id
  | .list => Cloneboxd.list

end Clonebox
