import Mathlib.Logic.Function.Basic

/-! # Data of the container runtime

The records of `clonebox-core`: the state kept in `state.json` (`state.rs`), the events a
supervisor reports (`event.rs`), the parsed `config.json` (`config.rs`), and the paths the runtime
forms from a container id. A JSON document is represented by the value it encodes. -/

namespace Clonebox

/-- An operating system error: its number, name and text. -/
structure Errno where
  code : Nat
  name : String
  text : String
  deriving DecidableEq

namespace Errno

def enoent : Errno := ⟨2, "ENOENT", "No such file or directory"⟩
def esrch : Errno := ⟨3, "ESRCH", "No such process"⟩
def echild : Errno := ⟨10, "ECHILD", "No child processes"⟩
def ebusy : Errno := ⟨16, "EBUSY", "Device or resource busy"⟩
def epipe : Errno := ⟨32, "EPIPE", "Broken pipe"⟩
def enametoolong : Errno := ⟨36, "ENAMETOOLONG", "File name too long"⟩
def eaddrinuse : Errno := ⟨98, "EADDRINUSE", "Address already in use"⟩
def econnrefused : Errno := ⟨111, "ECONNREFUSED", "Connection refused"⟩

/-- As `nix::errno::Errno` displays it. -/
def display (e : Errno) : String := e.name ++ ": " ++ e.text

/-- As `std::io::Error` displays it. -/
def ioDisplay (e : Errno) : String := e.text ++ " (os error " ++ toString e.code ++ ")"

end Errno

/-! ### `state.rs` -/

inductive ContainerState where
  | creating
  | created
  | running
  | stopped
  | paused
  deriving DecidableEq

/-- The content of `state.json`. -/
structure State where
  ociVersion : String
  id : String
  status : ContainerState
  pid : Option Int
  bundle : String
  annotations : Option (List (String × String))
  deriving DecidableEq

namespace State

abbrev getPid (s : State) : Option Int := s.pid
abbrev getState (s : State) : ContainerState := s.status

def setState (status : ContainerState) (s : State) : State := { s with status }
def setRunning (s : State) : State := { s with status := .running }
def setCreated (pid : Int) (s : State) : State := { s with status := .created, pid := some pid }
def setStopped (s : State) : State := { s with status := .stopped, pid := none }
def setPaused (s : State) : State := { s with status := .paused }

@[simp] theorem setRunning_status (s : State) : s.setRunning.status = .running := rfl
@[simp] theorem setCreated_status (p : Int) (s : State) : (s.setCreated p).status = .created := rfl
@[simp] theorem setStopped_status (s : State) : s.setStopped.status = .stopped := rfl
@[simp] theorem setPaused_status (s : State) : s.setPaused.status = .paused := rfl
@[simp] theorem setRunning_pid (s : State) : s.setRunning.pid = s.pid := rfl
@[simp] theorem setCreated_pid (p : Int) (s : State) : (s.setCreated p).pid = some p := rfl
@[simp] theorem setStopped_pid (s : State) : s.setStopped.pid = none := rfl
@[simp] theorem setPaused_pid (s : State) : s.setPaused.pid = s.pid := rfl

end State

def getBundlePath (containerId : String) : String := "/run/clonebox/" ++ containerId

def getStatePath (containerId : String) : String := getBundlePath containerId ++ "/state.json"

/-! ### `event.rs` -/

/-- A message a supervisor sends to the daemon. -/
structure Event where
  id : String
  state : ContainerState
  exitCode : Option Int
  deriving DecidableEq

namespace Event

def updateState (state : ContainerState) (e : Event) : Event := { e with state }
def updateExitCode (exitCode : Int) (e : Event) : Event := { e with exitCode := some exitCode }

end Event

/-! ### `config.rs` -/

structure Root where
  path : String
  readonly : Option Bool
  deriving DecidableEq

structure Process where
  env : Option (List String)
  args : Option (List String)
  cwd : String
  deriving DecidableEq

structure Mount where
  destination : String
  mountType : Option String
  source : Option String
  options : Option (List String)
  deriving DecidableEq

structure Config where
  ociVersion : String
  process : Option Process
  root : Option Root
  mounts : Option (List Mount)
  hostname : Option String
  deriving DecidableEq

namespace Config

def getOciVersion (c : Config) : String := c.ociVersion
def getProcessEnv (c : Config) : Option (List String) := c.process.bind (·.env)
def getProcessArgs (c : Config) : Option (List String) := c.process.bind (·.args)
def getProcessCwd (c : Config) : String := (c.process.map (·.cwd)).getD "/"
def getRootPath (c : Config) : String := (c.root.map (·.path)).getD ""
def getHostname (c : Config) : Option String := c.hostname
def getMounts (c : Config) : Option (List Mount) := c.mounts

end Config

/-! ### How a process ended -/

/-- `nix::sys::wait::WaitStatus` as `waitpid` without options returns it for a dead child. -/
inductive WaitStatus where
  | exited (code : Int)
  | signaled (signal : Nat) (coreDump : Bool)
  deriving DecidableEq

/-- The names of `nix::sys::signal::Signal`, from signal 1 on. -/
def signalNames : List String :=
  ["SIGHUP", "SIGINT", "SIGQUIT", "SIGILL", "SIGTRAP", "SIGABRT", "SIGBUS", "SIGFPE", "SIGKILL",
    "SIGUSR1", "SIGSEGV", "SIGUSR2", "SIGPIPE", "SIGALRM", "SIGTERM", "SIGSTKFLT", "SIGCHLD",
    "SIGCONT", "SIGSTOP", "SIGTSTP", "SIGTTIN", "SIGTTOU", "SIGURG", "SIGXCPU", "SIGXFSZ",
    "SIGVTALRM", "SIGPROF", "SIGWINCH", "SIGIO", "SIGPWR", "SIGSYS"]

def signalName (signal : Nat) : String := signalNames.getD (signal - 1) (toString signal)

/-- The text `{:?}` prints, as written to the container's log. -/
def WaitStatus.debug (pid : Int) : WaitStatus → String
  | .exited code => "Exited(Pid(" ++ toString pid ++ "), " ++ toString code ++ ")"
  | .signaled signal core =>
    "Signaled(Pid(" ++ toString pid ++ "), " ++ signalName signal ++ ", " ++ toString core ++ ")"

/-! ### Paths -/

/-- What the runtime keeps in a bundle directory. -/
inductive BundleFile where
  | stateJson
  | startSk
  | containerLog
  | upper
  | work
  | merged
  deriving DecidableEq

def BundleFile.name : BundleFile → String
  | .stateJson => "state.json"
  | .startSk => "start.sk"
  | .containerLog => "container.log"
  | .upper => "upper"
  | .work => "work"
  | .merged => "merged"

/-- The cgroups above the containers' own. -/
inductive CgroupLevel where
  | root
  | app
  deriving DecidableEq

def getRootCgroupPath : String := "/sys/fs/cgroup"
def getAppCgroupPath : String := "/sys/fs/cgroup/clonebox"
def getChildCgroupPath (name : String) : String := "/sys/fs/cgroup/clonebox/" ++ name

def CgroupLevel.str : CgroupLevel → String
  | .root => getRootCgroupPath
  | .app => getAppCgroupPath

/-- The paths the runtime hands to the kernel, by what they are formed from. -/
inductive Path where
  | bundle (id : String)
  | inBundle (id : String) (file : BundleFile)
  | cgroup (id : String)
  | inCgroup (id resource key : String)
  | level (l : CgroupLevel)
  | controllers (l : CgroupLevel)
  | subtreeControl (l : CgroupLevel)
  | host (path : String)
  deriving DecidableEq

/-- The string the source formats for the path. -/
def Path.str : Path → String
  | .bundle id => getBundlePath id
  | .inBundle id file => getBundlePath id ++ "/" ++ file.name
  | .cgroup id => getChildCgroupPath id
  | .inCgroup id resource key => getChildCgroupPath id ++ "/" ++ resource ++ "." ++ key
  | .level l => l.str
  | .controllers l => l.str ++ "/cgroup.controllers"
  | .subtreeControl l => l.str ++ "/cgroup.subtree_control"
  | .host path => path

/-- The container whose bundle or cgroup a path lies in. -/
def Path.owner : Path → Option String
  | .bundle id | .inBundle id _ | .cgroup id | .inCgroup id _ _ => some id
  | _ => none

/-- What a file holds: the JSON document of a state or a configuration, or other text. -/
inductive Content where
  | state (s : State)
  | config (c : Config)
  | text (t : String)
  deriving DecidableEq

/-! ### `entry.rs` -/

/-- The daemon's record of a container. A oneshot sender is named by the request that holds the
receiver. -/
structure ContainerEntry where
  state : ContainerState
  createdWaiter : Option Nat
  exitWaiter : List Nat
  deriving DecidableEq

end Clonebox
