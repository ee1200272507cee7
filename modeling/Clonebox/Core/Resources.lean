import Mathlib.Data.List.Infix
import Clonebox.Core.StateFile

/-! # Cgroups, the start gate and `clone3`

`cgroup.rs`, `runtime.rs` and `clone3.rs`. The start gate is a pipe the child reads before it runs
its command, and a Unix socket `start.sk` on which the supervisor accepts one connection before it
writes to that pipe. -/

namespace Clonebox
open Conc

variable {ε α : Type}

/-! ### `cgroup.rs` -/

/-- The text of a control file. -/
def Content.asText : Content → String
  | .text t => t
  | _ => ""

/-- `str::contains`: `sub` occurs in `s` as consecutive characters. -/
def strContains (s sub : String) : Bool := decide (sub.toList <:+: s.toList)

def enableController (level : CgroupLevel) (resource : String) : Core Unit := do
  let available ← mapErr (sys (.read (.controllers level))) fun e =>
    ↑(CgroupError.readToStringFailure e (Path.controllers level).str resource)
  .throwIf (¬strContains available.asText resource)
    ↑(CgroupError.resourceNotAvailable (Path.controllers level).str resource)
  let enabled ← mapErr (sys (.read (.subtreeControl level))) fun e =>
    ↑(CgroupError.readToStringFailure e (Path.subtreeControl level).str resource)
  if strContains enabled.asText resource then
    pure ()
  else
    mapErr (sys (.write (.subtreeControl level) (.text ("+" ++ resource)))) fun e =>
      ↑(CgroupError.writeFailure e resource)

/-- Write a control file of a container's cgroup. -/
def setCgroup (containerId resource key value : String) : Core Unit :=
  mapErr (sys (.write (.inCgroup containerId resource key) (.text value))) fun e =>
    ↑(CgroupError.writeFailure e ("failed to change " ++ resource ++ "." ++ key ++
      " cgroup value:" ++ value ++ " for " ++ getChildCgroupPath containerId))

def initResources (level : CgroupLevel) : List String → Core Unit
  | [] => pure ()
  | resource :: resources => do
    enableController level resource
    initResources level resources

/-- Make the container's cgroup and open it. -/
def createCgroup (name : String) : Core Path := do
  mapErr (sys (.createDirAll (.level .app))) fun e =>
    ↑(CgroupError.createCgroupDirFailure e "clonebox app")
  mapErr (sys (.createDirAll (.cgroup name))) fun e =>
    ↑(CgroupError.createCgroupDirFailure e "child")
  mapErr (sys (.openFile (.cgroup name))) fun e => ↑(CgroupError.openFailure e "child")
  pure (.cgroup name)

/-! ### `clone3.rs` -/

def CLONE_PIDFD : Nat := 0x00001000
def CLONE_PARENT_SETTID : Nat := 0x00100000
def CLONE_CHILD_SETTID : Nat := 0x01000000
def CLONE_SETTLS : Nat := 0x00080000
def CLONE_INTO_CGROUP : Nat := 0x200000000

/-- `CLONE_NEWPID | CLONE_NEWUTS | CLONE_NEWNS | CLONE_NEWNET`. -/
def cloneFlags : Nat := 0x20000000 ||| 0x04000000 ||| 0x00020000 ||| 0x40000000

def SIGCHLD : Nat := 17

structure Clone3 where
  flags : Nat := 0
  pidFd : Option Int := none
  childTid : Option Int := none
  parentTid : Option Int := none
  exitSignal : Option Nat
  tls : Option Nat := none
  cgroup : Option Path := none

namespace Clone3

def addFlags (flags : Nat) (c : Clone3) : Clone3 := { c with flags := c.flags ||| flags }

def intoCgroup (fd : Path) (c : Clone3) : Clone3 :=
  { c with flags := c.flags ||| CLONE_INTO_CGROUP, cgroup := some fd }

/-- The checks `build` makes before the system call, and the arguments it passes. -/
def args (c : Clone3) : Except CloneError CloneArgs :=
  if c.flags &&& CLONE_PIDFD ≠ 0 ∧ c.pidFd.isNone then .error .noPidFd
  else if c.flags &&& CLONE_CHILD_SETTID ≠ 0 ∧ c.childTid.isNone then .error .noChildTid
  else if c.flags &&& CLONE_PARENT_SETTID ≠ 0 ∧ c.parentTid.isNone then .error .noParentTid
  else if c.flags &&& CLONE_SETTLS ≠ 0 ∧ c.tls.isNone then .error .noTls
  else if c.flags &&& CLONE_INTO_CGROUP ≠ 0 ∧ c.cgroup.isNone then .error .noCgroup
  else .ok ⟨c.flags, c.exitSignal.getD 0, c.cgroup⟩

/-- The pid of the child, or 0 in the child itself. -/
def build (c : Clone3) : Core Int := do
  let args ← .ofExcept (c.args.mapError fun e => CoreError.systemError (.cloneError e))
  mapErr (sys (.clone3 args)) fun e => ↑(CloneError.clone3Failure e)

/-- The arguments of the one `clone3` that `create` makes. -/
theorem args_create (fd : Path) :
    ((Clone3.mk 0 none none none (some SIGCHLD) none none).addFlags cloneFlags
      |>.intoCgroup fd).args = .ok ⟨cloneFlags ||| CLONE_INTO_CGROUP, SIGCHLD, some fd⟩ := by
  simp [args, addFlags, intoCgroup, cloneFlags, CLONE_PIDFD, CLONE_CHILD_SETTID,
    CLONE_PARENT_SETTID, CLONE_SETTLS, CLONE_INTO_CGROUP]

end Clone3

/-! ### `runtime.rs` -/

/-- The supervisor's ends of the start gate. -/
structure Runtime where
  childEnd : Option Nat
  parentEnd : Option Nat
  unixSock : Option Path

namespace Runtime

def parentChildPipe (rt : Runtime) : Core Runtime := do
  let pipe ← mapErr (sys .pipe2) fun e => ↑(RuntimeError.pipe2Failure e)
  pure { rt with childEnd := some pipe, parentEnd := some pipe }

def freezeChild (rt : Runtime) : Core Unit :=
  match rt.childEnd with
  | some pipe => mapErr (sys (.pipeRead pipe)) fun e => ↑(RuntimeError.read e)
  | none => pure ()

def unfreezeChild (rt : Runtime) : Core Unit :=
  match rt.parentEnd with
  | some pipe => mapErr (sys (.pipeWrite pipe)) fun e => ↑(RuntimeError.write e)
  | none => pure ()

end Runtime

def getSocketFd : Core Unit :=
  mapErr (sys .socket) fun e => ↑(RuntimeError.createSocketFailure e)

abbrev getSocketPath (containerId : String) : Path := .inBundle containerId .startSk

/-- `UnixAddr::new`: the path must fit the 108 bytes of `sun_path`. -/
def unixAddr (p : Path) : Core Path := do
  .throwIf (108 ≤ p.str.utf8ByteSize)
    ↑(RuntimeError.toUnixAddrFailure .enametoolong)
  pure p

namespace Runtime

/-- From `bind` to the accepted connection. -/
def acceptStart (containerId : String) : Core Unit := do
  let addr ← unixAddr (getSocketPath containerId)
  mapErr (sys (.bind addr)) fun e => ↑(RuntimeError.bindFailure e)
  mapErr (sys (.setPermissions addr 0o600)) fun e => ↑(RuntimeError.io e)
  mapErr (sys (.listen addr)) fun e => ↑(RuntimeError.listenFailure e)
  mapErr (sys (.accept4 addr)) fun e => ↑(RuntimeError.accept4Failure e)

/-- Wait on `start.sk` for the start command. The socket is dropped if a step fails. -/
def parentProcSocket (rt : Runtime) (containerId : String) : Core Runtime := do
  getSocketFd
  match ← (acceptStart containerId).attempt with
  | .ok () => pure { rt with unixSock := some (getSocketPath containerId) }
  | .error e => do
    sys (.close (getSocketPath containerId))
    .fail e

/-- The end of a `Runtime`'s scope closes its socket. -/
def drop (rt : Runtime) : Core Unit :=
  match rt.unixSock with
  | some p => sys (.close p)
  | none => pure ()

end Runtime

def connectCreateProcess (containerId : String) : Core Unit := do
  getSocketFd
  let addr ← unixAddr (getSocketPath containerId)
  mapErr (sys (.connect addr)) fun e => ↑(RuntimeError.connectFailure e)

end Clonebox
