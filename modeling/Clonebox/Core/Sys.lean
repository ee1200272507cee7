import Clonebox.Lib.Prog
import Clonebox.Core.Error
import Clonebox.Core.Netlink

/-! # The calls of the runtime

Every call `clonebox-core`, the shim and the daemon make to the kernel or to each other, with the
type of its answer. A call the source can see fail answers with `Io`. -/

namespace Clonebox
open Conc

abbrev Io (α : Type) := Except Errno α

/-- The `clone_args` that `Clone3::build` passes to the kernel. `cgroup` is the directory the
file descriptor was opened on. -/
structure CloneArgs where
  flags : Nat
  exitSignal : Nat
  cgroup : Option Path
  deriving DecidableEq

/-- A flag of `mount(2)`. -/
inductive MsFlag where
  | msPrivate
  | msRec
  | msBind
  deriving DecidableEq

/-- What the source reads of a reply: the error number of an `NLMSG_ERROR`, the length field of the
request it acknowledges if that number is 0, or the index in the header of a link. -/
inductive NetlinkReply where
  | error (e : Errno)
  | ack (nlmsgLen : UInt32)
  | link (index : UInt32)
  deriving DecidableEq

inductive Op where
  -- files
  | exists (p : Path)
  | read (p : Path)
  | write (p : Path) (c : Content)
  | openFile (p : Path)
  /-- Open a file and keep the descriptor. -/
  | openFd (path : String)
  | append (p : Path) (msg : String)
  | createDirAll (p : Path)
  | setPermissions (p : Path) (mode : Nat)
  | removeDir (p : Path)
  | removeDirAll (p : Path)
  -- processes
  | pipe2
  | pipeRead (pipe : Nat)
  | pipeWrite (pipe : Nat)
  | clone3 (args : CloneArgs)
  | waitpid (pid : Int)
  | kill (pid : Int)
  | getpid
  | fork
  /-- `waitpid` for a child that `fork` has made. -/
  | waitFork (pid : Int)
  | execve (path : String) (args env : List String)
  | exit (code : Nat)
  | panic
  -- namespaces
  | mount (src : Option String) (dest : String) (mountType : Option String) (flags : List MsFlag)
    (data : Option String)
  | sethostname (name : String)
  | pivotRoot (newRoot putOld : String)
  | chdir (path : String)
  | umount2 (path : String)
  | setns (ns : String)
  /-- Open `/proc/<pid>/ns/<ns>`. -/
  | openNs (pid : Int) (ns : String)
  -- Unix sockets; a listening socket is named by the path it is bound to
  | socket
  | bind (p : Path)
  | listen (p : Path)
  | accept4 (p : Path)
  | connect (p : Path)
  | close (p : Path)
  -- netlink
  | netlinkSocket
  | netlinkBind (socket : Nat)
  | send (socket : Nat) (buf : List UInt8)
  | recv (socket : Nat)
  | iptables (args : List String)
  -- the event socket
  | connectEvent (sp : String)
  | writeEvent (sp : String) (e : Event)
  -- inside the daemon: each access to `containers` is one critical section
  | shimPath
  | channel
  | insertEntry (id : String) (entry : ContainerEntry)
  | spawnShim (id configPath eventSocket : String)
  | awaitCreated (id : String) (rx : Nat)
  | setEntry (id : String) (state : ContainerState)
  | removeStopped (id : String)
  | pushWaiter (id : String) (tx : Nat)
  | awaitExit (id : String) (rx : Nat)
  | keys

/-- The answer to each call. -/
@[reducible] def Op.Ret : Op → Type
  | .exists _ => Bool
  | .read _ => Io Content
  | .openFd _ => Io Int32
  | .write _ _ | .openFile _ | .append _ _ | .createDirAll _ | .setPermissions _ _ => Io Unit
  | .removeDir _ | .removeDirAll _ => Io Unit
  | .pipe2 => Io Nat
  | .pipeRead _ | .pipeWrite _ => Io Unit
  | .clone3 _ => Io Int
  | .waitpid _ => Io WaitStatus
  | .kill _ | .execve _ _ _ => Io Unit
  | .getpid => Int
  | .fork => Io Int
  | .waitFork _ => Io WaitStatus
  | .exit _ | .panic => Unit
  | .mount .. | .sethostname _ | .pivotRoot _ _ | .chdir _ | .umount2 _ | .setns _ => Io Unit
  | .openNs _ _ => Io Unit
  | .socket | .bind _ | .listen _ | .accept4 _ | .connect _ => Io Unit
  | .close _ => Unit
  | .netlinkSocket => Io Nat
  | .netlinkBind _ | .send _ _ => Io Unit
  | .recv _ => Io NetlinkReply
  | .iptables _ => Io Unit
  | .connectEvent _ | .writeEvent _ _ => Io Unit
  | .shimPath => Io Unit
  | .channel => Nat
  | .insertEntry _ _ => Unit
  | .spawnShim _ _ _ => Io Unit
  | .awaitCreated _ _ => Bool
  | .setEntry _ _ | .removeStopped _ => Unit
  | .pushWaiter _ _ => Bool
  | .awaitExit _ _ => Option Int
  | .keys => List String

@[reducible] def Sys : Sig := ⟨Op, Op.Ret⟩

/-- A function of `clonebox-core`. -/
abbrev Core (α : Type) := Prog Sys CoreError α

variable {ε α : Type}

/-- Issue a call. -/
abbrev sys (op : Op) : Prog Sys ε op.Ret := .ask (S := Sys) op

/-- `.map_err(f)?` on the answer of a call. -/
def mapErr {δ : Type} (p : Prog Sys ε (Except δ α)) (f : δ → ε) : Prog Sys ε α :=
  p.bind fun r => .ofExcept (r.mapError f)

theorem Calls.mapErr {δ : Type} {φ : Op → Prop} {p : Prog Sys ε (Except δ α)} {f : δ → ε}
    (hp : Prog.Calls (S := Sys) φ p) : Prog.Calls (S := Sys) φ (mapErr p f) := by
  refine Prog.Calls.bind hp fun r => ?_
  cases r <;> trivial

/-- End the process, as `libc::_exit` does. -/
def exit (code : Nat) : Prog Sys ε α := .call (.exit code) fun _ => .halt

/-- Unwind out of `main`: no later line of the program runs. -/
def panic : Prog Sys ε α := .call .panic fun _ => .halt

end Clonebox
