import Clonebox.Daemon.Handlers

/-! # The world the programs run in

Bundles, cgroups, control files, processes and sockets as the kernel keeps them, the events on
their way to the daemon, and the daemon's memory. Each call is one step. A call the source can see
fail may fail at any time. A bundle and a cgroup are named by the container id. -/

namespace Clonebox

/-- The socket `start.sk` in a bundle, with the thread that made it. -/
inductive Sock where
  | absent
  | bound (owner : Nat)
  | listening (owner queue : Nat)
  /-- The file of a socket that was closed. -/
  | dead
  deriving DecidableEq

/-- What the end of its maker leaves of a socket. -/
def Sock.drop (t : Nat) (s : Sock) : Sock :=
  match s with
  | .bound o => if o = t then .dead else s
  | .listening o _ => if o = t then .dead else s
  | s => s

structure Bundle where
  state : Option Content
  startSk : Sock
  deriving DecidableEq

/-- What `state.json` parses to. -/
def Bundle.file (b : Bundle) : Option State :=
  match b.state with
  | some (.state s) => some s
  | _ => none

/-- A cloned child, until it is reaped. -/
structure Proc where
  pid : Int
  parent : Nat
  cgroup : Option Path
  /-- How it ended, if it has. -/
  status : Option WaitStatus
  /-- Its parent has ended, and it is a child of process 1 now. -/
  adopted : Bool
  deriving DecidableEq

/-- It has ended, and so has its parent, which has not waited for it. -/
def Proc.reapable (p : Proc) : Bool := p.adopted && p.status.isSome

structure World where
  bundle : String → Option Bundle
  /-- The connections queued at a listening socket whose file is gone, by the thread that made
  it. -/
  orphans : Nat → Nat
  cgroup : String → Bool
  /-- Control files and the files of the host. -/
  files : Path → Option Content
  /-- The pipes that hold a byte, by the process that made them. -/
  gate : Nat → Bool
  procs : List Proc
  /-- Whether the daemon listens on the event socket. -/
  up : Bool
  /-- The events sent and not yet processed, with their senders. -/
  events : List (Nat × Event)
  daemon : Daemon

/-- What is left open in a call: it takes effect, with `n` where a fresh number is needed; it fails;
or it fails halfway. -/
inductive Choice where
  | run (n : Int)
  | err (e : Errno)
  | part (e : Errno)
  deriving DecidableEq

/-- The answer of a failed call. -/
def Op.failure : (op : Op) → Errno → Option op.Ret
  | .read _, e | .write _ _, e | .openFile _, e | .append _ _, e | .createDirAll _, e
  | .setPermissions _ _, e | .removeDir _, e | .removeDirAll _, e | .pipe2, e | .pipeRead _, e
  | .pipeWrite _, e | .clone3 _, e | .waitpid _, e | .kill _, e | .execve _ _ _, e
  | .fork, e | .waitFork _, e | .openNs _ _, e
  | .mount _ _ _ _ _, e | .sethostname _, e | .pivotRoot _ _, e | .chdir _, e | .umount2 _, e
  | .setns _, e | .socket, e | .bind _, e | .listen _, e | .accept4 _, e | .connect _, e
  | .openFd _, e | .netlinkSocket, e | .netlinkBind _, e | .send _ _, e | .recv _, e
  | .iptables _, e | .connectEvent _, e | .writeEvent _ _, e | .shimPath, e | .spawnShim _ _ _, e => some (.error e)
  | _, _ => none

namespace World

/-! ### Files -/

def setBundle (w : World) (id : String) (b : Option Bundle) : World :=
  { w with bundle := Function.update w.bundle id b }

def setSock (w : World) (id : String) (s : Sock) : World :=
  w.setBundle id ((w.bundle id).map ({ · with startSk := s }))

def content (w : World) (id : String) : Option Content := (w.bundle id).bind (·.state)

def file (w : World) (id : String) : Option State := (w.bundle id).bind Bundle.file

def sock (w : World) (id : String) : Sock := ((w.bundle id).map (·.startSk)).getD .absent

def pathExists (w : World) : Path → Bool
  | .bundle id => (w.bundle id).isSome
  | .inBundle id .stateJson => (w.content id).isSome
  | .inBundle id _ => (w.bundle id).isSome
  | .cgroup id => w.cgroup id
  | p => (w.files p).isSome

def readFile (w : World) (p : Path) : Io Content :=
  match p with
  | .inBundle id .stateJson => (w.content id).elim (.error .enoent) .ok
  | p => (w.files p).elim (.error .enoent) .ok

/-- `+controller` written to `cgroup.subtree_control` adds to what it holds. -/
def written (old : Option Content) (p : Path) (c : Content) : Content :=
  match p with
  | .subtreeControl _ =>
    .text ((old.map Content.asText).getD "" ++ " " ++ String.ofList (c.asText.toList.drop 1))
  | _ => c

def writeFile (w : World) (p : Path) (c : Content) : Io Unit × World :=
  match p with
  | .inBundle id .stateJson =>
    match w.bundle id with
    | some b => (.ok (), w.setBundle id (some { b with state := some c }))
    | none => (.error .enoent, w)
  | p => (.ok (), { w with files := Function.update w.files p (some (written (w.files p) p c)) })

def openFile (w : World) (p : Path) : Io Unit :=
  match p with
  | .inBundle id _ => if (w.bundle id).isSome then .ok () else .error .enoent
  | .cgroup id => if w.cgroup id then .ok () else .error .enoent
  | _ => .ok ()

def makeDirs (w : World) : Path → World
  | .bundle id | .inBundle id _ => w.setBundle id (some ((w.bundle id).getD ⟨none, .absent⟩))
  | .cgroup id => { w with cgroup := Function.update w.cgroup id true }
  | _ => w

/-- Whether a process that has not ended is in the cgroup. -/
def populated (w : World) (id : String) : Bool :=
  w.procs.any fun p => p.cgroup = some (.cgroup id) ∧ p.status = none

def removeDir (w : World) : Path → Io Unit × World
  | .cgroup id =>
    if w.cgroup id = false then (.error .enoent, w)
    else if w.populated id then (.error .ebusy, w)
    else (.ok (), { w with cgroup := Function.update w.cgroup id false })
  | _ => (.ok (), w)

/-- A listening socket whose file is removed keeps its queue. -/
def orphaned (w : World) (id : String) : Nat → Nat :=
  match w.sock id with
  | .listening o q => Function.update w.orphans o q
  | _ => w.orphans

/-- The files of a bundle are removed, and `b` is left. -/
def unlink (w : World) (id : String) (b : Option Bundle) : World :=
  { w.setBundle id b with orphans := w.orphaned id }

def removeDirAll (w : World) : Path → Io Unit × World
  | .bundle id =>
    if (w.bundle id).isSome then (.ok (), w.unlink id none) else (.error .enoent, w)
  | _ => (.ok (), w)

/-! ### Processes -/

def hasPid (w : World) (pid : Int) : Bool := w.procs.any (·.pid = pid)

def child (w : World) (parent : Nat) (pid : Int) : Option Proc :=
  w.procs.find? fun p => p.pid = pid ∧ p.parent = parent

def reap (w : World) (pid : Int) : World :=
  { w with procs := w.procs.filter (·.pid ≠ pid) }

def clone (w : World) (t : Nat) (args : CloneArgs) (pid : Int) : Option (Io Int × World) :=
  if 0 < pid ∧ w.hasPid pid = false then
    some (.ok pid, { w with procs := ⟨pid, t, args.cgroup, none, false⟩ :: w.procs })
  else none

def wait (w : World) (t : Nat) (pid : Int) : Option (Io WaitStatus × World) :=
  match w.child t pid with
  | none => some (.error .echild, w)
  | some p =>
    match p.status with
    | none => none
    | some st => some (.ok st, w.reap pid)

/-! ### The start socket -/

def bind (w : World) (t : Nat) : Path → Io Unit × World
  | .inBundle id _ =>
    match w.bundle id with
    | none => (.error .enoent, w)
    | some b =>
      if b.startSk = .absent then (.ok (), w.setSock id (.bound t)) else (.error .eaddrinuse, w)
  | _ => (.ok (), w)

def listen (w : World) (t : Nat) : Path → World
  | .inBundle id _ => if w.sock id = .bound t then w.setSock id (.listening t 0) else w
  | _ => w

/-- The connections queued at the socket of thread `t`, by its file or without one. -/
def queue (w : World) (t : Nat) (id : String) : Nat :=
  match w.sock id with
  | .listening o q => if o = t then q else w.orphans t
  | _ => w.orphans t

def setQueue (w : World) (t : Nat) (id : String) (q : Nat) : World :=
  match w.sock id with
  | .listening o _ =>
    if o = t then w.setSock id (.listening o q)
    else { w with orphans := Function.update w.orphans t q }
  | _ => { w with orphans := Function.update w.orphans t q }

/-- A connection is taken from the queue, once there is one. -/
def accept (w : World) (t : Nat) : Path → Option World
  | .inBundle id _ =>
    match w.queue t id with
    | q + 1 => some (w.setQueue t id q)
    | 0 => none
  | _ => none

/-- The socket listens with a backlog of 1, so the queue holds two; a third call waits. -/
def connect (w : World) : Path → Option (Io Unit × World)
  | .inBundle id _ =>
    match w.sock id with
    | .absent => some (.error .enoent, w)
    | .listening o q => if q < 2 then some (.ok (), w.setSock id (.listening o (q + 1))) else none
    | _ => some (.error .econnrefused, w)
  | _ => some (.error .enoent, w)

def close (w : World) (t : Nat) : Path → World
  | .inBundle id _ => w.setSock id ((w.sock id).drop t)
  | _ => w

/-- The children of the process become children of process 1. -/
def adopt (w : World) (t : Nat) : List Proc :=
  w.procs.map fun p => if p.parent = t then { p with adopted := true } else p

/-- The end of the process of a thread closes its sockets and leaves its children behind. -/
def crash (w : World) (t : Nat) : World :=
  { w with
    bundle := fun id => (w.bundle id).map fun b => { b with startSk := b.startSk.drop t }
    procs := w.adopt t }

/-! ### The daemon -/

def entry (w : World) (id : String) : Option ContainerEntry := w.daemon.entry id

def connectEvent (w : World) (sp : String) : Io Unit :=
  if w.up ∧ sp = getEventSocketPath then .ok () else .error .econnrefused

def writeEvent (w : World) (t : Nat) (e : Event) : Io Unit × World :=
  if w.up then (.ok (), { w with events := w.events ++ [(t, e)] }) else (.error .epipe, w)

/-- The receiver waits as long as the sender is in the entry. -/
def awaitCreated (w : World) (id : String) (rx : Nat) : Option Bool :=
  if w.daemon.created rx then some true
  else if (w.entry id).bind (·.createdWaiter) = some rx then none
  else some false

def awaitExit (w : World) (id : String) (rx : Nat) : Option (Option Int) :=
  match w.daemon.exits rx with
  | some code => some (some code)
  | none => if rx ∈ ((w.entry id).map (·.exitWaiter)).getD [] then none else some none

def setDaemon (w : World) (d : Daemon) : World := { w with daemon := d }

/-! ### Calls -/

/-- A call of thread `t` that takes effect, if it does not wait. -/
def run (w : World) (t : Nat) (n : Int) : (op : Op) → Option (op.Ret × World)
  | .exists p => some (w.pathExists p, w)
  | .read p => some (w.readFile p, w)
  | .write p c => some (w.writeFile p c)
  | .openFile p => some (w.openFile p, w)
  | .append _ _ => some (.ok (), w)
  | .createDirAll p => some (.ok (), w.makeDirs p)
  | .setPermissions p _ => some (if w.pathExists p then .ok () else .error .enoent, w)
  | .removeDir p => some (w.removeDir p)
  | .removeDirAll p => some (w.removeDirAll p)
  | .pipe2 => some (.ok t, { w with gate := Function.update w.gate t false })
  | .pipeRead pipe => if w.gate pipe then some (.ok (), w) else none
  | .pipeWrite pipe => some (.ok (), { w with gate := Function.update w.gate pipe true })
  | .clone3 args => w.clone t args n
  | .waitpid pid => w.wait t pid
  | .kill pid => some (if w.hasPid pid then .ok () else .error .esrch, w)
  | .getpid => some (n, w)
  | .fork => if 0 < n then some (.ok n, w) else none
  | .waitFork _ => some (.ok (if n < 0 then .signaled (-n).toNat false else .exited n), w)
  | .execve _ _ _ => some (.ok (), w)
  | .exit _ | .panic => some ((), w)
  | .mount _ _ _ _ _ | .sethostname _ | .pivotRoot _ _ | .chdir _ | .umount2 _ | .setns _
  | .openNs _ _ | .socket => some (.ok (), w)
  | .bind p => some (w.bind t p)
  | .listen p => some (.ok (), w.listen t p)
  | .accept4 p => (w.accept t p).map (.ok (), ·)
  | .connect p => w.connect p
  | .close p => some ((), w.close t p)
  | .openFd _ => some (.ok (.ofInt n), w)
  | .netlinkSocket => some (.ok n.toNat, w)
  | .netlinkBind _ | .send _ _ | .iptables _ => some (.ok (), w)
  | .recv _ => some (.ok (.link (.ofNat n.toNat)), w)
  | .connectEvent sp => some (w.connectEvent sp, w)
  | .writeEvent _ e => some (w.writeEvent t e)
  | .shimPath => some (.ok (), w)
  | .channel => some (t, w)
  | .insertEntry id e => some ((), w.setDaemon (w.daemon.orInsert id e))
  | .spawnShim _ _ _ => some (.ok (), w)
  | .awaitCreated id rx => (w.awaitCreated id rx).map (·, w)
  | .setEntry id st => some ((), w.setDaemon (w.daemon.modify id ({ · with state := st })))
  | .removeStopped id => some ((), w.setDaemon (w.daemon.removeStopped id))
  | .pushWaiter id tx => some ((w.entry id).isSome,
      w.setDaemon (w.daemon.modify id fun e => { e with exitWaiter := e.exitWaiter ++ [tx] }))
  | .awaitExit id rx => (w.awaitExit id rx).map (·, w)
  | .keys => some (w.daemon.containers.keys, w)

/-- A call that fails halfway: a write has truncated its file, a recursive removal has emptied the
directory but not removed it. -/
def runPart (w : World) (e : Errno) : (op : Op) → Option (op.Ret × World)
  | .write p _ => some (.error e, (w.writeFile p (.text "")).2)
  | .removeDirAll (.bundle id) =>
    some (.error e, w.unlink id ((w.bundle id).map fun _ => ⟨none, .absent⟩))
  | .recv _ => some (.ok (.error e), w)
  | _ => none

def exec (w : World) (t : Nat) (op : Op) : Choice → Option (op.Ret × World)
  | .run n => w.run t n op
  | .err e => (op.failure e).map (·, w)
  | .part e => w.runPart e op

/-! ### Steps of the environment -/

/-- What happens by itself: a process ends, process 1 waits for one it has adopted, the daemon
processes an event (each connection has its own task, so in any order), the daemon goes down or
comes up. -/
inductive Env where
  | exit (pid : Int) (status : WaitStatus)
  | reap (pid : Int)
  | deliver (i : Nat)
  | daemonStop
  | daemonStart (dir : List String)
  deriving DecidableEq

def exitProc (w : World) (pid : Int) (status : WaitStatus) : World :=
  { w with procs := w.procs.map fun p =>
      if p.pid = pid ∧ p.status = none then { p with status := some status } else p }

def reapAdopted (w : World) (pid : Int) : World :=
  { w with procs := w.procs.filter fun p => !(p.pid = pid && p.reapable) }

def env (w : World) : Env → Option World
  | .exit pid status => some (w.exitProc pid status)
  | .reap pid => some (w.reapAdopted pid)
  | .deliver i =>
    match w.events[i]? with
    | none => none
    | some (_, e) =>
      some { w with events := w.events.eraseIdx i, daemon := w.daemon.updateStatus e }
  | .daemonStop => some { w with
      up := false
      events := []
      daemon := { w.daemon with containers := ∅ } }
  | .daemonStart dir =>
    if w.up then none
    else some { w with
      up := true
      daemon := w.daemon.recover w.hasPid (dir.map fun name => (name, w.file name)) }

end World
end Clonebox
