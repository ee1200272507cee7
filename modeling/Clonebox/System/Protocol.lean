import Clonebox.System.Machine

/-! # What each program does, as an automaton

The calls that matter to a container's life are those on its bundle, its cgroup directory, its
process, its start socket and the daemon. Each program is summed up by the order in which it makes
them; the other calls are quiet. -/

namespace Clonebox
open Conc

/-- A call on control files, namespaces, pipes or the network. -/
def Op.quiet : Op → Bool
  | .exists p => p.owner.isNone
  | .read (.inBundle _ .stateJson) | .read (.host _) => false
  | .write (.inBundle _ .stateJson) _ => false
  | .createDirAll p => p.owner.isNone
  | .removeDir p | .removeDirAll p => p.owner.isNone
  | .clone3 _ | .waitpid _ | .kill _ | .getpid | .fork | .openNs _ _ => false
  | .bind _ | .listen _ | .accept4 _ | .connect _ | .close _ => false
  | .connectEvent _ | .writeEvent _ _ => false
  | .channel | .insertEntry _ _ | .spawnShim _ _ _ | .awaitCreated _ _ => false
  | .setEntry _ _ | .removeStopped _ | .pushWaiter _ _ | .awaitExit _ _ => false
  | _ => true

/-- The state a read of `state.json` yields. -/
def parsed : Io Content → Option State
  | .ok (.state s) => some s
  | _ => none

/-- Whether a read of `config.json` passes the checks of `Config::load`. -/
def loads : Io Content → Bool
  | .ok (.config c) => c.getRootPath ≠ "" ∧ (c.getProcessArgs.map (·.isEmpty)).getD true = false
  | _ => false

abbrev stateJson (id : String) : Path := .inBundle id .stateJson
abbrev startSk (id : String) : Path := .inBundle id .startSk

/-! ### `create` -/

/-- How far a run of `create` has come. -/
inductive Stage where
  | start
  /-- The bundle was there. -/
  | refused
  | passed
  /-- The configuration did not load, or the bundle could not be made. -/
  | unmade
  | made
  /-- `creating` is in `state.json`. -/
  | initial
  | grouped
  /-- In the cloned child. -/
  | child
  | cloned (pid : Int)
  /-- The event `created` is sent. -/
  | announced (pid : Int)
  | reread (pid : Int) (s : State)
  | created (pid : Int)
  | bound (pid : Int)
  | listening (pid : Int)
  /-- `accept4` has failed. -/
  | broken (pid : Int)
  | accepted (pid : Int)
  | waited (pid : Int) (status : WaitStatus)
  | reported (pid : Int)
  | ending (pid : Int) (s : State)
  | stopped (pid : Int)
  /-- The child has ended, and either its event or its status was not written. -/
  | lost (pid : Int)
  deriving DecidableEq

namespace Stage

/-- The stages in which a run can fail for a reason the automaton does not follow. -/
def canFail : Stage → Bool
  | .start | .passed | .waited _ _ | .reported _ | .ending _ _ => false
  | _ => true

/-- The stages in which `create` itself can end without returning. -/
def canHalt : Stage → Bool
  | .refused => false
  | g => g.canFail

/-- The first event of `create`, and the one its parent updates. -/
def event (id : String) (st : ContainerState) : Event := ⟨id, st, some 0⟩

def may (id configPath : String) (sp : Option String) (g : Stage) (op : Op) : Prop :=
  op.quiet = true ∨
  (g.canFail = true ∧ ∃ s, sp = some s ∧
    (op = .connectEvent s ∨ op = .writeEvent s (failureReport id))) ∨
  match g with
  | .start => op = .exists (.bundle id)
  | .passed => op = .read (.host (configPath ++ "/config.json")) ∨ op = .createDirAll (.bundle id)
  | .made =>
    (∃ s, sp = some s ∧ (op = .connectEvent s ∨ op = .writeEvent s (event id .creating))) ∨
    ∃ s, s.status = .creating ∧ s.pid = none ∧ op = .write (stateJson id) (.state s)
  | .initial => op = .createDirAll (.cgroup id)
  | .grouped => op = .clone3 ⟨cloneFlags ||| CLONE_INTO_CGROUP, SIGCHLD, some (.cgroup id)⟩
  | .child => ∃ f, op = .createDirAll (.inBundle id f)
  | .cloned _ =>
    (∃ s, sp = some s ∧ (op = .connectEvent s ∨ op = .writeEvent s (event id .created))) ∨
    sp = none ∧ op = .read (stateJson id)
  | .announced _ => op = .read (stateJson id)
  | .reread pid s => op = .write (stateJson id) (.state (s.setCreated pid))
  | .created _ => op = .bind (startSk id) ∨ op = .close (startSk id)
  | .bound _ => op = .listen (startSk id) ∨ op = .close (startSk id)
  | .listening _ => op = .accept4 (startSk id)
  | .accepted pid => op = .waitpid pid ∨ op = .close (startSk id)
  | .waited _ st =>
    (∃ s, sp = some s ∧
      (op = .connectEvent s ∨ op = .writeEvent s (stoppedEvent (event id .created) st))) ∨
    sp = none ∧ op = .read (stateJson id)
  | .reported _ => op = .read (stateJson id)
  | .ending _ s => op = .write (stateJson id) (.state s.setStopped)
  | .broken _ | .stopped _ | .lost _ => op = .close (startSk id)
  | .refused | .unmade => False

/-- The stage after the answer to a call that is not quiet. -/
def advance : Stage → (op : Op) → op.Ret → Stage
  | .start, .exists _, found => if found then .refused else .passed
  | .passed, .read _, r => if loads r then .passed else .unmade
  | .passed, .createDirAll _, r => match r with | .ok () => .made | .error _ => .unmade
  | .made, .write _ _, .ok () => .initial
  | .initial, .createDirAll _, .ok () => .grouped
  | .grouped, .clone3 _, .ok pid => if pid = 0 then .child else .cloned pid
  | .cloned pid, .writeEvent _ e, .ok () =>
    if e.state = .created then .announced pid else .cloned pid
  | .cloned pid, .read _, r => (parsed r).elim (.cloned pid) (.reread pid)
  | .announced pid, .read _, r => (parsed r).elim (.announced pid) (.reread pid)
  | .reread pid _, .write _ _, .ok () => .created pid
  | .created pid, .bind _, .ok () => .bound pid
  | .bound pid, .listen _, .ok () => .listening pid
  | .listening pid, .accept4 _, r =>
    match r with | .ok () => .accepted pid | .error _ => .broken pid
  | .accepted pid, .waitpid _, .ok st => .waited pid st
  | .waited pid _, .connectEvent _, .error _ => .lost pid
  | .waited pid _, .writeEvent _ _, r =>
    match r with | .ok () => .reported pid | .error _ => .lost pid
  | .waited pid _, .read _, r => (parsed r).elim (.lost pid) (.ending pid)
  | .reported pid, .read _, r => (parsed r).elim (.lost pid) (.ending pid)
  | .ending pid _, .write _ _, r => match r with | .ok () => .stopped pid | .error _ => .lost pid
  | g, _, _ => g

/-- How a run of `create` ends. -/
def post (id : String) (g : Stage) (r : Except Fault Reply) : Prop :=
  match r with
  | .ok _ => ∃ pid, g = .stopped pid
  | .error e => g.canFail = true ∧ (g = .refused → e = .core (.containerAlreadyExists id))

end Stage

/-! ### `start`, `pause`, `resume` -/

namespace Turn

/-- The status the operation requires. -/
def required : Turn → ContainerState
  | .start => .created
  | .pause => .running
  | .resume => .paused

def set : Turn → State → State
  | .start => State.setRunning
  | .pause => State.setPaused
  | .resume => State.setRunning

/-- The status the operation writes. -/
def target : Turn → ContainerState
  | .start => .running
  | .pause => .paused
  | .resume => .running

@[simp] theorem set_status (t : Turn) (s : State) : (t.set s).status = t.target := by
  cases t <;> rfl

@[simp] theorem set_pid (t : Turn) (s : State) : (t.set s).pid = s.pid := by
  cases t <;> rfl

end Turn

inductive TurnStage where
  | idle
  | refused
  /-- The status was as required. -/
  | passed
  /-- `start` has reached the supervisor. -/
  | connected
  | reread (s : State)
  | wrote
  | settled
  deriving DecidableEq

namespace TurnStage

def may (t : Turn) (id : String) (g : TurnStage) (op : Op) : Prop :=
  op.quiet = true ∨
  match g with
  | .idle => op = .read (stateJson id)
  | .passed => if t = .start then op = .connect (startSk id) else op = .read (stateJson id)
  | .connected => op = .read (stateJson id)
  | .reread s => op = .write (stateJson id) (.state (t.set s))
  | .wrote => op = .setEntry id t.target
  | .refused | .settled => False

def advance (t : Turn) : TurnStage → (op : Op) → op.Ret → TurnStage
  | .idle, .read _, r =>
    (parsed r).elim .refused fun s => if s.status = t.required then .passed else .refused
  | .passed, .connect _, r => match r with | .ok () => .connected | .error _ => .refused
  | .passed, .read _, r => (parsed r).elim .refused .reread
  | .connected, .read _, r => (parsed r).elim .refused .reread
  | .reread _, .write _ _, r => match r with | .ok () => .wrote | .error _ => .refused
  | .wrote, .setEntry _ _, _ => .settled
  | g, _, _ => g

end TurnStage

/-! ### `kill` -/

inductive KillStage where
  | idle
  | refused
  | aimed (s : State) (pid : Int)
  | signalled (s : State)
  | wrote
  | settled
  deriving DecidableEq

namespace KillStage

def may (id : String) (g : KillStage) (op : Op) : Prop :=
  op.quiet = true ∨
  match g with
  | .idle => op = .read (stateJson id)
  | .aimed _ pid => op = .kill pid
  | .signalled s => op = .write (stateJson id) (.state s.setStopped)
  | .wrote => op = .setEntry id .stopped
  | .refused | .settled => False

def advance (id : String) : KillStage → (op : Op) → op.Ret → KillStage
  | .idle, .read _, r =>
    (parsed r).elim .refused fun s =>
      match killTarget id s with | .ok pid => .aimed s pid | .error _ => .refused
  | .aimed s _, .kill _, r =>
    match r with
    | .ok () => .signalled s
    | .error e => if e.code = Errno.esrch.code then .signalled s else .refused
  | .signalled _, .write _ _, r => match r with | .ok () => .wrote | .error _ => .refused
  | .wrote, .setEntry _ _, _ => .settled
  | g, _, _ => g

end KillStage

/-! ### `delete` -/

inductive DeleteStage where
  | idle
  | refused
  | checked
  | clearing
  | cleared
  | settled
  deriving DecidableEq

namespace DeleteStage

def may (id : String) (force : Bool) (g : DeleteStage) (op : Op) : Prop :=
  op.quiet = true ∨
  match g with
  | .idle => if force then op = .removeDir (.cgroup id) else op = .read (stateJson id)
  | .checked => op = .removeDir (.cgroup id)
  | .clearing => op = .removeDirAll (.bundle id)
  | .cleared => op = .removeStopped id
  | .refused | .settled => False

def advance (force : Bool) : DeleteStage → (op : Op) → op.Ret → DeleteStage
  | .idle, .read _, r =>
    (parsed r).elim .refused fun s => if s.status = .stopped then .checked else .refused
  | .idle, .removeDir _, _ => .clearing
  | .checked, .removeDir _, r => match r with | .ok () => .clearing | .error _ => .refused
  | .clearing, .removeDirAll _, r =>
    match r with | .ok () => .cleared | .error _ => if force then .cleared else .refused
  | .cleared, .removeStopped _, _ => .settled
  | g, _, _ => g

end DeleteStage

/-! ### `exec` -/

inductive ExecStage where
  | idle
  | refused
  /-- The state said `running`, with this pid. -/
  | aimed (pid : Int)
  /-- It knows its own pid too. -/
  | entering (pid self : Int)
  deriving DecidableEq

namespace ExecStage

def may (id : String) (g : ExecStage) (op : Op) : Prop :=
  op.quiet = true ∨
  match g with
  | .idle => op = .read (stateJson id)
  | .aimed _ => op = .getpid
  | .entering pid self => (∃ ns, op = .openNs pid ns ∨ op = .openNs self ns) ∨ op = .fork
  | .refused => False

def advance : ExecStage → (op : Op) → op.Ret → ExecStage
  | .idle, .read _, r =>
    (parsed r).elim .refused fun s => if s.status = .running then s.pid.elim .refused .aimed else .refused
  | .aimed pid, .getpid, self => .entering pid self
  | g, _, _ => g

end ExecStage

/-! ### The `create` handler -/

inductive HandlerStage where
  | idle
  | holding (tx : Nat)
  | entered (tx : Nat)
  | unspawned
  | spawned (tx : Nat)
  | answered (b : Bool)
  deriving DecidableEq

namespace HandlerStage

def may (id configPath : String) (g : HandlerStage) (op : Op) : Prop :=
  op.quiet = true ∨
  match g with
  | .idle => op = .channel
  | .holding tx => op = .insertEntry id ⟨.creating, some tx, []⟩
  | .entered _ => op = .spawnShim id configPath getEventSocketPath
  | .spawned tx => op = .awaitCreated id tx
  | .unspawned | .answered _ => False

def advance : HandlerStage → (op : Op) → op.Ret → HandlerStage
  | .idle, .channel, tx => .holding tx
  | .holding tx, .insertEntry _ _, _ => .entered tx
  | .entered tx, .spawnShim _ _ _, r =>
    match r with | .ok () => .spawned tx | .error _ => .unspawned
  | .spawned _, .awaitCreated _ _, b => .answered b
  | g, _, _ => g

end HandlerStage

/-! ### The contract of every program -/

inductive Phase where
  | create (g : Stage)
  | turn (g : TurnStage)
  | kill (g : KillStage)
  | delete (g : DeleteStage)
  | exec (g : ExecStage)
  | handler (g : HandlerStage)
  /-- A program that changes nothing but the list of exit waiters. -/
  | observer
  deriving DecidableEq

/-- The kind of a program, with the container it is about. -/
inductive Kind where
  | create (id configPath : String) (sp : Option String)
  | turn (t : Turn) (id : String)
  | kill (id : String)
  | delete (id : String) (force : Bool)
  | exec (id : String)
  | handler (id configPath : String)
  | observer
  deriving DecidableEq

def Main.kind : Main → Kind
  | .create id configPath sp => .create id configPath sp
  | .turn t id => .turn t id
  | .kill id => .kill id
  | .delete id force => .delete id force
  | .state _ => .observer
  | .exec id _ => .exec id
  | .shim id configPath sp => .create id configPath (some sp)
  | .rpc (.create id configPath) => .handler id configPath
  | .rpc (.start id) => .turn .start id
  | .rpc (.pause id) => .turn .pause id
  | .rpc (.resume id) => .turn .resume id
  | .rpc (.kill id) => .kill id
  | .rpc (.delete id force) => .delete id force
  | .rpc _ => .observer

namespace Kind

def init : Kind → Phase
  | .create _ _ _ => .create .start
  | .turn _ _ => .turn .idle
  | .kill _ => .kill .idle
  | .delete _ _ => .delete .idle
  | .exec _ => .exec .idle
  | .handler _ _ => .handler .idle
  | .observer => .observer

/-- The calls of a program that only looks. -/
def looks : Op → Bool
  | .read (.inBundle _ .stateJson) | .channel | .pushWaiter _ _ | .awaitExit _ _ => true
  | op => op.quiet

def may : Kind → Phase → Op → Prop
  | .create id configPath sp, .create g, op => g.may id configPath sp op
  | .turn t id, .turn g, op => g.may t id op
  | .kill id, .kill g, op => g.may id op
  | .delete id force, .delete g, op => g.may id force op
  | .exec id, .exec g, op => g.may id op
  | .handler id configPath, .handler g, op => g.may id configPath op
  | .observer, .observer, op => looks op = true
  | _, _, _ => False

def next : Kind → Phase → (op : Op) → op.Ret → Phase
  | .create _ _ _, .create g, op, r => .create (if op.quiet then g else g.advance op r)
  | .turn t _, .turn g, op, r => .turn (if op.quiet then g else g.advance t op r)
  | .kill id, .kill g, op, r => .kill (if op.quiet then g else g.advance id op r)
  | .delete _ force, .delete g, op, r => .delete (if op.quiet then g else g.advance force op r)
  | .exec _, .exec g, op, r => .exec (if op.quiet then g else g.advance op r)
  | .handler _ _, .handler g, op, r => .handler (if op.quiet then g else g.advance op r)
  | _, g, _, _ => g

def post : Kind → Phase → Except Fault Reply → Prop
  | .create id _ _, .create g, r => g.post id r
  | .turn _ _, .turn g, r => (g = .wrote ∨ g = .settled ↔ ∃ a, r = .ok a)
  | .kill _, .kill g, r => (g = .wrote ∨ g = .settled ↔ ∃ a, r = .ok a)
  | .delete _ _, .delete g, r => (g = .cleared ∨ g = .settled ↔ ∃ a, r = .ok a)
  | .handler _ _, .handler g, r => (g = .answered true ↔ ∃ a, r = .ok a)
  | _, _, _ => True

end Kind

/-- `create` and `exec` can end without returning: in the child, or by a panic. -/
def Kind.halts : Kind → Phase → Prop
  | .create _ _ _, .create g => g.canHalt = true
  | .exec _, .exec g => ∃ pid self, g = .entering pid self
  | _, _ => False

/-- A shim can also panic when `create` has failed. -/
def Main.halts : Main → Phase → Prop
  | .shim _ _ _, .create g => g.canFail = true
  | m, g => m.kind.halts g

def Kind.proto (k : Kind) : Proto Sys Phase := ⟨k.may, k.next, k.halts⟩

@[simp] theorem Kind.proto_may (k : Kind) : k.proto.may = k.may := rfl
@[simp] theorem Kind.proto_next (k : Kind) : k.proto.next = k.next := rfl
@[simp] theorem Kind.proto_halts (k : Kind) : k.proto.halts = k.halts := rfl

/-- A call the protocol does not see. -/
theorem Kind.next_quiet {k : Kind} {g : Phase} {op : Op} (h : op.quiet = true) (r : op.Ret) :
    k.next g op r = g := by
  cases k <;> cases g <;> simp [Kind.next, h]

theorem Kind.proto_quiet {k : Kind} {g : Phase} {op : Op} (h : op.quiet = true) (r : op.Ret) :
    k.proto.next g op r = g := by
  rw [proto_next, next_quiet h]

def Main.proto (m : Main) : Proto Sys Phase := ⟨m.kind.may, m.kind.next, m.halts⟩

@[simp] theorem Main.proto_may (m : Main) : m.proto.may = m.kind.may := rfl
@[simp] theorem Main.proto_next (m : Main) : m.proto.next = m.kind.next := rfl
@[simp] theorem Main.proto_halts (m : Main) : m.proto.halts = m.halts := rfl

/-- A request has told the map before it ends. -/
def Main.post (m : Main) (g : Phase) (r : Except Fault Reply) : Prop :=
  m.kind.post g r ∧
    (m.isRpc = true → g ≠ .turn .wrote ∧ g ≠ .kill .wrote ∧ g ≠ .delete .cleared)

/-- What every program promises. -/
def contract : Machine.Contract Sys Fault Reply Main Phase where
  proto := Main.proto
  init m := m.kind.init
  post := Main.post

end Clonebox
