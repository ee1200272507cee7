import Clonebox.Daemon.Main
import Clonebox.System.Run

/-! # The host on which daemons are started

The system with the process that serves it: a step is one of `main`, one of the rest of the system,
the start of a daemon or its end at any point. The map that `main` fills is its own until it listens
for events; from then on it is the map of the system. Daemons are started one at a time
(`OneAtATime`). -/

namespace Clonebox
open Conc

/-- A daemon that has made its map: the thread that runs `main`, what its tasks share, and which of
its two servers have been started. -/
structure Instance where
  owner : Nat
  daemon : Daemon
  accepts : Bool
  serves : Bool

structure Host where
  sys : SysConf
  /-- The sockets in the application directory, by their paths. -/
  socket : String → Sock
  inst : Option Instance

/-- What is left open in a call of `main`: it takes effect, with what a directory lists, or it
fails. -/
inductive BootChoice where
  | run (listing : List DirEntry)
  | err (e : Errno)
  deriving DecidableEq

/-- The answer of a failed call. A removal that finds no file is told by the paths. -/
def MainOp.failure : (op : MainOp) → Errno → Option op.Ret
  | .createDirAll _, e | .setPermissions _ _, e | .bind _, e | .readDir _, e | .readToString _, e
  | .serve, e | .shutdown, e => some (.error e)
  | .removeFile _, e => if e = .enoent then none else some (.error e)
  | _, _ => none

namespace Host

/-- The tasks of the daemon are gone. -/
def down (h : Host) : Host := { h with sys := (system.step h.sys (.env .daemonStop)).getD h.sys }

/-- The shims reach the daemon, and its map is the one they report to. -/
def reachable (h : Host) : Host :=
  match h.inst with
  | some inst =>
    { h with sys := { h.sys with world := { h.sys.world with up := true, daemon := inst.daemon } } }
  | none => h

def setSocket (h : Host) (path : String) (s : Sock) : Host :=
  { h with socket := Function.update h.socket path s }

/-- A shim can no longer connect to a socket whose file is gone. -/
def removeFile (h : Host) (path : String) : Io Unit × Host :=
  match h.socket path with
  | .absent => (.error .enoent, h)
  | .listening _ _ =>
    (.ok (), (if path = getEventSocketPath then h.down else h).setSocket path .absent)
  | _ => (.ok (), h.setSocket path .absent)

def bind (h : Host) (t : Nat) (path : String) : Io Unit × Host :=
  match h.socket path with
  | .absent =>
    (.ok (), (if path = getEventSocketPath then h.reachable else h).setSocket path (.listening t 0))
  | _ => (.error .eaddrinuse, h)

/-- The end of the process of thread `t`. -/
def finish (h : Host) (t : Nat) : Host :=
  let h := { h with socket := fun path => (h.socket path).drop t }
  if h.inst.any (·.owner = t) then { h.down with inst := none } else h

def setInst (h : Host) (f : Instance → Instance) : Host := { h with inst := h.inst.map f }

/-- All requests have been answered, or given up with the daemon that took them. -/
def answered (h : Host) : Bool :=
  h.sys.threads.all fun th => !th.main.isRpc || !decide (Running th)

def run (h : Host) (t : Nat) (listing : List DirEntry) : (op : MainOp) → Option (op.Ret × Host)
  | .createDirAll _ | .setPermissions _ _ => some (.ok (), h)
  -- the channels are numbered through, so the new map keeps those of its predecessors
  | .new =>
    some ((), { h with inst := some ⟨t, { h.sys.world.daemon with containers := ∅ }, false, false⟩ })
  | .removeFile path => some (h.removeFile path)
  | .bind path => some (h.bind t path)
  | .readDir _ => some (.ok listing, h)
  | .readToString p => some (h.sys.world.readFile p, h)
  | .procExists pid => some (h.sys.world.hasPid pid, h)
  | .orInsert fileName entry =>
    some ((), h.setInst fun inst => { inst with daemon := inst.daemon.orInsert fileName entry })
  | .eventLoop => some ((), h.setInst fun inst => { inst with accepts := true })
  | .serve => some (.ok (), h.setInst fun inst => { inst with serves := true })
  | .shutdown => if h.answered then some (.ok (), h) else none
  | .exit _ | .panic => some ((), h.finish t)

def exec (h : Host) (t : Nat) (op : MainOp) : BootChoice → Option (op.Ret × Host)
  | .run listing => h.run t listing op
  | .err e => (op.failure e).map (·, h)

/-- Events are processed once the event loop runs, and requests taken once the server does. -/
def allows (h : Host) : SysAction → Bool
  | .env .daemonStop | .env (.daemonStart _) => false
  | .env (.deliver _) => h.inst.any (·.accepts)
  | .invoke m => !m.isRpc || h.inst.any (·.serves)
  | _ => true

def env (h : Host) (a : SysAction) : Option Host :=
  if h.allows a then (system.step h.sys a).map ({ h with sys := · }) else none

end Host

def hosts : Machine Boot String Unit Host BootChoice SysAction Unit where
  prog _ := Cloneboxd.process
  exec := Host.exec
  fork _ _ := none
  spawn _ _ := none
  invocable _ _ := true
  env := Host.env
  halts _ _ := false
  crash := Host.finish

abbrev HostConf := Conf Boot String Unit Host Unit
abbrev HostAction := Action BootChoice SysAction Unit
abbrev HostThread := Thread Boot String Unit Unit

/-! ### What a call of `main` does to the host -/

namespace Host

variable {h h' : Host} {t : Nat} {p : String} {ch : BootChoice}

@[simp] theorem setSocket_socket {s : Sock} :
    (h.setSocket p s).socket = Function.update h.socket p s := rfl
@[simp] theorem setSocket_inst {s : Sock} : (h.setSocket p s).inst = h.inst := rfl
@[simp] theorem setSocket_sys {s : Sock} : (h.setSocket p s).sys = h.sys := rfl
@[simp] theorem down_socket : h.down.socket = h.socket := rfl
@[simp] theorem down_inst : h.down.inst = h.inst := rfl
@[simp] theorem setInst_socket {f : Instance → Instance} : (h.setInst f).socket = h.socket := rfl
@[simp] theorem setInst_sys {f : Instance → Instance} : (h.setInst f).sys = h.sys := rfl
@[simp] theorem setInst_inst {f : Instance → Instance} : (h.setInst f).inst = h.inst.map f := rfl

@[simp] theorem reachable_socket : h.reachable.socket = h.socket := by
  unfold reachable
  split <;> rfl

@[simp] theorem reachable_inst : h.reachable.inst = h.inst := by
  unfold reachable
  split <;> rfl

@[simp] theorem finish_socket : (h.finish t).socket p = (h.socket p).drop t := by
  unfold finish
  dsimp only
  split <;> rfl

theorem finish_other (ht : h.inst.map (·.owner) ≠ some t) :
    (h.finish t).sys = h.sys ∧ (h.finish t).inst = h.inst := by
  have hne : ¬h.inst.any (·.owner = t) = true := by
    cases hinst : h.inst with
    | none => simp
    | some x => simpa [hinst] using ht
  unfold finish
  dsimp only
  rw [if_neg hne]
  exact ⟨rfl, rfl⟩

/-- The calls that leave the host as it is. -/
def looks : MainOp → Bool
  | .createDirAll _ | .setPermissions _ _ | .readDir _ | .readToString _ | .procExists _
  | .shutdown => true
  | _ => false

theorem exec_looks {op : MainOp} {r : op.Ret} (hop : looks op = true)
    (hx : h.exec t op ch = some (r, h')) : h' = h := by
  cases ch with
  | err e =>
    obtain ⟨r', -, hr⟩ := Option.map_eq_some_iff.mp hx
    exact (Prod.mk.inj hr).2.symm
  | run listing =>
    cases op with
    | createDirAll | setPermissions | readDir | readToString | procExists =>
      exact (Prod.mk.inj (Option.some.inj hx)).2.symm
    | shutdown =>
      simp only [exec, run] at hx
      split at hx
      · exact (Prod.mk.inj (Option.some.inj hx)).2.symm
      · cases hx
    | _ => cases hop

/-- The path is free, or the removal has failed. -/
theorem exec_removeFile {r : Io Unit} (hx : h.exec t (.removeFile p) ch = some (r, h')) :
    (h' = h ∧ ∃ e, e ≠ .enoent ∧ r = .error e) ∨
      ((r = .ok () ∨ r = .error .enoent) ∧ h'.socket = Function.update h.socket p .absent ∧
        h'.inst = h.inst ∧ (h'.sys = h.sys ∨ h'.sys = h.down.sys)) := by
  cases ch with
  | err e =>
    simp only [exec, MainOp.failure] at hx
    split at hx
    · cases hx
    · rename_i hne
      cases hx
      exact .inl ⟨rfl, e, hne, rfl⟩
  | run listing =>
    simp only [exec, run, removeFile] at hx
    split at hx
    · rename_i habs
      cases hx
      exact .inr ⟨.inr rfl, by rw [← habs, Function.update_eq_self], rfl, .inl rfl⟩
    · cases hx
      refine .inr ⟨.inl rfl, ?_⟩
      split
      · exact ⟨rfl, rfl, .inr rfl⟩
      · exact ⟨rfl, rfl, .inl rfl⟩
    · cases hx
      exact .inr ⟨.inl rfl, rfl, rfl, .inl rfl⟩

/-- With the event socket the daemon is there for the shims. -/
theorem exec_bind {r : Io Unit} (hx : h.exec t (.bind p) ch = some (r, h')) :
    (h' = h ∧ ∃ e, r = .error e) ∨
      (r = .ok () ∧ h'.socket = Function.update h.socket p (.listening t 0) ∧ h'.inst = h.inst ∧
        h'.sys = if p = getEventSocketPath then h.reachable.sys else h.sys) := by
  cases ch with
  | err e =>
    cases hx
    exact .inl ⟨rfl, e, rfl⟩
  | run listing =>
    simp only [exec, run, bind] at hx
    split at hx
    · cases hx
      refine .inr ⟨rfl, ?_⟩
      split <;> simp
    · cases hx
      exact .inl ⟨rfl, _, rfl⟩

/-- What is read is a state that the file holds, or something else, or there was no reading it. -/
theorem exec_readToString {r : Io Content} {name : String}
    (hx : h.exec t (.readToString (stateJson name)) ch = some (r, h')) :
    (∀ s, r = .ok (.state s) → h.sys.world.file name = some s) ∧
      ∀ content, r = .ok content → (∀ s, content ≠ .state s) → h.sys.world.file name = none := by
  cases ch with
  | err e =>
    cases hx
    refine ⟨fun s hr => ?_, fun content hr => ?_⟩
    · cases hr
    · cases hr
  | run listing =>
    have hr : h.sys.world.readFile (stateJson name) = r := (Prod.mk.inj (Option.some.inj hx)).1
    refine ⟨fun s hs => ?_, fun content hcontent hother => ?_⟩
    · have hexec : h.sys.world.exec t (.read (stateJson name)) (.run 0) =
          some (.ok (.state s), h.sys.world) := by
        rw [← hs, ← hr]
        rfl
      exact (World.exec_read hexec).2 s rfl
    · cases hf : h.sys.world.file name with
      | none => rfl
      | some s =>
        have hsame := (hcontent.symm.trans hr.symm).trans (World.readFile_of_file hf)
        exact (hother s (Except.ok.inj hsame)).elim

theorem exec_procExists {pid : Int} {r : Bool} (hx : h.exec t (.procExists pid) ch = some (r, h')) :
    h.sys.world.hasPid pid = r := by
  cases ch with
  | err e => cases hx
  | run listing => exact (Prod.mk.inj (Option.some.inj hx)).1

end Host

/-! ### What a daemon does, in which order -/

/-- What a daemon has done with the file at a path. -/
inductive Hold where
  | untouched
  | freed
  /-- The removal has failed, and not because there was no file. -/
  | stuck
  | held
  deriving DecidableEq

/-- The state file the loop is about. -/
inductive Scan where
  | idle
  | found (name : String) (s : State)
  | checked (name : String) (s : State) (alive : Bool)
  deriving DecidableEq

/-- What the loop enters. -/
def Scan.entry : Scan → Option (String × ContainerEntry)
  | .idle => none
  | .found name s =>
    if s.pid = none then some (name, ⟨(recoveredState (fun _ => false) s).getState, none, []⟩) else none
  | .checked name s alive => some (name, ⟨(recoveredState (fun _ => alive) s).getState, none, []⟩)

inductive BootStage where
  | launched
  | loading
  | scanning
  | serving
  | closing
  | ended
  deriving DecidableEq

structure BootPhase where
  stage : BootStage
  hold : String → Hold
  todo : List String
  scan : Scan

namespace BootPhase

def init : BootPhase := ⟨.launched, fun _ => .untouched, [], .idle⟩

/-- Every container that was listed has been looked at. -/
structure Scanned (g : BootPhase) : Prop where
  stage : g.stage = .scanning
  todo : g.todo = []
  scan : g.scan = .idle

/-- Both servers have their socket. -/
structure Listens (g : BootPhase) : Prop where
  stage : g.stage = .serving
  client : g.hold Cloneboxd.clientSocket = .held
  event : g.hold getEventSocketPath = .held

theorem scanned_iff {g : BootPhase} :
    g.Scanned ↔ g.stage = .scanning ∧ g.todo = [] ∧ g.scan = .idle :=
  ⟨fun h => ⟨h.stage, h.todo, h.scan⟩, fun h => ⟨h.1, h.2.1, h.2.2⟩⟩

theorem listens_iff {g : BootPhase} : g.Listens ↔ g.stage = .serving ∧
    g.hold Cloneboxd.clientSocket = .held ∧ g.hold getEventSocketPath = .held :=
  ⟨fun h => ⟨h.stage, h.client, h.event⟩, fun h => ⟨h.1, h.2.1, h.2.2⟩⟩

def may (g : BootPhase) : MainOp → Prop
  | .createDirAll _ | .setPermissions _ _ | .new => g.stage = .launched
  | .removeFile path => path = Cloneboxd.clientSocket ∧ g.stage = .loading ∨
      path = getEventSocketPath ∧ g.Scanned ∨ g.stage = .closing
  | .bind path => (g.hold path = .freed ∨ g.hold path = .stuck) ∧
      (path = Cloneboxd.clientSocket ∧ g.stage = .loading ∨ path = getEventSocketPath ∧ g.Scanned)
  | .readDir _ => g.stage = .loading
  | .readToString p => g.stage = .scanning ∧ g.scan = .idle ∧ ∃ name ∈ g.todo.head?, p = stateJson name
  | .procExists pid => g.stage = .scanning ∧ ∃ name s, g.scan = .found name s ∧ s.pid = some pid
  | .orInsert name e => g.stage = .scanning ∧ g.scan.entry = some (name, e)
  | .eventLoop | .serve | .shutdown => g.Listens
  | .exit _ | .panic => g.stage ≠ .ended

theorem live_of_may {g : BootPhase} {op : MainOp} (h : g.may op) : g.stage ≠ .ended := by
  intro he
  cases op <;> simp [may, he, scanned_iff, listens_iff] at h

def next (g : BootPhase) : (op : MainOp) → op.Ret → BootPhase
  | .new, _ => { g with stage := .loading }
  | .removeFile path, r => { g with
      hold := Function.update g.hold path
        (if r = .ok () ∨ r = .error .enoent then .freed else .stuck) }
  | .bind path, .ok () => { g with
      hold := Function.update g.hold path .held
      stage := if path = getEventSocketPath then .serving else g.stage }
  | .readDir _, .ok listing => { g with stage := .scanning, todo := listing.filterMap DirEntry.named }
  | .readToString _, .ok (.state s) =>
    { g with todo := g.todo.tail, scan := g.todo.head?.elim .idle (.found · s) }
  | .readToString _, _ => { g with todo := g.todo.tail }
  | .procExists _, alive => { g with scan := match g.scan with
      | .found name s => .checked name s alive
      | scan => scan }
  | .orInsert _ _, _ => { g with scan := .idle }
  | .shutdown, .ok () => { g with stage := .closing }
  | .exit _, _ | .panic, _ => { g with stage := .ended }
  | _, _ => g

end BootPhase

def bootProto : Proto Boot BootPhase := ⟨BootPhase.may, BootPhase.next, fun g => g.stage = .ended⟩

section
open Prog
attribute [local simp] Prog.obeys_call Prog.ask bootProto BootPhase.next BootPhase.may Cloneboxd.ask
  forall_except
  forall_content

variable {g : BootPhase}

/-- The status that is worked out for a file is the one that `recover` is to enter. -/
theorem recoverState_obeys {name : String} {s : State} (hstage : g.stage = .scanning)
    (hscan : g.scan = .found name s) :
    (Cloneboxd.recoverState s).Obeys bootProto (fun g' r => ∃ s' scan, r = .ok s' ∧
      scan.entry = some (name, ⟨s'.getState, none, []⟩) ∧ g' = { g with scan }) g := by
  obtain ⟨stage, hold, todo, scan⟩ := g
  dsimp only at hstage hscan
  subst hstage hscan
  cases hpid : s.pid with
  | some pid =>
    simp only [Cloneboxd.recoverState, State.getPid, hpid]
    refine ⟨⟨rfl, name, s, rfl, hpid⟩, fun alive => ?_⟩
    cases alive with
    | false => exact ⟨_, .checked name s false, rfl, by simp [Scan.entry, recoveredState, hpid], rfl⟩
    | true => exact ⟨_, .checked name s true, rfl, by simp [Scan.entry, recoveredState, hpid], rfl⟩
  | none =>
    simp only [Cloneboxd.recoverState, State.getPid, hpid]
    split
    · exact ⟨_, .found name s, rfl, by simp [Scan.entry, recoveredState, *], rfl⟩
    · exact ⟨_, .found name s, rfl, by simp [Scan.entry, recoveredState, *], rfl⟩

theorem recoverItem_obeys {entry : DirEntry} {rest : List String} (hstage : g.stage = .scanning)
    (hscan : g.scan = .idle) (htodo : g.todo = entry.named.toList ++ rest) :
    (Cloneboxd.recoverItem entry).Obeys bootProto
      (fun g' r => r = .ok () ∧ g' = { g with todo := rest }) g := by
  obtain ⟨stage, hold, todo, scan⟩ := g
  dsimp only at hstage hscan htodo
  subst hstage hscan htodo
  rcases entry with e | ⟨e | isDir, fileName⟩
  · exact ⟨rfl, rfl⟩
  · exact ⟨rfl, rfl⟩
  cases isDir with
  | false => exact ⟨rfl, rfl⟩
  | true =>
    cases fileName with
    | none => exact ⟨rfl, rfl⟩
    | some fileName =>
      refine ⟨⟨rfl, rfl, fileName, rfl, rfl⟩, fun x => ?_⟩
      rcases x with e | (s | config | text)
      · exact ⟨rfl, rfl⟩
      · change Prog.Obeys bootProto _ _ ((Cloneboxd.recoverState s).bind _)
        refine obeys_bind.mpr ((recoverState_obeys rfl rfl).mono fun g' r h => ?_)
        obtain ⟨s', scan, rfl, hentry, rfl⟩ := h
        exact ⟨⟨rfl, hentry⟩, fun _ => ⟨rfl, rfl⟩⟩
      · exact ⟨rfl, rfl⟩
      · exact ⟨rfl, rfl⟩

theorem recoverItems_obeys {items : List DirEntry} (hstage : g.stage = .scanning)
    (hscan : g.scan = .idle) (htodo : g.todo = items.filterMap DirEntry.named) :
    (Cloneboxd.recoverItems items).Obeys bootProto
      (fun g' r => r = .ok () ∧ g' = { g with todo := [] }) g := by
  induction items generalizing g with
  | nil =>
    obtain ⟨stage, hold, todo, scan⟩ := g
    dsimp only at htodo
    subst htodo
    exact ⟨rfl, rfl⟩
  | cons entry items ih =>
    have htodo : g.todo = entry.named.toList ++ items.filterMap DirEntry.named := by
      rw [htodo, List.filterMap_cons]
      cases entry.named <;> rfl
    refine obeys_bind.mpr ((recoverItem_obeys hstage hscan htodo).mono fun g' r h => ?_)
    obtain ⟨rfl, rfl⟩ := h
    exact ih (g := { g with todo := items.filterMap DirEntry.named }) hstage hscan rfl

/-- A socket is bound after its file was removed, or a panic ends the daemon. -/
theorem getListenSk_obeys {path : String} (h : path = Cloneboxd.clientSocket ∧ g.stage = .loading ∨
    path = getEventSocketPath ∧ g.Scanned) :
    (Cloneboxd.getListenSk path).Obeys bootProto (fun g' r => r = .ok () ∧ g' = { g with
      hold := Function.update g.hold path .held
      stage := if path = getEventSocketPath then .serving else g.stage }) g := by
  have hlive : g.stage ≠ .ended := by
    rcases h with ⟨-, h⟩ | ⟨-, h⟩
    · rw [h]; decide
    · rw [h.stage]; decide
  refine ⟨h.imp_right .inl, fun r => ⟨⟨?_, ?_⟩, fun x => ?_⟩⟩
  · by_cases hr : r = .ok () ∨ r = .error .enoent
    · exact .inl (by simp [hr])
    · exact .inr (by simp [hr])
  · exact h.imp_right fun h => ⟨h.1, h.2.stage, h.2.todo, h.2.scan⟩
  · cases x with
    | ok _ => exact ⟨rfl, by simp⟩
    | error e => exact ⟨hlive, fun _ => rfl⟩

theorem main_obeys : Cloneboxd.main.Obeys bootProto (fun g _ => g.stage ≠ .ended) .init := by
  have hne : Cloneboxd.clientSocket ≠ getEventSocketPath := by decide
  -- each `?` before the first socket ends `main` in the phase it is in
  simp [Cloneboxd.main, Cloneboxd.orFail, Except.mapError, BootPhase.init]
  refine (getListenSk_obeys (.inl ⟨rfl, rfl⟩)).mono fun g' r h => ?_
  obtain ⟨rfl, rfl⟩ := h
  simp [Except.mapError, Cloneboxd.recover, Cloneboxd.orFail, hne]
  intro listing
  refine (recoverItems_obeys rfl rfl rfl).mono fun g' r h => ?_
  obtain ⟨rfl, rfl⟩ := h
  refine obeys_bind.mpr ((getListenSk_obeys (.inr ⟨rfl, rfl, rfl, rfl⟩)).mono fun g' r h => ?_)
  obtain ⟨rfl, rfl⟩ := h
  simp [Cloneboxd.gracefulShutdown, hne, BootPhase.listens_iff]

/-- A daemon ends by an exit or a panic, and not otherwise. -/
theorem process_obeys : Cloneboxd.process.Obeys bootProto (fun _ _ => False) .init := by
  refine obeys_bind.mpr (obeys_attempt.mpr (main_obeys.mono fun g r h => ?_))
  cases r with
  | ok _ => exact ⟨h, fun _ => rfl⟩
  | error e => exact ⟨h, fun _ => rfl⟩

end

def bootContract : Machine.Contract Boot String Unit Unit BootPhase :=
  ⟨fun _ => bootProto, fun _ => .init, fun _ _ _ => False⟩

/-! ### One daemon at a time -/

/-- The process of the daemon is there. -/
def Alive (th : HostThread) : Prop := th.stopped = false ∧ ∃ op k, th.prog = .call op k

instance {th : HostThread} : Decidable (Alive th) :=
  match h : th.prog with
  | .call op k => decidable_of_iff (th.stopped = false) ⟨fun hst => ⟨hst, op, k, h⟩, And.left⟩
  | .ret _ | .fail _ | .halt => isFalse fun ⟨_, _, _, e⟩ => nomatch h.symm.trans e

/-- A daemon is started when no other is there. -/
def OneAtATime (c : HostConf) : HostAction → Prop
  | .invoke _ => ∀ th ∈ c.threads, ¬Alive th
  | _ => True

instance {c : HostConf} {a : HostAction} : Decidable (OneAtATime c a) :=
  match a with
  | .invoke _ => inferInstanceAs (Decidable (∀ th ∈ c.threads, ¬Alive th))
  | .call _ _ | .env _ | .crash _ => isTrue trivial

/-- The daemon that is there, and how far it has come. -/
def Present (c : HostConf) : Option (Nat × BootPhase) → Prop
  | none => ∀ th ∈ c.threads, ¬Alive th
  | some (i, g) => ∃ th, c.threads[i]? = some th ∧ Alive th ∧ bootContract.phase th = g ∧
      ∀ (j : Nat) th', c.threads[j]? = some th' → Alive th' → j = i

/-- What a step makes of the host and of the daemon that is there. -/
inductive HostChange (c : HostConf) (a : HostAction) :
    Option (Nat × BootPhase) → Host → Option (Nat × BootPhase) → Prop
  | call {i : Nat} {g : BootPhase} {op : MainOp} {ch : BootChoice} {r : op.Ret} {h : Host} (hmay : g.may op)
    (he : hosts.event c a = some (i, ⟨op, r⟩)) (hx : c.world.exec i op ch = some (r, h))
    (hlive : (g.next op r).stage ≠ .ended) : HostChange c a (some (i, g)) h (some (i, g.next op r))
  | ended {i : Nat} {g : BootPhase} : HostChange c a (some (i, g)) (c.world.finish i) none
  | launched {i : Nat} : HostChange c a none c.world (some (i, .init))
  | rest {d : Option (Nat × BootPhase)} {b : SysAction} {s : SysConf} (ha : a = .env b)
    (hb : c.world.allows b = true) (hs : system.step c.world.sys b = some s) :
    HostChange c a d { c.world with sys := s } d
  /-- What is left of a daemon that has ended before is cleared away again. -/
  | late {d : Option (Nat × BootPhase)} {t : Nat} (ht : ∀ x ∈ d, x.1 ≠ t) :
    HostChange c a d (c.world.finish t) d

variable {c c' : HostConf} {a : HostAction} {d : Option (Nat × BootPhase)} {i j : Nat} {th : HostThread}

theorem alive_iff (h : bootContract.Conforms th) :
    Alive th ↔ th.stopped = false ∧ (bootContract.phase th).stage ≠ .ended := by
  refine and_congr_right fun _ => ⟨fun hcall => ?_, fun hlive => ?_⟩
  · obtain ⟨op, k, hp⟩ := hcall
    exact BootPhase.live_of_may (h.may hp)
  · have hrest := h.rest
    generalize th.prog = p at hrest
    cases p with
    | call op k => exact ⟨op, k, rfl⟩
    | ret | fail => exact hrest.elim
    | halt => exact (hlive hrest).elim

theorem Present.eq (h : Present c d) (hi : c.threads[i]? = some th) (hth : Alive th) :
    d = some (i, bootContract.phase th) := by
  rcases d with _ | ⟨j, g⟩
  · exact (h th (List.mem_of_getElem? hi) hth).elim
  · obtain ⟨th', hj, -, rfl, honly⟩ := h
    obtain rfl := honly i th hi hth
    cases hi.symm.trans hj
    rfl

theorem Present.only {th' : HostThread} (h : Present c d) (hi : c.threads[i]? = some th)
    (hth : Alive th) (hj : c.threads[j]? = some th') (hth' : Alive th') : j = i :=
  (Prod.mk.inj (Option.some.inj ((h.eq hj hth').symm.trans (h.eq hi hth)))).1

theorem not_alive_stop : ¬Alive th.stop := by
  intro h
  cases h.1

theorem getElem?_set_some {th th' : HostThread} {l : List HostThread}
    (h : (l.set i th)[j]? = some th') :
    j = i ∧ th' = th ∨ j ≠ i ∧ l[j]? = some th' := by
  rw [List.getElem?_set] at h
  split at h
  · rename_i he
    split at h
    · cases h
      exact .inl ⟨he.symm, rfl⟩
    · cases h
  · rename_i hne
    exact .inr ⟨fun he => hne he.symm, h⟩

/-- The daemon that is there is at another call, or it has come to its end. -/
theorem Present.set {th' : HostThread} {w : Host} {g : BootPhase} (h : Present c d)
    (hi : c.threads[i]? = some th) (hth : Alive th) :
    (Alive th' → bootContract.phase th' = g → Present ⟨w, c.threads.set i th'⟩ (some (i, g))) ∧
      (¬Alive th' → Present ⟨w, c.threads.set i th'⟩ none) := by
  have hlen : i < c.threads.length := (List.getElem?_eq_some_iff.mp hi).1
  refine ⟨fun hth' hg => ⟨th', List.getElem?_set_self hlen, hth', hg, ?_⟩, ?_⟩
  · intro j th'' hj hth''
    rcases getElem?_set_some hj with ⟨he, -⟩ | ⟨-, hj⟩
    · exact he
    · exact h.only hi hth hj hth''
  · intro hth' th'' hmem
    obtain ⟨j, hj⟩ := List.mem_iff_getElem?.mp hmem
    rcases getElem?_set_some hj with ⟨-, rfl⟩ | ⟨hne, hj⟩
    · exact hth'
    · exact fun hth'' => hne (h.only hi hth hj hth'')

/-- A thread that is not there any more is ended once more. -/
theorem Present.set_dead {th' : HostThread} {w : Host} (h : Present c d) (hi : c.threads[i]? = some th)
    (hth : ¬Alive th) (hth' : ¬Alive th') :
    Present ⟨w, c.threads.set i th'⟩ d ∧ ∀ x ∈ d, x.1 ≠ i := by
  rcases d with _ | ⟨k, g⟩
  · refine ⟨fun th'' hmem => ?_, fun x hx => by cases hx⟩
    obtain ⟨j, hj⟩ := List.mem_iff_getElem?.mp hmem
    rcases getElem?_set_some hj with ⟨-, rfl⟩ | ⟨-, hj⟩
    · exact hth'
    · exact h th'' (List.mem_of_getElem? hj)
  · obtain ⟨th₀, hk, hth₀, hg, honly⟩ := h
    have hne : k ≠ i := by
      intro he
      subst he
      cases hi.symm.trans hk
      exact hth hth₀
    refine ⟨⟨th₀, by rw [← hk]; exact List.getElem?_set_ne (Ne.symm hne), hth₀, hg, ?_⟩, ?_⟩
    · intro j th'' hj hth''
      rcases getElem?_set_some hj with ⟨-, rfl⟩ | ⟨-, hj⟩
      · exact (hth' hth'').elim
      · exact honly j th'' hj hth''
    · intro x hx
      cases hx
      exact hne

theorem BootPhase.ends {g : BootPhase} {op : MainOp} {r : op.Ret} {h h' : Host} {ch : BootChoice}
    (hmay : g.may op) (hend : (g.next op r).stage = .ended) (hx : h.exec i op ch = some (r, h')) :
    h' = h.finish i := by
  have hlive := BootPhase.live_of_may hmay
  cases op with
  | exit | panic =>
    cases ch with
    | run l => exact (Prod.mk.inj (Option.some.inj hx)).2.symm
    | err e => cases hx
  | bind path =>
    exfalso
    cases r with
    | ok _ =>
      simp only [next] at hend
      split at hend
      · cases hend
      · exact hlive hend
    | error e => exact hlive hend
  | readDir p =>
    exfalso
    cases r with
    | ok _ => cases hend
    | error e => exact hlive hend
  | readToString p =>
    exfalso
    rcases r with e | (s | config | t)
    all_goals exact hlive hend
  | shutdown =>
    exfalso
    cases r with
    | ok _ => cases hend
    | error e => exact hlive hend
  | new => cases hend
  | _ => exact (hlive hend).elim

/-- What a step does, seen from the daemon that is there. -/
theorem host_change (hc : ∀ (i : Nat) th, c.threads[i]? = some th → bootContract.Conforms th)
    (hd : Present c d) (hok : OneAtATime c a) (hs : hosts.step c a = some c') :
    ∃ d', Present c' d' ∧ HostChange c a d c'.world d' := by
  cases a with
  | call t ch =>
    obtain ⟨th, op, k, r, w, ht, hst, hp, hx, rfl⟩ := Machine.step_call hs
    have hth : Alive th := ⟨hst, op, k, hp⟩
    have hmay : (bootContract.phase th).may op := (hc t th ht).may hp
    have hphase : bootContract.phase (th.answer op k r) = (bootContract.phase th).next op r :=
      Machine.Contract.phase_answer
    have hconf : bootContract.Conforms (th.answer op k r) := (hc t th ht).answer hp
    have hborn : hosts.born t th op k r = [] := rfl
    rw [hborn, List.append_nil]
    obtain rfl := hd.eq ht hth
    by_cases hlive : ((bootContract.phase th).next op r).stage = .ended
    · have hdead : ¬Alive (th.answer op k r) := by
        rw [alive_iff hconf, hphase]
        exact fun h => h.2 hlive
      obtain rfl := BootPhase.ends hmay hlive hx
      exact ⟨none, (hd.set (g := bootContract.phase th) ht hth).2 hdead, .ended⟩
    · have halive : Alive (th.answer op k r) := by
        rw [alive_iff hconf, hphase]
        exact ⟨hst, hlive⟩
      exact ⟨_, (hd.set ht hth).1 halive hphase, .call hmay (Machine.event_of_exec ht hst hp hx) hx hlive⟩
  | invoke m =>
    obtain ⟨-, rfl⟩ := Machine.step_invoke hs
    have hnone : ∀ th ∈ c.threads, ¬Alive th := hok
    obtain rfl : d = none := by
      rcases d with _ | ⟨i, g⟩
      · rfl
      · obtain ⟨th, hi, hth, -⟩ := hd
        exact (hnone th (List.mem_of_getElem? hi) hth).elim
    refine ⟨some (c.threads.length, .init), ⟨.start hosts.prog none m, ?_, ?_, rfl, ?_⟩, .launched⟩
    · simp
    · exact ⟨rfl, _, _, rfl⟩
    · intro j th hj hth
      rw [List.getElem?_append] at hj
      split at hj
      · exact (hnone th (List.mem_of_getElem? hj) hth).elim
      · rename_i hge
        have hlt := (List.getElem?_eq_some_iff.mp hj).1
        simp at hlt
        omega
  | env b =>
    obtain ⟨w, hw, rfl⟩ := Machine.step_env hs
    have hsame : (c.threads.map fun th => if hosts.halts b th.main then th.stop else th) = c.threads :=
      List.map_id _
    rw [hsame]
    change c.world.env b = some w at hw
    unfold Host.env at hw
    split at hw
    · rename_i hb
      obtain ⟨s, hs', rfl⟩ := Option.map_eq_some_iff.mp hw
      refine ⟨d, ?_, .rest rfl hb hs'⟩
      cases d <;> exact hd
    · cases hw
  | crash t =>
    obtain ⟨th, ht, rfl⟩ := Machine.step_crash hs
    by_cases hth : Alive th
    · obtain rfl := hd.eq ht hth
      exact ⟨none, (hd.set (g := bootContract.phase th) ht hth).2 not_alive_stop, .ended⟩
    · obtain ⟨hd', hne⟩ := hd.set_dead (w := hosts.crash c.world t) ht hth not_alive_stop
      exact ⟨d, hd', .late hne⟩

end Clonebox
