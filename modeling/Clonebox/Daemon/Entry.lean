import Mathlib.Data.List.AList
import Clonebox.Core.Error

/-! # The daemon's map of containers

`entry.rs`, the processing of events (`event.rs`), crash recovery (`recovery.rs`) and the errors a
client sees (`convert.rs`). A oneshot channel is named by the request that holds its receiver, and
what has been sent through it is kept beside the map. -/

namespace Clonebox

/-- What the tasks of the daemon share. -/
structure Daemon where
  containers : AList fun _ : String => ContainerEntry
  /-- The `created` channels through which `()` was sent. -/
  created : Nat → Bool
  /-- The exit code sent through each `exit` channel. -/
  exits : Nat → Option Int

namespace Daemon

def new : Daemon := ⟨∅, fun _ => false, fun _ => none⟩

def entry (d : Daemon) (id : String) : Option ContainerEntry := d.containers.lookup id

/-- Overwrite the entry of a container. -/
def set (d : Daemon) (id : String) (e : ContainerEntry) : Daemon :=
  { d with containers := d.containers.insert id e }

/-- `if let Some(entry) = containers.get_mut(id) { .. }` -/
def modify (d : Daemon) (id : String) (f : ContainerEntry → ContainerEntry) : Daemon :=
  match d.entry id with
  | some e => d.set id (f e)
  | none => d

/-- `containers.entry(id).or_insert(e)` -/
def orInsert (d : Daemon) (id : String) (e : ContainerEntry) : Daemon :=
  match d.entry id with
  | some _ => d
  | none => d.set id e

/-- The removal at the end of the `delete` handler. -/
def removeStopped (d : Daemon) (id : String) : Daemon :=
  match d.entry id with
  | some e => if e.state = .stopped then { d with containers := d.containers.erase id } else d
  | none => d

section
variable (d : Daemon) (id id' : String) (e : ContainerEntry) (f : ContainerEntry → ContainerEntry)

@[simp] theorem entry_new : new.entry id = none := by simp [entry, new]

@[simp] theorem entry_set : (d.set id e).entry id = some e := by simp [entry, set]

theorem entry_set_ne (h : id' ≠ id) : (d.set id e).entry id' = d.entry id' := by
  simp [entry, set, AList.lookup_insert_ne h]

@[simp] theorem entry_modify : (d.modify id f).entry id = (d.entry id).map f := by
  unfold modify; split <;> simp [*]

theorem entry_modify_ne (h : id' ≠ id) : (d.modify id f).entry id' = d.entry id' := by
  unfold modify; split <;> simp [entry_set_ne _ _ _ _ h]

@[simp] theorem entry_orInsert : (d.orInsert id e).entry id = some ((d.entry id).getD e) := by
  unfold orInsert; split <;> simp [*]

theorem orInsert_of_entry {e' : ContainerEntry} (h : d.entry id = some e') :
    d.orInsert id e = d := by
  simp [orInsert, h]

theorem entry_orInsert_ne (h : id' ≠ id) : (d.orInsert id e).entry id' = d.entry id' := by
  unfold orInsert; split <;> simp [entry_set_ne _ _ _ _ h]

@[simp] theorem entry_removeStopped :
    (d.removeStopped id).entry id = (d.entry id).filter fun e => e.state ≠ .stopped := by
  unfold removeStopped
  split
  · split <;> simp_all [entry, Option.filter]
  · simp_all

theorem entry_removeStopped_ne (h : id' ≠ id) :
    (d.removeStopped id).entry id' = d.entry id' := by
  unfold removeStopped
  split
  · split <;> simp [entry, AList.lookup_erase_ne h]
  · rfl

@[simp] theorem set_created : (d.set id e).created = d.created := rfl
@[simp] theorem set_exits : (d.set id e).exits = d.exits := rfl

@[simp] theorem modify_created : (d.modify id f).created = d.created := by
  unfold modify; split <;> rfl
@[simp] theorem modify_exits : (d.modify id f).exits = d.exits := by
  unfold modify; split <;> rfl
@[simp] theorem orInsert_created : (d.orInsert id e).created = d.created := by
  unfold orInsert; split <;> rfl
@[simp] theorem orInsert_exits : (d.orInsert id e).exits = d.exits := by
  unfold orInsert; split <;> rfl
@[simp] theorem removeStopped_created : (d.removeStopped id).created = d.created := by
  unfold removeStopped; split <;> try rfl
  split <;> rfl
@[simp] theorem removeStopped_exits : (d.removeStopped id).exits = d.exits := by
  unfold removeStopped; split <;> try rfl
  split <;> rfl

end

/-! ### `update_status` -/

/-- `tx.send(())` -/
def sendCreated (d : Daemon) (tx : Nat) : Daemon :=
  { d with created := Function.update d.created tx true }

/-- `tx.send(code)` on each of the waiters. -/
def sendExit (d : Daemon) (code : Int) : List Nat → Daemon
  | [] => d
  | tx :: txs => sendExit { d with exits := Function.update d.exits tx (some code) } code txs

/-- `if entry.state != Creating && let Some(tx) = entry.created_waiter.take()` -/
def takeCreated (entry : ContainerEntry) (d : Daemon) : ContainerEntry × Daemon :=
  match entry.createdWaiter with
  | some tx =>
    if entry.state ≠ .creating then ({ entry with createdWaiter := none }, d.sendCreated tx)
    else (entry, d)
  | none => (entry, d)

/-- `if entry.state == Stopped { for tx in take(&mut entry.exit_waiter) { .. } }` -/
def takeExits (event : Event) (entry : ContainerEntry) (d : Daemon) : ContainerEntry × Daemon :=
  if entry.state = .stopped then
    ({ entry with exitWaiter := [] }, d.sendExit (event.exitCode.getD 0) entry.exitWaiter)
  else (entry, d)

def updateStatus (event : Event) (d : Daemon) : Daemon :=
  match d.entry event.id with
  | none => d
  | some entry =>
    let (entry, d) := d.takeCreated { entry with state := event.state }
    let (entry, d) := d.takeExits event entry
    d.set event.id entry

end Daemon

/-- What processing an event makes of the container's entry. -/
def ContainerEntry.update (event : Event) (e : ContainerEntry) : ContainerEntry where
  state := event.state
  createdWaiter := if event.state = .creating then e.createdWaiter else none
  exitWaiter := if event.state = .stopped then [] else e.exitWaiter

namespace Daemon

variable (d : Daemon) (event : Event)

@[simp] theorem sendCreated_entry (tx : Nat) (id : String) :
    (d.sendCreated tx).entry id = d.entry id := rfl

@[simp] theorem sendExit_entry (code : Int) (txs : List Nat) (id : String) :
    (d.sendExit code txs).entry id = d.entry id := by
  induction txs generalizing d with
  | nil => rfl
  | cons tx txs ih => exact ih _

@[simp] theorem sendExit_created (code : Int) (txs : List Nat) :
    (d.sendExit code txs).created = d.created := by
  induction txs generalizing d with
  | nil => rfl
  | cons tx txs ih => exact ih _

theorem sendExit_exits (code : Int) (txs : List Nat) (rx : Nat) :
    (d.sendExit code txs).exits rx = if rx ∈ txs then some code else d.exits rx := by
  induction txs generalizing d with
  | nil => rfl
  | cons tx txs ih =>
    rw [sendExit, ih]
    by_cases h : rx = tx
    · simp [h]
    · simp [h]

section
variable (entry : ContainerEntry)

theorem takeCreated_fst : (d.takeCreated entry).1 = { entry with
    createdWaiter := if entry.state = .creating then entry.createdWaiter else none } := by
  obtain ⟨st, cw, ew⟩ := entry
  cases cw <;> by_cases h : st = .creating <;> simp [takeCreated, h]

@[simp] theorem takeCreated_entry (id : String) :
    (d.takeCreated entry).2.entry id = d.entry id := by
  unfold takeCreated
  split <;> try rfl
  split <;> rfl

@[simp] theorem takeCreated_exits : (d.takeCreated entry).2.exits = d.exits := by
  unfold takeCreated
  split <;> try rfl
  split <;> rfl

theorem takeCreated_created (rx : Nat) : (d.takeCreated entry).2.created rx = true ↔
    d.created rx = true ∨ entry.state ≠ .creating ∧ entry.createdWaiter = some rx := by
  obtain ⟨st, cw, ew⟩ := entry
  cases cw with
  | none => simp [takeCreated]
  | some tx =>
    by_cases h : st = .creating
    · simp [takeCreated, h]
    · by_cases hr : rx = tx
      · simp [takeCreated, h, hr, sendCreated]
      · simp [takeCreated, h, hr, sendCreated, Ne.symm hr]

theorem takeExits_fst : (d.takeExits event entry).1 =
    { entry with exitWaiter := if entry.state = .stopped then [] else entry.exitWaiter } := by
  by_cases h : entry.state = .stopped <;> simp [takeExits, h]

@[simp] theorem takeExits_entry (id : String) :
    (d.takeExits event entry).2.entry id = d.entry id := by
  unfold takeExits
  split <;> simp

@[simp] theorem takeExits_created : (d.takeExits event entry).2.created = d.created := by
  unfold takeExits
  split <;> simp

theorem takeExits_exits (rx : Nat) : (d.takeExits event entry).2.exits rx =
    if entry.state = .stopped ∧ rx ∈ entry.exitWaiter then some (event.exitCode.getD 0)
    else d.exits rx := by
  by_cases h : entry.state = .stopped <;> simp [takeExits, h, sendExit_exits]

end

theorem updateStatus_of_entry {e : ContainerEntry} (h : d.entry event.id = some e) :
    d.updateStatus event =
      ((d.takeCreated { e with state := event.state }).2.takeExits event
        (d.takeCreated { e with state := event.state }).1).2.set event.id (e.update event) := by
  simp only [updateStatus, h, takeExits_fst, takeCreated_fst, ContainerEntry.update]

theorem updateStatus_of_none (h : d.entry event.id = none) : d.updateStatus event = d := by
  simp only [updateStatus, h]

@[simp] theorem updateStatus_entry :
    (d.updateStatus event).entry event.id = (d.entry event.id).map (·.update event) := by
  cases h : d.entry event.id with
  | none => simp [updateStatus_of_none d event h, h]
  | some e => simp [updateStatus_of_entry d event h]

theorem updateStatus_entry_ne {id : String} (hid : id ≠ event.id) :
    (d.updateStatus event).entry id = d.entry id := by
  cases h : d.entry event.id with
  | none => rw [updateStatus_of_none d event h]
  | some e => rw [updateStatus_of_entry d event h, entry_set_ne _ _ _ _ hid]; simp

/-- The created waiter is released by the first event that is not `creating`. -/
theorem updateStatus_created (rx : Nat) :
    (d.updateStatus event).created rx = true ↔ d.created rx = true ∨ event.state ≠ .creating ∧
      ∃ e, d.entry event.id = some e ∧ e.createdWaiter = some rx := by
  cases h : d.entry event.id with
  | none => simp [updateStatus_of_none d event h]
  | some e => simp [updateStatus_of_entry d event h, takeCreated_created]

/-- The exit waiters are released by a `stopped` event. -/
theorem updateStatus_exits (rx : Nat) : (d.updateStatus event).exits rx =
    if event.state = .stopped ∧ ∃ e, d.entry event.id = some e ∧ rx ∈ e.exitWaiter then
      some (event.exitCode.getD 0)
    else d.exits rx := by
  cases h : d.entry event.id with
  | none => simp [updateStatus_of_none d event h]
  | some e => simp [updateStatus_of_entry d event h, takeExits_exits, takeCreated_fst]

/-! ### `recover` -/

end Daemon

/-- The status `recover` enters for a state file. `alive` tells whether `/proc/<pid>` exists. -/
def recoveredState (alive : Int → Bool) (state : State) : State :=
  match state.getPid with
  | some pid => if alive pid then state else state.setState .stopped
  | none => if state.getState = .running then state.setState .stopped else state

/-- One directory of the application data and what `state.json` in it parses to, if it does. -/
def Daemon.recoverEntry (alive : Int → Bool) (fileName : String) (parsed : Option State)
    (d : Daemon) : Daemon :=
  match parsed with
  | none => d
  | some state => d.orInsert fileName ⟨(recoveredState alive state).getState, none, []⟩

def Daemon.recover (alive : Int → Bool) : List (String × Option State) → Daemon → Daemon
  | [], d => d
  | (fileName, parsed) :: dir, d => recover alive dir (d.recoverEntry alive fileName parsed)

/-- Every entry that recovery adds comes from a directory with a state file, and has no waiter. -/
theorem Daemon.recover_entry {alive : Int → Bool} {dir : List (String × Option State)}
    {d : Daemon} {id : String} {e : ContainerEntry}
    (h : (d.recover alive dir).entry id = some e) :
    d.entry id = some e ∨ ∃ s, (id, some s) ∈ dir ∧
      e = ⟨(recoveredState alive s).getState, none, []⟩ := by
  induction dir generalizing d with
  | nil => exact .inl h
  | cons x dir ih =>
    obtain ⟨fileName, parsed⟩ := x
    rcases ih h with h | ⟨s, hs, he⟩
    · cases parsed with
      | none => exact .inl h
      | some s =>
        simp only [recoverEntry] at h
        by_cases hid : id = fileName
        · subst hid
          rw [entry_orInsert] at h
          cases hd : d.entry id with
          | none =>
            rw [hd] at h
            exact .inr ⟨s, List.mem_cons_self, (Option.some.inj h).symm⟩
          | some e' => rw [hd] at h; exact .inl h
        · rw [entry_orInsert_ne _ _ _ _ hid] at h
          exact .inl h
    · exact .inr ⟨s, List.mem_cons_of_mem _ hs, he⟩

/-- Recovery adds entries and overwrites none. -/
theorem Daemon.recover_keeps {alive : Int → Bool} {dir : List (String × Option State)}
    {d : Daemon} {id : String} {e : ContainerEntry} (h : d.entry id = some e) :
    (d.recover alive dir).entry id = some e := by
  induction dir generalizing d with
  | nil => exact h
  | cons x dir ih =>
    obtain ⟨fileName, parsed⟩ := x
    refine ih ?_
    cases parsed with
    | none => exact h
    | some s =>
      by_cases hid : id = fileName
      · subst hid
        simp [recoverEntry, h]
      · rw [recoverEntry, entry_orInsert_ne _ _ _ _ hid, h]

@[simp] theorem Daemon.recover_created (alive : Int → Bool) (dir : List (String × Option State))
    (d : Daemon) : (d.recover alive dir).created = d.created := by
  induction dir generalizing d with
  | nil => rfl
  | cons x dir ih =>
    obtain ⟨fileName, parsed⟩ := x
    rw [recover, ih]
    cases parsed <;> simp [recoverEntry]

/-! ### `convert.rs` -/

/-- The codes of `tonic::Status` that the daemon replies with. -/
inductive Code where
  | alreadyExists
  | failedPrecondition
  | notFound
  | internal
  | unknown
  | unimplemented
  deriving DecidableEq

structure Status where
  code : Code
  message : String
  deriving DecidableEq

def toStatus : CoreError → Status
  | .containerAlreadyExists id => ⟨.alreadyExists, id ++ " already exists"⟩
  | .containerAlreadyStopped id => ⟨.failedPrecondition, id ++ " already stopped"⟩
  | .containerNotFound id => ⟨.notFound, id ++ " not found"⟩
  | .containerNotCreated id => ⟨.failedPrecondition, id ++ " not created"⟩
  | .containerNotRunning id => ⟨.failedPrecondition, id ++ " not running"⟩
  | .containerNotPaused id => ⟨.failedPrecondition, id ++ " not paused"⟩
  | .containerNotStopped id => ⟨.failedPrecondition, id ++ " not stopped"⟩
  | .cleanupFailure err id => ⟨.internal, "failed to clean " ++ id ++ " up: " ++ err.ioDisplay⟩
  | .configError err => ⟨.internal, "config error: " ++ err.display⟩
  | .stateError err => ⟨.internal, "state error: " ++ err.display⟩
  | .systemError err => ⟨.internal, "system error: " ++ err.display⟩
  | .other err => ⟨.unknown, "Other: " ++ err⟩

end Clonebox
