import Clonebox.Lib.Overwrite
import Clonebox.System.Run

/-! # What is in `state.json` while it is written

`write_state_file` opens the file with truncation and then writes the text of the new state. Here a
state file holds bytes: `ser` is the text that a state is written as, and `de` what is read back
from a text. -/

namespace Clonebox
open Conc

variable {id : String} {w : World}

/-- What a state file with these bytes is to a reader. -/
def asContent (de : List UInt8 → Option State) (bytes : List UInt8) : Content :=
  match de bytes with
  | some s => .state s
  | none => .text (String.ofList (bytes.map fun b => Char.ofNat b.toNat))

/-- The operations that read the state file first. -/
def readers (id : String) : List Main :=
  [.turn .start id, .turn .pause id, .turn .resume id, .kill id, .delete id false, .state id]

/-- A program run by itself, as thread `t`. -/
def World.alone (w : World) (t : Nat) (p : Prog Sys Fault Reply) :
    Option (Except Fault Reply × World) :=
  p.alone (fun w op => w.exec t op (.run 0)) w

/-- Whenever another process looks, the file holds the complete text of one of the two states. -/
def AtomicWrite (ser : State → List UInt8) (old new : State) : Prop :=
  ∀ bytes, Overwrite.Seen (ser old) (ser new) bytes → bytes = ser old ∨ bytes = ser new

/-- A reader that finds something other than a state fails, and has done nothing. -/
theorem reader_fails {m : Main} (hm : m ∈ readers id) {t : Nat} {text : String}
    (h : w.content id = some (.text text)) :
    w.alone t m.prog = some (.error (.core (.stateError .json)), w) := by
  have hread : w.exec t (.read (stateJson id)) (.run 0) = some (.ok (.text text), w) := by
    simp [World.exec, World.run, World.readFile, h]
  have hfails (k : Io Content → Prog Sys Fault Reply)
      (hk : k (.ok (.text text)) = .fail (.core (.stateError .json))) :
      w.alone t (.call (.read (stateJson id)) k) =
        some (.error (.core (.stateError .json)), w) := by
    simp only [World.alone, Prog.alone, hread]
    rw [hk]
    rfl
  simp only [readers, List.mem_cons, List.not_mem_nil, or_false] at hm
  rcases hm with rfl | rfl | rfl | rfl | rfl | rfl
  · exact hfails _ rfl
  · exact hfails _ rfl
  · exact hfails _ rfl
  · exact hfails _ rfl
  · exact hfails _ rfl
  · exact hfails _ rfl

/-- A container whose file holds something else is not recovered. -/
theorem recover_drops {text : String} {d : Daemon} (h : w.content id = some (.text text)) :
    d.recover w.hasPid [(id, w.file id)] = d := by
  have hfile : w.file id = none := by
    cases hb : w.bundle id with
    | none => simp [World.file, hb]
    | some b =>
      have hstate : b.state = some (.text text) := by simpa [World.content, hb] using h
      simp [World.file, hb, Bundle.file, hstate]
  rw [hfile]
  rfl

/-- Whatever state is written over whatever state: between the two a process that looks finds
neither. An operation that reads the file then fails with `StateError::Json`, and recovery skips the
container. -/
theorem state_torn {ser : State → List UInt8} {de : List UInt8 → Option State} {old new : State}
    (hold : de (ser old) = some old) (hnew : de (ser new) = some new) (hempty : de [] = none) :
    ¬AtomicWrite ser old new ∧ ∃ bytes, Overwrite.Seen (ser old) (ser new) bytes ∧
      ∀ (w : World) id, w.content id = some (asContent de bytes) →
        (∀ m ∈ readers id, ∀ t,
          w.alone t m.prog = some (.error (.core (.stateError .json)), w)) ∧
        ∀ d : Daemon, d.recover w.hasPid [(id, w.file id)] = d := by
  refine ⟨fun h => ?_, [], Overwrite.seen_nil, fun w id hw => ?_⟩
  · rcases Overwrite.nil_of_atomic h with e | e
    · simp [e, hempty] at hold
    · simp [e, hempty] at hnew
  · simp only [asContent, hempty] at hw
    exact ⟨fun m hm t => reader_fails hm hw, fun d => recover_drops hw⟩

/-- A container that runs, and the same when it has stopped. -/
def runningState : State := ⟨"1.0.1", "c", .running, some 7, "/run/clonebox/c", none⟩

/-- The text of such a state. -/
def sampleText (s : State) : List UInt8 :=
  let status := if s.status = .running then "running" else "stopped"
  let pid := (s.pid.map toString).getD "null"
  ("\x7b\"ociVersion\":\"1.0.1\",\"id\":\"c\",\"status\":\"" ++ status ++ "\",\"pid\":" ++ pid ++
    ",\"bundle\":\"/run/clonebox/c\",\"annotations\":null\x7d").toList.map
      fun ch => UInt8.ofNat ch.toNat

def sampleParse (bytes : List UInt8) : Option State :=
  if bytes = sampleText runningState then some runningState
  else if bytes = sampleText runningState.setStopped then some runningState.setStopped
  else none

theorem state_torn_sample :
    ¬AtomicWrite sampleText runningState runningState.setStopped ∧
    ∃ bytes, Overwrite.Seen (sampleText runningState) (sampleText runningState.setStopped) bytes ∧
      ∀ (w : World) id, w.content id = some (asContent sampleParse bytes) →
        (∀ m ∈ readers id, ∀ t,
          w.alone t m.prog = some (.error (.core (.stateError .json)), w)) ∧
        ∀ d : Daemon, d.recover w.hasPid [(id, w.file id)] = d :=
  state_torn (by decide +kernel) (by decide +kernel) (by decide +kernel)

/-- While `stopped` is written over `running`, the file is empty. -/
theorem state_empty :
    Overwrite.Seen (sampleText runningState) (sampleText runningState.setStopped) [] ∧
    sampleParse [] = none ∧ ¬AtomicWrite sampleText runningState runningState.setStopped := by
  have h : sampleParse [] = none ∧ [] ≠ sampleText runningState ∧
      [] ≠ sampleText runningState.setStopped := by
    decide +kernel
  obtain ⟨hparse, hold, hnew⟩ := h
  refine ⟨Overwrite.seen_nil, hparse, fun hatomic => ?_⟩
  rcases hatomic [] Overwrite.seen_nil with e | e
  · exact hold e
  · exact hnew e

end Clonebox
