import Clonebox.Core.Sys

/-! # The state file, the log and the event socket

The functions of `state.rs`, `logger.rs` and `event.rs` that talk to the kernel. -/

namespace Clonebox
open Conc

/-! ### `state.rs` -/

def writeStateFile (containerId : String) (state : State) : Core Unit :=
  mapErr (sys (.write (.inBundle containerId .stateJson) (.state state))) fun e =>
    ↑(StateError.io e)

def readStateFile (containerId : String) : Core State := do
  match ← sys (.read (.inBundle containerId .stateJson)) with
  | .ok (.state s) => pure s
  | .ok _ => .fail ↑StateError.json
  | .error e =>
    if e.code = Errno.enoent.code then .fail (.containerNotFound containerId)
    else .fail ↑(StateError.io e)

/-- The only call of `read_state_file`. -/
theorem readStateFile_all {φ : Op → Prop} {containerId : String}
    (hread : φ (.read (.inBundle containerId .stateJson))) :
    Prog.Calls (S := Sys) φ (readStateFile containerId) := by
  refine Prog.Calls.bind ⟨hread, fun _ => trivial⟩ fun r => ?_
  rcases r with e | (s | c | t)
  · by_cases h : e.code = Errno.enoent.code <;> simp [h]
  all_goals trivial

def updateState (containerId : String) (f : State → State) : Core State := do
  let state ← readStateFile containerId
  writeStateFile containerId (f state)
  pure (f state)

/-! ### `logger.rs` -/

def openLogFile (containerId : String) : Core Unit :=
  mapErr (sys (.openFile (.inBundle containerId .containerLog))) fun e => ↑(LogError.io e)

def writeLogFile (containerId : String) (message : String) : Core Unit :=
  mapErr (sys (.append (.inBundle containerId .containerLog) message)) fun e => ↑(LogError.io e)

/-! ### `event.rs` -/

def Event.getStreamSk (path : String) : Core Unit :=
  mapErr (sys (.connectEvent path)) fun e => ↑(EventError.connectFailure e path)

def Event.sendEvent (event : Event) (path : String) : Core Unit := do
  Event.getStreamSk path
  mapErr (sys (.writeEvent path event)) fun e => ↑(EventError.writeFailure e)

end Clonebox
