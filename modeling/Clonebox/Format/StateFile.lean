import Clonebox.Format.State
import Clonebox.Lifecycle.TornState

/-! # The bytes of `state.json` while it is written

A reader that comes in between finds the old state, the new one, or no state. So it does when
several writers overlap, each of which opens the file and then writes its text in one call. As
before, `ser` and `de` are what `serde_json` makes of a state and of a text. -/

namespace Clonebox
open Conc

section
variable {closing : UInt8} {ser : State → List UInt8} {de : List UInt8 → Option State}
  (H : Codec.Laws closing State.Typed ser de)
include H

end

theorem runningState_typed : runningState.Typed where
  pid := by
    intro p hp
    cases hp
    rfl
  annotations := by
    intro l hl
    cases hl

theorem runningState_paused : runningState.setPaused.Typed :=
  ⟨runningState_typed.pid, runningState_typed.annotations⟩

theorem runningState_stopped : runningState.setStopped.Typed where
  pid := by
    intro p hp
    cases hp
  annotations := runningState_typed.annotations

/-- The first 40 bytes of `stopped` have been written over `running`. -/
def tornText : List UInt8 := runningState.setStopped.toBytes.take 40

def tornHost : World :=
  { sampleHost with bundle := fun _ => some ⟨some (asContent State.ofBytes tornText), .absent⟩ }

/-- What the actions of several writers leave of a state file. -/
def written (ser : State → List UInt8) (s₀ : State) (acts : List (Overlay.Act State)) : List UInt8 :=
  Overlay.run ser (ser s₀) acts

/-- A host on which `paused` was written over `running`, by writers that had both opened the file
before. -/
def overwrittenHost : World :=
  { sampleHost with bundle := fun _ => some ⟨some (asContent State.ofBytes (written State.toBytes
      runningState ([.empty, .empty] ++ [.write runningState, .write runningState.setPaused]))), .absent⟩ }

end Clonebox
