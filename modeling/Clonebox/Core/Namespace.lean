import Clonebox.Core.StateFile

/-! # The mounts of the cloned child (`namespace.rs`)

A failed call ends the child with `_exit(1)` (the macro `child_try`). -/

namespace Clonebox
open Conc

variable {ε α : Type}

def childTry (op : Prog Sys ε (Io Unit)) : Prog Sys ε Unit := do
  match ← op with
  | .ok () => pure ()
  | .error _ => exit 1

def makeChildPrivate : Core Unit :=
  childTry (sys (.mount none "/" none [.msPrivate, .msRec] none))

def setChildHostname (name : String) : Core Unit := childTry (sys (.sethostname name))

def mountChild (src : Option String) (dest : String) (mountType : Option String)
    (flags : List MsFlag) (data : Option String) : Core Unit :=
  childTry (sys (.mount src dest mountType flags data))

def Mount.isBind (m : Mount) : Bool := (m.options.map (·.contains "bind")).getD false

/-- Mount the new root: the first bind entry makes `new_root` itself the root, otherwise it is the
lower layer of an overlay in the bundle. -/
def prePivotMount (containerId newRoot : String) (mounts : List Mount) : Core String := do
  mountChild (some newRoot) newRoot none [.msBind] none
  match mounts.find? Mount.isBind with
  | some m => do
    mountChild m.source (newRoot ++ m.destination) m.mountType [.msBind]
      (m.options.map (String.intercalate ","))
    pure newRoot
  | none => do
    let upperDir := Path.inBundle containerId .upper
    let workDir := Path.inBundle containerId .work
    let merged := Path.inBundle containerId .merged
    childTry (sys (.createDirAll upperDir))
    childTry (sys (.createDirAll workDir))
    childTry (sys (.createDirAll merged))
    mountChild (some "overlay") merged.str (some "overlay") []
      (some ("lowerdir=" ++ newRoot ++ ",upperdir=" ++ upperDir.str ++ ",workdir=" ++ workDir.str))
    pure merged.str

def doPivotRoot (newRoot : String) : Core Unit := do
  let childOldPath := newRoot ++ "/put_old"
  childTry (sys (.createDirAll (.host childOldPath)))
  childTry (sys (.pivotRoot newRoot childOldPath))
  childTry (sys (.chdir "/"))
  childTry (sys (.umount2 "/put_old"))
  childTry (sys (.removeDir (.host "/put_old")))

def postPivotMount : List Mount → Core Unit
  | [] => pure ()
  | m :: mounts => do
    if m.mountType = some "tmpfs" then
      mountChild m.source m.destination m.mountType [] (m.options.map (String.intercalate ","))
    else
      pure ()
    postPivotMount mounts

def doDefaultMounts : Core Unit := do
  mountChild (some "proc") "/proc" (some "proc") [] none
  mountChild (some "sysfs") "/sys" (some "sysfs") [] none
  mountChild (some "devtmpfs") "/dev" (some "devtmpfs") [] none

end Clonebox
