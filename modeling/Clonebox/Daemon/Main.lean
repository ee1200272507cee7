import Clonebox.Daemon.Handlers

/-! # The daemon from its start to its end (`main.rs`)

`main` takes over the client socket, recovers the containers that are there, takes over the event
socket and serves. Before it binds a socket it removes the file that an earlier daemon may have
left. -/

namespace Clonebox
open Conc

/-- What `read_dir` yields: an error, or an entry with its type and its name, if that is UTF-8. -/
inductive DirEntry where
  | unreadable (e : Errno)
  | item (isDir : Io Bool) (fileName : Option String)
  deriving DecidableEq

/-- The calls of `main`. -/
inductive MainOp where
  | createDirAll (path : String)
  | setPermissions (path : String) (mode : Nat)
  /-- `Cloneboxd::new()` -/
  | new
  | removeFile (path : String)
  /-- `UnixListener::bind`, from which on the socket listens. -/
  | bind (path : String)
  | readDir (path : String)
  | readToString (p : Path)
  /-- Whether `/proc/<pid>` exists. -/
  | procExists (pid : Int)
  | orInsert (fileName : String) (entry : ContainerEntry)
  /-- The task that accepts on the event socket is spawned. -/
  | eventLoop
  /-- The server accepts on the client socket. -/
  | serve
  /-- The server ends: at ctrl-c, once all requests are answered, or with an error. -/
  | shutdown
  | exit (code : Nat)
  | panic
  deriving DecidableEq

@[reducible] def MainOp.Ret : MainOp → Type
  | .createDirAll _ | .setPermissions _ _ | .removeFile _ | .bind _ => Io Unit
  | .new | .orInsert _ _ | .eventLoop | .exit _ | .panic => Unit
  | .readDir _ => Io (List DirEntry)
  | .readToString _ => Io Content
  | .procExists _ => Bool
  | .serve | .shutdown => Io Unit

@[reducible] def Boot : Sig := ⟨MainOp, MainOp.Ret⟩

/-- A function of the daemon that fails with the text of an `anyhow::Error`. -/
abbrev Booting (α : Type) := Prog Boot String α

namespace Cloneboxd

abbrev ask (op : MainOp) : Booting op.Ret := .ask (S := Boot) op

/-- `?` on the answer of a call. -/
def orFail {α : Type} (f : Errno → String) (p : Booting (Io α)) : Booting α :=
  p.bind fun r => .ofExcept (r.mapError f)

/-- Whatever was at the path is removed, if it can be. The result of `bind` is unwrapped. -/
def getListenSk (path : String) : Booting Unit := do
  let _ ← ask (.removeFile path)
  match ← ask (.bind path) with
  | .ok () => pure ()
  | .error _ => .call .panic fun _ => .halt

/-- The status of a container whose file holds `state`. -/
def recoverState (state : State) : Booting State :=
  match state.getPid with
  | some pid => do
    if ← ask (.procExists pid) then pure state else pure (state.setState .stopped)
  | none =>
    if state.getState = .running then pure (state.setState .stopped) else pure state

/-- One round of the loop. Each pattern but the last is a `continue`. -/
def recoverItem : DirEntry → Booting Unit
  | .unreadable _ => pure ()
  | .item (.error _) _ => pure ()
  | .item (.ok false) _ => pure ()
  | .item (.ok true) none => pure ()
  | .item (.ok true) (some fileName) => do
    match ← ask (.readToString (.inBundle fileName .stateJson)) with
    | .ok (.state state) => do
      let state ← recoverState state
      ask (.orInsert fileName ⟨state.getState, none, []⟩)
    | _ => pure ()

def recoverItems : List DirEntry → Booting Unit
  | [] => pure ()
  | entry :: dirContent => do
    recoverItem entry
    recoverItems dirContent

def recover (appData : String) : Booting Unit := do
  let dirContent ← orFail Errno.ioDisplay (ask (.readDir appData))
  recoverItems dirContent

def appDataPath : String := "/run/clonebox"

def clientSocket : String := "/run/clonebox/clonebox.sk"

def gracefulShutdown (clientSock eventSock : String) : Booting Unit := do
  let _ ← ask (.removeFile clientSock)
  let _ ← ask (.removeFile eventSock)
  pure ()

def main : Booting Unit := do
  orFail Errno.ioDisplay (ask (.createDirAll appDataPath))
  orFail (fun _ => "failed to chmod clonebox dir") (ask (.setPermissions appDataPath 0o700))
  ask .new
  getListenSk clientSocket
  recover appDataPath
  getListenSk getEventSocketPath
  ask .eventLoop
  orFail Errno.ioDisplay (ask .serve)
  orFail Errno.ioDisplay (ask .shutdown)
  gracefulShutdown clientSocket getEventSocketPath

/-- The process: `main` and what the runtime does with its result. -/
def process : Booting Unit := do
  match ← main.attempt with
  | .ok () => .call (.exit 0) fun _ => .halt
  | .error (_ : String) => .call (.exit 1) fun _ => .halt

end Cloneboxd

/-- The directories whose state file the loop reads, in its order. -/
def DirEntry.named : DirEntry → Option String
  | .item (.ok true) (some fileName) => some fileName
  | _ => none

end Clonebox
