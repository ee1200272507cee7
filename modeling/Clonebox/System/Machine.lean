import Clonebox.System.Kernel
import Clonebox.Lib.Machine

/-! # The system

The programs that can be started, and the machine that interleaves them: core operations called
directly, shims, and the requests of the daemon. -/

namespace Clonebox
open Conc

/-- The operations that move a created container on. -/
inductive Turn where
  | start
  | pause
  | resume
  deriving DecidableEq

def Turn.op (id : String) : Turn → Core Unit
  | .start => Clonebox.start id
  | .pause => Clonebox.pause id
  | .resume => Clonebox.resume id

inductive Main where
  | create (id configPath : String) (socketPath : Option String)
  | turn (t : Turn) (id : String)
  | kill (id : String)
  | delete (id : String) (force : Bool)
  | state (id : String)
  | exec (id : String) (cmd : List String)
  | shim (id configPath eventSocket : String)
  | rpc (req : Request)
  deriving DecidableEq

/-- How a program fails. -/
inductive Fault where
  | core (e : CoreError)
  | status (s : Status)
  deriving DecidableEq

def ofCore {α : Type} (p : Core α) (f : α → Reply) : Prog Sys Fault Reply := do
  let a ← p.mapError .core
  pure (f a)

def Main.prog : Main → Prog Sys Fault Reply
  | .create id configPath socketPath =>
    ofCore (Clonebox.create id configPath socketPath) fun _ => .unit
  | .turn t id => ofCore (t.op id) fun _ => .unit
  | .kill id => ofCore (Clonebox.kill id) fun _ => .unit
  | .delete id force => ofCore (Clonebox.delete id force) fun _ => .unit
  | .state id => ofCore (Clonebox.state id) .state
  | .exec id cmd => ofCore (Clonebox.exec id cmd) fun _ => .unit
  | .shim id configPath eventSocket =>
    ofCore (shimMain id configPath eventSocket) fun _ => .unit
  | .rpc req => req.handler.mapError .status

/-- The copy of a process gets 0 from `clone3` and from `fork`. -/
def forkAnswer : (op : Op) → op.Ret → Option op.Ret
  | .clone3 _, .ok _ => some (.ok 0)
  | .fork, .ok _ => some (.ok 0)
  | _, _ => none

def spawned : (op : Op) → op.Ret → Option Main
  | .spawnShim id configPath eventSocket, .ok () => some (.shim id configPath eventSocket)
  | _, _ => none

def Main.isRpc : Main → Bool
  | .rpc _ => true
  | _ => false

/-- The container a program is about, if it is about one. -/
def Main.container : Main → Option String
  | .create id _ _ | .turn _ id | .kill id | .delete id _ | .state id | .exec id _ | .shim id _ _ => some id
  | .rpc (.create id _) | .rpc (.start id) | .rpc (.pause id) | .rpc (.resume id) | .rpc (.kill id)
  | .rpc (.delete id _) | .rpc (.state id) | .rpc (.wait id) => some id
  | .rpc .exec | .rpc .list => none

def system : Machine Sys Fault Reply World Choice World.Env Main where
  prog := Main.prog
  exec := World.exec
  fork := forkAnswer
  spawn := spawned
  invocable w m := !m.isRpc || w.up
  env := World.env
  halts e m := match e with
    | .daemonStop => m.isRpc
    | _ => false
  crash := World.crash

abbrev SysConf := Conf Sys Fault Reply World Main
abbrev SysAction := Action Choice World.Env Main
abbrev SysThread := Thread Sys Fault Reply Main

end Clonebox
