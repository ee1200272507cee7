import Clonebox.Core.Container

/-! # The namespaces of the process that runs a command

`setns` moves the caller at once, except that a pid namespace is that of its children only. A link
`/proc/<p>/ns/<kind>` is the namespace that the process is in when the link is opened, and which
process it is depends on the mount namespace the path is looked up in. -/

namespace Clonebox
open Conc

inductive NsKind where
  | uts
  | pid
  | net
  | mnt
  deriving DecidableEq

def NsKind.name : NsKind → String
  | .uts => "uts"
  | .pid => "pid"
  | .net => "net"
  | .mnt => "mnt"

def NsKind.ofName : String → Option NsKind
  | "uts" => some .uts
  | "pid" => some .pid
  | "net" => some .net
  | "mnt" => some .mnt
  | _ => none

@[simp] theorem NsKind.ofName_name (k : NsKind) : NsKind.ofName k.name = some k := by cases k <;> rfl

/-- The namespaces of a process, and the pid namespace its next children will be in. -/
structure Namespaces where
  uts : Nat
  pid : Nat
  net : Nat
  mnt : Nat
  children : Nat
  deriving DecidableEq

namespace Namespaces

def own (n : Namespaces) : NsKind → Nat
  | .uts => n.uts
  | .pid => n.pid
  | .net => n.net
  | .mnt => n.mnt

/-- `setns` to a namespace of the given kind. -/
def enter (n : Namespaces) (ns : Nat) : NsKind → Namespaces
  | .uts => { n with uts := ns }
  | .pid => { n with children := ns }
  | .net => { n with net := ns }
  | .mnt => { n with mnt := ns }

/-- The namespaces of a forked child. -/
def forked (n : Namespaces) : Namespaces := { n with pid := n.children }

end Namespaces

/-- The processes around the caller `me`: which of them a directory of `/proc` stands for in a mount
namespace, and the namespaces of the others. -/
structure Procs where
  me : Nat
  who : Nat → String → Nat
  nsOf : Nat → NsKind → Nat

variable {P : Procs} {n : Namespaces}

/-- What the link `/proc/<pid>/ns/<kind>` is to a caller in these namespaces. -/
def Procs.seen (P : Procs) (n : Namespaces) (pid : Int) (k : NsKind) : Nat :=
  if P.who n.mnt (toString pid) = P.me then n.own k else P.nsOf (P.who n.mnt (toString pid)) k

theorem Procs.seen_me {pid : Int} {k : NsKind} (h : P.who n.mnt (toString pid) = P.me) :
    P.seen n pid k = n.own k := if_pos h

theorem Procs.seen_other {pid : Int} {k : NsKind} (h : P.who n.mnt (toString pid) ≠ P.me) :
    P.seen n pid k = P.nsOf (P.who n.mnt (toString pid)) k := if_neg h

/-- A caller: its namespaces, the links it has opened, and those it has moved to, in their order. A
process that forks goes on as the child if the answer is 0. -/
structure Caller where
  ns : Namespaces
  opened : String → Option (NsKind × Nat)
  moved : List String
  forked : Bool

namespace Caller

def ofNs (n : Namespaces) : Caller := ⟨n, fun _ => none, [], false⟩

def next (P : Procs) (c : Caller) : (op : Op) → op.Ret → Caller
  | .openNs pid ns, .ok () =>
    match NsKind.ofName ns with
    | some k =>
      { c with opened := Function.update c.opened (nsPath pid ns) (some (k, P.seen c.ns pid k)) }
    | none => c
  | .setns path, .ok () =>
    let ns := match c.opened path with
      | some (k, ns) => c.ns.enter ns k
      | none => c.ns
    { c with ns, moved := c.moved ++ [path] }
  | .fork, .ok pid => if pid = 0 then { c with ns := c.ns.forked, forked := true } else c
  | _, _ => c

/-- Where the caller is after these calls. -/
def walk (P : Procs) (c : Caller) (tr : List Sys.Ev) : Caller :=
  tr.foldl (fun c ev => c.next P ev.1 ev.2) c

end Caller

/-- A call that is not about namespaces and starts nothing. -/
def Op.still : Op → Bool
  | .openNs _ _ | .setns _ | .fork | .execve _ _ _ => false
  | _ => true

namespace Caller

variable {c : Caller} {tr tr' : List Sys.Ev}

@[simp] theorem walk_nil : walk P c [] = c := rfl

@[simp] theorem walk_cons {ev : Sys.Ev} : walk P c (ev :: tr) = walk P (c.next P ev.1 ev.2) tr := rfl

theorem walk_append : walk P c (tr ++ tr') = walk P (walk P c tr) tr' := List.foldl_append

theorem next_openNs {pid : Int} {k : NsKind} : c.next P (.openNs pid k.name) (.ok ()) =
    { c with opened := Function.update c.opened (nsPath pid k.name) (some (k, P.seen c.ns pid k)) } := by
  simp only [next, NsKind.ofName_name]

theorem next_setns {path : String} {k : NsKind} {ns : Nat} (h : c.opened path = some (k, ns)) :
    c.next P (.setns path) (.ok ()) = { c with ns := c.ns.enter ns k, moved := c.moved ++ [path] } := by
  simp only [next, h]

theorem next_fork_parent {pid : Int} (h : pid ≠ 0) : c.next P .fork (.ok pid) = c := by
  simp only [next, if_neg h]

theorem next_still {op : Op} {r : op.Ret} (h : op.still = true) : c.next P op r = c := by
  unfold next
  split <;> first | rfl | contradiction

theorem walk_still (h : ∀ ev ∈ tr, ev.1.still = true) : walk P c tr = c := by
  induction tr generalizing c with
  | nil => rfl
  | cons ev tr ih =>
    rw [walk_cons, next_still (h ev List.mem_cons_self)]
    exact ih fun ev hev => h ev (List.mem_cons_of_mem _ hev)

/-- The links the caller has moved to are those that a `setns` has been answered for. -/
theorem mem_moved {path : String} :
    path ∈ (walk P c tr).moved ↔ path ∈ c.moved ∨ ⟨.setns path, .ok ()⟩ ∈ tr := by
  induction tr generalizing c with
  | nil => simp
  | cons ev tr ih =>
    rw [walk_cons, ih, List.mem_cons]
    obtain ⟨op, r⟩ := ev
    have hnext : path ∈ (c.next P op r).moved ↔
        path ∈ c.moved ∨ (⟨.setns path, .ok ()⟩ : Sys.Ev) = ⟨op, r⟩ := by
      unfold next
      split
      · split <;> simp
      · simp
      · split <;> simp
      · rename_i hopen hset hfork
        refine ⟨.inl, fun h => ?_⟩
        rcases h with h | h
        · exact h
        · cases h
          exact (hset path rfl .rfl).elim
    rw [hnext, or_assoc]

end Caller

/-! ### The paths -/

theorem nsPath_inj {p p' : Int} {k k' : NsKind} :
    nsPath p k.name = nsPath p' k'.name ↔ toString p = toString p' ∧ k = k' := by
  have hthree (k : NsKind) : k.name.toList.length = 3 := by cases k <;> rfl
  have hname : Function.Injective fun k : NsKind => k.name.toList := by
    intro k k' h
    cases k <;> cases k' <;> first | rfl | exact absurd h (by decide)
  constructor
  · intro h
    have hlist := congrArg String.toList h
    simp only [nsPath, String.toList_append] at hlist
    obtain ⟨hpid, hk⟩ := List.append_inj' hlist ((hthree k).trans (hthree k').symm)
    have hpid := List.append_cancel_left (List.append_cancel_right hpid)
    exact ⟨String.toList_inj.mp hpid, hname hk⟩
  · rintro ⟨hpid, rfl⟩
    rw [nsPath, nsPath, hpid]

end Clonebox
