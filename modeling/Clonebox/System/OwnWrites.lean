import Clonebox.Core.Calls
import Clonebox.Lifecycle.FailedOperation

/-! # Whose writes these are

The first state of a container is written by `create`, under the container's own name, and its
freezer is written by `pause` and `resume` only. -/

namespace Clonebox
open Conc Prog

variable {ε α : Type} {id configPath : String} {sp : Option String} {j : Option String} {k : Kind}

/-- The state bears the name of the container. -/
structure State.Names (id : String) (s : State) : Prop where
  own : s.id = id
  bundle : s.bundle = getBundlePath id
  annotations : s.annotations = none

/-- The container to which a call writes a file or adds a waiter. -/
def Op.writesTo : Op → Option String
  | .write p _ => p.owner
  | .pushWaiter id _ => some id
  | _ => none

/-- What a call of a program of this kind writes is its own. -/
structure OwnWrite (j : Option String) (k : Kind) (op : Op) : Prop where
  first : ∀ id s, op = .write (stateJson id) (.state s) → s.status = .creating → s.Names id
  freezer : ∀ id x, op = .write (freezer id) x → ∃ t, t ≠ .start ∧ k = .turn t id
  place : ∀ id, op.writesTo = some id → j = some id

theorem OwnWrite.of_none {op : Op} (h : op.writesTo = none) : OwnWrite j k op where
  first := by
    rintro id s rfl
    cases h
  freezer := by
    rintro id x rfl
    cases h
  place := by
    intro id hid
    cases h.symm.trans hid

/-- A state that is not the first one. -/
theorem OwnWrite.later {s : State} (h : s.status ≠ .creating) :
    OwnWrite (some id) k (.write (stateJson id) (.state s)) where
  first := by
    rintro id s he hst
    cases he
    exact absurd hst h
  freezer := by
    rintro id x he
    cases he
  place _ hid := hid

/-- The program writes nothing but its own. -/
def Owns (j : Option String) (k : Kind) (p : Prog Sys ε α) : Prop :=
  Prog.Calls (S := Sys) (OwnWrite j k) p

namespace Owns

theorem bind {β : Type} {p : Prog Sys ε α} {f : α → Prog Sys ε β} (hp : Owns j k p)
    (hf : ∀ a, Owns j k (f a)) : Owns j k (p.bind f) := Prog.Calls.bind hp hf

theorem mapErr {δ : Type} {p : Prog Sys ε (Except δ α)} {f : δ → ε} (hp : Owns j k p) :
    Owns j k (mapErr p f) := Clonebox.Calls.mapErr hp

theorem sys {op : Op} (h : op.writesTo = none) : Owns j k (sys op : Prog Sys ε _) :=
  ⟨.of_none h, fun _ => trivial⟩

theorem throwIf {c : Prop} [Decidable c] {e : ε} : Owns j k (.throwIf c e : Prog Sys ε Unit) :=
  calls_throwIf

end Owns

/-! ### The operations -/

theorem writesTo_of_prepares {op : Op} (h : op.prepares = true) : op.writesTo = none := by
  unfold Op.prepares at h
  split at h
  all_goals first | rfl | cases h

theorem CreateCall.own {op : Op} (h : CreateCall id configPath sp op) : OwnWrite (some id) k op := by
  cases h with
  | prepares hop => exact .of_none (writesTo_of_prepares hop)
  | initial =>
    refine ⟨?_, ?_, fun _ hid => hid⟩
    · rintro i s he -
      cases he
      exact ⟨rfl, rfl, rfl⟩
    · rintro i x he
      cases he
  | created | stopped => exact .later fun hst => by cases hst
  | limit hr =>
    refine ⟨?_, ?_, fun _ hid => hid⟩
    · rintro i s he -
      cases he
    · rintro i x he
      injection he with hpath
      injection hpath with _ _ hkey
      exact absurd hkey (by decide)
  | _ => exact .of_none rfl

theorem readStateFile_owns : Owns j k (readStateFile id) := readStateFile_all (.of_none rfl)

theorem writeStateFile_owns {s : State} (h : s.status ≠ .creating) :
    Owns (some id) k (writeStateFile id s) :=
  .mapErr ⟨.later h, fun _ => trivial⟩

theorem updateState_owns {f : State → State} (h : ∀ s, (f s).status ≠ .creating) :
    Owns (some id) k (updateState id f) :=
  .bind readStateFile_owns fun s => .bind (writeStateFile_owns (h s)) fun _ => trivial

theorem transition_owns {required : ContainerState} {refusal : CoreError} {effect : Core Unit}
    {set : State → State} (he : Owns (some id) k effect) (h : ∀ s, (set s).status ≠ .creating) :
    Owns (some id) k (transition id required refusal effect set) :=
  .bind readStateFile_owns fun _ => .bind .throwIf fun _ => .bind he fun _ =>
    .bind (updateState_owns h) fun _ => trivial

theorem setFreezer_owns {t : Turn} (ht : t ≠ .start) (value : String) :
    Owns (some id) (.turn t id) (setCgroup id "cgroup" "freeze" value) := by
  refine .mapErr ⟨⟨?_, ?_, fun _ hid => hid⟩, fun _ => trivial⟩
  · rintro i s he -
    cases he
  · rintro i x he
    cases he
    exact ⟨t, ht, rfl⟩

theorem turn_owns (t : Turn) (id : String) : Owns (some id) (.turn t id) (t.op id) := by
  cases t with
  | start =>
    refine transition_owns ?_ fun s => by simp [State.setRunning]
    refine .bind (.mapErr (.sys rfl)) fun _ => .bind (.bind .throwIf fun _ => trivial) fun _ => ?_
    exact .mapErr (.sys rfl)
  | pause => exact transition_owns (setFreezer_owns (by decide) "1") fun s => by simp [State.setPaused]
  | resume => exact transition_owns (setFreezer_owns (by decide) "0") fun s => by simp [State.setRunning]

theorem kill_owns (id : String) : Owns (some id) k (kill id) := by
  refine .bind readStateFile_owns fun s => .bind calls_ofExcept fun pid => .bind ?_ fun _ =>
    writeStateFile_owns (by simp [State.setStopped])
  refine .bind (.sys rfl) fun r => ?_
  cases r with
  | ok _ => trivial
  | error e => exact .throwIf

theorem delete_owns (id : String) (force : Bool) : Owns j k (delete id force) := by
  cases force with
  | true => exact .bind (.sys rfl) fun _ => .bind (.sys rfl) fun _ => trivial
  | false =>
    exact .bind readStateFile_owns fun _ => .bind .throwIf fun _ => .bind (.mapErr (.sys rfl)) fun _ =>
      .mapErr (.sys rfl)

theorem exec_owns (id : String) (cmd : List String) : Owns j k (exec id cmd) :=
  exec_all (.of_none rfl) (.of_none rfl) (.of_none rfl) (fun _ _ => .of_none rfl) (fun _ => .of_none rfl)
    (.of_none rfl) (fun _ => .of_none rfl) (.of_none rfl) (.of_none rfl)
    (fun _ _ _ => .of_none rfl) (fun _ => .of_none rfl) (fun _ => .of_none rfl) cmd

theorem create_owns : Owns (some id) k (create id configPath sp) :=
  Prog.Calls.mono create_calls fun _ h => h.own

theorem shimMain_owns (s : String) : Owns (some id) k (shimMain id configPath s) := by
  have hsend (e : Event) : Owns (some id) k (e.sendEvent s) :=
    .bind (.mapErr (.sys rfl)) fun _ => .mapErr (.sys rfl)
  refine .bind (Prog.Calls.attempt create_owns) fun r => ?_
  cases r with
  | ok _ => trivial
  | error e =>
    refine .bind (Prog.Calls.attempt (hsend _)) fun r => ?_
    cases r with
    | ok _ => trivial
    | error e' => exact ⟨.of_none rfl, fun _ => trivial⟩

/-! ### The programs -/

theorem mirror_owns {op : Core Unit} (h : Owns j k op) (st : ContainerState) :
    Owns j k (Cloneboxd.mirror id op st) :=
  .bind (Prog.Calls.mapError h) fun _ => .bind (.sys rfl) fun _ => trivial

theorem readStates_owns (ids : List String) : Owns j k (Cloneboxd.readStates ids) := by
  induction ids with
  | nil => trivial
  | cons id ids ih =>
    refine .bind (Prog.Calls.attempt readStateFile_owns) fun s => .bind ih fun states => ?_
    cases s <;> trivial

theorem handler_owns (req : Request) :
    Owns (Main.rpc req).container (Main.rpc req).kind req.handler := by
  cases req with
  | create id cp =>
    refine .bind (.mapErr (.sys rfl)) fun _ => .bind (.sys rfl) fun _ => .bind (.sys rfl) fun _ => ?_
    refine .bind (.mapErr (.sys rfl)) fun _ => .bind (.sys rfl) fun b => ?_
    cases b <;> trivial
  | start id => exact mirror_owns (turn_owns .start id) _
  | state id => exact .bind (Prog.Calls.mapError readStateFile_owns) fun _ => trivial
  | kill id => exact mirror_owns (kill_owns id) _
  | delete id force =>
    exact .bind (Prog.Calls.mapError (delete_owns id force)) fun _ => .bind (.sys rfl) fun _ => trivial
  | pause id => exact mirror_owns (turn_owns .pause id) _
  | resume id => exact mirror_owns (turn_owns .resume id) _
  | exec => trivial
  | wait id =>
    have hpush (tx : Nat) : Owns (some id) .observer (sys (.pushWaiter id tx) : Prog Sys Status Bool) := by
      refine ⟨⟨fun _ _ he => ?_, fun _ _ he => ?_, fun _ hid => hid⟩, fun _ => trivial⟩
      · cases he
      · cases he
    refine .bind (.sys rfl) fun tx => .bind (hpush tx) fun _ => .bind .throwIf fun _ => ?_
    refine .bind (.sys rfl) fun code => ?_
    cases code <;> trivial
  | list => exact .bind (.sys rfl) fun ids => .bind (readStates_owns ids) fun _ => trivial

theorem main_owns (m : Main) : Owns m.container m.kind m.prog := by
  have hcore {β : Type} {p : Core β} (f : β → Reply) (h : Owns m.container m.kind p) :
      Owns m.container m.kind (ofCore p f) :=
    .bind (Prog.Calls.mapError h) fun _ => trivial
  cases m with
  | create id cp sp => exact hcore _ create_owns
  | turn t id => exact hcore _ (turn_owns t id)
  | kill id => exact hcore _ (kill_owns id)
  | delete id force => exact hcore _ (delete_owns id force)
  | state id => exact hcore _ readStateFile_owns
  | exec id cmd => exact hcore _ (exec_owns id cmd)
  | shim id cp s => exact hcore _ (shimMain_owns s)
  | rpc req => exact Prog.Calls.mapError (handler_owns req)

variable {c c' : SysConf} {a : SysAction} {i : Nat} {th : SysThread}

/-- In a reachable configuration nobody makes any other call. -/
theorem event_owns {op : Op} {r : op.Ret} (ht : Machine.Traced system c)
    (he : system.event c a = some (i, ⟨op, r⟩)) (hi : c.threads[i]? = some th) :
    OwnWrite th.main.container (kindOf th) op := by
  obtain ⟨th₁, k, ch, w, -, hi₁, -, hop, -, -⟩ := Machine.event_some he
  cases hi.symm.trans hi₁
  have hcalls := ((ht i th hi).calls (main_owns th.main)).2
  rw [hop] at hcalls
  exact hcalls.1

end Clonebox
