import Clonebox.Lib.MountTable
import Clonebox.System.Conformance
import Clonebox.System.Frame
import Clonebox.System.Inversion

/-! # Runs of the system

A step changes the phase of at most one thread; `step_change` says where each thread of the
configuration after a step comes from. -/

namespace Clonebox
open Conc

/-- Nothing runs yet. -/
abbrev fresh (w : World) : SysConf := ⟨w, []⟩

def kindOf (th : SysThread) : Kind := th.main.kind

def phaseOf (th : SysThread) : Phase := contract.phase th

/-- The thread still has a call to make. -/
def Running (th : SysThread) : Prop := th.stopped = false ∧ ∃ op k, th.prog = .call op k

instance {th : SysThread} : Decidable (Running th) :=
  match h : th.prog with
  | .call op k => decidable_of_iff (th.stopped = false) ⟨fun hst => ⟨hst, op, k, h⟩, And.left⟩
  | .ret _ | .fail _ | .halt => isFalse fun ⟨_, _, _, e⟩ => nomatch h.symm.trans e

/-- The thread has come to the end of its program. -/
def Ended (th : SysThread) : Prop := th.stopped = false ∧ ∀ op k, th.prog ≠ .call op k

instance {th : SysThread} : Decidable (Ended th) :=
  match h : th.prog with
  | .call op k => isFalse fun ⟨_, hn⟩ => hn op k h
  | .ret _ | .fail _ | .halt =>
    decidable_of_iff (th.stopped = false) ⟨fun hst => ⟨hst, by simp [h]⟩, And.left⟩

/-- Every container asked for goes by a name, which leads to directories of its own, and so does
every container that a starting daemon finds. -/
def ByName (_ : SysConf) : SysAction → Prop
  | .invoke m => ∀ id ∈ m.container, IsName id
  | .env (.daemonStart dir) => ∀ id ∈ dir, IsName id
  | _ => True

instance {c : SysConf} {a : SysAction} : Decidable (ByName c a) :=
  match a with
  | .invoke m => inferInstanceAs (Decidable (∀ id ∈ m.container, IsName id))
  | .env (.daemonStart dir) => inferInstanceAs (Decidable (∀ id ∈ dir, IsName id))
  | .call _ _ | .crash _ | .env (.exit _ _) | .env (.reap _) | .env (.deliver _) | .env .daemonStop =>
    inferInstanceAs (Decidable True)

variable {c c' : SysConf} {a : SysAction} {i : Nat} {th th' : SysThread} {id : String}

/-- Every thread of the configuration keeps its contract. -/
def Conforming (c : SysConf) : Prop :=
  ∀ (i : Nat) th, c.threads[i]? = some th → contract.Conforms th

theorem Conforming.step (h : Conforming c) (hs : system.step c a = some c') : Conforming c' := by
  have hrun : Steps system.step (fun _ _ => True) c c' := .tail .refl trivial hs
  have hall : ∀ (i : Nat) th, c'.threads[i]? = some th →
      (fun _ : Main => True) th.main ∧ contract.Conforms th :=
    Machine.conforms_steps (fun m _ => conforms m) (fun _ _ _ => trivial)
      (fun _ _ _ _ _ _ _ _ => trivial) hrun fun i th hi => ⟨trivial, h i th hi⟩
  exact fun i th hi => (hall i th hi).2

theorem conforming_fresh (w : World) : Conforming (fresh w) := by
  intro i th hi
  simp at hi

/-- The error a thread has ended with. -/
def fault (th : SysThread) : Option Fault :=
  match th.prog with
  | .fail e => some e
  | _ => none

/-- What a thread has returned. -/
def reply (th : SysThread) : Option Reply :=
  match th.prog with
  | .ret r => some r
  | _ => none

theorem reply_some {r : Reply} (h : reply th = some r) : th.prog = .ret r := by
  unfold reply at h
  split at h <;> cases h
  assumption

theorem event_call {op : Op} {k : op.Ret → Prog Sys Fault Reply} {ch : Choice} {r : op.Ret}
    {w : World} (hi : c.threads[i]? = some th) (hst : th.stopped = false)
    (hop : th.prog = .call op k) (hx : c.world.exec i op ch = some (r, w)) :
    system.event c (.call i ch) = some (i, ⟨op, r⟩) := Machine.event_of_exec hi hst hop hx

/-- What a step makes of the world. -/
theorem step_world (hs : system.step c a = some c') :
    (∃ i op r ch, system.event c a = some (i, ⟨op, r⟩) ∧
      c.world.exec i op ch = some (r, c'.world)) ∨ c'.world = c.world ∨
      (∃ e, a = .env e ∧ c.world.env e = some c'.world) ∨
      ∃ t, a = .crash t ∧ c'.world = c.world.crash t := by
  cases a with
  | call i ch =>
    obtain ⟨th, op, k, r, w, hi, hst, hop, hx, rfl⟩ := Machine.step_call hs
    exact .inl ⟨i, op, r, ch, event_call hi hst hop hx, hx⟩
  | invoke m =>
    obtain ⟨-, rfl⟩ := Machine.step_invoke hs
    exact .inr (.inl rfl)
  | env e =>
    obtain ⟨w, hw, rfl⟩ := Machine.step_env hs
    exact .inr (.inr (.inl ⟨e, rfl, hw⟩))
  | crash t =>
    obtain ⟨th, -, rfl⟩ := Machine.step_crash hs
    exact .inr (.inr (.inr ⟨t, rfl, rfl⟩))

/-- Where a thread comes from. -/
inductive Change (c : SysConf) (a : SysAction) (c' : SysConf) (i : Nat) (th' : SysThread) : Prop
  | kept {th : SysThread} (h : c.threads[i]? = some th) (hm : th'.main = th.main)
    (hp : th'.parent = th.parent) (hprog : th'.prog = th.prog)
    (hst : th'.stopped = false → th.stopped = false) (hph : phaseOf th' = phaseOf th)
    (hr : Running th' → Running th)
  | answered {th : SysThread} {op : Op} {k : op.Ret → Prog Sys Fault Reply} {r : op.Ret}
    {ch : Choice} (ha : a = .call i ch) (h : c.threads[i]? = some th) (hst : th.stopped = false)
    (hop : th.prog = .call op k) (hx : c.world.exec i op ch = some (r, c'.world))
    (hd : Does (kindOf th) (phaseOf th) op) (he : th' = th.answer op k r)
    (hph : phaseOf th' = (kindOf th).next (phaseOf th) op r)
  | started {p : Option Nat} {m : Main} (h : c.threads[i]? = none)
    (he : th' = .start Main.prog p m) (hph : phaseOf th' = m.kind.init)
  | forked {t : Nat} {th : SysThread} (ht : c.threads[t]? = some th) (h : c.threads[i]? = none)
    (hg : phaseOf th = .create .grouped) (hm : th'.main = th.main)
    (hph : phaseOf th' = .create .child)
  /-- The child of an `exec`. -/
  | copied {t : Nat} {th : SysThread} {g : ExecStage} (ht : c.threads[t]? = some th)
    (h : c.threads[i]? = none) (hm : th'.main = th.main) (hg : phaseOf th = .exec g)
    (hph : phaseOf th' = .exec g)

theorem step_change (hc : Conforming c) (hs : system.step c a = some c')
    (hi : c'.threads[i]? = some th') : Change c a c' i th' := by
  cases Machine.step_origin hs hi with
  | same h => exact .kept h rfl rfl rfl id rfl id
  | stopped h e =>
    subst e
    exact .kept h rfl rfl rfl (fun e => nomatch e) (by simp [phaseOf]) fun hr => nomatch hr.1
  | answered ha h hst hp hx e =>
    exact .answered ha h hst hp hx (Kind.may_does ((hc i _ h).may hp)) e
      (e ▸ Machine.Contract.phase_answer)
  | invoked ha h hm e => exact .started h e (e ▸ Machine.Contract.phase_start)
  | @forked t th op k r r' ch ha ht hst hp hx hf h e =>
    have hd : Does (kindOf th) (phaseOf th) op := Kind.may_does ((hc t th ht).may hp)
    have hph : phaseOf th' = (kindOf th).next (phaseOf th) op r' :=
      e ▸ Machine.Contract.phase_answer_parent
    cases op <;> simp only [system, forkAnswer, reduceCtorEq] at hf
    case clone3 args =>
      cases r <;> simp only [Option.some.injEq, reduceCtorEq] at hf
      subst hf
      generalize hk : kindOf th = k at hd hph
      generalize hg : phaseOf th = g at hd hph
      cases hd with
      | quiet hq => contradiction
      | looks hl => contradiction
      | clone => exact .forked ht h hg (e ▸ rfl) hph
    case fork =>
      generalize hk : kindOf th = k at hd hph
      generalize hg : phaseOf th = g at hd hph
      cases hd with
      | quiet hq => contradiction
      | fork => exact .copied ht h (e ▸ rfl) hg hph
      | looks hl => contradiction
  | spawned ha ht hst hp hx hs' h e => exact .started h e (e ▸ Machine.Contract.phase_start)

/-- What a thread keeps from one answer to the next, it keeps for good. -/
theorem step_keeps {P : Kind → Phase → Prop}
    (hP : ∀ k g op r, Does k g op → World.Answer op r → P k g → P k (k.next g op r))
    (hc : Conforming c) (hs : system.step c a = some c') (hi : c.threads[i]? = some th)
    (h : P (kindOf th) (phaseOf th)) :
    ∃ th', c'.threads[i]? = some th' ∧ th'.main = th.main ∧ P (kindOf th') (phaseOf th') := by
  obtain ⟨th', hi', rfl | rfl | ⟨op, k, r, ch, -, -, hop, hx, rfl⟩⟩ := Machine.step_persists hs hi
  · exact ⟨th', hi', rfl, h⟩
  · exact ⟨_, hi', by simp, by simpa [kindOf, phaseOf] using h⟩
  · refine ⟨_, hi', rfl, ?_⟩
    have hd : Does (kindOf th) (phaseOf th) op := Kind.may_does ((hc i th hi).may hop)
    have hph : phaseOf (th.answer op k r) = (kindOf th).next (phaseOf th) op r :=
      Machine.Contract.phase_answer
    rw [hph]
    exact hP _ _ _ _ hd ⟨_, _, _, _, hx⟩ h

/-- The phases in which a thread can come into being as a copy of another. -/
def Phase.copied : Phase → Bool
  | .create .child | .exec _ => true
  | _ => false

/-- A phase that no program starts in is one a thread was in before, or enters by an answer. -/
theorem step_enters {P : Kind → Phase → Prop} (hinit : ∀ m : Main, ¬P m.kind m.kind.init)
    (hcopy : ∀ k (g : Phase), g.copied = true → ¬P k g) (hc : Conforming c) (hs : system.step c a = some c')
    (hi : c'.threads[i]? = some th') (h : P (kindOf th') (phaseOf th')) :
    (∃ th, c.threads[i]? = some th ∧ P (kindOf th) (phaseOf th)) ∨
      ∃ (th : SysThread) (op : Op) (r : op.Ret) (ch : Choice), c.threads[i]? = some th ∧
        system.event c a = some (i, ⟨op, r⟩) ∧ c.world.exec i op ch = some (r, c'.world) ∧
        Does (kindOf th) (phaseOf th) op ∧ P (kindOf th) ((kindOf th).next (phaseOf th) op r) := by
  cases step_change hc hs hi with
  | @kept th hi₀ hm hp hprog hst hph hr =>
    rw [kindOf, hm, hph] at h
    exact .inl ⟨th, hi₀, h⟩
  | @answered th op k r ch ha hi₀ hst hop hx hd he hph =>
    have hkind : kindOf th' = kindOf th := by rw [he]; rfl
    have hev : system.event c a = some (i, ⟨op, r⟩) := by
      rw [ha]
      exact event_call hi₀ hst hop hx
    rw [hkind, hph] at h
    exact .inr ⟨th, op, r, ch, hi₀, hev, hx, hd, h⟩
  | @started p m hi₀ he hph =>
    have hkind : kindOf th' = m.kind := by rw [he]; rfl
    rw [hkind, hph] at h
    exact (hinit m h).elim
  | forked ht hi₀ hg hm hph =>
    rw [hph] at h
    exact (hcopy _ _ rfl h).elim
  | copied ht hi₀ hm hg hph =>
    rw [hph] at h
    exact (hcopy _ _ rfl h).elim

/-- The thread whose call a step answers, before and after. -/
theorem event_thread {op : Op} {r : op.Ret} (hc : Conforming c)
    (he : system.event c a = some (i, ⟨op, r⟩)) (hs : system.step c a = some c') :
    ∃ (th : SysThread) (k : op.Ret → Prog Sys Fault Reply) (ch : Choice),
      c.threads[i]? = some th ∧ Running th ∧ Does (kindOf th) (phaseOf th) op ∧
        c.world.exec i op ch = some (r, c'.world) ∧ c'.threads[i]? = some (th.answer op k r) ∧
        phaseOf (th.answer op k r) = (kindOf th).next (phaseOf th) op r := by
  obtain ⟨th, k, ch, w, rfl, hi, hst, hop, hx, hs'⟩ := Machine.event_some he
  cases hs.symm.trans hs'
  have hlen : i < c.threads.length := (List.getElem?_eq_some_iff.mp hi).1
  refine ⟨th, k, ch, hi, ⟨hst, op, k, hop⟩, Kind.may_does ((hc i th hi).may hop), hx, ?_,
    Machine.Contract.phase_answer⟩
  rw [List.getElem?_append_left (by simpa using hlen), List.getElem?_set_self hlen]

/-- A call leaves the other threads where they are. -/
theorem event_other {ev : Sys.Ev} {j : Nat} (he : system.event c a = some (i, ev))
    (hs : system.step c a = some c') (hj : c.threads[j]? = some th) (hne : i ≠ j) :
    c'.threads[j]? = some th := by
  obtain ⟨op, r⟩ := ev
  obtain ⟨th₀, k, ch, w, rfl, hi, hst, hop, hx, hs'⟩ := Machine.event_some he
  cases hs.symm.trans hs'
  have hlen : j < c.threads.length := (List.getElem?_eq_some_iff.mp hj).1
  rw [List.getElem?_append_left (by simpa using hlen), List.getElem?_set_ne hne, hj]

/-- A thread stays what it is, and its trace grows. -/
theorem step_kept (hs : system.step c a = some c') (hi : c.threads[i]? = some th) :
    ∃ th', c'.threads[i]? = some th' ∧ th'.main = th.main ∧ th'.parent = th.parent ∧
      th.trace ⊆ th'.trace := by
  obtain ⟨th', hi', rfl | rfl | ⟨op, k, r, ch, -, -, -, -, rfl⟩⟩ := Machine.step_persists hs hi
  · exact ⟨_, hi', rfl, rfl, fun _ h => h⟩
  · exact ⟨_, hi', rfl, rfl, fun _ h => h⟩
  · exact ⟨_, hi', rfl, rfl, fun _ h => List.mem_append_left _ h⟩

/-- A new thread is a copy of thread `t`: the child of a supervisor, or of an `exec`. -/
structure Copied (c : SysConf) (t : Nat) (th th' : SysThread) : Prop where
  origin : c.threads[t]? = some th
  main : th'.main = th.main
  parent : th'.parent = some t
  trace : (phaseOf th = .create .grouped ∧
      ∃ args, th'.trace = th.trace ++ [⟨.clone3 args, .ok 0⟩]) ∨
    (∃ g, phaseOf th = .exec g) ∧ th'.trace = th.trace ++ [⟨.fork, .ok 0⟩]

/-- Where an answer in the trace of a thread comes from. -/
theorem step_trace {ev : Sys.Ev} (hc : Conforming c) (hs : system.step c a = some c')
    (hi : c'.threads[i]? = some th') (hev : ev ∈ th'.trace) :
    (∃ th, c.threads[i]? = some th ∧ th'.main = th.main ∧ th'.parent = th.parent ∧ ev ∈ th.trace) ∨
      system.event c a = some (i, ev) ∨ ∃ (t : Nat) (th : SysThread), Copied c t th th' := by
  cases Machine.step_origin hs hi with
  | same hi₀ => exact .inl ⟨th', hi₀, rfl, rfl, hev⟩
  | @stopped th hi₀ e =>
    rw [e] at hev ⊢
    exact .inl ⟨th, hi₀, rfl, rfl, hev⟩
  | @answered th op k r ch ha hi₀ hst hop hx e =>
    rw [e] at hev ⊢
    rcases List.mem_append.mp hev with hev | hev
    · exact .inl ⟨th, hi₀, rfl, rfl, hev⟩
    · rw [List.mem_singleton.mp hev, ha]
      exact .inr (.inl (event_call hi₀ hst hop hx))
  | invoked ha hi₀ hm e =>
    rw [e] at hev
    contradiction
  | @forked t th op k r r' ch ha ht hst hop hx hf hi₀ e =>
    have hd : Does (kindOf th) (phaseOf th) op := Kind.may_does ((hc t th ht).may hop)
    cases op <;> simp only [system, forkAnswer, reduceCtorEq] at hf
    case clone3 args =>
      cases r <;> simp only [Option.some.injEq, reduceCtorEq] at hf
      subst hf
      have hg : phaseOf th = .create .grouped := by
        generalize kindOf th = k at hd
        generalize phaseOf th = g at hd
        cases hd with
        | quiet hq => contradiction
        | looks hl => contradiction
        | clone => rfl
      exact .inr (.inr ⟨t, th, ht, by rw [e]; rfl, by rw [e], .inl ⟨hg, args, by rw [e]; rfl⟩⟩)
    case fork =>
      cases r <;> simp only [Option.some.injEq, reduceCtorEq] at hf
      subst hf
      have hg : ∃ g, phaseOf th = .exec g := by
        generalize kindOf th = k at hd
        generalize phaseOf th = g at hd
        cases hd with
        | quiet hq => contradiction
        | fork => exact ⟨_, rfl⟩
        | looks hl => contradiction
      exact .inr (.inr ⟨t, th, ht, by rw [e]; rfl, by rw [e], .inr ⟨hg, by rw [e]; rfl⟩⟩)
  | spawned ha ht hst hop hx hs' hi₀ e =>
    rw [e] at hev
    contradiction

/-- A run keeps what every step keeps, given that all threads conform. -/
theorem run_invariant {ok : SysConf → SysAction → Prop} {I : SysConf → Prop}
    (h : Steps system.step ok c c') (hc : Conforming c) (hI : I c)
    (hstep : ∀ c a c', Conforming c → I c → ok c a → system.step c a = some c' → I c') :
    Conforming c' ∧ I c' :=
  h.invariant (I := fun c => Conforming c ∧ I c)
    (fun c a c' h hok hs => ⟨h.1.step hs, hstep c a c' h.1 h.2 hok hs⟩) ⟨hc, hI⟩

/-! ### The shape of a phase -/

/-- The phases of the programs of a kind. -/
def Kind.has : Kind → Phase → Bool
  | .create _ _ _, .create _ | .turn _ _, .turn _ | .kill _, .kill _ | .delete _ _, .delete _
  | .exec _, .exec _ | .handler _ _, .handler _ | .observer, .observer => true
  | _, _ => false

theorem Kind.has_init (k : Kind) : k.has k.init = true := by
  cases k <;> rfl

theorem Kind.has_next {k : Kind} {g : Phase} {op : Op} {r : op.Ret} (h : k.has g = true) :
    k.has (k.next g op r) = true := by
  cases k <;> cases g <;> first | rfl | contradiction

theorem phase_has (h : contract.Conforms th) : (kindOf th).has (phaseOf th) = true :=
  h.past.keeps (I := fun g => (kindOf th).has g = true) (fun _ _ _ _ => Kind.has_next)
    (Kind.has_init _)

/-! ### The state file -/

/-- The state that an answered call has put into `state.json` of the container. -/
def wrote (id : String) : Sys.Ev → Option State
  | ⟨.write (.inBundle i .stateJson) (.state s), .ok ()⟩ => if i = id then some s else none
  | _ => none

/-- The action is a write of `s` to `state.json` of the container, and it succeeds. -/
def Writes (id : String) (s : State) (c : SysConf) (a : SysAction) : Prop :=
  ∃ e ∈ system.event c a, wrote id e.2 = some s

/-- A write of `state.json` that has failed, or a removal of the bundle. -/
def spoils (id : String) : Sys.Ev → Bool
  | ⟨.write p _, .error _⟩ => p = stateJson id
  | ⟨.removeDirAll p, _⟩ => p = .bundle id
  | _ => false

theorem wrote_some {id : String} {ev : Sys.Ev} {s : State} (h : wrote id ev = some s) :
    ev = ⟨.write (stateJson id) (.state s), .ok ()⟩ := by
  unfold wrote at h
  split at h <;> try contradiction
  split at h <;> cases h
  subst id
  rfl

/-- A step leaves `state.json` as it is, or makes it unreadable, or writes to it. -/
theorem step_file (hc : Conforming c) (hs : system.step c a = some c') :
    c'.world.file id = c.world.file id ∨
      (c'.world.file id = none ∧ ∃ e ∈ system.event c a, spoils id e.2 = true) ∨
      ∃ s, Writes id s c a ∧ c'.world.file id = some s := by
  rcases step_world hs with ⟨i, op, r, ch, he, hx⟩ | e | ⟨e, -, he⟩ | ⟨t, -, e⟩
  · by_cases hf : op.fileOf = some id
    · obtain ⟨th, k, ch', hi, hrun, hd, -⟩ := event_thread hc he hs
      unfold Op.fileOf at hf
      split at hf <;> cases hf
      · rename_i content
        have hst : ∃ s, content = .state s := by
          generalize kindOf th = k at hd
          generalize phaseOf th = g at hd
          cases hd <;> first | contradiction | exact ⟨_, rfl⟩
        obtain ⟨s, rfl⟩ := hst
        rcases World.exec_write hx with ⟨rfl, hf⟩ | ⟨e, rfl, hf | hf⟩
        · exact .inr (.inr ⟨s, ⟨_, he, by simp [wrote]⟩, hf⟩)
        · exact .inl hf
        · exact .inr (.inl ⟨hf, _, he, by simp [spoils]⟩)
      · rcases World.exec_removeDirAll hx with ⟨-, hb⟩ | ⟨e, -, -, hf | hf⟩
        · exact .inr (.inl ⟨by simp [World.file, hb], _, he, by simp [spoils]⟩)
        · exact .inl hf
        · exact .inr (.inl ⟨hf, _, he, by simp [spoils]⟩)
    · exact .inl (World.exec_file hx hf)
  · exact .inl (by rw [e])
  · exact .inl (World.env_file he)
  · exact .inl (by rw [e, World.crash_file])

/-- Who writes which status. -/
inductive WriteBy (id : String) : Kind → Phase → State → Prop
  | creating {configPath : String} {sp : Option String} {s : State} (h : s.status = .creating)
    (hpid : s.pid = none) :
    WriteBy id (.create id configPath sp) (.create .made) s
  | created {configPath : String} {sp : Option String} {pid : Int} {s : State} :
    WriteBy id (.create id configPath sp) (.create (.reread pid s)) (s.setCreated pid)
  | stopped {configPath : String} {sp : Option String} {pid : Int} {s : State} :
    WriteBy id (.create id configPath sp) (.create (.ending pid s)) s.setStopped
  | turned {t : Turn} {s : State} : WriteBy id (.turn t id) (.turn (.reread s)) (t.set s)
  | killed {s : State} : WriteBy id (.kill id) (.kill (.signalled s)) s.setStopped

/-- A write comes from a running thread in the phase that makes it, and moves that thread on. -/
theorem Writes.writer {s : State} (hc : Conforming c) (h : Writes id s c a)
    (hs : system.step c a = some c') :
    ∃ (i : Nat) (th th' : SysThread), c.threads[i]? = some th ∧ Running th ∧
      WriteBy id (kindOf th) (phaseOf th) s ∧ c'.threads[i]? = some th' ∧ kindOf th' = kindOf th ∧
      phaseOf th' =
        (kindOf th).next (phaseOf th) (.write (stateJson id) (.state s)) (.ok ()) := by
  obtain ⟨⟨i, ev⟩, he, hw⟩ := h
  cases wrote_some hw
  obtain ⟨th, k, ch, hi, hrun, hd, -, hi', hph⟩ := event_thread hc he hs
  refine ⟨i, th, _, hi, hrun, ?_, hi', rfl, hph⟩
  generalize kindOf th = k at hd ⊢
  generalize phaseOf th = g at hd ⊢
  cases hd with
  | quiet hq => contradiction
  | writeCreating h hpid => exact .creating h hpid
  | writeCreated => exact .created
  | writeStopped => exact .stopped
  | writeTurn => exact .turned
  | writeKilled => exact .killed
  | looks hl => contradiction

/-! ### The bundle -/

def removes (id : String) : Sys.Ev → Bool
  | ⟨.removeDirAll p, _⟩ => p = .bundle id
  | _ => false

/-- Nobody removes the bundle. -/
def Undeleted (id : String) (c : SysConf) (a : SysAction) : Prop :=
  ∀ e ∈ system.event c a, removes id e.2 = false

instance : Decidable (Undeleted id c a) :=
  inferInstanceAs (Decidable (∀ e ∈ system.event c a, removes id e.2 = false))

/-- Only a removal takes the bundle away. -/
theorem World.exec_stays {w w' : World} {t : Nat} {op : Op} {ch : Choice} {r : op.Ret}
    (h : w.exec t op ch = some (r, w')) (hop : removes id ⟨op, r⟩ = false)
    (hb : (w.bundle id).isSome) : (w'.bundle id).isSome := by
  by_cases hm : op.makesOrRemoves = some id
  · unfold Op.makesOrRemoves at hm
    split at hm <;> cases hm
    · rcases exec_createDirAll h with ⟨-, h⟩ | ⟨-, -, rfl⟩
      · exact h
      · exact hb
    · rename_i f
      cases ch with
      | err e =>
        obtain ⟨-, rfl⟩ : Except.error e = r ∧ w = w' := by simpa [exec, Op.failure] using h
        exact hb
      | part e => simp [exec, runPart] at h
      | run n =>
        obtain ⟨-, rfl⟩ : Except.ok () = r ∧ w.makeDirs (.inBundle id f) = w' := by
          simpa [exec, run] using h
        simp [makeDirs]
    · simp [removes] at hop
  · rw [exec_isSome h hm]
    exact hb

theorem Undeleted.stays (h : Undeleted id c a) (hs : system.step c a = some c')
    (hb : (c.world.bundle id).isSome) : (c'.world.bundle id).isSome := by
  rcases step_world hs with ⟨i, op, r, ch, he, hx⟩ | e | ⟨e, -, he⟩ | ⟨t, -, e⟩
  · exact World.exec_stays hx (h _ he) hb
  · rw [e]
    exact hb
  · rw [World.env_bundle he]
    exact hb
  · rw [e, World.crash_isSome]
    exact hb

/-! ### A sample host -/

def sampleConfig : Config where
  ociVersion := "1.0.1"
  process := some ⟨none, some ["/bin/sh"], "/"⟩
  root := some ⟨"./rootfs", none⟩
  mounts := none
  hostname := none

/-- A host with one configuration and the controllers enabled, on which nothing has run. -/
def sampleHost : World where
  bundle _ := none
  orphans _ := 0
  cgroup _ := false
  files
    | .host "cfg/config.json" => some (.config sampleConfig)
    | .controllers _ | .subtreeControl _ => some (.text "cpu memory")
    | _ => none
  gate _ := false
  procs := []
  up := false
  events := []
  daemon := .new

/-- The same with the daemon up. -/
def daemonHost : World := { sampleHost with up := true }

/-- Thread `t` makes its next call, and it takes effect. -/
abbrev go (t : Nat) : SysAction := .call t (.run 0)
/-- `n` calls of thread `t` in a row. -/
abbrev goes (n t : Nat) : List SysAction := List.replicate n (go t)

/-- `create` up to the wait for a connection, without a daemon; its child has pid 7. -/
def supervise (id : String) : List SysAction :=
  [.invoke (.create id "cfg" none)] ++ goes 18 0 ++ [.call 0 (.run 7)] ++ goes 38 0

/-- The first `n` calls of `start`. -/
def begin (id : String) (n : Nat) : List SysAction := [.invoke (.turn .start id)] ++ goes n 2

/-- The same by the shim, with the daemon up. -/
def superviseShim (id : String) : List SysAction :=
  [.invoke (.shim id "cfg" getEventSocketPath)] ++ goes 20 0 ++ [.call 0 (.run 7)] ++ goes 40 0

/-- The supervisor is let through, and the child fails to mount and ends. -/
def childFails : List SysAction :=
  goes 2 0 ++ [.call 1 (.err .ebusy), go 1, .env (.exit 7 (.exited 1))]

/-- The supervisor without a daemon writes down that the child has ended. -/
def finish : List SysAction := childFails ++ goes 3 0

end Clonebox
