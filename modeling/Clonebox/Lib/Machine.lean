import Clonebox.Lib.Prog
import Clonebox.Lib.Steps

/-! # Programs interleaved over a shared world

A machine runs any number of threads over one world. A step lets one thread issue its next call,
starts a new program, lets the environment act, or ends a thread at an arbitrary point. Each
thread keeps the trace of its answered calls, so the phase of a protocol it obeys can be read off
its trace. The main rule is `Steps.conforms`: if every program that can be started obeys its
protocol, then in every reachable configuration every thread does, from the phase its trace has
reached. -/

namespace Conc

/-- What the threads run over. `M` names the programs that can be started, `C` resolves what a
call leaves open (its failure, a fresh number), `E` are the steps of the environment. -/
structure Machine (S : Sig) (ε ρ W C E M : Type) where
  prog : M → Prog S ε ρ
  exec : W → Nat → (op : S.Op) → C → Option (S.Ret op × W)
  /-- The answer the same call gives in a copy of the calling thread, if the call copies it. -/
  fork : (op : S.Op) → S.Ret op → Option (S.Ret op)
  /-- The program an answered call has started, if any. -/
  spawn : (op : S.Op) → S.Ret op → Option M
  /-- Whether a program can be started from outside now. -/
  invocable : W → M → Bool
  env : W → E → Option W
  /-- The environment steps that end every thread of a program. -/
  halts : E → M → Bool
  /-- What the end of a thread leaves of the world. -/
  crash : W → Nat → W

/-- A running program: what it was started as, by which thread, what is left of it, the calls
answered so far, and whether it was ended from outside. -/
structure Thread (S : Sig) (ε ρ M : Type) where
  main : M
  parent : Option Nat
  prog : Prog S ε ρ
  trace : List S.Ev
  stopped : Bool

structure Conf (S : Sig) (ε ρ W M : Type) where
  world : W
  threads : List (Thread S ε ρ M)

inductive Action (C E M : Type) where
  /-- Thread `t` issues its next call. -/
  | call (t : Nat) (ch : C)
  | invoke (m : M)
  | env (e : E)
  /-- Thread `t` ends where it is. -/
  | crash (t : Nat)

variable {S : Sig} {ε ρ W C E M Φ : Type}

namespace Thread

def start (prog : M → Prog S ε ρ) (parent : Option Nat) (m : M) : Thread S ε ρ M :=
  ⟨m, parent, prog m, [], false⟩

def answer (th : Thread S ε ρ M) (op : S.Op) (k : S.Ret op → Prog S ε ρ) (r : S.Ret op) :
    Thread S ε ρ M :=
  { th with prog := k r, trace := th.trace ++ [⟨op, r⟩] }

/-- End a thread from outside. -/
def stop (th : Thread S ε ρ M) : Thread S ε ρ M := { th with stopped := true }

@[simp] theorem start_main {prog : M → Prog S ε ρ} {p m} : (start prog p m).main = m := rfl
@[simp] theorem start_parent {prog : M → Prog S ε ρ} {p m} : (start prog p m).parent = p := rfl
@[simp] theorem start_prog {prog : M → Prog S ε ρ} {p m} : (start prog p m).prog = prog m := rfl
@[simp] theorem start_trace {prog : M → Prog S ε ρ} {p m} : (start prog p m).trace = [] := rfl
@[simp] theorem start_stopped {prog : M → Prog S ε ρ} {p m} :
    (start prog p m).stopped = false := rfl

variable {th : Thread S ε ρ M} {op : S.Op} {k : S.Ret op → Prog S ε ρ} {r : S.Ret op}

@[simp] theorem answer_main : (th.answer op k r).main = th.main := rfl
@[simp] theorem answer_parent : (th.answer op k r).parent = th.parent := rfl
@[simp] theorem answer_prog : (th.answer op k r).prog = k r := rfl
@[simp] theorem answer_trace : (th.answer op k r).trace = th.trace ++ [⟨op, r⟩] := rfl

@[simp] theorem answer_stopped : (th.answer op k r).stopped = th.stopped := rfl

@[simp] theorem stop_main : th.stop.main = th.main := rfl
@[simp] theorem stop_parent : th.stop.parent = th.parent := rfl
@[simp] theorem stop_prog : th.stop.prog = th.prog := rfl
@[simp] theorem stop_trace : th.stop.trace = th.trace := rfl
@[simp] theorem stop_stopped : th.stop.stopped = true := rfl

end Thread

namespace Machine

variable (K : Machine S ε ρ W C E M)

/-- The threads that come into being when a call of thread `t` is answered by `r`. -/
def born (t : Nat) (th : Thread S ε ρ M) (op : S.Op) (k : S.Ret op → Prog S ε ρ)
    (r : S.Ret op) : List (Thread S ε ρ M) :=
  ((K.fork op r).map fun r' => { th.answer op k r' with parent := some t }).toList ++
    ((K.spawn op r).map (Thread.start K.prog (some t))).toList

def step (c : Conf S ε ρ W M) : Action C E M → Option (Conf S ε ρ W M)
  | .call t ch =>
    match c.threads[t]? with
    | none => none
    | some th =>
      match th.stopped, th.prog with
      | false, .call op k =>
        match K.exec c.world t op ch with
        | none => none
        | some (r, w) => some ⟨w, c.threads.set t (th.answer op k r) ++ K.born t th op k r⟩
      | _, _ => none
  | .invoke m =>
    if K.invocable c.world m then some { c with threads := c.threads ++ [.start K.prog none m] }
    else none
  | .env e =>
    match K.env c.world e with
    | none => none
    | some w => some ⟨w, c.threads.map fun th => if K.halts e th.main then th.stop else th⟩
  | .crash t =>
    match c.threads[t]? with
    | none => none
    | some th => some ⟨K.crash c.world t, c.threads.set t th.stop⟩

/-- The call a step answers, with its answer and the thread that made it. -/
def event (c : Conf S ε ρ W M) : Action C E M → Option (Nat × S.Ev)
  | .call t ch =>
    match c.threads[t]? with
    | none => none
    | some th =>
      match th.stopped, th.prog with
      | false, .call op _ => (K.exec c.world t op ch).map fun x => (t, ⟨op, x.1⟩)
      | _, _ => none
  | _ => none

variable {K} {c c' : Conf S ε ρ W M}

theorem event_some {a : Action C E M} {t : Nat} {op : S.Op} {r : S.Ret op}
    (h : K.event c a = some (t, ⟨op, r⟩)) : ∃ th k ch w, a = .call t ch ∧
      c.threads[t]? = some th ∧ th.stopped = false ∧ th.prog = .call op k ∧
      K.exec c.world t op ch = some (r, w) ∧
      K.step c a = some ⟨w, c.threads.set t (th.answer op k r) ++ K.born t th op k r⟩ := by
  cases a with
  | call t' ch =>
    simp only [event] at h
    split at h <;> try contradiction
    rename_i th hth
    split at h <;> try contradiction
    rename_i op' k hst hp
    obtain ⟨⟨r', w⟩, hx, he⟩ := Option.map_eq_some_iff.mp h
    cases he
    exact ⟨th, k, ch, w, rfl, hth, hst, hp, hx, by simp [step, hth, hst, hp, hx]⟩
  | invoke | env | crash => contradiction

theorem event_of_exec {t : Nat} {th : Thread S ε ρ M} {op : S.Op} {k : S.Ret op → Prog S ε ρ}
    {ch : C} {r : S.Ret op} {w : W} (ht : c.threads[t]? = some th) (hst : th.stopped = false)
    (hp : th.prog = .call op k) (hx : K.exec c.world t op ch = some (r, w)) :
    K.event c (.call t ch) = some (t, ⟨op, r⟩) := by
  simp [event, ht, hst, hp, hx]

theorem step_of_exec {t : Nat} {th : Thread S ε ρ M} {op : S.Op} {k : S.Ret op → Prog S ε ρ}
    {ch : C} {r : S.Ret op} {w : W} (ht : c.threads[t]? = some th) (hst : th.stopped = false)
    (hp : th.prog = .call op k) (hx : K.exec c.world t op ch = some (r, w)) :
    K.step c (.call t ch) = some ⟨w, c.threads.set t (th.answer op k r) ++ K.born t th op k r⟩ := by
  simp [step, ht, hst, hp, hx]

theorem step_call {t : Nat} {ch : C} (h : K.step c (.call t ch) = some c') :
    ∃ th op k r w, c.threads[t]? = some th ∧ th.stopped = false ∧ th.prog = .call op k ∧
      K.exec c.world t op ch = some (r, w) ∧
      c' = ⟨w, c.threads.set t (th.answer op k r) ++ K.born t th op k r⟩ := by
  simp only [step] at h
  split at h <;> try contradiction
  rename_i th hth
  split at h <;> try contradiction
  rename_i op k hst hp
  split at h <;> try contradiction
  rename_i r w hx
  exact ⟨th, op, k, r, w, hth, hst, hp, hx, (Option.some.inj h).symm⟩

theorem step_invoke {m : M} (h : K.step c (.invoke m) = some c') :
    K.invocable c.world m = true ∧ c' = ⟨c.world, c.threads ++ [.start K.prog none m]⟩ := by
  simp only [step] at h
  split at h <;> try contradiction
  rename_i hm
  exact ⟨hm, (Option.some.inj h).symm⟩

theorem step_env {e : E} (h : K.step c (.env e) = some c') :
    ∃ w, K.env c.world e = some w ∧
      c' = ⟨w, c.threads.map fun th => if K.halts e th.main then th.stop else th⟩ := by
  simp only [step] at h
  split at h <;> try contradiction
  rename_i w hw
  exact ⟨w, hw, (Option.some.inj h).symm⟩

theorem step_crash {t : Nat} (h : K.step c (.crash t) = some c') :
    ∃ th, c.threads[t]? = some th ∧ c' = ⟨K.crash c.world t, c.threads.set t th.stop⟩ := by
  simp only [step] at h
  split at h <;> try contradiction
  rename_i th hth
  exact ⟨th, hth, (Option.some.inj h).symm⟩

/-- Where a thread of the configuration after a step comes from. -/
inductive Origin (K : Machine S ε ρ W C E M) (c : Conf S ε ρ W M) (a : Action C E M)
    (c' : Conf S ε ρ W M) (i : Nat) (th' : Thread S ε ρ M) : Prop
  | same (h : c.threads[i]? = some th')
  | stopped {th} (h : c.threads[i]? = some th) (e : th' = th.stop)
  | answered {th op k r ch} (ha : a = .call i ch) (h : c.threads[i]? = some th)
      (hst : th.stopped = false) (hp : th.prog = .call op k)
      (hx : K.exec c.world i op ch = some (r, c'.world)) (e : th' = th.answer op k r)
  | invoked {m} (ha : a = .invoke m) (h : c.threads[i]? = none)
      (hm : K.invocable c.world m = true) (e : th' = .start K.prog none m)
  | forked {t th op k r r' ch} (ha : a = .call t ch) (ht : c.threads[t]? = some th)
      (hst : th.stopped = false) (hp : th.prog = .call op k) (hx : K.exec c.world t op ch = some (r, c'.world))
      (hf : K.fork op r = some r') (h : c.threads[i]? = none)
      (e : th' = { th.answer op k r' with parent := some t })
  | spawned {t th op k r m ch} (ha : a = .call t ch) (ht : c.threads[t]? = some th)
      (hst : th.stopped = false) (hp : th.prog = .call op k) (hx : K.exec c.world t op ch = some (r, c'.world))
      (hs : K.spawn op r = some m) (h : c.threads[i]? = none)
      (e : th' = .start K.prog (some t) m)

theorem mem_born {t : Nat} {th th' : Thread S ε ρ M} {op : S.Op} {k : S.Ret op → Prog S ε ρ}
    {r : S.Ret op} : th' ∈ K.born t th op k r ↔
      (∃ r', K.fork op r = some r' ∧ th' = { th.answer op k r' with parent := some t }) ∨
        ∃ m, K.spawn op r = some m ∧ th' = .start K.prog (some t) m := by
  simp only [born, List.mem_append, Option.mem_toList, Option.map_eq_some_iff, @eq_comm _ th']

theorem step_origin {a : Action C E M} {i : Nat} {th' : Thread S ε ρ M}
    (h : K.step c a = some c') (hi : c'.threads[i]? = some th') : Origin K c a c' i th' := by
  cases a with
  | call t ch =>
    obtain ⟨th, op, k, r, w, ht, hst, hp, hx, rfl⟩ := step_call h
    have hlen : t < c.threads.length := (List.getElem?_eq_some_iff.mp ht).1
    rw [List.getElem?_append, List.length_set] at hi
    split at hi
    · rename_i hlt
      by_cases e : t = i
      · subst e
        rw [List.getElem?_set_self hlen] at hi
        exact .answered rfl ht hst hp hx (Option.some.inj hi).symm
      · rw [List.getElem?_set_ne e] at hi
        exact .same hi
    · rename_i hge
      have hnone : c.threads[i]? = none := List.getElem?_eq_none_iff.mpr (Nat.le_of_not_lt hge)
      rcases mem_born.mp (List.mem_of_getElem? hi) with ⟨r', hf, e⟩ | ⟨m, hs, e⟩
      · exact .forked rfl ht hst hp hx hf hnone e
      · exact .spawned rfl ht hst hp hx hs hnone e
  | invoke m =>
    obtain ⟨hm, rfl⟩ := step_invoke h
    rw [List.getElem?_append] at hi
    split at hi
    · exact .same hi
    · rename_i hge
      have hnone : c.threads[i]? = none := List.getElem?_eq_none_iff.mpr (Nat.le_of_not_lt hge)
      exact .invoked rfl hnone hm (List.mem_singleton.mp (List.mem_of_getElem? hi))
  | env e =>
    obtain ⟨w, hw, rfl⟩ := step_env h
    rw [List.getElem?_map] at hi
    obtain ⟨th, ht, rfl⟩ := Option.map_eq_some_iff.mp hi
    split
    · exact .stopped ht rfl
    · exact .same ht
  | crash t =>
    obtain ⟨th, ht, rfl⟩ := step_crash h
    by_cases e : t = i
    · subst e
      rw [List.getElem?_set_self (List.getElem?_eq_some_iff.mp ht).1] at hi
      exact .stopped ht (Option.some.inj hi).symm
    · rw [List.getElem?_set_ne e] at hi
      exact .same hi

/-- A thread stays where it is: a step leaves it, ends it, or answers its next call. -/
theorem step_persists {a : Action C E M} {i : Nat} {th : Thread S ε ρ M}
    (h : K.step c a = some c') (hi : c.threads[i]? = some th) :
    ∃ th', c'.threads[i]? = some th' ∧ (th' = th ∨ th' = th.stop ∨ ∃ op k r ch,
      a = .call i ch ∧ th.stopped = false ∧ th.prog = .call op k ∧
        K.exec c.world i op ch = some (r, c'.world) ∧ th' = th.answer op k r) := by
  have hlen : i < c.threads.length := (List.getElem?_eq_some_iff.mp hi).1
  cases a with
  | call t ch =>
    obtain ⟨th₁, op, k, r, w, ht, hst, hp, hx, rfl⟩ := step_call h
    by_cases e : t = i
    · subst e
      cases hi.symm.trans ht
      refine ⟨th.answer op k r, ?_, .inr (.inr ⟨op, k, r, ch, rfl, hst, hp, hx, rfl⟩)⟩
      rw [List.getElem?_append_left (by simpa using hlen), List.getElem?_set_self hlen]
    · refine ⟨th, ?_, .inl rfl⟩
      rw [List.getElem?_append_left (by simpa using hlen), List.getElem?_set_ne e, hi]
  | invoke m =>
    obtain ⟨-, rfl⟩ := step_invoke h
    exact ⟨th, by rw [List.getElem?_append_left hlen, hi], .inl rfl⟩
  | env e =>
    obtain ⟨w, hw, rfl⟩ := step_env h
    refine ⟨if K.halts e th.main then th.stop else th, by simp [hi], ?_⟩
    split <;> simp
  | crash t =>
    obtain ⟨th₁, ht, rfl⟩ := step_crash h
    by_cases e : t = i
    · subst e
      cases hi.symm.trans ht
      exact ⟨th.stop, by simp [List.getElem?_set_self hlen], .inr (.inl rfl)⟩
    · exact ⟨th, by rw [List.getElem?_set_ne e, hi], .inl rfl⟩

/-- A thread that goes on after a step was not ended before it, nor by it. -/
theorem step_unstopped {a : Action C E M} {i : Nat} {th th' : Thread S ε ρ M}
    (h : K.step c a = some c') (hi : c.threads[i]? = some th) (hi' : c'.threads[i]? = some th')
    (hst : th'.stopped = false) : th.stopped = false ∧ a ≠ .crash i := by
  obtain ⟨th₁, hi₁, hth⟩ := step_persists h hi
  cases hi'.symm.trans hi₁
  refine ⟨?_, ?_⟩
  · rcases hth with rfl | rfl | ⟨_, _, _, _, _, hst₀, -⟩
    · exact hst
    · contradiction
    · exact hst₀
  · rintro rfl
    obtain ⟨th₀, hi₀, rfl⟩ := step_crash h
    rw [List.getElem?_set_self (List.getElem?_eq_some_iff.mp hi).1] at hi'
    cases hi'
    contradiction

/-! ### Conformance -/

/-- What each program promises: its protocol, the phase it starts in, and how it may end. -/
structure Contract (S : Sig) (ε ρ M Φ : Type) where
  proto : M → Proto S Φ
  init : M → Φ
  post : M → Φ → Except ε ρ → Prop

namespace Contract

variable (R : Contract S ε ρ M Φ)

/-- The phase a thread has reached. -/
def phase (th : Thread S ε ρ M) : Φ := (R.proto th.main).phase (R.init th.main) th.trace

/-- The thread has kept its protocol, and what is left of it obeys it from the phase reached. -/
structure Conforms (th : Thread S ε ρ M) : Prop where
  past : (R.proto th.main).Follows (R.init th.main) th.trace
  rest : th.prog.Obeys (R.proto th.main) (R.post th.main) (R.phase th)

variable {R} {th : Thread S ε ρ M} {op : S.Op} {k : S.Ret op → Prog S ε ρ} {r : S.Ret op}

@[simp] theorem phase_start {prog : M → Prog S ε ρ} {p m} :
    R.phase (.start prog p m) = R.init m := rfl

@[simp] theorem phase_answer :
    R.phase (th.answer op k r) = (R.proto th.main).next (R.phase th) op r := by
  simp [phase]

@[simp] theorem phase_answer_parent {p : Option Nat} :
    R.phase { th.answer op k r with parent := p } = (R.proto th.main).next (R.phase th) op r := by
  simp [phase]

@[simp] theorem phase_stop : R.phase th.stop = R.phase th := by simp [phase]

theorem Conforms.may (h : R.Conforms th) (hp : th.prog = .call op k) :
    (R.proto th.main).may (R.phase th) op := by
  have hrest := h.rest
  rw [hp] at hrest
  exact hrest.1

theorem Conforms.answer (h : R.Conforms th) (hp : th.prog = .call op k) :
    R.Conforms (th.answer op k r) := by
  have hrest := h.rest
  rw [hp] at hrest
  refine ⟨h.past.snoc hrest.1, ?_⟩
  rw [phase_answer]
  exact hrest.2 r

theorem Conforms.stop (h : R.Conforms th) : R.Conforms th.stop := ⟨h.past, h.rest⟩

theorem Conforms.start {prog : M → Prog S ε ρ} {p : Option Nat} {m : M}
    (h : (prog m).Obeys (R.proto m) (R.post m) (R.init m)) :
    R.Conforms (Thread.start prog p m) := ⟨trivial, h⟩

end Contract

/-- If every program that may be started keeps its contract, every thread of a reachable
configuration conforms, and only such programs are running. -/
theorem conforms_steps {R : Contract S ε ρ M Φ} {allowed : M → Prop}
    {ok : Conf S ε ρ W M → Action C E M → Prop}
    (hprog : ∀ m, allowed m → (K.prog m).Obeys (R.proto m) (R.post m) (R.init m))
    (hinvoke : ∀ c m, ok c (.invoke m) → allowed m)
    (hspawn : ∀ m g op r m', allowed m → (R.proto m).may g op → K.spawn op r = some m' →
      allowed m')
    (h : Steps K.step ok c c')
    (hc : ∀ (i : Nat) th, c.threads[i]? = some th → allowed th.main ∧ R.Conforms th) :
    ∀ (i : Nat) th, c'.threads[i]? = some th → allowed th.main ∧ R.Conforms th := by
  refine h.invariant (I := fun c => ∀ (i : Nat) th, c.threads[i]? = some th →
    allowed th.main ∧ R.Conforms th) ?_ hc
  intro c a c' ih hok hs i th' hi
  have hstart : ∀ {p m}, allowed m → R.Conforms (Thread.start K.prog p m) := fun hm =>
    .start (hprog _ hm)
  cases step_origin hs hi with
  | same h => exact ih i _ h
  | stopped h e => subst e; exact ⟨by simpa using (ih i _ h).1, (ih i _ h).2.stop⟩
  | answered ha h hst hp hx e => subst e; exact ⟨(ih i _ h).1, (ih i _ h).2.answer hp⟩
  | invoked ha h hm e =>
    subst e ha
    exact ⟨hinvoke _ _ hok, hstart (hinvoke _ _ hok)⟩
  | @forked t th op k r r' ch ha ht hst hp hx hf h e =>
    subst e
    have hcopy : R.Conforms (th.answer op k r') := (ih t _ ht).2.answer hp
    exact ⟨(ih t _ ht).1, hcopy.past, hcopy.rest⟩
  | spawned ha ht hst hp hx hs' h e =>
    subst e
    obtain ⟨hall, hcon⟩ := ih _ _ ht
    have hm := hspawn _ _ _ _ _ hall (hcon.may hp) hs'
    exact ⟨hm, hstart hm⟩

end Machine
end Conc
