import Mathlib.Logic.Function.Basic

/-! # Programs over a signature of calls

A program is a tree of calls to its surroundings: it returns, fails, ends without returning, or
issues a call and continues with the answer. The same tree is run alone or interleaved with
others (`Machine`), one call at a time.

A *protocol* is an automaton over calls and answers. `Prog.Obeys P Q g p` says that from phase
`g` the program `p` issues only calls that `P` allows, whatever the answers are, and that it ends
in a phase and with a result that satisfy `Q`. -/

namespace Conc

/-- The calls a program may issue and the type of the answer to each. -/
structure Sig where
  Op : Type
  Ret : Op → Type

/-- A call together with its answer. -/
abbrev Sig.Ev (S : Sig) := Σ op : S.Op, S.Ret op

/-- A program that issues calls of `S`, fails with `ε` or returns `α`. -/
inductive Prog (S : Sig) (ε α : Type) where
  | ret (a : α)
  | fail (e : ε)
  /-- The process ends here: nothing after this point runs. -/
  | halt
  | call (op : S.Op) (k : S.Ret op → Prog S ε α)

variable {S : Sig} {ε ε' α β γ Φ : Type}

namespace Prog

def bind : Prog S ε α → (α → Prog S ε β) → Prog S ε β
  | .ret a, f => f a
  | .fail e, _ => .fail e
  | .halt, _ => .halt
  | .call op k, f => .call op fun r => (k r).bind f

instance : Monad (Prog S ε) where
  pure := .ret
  bind := bind

/-- Issue one call and return its answer. -/
def ask (op : S.Op) : Prog S ε (S.Ret op) := .call op .ret

/-- The value of a result, or failure with its error. -/
def ofExcept : Except ε α → Prog S ε α
  | .ok a => .ret a
  | .error e => .fail e

def throwIf (c : Prop) [Decidable c] (e : ε) : Prog S ε Unit :=
  if c then .fail e else .ret ()

def mapError (f : ε → ε') : Prog S ε α → Prog S ε' α
  | .ret a => .ret a
  | .fail e => .fail (f e)
  | .halt => .halt
  | .call op k => .call op fun r => (k r).mapError f

/-- Run to the end and return the result, a failure included. -/
def attempt : Prog S ε α → Prog S ε' (Except ε α)
  | .ret a => .ret (.ok a)
  | .fail e => .ret (.error e)
  | .halt => .halt
  | .call op k => .call op fun r => (k r).attempt

@[simp] theorem pure_def (a : α) : (pure a : Prog S ε α) = .ret a := rfl
@[simp] theorem bind_def (p : Prog S ε α) (f : α → Prog S ε β) : (p >>= f) = p.bind f := rfl

theorem bind_assoc (p : Prog S ε α) (f : α → Prog S ε β) (g : β → Prog S ε γ) :
    (p.bind f).bind g = p.bind fun a => (f a).bind g := by
  induction p with
  | ret | fail | halt => rfl
  | call op k ih => exact congrArg (call op) (funext ih)

end Prog

/-! ### Protocols -/

/-- An automaton over calls: which calls a phase allows, the phase after each answer, and the phases
in which a program may end without returning. -/
structure Proto (S : Sig) (Φ : Type) where
  may : Φ → S.Op → Prop
  next : Φ → (op : S.Op) → S.Ret op → Φ
  halts : Φ → Prop

/-- The phase after a sequence of answered calls. -/
def Proto.phase (P : Proto S Φ) (g : Φ) (tr : List S.Ev) : Φ :=
  tr.foldl (fun g ev => P.next g ev.1 ev.2) g

@[simp] theorem Proto.phase_nil (P : Proto S Φ) (g : Φ) : P.phase g [] = g := rfl

@[simp] theorem Proto.phase_snoc (P : Proto S Φ) (g : Φ) (tr : List S.Ev) (ev : S.Ev) :
    P.phase g (tr ++ [ev]) = P.next (P.phase g tr) ev.1 ev.2 := by
  simp [Proto.phase]

/-- Every call of the sequence is allowed where it is made. -/
def Proto.Follows (P : Proto S Φ) : Φ → List S.Ev → Prop
  | _, [] => True
  | g, ev :: tr => P.may g ev.1 ∧ P.Follows (P.next g ev.1 ev.2) tr

namespace Proto.Follows

variable {P : Proto S Φ} {g : Φ} {tr : List S.Ev} {ev : S.Ev}

theorem snoc (h : P.Follows g tr) (hev : P.may (P.phase g tr) ev.1) :
    P.Follows g (tr ++ [ev]) := by
  induction tr generalizing g with
  | nil => exact ⟨hev, trivial⟩
  | cons ev' tr ih => exact ⟨h.1, ih h.2 hev⟩

/-- Each call was allowed in the phase it was made in. -/
theorem at_split {tr₂ : List S.Ev} (h : P.Follows g (tr ++ ev :: tr₂)) :
    P.may (P.phase g tr) ev.1 := by
  induction tr generalizing g with
  | nil => exact h.1
  | cons ev' tr ih => exact ih h.2

theorem keeps {I : Φ → Prop} (h : P.Follows g tr)
    (hI : ∀ g op r, P.may g op → I g → I (P.next g op r)) (hg : I g) : I (P.phase g tr) := by
  induction tr generalizing g with
  | nil => exact hg
  | cons ev' tr ih => exact ih h.2 (hI _ _ _ h.1 hg)

/-- What an answer brings about and no later call undoes holds at the end. -/
theorem after {I : Φ → Prop} (h : P.Follows g tr) (hmem : ev ∈ tr)
    (hev : ∀ g, P.may g ev.1 → I (P.next g ev.1 ev.2))
    (hI : ∀ g op r, P.may g op → I g → I (P.next g op r)) : I (P.phase g tr) := by
  induction tr generalizing g with
  | nil => contradiction
  | cons ev' tr ih =>
    rcases List.mem_cons.mp hmem with rfl | hmem
    · exact h.2.keeps hI (hev g h.1)
    · exact ih h.2 hmem

/-- What holds of a phase and the answers that led to it. -/
theorem history {J : Φ → List S.Ev → Prop} {pre : List S.Ev} (h : P.Follows g tr) (hJ : J g pre)
    (hstep : ∀ g tr (ev : S.Ev), P.may g ev.1 → J g tr → J (P.next g ev.1 ev.2) (tr ++ [ev])) :
    J (P.phase g tr) (pre ++ tr) := by
  induction tr generalizing g pre with
  | nil => rwa [List.append_nil]
  | cons ev' tr ih =>
    rw [List.append_cons]
    exact ih h.2 (hstep _ _ _ h.1 hJ)

/-- What holds at the end and not at the start was brought about by one of the answers. -/
theorem cause {I : Φ → Prop} (h : P.Follows g tr) (hg : ¬I g) (hI : I (P.phase g tr)) :
    ∃ ev ∈ tr, ∃ g', P.may g' ev.1 ∧ ¬I g' ∧ I (P.next g' ev.1 ev.2) := by
  induction tr generalizing g with
  | nil => exact (hg hI).elim
  | cons ev' tr ih =>
    by_cases hn : I (P.next g ev'.1 ev'.2)
    · exact ⟨ev', List.mem_cons_self, g, h.1, hg, hn⟩
    · obtain ⟨ev, hmem, hev⟩ := ih h.2 hn hI
      exact ⟨ev, List.mem_cons_of_mem _ hmem, hev⟩

end Proto.Follows

namespace Prog

variable {P : Proto S Φ} {Q Q' : Φ → Except ε α → Prop} {g : Φ}

/-- From phase `g` the program issues only allowed calls and ends as `Q` says. -/
def Obeys (P : Proto S Φ) (Q : Φ → Except ε α → Prop) : Φ → Prog S ε α → Prop
  | g, .ret a => Q g (.ok a)
  | g, .fail e => Q g (.error e)
  | g, .halt => P.halts g
  | g, .call op k => P.may g op ∧ ∀ r, Obeys P Q (P.next g op r) (k r)

@[simp] theorem obeys_ret {a : α} : Obeys P Q g (.ret a) ↔ Q g (.ok a) := .rfl
@[simp] theorem obeys_fail {e : ε} : Obeys P Q g (.fail e) ↔ Q g (.error e) := .rfl
@[simp] theorem obeys_halt : Obeys P Q g .halt ↔ P.halts g := .rfl

theorem obeys_call {op : S.Op} {k : S.Ret op → Prog S ε α} :
    Obeys P Q g (.call op k) ↔ P.may g op ∧ ∀ r, Obeys P Q (P.next g op r) (k r) := .rfl

@[simp] theorem obeys_ask {op : S.Op} {Q : Φ → Except ε (S.Ret op) → Prop} :
    Obeys P Q g (ask op) ↔ P.may g op ∧ ∀ r, Q (P.next g op r) (.ok r) := .rfl

theorem Obeys.mono {p : Prog S ε α} (h : Obeys P Q g p) (hQ : ∀ g r, Q g r → Q' g r) :
    Obeys P Q' g p := by
  induction p generalizing g with
  | ret | fail => exact hQ _ _ h
  | halt => exact h
  | call op k ih => exact ⟨h.1, fun r => ih r (h.2 r)⟩

/-- A protocol that lets a program end in more phases is kept too. -/
theorem Obeys.weaken {p : Prog S ε α} {H : Φ → Prop} (h : Obeys P Q g p)
    (hH : ∀ g, P.halts g → H g) : Obeys ⟨P.may, P.next, H⟩ Q g p := by
  induction p generalizing g with
  | ret | fail => exact h
  | halt => exact hH _ h
  | call op k ih => exact ⟨h.1, fun r => ih r (h.2 r)⟩

/-- How the end of a program continues in its sequel: a value is passed on, a failure ends it. -/
def andThen (P : Proto S Φ) (Q : Φ → Except ε β → Prop) (f : α → Prog S ε β) :
    Φ → Except ε α → Prop
  | g, .ok a => Obeys P Q g (f a)
  | g, .error e => Q g (.error e)

@[simp] theorem andThen_ok {Q : Φ → Except ε β → Prop} {f : α → Prog S ε β} {a : α} :
    andThen P Q f g (.ok a) ↔ Obeys P Q g (f a) := .rfl
@[simp] theorem andThen_error {Q : Φ → Except ε β → Prop} {f : α → Prog S ε β} {e : ε} :
    andThen P Q f g (.error e) ↔ Q g (.error e) := .rfl

@[simp] theorem obeys_bind {p : Prog S ε α} {f : α → Prog S ε β} {Q : Φ → Except ε β → Prop} :
    Obeys P Q g (p.bind f) ↔ Obeys P (andThen P Q f) g p := by
  induction p generalizing g with
  | ret | fail | halt => rfl
  | call op k ih => exact and_congr .rfl (forall_congr' fun r => ih r)

@[simp] theorem obeys_mapError {f : ε → ε'} {p : Prog S ε α} {Q : Φ → Except ε' α → Prop} :
    Obeys P Q g (p.mapError f) ↔ Obeys P (fun g r => Q g (r.mapError f)) g p := by
  induction p generalizing g with
  | ret | fail | halt => rfl
  | call op k ih => exact and_congr .rfl (forall_congr' fun r => ih r)

@[simp] theorem obeys_attempt {p : Prog S ε α} {Q : Φ → Except ε' (Except ε α) → Prop} :
    Obeys P Q g p.attempt ↔ Obeys P (fun g r => Q g (.ok r)) g p := by
  induction p generalizing g with
  | ret | fail | halt => rfl
  | call op k ih => exact and_congr .rfl (forall_congr' fun r => ih r)

@[simp] theorem obeys_ite {c : Prop} [Decidable c] {p q : Prog S ε α} :
    Obeys P Q g (if c then p else q) ↔ (c → Obeys P Q g p) ∧ (¬c → Obeys P Q g q) := by
  by_cases h : c <;> simp [h]

@[simp] theorem obeys_ofExcept {r : Except ε α} : Obeys P Q g (ofExcept r) ↔ Q g r := by
  cases r <;> rfl

@[simp] theorem obeys_throwIf {c : Prop} [Decidable c] {e : ε} {Q : Φ → Except ε Unit → Prop} :
    Obeys P Q g (throwIf c e) ↔ (c → Q g (.error e)) ∧ (¬c → Q g (.ok ())) := by
  by_cases h : c <;> simp [throwIf, h]

/-- Every call the program can issue satisfies `φ`. -/
def Calls (φ : S.Op → Prop) (p : Prog S ε α) : Prop :=
  Obeys (⟨fun _ => φ, fun g _ _ => g, fun _ => True⟩ : Proto S Unit) (fun _ _ => True) () p

variable {φ ψ : S.Op → Prop}

@[simp] theorem calls_ret {a : α} : Calls φ (.ret a : Prog S ε α) := trivial
@[simp] theorem calls_fail {e : ε} : Calls φ (.fail e : Prog S ε α) := trivial
@[simp] theorem calls_halt : Calls φ (.halt : Prog S ε α) := trivial

@[simp] theorem calls_ask {op : S.Op} : Calls φ (ask op : Prog S ε _) ↔ φ op := by
  simp [Calls]

theorem Calls.mono {p : Prog S ε α} (h : Calls φ p) (hφ : ∀ op, φ op → ψ op) : Calls ψ p := by
  induction p with
  | ret | fail | halt => trivial
  | call op k ih => exact ⟨hφ _ h.1, fun r => ih r (h.2 r)⟩

theorem Calls.bind {p : Prog S ε α} {f : α → Prog S ε β} (hp : Calls φ p)
    (hf : ∀ a, Calls φ (f a)) : Calls φ (p.bind f) := by
  induction p with
  | ret a => exact hf a
  | fail | halt => trivial
  | call op k ih => exact ⟨hp.1, fun r => ih r (hp.2 r)⟩

theorem Calls.mapError {f : ε → ε'} {p : Prog S ε α} (h : Calls φ p) :
    Calls φ (p.mapError f) := by
  induction p with
  | ret | fail | halt => trivial
  | call op k ih => exact ⟨h.1, fun r => ih r (h.2 r)⟩

theorem Calls.attempt {p : Prog S ε α} (h : Calls φ p) :
    Calls φ (p.attempt : Prog S ε' _) := by
  induction p with
  | ret | fail | halt => trivial
  | call op k ih => exact ⟨h.1, fun r => ih r (h.2 r)⟩

@[simp] theorem calls_throwIf {c : Prop} [Decidable c] {e : ε} :
    Calls φ (throwIf c e : Prog S ε Unit) := by
  by_cases h : c <;> simp [throwIf, h]

@[simp] theorem calls_ofExcept {r : Except ε α} : Calls φ (ofExcept r : Prog S ε α) := by
  cases r <;> trivial

/-- Calls that a protocol always allows and that never change its phase can be skipped. -/
theorem Calls.obeys {p : Prog S ε α} (h : Calls φ p)
    (hφ : ∀ op, φ op → P.may g op ∧ ∀ r, P.next g op r = g) (hg : P.halts g)
    (hQ : ∀ r, Q g r) : Obeys P Q g p := by
  induction p with
  | ret | fail => exact hQ _
  | halt => exact hg
  | call op k ih =>
    refine ⟨(hφ op h.1).1, fun r => ?_⟩
    rw [(hφ op h.1).2 r]
    exact ih r (h.2 r)

/-- The calls a program issues are those of any protocol it obeys. -/
theorem Obeys.calls {p : Prog S ε α} (h : Obeys P Q g p) (hφ : ∀ g op, P.may g op → φ op) :
    Calls φ p := by
  induction p generalizing g with
  | ret | fail | halt => trivial
  | call op k ih => exact ⟨hφ _ _ h.1, fun r => ih r (h.2 r)⟩

/-! ### Alone -/

/-- Run a program by itself, each call of which takes effect at once. A program that waits, or ends
without returning, has no outcome. -/
def alone {W : Type} (exec : W → (op : S.Op) → Option (S.Ret op × W)) :
    W → Prog S ε α → Option (Except ε α × W)
  | w, .ret a => some (.ok a, w)
  | w, .fail e => some (.error e, w)
  | _, .halt => none
  | w, .call op k =>
    match exec w op with
    | none => none
    | some (r, w') => alone exec w' (k r)

theorem alone_ask {W : Type} {exec : W → (op : S.Op) → Option (S.Ret op × W)} {w w' : W} {op : S.Op}
    {r : S.Ret op} (h : exec w op = some (r, w')) :
    alone exec w (ask op : Prog S ε (S.Ret op)) = some (.ok r, w') := by
  simp only [ask, alone, h]

/-- A sequence whose first part returns goes on from there. -/
theorem alone_bind {W : Type} {exec : W → (op : S.Op) → Option (S.Ret op × W)} {w w' : W}
    {p : Prog S ε α} {f : α → Prog S ε β} {a : α} (h : alone exec w p = some (.ok a, w')) :
    alone exec w (p.bind f) = alone exec w' (f a) := by
  induction p generalizing w with
  | ret b =>
    cases h
    rfl
  | fail e => cases h
  | halt => cases h
  | call op k ih =>
    simp only [bind, alone] at h ⊢
    cases hx : exec w op with
    | none =>
      rw [hx] at h
      cases h
    | some next =>
      rw [hx] at h
      exact ih _ h

/-- A sequence whose first part fails ends there. -/
theorem alone_bind_error {W : Type} {exec : W → (op : S.Op) → Option (S.Ret op × W)} {w w' : W}
    {p : Prog S ε α} {f : α → Prog S ε β} {e : ε} (h : alone exec w p = some (.error e, w')) :
    alone exec w (p.bind f) = some (.error e, w') := by
  induction p generalizing w with
  | ret b => cases h
  | fail e' =>
    cases h
    rfl
  | halt => cases h
  | call op k ih =>
    simp only [bind, alone] at h ⊢
    cases hx : exec w op with
    | none =>
      rw [hx] at h
      cases h
    | some next =>
      rw [hx] at h
      exact ih _ h

end Prog
end Conc
