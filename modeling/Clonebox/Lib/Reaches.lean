import Clonebox.Lib.Machine

/-! # How far a program has come

`Reaches p tr q`: answered along the trace `tr`, the program `p` has become `q`. What a program that
is composed of others has reached is found part by part: `of_bind`, `of_mapError`, `of_attempt`. -/

namespace Conc

variable {S : Sig} {ε ε' α β W C E M ρ : Type}

namespace Prog

inductive Reaches (p : Prog S ε α) : List S.Ev → Prog S ε α → Prop
  | nil : Reaches p [] p
  | snoc {tr : List S.Ev} {op : S.Op} {k : S.Ret op → Prog S ε α} {r : S.Ret op}
    (h : Reaches p tr (.call op k)) : Reaches p (tr ++ [⟨op, r⟩]) (k r)

/-- A part of the trace is a run of `p` to the end, with a value. -/
def Completed (p : Prog S ε α) (tr : List S.Ev) : Prop :=
  ∃ tr₀ tr₁ tr₂ a, tr = tr₀ ++ tr₁ ++ tr₂ ∧ Reaches p tr₁ (.ret a)

namespace Reaches

variable {p q : Prog S ε α} {f : α → Prog S ε β} {tr : List S.Ev} {ev : S.Ev} {φ : S.Op → Prop}

/-- A program that returns at once makes no calls. -/
theorem of_ret {a : α} (h : Reaches (.ret a : Prog S ε α) tr q) : tr = [] ∧ q = .ret a := by
  induction h with
  | nil => exact ⟨rfl, rfl⟩
  | snoc _ ih => cases ih.2

theorem of_fail {e : ε} (h : Reaches (.fail e : Prog S ε α) tr q) : tr = [] ∧ q = .fail e := by
  induction h with
  | nil => exact ⟨rfl, rfl⟩
  | snoc _ ih => cases ih.2

theorem of_halt (h : Reaches (.halt : Prog S ε α) tr q) : tr = [] ∧ q = .halt := by
  induction h with
  | nil => exact ⟨rfl, rfl⟩
  | snoc _ ih => cases ih.2

theorem of_call {op : S.Op} {k : S.Ret op → Prog S ε α} (h : Reaches (.call op k) tr q) :
    (tr = [] ∧ q = .call op k) ∨ ∃ r tr', tr = ⟨op, r⟩ :: tr' ∧ Reaches (k r) tr' q := by
  induction h with
  | nil => exact .inl ⟨rfl, rfl⟩
  | snoc _ ih =>
    rcases ih with ⟨rfl, he⟩ | ⟨r, tr', rfl, hr⟩
    · cases he
      exact .inr ⟨_, [], rfl, .nil⟩
    · exact .inr ⟨r, _, rfl, hr.snoc⟩

/-- A sequence is in its first part, or has come through it with a value. -/
theorem of_bind {q : Prog S ε β} (h : Reaches (p.bind f) tr q) :
    (∃ p', Reaches p tr p' ∧ q = p'.bind f) ∨
      ∃ tr₁ tr₂ a, tr = tr₁ ++ tr₂ ∧ Reaches p tr₁ (.ret a) ∧ Reaches (f a) tr₂ q := by
  induction h with
  | nil => exact .inl ⟨p, .nil, rfl⟩
  | @snoc tr op k r h ih =>
    rcases ih with ⟨p', hp', he⟩ | ⟨tr₁, tr₂, a, rfl, h₁, h₂⟩
    · cases p' with
      | ret a =>
        have hnext : Reaches (f a) [] (.call op k) := by
          rw [he]
          exact .nil
        exact .inr ⟨tr, _, a, rfl, hp', hnext.snoc⟩
      | fail e => cases he
      | halt => cases he
      | call op' k' =>
        cases he
        exact .inl ⟨_, hp'.snoc, rfl⟩
    · exact .inr ⟨tr₁, _, a, List.append_assoc .., h₁, h₂.snoc⟩

theorem of_mapError {f : ε → ε'} {q : Prog S ε' α} (h : Reaches (p.mapError f) tr q) :
    ∃ p', Reaches p tr p' ∧ q = p'.mapError f := by
  induction h with
  | nil => exact ⟨p, .nil, rfl⟩
  | snoc h ih =>
    obtain ⟨p', hp', he⟩ := ih
    cases p' with
    | call op k =>
      cases he
      exact ⟨_, hp'.snoc, rfl⟩
    | ret | fail | halt => cases he

theorem of_attempt {q : Prog S ε' (Except ε α)} (h : Reaches p.attempt tr q) :
    ∃ p', Reaches p tr p' ∧ q = p'.attempt := by
  induction h with
  | nil => exact ⟨p, .nil, rfl⟩
  | snoc h ih =>
    obtain ⟨p', hp', he⟩ := ih
    cases p' with
    | call op k =>
      cases he
      exact ⟨_, hp'.snoc, rfl⟩
    | ret | fail | halt => cases he

/-- A sequence that has returned a value has come through both parts. -/
theorem of_bind_ret {b : β} (h : Reaches (p.bind f) tr (.ret b)) :
    ∃ tr₁ tr₂ a, tr = tr₁ ++ tr₂ ∧ Reaches p tr₁ (.ret a) ∧ Reaches (f a) tr₂ (.ret b) := by
  rcases h.of_bind with ⟨p', hp', he⟩ | hthrough
  · cases p' with
    | ret a =>
      have hnext : Reaches (f a) [] (.ret b) := by
        rw [he]
        exact .nil
      exact ⟨tr, [], a, (List.append_nil _).symm, hp', hnext⟩
    | fail | halt | call => cases he
  · exact hthrough

/-- A sequence that has failed has failed in its first part, or in the second after a value of the
first. -/
theorem of_bind_fail {e : ε} (h : Reaches (p.bind f) tr (.fail e)) : Reaches p tr (.fail e) ∨
    ∃ tr₁ tr₂ a, tr = tr₁ ++ tr₂ ∧ Reaches p tr₁ (.ret a) ∧ Reaches (f a) tr₂ (.fail e) := by
  rcases h.of_bind with ⟨p', hp', he⟩ | hthrough
  · cases p' with
    | ret a =>
      have hnext : Reaches (f a) [] (.fail e) := by
        rw [he]
        exact .nil
      exact .inr ⟨tr, [], a, (List.append_nil _).symm, hp', hnext⟩
    | fail e' =>
      cases he
      exact .inl hp'
    | halt | call => cases he
  · exact .inr hthrough

/-- What a program calls is what it can call. -/
theorem calls (h : Reaches p tr q) (hp : Calls φ p) : (∀ ev ∈ tr, φ ev.1) ∧ Calls φ q := by
  induction h with
  | nil => exact ⟨nofun, hp⟩
  | snoc _ ih =>
    obtain ⟨hpast, hcall, hrest⟩ := ih
    refine ⟨fun ev hev => ?_, hrest _⟩
    rcases List.mem_append.mp hev with hev | hev
    · exact hpast ev hev
    · cases List.mem_singleton.mp hev
      exact hcall

/-- A program that obeys a protocol has followed it, and obeys it from the phase reached. -/
theorem obeys {Φ : Type} {P : Proto S Φ} {Q : Φ → Except ε α → Prop} {g : Φ} (h : Reaches p tr q)
    (hp : Obeys P Q g p) : P.Follows g tr ∧ Obeys P Q (P.phase g tr) q := by
  induction h with
  | nil => exact ⟨trivial, hp⟩
  | snoc _ ih =>
    obtain ⟨hpast, hmay, hrest⟩ := ih
    refine ⟨hpast.snoc hmay, ?_⟩
    rw [Proto.phase_snoc]
    exact hrest _

/-- A call that the first part cannot make is made by the second. -/
theorem past {q : Prog S ε β} (h : Reaches (p.bind f) tr q) (hp : Calls φ p) (hev : ev ∈ tr)
    (hφ : ¬φ ev.1) :
    ∃ tr₁ tr₂ a, tr = tr₁ ++ tr₂ ∧ Reaches p tr₁ (.ret a) ∧ Reaches (f a) tr₂ q ∧ ev ∈ tr₂ := by
  rcases h.of_bind with ⟨p', hp', -⟩ | ⟨tr₁, tr₂, a, rfl, h₁, h₂⟩
  · exact (hφ ((hp'.calls hp).1 ev hev)).elim
  · refine ⟨tr₁, tr₂, a, rfl, h₁, h₂, ?_⟩
    rcases List.mem_append.mp hev with hev | hev
    · exact (hφ ((h₁.calls hp).1 ev hev)).elim
    · exact hev

end Reaches

theorem Reaches.cons {q : Prog S ε α} {op : S.Op} {k : S.Ret op → Prog S ε α} {r : S.Ret op}
    {tr : List S.Ev} (h : Reaches (k r) tr q) : Reaches (.call op k) (⟨op, r⟩ :: tr) q := by
  induction h with
  | nil =>
    have hstart : Reaches (.call op k) [] (.call op k) := .nil
    exact hstart.snoc
  | snoc _ ih => exact ih.snoc

/-- A sequence goes on from where its first part has come to. -/
theorem Reaches.bind {p p' : Prog S ε α} {f : α → Prog S ε β} {tr : List S.Ev} (h : Reaches p tr p') :
    Reaches (p.bind f) tr (p'.bind f) := by
  induction h with
  | nil => exact .nil
  | snoc _ ih => exact ih.snoc

theorem Reaches.trans {p q r : Prog S ε α} {tr tr' : List S.Ev} (h : Reaches p tr q)
    (h' : Reaches q tr' r) : Reaches p (tr ++ tr') r := by
  induction h' with
  | nil =>
    rw [List.append_nil]
    exact h
  | snoc _ ih =>
    rw [← List.append_assoc]
    exact ih.snoc

/-! ### The last call -/

/-- The program makes no more calls. -/
def isOver : Prog S ε α → Bool
  | .call _ _ => false
  | _ => true

/-- A sequence that is over has failed or halted in its first part, or is over in the second. -/
theorem Reaches.of_bind_over {p : Prog S ε α} {f : α → Prog S ε β} {q : Prog S ε β} {tr : List S.Ev}
    (h : Reaches (p.bind f) tr q) (hover : isOver q = true) :
    (∃ e, Reaches p tr (.fail e) ∧ q = .fail e) ∨ (Reaches p tr .halt ∧ q = .halt) ∨
      ∃ tr₁ tr₂ a, tr = tr₁ ++ tr₂ ∧ Reaches p tr₁ (.ret a) ∧ Reaches (f a) tr₂ q := by
  rcases h.of_bind with ⟨p', hp', rfl⟩ | hthrough
  · cases p' with
    | ret a => exact .inr (.inr ⟨tr, [], a, (List.append_nil tr).symm, hp', .nil⟩)
    | fail e => exact .inl ⟨e, hp', rfl⟩
    | halt => exact .inr (.inl ⟨hp', rfl⟩)
    | call => contradiction
  · exact .inr (.inr hthrough)

/-- The automaton that keeps the last call, where a program may end by itself after those that `H`
allows. -/
def lastly (H : Option S.Ev → Prop) : Proto S (Option S.Ev) where
  may _ _ := True
  next _ op r := some ⟨op, r⟩
  halts := H

theorem phase_lastly {H : Option S.Ev → Prop} {tr : List S.Ev} :
    (lastly H).phase none tr = tr.getLast? := by
  rcases List.eq_nil_or_concat tr with rfl | ⟨tr, ev, rfl⟩
  · rfl
  · rw [List.concat_eq_append, Proto.phase_snoc, List.getLast?_concat]
    rfl

/-- How a program ends is told by its last call. -/
theorem Reaches.last {p q : Prog S ε α} {H : Option S.Ev → Prop} {Q : Option S.Ev → Except ε α → Prop}
    {tr : List S.Ev} (h : Reaches p tr q) (hp : Obeys (lastly H) Q none p) :
    Obeys (lastly H) Q tr.getLast? q := by
  obtain ⟨-, hrest⟩ := h.obeys hp
  rwa [phase_lastly] at hrest

/-- Follow a program for at most `n` calls, as long as they are answered. The answer to a call may
depend on the call before. -/
def followFrom (answer : Option S.Ev → (op : S.Op) → Option (S.Ret op)) :
    Nat → Option S.Ev → Prog S ε α → List S.Ev × Prog S ε α
  | n + 1, last, .call op k =>
    match answer last op with
    | some r =>
      let (tr, q) := followFrom answer n (some ⟨op, r⟩) (k r)
      (⟨op, r⟩ :: tr, q)
    | none => ([], .call op k)
  | _, _, p => ([], p)

theorem reaches_followFrom {answer : Option S.Ev → (op : S.Op) → Option (S.Ret op)} {n : Nat}
    {last : Option S.Ev} {p : Prog S ε α} :
    Reaches p (followFrom answer n last p).1 (followFrom answer n last p).2 := by
  induction n generalizing last p with
  | zero => exact .nil
  | succ n ih =>
    cases p with
    | ret | fail | halt => exact .nil
    | call op k =>
      unfold followFrom
      split
      · exact ih.cons
      · exact .nil

/-- The error a program has come to. -/
def errorOf : Prog S ε α → Option ε
  | .fail e => some e
  | _ => none

theorem errorOf_eq_some {e : ε} {p : Prog S ε α} (h : errorOf p = some e) : p = .fail e := by
  cases p <;> cases h
  rfl

/-- The same with answers to the calls alone. -/
abbrev follow (answer : (op : S.Op) → Option (S.Ret op)) (n : Nat) (p : Prog S ε α) :
    List S.Ev × Prog S ε α := followFrom (fun _ => answer) n none p

theorem reaches_follow {answer : (op : S.Op) → Option (S.Ret op)} {n : Nat} {p : Prog S ε α} :
    Reaches p (follow answer n p).1 (follow answer n p).2 := reaches_followFrom

namespace Completed

variable {p : Prog S ε α} {tr tr' : List S.Ev} {a : α}

theorem of_reaches (h : Reaches p tr (.ret a)) : Completed p tr :=
  ⟨[], tr, [], a, by simp, h⟩

theorem left (h : Completed p tr) : Completed p (tr ++ tr') := by
  obtain ⟨tr₀, tr₁, tr₂, a, rfl, h⟩ := h
  exact ⟨tr₀, tr₁, tr₂ ++ tr', a, by simp, h⟩

theorem right (h : Completed p tr') : Completed p (tr ++ tr') := by
  obtain ⟨tr₀, tr₁, tr₂, a, rfl, h⟩ := h
  exact ⟨tr ++ tr₀, tr₁, tr₂, a, by simp, h⟩

end Completed

end Prog

namespace Machine

variable {K : Machine S ε ρ W C E M} {c c' : Conf S ε ρ W M}

/-- Each thread has come to where it is along its trace. -/
def Traced (K : Machine S ε ρ W C E M) (c : Conf S ε ρ W M) : Prop :=
  ∀ (i : Nat) th, c.threads[i]? = some th → (K.prog th.main).Reaches th.trace th.prog

theorem Traced.step {a : Action C E M} (h : Traced K c) (hs : K.step c a = some c') :
    Traced K c' := by
  intro i th' hi
  have hanswer {t : Nat} {th : Thread S ε ρ M} {op : S.Op} {k : S.Ret op → Prog S ε ρ}
      (ht : c.threads[t]? = some th) (hp : th.prog = .call op k) (r : S.Ret op) :
      (K.prog th.main).Reaches (th.trace ++ [⟨op, r⟩]) (k r) := by
    have hr := h t th ht
    rw [hp] at hr
    exact hr.snoc
  cases step_origin hs hi with
  | same hi₀ => exact h i th' hi₀
  | stopped hi₀ e =>
    have hr := h i _ hi₀
    rw [e]
    exact hr
  | answered ha hi₀ hst hp hx e =>
    subst e
    exact hanswer hi₀ hp _
  | invoked ha hi hm e =>
    subst e
    exact .nil
  | forked ha ht hst hp hx hf hi e =>
    subst e
    exact hanswer ht hp _
  | spawned ha ht hst hp hx hs' hi e =>
    subst e
    exact .nil

end Machine
end Conc
