import Clonebox.Lib.Reaches

/-! # When a thread was answered

The trace of a thread says which answers it was given, and not when. In a run in which the thread
has come into being each of them was given at a step of the run, one after the other. -/

namespace Conc.Machine

variable {S : Sig} {ε ρ W C E M : Type}

/-- Between two configurations thread `i` was given these answers. -/
inductive Answers (K : Machine S ε ρ W C E M) (ok : Conf S ε ρ W M → Action C E M → Prop) (i : Nat) :
    Conf S ε ρ W M → List S.Ev → Conf S ε ρ W M → Prop
  | nil {c c' : Conf S ε ρ W M} (h : Steps K.step ok c c') : Answers K ok i c [] c'
  | cons {c c₁ c₂ c' : Conf S ε ρ W M} {a : Action C E M} {ev : S.Ev} {tr : List S.Ev}
    (h : Steps K.step ok c c₁) (ha : ok c₁ a) (he : K.event c₁ a = some (i, ev))
    (hs : K.step c₁ a = some c₂) (hrest : Answers K ok i c₂ tr c') : Answers K ok i c (ev :: tr) c'

variable {K : Machine S ε ρ W C E M} {ok : Conf S ε ρ W M → Action C E M → Prop}
  {c c₀ c₁ c₂ : Conf S ε ρ W M} {a : Action C E M} {i : Nat} {tr : List S.Ev}

namespace Answers

theorem steps (h : Answers K ok i c tr c₁) : Steps K.step ok c c₁ := by
  induction h with
  | nil h => exact h
  | cons h ha he hs hrest ih => exact (h.tail ha hs).trans ih

/-- A step that answers another thread, or none. -/
theorem later (h : Answers K ok i c tr c₁) (ha : ok c₁ a) (hs : K.step c₁ a = some c₂) :
    Answers K ok i c tr c₂ := by
  induction h with
  | nil h => exact .nil (h.tail ha hs)
  | cons h ha' he hs' hrest ih => exact .cons h ha' he hs' (ih ha hs)

theorem snoc {ev : S.Ev} (h : Answers K ok i c tr c₁) (ha : ok c₁ a) (he : K.event c₁ a = some (i, ev))
    (hs : K.step c₁ a = some c₂) : Answers K ok i c (tr ++ [ev]) c₂ := by
  induction h with
  | nil h => exact .cons h ha he hs (.nil .refl)
  | cons h ha' he' hs' hrest ih => exact .cons h ha' he' hs' (ih ha he hs)

/-- Each of the answers was given at a step of the run. -/
theorem given {ev : S.Ev} (h : Answers K ok i c tr c₁) (hev : ev ∈ tr) :
    ∃ c₂ a c₃, Steps K.step ok c c₂ ∧
    ok c₂ a ∧ K.event c₂ a = some (i, ev) ∧ K.step c₂ a = some c₃ ∧ Steps K.step ok c₃ c₁ := by
  induction h with
  | nil => cases hev
  | cons h ha he hs hrest ih =>
    rcases List.mem_cons.mp hev with rfl | hev
    · exact ⟨_, _, _, h, ha, he, hs, hrest.steps⟩
    · obtain ⟨c₂, a, c₃, hbefore, hstep⟩ := ih hev
      exact ⟨c₂, a, c₃, (h.tail ha hs).trans hbefore, hstep⟩

end Answers

/-- A thread that has come into being in a run, and not as a copy, was given its answers in the
run. -/
theorem answers_of_steps {th : Thread S ε ρ M} (h : Steps K.step ok c₀ c)
    (hnew : c₀.threads[i]? = none) (hi : c.threads[i]? = some th)
    (hfork : ∀ ev ∈ th.trace, ∀ r, K.fork ev.1 r = none) : Answers K ok i c₀ th.trace c := by
  induction h generalizing th with
  | refl =>
    rw [hnew] at hi
    cases hi
  | tail hrun hlast ih =>
    obtain ⟨a, ha, hs⟩ := hlast
    have hnil : Answers K ok i c₀ [] _ := .nil (Steps.tail hrun ha hs)
    cases step_origin hs hi with
    | same hi₀ => exact (ih hi₀ hfork).later ha hs
    | stopped hi₀ e =>
      subst e
      exact (ih hi₀ hfork).later ha hs
    | @answered th₀ op k r ch hact hi₀ hst hp hx e =>
      subst hact e
      have hbefore : ∀ ev ∈ th₀.trace, ∀ r, K.fork ev.1 r = none :=
        fun ev hev => hfork ev (List.mem_append_left _ hev)
      exact (ih hi₀ hbefore).snoc ha (event_of_exec hi₀ hst hp hx) hs
    | invoked hact hi₀ hm e =>
      subst e
      exact hnil
    | @forked t th₀ op k r r' ch hact ht hst hp hx hf hi₀ e =>
      subst e
      have hno := hfork ⟨op, r'⟩ (List.mem_append_right _ List.mem_cons_self) r
      rw [hf] at hno
      cases hno
    | spawned hact ht hst hp hx hs' hi₀ e =>
      subst e
      exact hnil

/-- In the run from `c₀` to `c` some thread that runs `m` was given this answer. -/
inductive Given (K : Machine S ε ρ W C E M) (ok : Conf S ε ρ W M → Action C E M → Prop)
    (c₀ : Conf S ε ρ W M) (m : M) (ev : S.Ev) (c : Conf S ε ρ W M) : Prop
  | intro {c₁ c₂ : Conf S ε ρ W M} {a : Action C E M} {j : Nat} {th : Thread S ε ρ M}
    (h : Steps K.step ok c₀ c₁) (hj : c₁.threads[j]? = some th) (hm : th.main = m) (ha : ok c₁ a)
    (he : K.event c₁ a = some (j, ev)) (hs : K.step c₁ a = some c₂) (hrest : Steps K.step ok c₂ c)

theorem Given.later {m : M} {ev : S.Ev} (h : Given K ok c₀ m ev c₁) (ha : ok c₁ a)
    (hs : K.step c₁ a = some c₂) : Given K ok c₀ m ev c₂ := by
  cases h with
  | intro h hj hm ha' he hs' hrest => exact .intro h hj hm ha' he hs' (hrest.tail ha hs)

/-- An answer in the trace of a thread was given in the run, to the thread itself or to one it is a
copy of. -/
theorem given_of_mem {th : Thread S ε ρ M} {ev : S.Ev} (h : Steps K.step ok c₀ c)
    (hnone : c₀.threads = []) (hi : c.threads[i]? = some th) (hev : ev ∈ th.trace)
    (hfork : ∀ r, K.fork ev.1 r = none) : Given K ok c₀ th.main ev c := by
  induction h generalizing i th with
  | refl =>
    rw [hnone] at hi
    cases hi
  | tail hrun hlast ih =>
    obtain ⟨a, ha, hs⟩ := hlast
    cases step_origin hs hi with
    | same hi₀ => exact (ih hi₀ hev).later ha hs
    | stopped hi₀ e =>
      subst e
      exact (ih hi₀ hev).later ha hs
    | @answered th₀ op k r ch hact hi₀ hst hp hx e =>
      subst hact e
      rcases List.mem_append.mp hev with hev | hev
      · exact (ih hi₀ hev).later ha hs
      · obtain rfl := List.mem_singleton.mp hev
        exact .intro hrun hi₀ rfl ha (event_of_exec hi₀ hst hp hx) hs .refl
    | invoked hact hi₀ hm e =>
      subst e
      cases hev
    | @forked t th₀ op k r r' ch hact ht hst hp hx hf hi₀ e =>
      subst e
      rcases List.mem_append.mp hev with hev | hev
      · exact (ih ht hev).later ha hs
      · obtain rfl := List.mem_singleton.mp hev
        have hno := hfork r
        rw [hf] at hno
        cases hno
    | spawned hact ht hst hp hx hs' hi₀ e =>
      subst e
      cases hev

end Conc.Machine
