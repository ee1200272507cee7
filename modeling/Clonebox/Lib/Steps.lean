import Mathlib.Logic.Relation

/-! # Runs of a step function

`Steps step ok s s'` is a run from `s` to `s'` each of whose actions satisfies `ok` in the state
where it is taken. -/

namespace Conc

variable {σ α : Type} {step : σ → α → Option σ} {ok ok' : σ → α → Prop} {s s' s'' : σ}

/-- A run all of whose steps satisfy `ok`. -/
def Steps (step : σ → α → Option σ) (ok : σ → α → Prop) : σ → σ → Prop :=
  Relation.ReflTransGen fun s s' => ∃ a, ok s a ∧ step s a = some s'

/-- The state after a list of actions, if each in turn is enabled and satisfies `ok`. -/
def runActions (step : σ → α → Option σ) (ok : σ → α → Prop) [∀ s a, Decidable (ok s a)] :
    σ → List α → Option σ
  | s, [] => some s
  | s, a :: as => if ok s a then (step s a).bind (runActions step ok · as) else none

namespace Steps

theorem refl : Steps step ok s s := Relation.ReflTransGen.refl

theorem tail {a : α} (h : Steps step ok s s') (ha : ok s' a) (hs : step s' a = some s'') :
    Steps step ok s s'' := Relation.ReflTransGen.tail h ⟨a, ha, hs⟩

theorem trans (h : Steps step ok s s') (h' : Steps step ok s' s'') : Steps step ok s s'' :=
  Relation.ReflTransGen.trans h h'

theorem mono (h : Steps step ok s s') (hok : ∀ s a, ok s a → ok' s a) : Steps step ok' s s' :=
  Relation.ReflTransGen.mono (fun _ _ ⟨a, ha, hs⟩ => ⟨a, hok _ _ ha, hs⟩) _ _ h

/-- What every step keeps, a run keeps. -/
theorem invariant {I : σ → Prop} (h : Steps step ok s s')
    (hstep : ∀ s a s', I s → ok s a → step s a = some s' → I s') (hs : I s) : I s' := by
  induction h with
  | refl => exact hs
  | tail _ hlast ih =>
    obtain ⟨a, ha, hs'⟩ := hlast
    exact hstep _ a _ ih ha hs'

/-- Two conditions that agree wherever an invariant holds allow the same runs. -/
theorem congr {I : σ → Prop} (hI : ∀ s a s', I s → ok s a → step s a = some s' → I s')
    (hok : ∀ s a s', I s → step s a = some s' → (ok s a ↔ ok' s a)) (hs : I s) :
    Steps step ok s s' ↔ Steps step ok' s s' := by
  have half {ok₁ ok₂ : σ → α → Prop}
      (h₁ : ∀ s a s', I s → step s a = some s' → ok₁ s a → ok s a)
      (h₂ : ∀ s a s', I s → step s a = some s' → ok₁ s a → ok₂ s a)
      (h : Steps step ok₁ s s') : I s' ∧ Steps step ok₂ s s' := by
    induction h with
    | refl => exact ⟨hs, refl⟩
    | tail _ hlast ih =>
      obtain ⟨a, ha, hstep⟩ := hlast
      obtain ⟨hmid, hrun⟩ := ih
      exact ⟨hI _ a _ hmid (h₁ _ a _ hmid hstep ha) hstep, hrun.tail (h₂ _ a _ hmid hstep ha) hstep⟩
  constructor
  · exact fun h => (half (fun _ _ _ _ _ h => h) (fun s a s' hi hst => (hok s a s' hi hst).mp) h).2
  · intro h
    exact (half (fun s a s' hi hst => (hok s a s' hi hst).mpr)
      (fun s a s' hi hst => (hok s a s' hi hst).mpr) h).2

/-- A list of actions that can be carried out is a run. -/
theorem of_runActions [∀ s a, Decidable (ok s a)] {as : List α}
    (h : runActions step ok s as = some s') : Steps step ok s s' := by
  induction as generalizing s with
  | nil => cases h; exact refl
  | cons a as ih =>
    simp only [runActions] at h
    split at h
    · rename_i ha
      obtain ⟨s₁, h₁, h₂⟩ := Option.bind_eq_some_iff.mp h
      exact (tail refl ha h₁).trans (ih h₂)
    · cases h

end Steps
end Conc
