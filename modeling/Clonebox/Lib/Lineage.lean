import Mathlib.Data.List.Basic
import Mathlib.Logic.Function.Basic

/-! # Updates of one cell

An update reads a cell, and later writes back what it makes of what it has read. Updates that
overlap do not all see each other: what the cell holds in the end has come through those updates
only that the last writer has read from, directly or not. -/

namespace Conc

/-- The updates that the content has come through, the last first, and those that each update has
found when it has read the cell. -/
structure Lineage where
  now : List Nat
  base : Nat → Option (List Nat)

namespace Lineage

variable {σ : Type} {f : Nat → σ → σ} {s : σ} {g : Lineage} {i : Nat}

def start : Lineage := ⟨[], fun _ => none⟩

/-- The first step of update `i` reads the cell, the second writes it. -/
def step (g : Lineage) (i : Nat) : Lineage :=
  match g.base i with
  | none => { g with base := Function.update g.base i (some g.now) }
  | some found => { g with now := i :: found }

/-- The lineage of the content after the updates have made their steps in this order. -/
def after (schedule : List Nat) : Lineage := schedule.foldl step start

theorem step_read (h : g.base i = none) :
    g.step i = { g with base := Function.update g.base i (some g.now) } := by
  simp only [step, h]

theorem step_write {found : List Nat} (h : g.base i = some found) :
    g.step i = { g with now := i :: found } := by
  simp only [step, h]

/-- What the updates of a lineage make of the first content. -/
def value (f : Nat → σ → σ) (s : σ) (l : List Nat) : σ := l.foldr f s

@[simp] theorem value_nil : value f s [] = s := rfl
@[simp] theorem value_cons {l : List Nat} : value f s (i :: l) = f i (value f s l) := rfl

/-- The updates of a lineage, and of those that were found, satisfy `p`. -/
structure All (p : Nat → Prop) (g : Lineage) : Prop where
  now : ∀ i ∈ g.now, p i
  base : ∀ j found, g.base j = some found → ∀ i ∈ found, p i

theorem All.start {p : Nat → Prop} : All p start := ⟨nofun, nofun⟩

theorem All.step {p : Nat → Prop} (h : All p g) (hi : p i) : All p (g.step i) := by
  cases hb : g.base i with
  | none =>
    rw [step_read hb]
    refine ⟨h.now, fun j found hj => ?_⟩
    dsimp only at hj
    rcases eq_or_ne j i with rfl | hne
    · rw [Function.update_self] at hj
      cases hj
      exact h.now
    · rw [Function.update_of_ne hne] at hj
      exact h.base j found hj
  | some found =>
    rw [step_write hb]
    refine ⟨fun j hj => ?_, h.base⟩
    rcases List.mem_cons.mp hj with rfl | hj
    · exact hi
    · exact h.base i found hb j hj

end Lineage
end Conc
