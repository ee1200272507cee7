import Clonebox.Lib.Steps

/-! # Overwriting a file

A file is overwritten by an open that truncates it and then by writes, each of which appends some of
the rest. The overwriting may stop after each of these steps, and a reader may come in between. -/

namespace Conc.Overwrite

variable {β : Type} {old new : List β}

inductive Stage where
  | unopened
  /-- The file is open, and `n` bytes have been written. -/
  | opened (n : Nat)

def content (old new : List β) : Stage → List β
  | .unopened => old
  | .opened n => new.take n

/-- The open, or a write of `k` bytes. -/
def step (new : List β) : Stage → Nat → Option Stage
  | .unopened, _ => some (.opened 0)
  | .opened n, k => if 0 < k ∧ n + k ≤ new.length then some (.opened (n + k)) else none

/-- The stages an overwriting can be in, or stop in. -/
def Reached (new : List β) (g : Stage) : Prop :=
  Steps (step new) (fun _ _ => True) .unopened g

/-- What can be in the file while `old` is overwritten by `new`, and after. -/
def Seen (old new bytes : List β) : Prop := ∃ g, Reached new g ∧ content old new g = bytes

theorem reached_opened : Reached new (.opened 0) :=
  .tail (a := 0) .refl trivial rfl

theorem seen_nil : Seen old new [] := ⟨.opened 0, reached_opened, rfl⟩

theorem Reached.bound {n : Nat} (h : Reached new (.opened n)) : n ≤ new.length := by
  have hall : ∀ m, Stage.opened n = .opened m → m ≤ new.length := by
    refine Steps.invariant (I := fun g => ∀ m, g = .opened m → m ≤ new.length) h ?_ nofun
    intro g k g' _ _ hs m hg
    subst hg
    cases g with
    | unopened =>
      cases hs
      exact Nat.zero_le _
    | opened n =>
      simp only [step] at hs
      split at hs <;> cases hs
      rename_i hk
      exact hk.2
  exact hall n rfl

/-- All that is ever seen is the old content or a part of the new one. -/
theorem Seen.cases {bytes : List β} (h : Seen old new bytes) : bytes = old ∨ bytes <+: new := by
  obtain ⟨g, -, rfl⟩ := h
  cases g with
  | unopened => exact .inl rfl
  | opened n => exact .inr (List.take_prefix n new)

/-- Only the empty file is overwritten in one go, or by the empty file. -/
theorem nil_of_atomic (h : ∀ bytes, Seen old new bytes → bytes = old ∨ bytes = new) :
    old = [] ∨ new = [] := by
  rcases h [] seen_nil with e | e
  · exact .inl e.symm
  · exact .inr e.symm

end Conc.Overwrite
