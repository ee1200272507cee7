import Mathlib.Data.List.Basic

/-! # Several writers of one file

Each writer opens the file, which empties it, and then writes its whole text at the start. When the
opens of several writers come before their writes, a short text is written over the start of a
longer one. -/

namespace Overlay

variable {α β : Type}

inductive Act (α : Type) where
  | empty
  | write (a : α)
  deriving DecidableEq

/-- A text at the start of a file, with what the file holds behind it. -/
def place (text content : List β) : List β := text ++ content.drop text.length

def step (text : α → List β) (content : List β) : Act α → List β
  | .empty => []
  | .write a => place (text a) content

def run (text : α → List β) (content : List β) (acts : List (Act α)) : List β :=
  acts.foldl (step text) content

/-- What was written last, unless the file was emptied after it. -/
def last (a : Option α) (acts : List (Act α)) : Option α :=
  acts.foldl (fun _ act => match act with | .empty => none | .write b => some b) a

/-- The file is empty or ends with `e`. -/
def EndsIn (e : β) (content : List β) : Prop := content = [] ∨ ∃ r, content = r ++ [e]

theorem EndsIn.drop {e : β} {content : List β} (h : EndsIn e content) (n : Nat) :
    EndsIn e (content.drop n) := by
  rcases h with rfl | ⟨r, rfl⟩
  · exact .inl List.drop_nil
  · by_cases hn : n ≤ r.length
    · exact .inr ⟨r.drop n, List.drop_append_of_le_length hn⟩
    · refine .inl (List.drop_eq_nil_of_le ?_)
      simp only [List.length_append, List.length_singleton]
      omega

theorem EndsIn.append {e : β} {text content : List β} (ht : EndsIn e text) (h : EndsIn e content) :
    EndsIn e (text ++ content) := by
  rcases h with rfl | ⟨r, rfl⟩
  · rwa [List.append_nil]
  · exact .inr ⟨text ++ r, (List.append_assoc ..).symm⟩

/-- The file is empty, or starts with the text written last, and what is behind it ends in `e`. -/
def Shows (text : α → List β) (e : β) (a : Option α) (content : List β) : Prop :=
  match a with
  | none => content = []
  | some a => ∃ r, content = text a ++ r ∧ EndsIn e r

variable {text : α → List β} {e : β} {a : Option α} {content : List β} {acts : List (Act α)}

/-- What holds of all that is written holds of what was written last. -/
theorem last_of_all {p : α → Prop} (ha : ∀ x ∈ a, p x) (hacts : ∀ x, .write x ∈ acts → p x) :
    ∀ x ∈ last a acts, p x := by
  induction acts generalizing a with
  | nil => exact ha
  | cons act acts ih =>
    have htail : ∀ x, .write x ∈ acts → p x := fun x hx => hacts x (List.mem_cons_of_mem _ hx)
    cases act with
    | empty => exact ih (a := none) (fun x hx => by cases hx) htail
    | write b =>
      refine ih (a := some b) (fun x hx => ?_) htail
      obtain rfl := Option.some.inj hx
      exact hacts b List.mem_cons_self

/-- If every text ends in `e`, so does what is left of the others behind the text written last. -/
theorem Shows.run (hend : EndsIn e content) (h : Shows text e a content)
    (hacts : ∀ x, .write x ∈ acts → EndsIn e (text x)) :
    Shows text e (last a acts) (Overlay.run text content acts) := by
  induction acts generalizing a content with
  | nil => exact h
  | cons act acts ih =>
    have htail : ∀ x, .write x ∈ acts → EndsIn e (text x) := fun x hx =>
      hacts x (List.mem_cons_of_mem _ hx)
    cases act with
    | empty => exact ih (a := none) (.inl rfl) rfl htail
    | write b =>
      have hrest := hend.drop (text b).length
      exact ih (a := some b) ((hacts b List.mem_cons_self).append hrest) ⟨_, rfl, hrest⟩ htail

end Overlay
