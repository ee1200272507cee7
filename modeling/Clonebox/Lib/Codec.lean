import Clonebox.Lib.Overlay
import Clonebox.Lib.Overwrite

/-! # Records in files

What the users of a serializer rely on, whatever its grammar is: a record is written as a text that
ends in the bracket that closes it, and is read from this text, but neither from a part of it nor
from more of the kind. A reader of a file that is being written is then sure of what it finds. -/

namespace Codec
open Conc

variable {α β : Type}

structure Laws (closing : β) (typed : α → Prop) (ser : α → List β) (de : List β → Option α) : Prop where
  roundTrip : ∀ {a}, typed a → de (ser a) = some a
  closed : ∀ {a}, typed a → ∃ r, ser a = r ++ [closing]
  /-- A text that was cut is no record. -/
  incomplete : ∀ {a b}, typed a → b <+: ser a → b ≠ ser a → de b = none
  /-- Nor is a text behind which another one ends. -/
  trailing : ∀ {a b}, typed a → closing ∈ b → de (ser a ++ b) = none

namespace Laws

variable {closing : β} {typed : α → Prop} {ser : α → List β} {de : List β → Option α}
  (H : Laws closing typed ser de) {a a' : α} {b : List β}

include H

theorem de_nil (ha : typed a) : de [] = none := by
  obtain ⟨r, hr⟩ := H.closed ha
  refine H.incomplete ha List.nil_prefix fun hnil => ?_
  rw [hr] at hnil
  simp at hnil

theorem endsIn (ha : typed a) : Overlay.EndsIn closing (ser a) := .inr (H.closed ha)

/-- However far the writing of a record over another one has come, a reader finds one of the two,
and then all of its text. -/
theorem read_seen {old new : α} (hold : typed old) (hnew : typed new)
    (h : Overwrite.Seen (ser old) (ser new) b) :
    de b = some a ↔ a = old ∧ b = ser old ∨ a = new ∧ b = ser new := by
  constructor
  · intro hread
    rcases h.cases with rfl | hprefix
    · rw [H.roundTrip hold] at hread
      exact .inl ⟨(Option.some.inj hread).symm, rfl⟩
    · by_cases hwhole : b = ser new
      · subst hwhole
        rw [H.roundTrip hnew] at hread
        exact .inr ⟨(Option.some.inj hread).symm, rfl⟩
      · rw [H.incomplete hnew hprefix hwhole] at hread
        cases hread
  · rintro (⟨rfl, rfl⟩ | ⟨rfl, rfl⟩)
    · exact H.roundTrip hold
    · exact H.roundTrip hnew

/-- A file that shows the record written last is read as that record, or as none. -/
theorem read_shows {o : Option α} (h : Overlay.Shows ser closing o b) (ho : ∀ a ∈ o, typed a)
    (hnil : de [] = none) : de b = some a ↔ o = some a ∧ b = ser a := by
  cases o with
  | none =>
    obtain rfl : b = [] := h
    rw [hnil]
    exact iff_of_false (fun he => by cases he) fun he => by cases he.1
  | some a' =>
    have ha' := ho a' rfl
    obtain ⟨r, rfl, hr⟩ := h
    rcases hr with rfl | ⟨r, rfl⟩
    · rw [List.append_nil, H.roundTrip ha']
      refine ⟨fun h => ?_, fun h => h.1⟩
      obtain rfl := Option.some.inj h
      exact ⟨rfl, rfl⟩
    · rw [H.trailing ha' (by simp)]
      refine iff_of_false (fun he => by cases he) fun ⟨hlast, he⟩ => ?_
      obtain rfl := Option.some.inj hlast
      simp at he

/-- A text over the start of a longer one is no record. -/
theorem read_place (ha : typed a) (ha' : typed a') (h : (ser a).length < (ser a').length)
    (content : List β) : de (Overlay.place (ser a) (Overlay.place (ser a') content)) = none := by
  obtain ⟨r, hr⟩ := H.closed ha'
  have hle : (ser a).length ≤ r.length := by
    rw [hr, List.length_append, List.length_singleton] at h
    exact Nat.le_of_lt_succ h
  refine H.trailing ha ?_
  rw [Overlay.place, List.drop_append_of_le_length (Nat.le_of_lt h), hr, List.drop_append_of_le_length hle]
  simp

end Laws
end Codec
