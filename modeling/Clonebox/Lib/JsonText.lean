import Clonebox.Lib.JsonPrint
import Clonebox.Lib.Utf8

/-! # Files of JSON

A value in the bytes of a file. A file that holds only a beginning of a written object, or a written
object and more than spaces, does not hold a value. -/

open Scan Reader

namespace Json

def toBytes (v : Json) : List UInt8 := Utf8.encode (print v)

def ofBytes (b : List UInt8) : Option Json := (Utf8.decode b).bind parse

variable {v w : Json} {b : List UInt8}

theorem ofBytes_toBytes (hv : Proper v) : ofBytes (toBytes v) = some v := by
  rw [ofBytes, toBytes, Utf8.decode_encode]
  exact parse_print hv

/-! ### Objects -/

variable {l : List (String × Json)}

theorem join_end {α : Type} (f : α → List Char) (sep close : Char) (l : List α) :
    ∃ s, join f sep close l = s ++ [close] := by
  have hrest (l : List α) : ∃ s, rest f sep close l = s ++ [close] := by
    induction l with
    | nil => exact ⟨[], rfl⟩
    | cons a l ih =>
      obtain ⟨s, hs⟩ := ih
      exact ⟨sep :: (f a ++ s), by rw [rest, hs, List.cons_append, List.append_assoc]⟩
  cases l with
  | nil => exact ⟨[], rfl⟩
  | cons a l =>
    obtain ⟨s, hs⟩ := hrest l
    exact ⟨f a ++ s, by rw [join, hs, List.append_assoc]⟩

theorem print_obj_end (l : List (String × Json)) : ∃ s, print (.obj l) = s ++ ['}'] := by
  obtain ⟨s, hs⟩ := join_end printMember ',' '}' l
  exact ⟨'{' :: s, by rw [print, printMembers_eq, hs, List.cons_append]⟩

theorem skip_eq_nil {s : List Char} (h : skip s = []) : ∀ c ∈ s, isSpace c = true := by
  simpa [skip] using h

/-- A beginning of a written object is the whole of it, or no value. -/
theorem ofBytes_start (hl : Proper (.obj l)) (hb : b <+: toBytes (.obj l)) (h : ofBytes b = some w) :
    b = toBytes (.obj l) := by
  obtain ⟨s, hs, hparse⟩ := Option.bind_eq_some_iff.mp h
  obtain ⟨t, ht⟩ := Utf8.decode_start hb hs
  have hwhole : parse (s ++ t) = some (.obj l) := by
    rw [ht]
    exact parse_print hl
  obtain ⟨-, hskip⟩ := parse_start hparse hwhole rfl
  have hnil : t = [] := by
    obtain ⟨u, hend⟩ := print_obj_end l
    rw [hend] at ht
    rcases List.eq_nil_or_concat t with rfl | ⟨t', c, rfl⟩
    · rfl
    · rw [List.concat_eq_append, ← List.append_assoc] at ht
      have hc : c = '}' := by simpa using (List.append_inj' ht rfl).2
      have hspace := skip_eq_nil hskip c (by simp)
      rw [hc] at hspace
      exact absurd hspace (by decide)
  rw [hnil, List.append_nil] at ht
  rw [toBytes, ← ht]
  exact (Utf8.encode_of_decode hs).symm

/-- What ends a written object. -/
def closing : UInt8 := 0x7d

theorem toBytes_obj_end (l : List (String × Json)) : ∃ b, toBytes (.obj l) = b ++ [closing] := by
  obtain ⟨s, hs⟩ := print_obj_end l
  have hbyte : Utf8.encode ['}'] = [closing] := by decide
  exact ⟨Utf8.encode s, by rw [toBytes, hs, Utf8.encode_append, hbyte]⟩

theorem encode_space {c : Char} (h : isSpace c = true) : closing ∉ Utf8.encode [c] := by
  have hall : ([' ', '\n', '\t', '\r'].all fun c => !(Utf8.encode [c]).contains closing) = true := by
    decide
  have hc := List.all_eq_true.mp hall c (by simpa [isSpace, or_assoc] using h)
  simpa using hc

theorem closing_not_mem {s : List Char} (h : skip s = []) : closing ∉ Utf8.encode s := by
  intro hmem
  obtain ⟨c, hc, hbyte⟩ := List.mem_flatMap.mp hmem
  refine encode_space (skip_eq_nil h c hc) ?_
  simpa [Utf8.encode] using hbyte

/-- A written object behind which another one ends is no value. -/
theorem ofBytes_append (hl : Proper (.obj l)) (hb : closing ∈ b) : ofBytes (toBytes (.obj l) ++ b) = none := by
  cases h : ofBytes (toBytes (.obj l) ++ b) with
  | none => rfl
  | some w =>
    obtain ⟨s, hs, hparse⟩ := Option.bind_eq_some_iff.mp h
    obtain ⟨t, rfl, ht⟩ := Utf8.decode_append hs
    obtain ⟨-, hskip⟩ := parse_unique (parse_print hl) rfl hparse
    rw [← ht] at hb
    exact absurd hb (closing_not_mem hskip)

end Json
