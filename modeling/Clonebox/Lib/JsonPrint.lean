import Mathlib.Data.List.TakeWhile
import Mathlib.Data.Nat.Init
import Clonebox.Lib.Json

/-! # What is written is read back

`value_print` reads the text of a value off the front of a longer text, whatever may follow the
value there. `print_visible` says that no character below the space is written. -/

open Scan Reader

namespace Json

/-! ### Literals of numbers -/

theorem isNumeral_of_isDigit {c : Char} (h : c.isDigit = true) : isNumeral c = true := by
  simp [isNumeral, h]

theorem isDigits_numeral {s : List Char} (h : isDigits s = true) : ∀ c ∈ s, isNumeral c = true := by
  intro c hc
  rw [isDigits, Bool.and_eq_true] at h
  exact isNumeral_of_isDigit (List.all_eq_true.mp h.2 c hc)

theorem isExponent_numeral {s : List Char} (h : isExponent s = true) :
    ∀ c ∈ s, isNumeral c = true := by
  cases s with
  | nil => exact fun c hc => (List.not_mem_nil hc).elim
  | cons d s =>
    rw [isExponent, Bool.and_eq_true] at h
    obtain ⟨hd, hs⟩ := h
    have hletter : isNumeral d = true := by
      rcases Bool.or_eq_true_iff.mp hd with hd | hd
      · rw [of_decide_eq_true hd]
        decide
      · rw [of_decide_eq_true hd]
        decide
    have hrest : ∀ c ∈ s, isNumeral c = true := by
      split at hs
      · rename_i hsign
        cases s with
        | nil => exact fun c hc => (List.not_mem_nil hc).elim
        | cons e s =>
          refine List.forall_mem_cons.mpr ⟨?_, isDigits_numeral hs⟩
          have he : e = '-' ∨ e = '+' := by simpa using hsign
          rcases he with rfl | rfl
          · decide
          · decide
      · exact isDigits_numeral hs
    exact List.forall_mem_cons.mpr ⟨hletter, hrest⟩

theorem isFraction_numeral {s : List Char} (h : isFraction s = true) :
    ∀ c ∈ s, isNumeral c = true := by
  unfold isFraction at h
  split at h
  · rename_i s
    rw [Bool.and_eq_true] at h
    intro c hc
    rcases List.mem_cons.mp hc with rfl | hc
    · decide
    · rw [← List.takeWhile_append_dropWhile (p := Char.isDigit) (l := s)] at hc
      rcases List.mem_append.mp hc with hc | hc
      · exact isDigits_numeral h.1 c hc
      · exact isExponent_numeral h.2 c hc
  · exact isExponent_numeral h

theorem unsigned_mem {s : List Char} {c : Char} (hc : c ∈ s) : c = '-' ∨ c ∈ unsigned s := by
  unfold unsigned
  split
  · rename_i hminus
    cases s with
    | nil => cases hc
    | cons d s =>
      rcases List.mem_cons.mp hc with rfl | hc
      · exact .inl (Option.some.inj hminus)
      · exact .inr hc
  · exact .inr hc

/-- A literal is made of the characters of numbers. -/
theorem isNumber_numeral {s : List Char} (h : isNumber s = true) : ∀ c ∈ s, isNumeral c = true := by
  intro c hc
  rw [isNumber, Bool.and_eq_true] at h
  rcases unsigned_mem hc with rfl | hc
  · decide
  · rw [← List.takeWhile_append_dropWhile (p := Char.isDigit) (l := unsigned s)] at hc
    rcases List.mem_append.mp hc with hc | hc
    · exact isNumeral_of_isDigit (List.mem_takeWhile_imp hc)
    · exact isFraction_numeral h.2 c hc

theorem isNumber_ne_nil {s : List Char} (h : isNumber s = true) : s ≠ [] := by
  rintro rfl
  exact absurd h (by decide)

/-- No number but 0 starts with the digit 0. -/
theorem toDigits_head {n : Nat} (hn : 0 < n) : (Nat.toDigits 10 n).head? ≠ some '0' := by
  induction n using Nat.strong_induction_on with
  | _ n ih =>
    by_cases hlt : n < 10
    · rw [Nat.toDigits_of_lt_base hlt]
      intro h
      have hdigit : ∀ k < 10, 0 < k → Nat.digitChar k ≠ '0' := by decide
      exact hdigit n hlt hn (Option.some.inj h)
    · have hle : 10 ≤ n := Nat.not_lt.mp hlt
      rw [Nat.toDigits_of_base_le (by decide) hle, List.head?_append]
      have hpos : 0 < n / 10 := Nat.div_pos hle (by decide)
      have hhead := ih (n / 10) (Nat.div_lt_self hn (by decide)) hpos
      cases hd : (Nat.toDigits 10 (n / 10)).head? with
      | none => exact absurd (List.head?_eq_none_iff.mp hd) Nat.toDigits_ne_nil
      | some c =>
        rw [hd] at hhead
        exact hhead

theorem isDigits_toDigits (n : Nat) : isDigits (Nat.toDigits 10 n) = true := by
  have hne : Nat.toDigits 10 n ≠ [] := Nat.toDigits_ne_nil
  have hall : (Nat.toDigits 10 n).all Char.isDigit = true :=
    List.all_eq_true.mpr fun c hc => Nat.isDigit_of_mem_toDigits (by decide) (by decide) hc
  simp [isDigits, hne, hall]

theorem head_isDigit {s : List Char} (h : isDigits s = true) : s.head? ≠ some '-' := by
  intro hminus
  cases s with
  | nil => cases hminus
  | cons c s =>
    have hc : isDigits (c :: s) = true := h
    rw [isDigits, Bool.and_eq_true] at hc
    rw [Option.some.inj hminus] at hc
    exact absurd (List.all_eq_true.mp hc.2 '-' List.mem_cons_self) (by decide)

/-- What remains of a written integer without its sign. -/
theorem unsigned_ofInt {i : Int} {s : List Char} (h : ofInt i = .num s) :
    unsigned s = Nat.toDigits 10 i.natAbs := by
  cases h
  split
  · rfl
  · rw [unsigned, if_neg (head_isDigit (isDigits_toDigits _))]

theorem isNumber_ofInt {i : Int} {s : List Char} (h : ofInt i = .num s) : isNumber s = true := by
  have hall : ∀ c ∈ Nat.toDigits 10 i.natAbs, c.isDigit = true := fun c hc =>
    Nat.isDigit_of_mem_toDigits (by decide) (by decide) hc
  have htake : (Nat.toDigits 10 i.natAbs).takeWhile Char.isDigit = Nat.toDigits 10 i.natAbs :=
    List.takeWhile_eq_self_iff.mpr hall
  have hdrop : (Nat.toDigits 10 i.natAbs).dropWhile Char.isDigit = [] :=
    List.dropWhile_eq_nil_iff.mpr hall
  rw [isNumber, unsigned_ofInt h, htake, hdrop]
  by_cases hzero : i.natAbs = 0
  · simp [hzero, isFraction, isExponent]
  · have hhead := toDigits_head (Nat.pos_of_ne_zero hzero)
    simp [isDigits_toDigits, hhead, isFraction, isExponent]

/-- An integer is read back from its literal. -/
theorem toInt?_ofInt (i : Int) : (ofInt i).toInt? = some i := by
  obtain ⟨s, hs⟩ : ∃ s, ofInt i = .num s := ⟨_, rfl⟩
  have hun := unsigned_ofInt hs
  have hvalue : Nat.ofDigitChars 10 (unsigned s) 0 = i.natAbs := by
    rw [hun, Nat.ofDigitChars_ten_toDigits]
  have hsign : s.head? = some '-' ↔ i < 0 := by
    cases hs
    constructor
    · intro h
      by_contra hi
      rw [if_neg hi] at h
      exact head_isDigit (isDigits_toDigits _) h
    · intro hi
      rw [if_pos hi]
      rfl
  have hne : s ≠ ['-', '0'] := by
    rintro rfl
    have hneg : i < 0 := hsign.mp rfl
    have hzero : i.natAbs = 0 := by
      rw [← hvalue]
      decide
    omega
  have hdigits : isDigits (unsigned s) = true := by
    rw [hun]
    exact isDigits_toDigits _
  rw [hs]
  show (if s = ['-', '0'] then none else _) = _
  rw [if_neg hne, if_pos hdigits, hvalue]
  by_cases hi : i < 0
  · rw [if_pos (hsign.mpr hi)]
    congr 1
    omega
  · rw [if_neg fun h => hi (hsign.mp h)]
    congr 1
    omega

/-! ### Values whose numbers are numbers -/

inductive Proper : Json → Prop
  | null : Proper .null
  | bool (b : Bool) : Proper (.bool b)
  | num {s : List Char} (h : isNumber s = true) : Proper (.num s)
  | str (s : String) : Proper (.str s)
  | arr {l : List Json} (h : ∀ v ∈ l, Proper v) : Proper (.arr l)
  | obj {l : List (String × Json)} (h : ∀ m ∈ l, Proper m.2) : Proper (.obj l)

theorem proper_ofInt (i : Int) : Proper (ofInt i) := .num (isNumber_ofInt rfl)

/-! ### Strings -/

theorem hexVal_digitChar : ∀ d < 16, hexVal (Nat.digitChar d) = some d := by decide

theorem hex_digitChar {d : Nat} (hd : d < 16) (t : List Char) :
    hex (Nat.digitChar d :: t) = some (d, t) := by
  show orFail (hexVal (Nat.digitChar d)) t = _
  rw [hexVal_digitChar d hd]
  rfl

/-- The number of a control character, in four digits. -/
theorem hex4_control {n : Nat} (hn : n < 0x20) (t : List Char) :
    hex4 ('0' :: '0' :: Nat.digitChar (n / 16) :: Nat.digitChar (n % 16) :: t) = some (n, t) := by
  have hzero (u : List Char) : hex ('0' :: u) = some (0, u) := hex_digitChar (d := 0) (by decide) u
  have hlow : n % 16 < 16 := Nat.mod_lt n (by decide)
  have hhigh : n / 16 < 16 := by omega
  rw [hex4, andThen_of_some (hzero _), andThen_of_some (hzero _),
    andThen_of_some (hex_digitChar hhigh _), andThen_of_some (hex_digitChar hlow _)]
  have hsum : ((0 * 16 + 0) * 16 + n / 16) * 16 + n % 16 = n := by omega
  rw [hsum]
  rfl

/-- A written character is read back, and does not look like the end of the string. -/
theorem character_printChar (c : Char) : ∃ d u, printChar c = d :: u ∧ d ≠ '\x22' ∧
    ∀ t, character d (u ++ t) = some (c, t) := by
  unfold printChar
  cases he : writeEscapes.lookup c with
  | some e =>
    have hback : ∀ x ∈ writeEscapes, x.2 ≠ 'u' ∧ readEscapes.lookup x.2 = some x.1 := by decide
    obtain ⟨l₁, l₂, hmem, -⟩ := List.lookup_eq_some_iff.mp he
    obtain ⟨hu, hread⟩ := hback (c, e) (by simp [hmem])
    refine ⟨'\x5c', [e], rfl, by decide, fun t => ?_⟩
    show (if e = 'u' then unicode else orFail (readEscapes.lookup e)) t = _
    rw [if_neg hu, hread]
    rfl
  | none =>
    dsimp only
    split
    · rename_i hlow
      refine ⟨'\x5c', _, rfl, by decide, fun t => ?_⟩
      show unicode ('0' :: '0' :: Nat.digitChar (c.toNat / 16) :: Nat.digitChar (c.toNat % 16) :: t) = _
      rw [unicode, andThen_of_some (hex4_control hlow t), if_pos (.inl (by omega)), Char.ofNat_toNat]
      rfl
    · rename_i hlow
      have hplain : c ≠ '\x22' ∧ c ≠ '\x5c' := by
        constructor
        · rintro rfl
          exact absurd he (by decide)
        · rintro rfl
          exact absurd he (by decide)
      refine ⟨c, [], rfl, hplain.1, fun t => ?_⟩
      show character c t = _
      rw [character, if_neg hplain.2, if_neg hlow]
      rfl

theorem printChar_ne_nil (c : Char) : printChar c ≠ [] := by
  obtain ⟨d, u, h, -⟩ := character_printChar c
  rw [h]
  exact List.cons_ne_nil d u

theorem length_printText (s : List Char) : s.length < (printText s).length := by
  induction s with
  | nil => exact Nat.one_pos
  | cons c s ih =>
    have hpos := List.length_pos_iff.mpr (printChar_ne_nil c)
    simp only [printText, List.flatMap_cons, List.length_append, List.length_cons] at ih ⊢
    omega

theorem text_printText {s : List Char} {n : Nat} (hn : s.length < n) (t : List Char) :
    text n (printText s ++ t) = some (s, t) := by
  induction s generalizing n with
  | nil =>
    obtain ⟨n, rfl⟩ := Nat.exists_eq_add_one_of_ne_zero (Nat.ne_zero_of_lt hn)
    rfl
  | cons c s ih =>
    obtain ⟨n, rfl⟩ := Nat.exists_eq_add_one_of_ne_zero (Nat.ne_zero_of_lt hn)
    obtain ⟨d, u, hprint, hd, hread⟩ := character_printChar c
    have hshape : printText (c :: s) ++ t = d :: (u ++ (printText s ++ t)) := by
      simp [printText, hprint]
    have hnext (v : List Char) : next (d :: v) = some (d, v) := rfl
    rw [hshape, text, andThen_of_some (hnext _), if_neg hd, andThen_of_some (hread _)]
    exact map_of_some (ih (Nat.lt_of_succ_lt_succ hn)) _

/-! ### Values -/

theorem printItemsRest_eq (l : List Json) : printItemsRest l = rest print ',' ']' l := by
  induction l with
  | nil => rfl
  | cons v l ih => rw [printItemsRest, ih, rest]

theorem printItems_eq (l : List Json) : printItems l = join print ',' ']' l := by
  cases l with
  | nil => rfl
  | cons v l => rw [printItems, printItemsRest_eq, join]

theorem printMembersRest_eq (l : List (String × Json)) :
    printMembersRest l = rest printMember ',' '}' l := by
  induction l with
  | nil => rfl
  | cons m l ih => rw [printMembersRest, ih, rest]

theorem printMembers_eq (l : List (String × Json)) : printMembers l = join printMember ',' '}' l := by
  cases l with
  | nil => rfl
  | cons m l => rw [printMembers, printMembersRest_eq, join]

theorem word_append (s t : List Char) : word s (s ++ t) = some ((), t) := by
  induction s with
  | nil => rfl
  | cons c s ih =>
    have hexpect (u : List Char) : expect c (c :: u) = some ((), u) := by
      show (if c = c then done () else fail) u = _
      rw [if_pos rfl]
      rfl
    rw [List.cons_append, word, andThen_of_some (hexpect _)]
    exact ih

/-- A number could end here. -/
def Ends (t : List Char) : Prop := ∀ c ∈ t.head?, isNumeral c = false

theorem numeral_append {c : Char} {s t : List Char} (h : isNumber (c :: s) = true) (ht : Ends t) :
    numeral c (s ++ t) = some (.num (c :: s), t) := by
  have hs : ∀ d ∈ s, isNumeral d = true := fun d hd => isNumber_numeral h d (List.mem_cons_of_mem c hd)
  have hstop : t.takeWhile isNumeral = [] ∧ t.dropWhile isNumeral = t := by
    cases t with
    | nil => exact ⟨rfl, rfl⟩
    | cons d t =>
      have hd : ¬isNumeral d = true := by simp [ht d rfl]
      exact ⟨List.takeWhile_cons_of_neg hd, List.dropWhile_cons_of_neg hd⟩
  have htake : (s ++ t).takeWhile isNumeral = s := by
    rw [List.takeWhile_append_of_pos hs, hstop.1, List.append_nil]
  have hdrop : (s ++ t).dropWhile isNumeral = t := by
    rw [List.dropWhile_append_of_pos hs, hstop.2]
  rw [numeral, htake, hdrop, if_pos h]

/-- The first characters of the values that are not numbers. -/
theorem valueAt_numeral {p : Reader Json} {n : Nat} {c : Char} (h : isNumeral c = true) :
    valueAt p n c = numeral c := by
  have hother : ∀ d ∈ ['\x22', '[', '{', 'n', 't', 'f'], c ≠ d := by
    rintro d hd rfl
    have hnone : (['\x22', '[', '{', 'n', 't', 'f'].all fun d => !isNumeral d) = true := by decide
    have hc := List.all_eq_true.mp hnone c hd
    rw [h] at hc
    cases hc
  simp only [List.forall_mem_cons] at hother
  obtain ⟨h₁, h₂, h₃, h₄, h₅, h₆, -⟩ := hother
  rw [valueAt, if_neg h₁, if_neg h₂, if_neg h₃, if_neg h₄, if_neg h₅, if_neg h₆]

theorem isSpace_numeral {c : Char} (h : isNumeral c = true) : isSpace c = false := by
  rw [Bool.eq_false_iff]
  intro hspace
  have hnone : ([' ', '\n', '\t', '\r'].all fun d => !isNumeral d) = true := by decide
  have hmem : c ∈ [' ', '\n', '\t', '\r'] := by simpa [isSpace, or_assoc] using hspace
  have hc := List.all_eq_true.mp hnone c hmem
  rw [h] at hc
  cases hc

/-- How the text of a value starts. -/
theorem print_head {v : Json} (hv : Proper v) :
    ∃ c s, print v = c :: s ∧ c ≠ ']' ∧ isSpace c = false := by
  cases hv with
  | null => exact ⟨'n', _, rfl, by decide, by decide⟩
  | bool b =>
    cases b with
    | true => exact ⟨'t', _, rfl, by decide, by decide⟩
    | false => exact ⟨'f', _, rfl, by decide, by decide⟩
  | num h =>
    rename_i s
    cases s with
    | nil => exact absurd rfl (isNumber_ne_nil h)
    | cons c s =>
      have hc := isNumber_numeral h c List.mem_cons_self
      refine ⟨c, s, rfl, ?_, isSpace_numeral hc⟩
      rintro rfl
      exact absurd hc (by decide)
  | str s => exact ⟨'\x22', _, rfl, by decide, by decide⟩
  | arr h => exact ⟨'[', _, rfl, by decide, by decide⟩
  | obj h => exact ⟨'{', _, rfl, by decide, by decide⟩

theorem printMember_head (m : String × Json) :
    ∃ c s, printMember m = c :: s ∧ c ≠ '}' ∧ isSpace c = false := by
  obtain ⟨k, v⟩ := m
  exact ⟨'\x22', _, rfl, by decide, by decide⟩

theorem ends_of_follows {close : Char} {t : List Char} (h : Follows ',' close t)
    (hclose : isNumeral close = false) : Ends t := by
  obtain ⟨c, u, rfl, hc⟩ := h
  intro d hd
  obtain rfl : c = d := Option.some.inj hd
  rcases hc with rfl | rfl
  · decide
  · exact hclose

/-- Every item of a list is shorter than the list. -/
theorem length_join {α : Type} (f : α → List Char) (sep close : Char) (l : List α) :
    (∀ a ∈ l, (f a).length ≤ (join f sep close l).length) ∧ l.length ≤ (join f sep close l).length := by
  have hrest (l : List α) : (∀ a ∈ l, (f a).length ≤ (rest f sep close l).length) ∧
      l.length < (rest f sep close l).length := by
    induction l with
    | nil => exact ⟨fun a ha => (List.not_mem_nil ha).elim, Nat.one_pos⟩
    | cons a l ih =>
      simp only [List.forall_mem_cons, rest, List.length_cons, List.length_append]
      refine ⟨⟨by omega, fun b hb => ?_⟩, by omega⟩
      have hle := ih.1 b hb
      omega
  cases l with
  | nil => exact ⟨fun a ha => (List.not_mem_nil ha).elim, Nat.zero_le _⟩
  | cons a l =>
    simp only [List.forall_mem_cons, join, List.length_cons, List.length_append]
    refine ⟨⟨by omega, fun b hb => ?_⟩, ?_⟩
    · have hle := (hrest l).1 b hb
      omega
    · have hlt := (hrest l).2
      omega

/-- The value of a member is read at fewer steps than the object. -/
theorem member_printMember {m : String × Json} {n : Nat} {t : List Char}
    (hm : (printMember m).length ≤ n)
    (h : value n (print m.2 ++ t) = some (m.2, t)) :
    member (value n) n (printMember m ++ t) = some (m, t) := by
  obtain ⟨k, v⟩ := m
  have hkey : k.toList.length < n := by
    have hlen := length_printText k.toList
    simp only [printMember, List.length_cons, List.length_append] at hm
    omega
  have htoken (c : Char) (u : List Char) (hc : isSpace c = false) : token (c :: u) = some (c, u) :=
    token_cons hc u
  have hshape : printMember (k, v) ++ t = '\x22' :: (printText k.toList ++ (':' :: (print v ++ t))) := by
    simp [printMember]
  rw [hshape, member, andThen_of_some (htoken _ _ (by decide)), if_pos rfl,
    andThen_of_some (text_printText hkey _), andThen_of_some (htoken _ _ (by decide)), if_pos rfl,
    map_of_some h, String.ofList_toList]

theorem value_at {n : Nat} {c : Char} (hc : isSpace c = false) (s : List Char) :
    value (n + 1) (c :: s) = valueAt (value n) n c s := andThen_of_some (token_cons hc s)

theorem steps_pos {v : Json} (hv : Proper v) {n : Nat} (hn : (print v).length ≤ n) :
    ∃ m, n = m + 1 := by
  obtain ⟨c, s, hs, -⟩ := print_head hv
  rw [hs] at hn
  exact Nat.exists_eq_add_one_of_ne_zero (Nat.ne_zero_of_lt hn)

/-- A written value is read back, if a number in front of what follows it can end there. -/
theorem value_print {v : Json} (hv : Proper v) {n : Nat} (hn : (print v).length ≤ n) {t : List Char}
    (ht : v.isNum = true → Ends t) : value n (print v ++ t) = some (v, t) := by
  induction hv generalizing n t with
  | null =>
    obtain ⟨n, rfl⟩ := steps_pos .null hn
    exact (value_at rfl _).trans (map_of_some (word_append ['u', 'l', 'l'] t) fun _ => null)
  | bool b =>
    obtain ⟨n, rfl⟩ := steps_pos (.bool b) hn
    cases b with
    | true => exact (value_at rfl _).trans (map_of_some (word_append ['r', 'u', 'e'] t) fun _ => bool true)
    | false =>
      exact (value_at rfl _).trans (map_of_some (word_append ['a', 'l', 's', 'e'] t) fun _ => bool false)
  | @num s h =>
    obtain ⟨n, rfl⟩ := steps_pos (.num h) hn
    cases s with
    | nil => exact absurd rfl (isNumber_ne_nil h)
    | cons c s =>
      have hc := isNumber_numeral h c List.mem_cons_self
      refine (value_at (isSpace_numeral hc) (s ++ t)).trans ?_
      rw [valueAt_numeral hc]
      exact numeral_append h (ht rfl)
  | str s =>
    obtain ⟨n, rfl⟩ := steps_pos (.str s) hn
    have hlen : s.toList.length < n := by
      have h := length_printText s.toList
      simp only [print, List.length_cons] at hn
      omega
    have htext : valueAt (value n) n '\x22' (printText s.toList ++ t) = some (str (String.ofList s.toList), t) :=
      map_of_some (text_printText hlen t) fun s => str (String.ofList s)
    rw [String.ofList_toList] at htext
    exact (value_at rfl _).trans htext
  | @arr l h ih =>
    obtain ⟨n, rfl⟩ := steps_pos (.arr h) hn
    have hprint : print (.arr l) = '[' :: join print ',' ']' l := by rw [print, printItems_eq]
    rw [hprint] at hn ⊢
    obtain ⟨hitems, hcount⟩ := length_join print ',' ']' l
    have hle : (join print ',' ']' l).length ≤ n := Nat.le_of_succ_le_succ hn
    have hlist := list_join (p := value n) rfl rfl (by decide)
      (fun v hv t ht => ih v hv ((hitems v hv).trans hle) fun _ => ends_of_follows ht rfl)
      (fun v hv => print_head (h v hv)) (hcount.trans hle) t
    exact (value_at rfl _).trans (map_of_some hlist arr)
  | @obj l h ih =>
    obtain ⟨n, rfl⟩ := steps_pos (.obj h) hn
    have hprint : print (.obj l) = '{' :: join printMember ',' '}' l := by rw [print, printMembers_eq]
    rw [hprint] at hn ⊢
    obtain ⟨hitems, hcount⟩ := length_join printMember ',' '}' l
    have hle : (join printMember ',' '}' l).length ≤ n := Nat.le_of_succ_le_succ hn
    have hmember : ∀ m ∈ l, ∀ t, Follows ',' '}' t → member (value n) n (printMember m ++ t) = some (m, t) := by
      intro m hm t ht
      have hlen := (hitems m hm).trans hle
      refine member_printMember hlen (ih m hm ?_ fun _ => ends_of_follows ht rfl)
      obtain ⟨k, v⟩ := m
      simp only [printMember, List.length_cons, List.length_append] at hlen ⊢
      omega
    have hlist := list_join (p := member (value n) n) rfl rfl (by decide) hmember
      (fun m _ => printMember_head m) (hcount.trans hle) t
    exact (value_at rfl _).trans (map_of_some hlist obj)

/-- What is written is read back. -/
theorem parse_print {v : Json} (hv : Proper v) : parse (print v) = some v := by
  refine parse_eq.mpr ⟨[], ?_, rfl⟩
  have h := value_print hv (n := (print v).length + 1) (Nat.le_succ _) (t := []) fun _ _ hc => by cases hc
  rwa [List.append_nil] at h

/-! ### One line -/

theorem visible_of_isNumeral {c : Char} (h : isNumeral c = true) : 0x20 ≤ c.toNat := by
  by_contra hlow
  have hnone : ∀ n < 0x20, isNumeral (Char.ofNat n) = false := by decide
  have hc := hnone c.toNat (by omega)
  rw [Char.ofNat_toNat, h] at hc
  cases hc

theorem printChar_visible (c : Char) : ∀ d ∈ printChar c, 0x20 ≤ d.toNat := by
  unfold printChar
  cases he : writeEscapes.lookup c with
  | some e =>
    have hall : ∀ x ∈ writeEscapes, 0x20 ≤ x.2.toNat := by decide
    obtain ⟨l₁, l₂, hmem, -⟩ := List.lookup_eq_some_iff.mp he
    have h := hall (c, e) (by simp [hmem])
    simpa using h
  | none =>
    dsimp only
    split
    · have hall : ∀ d < 16, 0x20 ≤ (Nat.digitChar d).toNat := by decide
      have hlow := hall (c.toNat % 16) (Nat.mod_lt _ (by decide))
      have hhigh := hall (c.toNat / 16) (by omega)
      simp only [List.forall_mem_cons]
      exact ⟨by decide, by decide, by decide, by decide, hhigh, hlow, fun d hd => (List.not_mem_nil hd).elim⟩
    · rename_i h
      simpa using h

theorem printText_visible (s : List Char) : ∀ d ∈ printText s, 0x20 ≤ d.toNat := by
  intro d hd
  rcases List.mem_append.mp hd with hd | hd
  · obtain ⟨c, -, hc⟩ := List.mem_flatMap.mp hd
    exact printChar_visible c d hc
  · rw [List.mem_singleton.mp hd]
    decide

theorem join_visible {α : Type} {f : α → List Char} {sep close : Char} (hsep : 0x20 ≤ sep.toNat)
    (hclose : 0x20 ≤ close.toNat) {l : List α} (h : ∀ a ∈ l, ∀ d ∈ f a, 0x20 ≤ d.toNat) :
    ∀ d ∈ join f sep close l, 0x20 ≤ d.toNat := by
  have hrest {l : List α} (h : ∀ a ∈ l, ∀ d ∈ f a, 0x20 ≤ d.toNat) :
      ∀ d ∈ rest f sep close l, 0x20 ≤ d.toNat := by
    induction l with
    | nil => simpa [rest] using hclose
    | cons a l ih =>
      rw [List.forall_mem_cons] at h
      rw [rest, List.forall_mem_cons, List.forall_mem_append]
      exact ⟨hsep, h.1, ih h.2⟩
  cases l with
  | nil => simpa [join] using hclose
  | cons a l =>
    rw [List.forall_mem_cons] at h
    rw [join, List.forall_mem_append]
    exact ⟨h.1, hrest h.2⟩

/-- A value is written on one line. -/
theorem print_visible {v : Json} (hv : Proper v) : ∀ d ∈ print v, 0x20 ≤ d.toNat := by
  have hword {s : List Char} (h : (s.all fun d => 0x20 ≤ d.toNat) = true) : ∀ d ∈ s, 0x20 ≤ d.toNat :=
    fun d hd => of_decide_eq_true (List.all_eq_true.mp h d hd)
  induction hv with
  | null => exact hword (by decide)
  | bool b =>
    cases b with
    | true => exact hword (by decide)
    | false => exact hword (by decide)
  | num h => exact fun d hd => visible_of_isNumeral (isNumber_numeral h d hd)
  | str s => exact List.forall_mem_cons.mpr ⟨by decide, printText_visible _⟩
  | @arr l h ih =>
    rw [print, printItems_eq]
    exact List.forall_mem_cons.mpr ⟨by decide, join_visible (by decide) (by decide) ih⟩
  | @obj l h ih =>
    rw [print, printMembers_eq]
    refine List.forall_mem_cons.mpr ⟨by decide, join_visible (by decide) (by decide) fun m hm => ?_⟩
    have hvalue := ih m hm
    obtain ⟨k, v⟩ := m
    rw [printMember, List.forall_mem_cons, List.forall_mem_append, List.forall_mem_cons]
    exact ⟨by decide, printText_visible _, by decide, hvalue⟩

end Json
