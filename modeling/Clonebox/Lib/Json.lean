import Clonebox.Lib.Scan

/-! # JSON texts

Values, the compact text of a value, and the value of a text. What is written is read back
(`parse_print`), a text that is complete is not the beginning of another (`parse_append`), and a
value is written on one line (`print_visible`). A number is kept as its literal. -/

open Scan Reader

inductive Json where
  | null
  | bool (b : Bool)
  | num (literal : List Char)
  | str (s : String)
  | arr (items : List Json)
  | obj (members : List (String × Json))

namespace Json

/-! ### Numbers -/

def isDigits (s : List Char) : Bool := !s.isEmpty && s.all Char.isDigit

def isExponent : List Char → Bool
  | [] => true
  | c :: s => (c = 'e' || c = 'E') &&
    isDigits (if s.head? = some '-' || s.head? = some '+' then s.tail else s)

def isFraction : List Char → Bool
  | '.' :: s => isDigits (s.takeWhile Char.isDigit) && isExponent (s.dropWhile Char.isDigit)
  | s => isExponent s

def unsigned (s : List Char) : List Char := if s.head? = some '-' then s.tail else s

def isNumber (s : List Char) : Bool :=
  let int := (unsigned s).takeWhile Char.isDigit
  (int = ['0'] || isDigits int && int.head? ≠ some '0') &&
    isFraction ((unsigned s).dropWhile Char.isDigit)

def ofInt (i : Int) : Json :=
  .num (if i < 0 then '-' :: Nat.toDigits 10 i.natAbs else Nat.toDigits 10 i.natAbs)

/-- The integer that a value is. A minus sign before 0 makes it a fractional number. -/
def toInt? : Json → Option Int
  | .num s =>
    if s = ['-', '0'] then none
    else if isDigits (unsigned s) then
      some (if s.head? = some '-' then -Nat.ofDigitChars 10 (unsigned s) 0
        else Nat.ofDigitChars 10 (unsigned s) 0)
    else none
  | _ => none

/-! ### Reading -/

/-- What may follow a backslash, and the character it stands for. -/
def readEscapes : List (Char × Char) :=
  [('\x22', '\x22'), ('\x5c', '\x5c'), ('/', '/'), ('b', '\x08'), ('f', '\x0c'), ('n', '\n'),
    ('r', '\r'), ('t', '\t')]

def hexVal (c : Char) : Option Nat :=
  if c.isDigit then some (c.toNat - 48)
  else if 'a' ≤ c ∧ c ≤ 'f' then some (c.toNat - 87)
  else if 'A' ≤ c ∧ c ≤ 'F' then some (c.toNat - 55)
  else none

def orFail {α : Type} : Option α → Reader α
  | some a => done a
  | none => fail

def hex : Reader Nat := next.andThen fun c => orFail (hexVal c)

def hex4 : Reader Nat :=
  hex.andThen fun a => hex.andThen fun b => hex.andThen fun c => hex.andThen fun d =>
    done (((a * 16 + b) * 16 + c) * 16 + d)

/-- Read just this character. -/
def expect (c : Char) : Reader Unit := next.andThen fun d => if d = c then done () else fail

/-- A character by its number, which may be split in two halves. -/
def unicode : Reader Char := hex4.andThen fun n =>
  if n < 0xd800 ∨ 0xdfff < n then done (Char.ofNat n)
  else if n < 0xdc00 then
    (expect '\x5c').andThen fun _ => (expect 'u').andThen fun _ => hex4.andThen fun m =>
      if 0xdc00 ≤ m ∧ m ≤ 0xdfff then
        done (Char.ofNat (0x10000 + (n - 0xd800) * 0x400 + (m - 0xdc00)))
      else fail
  else fail

def escape : Reader Char := next.andThen fun c =>
  if c = 'u' then unicode else orFail (readEscapes.lookup c)

/-- The character of a string that starts with `c`. -/
def character (c : Char) : Reader Char :=
  if c = '\x5c' then escape else if c.toNat < 0x20 then fail else done c

/-- A string behind its opening quote, of fewer than `n` characters. -/
def text : Nat → Reader (List Char)
  | 0 => fail
  | n + 1 => next.andThen fun c =>
    if c = '\x22' then done []
    else (character c).andThen fun d => (text n).map (d :: ·)

def word : List Char → Reader Unit
  | [] => done ()
  | c :: s => (expect c).andThen fun _ => word s

/-- The characters of numbers. A number ends where another character follows. -/
def isNumeral (c : Char) : Bool := c.isDigit || ['-', '+', '.', 'e', 'E'].contains c

def numeral (c : Char) : Reader Json := fun s =>
  if isNumber (c :: s.takeWhile isNumeral) then
    some (.num (c :: s.takeWhile isNumeral), s.dropWhile isNumeral)
  else none

def member (value : Reader Json) (n : Nat) : Reader (String × Json) := token.andThen fun c =>
  if c = '\x22' then
    (text n).andThen fun k => token.andThen fun d =>
      if d = ':' then value.map fun v => (String.ofList k, v) else fail
  else fail

/-- A value that starts with `c`. -/
def valueAt (value : Reader Json) (n : Nat) (c : Char) : Reader Json :=
  if c = '\x22' then (text n).map fun s => .str (String.ofList s)
  else if c = '[' then (list value ',' ']' n).map .arr
  else if c = '{' then (list (member value n) ',' '}' n).map .obj
  else if c = 'n' then (word ['u', 'l', 'l']).map fun _ => .null
  else if c = 't' then (word ['r', 'u', 'e']).map fun _ => .bool true
  else if c = 'f' then (word ['a', 'l', 's', 'e']).map fun _ => .bool false
  else numeral c

/-- A value in at most `n` steps. -/
def value : Nat → Reader Json
  | 0 => fail
  | n + 1 => token.andThen (valueAt (value n) n)

/-- The value of a whole text. -/
def parse (s : List Char) : Option Json :=
  match value (s.length + 1) s with
  | some (v, r) => if skip r = [] then some v else none
  | none => none

/-! ### Writing -/

/-- The characters that have a short escape. -/
def writeEscapes : List (Char × Char) :=
  [('\x22', '\x22'), ('\x5c', '\x5c'), ('\x08', 'b'), ('\x0c', 'f'), ('\n', 'n'), ('\r', 'r'),
    ('\t', 't')]

def printChar (c : Char) : List Char :=
  match writeEscapes.lookup c with
  | some e => ['\x5c', e]
  | none =>
    if c.toNat < 0x20 then
      ['\x5c', 'u', '0', '0', Nat.digitChar (c.toNat / 16), Nat.digitChar (c.toNat % 16)]
    else [c]

def printText (s : List Char) : List Char := s.flatMap printChar ++ ['\x22']

mutual

def print : Json → List Char
  | .null => ['n', 'u', 'l', 'l']
  | .bool true => ['t', 'r', 'u', 'e']
  | .bool false => ['f', 'a', 'l', 's', 'e']
  | .num s => s
  | .str s => '\x22' :: printText s.toList
  | .arr l => '[' :: printItems l
  | .obj l => '{' :: printMembers l
termination_by structural v => v

def printItems : List Json → List Char
  | [] => [']']
  | v :: l => print v ++ printItemsRest l
termination_by structural l => l

def printItemsRest : List Json → List Char
  | [] => [']']
  | v :: l => ',' :: (print v ++ printItemsRest l)
termination_by structural l => l

def printMembers : List (String × Json) → List Char
  | [] => ['}']
  | m :: l => printMember m ++ printMembersRest l
termination_by structural l => l

def printMembersRest : List (String × Json) → List Char
  | [] => ['}']
  | m :: l => ',' :: (printMember m ++ printMembersRest l)
termination_by structural l => l

def printMember : String × Json → List Char
  | (k, v) => '\x22' :: (printText k.toList ++ ':' :: print v)
termination_by structural m => m

end

/-! ### Text behind a value -/

section
variable {α : Type}

theorem closed_orFail (a : Option α) : Closed (orFail a) := by
  cases a with
  | none => exact closed_fail
  | some a => exact closed_done a

theorem closed_expect (c : Char) : Closed (expect c) :=
  closed_next.andThen fun _ => closed_ite (closed_done _) closed_fail

theorem closed_word (s : List Char) : Closed (word s) := by
  induction s with
  | nil => exact closed_done _
  | cons c s ih => exact (closed_expect c).andThen fun _ => ih

theorem closed_hex : Closed hex := closed_next.andThen fun _ => closed_orFail _

theorem closed_hex4 : Closed hex4 :=
  closed_hex.andThen fun _ => closed_hex.andThen fun _ => closed_hex.andThen fun _ =>
    closed_hex.andThen fun _ => closed_done _

theorem closed_unicode : Closed unicode := by
  refine closed_hex4.andThen fun n => closed_ite (closed_done _) (closed_ite ?_ closed_fail)
  exact (closed_expect _).andThen fun _ => (closed_expect _).andThen fun _ =>
    closed_hex4.andThen fun _ => closed_ite (closed_done _) closed_fail

theorem closed_escape : Closed escape :=
  closed_next.andThen fun _ => closed_ite closed_unicode (closed_orFail _)

theorem closed_character (c : Char) : Closed (character c) :=
  closed_ite closed_escape (closed_ite closed_fail (closed_done c))

theorem closed_text (n : Nat) : Closed (text n) := by
  induction n with
  | zero => exact closed_fail
  | succ n ih =>
    exact closed_next.andThen fun c => closed_ite (closed_done _)
      ((closed_character c).andThen fun d => ih.map _)

/-- A number goes on as far as it can. -/
theorem extends_numeral (c : Char) : Extends (numeral c) where
  append {s _ _} h hr t := by
    rw [numeral] at h ⊢
    split at h
    · rename_i hnumber
      cases h
      have hspan : s.takeWhile isNumeral ≠ s := by
        intro he
        have happ := List.takeWhile_append_dropWhile (p := isNumeral) (l := s)
        rw [he] at happ
        exact hr (by simpa using happ)
      have htake : (s ++ t).takeWhile isNumeral = s.takeWhile isNumeral := by
        rw [List.takeWhile_append, if_neg]
        intro hlen
        have hbegin : s.takeWhile isNumeral <+: s := List.takeWhile_prefix isNumeral
        exact hspan (hbegin.eq_of_length hlen)
      have hdrop : (s ++ t).dropWhile isNumeral = s.dropWhile isNumeral ++ t := by
        rw [List.dropWhile_append, if_neg]
        simpa using hr
      rw [htake, hdrop, if_pos hnumber]
    · cases h

theorem extends_member {p : Reader Json} (h : Extends p) (n : Nat) : Extends (member p n) := by
  refine closed_token.andThen_extends fun c => ?_
  split
  · refine (closed_text n).andThen_extends fun k => closed_token.andThen_extends fun d => ?_
    split
    · exact h.map _
    · exact closed_fail.extends
  · exact closed_fail.extends

end

/-- What starts as something other than a number. -/
theorem valueAt_cases {p : Reader Json} {n : Nat} (h : Extends p) (c : Char) :
    Closed (valueAt p n c) ∨ valueAt p n c = numeral c := by
  unfold valueAt
  split
  · exact .inl ((closed_text n).map _)
  split
  · exact .inl ((h.list n).map _)
  split
  · exact .inl (((extends_member h n).list n).map _)
  split
  · exact .inl ((closed_word _).map _)
  split
  · exact .inl ((closed_word _).map _)
  split
  · exact .inl ((closed_word _).map _)
  · exact .inr rfl

theorem extends_value (n : Nat) : Extends (value n) := by
  induction n with
  | zero => exact closed_fail.extends
  | succ n ih =>
    refine closed_token.andThen_extends fun c => ?_
    rcases valueAt_cases ih c with hclosed | hnum
    · exact hclosed.extends
    · rw [hnum]
      exact extends_numeral c

def isNum : Json → Bool
  | .num _ => true
  | _ => false

/-- Only a number depends on what follows. -/
theorem value_append {n : Nat} {s r : List Char} {v : Json} (h : value n s = some (v, r))
    (hnum : v.isNum = false) (t : List Char) : value n (s ++ t) = some (v, r ++ t) := by
  cases n with
  | zero => cases h
  | succ n =>
    obtain ⟨c, u, htoken, hv⟩ := andThen_some h
    rw [value, andThen_of_some (closed_token.append htoken t)]
    rcases valueAt_cases (extends_value n) c with hclosed | hnumeral
    · exact hclosed.append hv t
    · rw [hnumeral, numeral] at hv
      split at hv
      · cases hv
        cases hnum
      · cases hv

/-- The characters that other values than numbers start with. -/
def heads : List Char := ['\x22', '[', '{', 'n', 't', 'f']

theorem valueAt_isNum {p : Reader Json} {n : Nat} {c : Char} {s r : List Char} {v : Json}
    (h : valueAt p n c s = some (v, r)) : v.isNum = !heads.contains c := by
  have hmap {α : Type} {q : Reader α} {f : α → Json} (hf : ∀ a, (f a).isNum = false)
      (h : q.map f s = some (v, r)) : v.isNum = false := by
    obtain ⟨a, r', -, hv⟩ := andThen_some h
    cases hv
    exact hf a
  have hhead (hc : c ∈ heads) : (!heads.contains c) = false := by simpa using hc
  unfold valueAt at h
  split at h
  · rename_i hc
    rw [hhead (by simp [heads, hc]), hmap (fun _ => rfl) h]
  split at h
  · rename_i hc
    rw [hhead (by simp [heads, hc]), hmap (fun _ => rfl) h]
  split at h
  · rename_i hc
    rw [hhead (by simp [heads, hc]), hmap (fun _ => rfl) h]
  split at h
  · rename_i hc
    rw [hhead (by simp [heads, hc]), hmap (fun _ => rfl) h]
  split at h
  · rename_i hc
    rw [hhead (by simp [heads, hc]), hmap (fun _ => rfl) h]
  split at h
  · rename_i hc
    rw [hhead (by simp [heads, hc]), hmap (fun _ => rfl) h]
  · rename_i h₁ h₂ h₃ h₄ h₅ h₆
    have hnone : heads.contains c = false := by simp [heads, h₁, h₂, h₃, h₄, h₅, h₆]
    rw [hnone]
    unfold numeral at h
    split at h
    · cases h
      rfl
    · cases h

/-! ### More steps -/

theorem within_text (n : Nat) : Within (text n) (text (n + 1)) := by
  induction n with
  | zero => exact within_fail _
  | succ n ih =>
    exact Within.rfl.andThen fun c => within_ite Within.rfl (Within.rfl.andThen fun d => ih.map _)

theorem within_member {p q : Reader Json} (h : Within p q) (n : Nat) :
    Within (member p n) (member q (n + 1)) :=
  Within.rfl.andThen fun _ => within_ite ((within_text n).andThen fun _ =>
    Within.rfl.andThen fun _ => within_ite (h.map _) Within.rfl) Within.rfl

theorem within_valueAt {p q : Reader Json} (h : Within p q) (n : Nat) (c : Char) :
    Within (valueAt p n c) (valueAt q (n + 1) c) :=
  within_ite ((within_text n).map _) (within_ite ((h.list n).map _)
    (within_ite (((within_member h n).list n).map _) Within.rfl))

theorem within_value (n : Nat) : Within (value n) (value (n + 1)) := by
  induction n with
  | zero => exact within_fail _
  | succ n ih => exact Within.rfl.andThen fun c => within_valueAt ih n c

theorem value_mono {m n : Nat} (hmn : m ≤ n) : Within (value m) (value n) := by
  induction hmn with
  | refl => exact Within.rfl
  | step _ ih => exact ih.trans (within_value _)

/-! ### Whole texts -/

variable {s : List Char} {v : Json}

theorem parse_eq : parse s = some v ↔ ∃ r, value (s.length + 1) s = some (v, r) ∧ skip r = [] := by
  unfold parse
  cases h : value (s.length + 1) s with
  | none => simp
  | some x =>
    obtain ⟨w, r⟩ := x
    by_cases hr : skip r = []
    · simp [hr]
    · simp [hr]

/-- A text that is complete can be followed by nothing but spaces. -/
theorem parse_append (h : parse s = some v) (hnum : v.isNum = false) (t : List Char) :
    parse (s ++ t) = if skip t = [] then some v else none := by
  obtain ⟨r, hv, hr⟩ := parse_eq.mp h
  have hlonger : value ((s ++ t).length + 1) (s ++ t) = some (v, r ++ t) := by
    refine value_append ((value_mono ?_).some hv) hnum t
    simp
  rw [parse, hlonger]
  show (if skip (r ++ t) = [] then some v else none) = _
  rw [skip_append_of_nil hr]

/-- No complete text with anything but spaces behind it is complete. -/
theorem parse_unique {w : Json} {t : List Char} (h : parse s = some v) (hnum : v.isNum = false)
    (ht : parse (s ++ t) = some w) : w = v ∧ skip t = [] := by
  rw [parse_append h hnum] at ht
  split at ht
  · rename_i hskip
    exact ⟨(Option.some.inj ht).symm, hskip⟩
  · cases ht

/-- Whether a text is a number shows at its start. -/
theorem parse_isNum {w : Json} {t : List Char} (h : parse s = some v) (ht : parse (s ++ t) = some w) :
    v.isNum = w.isNum := by
  obtain ⟨r, hv, -⟩ := parse_eq.mp h
  obtain ⟨r', hw, -⟩ := parse_eq.mp ht
  obtain ⟨c, u, htoken, hat⟩ := andThen_some hv
  have hhead := andThen_of_some (f := valueAt (value (s ++ t).length) (s ++ t).length)
    (closed_token.append htoken t)
  rw [value, hhead] at hw
  rw [valueAt_isNum hat, valueAt_isNum hw]

/-- A complete text has no complete beginning, up to spaces. -/
theorem parse_start {w : Json} {t : List Char} (h : parse s = some v) (ht : parse (s ++ t) = some w)
    (hnum : w.isNum = false) : v = w ∧ skip t = [] := by
  obtain ⟨hw, hskip⟩ := parse_unique h ((parse_isNum h ht).trans hnum) ht
  exact ⟨hw.symm, hskip⟩

end Json
