import Mathlib.Algebra.Order.Ring.Nat

/-! # Records of type, length and value

Numbers in little-endian bytes, and lists of records each of which starts with two bytes of length
and two bytes of type. The length counts the head and the value, and the next record starts at the
next multiple of four. -/

namespace Tlv

/-! ### Numbers -/

/-- The low `k` bytes of a number, the lowest first. -/
def le : Nat → Nat → List UInt8
  | 0, _ => []
  | k + 1, n => .ofNat n :: le k (n / 256)

def ofLe (bs : List UInt8) : Nat := bs.foldr (fun b n => b.toNat + 256 * n) 0

@[simp] theorem length_le (k n : Nat) : (le k n).length = k := by
  induction k generalizing n with
  | zero => rfl
  | succ k ih => simp [le, ih]

theorem ofLe_le {k n : Nat} (h : n < 256 ^ k) : ofLe (le k n) = n := by
  induction k generalizing n with
  | zero =>
    have hn : n = 0 := by simpa using h
    rw [hn]
    rfl
  | succ k ih =>
    have hdiv : n / 256 < 256 ^ k := by
      refine Nat.div_lt_of_lt_mul ?_
      rwa [pow_succ, Nat.mul_comm] at h
    have hlow : (UInt8.ofNat n).toNat = n % 256 := by simp
    show (UInt8.ofNat n).toNat + 256 * ofLe (le k (n / 256)) = n
    rw [ih hdiv, hlow]
    omega

/-- Only the low bytes count. -/
theorem le_mod (k n : Nat) : le k (n % 256 ^ k) = le k n := by
  induction k generalizing n with
  | zero => rfl
  | succ k ih =>
    have hlow : UInt8.ofNat (n % 256 ^ (k + 1)) = UInt8.ofNat n := by
      refine UInt8.toNat.inj ?_
      have hmod : n % 256 ^ (k + 1) % 256 = n % 256 :=
        Nat.mod_mod_of_dvd n (dvd_pow_self 256 (Nat.succ_ne_zero k))
      rw [UInt8.toNat_ofNat', UInt8.toNat_ofNat']
      exact hmod
    have hhigh : n % 256 ^ (k + 1) / 256 = n / 256 % 256 ^ k := by
      rw [pow_succ', Nat.mod_mul_right_div_self]
    simp only [le, hlow, hhigh, ih]

/-- Read a number of `k` bytes. -/
def number (k : Nat) (bs : List UInt8) : Option (Nat × List UInt8) :=
  if k ≤ bs.length then some (ofLe (bs.take k), bs.drop k) else none

theorem number_le {k n : Nat} (h : n < 256 ^ k) (bs : List UInt8) :
    number k (le k n ++ bs) = some (n, bs) := by
  have hlen : k ≤ (le k n ++ bs).length := by simp
  rw [number, if_pos hlen, List.take_left' (length_le ..), List.drop_left' (length_le ..), ofLe_le h]

/-! ### Alignment -/

/-- The next multiple of four. -/
def align (n : Nat) : Nat := (n + 3) / 4 * 4

theorem le_align (n : Nat) : n ≤ align n := by
  unfold align
  omega

@[simp] theorem align_mod (n : Nat) : align n % 4 = 0 := by
  unfold align
  omega

theorem align_of_mod {n : Nat} (h : n % 4 = 0) : align n = n := by
  unfold align
  omega

theorem align_add {m : Nat} (h : m % 4 = 0) (n : Nat) : align (m + n) = m + align n := by
  unfold align
  omega

def pad (n : Nat) : List UInt8 := List.replicate (align n - n) 0

theorem length_pad (n : Nat) : n + (pad n).length = align n := by
  have h := le_align n
  simp only [pad, List.length_replicate]
  omega

theorem pad_add {m : Nat} (h : m % 4 = 0) (n : Nat) : pad (m + n) = pad n := by
  unfold pad
  rw [align_add h]
  congr 1
  omega

theorem pad_of_mod {n : Nat} (h : n % 4 = 0) : pad n = [] := by
  simp [pad, align_of_mod h]

/-! ### Records -/

structure Record where
  type : Nat
  value : List UInt8
  deriving DecidableEq

namespace Record

def length (a : Record) : Nat := 4 + a.value.length

/-- Length and type fit two bytes each. -/
structure Fits (a : Record) : Prop where
  length : a.length < 256 ^ 2
  type : a.type < 256 ^ 2

def encode (a : Record) : List UInt8 :=
  le 2 a.length ++ le 2 a.type ++ a.value ++ pad a.value.length

theorem length_encode (a : Record) : a.encode.length = align a.length := by
  have h := length_pad a.value.length
  have hal : align a.length = 4 + align a.value.length := align_add (by rfl) _
  simp only [encode, List.length_append, length_le, hal]
  omega

theorem encode_mod (a : Record) : a.encode.length % 4 = 0 := by
  rw [a.length_encode, align_mod]

end Record

def encode (as : List Record) : List UInt8 := as.flatMap Record.encode

@[simp] theorem encode_nil : encode [] = [] := rfl

@[simp] theorem encode_cons (a : Record) (as : List Record) :
    encode (a :: as) = a.encode ++ encode as := by simp [encode]

theorem encode_mod (as : List Record) : (encode as).length % 4 = 0 := by
  induction as with
  | nil => rfl
  | cons a as ih =>
    have ha := a.encode_mod
    rw [encode_cons, List.length_append]
    omega

theorem length_le_encode (as : List Record) : as.length ≤ (encode as).length := by
  induction as with
  | nil => exact Nat.zero_le _
  | cons a as ih =>
    have ha := le_align a.length
    have hpos : 4 ≤ a.length := Nat.le_add_right 4 _
    simp only [encode_cons, List.length_append, List.length_cons, a.length_encode]
    omega

theorem length_le_of_mem {a : Record} {as : List Record} (h : a ∈ as) :
    a.length ≤ (encode as).length := by
  induction as with
  | nil => contradiction
  | cons b as ih =>
    rw [encode_cons, List.length_append, b.length_encode]
    rcases List.mem_cons.mp h with rfl | h
    · have ha := le_align a.length
      omega
    · have ha := ih h
      omega

/-- Records whose bytes are few enough fit. -/
theorem fits_of_length {as : List Record} (h : (encode as).length < 256 ^ 2)
    (htype : ∀ a ∈ as, a.type < 256 ^ 2) {a : Record} (ha : a ∈ as) : a.Fits where
  length := (length_le_of_mem ha).trans_lt h
  type := htype a ha

/-- Read at most `fuel` records, to the last byte. -/
def parseAtMost : Nat → List UInt8 → Option (List Record)
  | _, [] => some []
  | 0, _ :: _ => none
  | fuel + 1, bs =>
    let len := ofLe (bs.take 2)
    if 4 ≤ bs.length ∧ 4 ≤ len ∧ align len ≤ bs.length then
      (parseAtMost fuel (bs.drop (align len))).map
        (⟨ofLe ((bs.drop 2).take 2), (bs.take len).drop 4⟩ :: ·)
    else none

/-- Read all bytes as records. -/
def parse (bs : List UInt8) : Option (List Record) := parseAtMost bs.length bs

theorem parseAtMost_record {a : Record} (h : a.Fits) (fuel : Nat) (bs : List UInt8) :
    parseAtMost (fuel + 1) (a.encode ++ bs) = (parseAtMost fuel bs).map (a :: ·) := by
  have hlen : a.encode.length = align a.length := a.length_encode
  have hpos : 4 ≤ a.length := Nat.le_add_right 4 _
  have hal : a.length ≤ align a.length := le_align _
  have htake : (a.encode ++ bs).take 2 = le 2 a.length := by
    rw [Record.encode, List.append_assoc, List.append_assoc, List.append_assoc]
    exact List.take_left' (length_le ..)
  have htype : ((a.encode ++ bs).drop 2).take 2 = le 2 a.type := by
    rw [Record.encode, List.append_assoc, List.append_assoc, List.append_assoc,
      List.drop_left' (length_le ..)]
    exact List.take_left' (length_le ..)
  have hvalue : ((a.encode ++ bs).take a.length).drop 4 = a.value := by
    have hhead : (le 2 a.length ++ le 2 a.type).length = 4 := by simp
    have hbody : (le 2 a.length ++ le 2 a.type ++ a.value).length = a.length := by
      rw [List.length_append, hhead]
      rfl
    rw [Record.encode, List.append_assoc, List.take_left' hbody, List.drop_left' hhead]
  have hdrop : (a.encode ++ bs).drop (align a.length) = bs := List.drop_left' hlen
  have hall : align a.length ≤ (a.encode ++ bs).length := by
    rw [List.length_append, hlen]
    omega
  have hread : ofLe (le 2 a.length) = a.length := ofLe_le h.length
  have hne : (a.encode ++ bs) ≠ [] := by
    intro e
    rw [e] at hall
    have hzero : align a.length ≤ 0 := hall
    omega
  rw [parseAtMost]
  · simp only [htake, hread, htype, hvalue, hdrop, ofLe_le h.type]
    rw [if_pos ⟨by omega, hpos, hall⟩]
  · exact hne

theorem parse_encode {as : List Record} (h : ∀ a ∈ as, a.Fits) : parse (encode as) = some as := by
  have hall {fuel : Nat} (hfuel : as.length ≤ fuel) : parseAtMost fuel (encode as) = some as := by
    induction as generalizing fuel with
    | nil => cases fuel <;> rfl
    | cons a as ih =>
      obtain ⟨ha, has⟩ := List.forall_mem_cons.mp h
      cases fuel with
      | zero => simp at hfuel
      | succ fuel =>
        have hrest : parseAtMost fuel (encode as) = some as := ih has (Nat.le_of_succ_le_succ hfuel)
        rw [encode_cons, parseAtMost_record ha, hrest]
        rfl
  exact hall (length_le_encode as)

end Tlv
