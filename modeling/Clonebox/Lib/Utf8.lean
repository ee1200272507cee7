import Mathlib.Data.List.Basic

/-! # Texts as bytes

The UTF-8 encoding of a text as a list of bytes, and what a beginning or an end of such a list
is. -/

namespace Utf8

def encode (s : List Char) : List UInt8 := s.flatMap String.utf8EncodeChar

def decode (b : List UInt8) : Option (List Char) := b.toByteArray.utf8Decode?.map Array.toList

variable {s u : List Char} {b : List UInt8}

theorem toByteArray_encode (s : List Char) : (encode s).toByteArray = s.utf8Encode := rfl

theorem toByteArray_inj {b b' : List UInt8} (h : b.toByteArray = b'.toByteArray) : b = b' := by
  have hdata := congrArg (fun a : ByteArray => a.data.toList) h
  simpa using hdata

theorem decode_encode (s : List Char) : decode (encode s) = some s := by
  rw [decode, toByteArray_encode, List.utf8Decode?_utf8Encode]
  rfl

theorem encode_of_decode (h : decode b = some s) : encode s = b := by
  obtain ⟨a, ha, hs⟩ := Option.map_eq_some_iff.mp h
  refine toByteArray_inj ?_
  have hsome : b.toByteArray.utf8Decode?.isSome = true := by
    rw [ha]
    rfl
  have hback := ByteArray.utf8Encode_get_utf8Decode? (b := b.toByteArray) (h := hsome)
  rw [toByteArray_encode, ← hs]
  simpa [ha] using hback

theorem encode_append (s u : List Char) : encode (s ++ u) = encode s ++ encode u :=
  List.flatMap_append

/-- What can be decoded and starts with the bytes of a text starts with that text. -/
theorem decode_append (h : decode (encode s ++ b) = some u) : ∃ v, u = s ++ v ∧ encode v = b := by
  have henc := encode_of_decode h
  have hbytes : s.utf8Encode ++ b.toByteArray = u.utf8Encode := by
    have harray := congrArg List.toByteArray henc
    rw [toByteArray_encode] at harray
    rw [harray, ← toByteArray_encode]
    simp
  obtain ⟨v, rfl⟩ := List.isPrefix_of_utf8Encode_append_eq_utf8Encode b.toByteArray hbytes
  rw [encode_append] at henc
  exact ⟨v, rfl, List.append_cancel_left henc⟩

/-- What can be decoded of the beginning of the bytes of a text is a beginning of the text. -/
theorem decode_start (hb : b <+: encode s) (h : decode b = some u) : u <+: s := by
  obtain ⟨b', hs⟩ := hb
  rw [← encode_of_decode h] at hs
  have hdecode : decode (encode u ++ b') = some s := by rw [hs, decode_encode]
  obtain ⟨v, rfl, -⟩ := decode_append hdecode
  exact List.prefix_append u v

/-- A byte below 128 stands for itself only. -/
theorem ascii_mem {b : UInt8} (hb : b.toNat < 0x80) (h : b ∈ encode s) :
    ∃ c ∈ s, c.toNat = b.toNat := by
  obtain ⟨c, hc, hmem⟩ := List.mem_flatMap.mp h
  refine ⟨c, hc, ?_⟩
  have hnot {n : Nat} (hn : 0x80 ≤ n % 256) : b ≠ UInt8.ofNat n := by
    rintro rfl
    rw [UInt8.toNat_ofNat'] at hb
    omega
  unfold String.utf8EncodeChar at hmem
  dsimp only at hmem
  split at hmem
  · rename_i hle
    rw [List.mem_singleton.mp hmem, UInt8.toNat_ofNat']
    exact (Nat.mod_eq_of_lt (Nat.lt_of_le_of_lt hle (by decide))).symm
  · exfalso
    split at hmem
    · simp only [List.mem_cons, List.not_mem_nil, or_false] at hmem
      rcases hmem with h | h
      all_goals exact hnot (by omega) h
    · split at hmem
      · simp only [List.mem_cons, List.not_mem_nil, or_false] at hmem
        rcases hmem with h | h | h
        all_goals exact hnot (by omega) h
      · simp only [List.mem_cons, List.not_mem_nil, or_false] at hmem
        rcases hmem with h | h | h | h
        all_goals exact hnot (by omega) h

end Utf8
