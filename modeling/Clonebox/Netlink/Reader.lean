import Clonebox.Netlink.Message

/-! # Reading back what was written (`network.rs`)

`check_bound` asks for a byte after the ones that are read, so that the last read of a buffer is
refused. `_read_bytes` takes its bytes from the start of the buffer. -/

namespace Clonebox
open Tlv

/-! ### Values and calls -/

/-- A value as the writer takes it. -/
inductive Value where
  | u8 (n : UInt8)
  | u16 (n : UInt16)
  | u32 (n : UInt32)
  | u64 (n : UInt64)
  | bytes (bs : List UInt8)
  deriving DecidableEq

/-- A call of the reader. -/
inductive ReadCall where
  | u8
  | u16
  | u32
  | u64
  | bytes (n : Nat)
  deriving DecidableEq

def Value.write (w : Writer) : Value → Writer
  | .u8 n => w.writeU8 n
  | .u16 n => w.writeU16 n
  | .u32 n => w.writeU32 n
  | .u64 n => w.writeU64 n
  | .bytes bs => w.writeBytes bs

/-- The call that reads the value back. -/
def Value.call : Value → ReadCall
  | .u8 _ => .u8
  | .u16 _ => .u16
  | .u32 _ => .u32
  | .u64 _ => .u64
  | .bytes bs => .bytes bs.length

namespace ReadCall

/-- The bytes that the call needs. -/
def size : ReadCall → Nat
  | .u8 => 1
  | .u16 => 2
  | .u32 => 4
  | .u64 => 8
  | .bytes n => n

def run (r : Reader) : ReadCall → Option (Except CoreError Value × Reader)
  | .u8 => r.readU8.map fun x => (x.1.map .u8, x.2)
  | .u16 => r.readU16.map fun x => (x.1.map .u16, x.2)
  | .u32 => r.readU32.map fun x => (x.1.map .u32, x.2)
  | .u64 => r.readU64.map fun x => (x.1.map .u64, x.2)
  | .bytes n => (r.readBytes n).map fun x => (x.1.map .bytes, x.2)

end ReadCall

def writeAll (vs : List Value) : Writer := vs.foldl Value.write ⟨[]⟩

/-- The calls one after the other, up to the first error. -/
def readAll : List ReadCall → Reader → Option (Except CoreError (List Value) × Reader)
  | [], r => some (.ok [], r)
  | q :: qs, r =>
    match q.run r with
    | none => none
    | some (.error e, r) => some (.error e, r)
    | some (.ok v, r) => (readAll qs r).map fun x => (x.1.map (v :: ·), x.2)

/-- The calls that correspond to the values return them, and end at the end of the buffer. -/
def ReadsBack (vs : List Value) : Prop :=
  readAll (vs.map Value.call) ⟨(writeAll vs).buf, 0⟩ =
    some (.ok vs, ⟨(writeAll vs).buf, (writeAll vs).buf.length⟩)

instance {vs : List Value} : Decidable (ReadsBack vs) := inferInstanceAs (Decidable (_ = _))

/-- The call is refused, and leaves the cursor where it is. -/
def OutOfRange (r : Reader) (q : ReadCall) : Prop :=
  q.run r = some (.error ↑NetworkError.readOutOfRange, r)

/-! ### One call -/

section
variable {r r' : Reader} {q : ReadCall} {v : Value}

theorem pushBytes_cursor {left i : Nat} {val val' : List UInt8}
    (h : r.pushBytes left i val = some (val', r')) : r' = { r with cursor := r.cursor + left } := by
  induction left generalizing i val r with
  | zero =>
    cases h
    rfl
  | succ left ih =>
    simp only [Reader.pushBytes] at h
    split at h
    · cases h
    · rw [ih h]
      simp only [Reader.mk.injEq, true_and]
      omega

theorem checkBound_some {n : Nat} {b : Bool} (h : r.checkBound n = some b) :
    n + r.cursor < 2 ^ 64 ∧ (b = true ↔ r.cursor + n < r.buf.length) := by
  unfold Reader.checkBound at h
  split at h
  · cases h
    refine ⟨‹_›, ?_⟩
    rw [decide_eq_true_iff, Nat.add_comm]
  · cases h

theorem checkBound_short {n : Nat} (h : r.buf.length - r.cursor < n) :
    r.checkBound n = if n + r.cursor < 2 ^ 64 then some false else none := by
  have hlt : ¬n + r.cursor < r.buf.length := by omega
  simp only [Reader.checkBound, hlt, decide_false]

theorem readSized_ok {α : Type} {byteSize : Nat} {name : String} {f : List UInt8 → α} {a : α}
    (h : r.readSized byteSize name f = some (.ok a, r')) :
    r.cursor + byteSize < r.buf.length ∧ r' = { r with cursor := r.cursor + byteSize } := by
  obtain ⟨b, hb, h⟩ := Option.bind_eq_some_iff.mp h
  have hbound := (checkBound_some hb).2
  cases b with
  | false => cases h
  | true =>
    refine ⟨hbound.mp rfl, ?_⟩
    obtain ⟨val, -, h⟩ := Option.bind_eq_some_iff.mp h
    split at h
    · cases h
    · cases h
      rfl

theorem readSized_short {α : Type} {byteSize : Nat} {name : String} {f : List UInt8 → α}
    (h : r.buf.length - r.cursor < byteSize) : r.readSized byteSize name f =
      if byteSize + r.cursor < 2 ^ 64 then some (.error ↑NetworkError.readOutOfRange, r) else none := by
  rw [Reader.readSized, checkBound_short h]
  split <;> rfl

theorem readBytes_ok {n : Nat} {bs : List UInt8} (h : r.readBytes n = some (.ok bs, r')) :
    r.cursor + n < r.buf.length ∧ r' = { r with cursor := r.cursor + n } := by
  obtain ⟨b, hb, h⟩ := Option.bind_eq_some_iff.mp h
  have hbound := (checkBound_some hb).2
  cases b with
  | false => cases h
  | true =>
    refine ⟨hbound.mp rfl, ?_⟩
    obtain ⟨⟨val, r₁⟩, hpush, h⟩ := Option.bind_eq_some_iff.mp h
    cases h
    exact pushBytes_cursor hpush

theorem readBytes_short {n : Nat} (h : r.buf.length - r.cursor < n) : r.readBytes n =
    if n + r.cursor < 2 ^ 64 then some (.error ↑NetworkError.readOutOfRange, r) else none := by
  rw [Reader.readBytes, checkBound_short h]
  split <;> rfl

/-- A call that succeeds leaves a byte unread. -/
theorem run_ok (h : q.run r = some (.ok v, r')) :
    r.cursor + q.size < r.buf.length ∧ r' = { r with cursor := r.cursor + q.size } := by
  cases q <;>
  · obtain ⟨⟨x, r₁⟩, hread, he⟩ := Option.map_eq_some_iff.mp h
    cases x with
    | error e => cases he
    | ok a =>
      cases he
      first | exact readSized_ok hread | exact readBytes_ok hread

theorem run_short (h : r.buf.length - r.cursor < q.size) : q.run r =
    if q.size + r.cursor < 2 ^ 64 then some (.error ↑NetworkError.readOutOfRange, r) else none := by
  have hmap {α : Type} {f : α → Value} {n : Nat}
      {x : Option (Except CoreError α × Reader)}
      (hx : x = if n + r.cursor < 2 ^ 64 then some (.error ↑NetworkError.readOutOfRange, r) else none) :
      x.map (fun y => (y.1.map f, y.2)) =
        if n + r.cursor < 2 ^ 64 then some (.error ↑NetworkError.readOutOfRange, r) else none := by
    rw [hx]
    split <;> rfl
  cases q with
  | u8 | u16 | u32 | u64 => exact hmap (readSized_short h)
  | bytes n => exact hmap (readBytes_short h)

end

/-! ### Sequences of calls -/

/-- After calls that have all succeeded, a byte is left unread. -/
theorem readAll_ok {qs : List ReadCall} {vs : List Value} {r r' : Reader}
    (h : readAll qs r = some (.ok vs, r')) (hne : qs ≠ []) :
    r'.buf = r.buf ∧ r'.cursor < r.buf.length := by
  induction qs generalizing r vs with
  | nil => contradiction
  | cons q qs ih =>
    simp only [readAll] at h
    split at h
    · cases h
    · cases h
    · rename_i v r₁ hrun
      obtain ⟨hlt, rfl⟩ := run_ok hrun
      obtain ⟨⟨x, r₂⟩, hrest, he⟩ := Option.map_eq_some_iff.mp h
      cases x with
      | error e => cases he
      | ok ws =>
        cases he
        cases qs with
        | nil =>
          cases hrest
          exact ⟨rfl, hlt⟩
        | cons q' qs =>
          have hrec := ih hrest (List.cons_ne_nil _ _)
          exact hrec

theorem readsBack_iff {vs : List Value} : ReadsBack vs ↔ vs = [] := by
  constructor
  · intro h
    by_contra hne
    obtain ⟨-, hlt⟩ := readAll_ok h (by simpa using hne)
    exact Nat.lt_irrefl _ hlt
  · rintro rfl
    rfl

theorem outOfRange_iff {r : Reader} {q : ReadCall} (h : r.buf.length - r.cursor < q.size) :
    OutOfRange r q ↔ q.size + r.cursor < 2 ^ 64 := by
  rw [OutOfRange, run_short h]
  split <;> simp_all

/-- The reader undoes the writer if and only if nothing was written. A call that needs more bytes
than remain is refused if and only if the position it would end at is a `usize`. -/
theorem reader_undoes (vs : List Value) (r : Reader) (q : ReadCall)
    (h : r.buf.length - r.cursor < q.size) :
    (ReadsBack vs ↔ vs = []) ∧ (OutOfRange r q ↔ q.size + r.cursor < 2 ^ 64) :=
  ⟨readsBack_iff, outOfRange_iff h⟩

theorem reader_undoes_sample : ¬ReadsBack [.u16 258, .bytes [7], .u8 5] ∧
    OutOfRange ⟨[1, 2], 1⟩ .u16 := by
  obtain ⟨hback, hrange⟩ := reader_undoes [.u16 258, .bytes [7], .u8 5] ⟨[1, 2], 1⟩ .u16 (by decide)
  exact ⟨fun h => List.cons_ne_nil _ _ (hback.mp h), hrange.mpr (by decide)⟩

/-- The only byte of a buffer is not read back, and the second bytes of one are read as the
first. -/
theorem last_byte_refused : ¬ReadsBack [.u8 5] ∧
    readAll [.u8] ⟨(writeAll [.u8 5]).buf, 0⟩ = some (.error ↑NetworkError.readOutOfRange, ⟨[5], 0⟩) ∧
    readAll [.bytes 1, .bytes 1] ⟨(writeAll [.bytes [1], .bytes [2], .u8 0]).buf, 0⟩ =
      some (.ok [.bytes [1], .bytes [1]], ⟨[1, 2, 0], 2⟩) := by
  decide

/-! ### Numbers with something behind them -/

def Value.isNumber : Value → Bool
  | .bytes _ => false
  | _ => true

/-- What the writer adds for the value. -/
def Value.neBytes : Value → List UInt8
  | .u8 n => [n]
  | .u16 n => neBytes16 n
  | .u32 n => neBytes32 n
  | .u64 n => neBytes64 n
  | .bytes bs => bs

theorem write_buf (w : Writer) (v : Value) : (v.write w).buf = w.buf ++ v.neBytes := by
  cases v <;> rfl

theorem writeAll_buf (vs : List Value) : (writeAll vs).buf = vs.flatMap Value.neBytes := by
  have hfold (w : Writer) : (vs.foldl Value.write w).buf = w.buf ++ vs.flatMap Value.neBytes := by
    induction vs generalizing w with
    | nil => exact (List.append_nil _).symm
    | cons v vs ih =>
      rw [List.foldl_cons, ih, write_buf, List.flatMap_cons, List.append_assoc]
  exact hfold ⟨[]⟩

theorem readSized_within {α : Type} {byteSize : Nat} {name : String} {f : List UInt8 → α}
    {before bs after : List UInt8} (hsize : bs.length = byteSize) (hafter : after ≠ [])
    (hlen : (before ++ bs ++ after).length < 2 ^ 64) :
    Reader.readSized byteSize name f ⟨before ++ bs ++ after, before.length⟩ =
      some (.ok (f bs), ⟨before ++ bs ++ after, before.length + byteSize⟩) := by
  subst hsize
  have hpos : 0 < after.length := List.length_pos_iff.mpr hafter
  have hsum : (before ++ bs ++ after).length = before.length + bs.length + after.length := by
    simp only [List.length_append]
  have hslice : Reader.slice bs.length ⟨before ++ bs ++ after, before.length⟩ = some bs := by
    have hend : before.length + bs.length ≤ (before ++ bs ++ after).length := by omega
    rw [Reader.slice, if_pos hend]
    simp
  generalize before ++ bs ++ after = buf at hlen hsum hslice ⊢
  have hbound : Reader.checkBound bs.length ⟨buf, before.length⟩ = some true := by
    have hfits : bs.length + before.length < buf.length := by omega
    have husize : bs.length + before.length < 2 ^ 64 := Nat.lt_trans hfits hlen
    rw [Reader.checkBound, if_pos husize, decide_eq_true hfits]
  rw [Reader.readSized, hbound, Option.bind_eq_bind, Option.bind_some, if_neg nofun, hslice,
    Option.bind_eq_bind, Option.bind_some, if_neg (not_not.mpr rfl)]
  rfl

/-- A number before something else is read back. -/
theorem run_number {v : Value} {before after : List UInt8} (hv : v.isNumber = true)
    (hafter : after ≠ []) (hlen : (before ++ v.neBytes ++ after).length < 2 ^ 64) :
    v.call.run ⟨before ++ v.neBytes ++ after, before.length⟩ =
      some (.ok v, ⟨before ++ v.neBytes ++ after, before.length + v.neBytes.length⟩) := by
  cases v with
  | bytes bs => contradiction
  | u8 n =>
    have hn : UInt8.ofNat (ofLe [n]) = n := by simp [ofLe]
    have hsize : [n].length = 1 := rfl
    simp only [Value.call, ReadCall.run, Reader.readU8, Value.neBytes,
      readSized_within hsize hafter hlen, Option.map_some, Except.map, hn, hsize]
  | u16 n =>
    have hn : UInt16.ofNat (ofLe (neBytes16 n)) = n := by rw [neBytes16, ofLe_le n.toNat_lt]; simp
    simp only [Value.call, ReadCall.run, Reader.readU16, Value.neBytes,
      readSized_within (length_neBytes16 n) hafter hlen, Option.map_some, Except.map, hn, length_neBytes16]
  | u32 n =>
    have hn : UInt32.ofNat (ofLe (neBytes32 n)) = n := by rw [neBytes32, ofLe_le n.toNat_lt]; simp
    simp only [Value.call, ReadCall.run, Reader.readU32, Value.neBytes,
      readSized_within (length_neBytes32 n) hafter hlen, Option.map_some, Except.map, hn, length_neBytes32]
  | u64 n =>
    have hn : UInt64.ofNat (ofLe (neBytes64 n)) = n := by rw [neBytes64, ofLe_le n.toNat_lt]; simp
    have hsize : (neBytes64 n).length = 8 := length_le ..
    simp only [Value.call, ReadCall.run, Reader.readU64, Value.neBytes,
      readSized_within hsize hafter hlen, Option.map_some, Except.map, hn, hsize]

theorem readAll_numbers {vs : List Value} (hnum : ∀ v ∈ vs, v.isNumber = true) (before : List UInt8)
    {after : List UInt8} (hafter : after ≠ [])
    (hlen : (before ++ vs.flatMap Value.neBytes ++ after).length < 2 ^ 64) :
    readAll (vs.map Value.call) ⟨before ++ vs.flatMap Value.neBytes ++ after, before.length⟩ =
      some (.ok vs, ⟨before ++ vs.flatMap Value.neBytes ++ after,
        before.length + (vs.flatMap Value.neBytes).length⟩) := by
  induction vs generalizing before with
  | nil => rfl
  | cons v vs ih =>
    have hsplit : before ++ (v :: vs).flatMap Value.neBytes ++ after =
        before ++ v.neBytes ++ (vs.flatMap Value.neBytes ++ after) := by
      simp
    rw [hsplit] at hlen ⊢
    have hfirst := run_number (hnum v List.mem_cons_self)
      (List.append_ne_nil_of_right_ne_nil (vs.flatMap Value.neBytes) hafter) hlen
    have hrest := ih (fun v hv => hnum v (List.mem_cons_of_mem _ hv)) (before ++ v.neBytes)
      (by rwa [List.append_assoc (before ++ v.neBytes)])
    rw [List.length_append, List.append_assoc (before ++ v.neBytes)] at hrest
    simp only [List.map_cons, readAll, hfirst, hrest, Option.map_some, Except.map, List.flatMap_cons,
      List.length_append, Nat.add_assoc]

/-- Numbers that were written before something else are read back, and the cursor is then behind
them. -/
theorem numbers_read_back {vs ws : List Value} (hnum : ∀ v ∈ vs, v.isNumber = true)
    (hws : (writeAll ws).buf ≠ []) (hlen : (writeAll (vs ++ ws)).buf.length < 2 ^ 64) :
    readAll (vs.map Value.call) ⟨(writeAll (vs ++ ws)).buf, 0⟩ =
      some (.ok vs, ⟨(writeAll (vs ++ ws)).buf, (writeAll vs).buf.length⟩) := by
  simp only [writeAll_buf, List.flatMap_append] at hws hlen ⊢
  simpa using readAll_numbers hnum [] hws hlen

end Clonebox
