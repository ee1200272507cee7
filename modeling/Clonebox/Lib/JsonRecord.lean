import Mathlib.Data.List.Permutation
import Clonebox.Lib.Json

/-! # Records in JSON

A record is read from an object by the names of its fields: other members are ignored, a field that
occurs twice is an error, and the order does not matter. It is also read from an array that holds
just the fields, in order. -/

namespace Json

variable {α β : Type}

/-! ### Values of the basic types -/

def asString : Json → Option String
  | .str s => some s
  | _ => none

def inI32 (i : Int) : Bool := decide (-2147483648 ≤ i ∧ i < 2147483648)

def asI32 (v : Json) : Option Int := v.toInt?.filter inI32

/-- A later binding of a key replaces an earlier one. -/
def bind (m : List (String × α)) (a : String × α) : List (String × α) :=
  m.filter (fun x => x.1 ≠ a.1) ++ [a]

def asMap (decode : Json → Option α) : Json → Option (List (String × α))
  | .obj l => (l.mapM fun m => (decode m.2).map fun a => (m.1, a)).map fun m => m.foldl bind []
  | _ => none

/-- Nothing is written as `null`. -/
def ofOption (encode : α → Json) : Option α → Json
  | some a => encode a
  | none => .null

/-! ### Fields -/

/-- The value of a field if it occurs, unless it occurs twice. -/
def field (l : List (String × Json)) (name : String) : Option (Option Json) :=
  match l.filter fun m => m.1 = name with
  | [] => some none
  | [m] => some (some m.2)
  | _ => none

/-- The fields with these names, in this order. -/
def fields (names : List String) : Json → Option (List (Option Json))
  | .obj l => names.mapM (field l)
  | .arr l => if l.length = names.length then some (l.map some) else none
  | _ => none

def required (decode : Json → Option α) : Option Json → Option α
  | some v => decode v
  | none => none

/-- A field that may be absent or `null`. -/
def optional (decode : Json → Option α) : Option Json → Option (Option α)
  | none => some none
  | some .null => some none
  | some v => (decode v).map some

theorem required_some (decode : Json → Option α) (v : Json) : required decode (some v) = decode v := rfl

theorem optional_ofOption {decode : Json → Option α} {encode : α → Json}
    (hnull : ∀ a, encode a ≠ .null) {o : Option α} (h : ∀ a ∈ o, decode (encode a) = some a) :
    optional decode (some (ofOption encode o)) = some o := by
  cases o with
  | none => rfl
  | some a =>
    have ha := h a rfl
    have hne := hnull a
    show optional decode (some (encode a)) = some (some a)
    cases he : encode a with
    | null => exact absurd he hne
    | bool | num | str | arr | obj =>
      rw [he] at ha
      rw [optional, ha]
      · rfl
      · simp

/-! ### Lists and maps that were written -/

/-- Bindings of different keys are kept in order. -/
theorem foldl_bind {m l : List (String × α)} (h : ((m ++ l).map Prod.fst).Nodup) :
    l.foldl bind m = m ++ l := by
  induction l generalizing m with
  | nil => exact (List.append_nil m).symm
  | cons a l ih =>
    have hnew : m.filter (fun x => decide (x.1 ≠ a.1)) = m := by
      refine List.filter_eq_self.mpr fun x hx => decide_eq_true fun he => ?_
      rw [List.map_append, List.nodup_append] at h
      exact h.2.2 x.1 (List.mem_map_of_mem hx) a.1 (List.mem_map_of_mem List.mem_cons_self) he
    have hbind : bind m a = m ++ [a] := by rw [bind, hnew]
    rw [List.foldl_cons, hbind, ih]
    · simp
    · simpa using h

theorem asMap_map {decode : Json → Option α} {encode : α → Json} {m : List (String × α)}
    (h : ∀ a, decode (encode a) = some a) (hkeys : (m.map Prod.fst).Nodup) :
    asMap decode (.obj (m.map fun x => (x.1, encode x.2))) = some m := by
  have hread : (m.map fun x => (x.1, encode x.2)).mapM
      (fun x => (decode x.2).map fun a => (x.1, a)) = some m := by
    induction m with
    | nil => rfl
    | cons a m ih =>
      rw [List.map_cons, List.mapM_cons, ih (List.nodup_cons.mp hkeys).2]
      simp [h]
  rw [asMap, hread]
  exact congrArg some (foldl_bind (m := []) hkeys)

end Json
