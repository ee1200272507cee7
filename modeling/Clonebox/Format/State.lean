import Clonebox.Core.Data
import Clonebox.Lib.Codec
import Clonebox.Lib.JsonRecord
import Clonebox.Lib.JsonText

/-! # States and events as texts

The results about files and connections take the serializer as a parameter that keeps `Codec.Laws`.
JSON, with the names and the order of the fields in `state.rs` and `event.rs`, is one that does. -/

namespace Clonebox
open Json

/-! ### `ContainerState` -/

namespace ContainerState

def all : List ContainerState := [creating, created, running, stopped, paused]

/-- `rename_all = "lowercase"` -/
def lowercase : ContainerState → String
  | creating => "creating"
  | created => "created"
  | running => "running"
  | stopped => "stopped"
  | paused => "paused"

def toJson (s : ContainerState) : Json := .str s.lowercase

/-- A variant is read from its name, or from an object that has its name as the only key. -/
def ofJson : Json → Option ContainerState
  | .str name => all.find? (·.lowercase = name)
  | .obj [(name, .null)] => all.find? (·.lowercase = name)
  | _ => none

theorem ofJson_toJson (s : ContainerState) : ofJson s.toJson = some s := by
  cases s
  all_goals rfl

end ContainerState

/-! ### `State` -/

namespace State

def toJson (s : State) : Json :=
  .obj [("ociVersion", .str s.ociVersion), ("id", .str s.id), ("status", s.status.toJson),
    ("pid", ofOption ofInt s.pid), ("bundle", .str s.bundle),
    ("annotations", ofOption (fun l => .obj (l.map fun a => (a.1, .str a.2))) s.annotations)]

def fieldNames : List String := ["ociVersion", "id", "status", "pid", "bundle", "annotations"]

def ofFields : List (Option Json) → Option State
  | [ociVersion, id, status, pid, bundle, annotations] => do
    let ociVersion ← required asString ociVersion
    let id ← required asString id
    let status ← required ContainerState.ofJson status
    let pid ← optional asI32 pid
    let bundle ← required asString bundle
    let annotations ← optional (asMap asString) annotations
    pure ⟨ociVersion, id, status, pid, bundle, annotations⟩
  | _ => none

def ofJson (v : Json) : Option State := (fields fieldNames v).bind ofFields

/-- What the types of the source say of a state: a pid is an `i32`, and a map has each key once. -/
structure Typed (s : State) : Prop where
  pid : ∀ p ∈ s.pid, inI32 p = true
  annotations : ∀ l ∈ s.annotations, (l.map Prod.fst).Nodup

variable {s : State}

theorem asI32_ofInt {p : Int} (h : inI32 p = true) : asI32 (ofInt p) = some p := by
  rw [asI32, toInt?_ofInt, Option.filter_some, if_pos h]

theorem ofJson_toJson (h : s.Typed) : ofJson s.toJson = some s := by
  have hfields : fields fieldNames s.toJson = some [some (.str s.ociVersion), some (.str s.id),
      some s.status.toJson, some (ofOption ofInt s.pid), some (.str s.bundle),
      some (ofOption (fun l => .obj (l.map fun a => (a.1, .str a.2))) s.annotations)] := rfl
  have hpid : optional asI32 (some (ofOption ofInt s.pid)) = some s.pid :=
    optional_ofOption (fun a he => by cases he) fun p hp => asI32_ofInt (h.pid p hp)
  have hannotations : optional (asMap asString)
      (some (ofOption (fun l => .obj (l.map fun a => (a.1, .str a.2))) s.annotations)) =
      some s.annotations :=
    optional_ofOption (fun a he => by cases he) fun l hl =>
      asMap_map (fun s => rfl) (h.annotations l hl)
  rw [ofJson, hfields]
  simp only [Option.bind_some, ofFields, required_some, ContainerState.ofJson_toJson, hpid, hannotations]
  rfl

theorem proper_ofOption {α : Type} {encode : α → Json} (h : ∀ a, Proper (encode a)) (o : Option α) :
    Proper (ofOption encode o) := by
  cases o with
  | none => exact .null
  | some a => exact h a

theorem proper_toJson (s : State) : Proper s.toJson := by
  have hstatus : Proper s.status.toJson := .str _
  have hpid := proper_ofOption proper_ofInt s.pid
  have hannotations : Proper (ofOption (fun l => .obj (l.map fun a => (a.1, .str a.2))) s.annotations) := by
    refine proper_ofOption (fun l => .obj fun m hm => ?_) _
    obtain ⟨a, -, rfl⟩ := List.mem_map.mp hm
    exact .str _
  refine .obj fun m hm => ?_
  simp only [List.mem_cons, List.not_mem_nil, or_false] at hm
  rcases hm with rfl | rfl | rfl | rfl | rfl | rfl
  · exact .str _
  · exact .str _
  · exact hstatus
  · exact hpid
  · exact .str _
  · exact hannotations

def toBytes (s : State) : List UInt8 := s.toJson.toBytes

def ofBytes (b : List UInt8) : Option State := (Json.ofBytes b).bind ofJson

/-- What is written is read back. -/
theorem ofBytes_toBytes (h : s.Typed) : ofBytes s.toBytes = some s := by
  rw [ofBytes, toBytes, Json.ofBytes_toBytes (proper_toJson s)]
  exact ofJson_toJson h

theorem json_laws : Codec.Laws closing Typed toBytes ofBytes where
  roundTrip := ofBytes_toBytes
  closed _ := toBytes_obj_end _
  incomplete := by
    intro s b _ hb hne
    cases h : ofBytes b with
    | none => rfl
    | some s' =>
      obtain ⟨v, hv, -⟩ := Option.bind_eq_some_iff.mp h
      exact (hne (ofBytes_start (proper_toJson s) hb hv)).elim
  trailing := by
    intro s b _ hb
    rw [ofBytes, toBytes, toJson, Json.ofBytes_append (proper_toJson s) hb]
    rfl

end State

/-! ### `Event` -/

namespace Event

def toJson (e : Event) : Json :=
  .obj [("id", .str e.id), ("state", e.state.toJson), ("exit_code", ofOption ofInt e.exitCode)]

def fieldNames : List String := ["id", "state", "exit_code"]

def ofFields : List (Option Json) → Option Event
  | [id, state, exitCode] => do
    let id ← required asString id
    let state ← required ContainerState.ofJson state
    let exitCode ← optional asI32 exitCode
    pure ⟨id, state, exitCode⟩
  | _ => none

def ofJson (v : Json) : Option Event := (fields fieldNames v).bind ofFields

def toBytes (e : Event) : List UInt8 := e.toJson.toBytes

def ofBytes (b : List UInt8) : Option Event := (Json.ofBytes b).bind ofJson

structure Typed (e : Event) : Prop where
  exitCode : ∀ c ∈ e.exitCode, inI32 c = true

variable {e : Event}

theorem ofJson_toJson (h : e.Typed) : ofJson e.toJson = some e := by
  have hfields : fields fieldNames e.toJson = some [some (.str e.id), some e.state.toJson,
      some (ofOption ofInt e.exitCode)] := rfl
  have hcode : optional asI32 (some (ofOption ofInt e.exitCode)) = some e.exitCode :=
    optional_ofOption (fun a he => by cases he) fun p hp => State.asI32_ofInt (h.exitCode p hp)
  rw [ofJson, hfields]
  simp only [Option.bind_some, ofFields, required_some, ContainerState.ofJson_toJson, hcode]
  rfl

theorem proper_toJson (e : Event) : Proper e.toJson := by
  have hstate : Proper e.state.toJson := .str _
  have hcode := State.proper_ofOption proper_ofInt e.exitCode
  refine .obj fun m hm => ?_
  simp only [List.mem_cons, List.not_mem_nil, or_false] at hm
  rcases hm with rfl | rfl | rfl
  · exact .str _
  · exact hstate
  · exact hcode

theorem json_laws : Codec.Laws closing Typed toBytes ofBytes where
  roundTrip := by
    intro e h
    rw [ofBytes, toBytes, Json.ofBytes_toBytes (proper_toJson e)]
    exact ofJson_toJson h
  closed _ := toBytes_obj_end _
  incomplete := by
    intro e b _ hb hne
    cases h : ofBytes b with
    | none => rfl
    | some e' =>
      obtain ⟨v, hv, -⟩ := Option.bind_eq_some_iff.mp h
      exact (hne (ofBytes_start (proper_toJson e) hb hv)).elim
  trailing := by
    intro e b _ hb
    rw [ofBytes, toBytes, toJson, Json.ofBytes_append (proper_toJson e) hb]
    rfl

end Event

end Clonebox
