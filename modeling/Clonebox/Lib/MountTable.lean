import Mathlib.Data.List.Basic
import Clonebox.Lib.Fields

/-! # Paths and mount tables

Where there are no links, a path is resolved name by name; else it leads where the links say. A
mount table lists the mounts in the order in which they were made: a path belongs to the last of
those whose point lies on the way to it. -/

namespace Conc

/-! ### Paths -/

/-- One name of a path. -/
def walkName (dir : List String) (name : String) : List String :=
  if name = "" ∨ name = "." then dir
  else if name = ".." then dir.dropLast
  else dir ++ [name]

def pathNames (path : String) : List String := (path.toList.splitOn '/').map String.ofList

/-- The directory that a path leads to from the directory `cwd`. -/
def resolve (cwd : List String) (path : String) : List String :=
  (pathNames path).foldl walkName (if path.toList.head? = some '/' then [] else cwd)

theorem pathNames_append {a b : String} : pathNames (a ++ "/" ++ b) = pathNames a ++ pathNames b := by
  have hlist : (a ++ "/" ++ b).toList = a.toList ++ '/' :: b.toList := by simp
  rw [pathNames, hlist, List.splitOn_append_cons_self, List.map_append]
  rfl

/-- A path below another one is resolved from there. -/
theorem resolve_append {cwd : List String} {a b : String} (h : a ≠ "") :
    resolve cwd (a ++ "/" ++ b) = (pathNames b).foldl walkName (resolve cwd a) := by
  have hhead : (a ++ "/" ++ b).toList.head? = a.toList.head? := by
    cases hlist : a.toList with
    | nil => exact absurd (String.toList_inj.mp hlist) h
    | cons c cs => simp [hlist]
  rw [resolve, hhead, pathNames_append, List.foldl_append]
  rfl

/-- A name that leads one directory down. -/
def IsName (name : String) : Prop := '/' ∉ name.toList ∧ name ≠ "" ∧ name ≠ "." ∧ name ≠ ".."

instance (name : String) : Decidable (IsName name) := by
  unfold IsName
  infer_instance

theorem walkName_name {dir : List String} {name : String} (h : IsName name) :
    walkName dir name = dir ++ [name] := by
  obtain ⟨-, hempty, hdot, hup⟩ := h
  rw [walkName, if_neg (not_or.mpr ⟨hempty, hdot⟩), if_neg hup]

theorem pathNames_name {name : String} (h : IsName name) : pathNames name = [name] := by
  rw [pathNames, List.splitOn_eq_singleton h.1, List.map_singleton, String.ofList_toList]

theorem resolve_name {cwd : List String} {a name : String} (ha : a ≠ "") (h : IsName name) :
    resolve cwd (a ++ "/" ++ name) = resolve cwd a ++ [name] := by
  rw [resolve_append ha, pathNames_name h, List.foldl_cons, List.foldl_nil, walkName_name h]

/-- What is walked to consists of names. -/
theorem mem_walk {names dir : List String} {name : String} (h : name ∈ names.foldl walkName dir) :
    name ∈ dir ∨ name ∈ names ∧ name ≠ "" ∧ name ≠ "." ∧ name ≠ ".." := by
  induction names generalizing dir with
  | nil => exact .inl h
  | cons n names ih =>
    rcases ih h with hdir | ⟨hmem, hplain⟩
    · by_cases hstay : n = "" ∨ n = "."
      · rw [walkName, if_pos hstay] at hdir
        exact .inl hdir
      · by_cases hup : n = ".."
        · rw [walkName, if_neg hstay, if_pos hup] at hdir
          exact .inl (List.dropLast_subset dir hdir)
        · rw [walkName, if_neg hstay, if_neg hup, List.mem_append, List.mem_singleton] at hdir
          rcases hdir with hdir | rfl
          · exact .inl hdir
          · obtain ⟨hempty, hdot⟩ := not_or.mp hstay
            exact .inr ⟨List.mem_cons_self, hempty, hdot, hup⟩
    · exact .inr ⟨List.mem_cons_of_mem n hmem, hplain⟩

/-- What is walked to along a path are names of that path. -/
theorem isName_of_mem_walk {dir : List String} {path name : String}
    (h : name ∈ (pathNames path).foldl walkName dir) : name ∈ dir ∨ IsName name := by
  rcases mem_walk h with hdir | ⟨hmem, hplain⟩
  · exact .inl hdir
  · obtain ⟨field, hfield, rfl⟩ := List.mem_map.mp hmem
    refine .inr ⟨?_, hplain⟩
    rw [String.toList_ofList]
    exact not_mem_field hfield

/-- Where the paths of a process lead that changes its root: before, those of the host, and after
it, those below the new root. Links are followed, and those on the way stay what they are. -/
structure Lookup where
  host (cwd : List String) (path : String) : List String
  inside (cwd : List String) (path : String) : List String
  inside_root (cwd : List String) : inside cwd "/" = []

/-- There are no links. -/
def Lookup.unlinked : Lookup where
  host := resolve
  inside := resolve
  inside_root cwd := by
    rw [resolve]
    rfl

/-! ### Tables -/

structure Mounted (N C : Type) where
  point : List N
  content : C
  deriving DecidableEq

variable {N C : Type} [DecidableEq N] {dir path rest : List N} {m : Mounted N C} {ms ms' : List (Mounted N C)}

/-- Neither directory is in the other. -/
def Apart (dir path : List N) : Prop := ¬dir <+: path ∧ ¬path <+: dir

omit [DecidableEq N] in
theorem Apart.below (h : Apart dir path) (hrest : dir <+: rest) : Apart rest path := by
  constructor
  · exact fun hpath => h.1 (hrest.trans hpath)
  · intro hpath
    rcases List.prefix_or_prefix_of_prefix hrest hpath with hsame | hsame
    · exact h.1 hsame
    · exact h.2 hsame

/-- What is left of a path below a directory. -/
def below (dir path : List N) : Option (List N) :=
  if dir <+: path then some (path.drop dir.length) else none

theorem below_eq_some_iff : below dir path = some rest ↔ path = dir ++ rest := by
  unfold below
  constructor
  · intro h
    split at h
    · rename_i hdir
      obtain ⟨rest', rfl⟩ := hdir
      rw [List.drop_left] at h
      rw [Option.some.inj h]
    · cases h
  · rintro rfl
    rw [if_pos (List.prefix_append dir rest), List.drop_left]

theorem below_self : below dir dir = some [] := below_eq_some_iff.mpr (List.append_nil dir).symm

/-- The last mount at a directory, and those after it. -/
def since (dir : List N) : List (Mounted N C) → List (Mounted N C)
  | [] => []
  | m :: ms => if m.point = dir ∧ ∀ m' ∈ ms, m'.point ≠ dir then m :: ms else since dir ms

/-- Another mount at the directory comes later. -/
theorem since_skip {m₀ : Mounted N C} (h : m ∈ ms) (hm : m.point = dir) :
    since dir (m₀ :: ms) = since dir ms := by
  refine if_neg ?_
  rintro ⟨-, hnone⟩
  exact hnone m h hm

theorem since_append (hm : m.point = dir) (hms : ∀ m' ∈ ms', m'.point ≠ dir) :
    since dir (ms ++ m :: ms') = m :: ms' := by
  induction ms with
  | nil => exact if_pos ⟨hm, hms⟩
  | cons m₀ ms ih =>
    rw [List.cons_append, since_skip (by simp) hm]
    exact ih

theorem since_suffix : ∀ ms : List (Mounted N C), since dir ms <:+ ms
  | [] => List.suffix_rfl
  | m :: ms => by
    unfold since
    split
    · exact List.suffix_rfl
    · exact (since_suffix ms).trans (List.suffix_cons m ms)

/-- Nothing before a mount at the directory is the last one there. -/
theorem since_suffix_append (hm : m.point = dir) : since dir (ms ++ m :: ms') <:+ m :: ms' := by
  induction ms with
  | nil => exact since_suffix (m :: ms')
  | cons m₀ ms ih =>
    rw [List.cons_append, since_skip (by simp) hm]
    exact ih

/-- The table of a process whose root has become `dir`: what was mounted there, and below it
since. -/
def pivot (dir : List N) (ms : List (Mounted N C)) : List (Mounted N C) :=
  (since dir ms).filterMap fun m => (below dir m.point).map fun point => ⟨point, m.content⟩

theorem pivot_append (hm : m.point = dir) (hms : ∀ m' ∈ ms', m'.point ≠ dir) :
    pivot dir (ms ++ m :: ms') = ⟨[], m.content⟩ ::
      ms'.filterMap fun m => (below dir m.point).map fun point => ⟨point, m.content⟩ := by
  have hroot : (below dir m.point).map (fun point => (⟨point, m.content⟩ : Mounted N C)) =
      some ⟨[], m.content⟩ := by
    rw [hm, below_self]
    rfl
  rw [pivot, since_append hm hms, List.filterMap_cons, hroot]

/-- What is kept of a table was mounted at the new root or later. -/
theorem mem_pivot_append {m' : Mounted N C} (hm : m.point = dir) (h : m' ∈ pivot dir (ms ++ m :: ms')) :
    ∃ m'' ∈ m :: ms', m''.content = m'.content := by
  obtain ⟨m'', hmem, hmap⟩ := List.mem_filterMap.mp h
  obtain ⟨point, -, rfl⟩ := Option.map_eq_some_iff.mp hmap
  exact ⟨m'', (since_suffix_append hm).mem hmem, rfl⟩

/-- Nothing is left of the table when the last mount is the root. -/
theorem pivot_last (hm : m.point = dir) : pivot dir (ms ++ [m]) = [⟨[], m.content⟩] :=
  pivot_append hm fun _ hm' => absurd hm' List.not_mem_nil

/-- A mount after that of the root is kept if it is below it. -/
theorem pivot_below {m' : Mounted N C} (hm : m.point = dir) (hm' : m'.point ≠ dir) :
    pivot dir (ms ++ [m, m']) = ⟨[], m.content⟩ ::
      ((below dir m'.point).map fun point => (⟨point, m'.content⟩ : Mounted N C)).toList := by
  rw [pivot_append hm fun m'' hm'' => by rwa [List.mem_singleton.mp hm'']]
  cases hbelow : below dir m'.point <;> simp [hbelow]

/-- The mount that a path belongs to. -/
def owner (ms : List (Mounted N C)) (path : List N) : Option (Mounted N C) :=
  (ms.filter fun m => m.point <+: path).getLast?

/-- Where something is mounted at the root, every path belongs to a mount. -/
theorem owner_of_root (hm : m.point = []) : ∃ m' ∈ m :: ms, owner (m :: ms) path = some m' := by
  have hmem : m ∈ (m :: ms).filter fun m => m.point <+: path := by
    simp [hm]
  have hlast := List.getLast?_eq_some_getLast (List.ne_nil_of_mem hmem)
  exact ⟨_, (List.mem_filter.mp (List.mem_of_getLast? hlast)).1, hlast⟩

end Conc
