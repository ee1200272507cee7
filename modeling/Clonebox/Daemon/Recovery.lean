import Mathlib.Data.List.Pairwise
import Clonebox.Core.Sys
import Clonebox.Daemon.Entry

/-! # The directory that is recovered (`recovery.rs`)

`recover` skips what it cannot read, and corrects a state whose pid is gone. A state without a pid
is corrected if it says `running`, but not if it says `created` or `paused`. -/

namespace Clonebox

/-! ### The loop -/

/-- What `read_dir` yields: an error, or an entry with its type, its name if that is UTF-8, and what
`state.json` under the name reads as. -/
inductive DirItem where
  | unreadable (e : Errno)
  | item (isDir : Io Bool) (fileName : Option String) (stateJson : Io Content)
  deriving DecidableEq

def DirItem.fileName : DirItem → Option String
  | .unreadable _ => none
  | .item _ fileName _ => fileName

namespace Daemon

/-- One round of the loop. Each pattern but the last is a `continue`. -/
def recoverItem (alive : Int → Bool) (d : Daemon) : DirItem → Daemon
  | .unreadable _ => d
  | .item (.error _) _ _ => d
  | .item (.ok false) _ _ => d
  | .item (.ok true) none _ => d
  | .item (.ok true) (some _) (.error _) => d
  | .item (.ok true) (some _) (.ok (.config _)) => d
  | .item (.ok true) (some _) (.ok (.text _)) => d
  | .item (.ok true) (some fileName) (.ok (.state state)) =>
    d.orInsert fileName ⟨(recoveredState alive state).getState, none, []⟩

def recoverDir (alive : Int → Bool) (dirContent : Io (List DirItem)) (d : Daemon) : Io Daemon :=
  dirContent.map fun items => items.foldl (recoverItem alive) d

end Daemon

/-- A directory with a name, and the state in it, if there is one. -/
def DirItem.candidate : DirItem → Option (String × Option State)
  | .item (.ok true) (some fileName) (.ok (.state s)) => some (fileName, some s)
  | .item (.ok true) (some fileName) _ => some (fileName, none)
  | _ => none

/-- The loop is a recovery of the directories with a name. -/
theorem Daemon.recoverItems_eq (alive : Int → Bool) (items : List DirItem) (d : Daemon) :
    items.foldl (recoverItem alive) d = d.recover alive (items.filterMap DirItem.candidate) := by
  induction items generalizing d with
  | nil => rfl
  | cons a items ih =>
    rw [List.foldl_cons, ih, List.filterMap_cons]
    rcases a with e | ⟨e | isDir, fileName, stateJson⟩
    · rfl
    · rfl
    cases isDir with
    | false => rfl
    | true =>
      cases fileName with
      | none => rfl
      | some fileName => rcases stateJson with e | (s | c | t) <;> rfl

/-! ### What is found -/

/-- The state in the directory of that name. -/
def DirItem.stateOf (name : String) : DirItem → Option State
  | .item (.ok true) (some fileName) (.ok (.state s)) => if fileName = name then some s else none
  | _ => none

/-- The two do not have the same name. -/
def DirItem.Differ (a b : DirItem) : Prop := ∀ name ∈ a.fileName, name ∉ b.fileName

instance {a b : DirItem} : Decidable (a.Differ b) :=
  inferInstanceAs (Decidable (∀ name ∈ a.fileName, name ∉ b.fileName))

instance : Std.Symm DirItem.Differ where
  symm _ _ h name hb ha := h name ha hb

/-- The content of the application directory. A name occurs once. -/
structure AppDir where
  items : List DirItem
  distinct : items.Pairwise DirItem.Differ

/-- A directory of that name holds the state in `state.json`. -/
def AppDir.Holds (dir : AppDir) (name : String) (s : State) : Prop :=
  ∃ a ∈ dir.items, a.stateOf name = some s

instance {dir : AppDir} {name : String} {s : State} : Decidable (dir.Holds name s) :=
  inferInstanceAs (Decidable (∃ a ∈ dir.items, _))

theorem DirItem.fileName_of_stateOf {a : DirItem} {name : String} {s : State}
    (h : a.stateOf name = some s) : a.fileName = some name := by
  unfold stateOf at h
  split at h
  · split at h
    · rename_i hname
      rw [← hname]
      rfl
    · contradiction
  · contradiction

/-- What the loop enters under a name is the first state found under it. -/
theorem Daemon.entry_recoverItems {alive : Int → Bool} {items : List DirItem} {d : Daemon} {name : String} :
    (items.foldl (recoverItem alive) d).entry name = (d.entry name).or
      ((items.findSome? (DirItem.stateOf name)).map fun s => ⟨(recoveredState alive s).getState, none, []⟩) := by
  induction items generalizing d with
  | nil => simp
  | cons a items ih =>
    rw [List.foldl_cons, ih, List.findSome?_cons]
    cases h : a.stateOf name with
    | none =>
      have hsame : (d.recoverItem alive a).entry name = d.entry name := by
        unfold recoverItem
        split <;> try rfl
        rename_i fileName s
        refine entry_orInsert_ne _ _ _ _ fun hname => ?_
        simp [DirItem.stateOf, hname] at h
      rw [hsame]
    | some s =>
      have hfirst : (d.recoverItem alive a).entry name =
          some ((d.entry name).getD ⟨(recoveredState alive s).getState, none, []⟩) := by
        unfold DirItem.stateOf at h
        split at h
        · split at h
          · rename_i hname
            cases h
            rw [← hname]
            exact entry_orInsert ..
          · contradiction
        · contradiction
      rw [hfirst]
      cases d.entry name <;> rfl

namespace AppDir

variable {dir : AppDir} {name : String} {s : State}

/-- A name stands for one state. -/
theorem find_iff : dir.items.findSome? (DirItem.stateOf name) = some s ↔ dir.Holds name s := by
  constructor
  · intro h
    exact List.exists_of_findSome?_eq_some h
  · intro h
    obtain ⟨a, ha, hs⟩ := h
    have hany : (dir.items.findSome? (DirItem.stateOf name)).isSome = true := by
      rw [List.isSome_findSome?, List.any_eq_true]
      exact ⟨a, ha, by rw [hs]; rfl⟩
    obtain ⟨s', hs'⟩ := Option.isSome_iff_exists.mp hany
    obtain ⟨b, hb, hbs⟩ := List.exists_of_findSome?_eq_some hs'
    obtain rfl : a = b := by
      by_contra hne
      have hdiffer := dir.distinct.forall ha hb hne
      exact hdiffer name (DirItem.fileName_of_stateOf hs) (DirItem.fileName_of_stateOf hbs)
    rw [hs', ← hbs, hs]

theorem entry_iff {alive : Int → Bool} {e : ContainerEntry} :
    (dir.items.foldl (Daemon.recoverItem alive) .new).entry name = some e ↔
      ∃ s, dir.Holds name s ∧ e = ⟨(recoveredState alive s).getState, none, []⟩ := by
  rw [Daemon.entry_recoverItems, Daemon.entry_new, Option.none_or, Option.map_eq_some_iff]
  simp only [find_iff, eq_comm (b := e)]

end AppDir

/-! ### What is reported as live -/

def ContainerState.live : ContainerState → Bool
  | .created | .running | .paused => true
  | _ => false

/-- Every entry that is live stands for a state file with the pid of a process that is there. -/
def ReportsLive (alive : Int → Bool) (dir : AppDir) (d : Daemon) : Prop :=
  ∀ name e, d.entry name = some e → e.state.live = true →
    ∃ s p, dir.Holds name s ∧ s.pid = some p ∧ alive p = true

/-- A state that `recover` leaves live without looking at a process. -/
def State.unpinned (s : State) : Bool := s.pid = none ∧ (s.status = .created ∨ s.status = .paused)

/-- What `recover` leaves live has a pid that is there, or is one of these states. -/
theorem recoveredState_live {alive : Int → Bool} {s : State} :
    (recoveredState alive s).getState.live = true ↔
      s.unpinned = true ∨ s.status.live = true ∧ ∃ p, s.pid = some p ∧ alive p = true := by
  obtain ⟨version, id, status, pid, bundle, annotations⟩ := s
  cases pid with
  | none => cases status <;> simp [recoveredState, State.setState, State.unpinned, ContainerState.live]
  | some p =>
    cases halive : alive p with
    | true => simp [recoveredState, State.unpinned, halive]
    | false => simp [recoveredState, State.setState, State.unpinned, ContainerState.live, halive]

theorem reportsLive_iff {alive : Int → Bool} {dir : AppDir} :
    ReportsLive alive dir (dir.items.foldl (Daemon.recoverItem alive) .new) ↔
      ∀ name s, dir.Holds name s → s.unpinned = false := by
  constructor
  · intro h name s hs
    by_contra hun
    rw [Bool.not_eq_false] at hun
    have hlive : (recoveredState alive s).getState.live = true := recoveredState_live.mpr (.inl hun)
    obtain ⟨s', p, hs', hp, -⟩ := h name _ (AppDir.entry_iff.mpr ⟨s, hs, rfl⟩) hlive
    cases (AppDir.find_iff.mpr hs).symm.trans (AppDir.find_iff.mpr hs')
    simp [State.unpinned, hp] at hun
  · intro h name e hentry hlive
    obtain ⟨s, hs, rfl⟩ := AppDir.entry_iff.mp hentry
    rcases recoveredState_live.mp hlive with hun | ⟨-, p, hp, halive⟩
    · rw [h name s hs] at hun
      contradiction
    · exact ⟨s, p, hs, hp, halive⟩

/-- `recover` on an empty map comes to an end, with an entry for each directory that holds a state,
and nothing else. Each live entry stands for a process that is there if and only if no state is
`created` or `paused` without a pid. -/
theorem recover_live (alive : Int → Bool) (dir : AppDir) :
    ∃ d, Daemon.recoverDir alive (.ok dir.items) .new = .ok d ∧
      (∀ name, name ∈ d.containers ↔ ∃ s, dir.Holds name s) ∧
      (ReportsLive alive dir d ↔ ∀ name s, dir.Holds name s → s.unpinned = false) := by
  refine ⟨_, rfl, fun name => ?_, reportsLive_iff⟩
  rw [← AList.lookup_isSome, Option.isSome_iff_exists]
  constructor
  · intro h
    obtain ⟨e, he⟩ := h
    obtain ⟨s, hs, -⟩ := AppDir.entry_iff.mp he
    exact ⟨s, hs⟩
  · intro h
    obtain ⟨s, hs⟩ := h
    exact ⟨_, AppDir.entry_iff.mpr ⟨s, hs, rfl⟩⟩

/-- A paused container whose file has lost the pid. -/
def pausedDir : AppDir where
  items := [.item (.ok true) (some "c") (.ok (.state ⟨"1.0.1", "c", .paused, none, "/run/c", none⟩))]
  distinct := List.pairwise_singleton ..

/-- It is entered as paused when no process is there at all. -/
theorem paused_without_process : ∃ d, Daemon.recoverDir (fun _ => false) (.ok pausedDir.items) .new = .ok d ∧
    (d.entry "c").map (·.state) = some .paused ∧ ¬ReportsLive (fun _ => false) pausedDir d := by
  refine ⟨_, rfl, rfl, fun h => ?_⟩
  obtain ⟨s, p, -, -, halive⟩ := h "c" ⟨.paused, none, []⟩ rfl rfl
  contradiction

end Clonebox
