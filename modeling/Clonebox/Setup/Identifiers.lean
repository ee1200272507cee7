import Clonebox.Core.Runs
import Clonebox.Daemon.Handlers
import Clonebox.Lib.MountTable

/-! # The directories of an id

The id is pasted behind two prefixes. A name leads to a directory of its own there; any other string
leads elsewhere. -/

namespace Clonebox
open Conc Prog

variable {id a b : String} {force : Bool} {tr : List Sys.Ev}

/-- Where the bundle is. -/
def bundleDir (id : String) : List String := resolve [] (getBundlePath id)

def cgroupDir (id : String) : List String := resolve [] (getChildCgroupPath id)

/-- The container has a bundle and a cgroup under its own name. -/
structure Confined (id : String) : Prop where
  bundle : bundleDir id = ["run", "clonebox", id]
  stateFile : resolve [] (getStatePath id) = ["run", "clonebox", id, "state.json"]
  cgroup : cgroupDir id = ["sys", "fs", "cgroup", "clonebox", id]

/-- What the call takes away: one directory, or a directory with all that is below it. -/
def Op.Removes (dir : List String) : Op → Prop
  | .removeDir p => dir = resolve [] p.str
  | .removeDirAll p => resolve [] p.str <+: dir
  | _ => False

def appDataPath : String := "/run/clonebox"
def clientSocket : String := "/run/clonebox/clonebox.sk"

/-- What the daemon keeps beside the bundles. -/
def daemonPaths : List String := [appDataPath, clientSocket, getEventSocketPath]

/-! ### The paths of a name -/

theorem bundleDir_eq : bundleDir id = (pathNames id).foldl walkName ["run", "clonebox"] := by
  have hslash : "/run/clonebox/" = "/run/clonebox" ++ "/" := by decide +kernel
  have hpath : getBundlePath id = "/run/clonebox" ++ "/" ++ id := congrArg (· ++ id) hslash
  have hstart : resolve [] "/run/clonebox" = ["run", "clonebox"] := by decide +kernel
  rw [bundleDir, hpath, resolve_append (by decide), hstart]

theorem bundleDir_name (h : IsName id) : bundleDir id = ["run", "clonebox", id] := by
  rw [bundleDir_eq, pathNames_name h, List.foldl_cons, List.foldl_nil, walkName_name h]
  rfl

theorem cgroupDir_name (h : IsName id) : cgroupDir id = ["sys", "fs", "cgroup", "clonebox", id] := by
  have hslash : "/sys/fs/cgroup/clonebox/" = "/sys/fs/cgroup/clonebox" ++ "/" := by decide +kernel
  have hpath : getChildCgroupPath id = "/sys/fs/cgroup/clonebox" ++ "/" ++ id := congrArg (· ++ id) hslash
  have hstart : resolve [] "/sys/fs/cgroup/clonebox" = ["sys", "fs", "cgroup", "clonebox"] := by decide +kernel
  rw [cgroupDir, hpath, resolve_name (by decide) h, hstart]
  rfl

theorem statePath_eq : resolve [] (getStatePath id) = bundleDir id ++ ["state.json"] := by
  have hslash : "/state.json" = "/" ++ "state.json" := by decide +kernel
  have hpath : getStatePath id = getBundlePath id ++ "/" ++ "state.json" := by
    rw [getStatePath, hslash, String.append_assoc]
  have hprefix : getBundlePath id ≠ "" := by simp [getBundlePath]
  rw [hpath, resolve_name hprefix (by decide), bundleDir]

/-- Only a name leads to a directory of its own. -/
theorem confined_iff : Confined id ↔ IsName id := by
  constructor
  · rintro ⟨hbundle, -, -⟩
    have hmem : id ∈ bundleDir id := by
      rw [hbundle]
      simp
    rw [bundleDir_eq] at hmem
    rcases isName_of_mem_walk hmem with hdir | hname
    · have hnames : ∀ name ∈ ["run", "clonebox"], IsName name := by decide
      exact hnames id hdir
    · exact hname
  · intro h
    refine ⟨bundleDir_name h, ?_, cgroupDir_name h⟩
    rw [statePath_eq, bundleDir_name h]
    rfl

/-- The directories of two names lie beside each other. -/
theorem apart_names (ha : IsName a) (hb : IsName b) (hne : a ≠ b) :
    Apart (bundleDir a) (bundleDir b) ∧ Apart (cgroupDir a) (cgroupDir b) := by
  rw [bundleDir_name ha, bundleDir_name hb, cgroupDir_name ha, cgroupDir_name hb]
  simpa [Apart] using ⟨hne, hne.symm⟩

theorem apart_cgroup (ha : IsName a) (hb : IsName b) : Apart (bundleDir a) (cgroupDir b) := by
  rw [bundleDir_name ha, cgroupDir_name hb]
  simp [Apart]

/-! ### What `delete` removes -/

/-- `delete` removes at no path but these two. -/
theorem delete_removes : Calls (S := Sys) (fun op => ∀ dir, op.Removes dir →
    bundleDir id <+: dir ∨ dir = cgroupDir id) (delete id force) := by
  have hclean : Calls (S := Sys) (fun op => ∀ dir, op.Removes dir →
      bundleDir id <+: dir ∨ dir = cgroupDir id) (cleanup id force) := by
    have hcgroup (dir : List String) (h : (Op.removeDir (.cgroup id)).Removes dir) :
        bundleDir id <+: dir ∨ dir = cgroupDir id := .inr h
    have hbundle (dir : List String) (h : (Op.removeDirAll (.bundle id)).Removes dir) :
        bundleDir id <+: dir ∨ dir = cgroupDir id := .inl h
    unfold cleanup
    split
    · exact ⟨hcgroup, fun _ => ⟨hbundle, fun _ => trivial⟩⟩
    · exact .bind (Clonebox.Calls.mapErr ⟨hcgroup, fun _ => trivial⟩) fun _ =>
        Clonebox.Calls.mapErr ⟨hbundle, fun _ => trivial⟩
  unfold delete
  split
  · exact hclean
  · exact .bind (readStateFile_all (by simp [Op.Removes])) fun s => .bind calls_throwIf fun _ => hclean

variable {dir : List String}

/-- What lies in the bundle of a name, and its cgroup, is no other's. -/
theorem apart_of_own (h : IsName id) (hdir : bundleDir id <+: dir ∨ dir = cgroupDir id) (hb : IsName b)
    (hne : b ≠ id) : Apart dir (bundleDir b) ∧ Apart dir (cgroupDir b) := by
  obtain ⟨hbundle, hcgroup⟩ := apart_names h hb hne.symm
  rcases hdir with hdir | rfl
  · exact ⟨hbundle.below hdir, (apart_cgroup h hb).below hdir⟩
  · obtain ⟨hleft, hright⟩ := apart_cgroup hb h
    exact ⟨⟨hright, hleft⟩, hcgroup⟩

/-- The daemon's directory is above that of a name, and its sockets are names themselves. -/
theorem daemon_apart {p : String} (h : IsName id) (hdir : bundleDir id <+: dir ∨ dir = cgroupDir id)
    (hp : p ∈ daemonPaths) (hne : p ≠ getBundlePath id) : ¬dir <+: resolve [] p := by
  have happ : resolve [] appDataPath = ["run", "clonebox"] := by decide +kernel
  have hclient : clientSocket = getBundlePath "clonebox.sk" := by decide +kernel
  have hevent : getEventSocketPath = getBundlePath "event.sk" := by decide +kernel
  have hsocket (name : String) (hname : IsName name) (hother : getBundlePath name ≠ getBundlePath id) :
      ¬dir <+: bundleDir name := by
    have hdiffer : name ≠ id := fun he => hother (congrArg getBundlePath he)
    exact (apart_of_own h hdir hname hdiffer).1.1
  simp only [daemonPaths, List.mem_cons, List.not_mem_nil, or_false] at hp
  rcases hp with rfl | rfl | rfl
  · rw [happ]
    rcases hdir with hdir | rfl
    · rw [bundleDir_name h] at hdir
      intro hover
      simpa using hdir.trans hover
    · rw [cgroupDir_name h]
      simp
  · rw [hclient] at hne ⊢
    exact hsocket "clonebox.sk" (by decide) hne
  · rw [hevent] at hne ⊢
    exact hsocket "event.sk" (by decide) hne

/-- A name, and nothing else, confines the paths made from it; two names have directories beside
each other; and what `delete` removes of a name belongs to no other name and not to the daemon. A
socket of that name is left out only because `Op.Removes` does not say that `remove_dir_all` fails
on a socket. -/
theorem ids_confined :
    (∀ id, Confined id ↔ IsName id) ∧
    (∀ a b, IsName a → IsName b → a ≠ b →
      Apart (bundleDir a) (bundleDir b) ∧ Apart (cgroupDir a) (cgroupDir b)) ∧
    ∀ (id : String) (force : Bool) (tr : List Sys.Ev) (q : Core Unit), IsName id →
      Reaches (delete id force) tr q → ∀ ev ∈ tr, ∀ dir, ev.1.Removes dir →
        (bundleDir id <+: dir ∨ dir = cgroupDir id) ∧
        (∀ b, IsName b → b ≠ id → Apart dir (bundleDir b) ∧ Apart dir (cgroupDir b)) ∧
        ∀ p ∈ daemonPaths, p ≠ getBundlePath id → ¬dir <+: resolve [] p := by
  refine ⟨fun _ => confined_iff, fun _ _ => apart_names, fun id force tr q h hrun ev hev dir hremoves => ?_⟩
  have hdir := (hrun.calls delete_removes).1 ev hev dir hremoves
  exact ⟨hdir, fun b hb => apart_of_own h hdir hb, fun p hp => daemon_apart h hdir hp⟩

/-- A forced `delete`, where both directories are there. -/
def forcedRun (id : String) : List Sys.Ev :=
  [⟨.removeDir (.cgroup id), .ok ()⟩, ⟨.removeDirAll (.bundle id), .ok ()⟩]

theorem reaches_forcedRun : Reaches (delete id true) (forcedRun id) (.ret ()) := .cons (.cons .nil)

theorem ids_confined_sample : Confined "c1" ∧ Apart (bundleDir "c1") (bundleDir "c2") ∧
    ∀ ev ∈ forcedRun "c1", ∀ dir, ev.1.Removes dir → bundleDir "c1" <+: dir ∨ dir = cgroupDir "c1" :=
  ⟨(ids_confined.1 "c1").mpr (by decide),
    (ids_confined.2.1 "c1" "c2" (by decide) (by decide) (by decide)).1,
    fun ev hev dir hremoves =>
      (ids_confined.2.2 "c1" true _ _ (by decide) reaches_forcedRun ev hev dir hremoves).1⟩

/-- The empty id is accepted: the directory of all containers and the daemon's sockets are
removed. -/
theorem empty_id_removes_all : Reaches (delete "" true) (forcedRun "") (.ret ()) ∧ ¬Confined "" ∧
    ∃ ev ∈ forcedRun "", ev.2 ≍ (.ok () : Io Unit) ∧
      (∀ id, IsName id → ev.1.Removes (bundleDir id)) ∧ ∀ p ∈ daemonPaths, ev.1.Removes (resolve [] p) := by
  have hroot : bundleDir "" = ["run", "clonebox"] := by decide +kernel
  refine ⟨reaches_forcedRun, fun hconfined => ?_, ⟨.removeDirAll (.bundle ""), .ok ()⟩, by simp [forcedRun],
    .rfl, fun id h => ?_, ?_⟩
  · exact absurd (confined_iff.mp hconfined) (by decide)
  · show bundleDir "" <+: bundleDir id
    rw [hroot, bundleDir_name h]
    simp
  · show ∀ p ∈ daemonPaths, bundleDir "" <+: resolve [] p
    rw [hroot]
    decide +kernel

end Clonebox
