import Clonebox.Core.Runs
import Clonebox.Lib.Fields

/-! # The options of the overlay mount

`pre_pivot_mount` writes the root path and the bundle's directories into one string, and the kernel
takes that string apart at its delimiters. -/

namespace Clonebox
open Conc Prog

variable {id root data : String} {mounts : List Mount} {tr : List Sys.Ev}

/-! ### The kernel's reading -/

/-- A mount option and its values. -/
structure MountOption where
  key : String
  values : List String
  deriving DecidableEq

/-- The layers of `lowerdir` are separated by colons. -/
def readOption (option : List Char) : MountOption :=
  let key := option.takeWhile (· ≠ '=')
  let value := (option.dropWhile (· ≠ '=')).drop 1
  ⟨String.ofList key,
    (if key = "lowerdir".toList then value.splitOn ':' else [value]).map String.ofList⟩

/-- Options are separated by commas, and empty ones are passed over. -/
def mountOptions (data : String) : List MountOption :=
  ((data.toList.splitOn ',').filter (· ≠ [])).map readOption

/-- What the options are to say. -/
def overlayIntent (id root : String) : List MountOption :=
  [⟨"lowerdir", [root]⟩, ⟨"upperdir", [(Path.inBundle id .upper).str]⟩,
    ⟨"workdir", [(Path.inBundle id .work).str]⟩]

/-- What `pre_pivot_mount` formats. -/
def overlayData (id root : String) : String :=
  "lowerdir=" ++ root ++ ",upperdir=" ++ (Path.inBundle id .upper).str ++ ",workdir=" ++
    (Path.inBundle id .work).str

/-! ### What is read back -/

theorem mem_mountOptions {o : MountOption} (h : o ∈ mountOptions data) :
    ∃ option, ',' ∉ option ∧ o = readOption option := by
  obtain ⟨option, hmem, rfl⟩ := List.mem_map.mp h
  exact ⟨option, not_mem_field (List.mem_filter.mp hmem).1, rfl⟩

/-- No value of an option holds a comma. -/
theorem comma_not_mem {o : MountOption} {v : String} (ho : o ∈ mountOptions data) (hv : v ∈ o.values) :
    ',' ∉ v.toList := by
  obtain ⟨option, hclean, rfl⟩ := mem_mountOptions ho
  obtain ⟨l, hl, rfl⟩ := List.mem_map.mp hv
  rw [String.toList_ofList]
  intro hcomma
  -- the value is a part of the option
  have hvalue : ',' ∈ (option.dropWhile (· ≠ '=')).drop 1 := by
    split at hl
    · exact mem_of_mem_field hl hcomma
    · rwa [List.mem_singleton.mp hl] at hcomma
  exact hclean ((List.dropWhile_sublist _).subset (List.mem_of_mem_drop hvalue))

/-- No layer holds a colon. -/
theorem colon_not_mem {o : MountOption} {v : String} (ho : o ∈ mountOptions data)
    (hkey : o.key = "lowerdir") (hv : v ∈ o.values) : ':' ∉ v.toList := by
  obtain ⟨option, -, rfl⟩ := mem_mountOptions ho
  obtain ⟨l, hl, rfl⟩ := List.mem_map.mp hv
  have hlower : option.takeWhile (· ≠ '=') = "lowerdir".toList := by
    rw [← hkey]
    exact (String.toList_ofList).symm
  rw [if_pos hlower] at hl
  rw [String.toList_ofList]
  exact not_mem_field hl

theorem readOption_lowerdir (value : List Char) :
    readOption ("lowerdir=".toList ++ value) = ⟨"lowerdir", (value.splitOn ':').map String.ofList⟩ :=
  rfl

theorem readOption_upperdir (value : List Char) :
    readOption ("upperdir=".toList ++ value) = ⟨"upperdir", [String.ofList value]⟩ :=
  rfl

theorem readOption_workdir (value : List Char) :
    readOption ("workdir=".toList ++ value) = ⟨"workdir", [String.ofList value]⟩ :=
  rfl

theorem bundle_comma {file : BundleFile} (h : ',' ∉ file.name.toList) :
    ',' ∈ (Path.inBundle id file).str.toList ↔ ',' ∈ id.toList := by
  simp [Path.str, getBundlePath, String.toList_append, h]

/-- The options are read as they were meant if and only if neither string holds a comma and the root
no colon. -/
theorem mountOptions_overlay : mountOptions (overlayData id root) = overlayIntent id root ↔
    (',' ∉ root.toList ∧ ':' ∉ root.toList) ∧ ',' ∉ id.toList := by
  constructor
  · intro h
    have hlower : (⟨"lowerdir", [root]⟩ : MountOption) ∈ mountOptions (overlayData id root) := by
      rw [h]
      exact List.mem_cons_self
    have hupper : (⟨"upperdir", [(Path.inBundle id .upper).str]⟩ : MountOption) ∈
        mountOptions (overlayData id root) := by
      rw [h]
      exact List.mem_cons_of_mem _ List.mem_cons_self
    refine ⟨⟨comma_not_mem hlower List.mem_cons_self, colon_not_mem hlower rfl List.mem_cons_self⟩, ?_⟩
    have hcomma := comma_not_mem hupper List.mem_cons_self
    rwa [bundle_comma (by decide)] at hcomma
  · rintro ⟨⟨hcomma, hcolon⟩, hid⟩
    have hupper : ',' ∉ (Path.inBundle id .upper).str.toList := by rwa [bundle_comma (by decide)]
    have hwork : ',' ∉ (Path.inBundle id .work).str.toList := by rwa [bundle_comma (by decide)]
    have hdata : (overlayData id root).toList = ("lowerdir=".toList ++ root.toList) ++ ',' ::
        (("upperdir=".toList ++ (Path.inBundle id .upper).str.toList) ++ ',' ::
          ("workdir=".toList ++ (Path.inBundle id .work).str.toList)) := by
      simp [overlayData, String.toList_append]
    have hsplit : (overlayData id root).toList.splitOn ',' = ["lowerdir=".toList ++ root.toList,
        "upperdir=".toList ++ (Path.inBundle id .upper).str.toList,
        "workdir=".toList ++ (Path.inBundle id .work).str.toList] := by
      rw [hdata, List.splitOn_append_cons_self_of_not_mem (by simp [hcomma]),
        List.splitOn_append_cons_self_of_not_mem (by simp [hupper]),
        List.splitOn_eq_singleton (by simp [hwork])]
    rw [mountOptions, hsplit, List.filter_eq_self.mpr (by simp), List.map_cons, List.map_cons,
      List.map_singleton, readOption_lowerdir, readOption_upperdir, readOption_workdir,
      List.splitOn_eq_singleton hcolon, List.map_singleton, String.ofList_toList, String.ofList_toList,
      String.ofList_toList]
    rfl

/-! ### The call -/

/-- If the call mounts an overlay, it is with the options that are formatted. -/
def MountsOverlay (id root : String) (op : Op) : Prop :=
  ∀ src dest data, op = .mount src dest (some "overlay") [] (some data) → data = overlayData id root

theorem prePivotMount_overlay :
    Calls (S := Sys) (MountsOverlay id root) (prePivotMount id root mounts) := by
  have hmount {src mountType data : Option String} {dest : String} {flags : List MsFlag}
      (h : MountsOverlay id root (.mount src dest mountType flags data)) :
      Calls (S := Sys) (MountsOverlay id root) (mountChild src dest mountType flags data) :=
    Calls.childTry ⟨h, fun _ => trivial⟩ nofun
  have hdir {path : Path} :
      Calls (S := Sys) (MountsOverlay id root) (childTry (sys (.createDirAll path)) : Core Unit) :=
    Calls.childTry ⟨nofun, fun _ => trivial⟩ nofun
  refine .bind (hmount (by simp [MountsOverlay])) fun _ => ?_
  cases mounts.find? Mount.isBind with
  | some m => exact .bind (hmount (by simp [MountsOverlay])) fun _ => trivial
  | none =>
    refine .bind hdir fun _ => .bind hdir fun _ => .bind hdir fun _ => .bind (hmount ?_) fun _ => trivial
    intro src dest data h
    cases h
    rfl

/-- The options of the overlay say what was meant if and only if neither the root path nor the id
holds a comma, and the root path no colon. A backslash is taken as itself: that one takes its
meaning from the delimiter behind it is not in this grammar. -/
theorem overlay_options {id root data : String} {mounts : List Mount} {tr : List Sys.Ev} {q : Core String}
    {src : Option String} {dest : String} {r : Io Unit} (h : Reaches (prePivotMount id root mounts) tr q)
    (hmount : ⟨.mount src dest (some "overlay") [] (some data), r⟩ ∈ tr) :
    mountOptions data = overlayIntent id root ↔
      (',' ∉ root.toList ∧ ':' ∉ root.toList) ∧ ',' ∉ id.toList := by
  obtain rfl : data = overlayData id root := (h.calls prePivotMount_overlay).1 _ hmount src dest data rfl
  exact mountOptions_overlay

/-- The calls of `pre_pivot_mount` without user mounts, when all succeed. -/
def overlayCalls (id root : String) : List Sys.Ev :=
  [⟨.mount (some root) root none [.msBind] none, .ok ()⟩,
    ⟨.createDirAll (.inBundle id .upper), .ok ()⟩, ⟨.createDirAll (.inBundle id .work), .ok ()⟩,
    ⟨.createDirAll (.inBundle id .merged), .ok ()⟩,
    ⟨.mount (some "overlay") (Path.inBundle id .merged).str (some "overlay") []
      (some (overlayData id root)), .ok ()⟩]

theorem reaches_overlayCalls : Reaches (prePivotMount id root []) (overlayCalls id root)
    (.ret (Path.inBundle id .merged).str) := .cons (.cons (.cons (.cons (.cons .nil))))

theorem overlay_options_sample : ∃ (tr : List Sys.Ev) (q : Core String) (dest : String),
    Reaches (prePivotMount "c" "/image" []) tr q ∧
    ⟨.mount (some "overlay") dest (some "overlay") [] (some (overlayData "c" "/image")), .ok ()⟩ ∈ tr ∧
    mountOptions (overlayData "c" "/image") = overlayIntent "c" "/image" :=
  ⟨_, _, _, reaches_overlayCalls, List.mem_of_getElem? (i := 4) rfl,
    (overlay_options reaches_overlayCalls (List.mem_of_getElem? (i := 4) rfl)).mpr (by decide)⟩

/-- A root path with a colon. -/
def colonConfig : Config where
  ociVersion := "1.0.1"
  process := some ⟨none, some ["/bin/sh"], "/"⟩
  root := some ⟨"/images/app:1.2", none⟩
  mounts := none
  hostname := none

/-- A root path with a colon is accepted, and is read as two layers. -/
theorem overlay_split : ∃ (tr₀ tr : List Sys.Ev) (data dest : String),
    Reaches (Config.load "cfg") tr₀ (.ret colonConfig) ∧
    Reaches (prePivotMount "c" colonConfig.getRootPath (colonConfig.getMounts.getD [])) tr (.ret dest) ∧
    ⟨.mount (some "overlay") dest (some "overlay") [] (some data), .ok ()⟩ ∈ tr ∧
    (⟨"lowerdir", ["/images/app", "1.2"]⟩ : MountOption) ∈ mountOptions data ∧
    mountOptions data ≠ overlayIntent "c" colonConfig.getRootPath := by
  have hload : Reaches (Config.load "cfg")
      [⟨.read (.host "cfg/config.json"), .ok (.config colonConfig)⟩] (.ret colonConfig) := .cons .nil
  exact ⟨_, overlayCalls "c" colonConfig.getRootPath, overlayData "c" colonConfig.getRootPath, _, hload,
    reaches_overlayCalls, List.mem_of_getElem? (i := 4) rfl, by decide +kernel, by decide +kernel⟩

end Clonebox
