import Clonebox.Lib.MountTable
import Clonebox.Lifecycle.FailClosed
import Clonebox.Setup.OverlayOptions

/-! # The mounts that the command sees

The child mounts in the directory that is to be its root, makes it the root and mounts there again.
The paths before are those of the host, and the paths after are those of the container; where they
lead, links and all, is for the kernel to say. -/

namespace Clonebox
open Conc Prog

variable {id configPath : String} {config : Config} {mounts : List Mount} {tr tr' : List Sys.Ev}

/-! ### The table -/

/-- What `mount` is told, but for the place. -/
structure MountArgs where
  source : Option String
  mountType : Option String
  flags : List MsFlag
  data : Option String
  deriving DecidableEq

abbrev MountTable := List (Mounted String MountArgs)

/-- The directory the child is in and its mounts; where its old root is, until that is detached; and
whether it has changed its root. -/
structure ChildView where
  cwd : List String
  mounts : MountTable
  old : Option (List String)
  pivoted : Bool

namespace ChildView

variable {P : Lookup} {v : ChildView}

def lookup (P : Lookup) (v : ChildView) : String → List String :=
  if v.pivoted then P.inside v.cwd else P.host v.cwd

theorem lookup_host (h : v.pivoted = false) {path : String} : v.lookup P path = P.host v.cwd path := by
  simp [lookup, h]

theorem lookup_inside (h : v.pivoted = true) {path : String} : v.lookup P path = P.inside v.cwd path := by
  simp [lookup, h]

/-- A change of the propagation is no mount. -/
def next (P : Lookup) (v : ChildView) : (op : Op) → op.Ret → ChildView
  | .mount source dest mountType flags data, .ok () =>
    if .msPrivate ∈ flags then v
    else { v with
      mounts := v.mounts ++ [⟨v.lookup P dest, ⟨source, mountType, flags, data⟩⟩] }
  | .pivotRoot newRoot putOld, .ok () =>
    let root := v.lookup P newRoot
    let old := below root (v.lookup P putOld)
    ⟨old.getD [] ++ v.cwd, pivot root v.mounts, old, true⟩
  | .chdir path, .ok () => { v with cwd := v.lookup P path }
  | .umount2 path, .ok () => if v.old = some (v.lookup P path) then { v with old := none } else v
  | _, _ => v

def after (P : Lookup) (v : ChildView) (tr : List Sys.Ev) : ChildView :=
  tr.foldl (fun v ev => v.next P ev.1 ev.2) v

@[simp] theorem after_nil : v.after P [] = v := rfl

@[simp] theorem after_cons {ev : Sys.Ev} : v.after P (ev :: tr) = (v.next P ev.1 ev.2).after P tr := rfl

theorem after_append : v.after P (tr ++ tr') = (v.after P tr).after P tr' := List.foldl_append

end ChildView

/-- A call that changes the mount table. -/
def Op.remounts : Op → Bool
  | .mount .. | .pivotRoot _ _ => true
  | _ => false

theorem ChildView.next_mounts {v : ChildView} {op : Op} {r : op.Ret} (h : op.remounts = false) :
    (v.next P op r).mounts = v.mounts := by
  cases op with
  | mount | pivotRoot => contradiction
  | chdir path => cases r <;> rfl
  | umount2 path =>
    cases r with
    | error e => rfl
    | ok _ =>
      show (if _ then _ else v).mounts = v.mounts
      split <;> rfl
  | _ => rfl

theorem ChildView.after_mounts {v : ChildView} (h : ∀ ev ∈ tr, ev.1.remounts = false) :
    (v.after P tr).mounts = v.mounts := by
  induction tr generalizing v with
  | nil => rfl
  | cons ev tr ih =>
    rw [after_cons, ih fun ev hmem => h ev (List.mem_cons_of_mem _ hmem),
      next_mounts (h ev List.mem_cons_self)]

/-! ### The mounts of a configuration -/

def Mount.isTmpfs (m : Mount) : Bool := m.mountType = some "tmpfs"

/-- `mount.options` joined with commas. -/
def Mount.joined (m : Mount) : Option String := m.options.map (String.intercalate ",")

/-- The entries that are to be mounted. -/
def requested (mounts : List Mount) : List Mount := mounts.filter fun m => m.isBind || m.isTmpfs

/-- What an entry asks for. -/
def wanted (P : Lookup) (m : Mount) : Mounted String MountArgs :=
  ⟨P.inside [] m.destination, ⟨m.source, m.mountType, if m.isBind then [.msBind] else [], m.joined⟩⟩

/-- A mount of the configuration, and not of the setup itself. -/
def userMade (m : Mounted String MountArgs) : Bool :=
  m.content.mountType = some "tmpfs" || (m.content.flags.contains .msBind && m.content.data.isSome)

/-- Each entry is mounted once, where it asks to be, and nothing that the setup mounts later hides
it. -/
def InEffect (P : Lookup) (mounts : List Mount) (table : MountTable) : Prop :=
  (table.filter userMade).Perm ((requested mounts).map (wanted P)) ∧
    ∀ t₁ m t₂, table = t₁ ++ m :: t₂ → userMade m = true →
      ∀ d ∈ t₂, userMade d = false → ¬d.point <+: m.point

/-- At most one bind entry, which is no tmpfs and whose destination, behind the root path, leads on
the host to the same place below that path as it does below the root; and no entry at or below a
place where the setup mounts. -/
structure Mountable (P : Lookup) (cwd : List String) (root : String) (mounts : List Mount) : Prop where
  one : (mounts.filter Mount.isBind).length ≤ 1
  plain : ∀ m ∈ mounts, m.isBind = true → m.isTmpfs = false
  inside : ∀ m ∈ mounts, m.isBind = true →
    P.host cwd (root ++ m.destination) = P.host cwd root ++ P.inside [] m.destination
  visible : ∀ m ∈ requested mounts, ∀ d ∈ ["/proc", "/sys", "/dev"],
    ¬P.inside [] d <+: P.inside [] m.destination

/-! ### The table of the command -/

/-- The first mount of the child. -/
def selfBind (P : Lookup) (cwd : List String) (root : String) : Mounted String MountArgs :=
  ⟨P.host cwd root, ⟨some root, none, [.msBind], none⟩⟩

/-- The second one, of a bind entry. -/
def bound (P : Lookup) (cwd : List String) (root : String) (m : Mount) : Mounted String MountArgs :=
  ⟨P.host cwd (root ++ m.destination), ⟨m.source, m.mountType, [.msBind], m.joined⟩⟩

def overlaid (P : Lookup) (cwd : List String) (id root : String) : Mounted String MountArgs :=
  ⟨P.host cwd (Path.inBundle id .merged).str,
    ⟨some "overlay", some "overlay", [], some (overlayData id root)⟩⟩

/-- What is mounted at the root and below it when it becomes the root. -/
def rootTable (P : Lookup) (cwd : List String) (id root : String) (mounts : List Mount)
    (base : MountTable) : MountTable :=
  match mounts.find? Mount.isBind with
  | some m => pivot (P.host cwd root) (base ++ [selfBind P cwd root, bound P cwd root m])
  | none => pivot (P.host cwd (Path.inBundle id .merged).str)
      (base ++ [selfBind P cwd root, overlaid P cwd id root])

def tmpfsTable (P : Lookup) (mounts : List Mount) : MountTable :=
  (mounts.filter Mount.isTmpfs).map fun m =>
    ⟨P.inside [] m.destination, ⟨m.source, m.mountType, [], m.joined⟩⟩

def defaultTable (P : Lookup) : MountTable :=
  [⟨P.inside [] "/proc", ⟨some "proc", some "proc", [], none⟩⟩,
    ⟨P.inside [] "/sys", ⟨some "sysfs", some "sysfs", [], none⟩⟩,
    ⟨P.inside [] "/dev", ⟨some "devtmpfs", some "devtmpfs", [], none⟩⟩]

/-! ### The run of the child -/

variable {P : Lookup} {root newRoot : String} {cwd : List String} {base : MountTable} {v : ChildView}

theorem prePivotMount_ret (h : Reaches (prePivotMount id root mounts) tr (.ret newRoot))
    (hcwd : v.cwd = cwd) (hout : v.pivoted = false) :
    ((v.after P tr).cwd = cwd ∧ (v.after P tr).pivoted = false) ∧
      match mounts.find? Mount.isBind with
      | some m => newRoot = root ∧ (v.after P tr).mounts = v.mounts ++ [selfBind P cwd root, bound P cwd root m]
      | none => newRoot = (Path.inBundle id .merged).str ∧
        (v.after P tr).mounts = v.mounts ++ [selfBind P cwd root, overlaid P cwd id root] := by
  subst hcwd
  obtain ⟨_, tr₁, _, rfl, hself, hrest⟩ := h.of_bind_ret
  cases mountChild_ret hself
  cases hfind : mounts.find? Mount.isBind with
  | some m =>
    simp only [hfind] at hrest
    obtain ⟨_, _, _, rfl, hbind, hpure⟩ := hrest.of_bind_ret
    cases mountChild_ret hbind
    obtain ⟨rfl, he⟩ := hpure.of_ret
    cases he
    simp [ChildView.next, ChildView.lookup, hout, selfBind, bound, Mount.joined]
  | none =>
    simp only [hfind] at hrest
    obtain ⟨_, _, _, rfl, hupper, h⟩ := hrest.of_bind_ret
    obtain ⟨_, _, _, rfl, hwork, h⟩ := h.of_bind_ret
    obtain ⟨_, _, _, rfl, hmerged, h⟩ := h.of_bind_ret
    obtain ⟨_, _, _, rfl, hoverlay, hpure⟩ := h.of_bind_ret
    cases reaches_sys (childTry_ret hupper)
    cases reaches_sys (childTry_ret hwork)
    cases reaches_sys (childTry_ret hmerged)
    cases mountChild_ret hoverlay
    obtain ⟨rfl, he⟩ := hpure.of_ret
    cases he
    simp [ChildView.next, ChildView.lookup, hout, selfBind, overlaid, overlayData]

theorem doPivotRoot_ret {u : Unit} (h : Reaches (doPivotRoot newRoot) tr (.ret u)) (hcwd : v.cwd = cwd)
    (hout : v.pivoted = false) :
    ((v.after P tr).cwd = [] ∧ (v.after P tr).pivoted = true) ∧
      (v.after P tr).mounts = pivot (P.host cwd newRoot) v.mounts := by
  obtain ⟨_, _, _, rfl, hdir, h⟩ := h.of_bind_ret
  obtain ⟨_, _, _, rfl, hpivot, h⟩ := h.of_bind_ret
  obtain ⟨_, _, _, rfl, hchdir, h⟩ := h.of_bind_ret
  obtain ⟨_, _, _, rfl, humount, hremove⟩ := h.of_bind_ret
  cases reaches_sys (childTry_ret hdir)
  cases reaches_sys (childTry_ret hpivot)
  cases reaches_sys (childTry_ret hchdir)
  cases reaches_sys (childTry_ret humount)
  cases reaches_sys (childTry_ret hremove)
  simp only [List.cons_append, List.nil_append, ChildView.after_cons, ChildView.after_nil, ChildView.next,
    ChildView.lookup_host hout, ChildView.lookup_inside, P.inside_root, hcwd]
  split <;> exact ⟨⟨rfl, rfl⟩, rfl⟩

theorem postPivotMount_ret {u : Unit} (h : Reaches (postPivotMount mounts) tr (.ret u)) (hcwd : v.cwd = [])
    (hin : v.pivoted = true) :
    ((v.after P tr).cwd = [] ∧ (v.after P tr).pivoted = true) ∧
      (v.after P tr).mounts = v.mounts ++ tmpfsTable P mounts := by
  induction mounts generalizing tr v with
  | nil =>
    rw [h.of_ret.1]
    exact ⟨⟨hcwd, hin⟩, (List.append_nil _).symm⟩
  | cons m mounts ih =>
    rw [postPivotMount] at h
    by_cases htmpfs : m.mountType = some "tmpfs"
    · rw [if_pos htmpfs] at h
      obtain ⟨tr₁, tr₂, _, rfl, hmount, hrest⟩ := h.of_bind_ret
      obtain rfl := mountChild_ret hmount
      have hstay : (v.after P [⟨.mount m.source m.destination m.mountType [] m.joined, .ok ()⟩]).cwd = [] := by
        simp [ChildView.next, hcwd]
      have hstay' : (v.after P [⟨.mount m.source m.destination m.mountType [] m.joined, .ok ()⟩]).pivoted =
          true := by
        simp [ChildView.next, hin]
      obtain ⟨hin', hmounts⟩ := ih hrest hstay hstay'
      rw [ChildView.after_append]
      refine ⟨hin', hmounts.trans ?_⟩
      simp [ChildView.next, ChildView.lookup_inside hin, tmpfsTable, Mount.isTmpfs, Mount.joined, htmpfs, hcwd]
    · rw [if_neg htmpfs] at h
      obtain ⟨hin', hmounts⟩ := ih h hcwd hin
      refine ⟨hin', hmounts.trans ?_⟩
      simp [tmpfsTable, Mount.isTmpfs, htmpfs]

theorem doDefaultMounts_ret {u : Unit} (h : Reaches doDefaultMounts tr (.ret u)) (hcwd : v.cwd = [])
    (hin : v.pivoted = true) : (v.after P tr).mounts = v.mounts ++ defaultTable P := by
  obtain ⟨_, _, _, rfl, hmount, h⟩ := h.of_bind_ret
  obtain ⟨_, _, _, rfl, hmount', hmount''⟩ := h.of_bind_ret
  cases mountChild_ret hmount
  cases mountChild_ret hmount'
  cases mountChild_ret hmount''
  simp [ChildView.next, ChildView.lookup, hcwd, hin, defaultTable]

/-- The table that the child has made when its setup is complete. -/
def commandTable (P : Lookup) (cwd : List String) (id : String) (config : Config)
    (base : MountTable) : MountTable :=
  rootTable P cwd id config.getRootPath (config.getMounts.getD []) base ++
    (tmpfsTable P (config.getMounts.getD []) ++ defaultTable P)

theorem childSetup_ret {u : Unit} (h : Reaches (childSetup id config) tr (.ret u)) :
    (ChildView.after P ⟨cwd, base, none, false⟩ tr).mounts = commandTable P cwd id config base := by
  obtain ⟨tr₁, _, _, rfl, hshare, h⟩ := h.of_bind_ret
  obtain ⟨tr₂, _, _, rfl, hhost, h⟩ := h.of_bind_ret
  obtain ⟨tr₃, _, newRoot, rfl, hpre, h⟩ := h.of_bind_ret
  obtain ⟨tr₄, _, _, rfl, hpivot, h⟩ := h.of_bind_ret
  obtain ⟨tr₅, tr₆, _, rfl, hpost, hdefault⟩ := h.of_bind_ret
  have hstart : ChildView.after P ⟨cwd, base, none, false⟩ (tr₁ ++ tr₂) = ⟨cwd, base, none, false⟩ := by
    rw [reaches_sys (childTry_ret hshare), reaches_sys (childTry_ret hhost)]
    rfl
  rw [← List.append_assoc, ChildView.after_append, hstart, ChildView.after_append, ChildView.after_append,
    ChildView.after_append]
  obtain ⟨⟨hcwd, hout⟩, hmounts⟩ := prePivotMount_ret (P := P) (v := ⟨cwd, base, none, false⟩) hpre rfl rfl
  obtain ⟨⟨hcwd₁, hin₁⟩, hmounts₁⟩ := doPivotRoot_ret hpivot hcwd hout
  obtain ⟨⟨hcwd₂, hin₂⟩, hmounts₂⟩ := postPivotMount_ret hpost hcwd₁ hin₁
  rw [doDefaultMounts_ret hdefault hcwd₂ hin₂, hmounts₂, hmounts₁, commandTable, List.append_assoc]
  congr 1
  rw [rootTable]
  split at hmounts
  · obtain ⟨rfl, hmounts⟩ := hmounts
    rw [hmounts]
  · obtain ⟨rfl, hmounts⟩ := hmounts
    rw [hmounts]

/-- What is mounted when the command is started. -/
theorem command_table {rt : Runtime} {q : Core Unit} (h : Reaches (createChild id config rt) tr q)
    (hcommand : ∃ ev ∈ tr, ev.1.commands = true) :
    (ChildView.after P ⟨cwd, base, none, false⟩ tr).mounts = commandTable P cwd id config base := by
  obtain ⟨ev, hev, hcom⟩ := hcommand
  rw [createChild_eq] at h
  obtain ⟨tr₁, tr₂, _, rfl, hsetup, hrest, -⟩ := h.past (childSetup_plain config) hev (not_plain hcom)
  have hcalls : Calls (S := Sys) (fun op => op.remounts = false) (rt.freezeChild.bind fun _ =>
      (containerExec config.getProcessArgs config.getProcessEnv (some config.getProcessCwd) id : Core Unit)) := by
    refine Calls.bind ?_ fun _ => ?_
    · unfold Runtime.freezeChild
      cases rt.childEnd with
      | none => trivial
      | some pipe => exact Clonebox.Calls.mapErr ⟨rfl, fun _ => trivial⟩
    · refine containerExec_all ?_ ?_ ?_ ?_ ?_ _ _ _ <;> intros <;> rfl
  rw [ChildView.after_append, ChildView.after_mounts (hrest.calls hcalls).1, childSetup_ret hsetup]

/-! ### Which mounts are in effect -/

/-- The setup's mounts, the entries', and the setup's again. -/
theorem inEffect_iff {s u d : MountTable} (hs : ∀ m ∈ s, userMade m = false)
    (hu : ∀ m ∈ u, userMade m = true) (hd : ∀ m ∈ d, userMade m = false) :
    InEffect P mounts (s ++ (u ++ d)) ↔ u.Perm ((requested mounts).map (wanted P)) ∧
      ∀ w ∈ (requested mounts).map (wanted P), ∀ m ∈ d, ¬m.point <+: w.point := by
  have hfilter : (s ++ (u ++ d)).filter userMade = u := by
    rw [List.filter_append, List.filter_append, List.filter_eq_self.mpr hu,
      List.filter_eq_nil_iff.mpr fun m hm => by simp [hs m hm],
      List.filter_eq_nil_iff.mpr fun m hm => by simp [hd m hm], List.nil_append, List.append_nil]
  rw [InEffect, hfilter]
  refine and_congr_right fun hperm => ⟨fun h w hw m hm => ?_, fun h t₁ m t₂ he hm e heb hne => ?_⟩
  · obtain ⟨u₁, u₂, hsplit⟩ := List.append_of_mem (hperm.mem_iff.mpr hw)
    refine h (s ++ u₁) w (u₂ ++ d) ?_ (hu w (hperm.mem_iff.mpr hw)) m (List.mem_append_right _ hm) (hd m hm)
    rw [hsplit]
    simp
  · -- what comes after a mount of an entry is not among the setup's first mounts
    obtain ⟨t', hx, hlater⟩ : ∃ t', m ∈ u ++ d ∧ u ++ d = t' ++ m :: t₂ := by
      rcases List.append_eq_append_iff.mp he with ⟨t', -, hud⟩ | ⟨c, hsplit, hm'⟩
      · exact ⟨t', by simp [hud], hud⟩
      · cases c with
        | nil =>
          rw [List.nil_append] at hm'
          exact ⟨[], hm' ▸ List.mem_cons_self, hm'.symm⟩
        | cons m' c =>
          obtain ⟨rfl, -⟩ := List.cons.inj hm'
          exact Bool.noConfusion ((hs m (by simp [hsplit])).symm.trans hm)
    have hmem : m ∈ u := by
      rcases List.mem_append.mp hx with hmu | hmd
      · exact hmu
      · exact Bool.noConfusion ((hd m hmd).symm.trans hm)
    refine h m (hperm.mem_iff.mp hmem) e ?_
    have heud : e ∈ u ++ d := by
      rw [hlater]
      exact List.mem_append_right _ (List.mem_cons_of_mem _ heb)
    rcases List.mem_append.mp heud with heu | hed
    · exact Bool.noConfusion ((hu e heu).symm.trans hne)
    · exact hed

/-- What is mounted for the first bind entry, where it comes to lie below the root. -/
def boundTable (P : Lookup) (cwd : List String) (root : String) (mounts : List Mount) : MountTable :=
  match mounts.find? Mount.isBind with
  | some m => ((below (P.host cwd root) (P.host cwd (root ++ m.destination))).map fun point =>
      ⟨point, ⟨m.source, m.mountType, [.msBind], m.joined⟩⟩).toList
  | none => []

/-- The root of the container is a mount of the setup, or the first bind entry itself. -/
theorem rootTable_eq (P : Lookup) (cwd : List String) (id root : String) (mounts : List Mount)
    (base : MountTable) :
    ∃ s : MountTable, (∀ m ∈ s, userMade m = false) ∧
      rootTable P cwd id root mounts base = s ++ boundTable P cwd root mounts := by
  rw [rootTable, boundTable]
  split
  · rename_i m hfind
    by_cases hroot : P.host cwd (root ++ m.destination) = P.host cwd root
    · refine ⟨[], fun m hm => absurd hm List.not_mem_nil, ?_⟩
      have hsplit : base ++ [selfBind P cwd root, bound P cwd root m] =
          (base ++ [selfBind P cwd root]) ++ [bound P cwd root m] := by simp
      rw [hsplit, pivot_last hroot, hroot, below_self]
      rfl
    · refine ⟨[⟨[], ⟨some root, none, [.msBind], none⟩⟩], by simp [userMade], ?_⟩
      exact pivot_below rfl hroot
  · refine ⟨[⟨[], ⟨some "overlay", some "overlay", [], some (overlayData id root)⟩⟩], by simp [userMade], ?_⟩
    have hsplit : base ++ [selfBind P cwd root, overlaid P cwd id root] =
        (base ++ [selfBind P cwd root]) ++ [overlaid P cwd id root] := by simp
    have hpoint : (overlaid P cwd id root).point = P.host cwd (Path.inBundle id .merged).str := rfl
    rw [hsplit, pivot_last hpoint]
    rfl

theorem userMade_boundTable : ∀ m ∈ boundTable P cwd root mounts, userMade m = true := by
  intro m hm
  rw [boundTable] at hm
  split at hm
  · rename_i b hfind
    have hbind : b.isBind = true := List.find?_some hfind
    obtain ⟨point, -, rfl⟩ := Option.map_eq_some_iff.mp (Option.mem_toList.mp hm)
    cases hoptions : b.options with
    | none => simp [Mount.isBind, hoptions] at hbind
    | some options => simp [userMade, Mount.joined, hoptions]
  · cases hm

theorem userMade_tmpfsTable : ∀ m ∈ tmpfsTable P mounts, userMade m = true := by
  intro m hm
  obtain ⟨e, he, rfl⟩ := List.mem_map.mp hm
  have htmpfs : e.mountType = some "tmpfs" := of_decide_eq_true (List.mem_filter.mp he).2
  simp [userMade, htmpfs]

/-- The requested entries are the bind entries and the tmpfs entries without `bind`. -/
theorem requested_perm (mounts : List Mount) : (mounts.filter Mount.isBind ++
    (mounts.filter Mount.isTmpfs).filter fun m => !m.isBind).Perm (requested mounts) := by
  have hbind : (requested mounts).filter Mount.isBind = mounts.filter Mount.isBind := by
    rw [requested, List.filter_filter]
    refine List.filter_congr fun m _ => ?_
    cases m.isBind <;> simp
  have hrest : ((requested mounts).filter fun m => !m.isBind) =
      (mounts.filter Mount.isTmpfs).filter fun m => !m.isBind := by
    rw [requested, List.filter_filter, List.filter_filter]
    refine List.filter_congr fun m _ => ?_
    cases m.isBind <;> simp
  rw [← hbind, ← hrest]
  exact List.filter_append_perm Mount.isBind (requested mounts)

/-- The mounts of bind entries have a flag that those of tmpfs entries have not. -/
def bindMade (m : Mounted String MountArgs) : Bool := m.content.flags.contains .msBind

theorem bindMade_wanted (m : Mount) : bindMade (wanted P m) = m.isBind := by
  cases h : m.isBind <;> simp [bindMade, wanted, h]

theorem bindMade_boundTable : ∀ m ∈ boundTable P cwd root mounts, bindMade m = true := by
  intro m hm
  rw [boundTable] at hm
  split at hm
  · obtain ⟨point, -, rfl⟩ := Option.map_eq_some_iff.mp (Option.mem_toList.mp hm)
    simp [bindMade]
  · cases hm

theorem bindMade_tmpfsTable : ∀ m ∈ tmpfsTable P mounts, bindMade m = false := by
  intro m hm
  obtain ⟨e, -, rfl⟩ := List.mem_map.mp hm
  rfl

/-- The only bind entry is mounted as it asks if its destination leads to the same place. -/
theorem boundTable_single {m : Mount} (h : mounts.filter Mount.isBind = [m]) :
    boundTable P cwd root mounts = [wanted P m] ↔
      P.host cwd (root ++ m.destination) = P.host cwd root ++ P.inside [] m.destination := by
  have hfind : mounts.find? Mount.isBind = some m := by
    rw [← List.head?_filter, h]
    rfl
  have hbind : m.isBind = true := List.find?_some hfind
  have hbound : boundTable P cwd root mounts =
      ((below (P.host cwd root) (P.host cwd (root ++ m.destination))).map fun point =>
        (⟨point, ⟨m.source, m.mountType, [.msBind], m.joined⟩⟩ : Mounted String MountArgs)).toList := by
    rw [boundTable, hfind]
  have hwanted : wanted P m = ⟨P.inside [] m.destination, ⟨m.source, m.mountType, [.msBind], m.joined⟩⟩ := by
    rw [wanted, if_pos hbind]
  rw [hbound, hwanted, ← below_eq_some_iff]
  cases below (P.host cwd root) (P.host cwd (root ++ m.destination)) <;> simp

/-- Two lists whose parts are told apart by a test are permutations of each other part by part. -/
theorem perm_parts {α : Type} {f : α → Bool} {a b c d : List α} (h : (a ++ b).Perm (c ++ d))
    (ha : ∀ x ∈ a, f x = true) (hb : ∀ x ∈ b, f x = false) (hc : ∀ x ∈ c, f x = true)
    (hd : ∀ x ∈ d, f x = false) : a.Perm c ∧ b.Perm d := by
  have hfirst {l l' : List α} (h : ∀ x ∈ l, f x = true) (h' : ∀ x ∈ l', f x = false) :
      (l ++ l').filter f = l := by
    rw [List.filter_append, List.filter_eq_self.mpr h,
      List.filter_eq_nil_iff.mpr fun x hx => by simp [h' x hx], List.append_nil]
  have hsecond {l l' : List α} (h : ∀ x ∈ l, f x = true) (h' : ∀ x ∈ l', f x = false) :
      ((l ++ l').filter fun x => !f x) = l' := by
    rw [List.filter_append, List.filter_eq_nil_iff.mpr fun x hx => by simp [h x hx],
      List.filter_eq_self.mpr fun x hx => by simp [h' x hx], List.nil_append]
  constructor
  · have hperm := h.filter f
    rwa [hfirst ha hb, hfirst hc hd] at hperm
  · have hperm := h.filter fun x => !f x
    rwa [hsecond ha hb, hsecond hc hd] at hperm

theorem filter_single {p : Mount → Bool} {m : Mount} (hone : (mounts.filter p).length ≤ 1)
    (hm : m ∈ mounts.filter p) : mounts.filter p = [m] := by
  cases h : mounts.filter p with
  | nil => simp [h] at hm
  | cons m' ms =>
    rw [h] at hone hm
    obtain rfl : ms = [] := List.length_eq_zero_iff.mp (by simpa using hone)
    rw [List.mem_singleton.mp hm]

/-- Where the only bind entry leads to its place, it is mounted as it was asked for. -/
theorem boundTable_wanted (hone : (mounts.filter Mount.isBind).length ≤ 1)
    (hinside : ∀ m ∈ mounts, m.isBind = true →
      P.host cwd (root ++ m.destination) = P.host cwd root ++ P.inside [] m.destination) :
    boundTable P cwd root mounts = (mounts.filter Mount.isBind).map (wanted P) := by
  cases hfilter : mounts.filter Mount.isBind with
  | nil =>
    have hfind : mounts.find? Mount.isBind = none := by
      rw [← List.head?_filter, hfilter]
      rfl
    rw [boundTable, hfind]
    rfl
  | cons m ms =>
    have hm : m ∈ mounts.filter Mount.isBind := hfilter ▸ List.mem_cons_self
    obtain ⟨hmem, hbind⟩ := List.mem_filter.mp hm
    have hsingle := filter_single hone hm
    rw [← hfilter, hsingle]
    exact (boundTable_single hsingle).mpr (hinside m hmem hbind)

/-- Where no bind entry is a tmpfs, the others are mounted as they were asked for. -/
theorem tmpfsTable_wanted (hplain : ∀ m ∈ mounts, m.isBind = true → m.isTmpfs = false) :
    tmpfsTable P mounts =
      ((mounts.filter Mount.isTmpfs).filter fun m => !m.isBind).map (wanted P) := by
  have hself : (mounts.filter Mount.isTmpfs).filter (fun m => !m.isBind) =
      mounts.filter Mount.isTmpfs := by
    refine List.filter_eq_self.mpr fun m hm => ?_
    obtain ⟨hmem, ht⟩ := List.mem_filter.mp hm
    cases hb : m.isBind with
    | false => rfl
    | true => exact absurd ht (by rw [hplain m hmem hb]; exact Bool.false_ne_true)
  rw [hself]
  refine List.map_congr_left fun m hm => ?_
  rw [← hself] at hm
  have hbind : m.isBind = false := by simpa using (List.mem_filter.mp hm).2
  rw [wanted, if_neg (by simp [hbind])]

/-- The entries' mounts are what was asked for. -/
theorem mounted_iff :
    (boundTable P cwd root mounts ++ tmpfsTable P mounts).Perm ((requested mounts).map (wanted P)) ↔
    (mounts.filter Mount.isBind).length ≤ 1 ∧ (∀ m ∈ mounts, m.isBind = true → m.isTmpfs = false) ∧
      ∀ m ∈ mounts, m.isBind = true →
        P.host cwd (root ++ m.destination) = P.host cwd root ++ P.inside [] m.destination := by
  have hrequested := (requested_perm mounts).map (wanted P)
  rw [List.map_append] at hrequested
  constructor
  · intro hperm
    have hboth := hperm.trans hrequested.symm
    have hbind : ∀ w ∈ (mounts.filter Mount.isBind).map (wanted P), bindMade w = true := by
      intro w hw
      obtain ⟨m, hm, rfl⟩ := List.mem_map.mp hw
      rw [bindMade_wanted]
      exact (List.mem_filter.mp hm).2
    have hother : ∀ w ∈ ((mounts.filter Mount.isTmpfs).filter fun m => !m.isBind).map (wanted P),
        bindMade w = false := by
      intro w hw
      obtain ⟨m, hm, rfl⟩ := List.mem_map.mp hw
      rw [bindMade_wanted]
      simpa using (List.mem_filter.mp hm).2
    obtain ⟨hbinds, hothers⟩ := perm_parts (f := bindMade) hboth bindMade_boundTable
      bindMade_tmpfsTable hbind hother
    have hone : (mounts.filter Mount.isBind).length ≤ 1 := by
      have hlength := hbinds.length_eq
      rw [List.length_map] at hlength
      rw [← hlength, boundTable]
      split
      · exact Option.length_toList_le
      · exact Nat.zero_le 1
    refine ⟨hone, fun m hm hb => ?_, fun m hm hb => ?_⟩
    · -- no tmpfs entry is left out of those without `bind`
      have hlength := hothers.length_eq
      rw [tmpfsTable, List.length_map, List.length_map, eq_comm,
        List.length_filter_eq_length_iff] at hlength
      cases ht : m.isTmpfs with
      | false => rfl
      | true =>
        have hnot := hlength m (List.mem_filter.mpr ⟨hm, ht⟩)
        simp [hb] at hnot
    · have hsingle := filter_single hone (List.mem_filter.mpr ⟨hm, hb⟩)
      rw [hsingle] at hbinds
      exact (boundTable_single hsingle).mp (List.perm_singleton.mp hbinds)
  · rintro ⟨hone, hplain, hinside⟩
    rw [boundTable_wanted hone hinside, tmpfsTable_wanted hplain]
    exact hrequested

theorem visible_iff : (∀ w ∈ (requested mounts).map (wanted P), ∀ m ∈ defaultTable P, ¬m.point <+: w.point) ↔
    ∀ m ∈ requested mounts, ∀ d ∈ ["/proc", "/sys", "/dev"], ¬P.inside [] d <+: P.inside [] m.destination := by
  simp [defaultTable, wanted]

theorem userMade_defaultTable : ∀ m ∈ defaultTable P, userMade m = false := by
  intro m hm
  simp only [defaultTable, List.mem_cons, List.not_mem_nil, or_false] at hm
  rcases hm with rfl | rfl | rfl <;> rfl

/-- When the command is started, the mounts of the configuration are in effect if and only if they
are as `Mountable` says. -/
theorem mounts_in_effect {rt : Runtime} {q : Core Unit} (h : Reaches (createChild id config rt) tr q)
    (hcommand : ∃ ev ∈ tr, ev.1.commands = true) :
    InEffect P (config.getMounts.getD []) (ChildView.after P ⟨cwd, base, none, false⟩ tr).mounts ↔
      Mountable P cwd config.getRootPath (config.getMounts.getD []) := by
  obtain ⟨s, hs, hroot⟩ := rootTable_eq P cwd id config.getRootPath (config.getMounts.getD []) base
  have hu : ∀ m ∈ boundTable P cwd config.getRootPath (config.getMounts.getD []) ++
      tmpfsTable P (config.getMounts.getD []), userMade m = true :=
    List.forall_mem_append.mpr ⟨userMade_boundTable, userMade_tmpfsTable⟩
  rw [command_table h hcommand, commandTable, hroot, List.append_assoc,
    ← List.append_assoc (boundTable _ _ _ _), inEffect_iff hs hu userMade_defaultTable, mounted_iff, visible_iff]
  constructor
  · rintro ⟨⟨hone, hplain, hinside⟩, hvisible⟩
    exact ⟨hone, hplain, hinside, hvisible⟩
  · rintro ⟨hone, hplain, hinside, hvisible⟩
    exact ⟨⟨hone, hplain, hinside⟩, hvisible⟩

/-! ### Two configurations -/

/-- The sample configuration with these mounts. -/
def mountConfig (mounts : List Mount) : Config := { sampleConfig with mounts := some mounts }

def bindMount (source destination : String) : Mount := ⟨destination, none, some source, some ["bind"]⟩

/-- The child of this configuration, where every call takes effect. -/
def mountRun (mounts : List Mount) : List Sys.Ev × Core Unit :=
  follow (answers "/none") 40 (createChild "c" (mountConfig mounts) ⟨some 0, some 0, none⟩)

def dataAndTmp : List Mount := [bindMount "/srv/data" "/data", ⟨"/tmp", some "tmpfs", some "tmpfs", none⟩]

theorem mounts_in_effect_sample : ∃ (tr : List Sys.Ev) (q : Core Unit),
    Reaches (createChild "c" (mountConfig dataAndTmp) ⟨some 0, some 0, none⟩) tr q ∧
    InEffect .unlinked dataAndTmp (ChildView.after .unlinked ⟨[], [], none, false⟩ tr).mounts := by
  have hcommand : ∃ ev ∈ (mountRun dataAndTmp).1, ev.1.commands = true := by decide +kernel
  exact ⟨_, _, reaches_follow, (mounts_in_effect reaches_follow hcommand).mpr
    ⟨by decide +kernel, by decide +kernel, by decide +kernel, by decide +kernel⟩⟩

/-- In the image `/var/run` is a link to `/run`. -/
def runLinked : Lookup where
  host cwd path := if path = "./rootfs/var/run" then ["run"] else resolve cwd path
  inside cwd path := if path = "/var/run" then ["run"] else resolve cwd path
  inside_root := Lookup.unlinked.inside_root

/-- What is to be mounted there lands in `/run` of the host. -/
example : ¬Mountable runLinked [] "./rootfs" [bindMount "/srv/run" "/var/run"] := fun h =>
  absurd (h.inside _ List.mem_cons_self (by decide)) (by decide)

def dataAndLogs : List Mount := [bindMount "/srv/data" "/data", bindMount "/srv/logs" "/logs"]

/-- The second bind entry is not mounted. -/
theorem second_bind_missing : ∃ (tr : List Sys.Ev) (q : Core Unit),
    Reaches (createChild "c" (mountConfig dataAndLogs) ⟨some 0, some 0, none⟩) tr q ∧
    (∃ ev ∈ tr, ev.1.commands = true) ∧
    ¬InEffect .unlinked dataAndLogs (ChildView.after .unlinked ⟨[], [], none, false⟩ tr).mounts := by
  have hcommand : ∃ ev ∈ (mountRun dataAndLogs).1, ev.1.commands = true := by decide +kernel
  refine ⟨_, _, reaches_follow, hcommand, fun heffect => ?_⟩
  have hcount : ((ChildView.after .unlinked ⟨[], [], none, false⟩ (mountRun dataAndLogs).1).mounts.filter
      userMade).length ≠ ((requested dataAndLogs).map (wanted .unlinked)).length := by decide +kernel
  exact hcount heffect.1.length_eq

end Clonebox
