import Clonebox.Setup.Mounts

/-! # The root that the container writes to

Without a bind entry the root is an overlay, and what is written outside the mounts of the
configuration and the default mounts goes to its upper layer. -/

namespace Clonebox
open Conc Prog

variable {P : Lookup} {id root newRoot : String} {config : Config} {mounts : List Mount} {tr : List Sys.Ev}
variable {cwd : List String} {base : MountTable} {m : Mounted String MountArgs}

/-- An overlay with the base as its only lower layer and the bundle's directories above it. -/
def IsOverlay (id root : String) (m : Mounted String MountArgs) : Prop :=
  m.content.mountType = some "overlay" ∧ m.content.flags = [] ∧
    ∃ data, m.content.data = some data ∧ mountOptions data = overlayIntent id root

/-- The root that is returned is the overlay at `merged`, and it has been mounted last. -/
def ReturnsOverlay (P : Lookup) (cwd : List String) (id root newRoot : String) (table : MountTable) : Prop :=
  newRoot = (Path.inBundle id .merged).str ∧
    ∃ m, table.getLast? = some m ∧ m.point = P.host cwd newRoot ∧ IsOverlay id root m

/-- The root is the overlay, and every path is in it, in a mount of the configuration or in a
default mount. -/
def WritesAbove (P : Lookup) (id root : String) (table : MountTable) : Prop :=
  ∃ o ∈ table, o.point = [] ∧ IsOverlay id root o ∧
    ∀ path, ∃ m, owner table path = some m ∧ (m = o ∨ userMade m = true ∨ m ∈ defaultTable P)

/-- No entry is a bind mount, and the options of the overlay say what was meant. -/
def Overlays (id root : String) (mounts : List Mount) : Prop :=
  (∀ m ∈ mounts, m.isBind = false) ∧ (',' ∉ root.toList ∧ ':' ∉ root.toList) ∧ ',' ∉ id.toList

theorem not_overlay_of_bind (h : bindMade m = true) : ¬IsOverlay id root m := by
  rintro ⟨-, hflags, -⟩
  rw [bindMade, hflags] at h
  contradiction

theorem isOverlay_iff (point : List String) :
    IsOverlay id root ⟨point, ⟨some "overlay", some "overlay", [], some (overlayData id root)⟩⟩ ↔
      (',' ∉ root.toList ∧ ':' ∉ root.toList) ∧ ',' ∉ id.toList := by
  rw [← mountOptions_overlay]
  constructor
  · rintro ⟨-, -, data, hdata, hoptions⟩
    rwa [← Option.some.inj hdata] at hoptions
  · exact fun hoptions => ⟨rfl, rfl, _, rfl, hoptions⟩

theorem noBind_iff : mounts.find? Mount.isBind = none ↔ ∀ m ∈ mounts, m.isBind = false := by
  simp [List.find?_eq_none]

/-- What `pre_pivot_mount` returns. -/
theorem returnsOverlay_iff (h : Reaches (prePivotMount id root mounts) tr (.ret newRoot)) :
    ReturnsOverlay P cwd id root newRoot (ChildView.after P ⟨cwd, base, none, false⟩ tr).mounts ↔
      Overlays id root mounts := by
  obtain ⟨-, hmounts⟩ := prePivotMount_ret (P := P) (v := ⟨cwd, base, none, false⟩) h rfl rfl
  rw [Overlays, ← noBind_iff]
  split at hmounts
  · rename_i b hfind
    obtain ⟨-, htable⟩ := hmounts
    refine iff_of_false ?_ fun hover => by simp [hfind] at hover
    rintro ⟨-, m, hlast, -, hoverlay⟩
    have hb : bound P cwd root b = m := by simpa [htable] using hlast
    exact not_overlay_of_bind (by rw [← hb]; rfl) hoverlay
  · rename_i hfind
    obtain ⟨rfl, htable⟩ := hmounts
    rw [htable, ← isOverlay_iff (P.host cwd (Path.inBundle id .merged).str)]
    constructor
    · rintro ⟨-, m, hlast, -, hoverlay⟩
      obtain rfl : overlaid P cwd id root = m := by simpa using hlast
      exact ⟨hfind, hoverlay⟩
    · rintro ⟨-, hoverlay⟩
      exact ⟨rfl, overlaid P cwd id root, by simp, rfl, hoverlay⟩

/-! ### The table of the command -/

theorem not_overlay_defaultTable : ∀ m ∈ defaultTable P, ¬IsOverlay id root m := by
  intro m hm h
  simp only [defaultTable, List.mem_cons, List.not_mem_nil, or_false] at hm
  rcases hm with rfl | rfl | rfl <;> simp [IsOverlay] at h

theorem not_overlay_tmpfsTable : ∀ m ∈ tmpfsTable P mounts, ¬IsOverlay id root m := by
  intro m hm h
  obtain ⟨e, he, rfl⟩ := List.mem_map.mp hm
  have htmpfs : e.mountType = some "tmpfs" := of_decide_eq_true (List.mem_filter.mp he).2
  exact absurd (htmpfs.symm.trans h.1) (by decide)

/-- With a bind entry, only what is bound is mounted before the root is changed. -/
theorem not_overlay_rootTable {b : Mount} (h : mounts.find? Mount.isBind = some b) :
    ∀ m ∈ rootTable P cwd id root mounts base, ¬IsOverlay id root m := by
  intro m hm
  rw [rootTable, h] at hm
  have hself : (selfBind P cwd root).point = P.host cwd root := rfl
  obtain ⟨m', hmem, hcontent⟩ := mem_pivot_append hself hm
  have hbind : bindMade m' = true := by
    rcases List.mem_cons.mp hmem with rfl | hlast
    · rfl
    · rw [List.mem_singleton.mp hlast]
      rfl
  exact not_overlay_of_bind (by rwa [bindMade, ← hcontent])

/-- The overlay when it has become the root. -/
def overlayRoot (id root : String) : Mounted String MountArgs :=
  ⟨[], ⟨some "overlay", some "overlay", [], some (overlayData id root)⟩⟩

/-- Without one, the overlay is all that is. -/
theorem rootTable_overlay (h : mounts.find? Mount.isBind = none) :
    rootTable P cwd id root mounts base = [overlayRoot id root] := by
  have hsplit : base ++ [selfBind P cwd root, overlaid P cwd id root] =
      (base ++ [selfBind P cwd root]) ++ [overlaid P cwd id root] := by simp
  have hpoint : (overlaid P cwd id root).point = P.host cwd (Path.inBundle id .merged).str := rfl
  rw [rootTable, h]
  dsimp only
  rw [hsplit, pivot_last hpoint]
  rfl

/-- Where the writes of the command go. -/
theorem writesAbove_iff {rt : Runtime} {q : Core Unit} (h : Reaches (createChild id config rt) tr q)
    (hcommand : ∃ ev ∈ tr, ev.1.commands = true) :
    WritesAbove P id config.getRootPath (ChildView.after P ⟨cwd, base, none, false⟩ tr).mounts ↔
      Overlays id config.getRootPath (config.getMounts.getD []) := by
  rw [command_table h hcommand, commandTable, Overlays, ← noBind_iff]
  cases hfind : (config.getMounts.getD []).find? Mount.isBind with
  | some b =>
    refine iff_of_false ?_ fun hover => by simp at hover
    rintro ⟨o, hmem, -, hoverlay, -⟩
    rcases List.mem_append.mp hmem with hroot | hlater
    · exact not_overlay_rootTable hfind o hroot hoverlay
    · rcases List.mem_append.mp hlater with htmpfs | hdefault
      · exact not_overlay_tmpfsTable o htmpfs hoverlay
      · exact not_overlay_defaultTable o hdefault hoverlay
  | none =>
    rw [rootTable_overlay hfind, ← isOverlay_iff [], List.singleton_append, ← overlayRoot]
    constructor
    · rintro ⟨o, hmem, -, hoverlay, -⟩
      rcases List.mem_cons.mp hmem with rfl | hlater
      · exact ⟨rfl, hoverlay⟩
      · rcases List.mem_append.mp hlater with htmpfs | hdefault
        · exact absurd hoverlay (not_overlay_tmpfsTable o htmpfs)
        · exact absurd hoverlay (not_overlay_defaultTable o hdefault)
    · rintro ⟨-, hoverlay⟩
      refine ⟨_, List.mem_cons_self, rfl, hoverlay, fun path => ?_⟩
      have hroot : (overlayRoot id config.getRootPath).point = [] := rfl
      obtain ⟨m, hmem, howner⟩ : ∃ m ∈ overlayRoot id config.getRootPath ::
          (tmpfsTable P (config.getMounts.getD []) ++ defaultTable P), owner _ path = some m := owner_of_root hroot
      refine ⟨m, howner, ?_⟩
      rcases List.mem_cons.mp hmem with rfl | hlater
      · exact .inl rfl
      · rcases List.mem_append.mp hlater with htmpfs | hdefault
        · exact .inr (.inl (userMade_tmpfsTable m htmpfs))
        · exact .inr (.inr hdefault)

/-- `pre_pivot_mount` returns the overlay, and the command writes above the base, if and only if no
entry is a bind mount and the options of the overlay are read as they were meant, by the grammar of
`mountOptions`. -/
theorem base_untouched (P : Lookup) (id : String) (cwd : List String) (base : MountTable) :
    (∀ (root newRoot : String) (mounts : List Mount) (tr : List Sys.Ev),
      Reaches (prePivotMount id root mounts) tr (.ret newRoot) →
      (ReturnsOverlay P cwd id root newRoot (ChildView.after P ⟨cwd, base, none, false⟩ tr).mounts ↔
        Overlays id root mounts)) ∧
    ∀ (config : Config) (rt : Runtime) (tr : List Sys.Ev) (q : Core Unit),
      Reaches (createChild id config rt) tr q → (∃ ev ∈ tr, ev.1.commands = true) →
      (WritesAbove P id config.getRootPath (ChildView.after P ⟨cwd, base, none, false⟩ tr).mounts ↔
        Overlays id config.getRootPath (config.getMounts.getD [])) :=
  ⟨fun _ _ _ _ => returnsOverlay_iff, fun _ _ _ _ => writesAbove_iff⟩

/-! ### Two configurations -/

def onlyTmp : List Mount := [⟨"/tmp", some "tmpfs", some "tmpfs", none⟩]

theorem base_untouched_sample :
    ReturnsOverlay .unlinked [] "c" "/image" (Path.inBundle "c" .merged).str
      (ChildView.after .unlinked ⟨[], [], none, false⟩ (overlayCalls "c" "/image")).mounts ∧
    WritesAbove .unlinked "c" (mountConfig onlyTmp).getRootPath
      (ChildView.after .unlinked ⟨[], [], none, false⟩ (mountRun onlyTmp).1).mounts := by
  have hcommand : ∃ ev ∈ (mountRun onlyTmp).1, ev.1.commands = true := by decide +kernel
  exact ⟨((base_untouched .unlinked "c" [] []).1 "/image" _ [] _ reaches_overlayCalls).mpr
      ⟨by decide, by decide, by decide⟩,
    ((base_untouched .unlinked "c" [] []).2 (mountConfig onlyTmp) _ _ _ reaches_follow hcommand).mpr
      ⟨by decide +kernel, by decide +kernel, by decide +kernel⟩⟩

def onlyData : List Mount := [bindMount "/srv/data" "/data"]

/-- With a bind entry the base itself is returned, and what the command writes to `/etc` goes
there. -/
theorem base_returned : ∃ (tr₀ tr : List Sys.Ev) (q : Core Unit),
    Reaches (prePivotMount "c" (mountConfig onlyData).getRootPath onlyData) tr₀
      (.ret (mountConfig onlyData).getRootPath) ∧
    Reaches (createChild "c" (mountConfig onlyData) ⟨some 0, some 0, none⟩) tr q ∧
    (∃ ev ∈ tr, ev.1.commands = true) ∧
    ¬ReturnsOverlay .unlinked [] "c" (mountConfig onlyData).getRootPath (mountConfig onlyData).getRootPath
      (ChildView.after .unlinked ⟨[], [], none, false⟩ tr₀).mounts ∧
    owner (ChildView.after .unlinked ⟨[], [], none, false⟩ tr).mounts ["etc"] =
      some ⟨[], ⟨some (mountConfig onlyData).getRootPath, none, [.msBind], none⟩⟩ ∧
    ¬WritesAbove .unlinked "c" (mountConfig onlyData).getRootPath
      (ChildView.after .unlinked ⟨[], [], none, false⟩ tr).mounts := by
  have hpre : Reaches (prePivotMount "c" (mountConfig onlyData).getRootPath onlyData)
      [⟨.mount (some (mountConfig onlyData).getRootPath) (mountConfig onlyData).getRootPath none [.msBind] none,
        .ok ()⟩,
        ⟨.mount (some "/srv/data") ((mountConfig onlyData).getRootPath ++ "/data") none [.msBind] (some "bind"),
        .ok ()⟩]
      (.ret (mountConfig onlyData).getRootPath) := .cons (.cons .nil)
  have hcommand : ∃ ev ∈ (mountRun onlyData).1, ev.1.commands = true := by decide +kernel
  have hbind : ¬Overlays "c" (mountConfig onlyData).getRootPath onlyData := by
    rintro ⟨hnone, -⟩
    exact Bool.noConfusion (hnone _ List.mem_cons_self)
  refine ⟨_, _, _, hpre, reaches_follow, hcommand, ?_, by decide +kernel, ?_⟩
  · rwa [returnsOverlay_iff hpre]
  · rwa [writesAbove_iff reaches_follow hcommand]

end Clonebox
