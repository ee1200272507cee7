import Clonebox.Core.Resources
import Clonebox.Lib.Fields

/-! # Controllers that are enabled

`init_resources` looks for the name of a controller in the text of two control files, where it can
also be a part of another name. -/

namespace Clonebox
open Conc Prog

variable {l : CgroupLevel}

/-! ### Control files -/

/-- The names in the text of a control file. -/
def controllerNames (text : String) : List String :=
  ((text.toList.splitOnP Char.isWhitespace).filter (· ≠ [])).map String.ofList

/-- The name of a controller. -/
abbrev Controller := { r : String // r ≠ "" ∧ ∀ c ∈ r.toList, c.isWhitespace = false }

/-- The text of `cgroup.controllers` and `cgroup.subtree_control` of a cgroup. -/
structure ControlFiles where
  controllers : String
  subtreeControl : String

/-- What the kernel makes of `cgroup.subtree_control` when a controller is enabled, and its error
when there is no such controller. -/
structure CgroupKernel where
  enable : String → String → String
  refusal : Errno
  enables : ∀ text (r : Controller) name,
    name ∈ controllerNames (enable text r) ↔ name ∈ controllerNames text ∨ name = r

variable {k : CgroupKernel} {w w' : ControlFiles} {r : Controller} {rs : List Controller}

/-- A write to `cgroup.subtree_control`. -/
def ControlFiles.control (k : CgroupKernel) (w : ControlFiles) (text : String) : Io Unit × ControlFiles :=
  match text.toList with
  | '+' :: name =>
    if String.ofList name ∈ controllerNames w.controllers then
      (.ok (), { w with subtreeControl := k.enable w.subtreeControl (String.ofList name) })
    else (.error k.refusal, w)
  | _ => (.error k.refusal, w)

/-- The calls on the control files of one cgroup. All reads succeed. -/
def ControlFiles.exec (k : CgroupKernel) (l : CgroupLevel) (w : ControlFiles) :
    (op : Op) → Option (op.Ret × ControlFiles)
  | .read (.controllers l') => if l' = l then some (.ok (.text w.controllers), w) else none
  | .read (.subtreeControl l') => if l' = l then some (.ok (.text w.subtreeControl), w) else none
  | .write (.subtreeControl l') (.text text) => if l' = l then some (w.control k text) else none
  | _ => none

/-- `init_resources` by itself. -/
def initialise (k : CgroupKernel) (l : CgroupLevel) (w : ControlFiles) (rs : List Controller) :
    Option (Except CoreError Unit × ControlFiles) :=
  alone (ControlFiles.exec k l) w (initResources l (rs.map Subtype.val))

/-- The answer that a controller is not there. -/
def notAvailable : Except CoreError Unit → Bool
  | .error (.systemError (.cgroupError (.resourceNotAvailable _ _))) => true
  | _ => false

/-- It says that a controller is not there exactly when one is not, and otherwise enables them
all. -/
def ControllersEnabled (k : CgroupKernel) (l : CgroupLevel) (w : ControlFiles) (rs : List Controller) :
    Prop :=
  ∃ result w', initialise k l w rs = some (result, w') ∧
    (result = .ok () → ∀ r ∈ rs, r.val ∈ controllerNames w'.subtreeControl) ∧
    (notAvailable result = true ↔ ∃ r ∈ rs, r.val ∉ controllerNames w.controllers)

/-! ### Names within names -/

/-- `r` is a part of `name`, or is it. -/
abbrev PartOf (r : Controller) (name : String) : Prop := r.val.toList <:+: name.toList

theorem mem_controllerNames {text name : String} : name ∈ controllerNames text ↔
    name.toList ∈ text.toList.splitOnP Char.isWhitespace ∧ name ≠ "" := by
  constructor
  · intro h
    obtain ⟨l, hl, rfl⟩ := List.mem_map.mp h
    obtain ⟨hfield, hne⟩ := List.mem_filter.mp hl
    refine ⟨by rwa [String.toList_ofList], fun hempty => ?_⟩
    have hnil := congrArg String.toList hempty
    rw [String.toList_ofList] at hnil
    simp [hnil] at hne
  · rintro ⟨hfield, hne⟩
    refine List.mem_map.mpr ⟨name.toList, List.mem_filter.mpr ⟨hfield, ?_⟩, String.ofList_toList⟩
    simpa using hne

/-- The name is found in a text when it is a part of a name there. -/
theorem strContains_iff {text : String} : strContains text r = true ↔
    ∃ name ∈ controllerNames text, PartOf r name := by
  rw [strContains, decide_eq_true_iff, infix_iff_field r.2.2]
  constructor
  · rintro ⟨l, hl, hpart⟩
    refine ⟨String.ofList l, mem_controllerNames.mpr ⟨by rwa [String.toList_ofList], fun hempty => ?_⟩,
      by rwa [PartOf, String.toList_ofList]⟩
    obtain rfl : l = [] := by simpa using hempty
    exact r.2.1 (String.toList_inj.mp (List.infix_nil.mp hpart))
  · rintro ⟨name, hname, hpart⟩
    exact ⟨name.toList, (mem_controllerNames.mp hname).1, hpart⟩

/-! ### One controller -/

theorem control_enable (h : r.val ∈ controllerNames w.controllers) : w.control k ("+" ++ r.val) =
    (.ok (), { w with subtreeControl := k.enable w.subtreeControl r }) := by
  simp [ControlFiles.control, String.toList_append, h]

theorem control_refuse (h : r.val ∉ controllerNames w.controllers) :
    w.control k ("+" ++ r.val) = (.error k.refusal, w) := by
  simp [ControlFiles.control, String.toList_append, h]

section
attribute [local simp] enableController mapErr Prog.ask Prog.bind alone ControlFiles.exec Content.asText
  Except.mapError Prog.ofExcept Prog.throwIf

theorem enable_absent (h : strContains w.controllers r = false) :
    ∃ path, alone (ControlFiles.exec k l) w (enableController l r) =
      some (.error ↑(CgroupError.resourceNotAvailable path r), w) := by
  exact ⟨_, by simp [h]; rfl⟩

theorem enable_present (h : strContains w.controllers r = true)
    (hs : strContains w.subtreeControl r = true) :
    alone (ControlFiles.exec k l) w (enableController l r) = some (.ok (), w) := by
  simp [h, hs]

theorem enable_written (h : strContains w.controllers r = true)
    (hs : strContains w.subtreeControl r = false) (hr : r.val ∈ controllerNames w.controllers) :
    alone (ControlFiles.exec k l) w (enableController l r) =
      some (.ok (), { w with subtreeControl := k.enable w.subtreeControl r }) := by
  simp [h, hs, control_enable hr]

theorem enable_refused (h : strContains w.controllers r = true)
    (hs : strContains w.subtreeControl r = false) (hr : r.val ∉ controllerNames w.controllers) :
    alone (ControlFiles.exec k l) w (enableController l r) =
      some (.error ↑(CgroupError.writeFailure k.refusal r), w) := by
  simp [h, hs, control_refuse hr]
end

/-! ### A list of controllers -/

variable {available known : List String}

/-- A name that is not known when it comes up is no part of a name that is. -/
def EachApart (known : List String) (rs : List Controller) : Prop :=
  ∀ pre (r : Controller) post, rs = pre ++ r :: post → r.val ∉ known ++ pre.map Subtype.val →
    ∀ name ∈ known ++ pre.map Subtype.val, ¬PartOf r name

/-- A resource is a part of no controller's name. Those before it are parts of some, and each of
them is a controller or a part of a name that is known when it comes up. -/
def Reports (available known : List String) (rs : List Controller) : Prop :=
  ∃ pre r post, rs = pre ++ r :: post ∧ (∀ name ∈ available, ¬PartOf r name) ∧
    ∀ pre' (x : Controller) post', pre = pre' ++ x :: post' → (∃ name ∈ available, PartOf x name) ∧
      (x.val ∈ available ∨ ∃ name ∈ known ++ pre'.map Subtype.val, PartOf x name)

theorem apart_cons : EachApart known (r :: rs) ↔
    (r.val ∉ known → ∀ name ∈ known, ¬PartOf r name) ∧ EachApart (known ++ [r.val]) rs := by
  constructor
  · intro h
    constructor
    · intro hnot
      have hhead := h [] r rs rfl
      simp only [List.map_nil, List.append_nil] at hhead
      exact hhead hnot
    · rintro pre x post rfl
      have htail := h (r :: pre) x post rfl
      rwa [List.map_cons, List.append_cons] at htail
  · rintro ⟨hhead, htail⟩ pre x post he
    cases pre with
    | nil =>
      cases he
      simpa using hhead
    | cons y pre =>
      cases he
      rw [List.map_cons, List.append_cons]
      exact htail pre x post rfl

theorem reports_cons : Reports available known (r :: rs) ↔ (∀ name ∈ available, ¬PartOf r name) ∨
    (∃ name ∈ available, PartOf r name) ∧ (r.val ∈ available ∨ ∃ name ∈ known, PartOf r name) ∧
      Reports available (known ++ [r.val]) rs := by
  constructor
  · rintro ⟨pre, x, post, he, hx, hpre⟩
    cases pre with
    | nil =>
      cases he
      exact .inl hx
    | cons y pre =>
      cases he
      have hhead := hpre [] r pre rfl
      simp only [List.map_nil, List.append_nil] at hhead
      refine .inr ⟨hhead.1, hhead.2, pre, x, post, rfl, hx, ?_⟩
      rintro pre' z post' rfl
      have htail := hpre (r :: pre') z post' rfl
      rwa [List.map_cons, List.append_cons] at htail
  · rintro (h | ⟨hpart, hpass, pre, x, post, rfl, hx, hpre⟩)
    · exact ⟨[], r, rs, rfl, h, by simp⟩
    · refine ⟨r :: pre, x, post, rfl, hx, ?_⟩
      intro pre' z post' he
      cases pre' with
      | nil =>
        cases he
        simpa using ⟨hpart, hpass⟩
      | cons y pre' =>
        cases he
        rw [List.map_cons, List.append_cons]
        exact hpre pre' z post' rfl

/-- What has come up so far, in terms of what the text holds now. -/
structure Known (known : List String) (text : String) : Prop where
  names : ∀ name ∈ controllerNames text, name ∈ known
  parts : ∀ r : Controller, strContains text r = true ↔ ∃ name ∈ known, PartOf r name

theorem Known.start {text : String} : Known (controllerNames text) text :=
  ⟨fun _ h => h, fun _ => strContains_iff⟩

/-- A name that is found in the text adds nothing. -/
theorem Known.found {text : String} (h : Known known text) (hr : strContains text r = true) :
    Known (known ++ [r.val]) text where
  names name hname := List.mem_append_left _ (h.names name hname)
  parts x := by
    rw [h.parts]
    constructor
    · rintro ⟨name, hname, hpart⟩
      exact ⟨name, List.mem_append_left _ hname, hpart⟩
    · rintro ⟨name, hname, hpart⟩
      rcases List.mem_append.mp hname with hname | hname
      · exact ⟨name, hname, hpart⟩
      · obtain rfl := List.mem_singleton.mp hname
        obtain ⟨name', hname', hpart'⟩ := (h.parts r).mp hr
        exact ⟨name', hname', hpart.trans hpart'⟩

theorem Known.enabled {text : String} (h : Known known text) :
    Known (known ++ [r.val]) (k.enable text r) where
  names name hname := by
    rcases (k.enables text r name).mp hname with hname | rfl
    · exact List.mem_append_left _ (h.names name hname)
    · exact List.mem_append_right _ (List.mem_singleton_self _)
  parts x := by
    rw [strContains_iff]
    have hold := h.parts x
    rw [strContains_iff] at hold
    constructor
    · rintro ⟨name, hname, hpart⟩
      rcases (k.enables text r name).mp hname with hname | rfl
      · obtain ⟨name', hname', hpart'⟩ := hold.mp ⟨name, hname, hpart⟩
        exact ⟨name', List.mem_append_left _ hname', hpart'⟩
      · exact ⟨r, List.mem_append_right _ (List.mem_singleton_self _), hpart⟩
    · rintro ⟨name, hname, hpart⟩
      rcases List.mem_append.mp hname with hname | hname
      · obtain ⟨name', hname', hpart'⟩ := hold.mpr ⟨name, hname, hpart⟩
        exact ⟨name', (k.enables text r name').mpr (.inl hname'), hpart'⟩
      · obtain rfl := List.mem_singleton.mp hname
        exact ⟨r, (k.enables text r r).mpr (.inr rfl), hpart⟩

/-! ### The run -/

/-- What `enable_controller` does with one resource. -/
inductive Enabling (k : CgroupKernel) (l : CgroupLevel) (w : ControlFiles) (r : Controller) : Prop
  | absent {path : String} (h : ∀ name ∈ controllerNames w.controllers, ¬PartOf r name)
    (he : alone (ControlFiles.exec k l) w (enableController l r) =
      some (.error ↑(CgroupError.resourceNotAvailable path r), w))
  | found (h : ∃ name ∈ controllerNames w.controllers, PartOf r name)
    (hs : strContains w.subtreeControl r = true)
    (he : alone (ControlFiles.exec k l) w (enableController l r) = some (.ok (), w))
  | written (h : ∃ name ∈ controllerNames w.controllers, PartOf r name)
    (hs : strContains w.subtreeControl r = false) (hr : r.val ∈ controllerNames w.controllers)
    (he : alone (ControlFiles.exec k l) w (enableController l r) =
      some (.ok (), { w with subtreeControl := k.enable w.subtreeControl r }))
  | refused (h : ∃ name ∈ controllerNames w.controllers, PartOf r name)
    (hs : strContains w.subtreeControl r = false) (hr : r.val ∉ controllerNames w.controllers)
    (he : alone (ControlFiles.exec k l) w (enableController l r) =
      some (.error ↑(CgroupError.writeFailure k.refusal r), w))

theorem enabling : Enabling k l w r := by
  cases hc : strContains w.controllers r with
  | false =>
    obtain ⟨path, he⟩ := enable_absent hc
    refine .absent (fun name hname hpart => ?_) he
    rw [strContains_iff.mpr ⟨name, hname, hpart⟩] at hc
    contradiction
  | true =>
    have h := strContains_iff.mp hc
    cases hs : strContains w.subtreeControl r with
    | true => exact .found h hs (enable_present hc hs)
    | false =>
      rcases Decidable.em (r.val ∈ controllerNames w.controllers) with hr | hr
      · exact .written h hs hr (enable_written hc hs hr)
      · exact .refused h hs hr (enable_refused hc hs hr)

/-- What the run has come to, from a text in which the names `known` have come up. -/
structure Outcome (known : List String) (w : ControlFiles) (rs : List Controller)
    (result : Except CoreError Unit) (w' : ControlFiles) : Prop where
  reports : notAvailable result = true ↔ Reports (controllerNames w.controllers) known rs
  refused : result ≠ .ok () → notAvailable result = false →
    ∃ r ∈ rs, r.val ∉ controllerNames w.controllers
  /-- A name that is on is not turned off. -/
  kept : ∀ name ∈ controllerNames w.subtreeControl, name ∈ controllerNames w'.subtreeControl
  /-- A name that is only a part of another is never enabled. -/
  hidden : ∀ x : Controller, strContains w.subtreeControl x = true →
    x.val ∉ controllerNames w.subtreeControl → x.val ∉ controllerNames w'.subtreeControl
  apart : result = .ok () → (∀ name ∈ known, name ∈ controllerNames w.subtreeControl) →
    ((∀ r ∈ rs, r.val ∈ controllerNames w'.subtreeControl) ↔ EachApart known rs)

/-- Where it ends with an error, nothing has changed since. -/
theorem Outcome.ended {e : CoreError} (hreports : notAvailable (.error e) = true ↔
      Reports (controllerNames w.controllers) known rs)
    (hrefused : notAvailable (.error e) = false → ∃ r ∈ rs, r.val ∉ controllerNames w.controllers) :
    Outcome known w rs (.error e) w where
  reports := hreports
  refused _ := hrefused
  kept _ h := h
  hidden _ _ h := h
  apart := nofun

theorem Outcome.found {result : Except CoreError Unit} (h : Outcome (known ++ [r.val]) w rs result w')
    (hk : Known known w.subtreeControl) (hpart : ∃ name ∈ controllerNames w.controllers, PartOf r name)
    (hs : strContains w.subtreeControl r = true) : Outcome known w (r :: rs) result w' where
  reports := by
    rw [h.reports, reports_cons]
    obtain ⟨name, hname, hp⟩ := hpart
    constructor
    · exact fun hrest => .inr ⟨⟨name, hname, hp⟩, .inr ((hk.parts r).mp hs), hrest⟩
    · rintro (hnone | ⟨-, -, hrest⟩)
      · exact (hnone name hname hp).elim
      · exact hrest
  refused hne hna := by
    obtain ⟨x, hx, hnot⟩ := h.refused hne hna
    exact ⟨x, List.mem_cons_of_mem _ hx, hnot⟩
  kept := h.kept
  hidden := h.hidden
  apart hok hon := by
    rw [List.forall_mem_cons, apart_cons]
    rcases Decidable.em (r.val ∈ controllerNames w.subtreeControl) with hr | hr
    · have hon' : ∀ name ∈ known ++ [r.val], name ∈ controllerNames w.subtreeControl := by
        intro name hname
        rcases List.mem_append.mp hname with hname | hname
        · exact hon name hname
        · rwa [List.mem_singleton.mp hname]
      rw [h.apart hok hon']
      exact and_congr_left fun _ => iff_of_true (h.kept _ hr) fun hnot => (hnot (hk.names _ hr)).elim
    · -- the name is taken for one that is enabled, and stays off
      refine iff_of_false (fun hall => h.hidden r hs hr hall.1) fun hapart => ?_
      obtain ⟨name, hname, hp⟩ := (hk.parts r).mp hs
      exact hapart.1 (fun hmem => hr (hon _ hmem)) name hname hp

theorem Outcome.written {result : Except CoreError Unit}
    (h : Outcome (known ++ [r.val]) { w with subtreeControl := k.enable w.subtreeControl r } rs result w')
    (hk : Known known w.subtreeControl) (hpart : ∃ name ∈ controllerNames w.controllers, PartOf r name)
    (hs : strContains w.subtreeControl r = false) (hr : r.val ∈ controllerNames w.controllers) :
    Outcome known w (r :: rs) result w' where
  reports := by
    rw [h.reports, reports_cons]
    obtain ⟨name, hname, hp⟩ := hpart
    constructor
    · exact fun hrest => .inr ⟨⟨name, hname, hp⟩, .inl hr, hrest⟩
    · rintro (hnone | ⟨-, -, hrest⟩)
      · exact (hnone name hname hp).elim
      · exact hrest
  refused hne hna := by
    obtain ⟨x, hx, hnot⟩ := h.refused hne hna
    exact ⟨x, List.mem_cons_of_mem _ hx, hnot⟩
  kept name hname := h.kept name ((k.enables _ _ _).mpr (.inl hname))
  hidden x hx hnot := by
    refine h.hidden x ?_ fun hmem => ?_
    · obtain ⟨name, hname, hp⟩ := strContains_iff.mp hx
      exact strContains_iff.mpr ⟨name, (k.enables _ _ _).mpr (.inl hname), hp⟩
    · rcases (k.enables _ _ _).mp hmem with hmem | he
      · exact hnot hmem
      · rw [he, hs] at hx
        contradiction
  apart hok hon := by
    have hon' : ∀ name ∈ known ++ [r.val], name ∈ controllerNames (k.enable w.subtreeControl r) := by
      intro name hname
      rcases List.mem_append.mp hname with hname | hname
      · exact (k.enables _ _ _).mpr (.inl (hon name hname))
      · exact (k.enables _ _ _).mpr (.inr (List.mem_singleton.mp hname))
    rw [List.forall_mem_cons, apart_cons, h.apart hok hon']
    refine and_congr_left fun _ => iff_of_true ?_ fun _ name hname hp => ?_
    · exact h.kept _ ((k.enables _ _ _).mpr (.inr rfl))
    · rw [(hk.parts r).mpr ⟨name, hname, hp⟩] at hs
      contradiction

/-- The run comes to an end, and its outcome is this. By induction on the list: what has come up
goes over into what is known. -/
theorem initialise_outcome (hk : Known known w.subtreeControl) :
    ∃ result w', initialise k l w rs = some (result, w') ∧ Outcome known w rs result w' := by
  induction rs generalizing known w with
  | nil =>
    refine ⟨.ok (), w, rfl, ⟨?_, fun h => (h rfl).elim, fun _ h => h, fun _ _ h => h, ?_⟩⟩
    · refine iff_of_false nofun ?_
      rintro ⟨pre, r, post, he, -⟩
      simp at he
    · refine fun _ _ => iff_of_true nofun ?_
      rintro pre r post he
      simp at he
  | cons r rs ih =>
    rcases (enabling : Enabling k l w r) with ⟨h, he⟩ | ⟨h, hs, he⟩ | ⟨h, hs, hr, he⟩ | ⟨h, hs, hr, he⟩
    · refine ⟨_, w, alone_bind_error he, .ended (iff_of_true rfl (reports_cons.mpr (.inl h))) nofun⟩
    · obtain ⟨result, w', hrun, hout⟩ := ih (hk.found hs)
      exact ⟨result, w', (alone_bind he).trans hrun, hout.found hk h hs⟩
    · obtain ⟨result, w', hrun, hout⟩ :=
        ih (w := { w with subtreeControl := k.enable w.subtreeControl r }) hk.enabled
      exact ⟨result, w', (alone_bind he).trans hrun, hout.written hk h hs hr⟩
    · refine ⟨_, w, alone_bind_error he, .ended (iff_of_false nofun fun hrep => ?_)
        fun _ => ⟨r, List.mem_cons_self, hr⟩⟩
      obtain ⟨name, hname, hp⟩ := h
      rcases reports_cons.mp hrep with hnone | ⟨-, hpass, -⟩
      · exact hnone name hname hp
      · rcases hpass with hmem | hpart
        · exact hr hmem
        · rw [(hk.parts r).mpr hpart] at hs
          contradiction

/-- `init_resources` says that a controller is not there exactly when one is not, and otherwise
enables them all, if and only if one of two things is true of the names: all are there, and none is,
when it comes up, a part of another that is enabled; or one is a part of no name, and those before
it are there or are parts of names that are enabled. -/
theorem controllers_enabled {k : CgroupKernel} {l : CgroupLevel} {w : ControlFiles} {rs : List Controller} :
    ControllersEnabled k l w rs ↔
      ((∀ r ∈ rs, r.val ∈ controllerNames w.controllers) ∧ EachApart (controllerNames w.subtreeControl) rs) ∨
        Reports (controllerNames w.controllers) (controllerNames w.subtreeControl) rs := by
  obtain ⟨result, w', hrun, hout⟩ : ∃ result w', initialise k l w rs = some (result, w') ∧
      Outcome (controllerNames w.subtreeControl) w rs result w' := initialise_outcome .start
  have hdef : ControllersEnabled k l w rs ↔
      (result = .ok () → ∀ r ∈ rs, r.val ∈ controllerNames w'.subtreeControl) ∧
        (notAvailable result = true ↔ ∃ r ∈ rs, r.val ∉ controllerNames w.controllers) := by
    constructor
    · rintro ⟨result₁, w₁, hrun₁, hclaim⟩
      cases hrun.symm.trans hrun₁
      exact hclaim
    · exact fun hclaim => ⟨result, w', hrun, hclaim⟩
  rw [hdef]
  cases hna : notAvailable result with
  | true =>
    have hreports := hout.reports.mp hna
    refine iff_of_true ⟨fun hok => ?_, iff_of_true rfl ?_⟩ (.inr hreports)
    · rw [hok] at hna
      contradiction
    · obtain ⟨pre, r, post, rfl, hnone, -⟩ := hreports
      exact ⟨r, by simp, fun hmem => hnone _ hmem List.infix_rfl⟩
  | false =>
    have hnot : ¬Reports (controllerNames w.controllers) (controllerNames w.subtreeControl) rs := by
      intro hreports
      rw [hout.reports.mpr hreports] at hna
      contradiction
    rw [or_iff_left hnot]
    rcases Decidable.em (∃ r ∈ rs, r.val ∉ controllerNames w.controllers) with hmissing | hall
    · obtain ⟨r, hr, hmem⟩ := hmissing
      exact iff_of_false (fun hclaim => Bool.noConfusion (hclaim.2.mpr ⟨r, hr, hmem⟩))
        fun hgood => hmem (hgood.1 r hr)
    · have hok : result = .ok () := by
        cases result with
        | ok _ => rfl
        | error e => exact (hall (hout.refused nofun hna)).elim
      have hall' : ∀ r ∈ rs, r.val ∈ controllerNames w.controllers := by
        intro r hr
        exact Decidable.not_not.mp fun hmem => hall ⟨r, hr, hmem⟩
      rw [and_iff_left (iff_of_false Bool.false_ne_true hall), and_iff_right hall',
        ← hout.apart hok fun _ h => h]
      exact forall_prop_of_true hok

/-! ### A controller within another -/

/-- The kernel adds the name at the end. -/
def appendKernel : CgroupKernel where
  enable text name := text ++ " " ++ name
  refusal := .enoent
  enables text r name := by
    have hsplit : (text ++ " " ++ r).toList.splitOnP Char.isWhitespace =
        text.toList.splitOnP Char.isWhitespace ++ [r.val.toList] := by
      have htext : (text ++ " " ++ r).toList = text.toList ++ ' ' :: r.val.toList := by
        simp [String.toList_append]
      rw [htext, List.splitOnP_append_cons _ _ (by decide), List.splitOnP_eq_singleton r.2.2]
    rw [mem_controllerNames, mem_controllerNames, hsplit, List.mem_append, List.mem_singleton,
      String.toList_inj]
    constructor
    · rintro ⟨hmem | rfl, hne⟩
      · exact .inl ⟨hmem, hne⟩
      · exact .inr rfl
    · rintro (⟨hmem, hne⟩ | rfl)
      · exact ⟨.inl hmem, hne⟩
      · exact ⟨.inr rfl, r.2.1⟩

def cpu : Controller := ⟨"cpu", by decide, by simp⟩
def memory : Controller := ⟨"memory", by decide, by simp⟩

/-- `cpuset` is enabled and `cpu` is not: it stays off, and all is said to be well. -/
theorem cpu_stays_off : ∃ w : ControlFiles, w.controllers = "cpuset cpu memory" ∧
    w.subtreeControl = "cpuset memory" ∧
    initialise appendKernel .root w [cpu, memory] = some (.ok (), w) ∧
    ¬ControllersEnabled appendKernel .root w [cpu, memory] := by
  obtain ⟨w, hw⟩ : ∃ w : ControlFiles, w = ⟨"cpuset cpu memory", "cpuset memory"⟩ := ⟨_, rfl⟩
  have hcpu : strContains w.controllers cpu = true ∧ strContains w.subtreeControl cpu = true := by
    rw [hw]
    decide +kernel
  have hmemory : strContains w.controllers memory = true ∧ strContains w.subtreeControl memory = true := by
    rw [hw]
    decide +kernel
  have hoff : cpu.val ∉ controllerNames w.subtreeControl := by
    rw [hw]
    decide +kernel
  have hrun : initialise appendKernel .root w [cpu, memory] = some (.ok (), w) :=
    (alone_bind (enable_present hcpu.1 hcpu.2)).trans (alone_bind (enable_present hmemory.1 hmemory.2))
  refine ⟨w, by rw [hw], by rw [hw], hrun, ?_⟩
  rintro ⟨result, w', hrun', hon, -⟩
  obtain ⟨rfl, rfl⟩ := Prod.mk.inj (Option.some.inj (hrun.symm.trans hrun'))
  exact hoff (hon rfl cpu List.mem_cons_self)

end Clonebox
