import Clonebox.Lifecycle.FailClosed

/-! # How the cloned child ends

After `clone3` the child is inside `create` too. It leaves there neither by a return nor by a panic,
unless its read of the gate fails or a string of the command cannot be a C string. -/

namespace Clonebox
open Conc Prog

variable {α : Type} {id : String} {config : Config} {p : Nat} {tr : List Sys.Ev}

/-- The process has become the command, or is gone. -/
def endsInside : Sys.Ev → Bool
  | ⟨.execve _ _ _, .ok ()⟩ | ⟨.exit _, _⟩ => true
  | _ => false

/-- The control flow has ended in a successful `execve` or in `_exit`. -/
def EndsInside (tr : List Sys.Ev) (q : Core Unit) : Prop :=
  q = .halt ∧ ∃ ev ∈ tr.getLast?, endsInside ev = true

/-- The strings of the command can be C strings, or the first cannot and is found out. -/
def Config.sound (config : Config) : Bool :=
  match config.getProcessArgs.getD [] with
  | [] => true
  | path :: rest => hasNul path || !(rest.any hasNul || (config.getProcessEnv.getD []).any hasNul)

/-! ### The ends of the parts -/

/-- The last call was one that ends the process. -/
abbrev LastEnds (last : Option Sys.Ev) : Prop := ∃ ev ∈ last, endsInside ev = true

/-- The last call has unwound. -/
abbrev LastPanics (last : Option Sys.Ev) : Prop := last = some ⟨.panic, ()⟩

section
attribute [local simp] forall_except lastly Prog.obeys_call Prog.ask

theorem exit_last {code : Nat} {g : Option Sys.Ev} {Q : Option Sys.Ev → Except CoreError α → Prop} :
    (exit code : Core α).Obeys (lastly LastEnds) Q g :=
  ⟨trivial, fun _ => ⟨_, rfl, rfl⟩⟩

/-- A call through `child_try` returns, or the process is gone. -/
theorem childTry_last {p : Core (Io Unit)} {g : Option Sys.Ev}
    {Q : Option Sys.Ev → Except CoreError Unit → Prop}
    (h : p.Obeys (lastly LastEnds) (fun _ r => ∃ x, r = .ok x) g) (hQ : ∀ g, Q g (.ok ())) :
    (childTry p).Obeys (lastly LastEnds) Q g := by
  refine obeys_bind.mpr (h.mono fun g r hr => ?_)
  obtain ⟨x, rfl⟩ := hr
  cases x with
  | ok _ => exact hQ g
  | error e => exact exit_last

theorem mountChild_last {src mountType data : Option String} {dest : String} {flags : List MsFlag}
    {g : Option Sys.Ev} {Q : Option Sys.Ev → Except CoreError Unit → Prop} (hQ : ∀ g, Q g (.ok ())) :
    (mountChild src dest mountType flags data).Obeys (lastly LastEnds) Q g :=
  childTry_last (by simp) hQ

theorem prePivotMount_last {newRoot : String} {mounts : List Mount} {g : Option Sys.Ev}
    {Q : Option Sys.Ev → Except CoreError String → Prop} (hQ : ∀ g root, Q g (.ok root)) :
    (prePivotMount id newRoot mounts).Obeys (lastly LastEnds) Q g := by
  have hdir {β : Type} {path : Path} {f : Unit → Core β} {g : Option Sys.Ev}
      {Q : Option Sys.Ev → Except CoreError β → Prop}
      (hf : ∀ g, (f ()).Obeys (lastly LastEnds) Q g) :
      ((childTry (sys (.createDirAll path))).bind f).Obeys (lastly LastEnds) Q g :=
    obeys_bind.mpr (childTry_last (by simp) hf)
  refine obeys_bind.mpr (mountChild_last fun g => ?_)
  dsimp only
  cases mounts.find? Mount.isBind with
  | some m => exact obeys_bind.mpr (mountChild_last fun g => hQ g _)
  | none =>
    exact hdir fun _ => hdir fun _ => hdir fun _ => obeys_bind.mpr (mountChild_last fun g => hQ g _)

theorem doPivotRoot_last {newRoot : String} {g : Option Sys.Ev}
    {Q : Option Sys.Ev → Except CoreError Unit → Prop} (hQ : ∀ g, Q g (.ok ())) :
    (doPivotRoot newRoot).Obeys (lastly LastEnds) Q g := by
  refine obeys_bind.mpr (childTry_last (by simp) fun _ => ?_)
  refine obeys_bind.mpr (childTry_last (by simp) fun _ => ?_)
  refine obeys_bind.mpr (childTry_last (by simp) fun _ => ?_)
  exact obeys_bind.mpr (childTry_last (by simp) fun _ => childTry_last (by simp) hQ)

theorem postPivotMount_last {mounts : List Mount} {g : Option Sys.Ev}
    {Q : Option Sys.Ev → Except CoreError Unit → Prop} (hQ : ∀ g, Q g (.ok ())) :
    (postPivotMount mounts).Obeys (lastly LastEnds) Q g := by
  induction mounts generalizing g with
  | nil => exact hQ g
  | cons m mounts ih =>
    rw [postPivotMount]
    split
    · exact obeys_bind.mpr (mountChild_last fun _ => ih)
    · exact ih

/-- The setup returns, or the process is gone. -/
theorem childSetup_last {g : Option Sys.Ev} {Q : Option Sys.Ev → Except CoreError Unit → Prop}
    (hQ : ∀ g, Q g (.ok ())) : (childSetup id config).Obeys (lastly LastEnds) Q g := by
  refine obeys_bind.mpr (mountChild_last fun _ => ?_)
  refine obeys_bind.mpr (childTry_last (by simp) fun _ => ?_)
  refine obeys_bind.mpr (prePivotMount_last fun _ root => ?_)
  refine obeys_bind.mpr (doPivotRoot_last fun _ => ?_)
  refine obeys_bind.mpr (postPivotMount_last fun _ => ?_)
  refine obeys_bind.mpr (mountChild_last fun _ => ?_)
  exact obeys_bind.mpr (mountChild_last fun _ => mountChild_last hQ)

/-- `execve` does not come back, or the process ends. -/
theorem execCommand_last {path : String} {ca ce : List String} {g : Option Sys.Ev}
    {Q : Option Sys.Ev → Except CoreError α → Prop} :
    (execCommand id path ca ce : Core α).Obeys (lastly LastEnds) Q g := by
  refine obeys_bind.mpr ⟨trivial, fun r => ?_⟩
  cases r with
  | ok _ => exact ⟨_, rfl, rfl⟩
  | error e =>
    refine obeys_bind.mpr (obeys_attempt.mpr (obeys_mapErr.mpr ⟨trivial, fun r => ?_⟩))
    cases r <;> exact exit_last

theorem toCstringVec_last {v : List String} {g : Option Sys.Ev} {H : Option Sys.Ev → Prop}
    {Q : Option Sys.Ev → Except CoreError (List String) → Prop} (h : v.any hasNul = false)
    (hQ : Q g (.ok v)) : (toCstringVec v).Obeys (lastly H) Q g := by
  rw [toCstringVec, if_neg (by simp [h])]
  exact hQ

/-- With strings of C the command is started or the process ends. -/
theorem containerExec_last {cwd : String} {g : Option Sys.Ev}
    {Q : Option Sys.Ev → Except CoreError α → Prop} (h : config.sound = true) :
    (containerExec config.getProcessArgs config.getProcessEnv (some cwd) id : Core α).Obeys
      (lastly LastEnds) Q g := by
  unfold containerExec
  unfold Config.sound at h
  cases hargs : config.getProcessArgs.getD [] with
  | nil => exact exit_last
  | cons path rest =>
    rw [hargs] at h
    show Obeys _ _ _ (if hasNul path then _ else _)
    split
    · exact exit_last
    · rename_i hpath
      have hpath : hasNul path = false := Bool.eq_false_of_not_eq_true hpath
      have hrest : rest.any hasNul = false ∧ (config.getProcessEnv.getD []).any hasNul = false := by
        simpa [hpath] using h
      refine obeys_bind.mpr (toCstringVec_last (by simp [hpath, hrest.1]) ?_)
      refine obeys_bind.mpr (toCstringVec_last hrest.2 ?_)
      show Obeys _ _ _ (if hasNul cwd then _ else _)
      split
      · exact exit_last
      · exact ⟨trivial, fun _ => execCommand_last⟩

/-- With another string that is none of C's, the conversion panics. -/
theorem containerExec_panics {cwd : String} {g : Option Sys.Ev}
    {Q : Option Sys.Ev → Except CoreError α → Prop} (h : config.sound = false) :
    (containerExec config.getProcessArgs config.getProcessEnv (some cwd) id : Core α).Obeys
      (lastly LastPanics) Q g := by
  have hpanic {β : Type} {v : List String} {f : List String → Core β} {g : Option Sys.Ev}
      {Q : Option Sys.Ev → Except CoreError β → Prop} (hv : v.any hasNul = true) :
      ((toCstringVec v).bind f).Obeys (lastly LastPanics) Q g := by
    rw [toCstringVec, if_pos hv]
    exact ⟨trivial, fun _ => rfl⟩
  unfold containerExec
  unfold Config.sound at h
  cases hargs : config.getProcessArgs.getD [] with
  | nil =>
    rw [hargs] at h
    contradiction
  | cons path rest =>
    rw [hargs] at h
    obtain ⟨hpath, hbad⟩ : hasNul path = false ∧
        (rest.any hasNul = false → (config.getProcessEnv.getD []).any hasNul = true) := by
      simpa using h
    show Obeys _ _ _ (if hasNul path then _ else _)
    rw [if_neg (by simp [hpath])]
    cases hargs : rest.any hasNul with
    | true => exact hpanic (by simp [hargs])
    | false =>
      refine obeys_bind.mpr (toCstringVec_last (by simp [hpath, hargs]) ?_)
      exact hpanic (hbad hargs)

end

/-! ### The end of the child -/

/-- What has ended and can only halt has halted. -/
theorem halted {q : Core α} {last : Option Sys.Ev} {H : Option Sys.Ev → Prop}
    (hq : q.Obeys (lastly H) (fun _ _ => False) last) (hover : isOver q = true) : q = .halt ∧ H last := by
  cases q with
  | ret | fail => exact hq.elim
  | halt => exact ⟨rfl, hq⟩
  | call => contradiction

/-- The setup leaves the gate alone. -/
theorem setup_no_gate {q : Core Unit} {g : Sys.Ev} (h : Reaches (childSetup id config) tr q)
    (hg : g.1.gates = true) : g ∉ tr := by
  intro hmem
  have hplain := (h.calls (childSetup_plain config)).1 g hmem
  rw [Op.plain_iff, hg] at hplain
  exact Bool.noConfusion hplain.1

/-- And the start of the command does not read it. -/
theorem exec_no_read {args env : Option (List String)} {cwd : Option String} {q : Core α} {r : Io Unit}
    (h : Reaches (containerExec args env cwd id) tr q) : ⟨.pipeRead p, r⟩ ∉ tr := by
  intro hmem
  have hcalls : Calls (S := Sys) (fun op => op ≠ .pipeRead p) (containerExec args env cwd id : Core α) :=
    containerExec_all (by simp) (by simp) (by simp) (by simp) (by simp) args env cwd
  exact (h.calls hcalls).1 _ hmem rfl

/-- The read of the gate is one call. -/
theorem freezeChild_over {rt : Runtime} {q : Core Unit} (hrt : rt.childEnd = some p)
    (h : Reaches rt.freezeChild tr q) (hover : isOver q = true) :
    (tr = [⟨.pipeRead p, .ok ()⟩] ∧ q = .ret ()) ∨
      ∃ e, tr = [⟨.pipeRead p, .error e⟩] ∧ q = .fail ↑(RuntimeError.read e) := by
  rw [Runtime.freezeChild, hrt] at h
  rcases h.of_call with ⟨-, rfl⟩ | ⟨r, tr', rfl, hrest⟩
  · contradiction
  · cases r with
    | ok _ =>
      obtain ⟨rfl, rfl⟩ := hrest.of_ret
      exact .inl ⟨rfl, rfl⟩
    | error e =>
      obtain ⟨rfl, rfl⟩ := hrest.of_fail
      exact .inr ⟨e, rfl, rfl⟩

/-- The child ends in the command or in `_exit` if and only if its read of the gate does not fail
and, where it has come through the gate, the strings of the command can be C strings. -/
theorem child_ends_inside {id : String} {config : Config} {p : Nat} {tr : List Sys.Ev} {q : Core Unit}
    (h : Reaches (createChild id config ⟨some p, some p, none⟩) tr q) (hover : isOver q = true) :
    EndsInside tr q ↔ (∀ e, ⟨.pipeRead p, .error e⟩ ∉ tr) ∧
      (⟨.pipeRead p, .ok ()⟩ ∈ tr → config.sound = true) := by
  rw [createChild_eq] at h
  rcases h.of_bind_over hover with ⟨e, hsetup, rfl⟩ | ⟨hsetup, rfl⟩ | ⟨tr₁, tr₂, _, rfl, hsetup, h⟩
  · have hlast := hsetup.last (childSetup_last (Q := fun _ r => r = .ok ()) fun _ => rfl)
    cases hlast
  · -- the child has not come to the gate
    have hends : LastEnds tr.getLast? := hsetup.last (childSetup_last (Q := fun _ _ => True) fun _ => trivial)
    have hno (r : Io Unit) : ⟨.pipeRead p, r⟩ ∉ tr := setup_no_gate hsetup rfl
    exact iff_of_true ⟨rfl, hends⟩ ⟨fun e => hno _, fun hopen => (hno _ hopen).elim⟩
  have hno₁ (r : Io Unit) : ⟨.pipeRead p, r⟩ ∉ tr₁ := setup_no_gate hsetup rfl
  rcases h.of_bind_over hover with ⟨e, hgate, rfl⟩ | ⟨hgate, rfl⟩ |
    ⟨tr₂, tr₃, _, rfl, hgate, hexec⟩
  · -- the read of the gate has failed, and the child returns
    rcases freezeChild_over rfl hgate rfl with ⟨-, he⟩ | ⟨e', rfl, -⟩
    · cases he
    · exact iff_of_false (fun hends => nomatch hends.1) fun hgood => hgood.1 e' (by simp)
  · rcases freezeChild_over rfl hgate rfl with ⟨-, he⟩ | ⟨e', -, he⟩
    all_goals cases he
  obtain ⟨rfl, -⟩ : tr₂ = [⟨.pipeRead p, .ok ()⟩] ∧ _ := by
    rcases freezeChild_over rfl hgate rfl with hok | ⟨e', -, he⟩
    · exact hok
    · cases he
  have hno₃ (r : Io Unit) : ⟨.pipeRead p, r⟩ ∉ tr₃ := exec_no_read hexec
  have hnone : ∀ e, ⟨.pipeRead p, .error e⟩ ∉ tr₁ ++ ([⟨.pipeRead p, .ok ()⟩] ++ tr₃) := by
    intro e hmem
    simp [hno₁, hno₃] at hmem
  generalize hread : (⟨.pipeRead p, .ok ()⟩ : Sys.Ev) = read at hnone ⊢
  have hlast {ev : Sys.Ev} (hev : ev ∈ tr₃.getLast?) : (tr₁ ++ ([read] ++ tr₃)).getLast? = some ev := by
    rw [List.getLast?_append, List.getLast?_append, hev]
    rfl
  cases hsound : config.sound with
  | true =>
    obtain ⟨rfl, ev, hev, hend⟩ := halted (hexec.last (containerExec_last hsound)) hover
    exact iff_of_true ⟨rfl, ev, hlast hev, hend⟩ ⟨hnone, fun _ => rfl⟩
  | false =>
    obtain ⟨rfl, hpanic⟩ := halted (hexec.last (containerExec_panics hsound)) hover
    refine iff_of_false (fun hends => ?_) fun hgood => Bool.noConfusion (hgood.2 (by simp))
    obtain ⟨-, ev, hev, hend⟩ := hends
    cases hev.symm.trans (hlast hpanic)
    contradiction

/-! ### Two children that do not -/

/-- A command whose second string holds a NUL. -/
def nulConfig : Config :=
  { sampleConfig with process := some ⟨none, some ["/bin/echo", String.ofList ['a', '\x00']], "/"⟩ }

/-- The child of a configuration, where every call takes effect. -/
def childRun (config : Config) : List Sys.Ev × Core Unit :=
  follow (answers "/none") 40 (createChild "c" config ⟨some 0, some 0, none⟩)

def gateFails : Sys.Ev → Bool
  | ⟨.pipeRead _, .error _⟩ => true
  | _ => false

def unwinds : Sys.Ev → Bool
  | ⟨.panic, _⟩ => true
  | _ => false

theorem child_ends_inside_sample : ∃ (tr : List Sys.Ev) (q : Core Unit),
    Reaches (createChild "c" sampleConfig ⟨some 0, some 0, none⟩) tr q ∧ EndsInside tr q := by
  have h : isOver (childRun sampleConfig).2 = true ∧ ∀ ev ∈ (childRun sampleConfig).1, gateFails ev = false := by
    decide +kernel
  refine ⟨_, _, reaches_follow, (child_ends_inside reaches_follow h.1).mpr ⟨fun e hmem => ?_, fun _ => rfl⟩⟩
  exact Bool.noConfusion (h.2 _ hmem)

/-- The configuration is accepted, and the child panics. -/
theorem child_unwinds : ∃ (tr₀ tr : List Sys.Ev) (q : Core Unit),
    Reaches (Config.load "cfg") tr₀ (.ret nulConfig) ∧
    Reaches (createChild "c" nulConfig ⟨some 0, some 0, none⟩) tr q ∧ isOver q = true ∧
    (∃ ev ∈ tr.getLast?, unwinds ev = true) ∧ ¬EndsInside tr q := by
  have h : isOver (childRun nulConfig).2 = true ∧ (∃ ev ∈ (childRun nulConfig).1.getLast?, unwinds ev = true) ∧
      ∀ ev ∈ (childRun nulConfig).1.getLast?, endsInside ev = false := by
    decide +kernel
  have hload : Reaches (Config.load "cfg") [⟨.read (.host "cfg/config.json"), .ok (.config nulConfig)⟩]
      (.ret nulConfig) := .cons .nil
  refine ⟨_, _, _, hload, reaches_follow, h.1, h.2.1, fun hends => ?_⟩
  obtain ⟨-, ev, hev, hend⟩ := hends
  exact Bool.noConfusion (hend.symm.trans (h.2.2 ev hev))

end Clonebox
