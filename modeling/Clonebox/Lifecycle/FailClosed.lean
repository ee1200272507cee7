import Clonebox.System.GateUse
import Clonebox.System.Run

/-! # The setup of the child and its command

Each call of the setup is made through `child_try`, which ends the child when the call fails. The
last one, the change to the working directory, is made by `container_exec` itself, which does not
look at its answer. -/

namespace Clonebox
open Conc Prog

variable {α : Type} {id cwd : String} {config : Config} {p : Nat} {tr : List Sys.Ev}

/-- The calls by which the child sets itself up. -/
def Op.setsUp : Op → Bool
  | .mount _ _ _ _ _ | .sethostname _ | .createDirAll _ | .pivotRoot _ _ | .chdir _ | .umount2 _
  | .removeDir _ => true
  | _ => false

/-- A call of the setup that has failed. -/
def setupFails : Sys.Ev → Bool
  | ⟨.mount _ _ _ _ _, .error _⟩ | ⟨.sethostname _, .error _⟩ | ⟨.createDirAll _, .error _⟩
  | ⟨.pivotRoot _ _, .error _⟩ | ⟨.chdir _, .error _⟩ | ⟨.umount2 _, .error _⟩
  | ⟨.removeDir _, .error _⟩ => true
  | _ => false

/-- The child has read the byte. -/
def gateOpens : Sys.Ev → Bool
  | ⟨.pipeRead _, .ok ()⟩ => true
  | _ => false

/-- The start of the user's command. -/
def Op.commands : Op → Bool
  | .execve _ _ _ => true
  | _ => false

theorem gateOpens_iff {ev : Sys.Ev} : gateOpens ev = true ↔ ∃ p, ev = ⟨.pipeRead p, .ok ()⟩ := by
  constructor
  · intro h
    unfold gateOpens at h
    split at h
    · exact ⟨_, rfl⟩
    · contradiction
  · intro h
    obtain ⟨p, rfl⟩ := h
    rfl

theorem setsUp_of_fails {op : Op} {r : op.Ret} (h : setupFails ⟨op, r⟩ = true) :
    op.setsUp = true := by
  cases op <;> first | rfl | contradiction

/-- The command is started only when the setup is complete and all its calls have succeeded, and
once one of them has failed the child has nothing left to do but `_exit(1)`. -/
structure FailsClosed (id : String) (config : Config) (tr : List Sys.Ev) (q : Core Unit) : Prop where
  command : (∃ ev ∈ tr, ev.1.commands = true) → Completed (childSetup id config) tr ∧
    ⟨.chdir config.getProcessCwd, .ok ()⟩ ∈ tr ∧ ∀ ev ∈ tr, setupFails ev = false
  closed : (∃ ev ∈ tr, setupFails ev = true) → q = exit 1 ∨ q = .halt ∧ ⟨.exit 1, ()⟩ ∈ tr

/-- After the gate, the change to the working directory fails. -/
def CwdFails (config : Config) (tr : List Sys.Ev) : Prop :=
  ∃ tr₁ p tr₂ e, tr = tr₁ ++ ⟨.pipeRead p, .ok ()⟩ :: tr₂ ∧
    ⟨.chdir config.getProcessCwd, .error e⟩ ∈ tr₂

/-! ### The course of the child -/

/-- How far the child has come. -/
inductive Course where
  | setup
  /-- A call has failed. -/
  | failed
  | exited
  /-- The gate is open. -/
  | released
  /-- The working directory is changed, or was to be. -/
  | moved
  | commanded
  deriving DecidableEq

def coursing (cwd : String) : Proto Sys Course where
  may
    | .setup, op => op.commands = false
    | .failed, op => op = .exit 1
    | .exited, _ => False
    | .released, op => op.commands = false ∧ (op.setsUp = true → op = .chdir cwd)
    | .moved, op => op.commands = true
    | .commanded, op => op.commands = false ∧ op.setsUp = false
  next
    | .setup, op, r =>
      if gateOpens ⟨op, r⟩ then .released else if setupFails ⟨op, r⟩ then .failed else .setup
    | .failed, _, _ => .exited
    | .released, op, _ => if op.setsUp then .moved else .released
    | .moved, _, _ => .commanded
    | g, _, _ => g
  halts g := g ≠ .failed ∧ g ≠ .moved

section
attribute [local simp] forall_except coursing Op.setsUp Op.commands setupFails gateOpens Prog.obeys_call Prog.ask
  childTry exit panic

/-- A call through `child_try` either succeeds or leaves nothing but the exit. -/
theorem childTry_course {op : Core (Io Unit)} {Q : Course → Except CoreError Unit → Prop}
    (h : op.Obeys (coursing cwd) (fun g r => (r = .ok (.ok ()) ∧ g = .setup) ∨
      ∃ e, r = .ok (.error e) ∧ g = .failed) .setup) (hQ : Q .setup (.ok ())) :
    (childTry op).Obeys (coursing cwd) Q .setup := by
  refine obeys_bind.mpr (h.mono fun g r hr => ?_)
  rcases hr with ⟨rfl, rfl⟩ | ⟨e, rfl, rfl⟩
  · exact hQ
  · simp

theorem mountChild_course {src mountType data : Option String} {dest : String} {flags : List MsFlag}
    {Q : Course → Except CoreError Unit → Prop} (hQ : Q .setup (.ok ())) :
    (mountChild src dest mountType flags data).Obeys (coursing cwd) Q .setup :=
  childTry_course (by simp) hQ

theorem prePivotMount_course {newRoot : String} {mounts : List Mount}
    {Q : Course → Except CoreError String → Prop} (hQ : ∀ root, Q .setup (.ok root)) :
    (prePivotMount id newRoot mounts).Obeys (coursing cwd) Q .setup := by
  have hdir {β : Type} {path : Path} {f : Unit → Core β} {Q : Course → Except CoreError β → Prop}
      (hf : (f ()).Obeys (coursing cwd) Q .setup) :
      ((childTry (sys (.createDirAll path))).bind f).Obeys (coursing cwd) Q .setup :=
    obeys_bind.mpr (childTry_course (by simp) hf)
  refine obeys_bind.mpr (mountChild_course ?_)
  dsimp only
  cases mounts.find? Mount.isBind with
  | some m => exact obeys_bind.mpr (mountChild_course (hQ _))
  | none => exact hdir (hdir (hdir (obeys_bind.mpr (mountChild_course (hQ _)))))

theorem doPivotRoot_course {newRoot : String} {Q : Course → Except CoreError Unit → Prop}
    (hQ : Q .setup (.ok ())) : (doPivotRoot newRoot).Obeys (coursing cwd) Q .setup := by
  refine obeys_bind.mpr (childTry_course (by simp) ?_)
  refine obeys_bind.mpr (childTry_course (by simp) ?_)
  refine obeys_bind.mpr (childTry_course (by simp) ?_)
  exact obeys_bind.mpr (childTry_course (by simp) (childTry_course (by simp) hQ))

theorem postPivotMount_course {mounts : List Mount} {Q : Course → Except CoreError Unit → Prop}
    (hQ : Q .setup (.ok ())) : (postPivotMount mounts).Obeys (coursing cwd) Q .setup := by
  induction mounts with
  | nil => exact hQ
  | cons m mounts ih =>
    rw [postPivotMount]
    by_cases h : m.mountType = some "tmpfs"
    · rw [if_pos h]
      exact obeys_bind.mpr (mountChild_course ih)
    · rw [if_neg h]
      exact ih

theorem childSetup_course {Q : Course → Except CoreError Unit → Prop} (hQ : Q .setup (.ok ())) :
    (childSetup id config).Obeys (coursing cwd) Q .setup := by
  refine obeys_bind.mpr (mountChild_course ?_)
  refine obeys_bind.mpr (childTry_course (by simp) ?_)
  refine obeys_bind.mpr (prePivotMount_course fun root => ?_)
  refine obeys_bind.mpr (doPivotRoot_course ?_)
  refine obeys_bind.mpr (postPivotMount_course ?_)
  refine obeys_bind.mpr (mountChild_course ?_)
  exact obeys_bind.mpr (mountChild_course (mountChild_course hQ))

/-- `container_exec` with a working directory goes there and then starts the command. -/
theorem containerExec_course {args env : Option (List String)}
    {Q : Course → Except CoreError Unit → Prop} :
    (containerExec args env (some cwd) id).Obeys (coursing cwd) Q .released := by
  have hcommand (path : String) (ca ce : List String) :
      (execCommand id path ca ce : Core Unit).Obeys (coursing cwd) Q .moved := by
    simp [execCommand, writeLogFile, mapErr]
  have hvec {β : Type} {v : List String} {f : List String → Core β}
      {Q : Course → Except CoreError β → Prop} (hf : ∀ v, (f v).Obeys (coursing cwd) Q .released) :
      ((toCstringVec v).bind f).Obeys (coursing cwd) Q .released := by
    cases h : v.any hasNul with
    | true => simp [toCstringVec, h]
    | false =>
      rw [toCstringVec, if_neg (by simp [h])]
      exact hf v
  unfold containerExec
  split
  · simp
  · split
    · simp
    · refine hvec fun ca => hvec fun ce => ?_
      show Obeys _ _ _ (if hasNul cwd then _ else _)
      split
      · simp
      · exact ⟨by simp, fun r => hcommand ..⟩

/-- The child sets itself up, waits at the gate, changes its directory and starts the command. -/
theorem createChild_course : (createChild id config ⟨some p, some p, none⟩).Obeys
    (coursing config.getProcessCwd) (fun g _ => g = .setup) .setup := by
  rw [createChild_eq]
  refine obeys_bind.mpr (childSetup_course ?_)
  refine obeys_bind.mpr (obeys_mapErr.mpr ⟨rfl, fun r => ?_⟩)
  cases r with
  | ok _ => exact containerExec_course
  | error e => rfl
end

/-! ### What the trace tells -/

/-- No call of the setup has failed, and the command was not started. -/
def Clean (tr : List Sys.Ev) : Prop := ∀ ev ∈ tr, setupFails ev = false ∧ ev.1.commands = false

theorem Clean.snoc {ev : Sys.Ev} (h : Clean tr) (hf : setupFails ev = false)
    (hn : ev.1.commands = false) : Clean (tr ++ [ev]) := by
  intro ev' hev
  rcases List.mem_append.mp hev with hev | hev
  · exact h ev' hev
  · rw [List.mem_singleton.mp hev]
    exact ⟨hf, hn⟩

/-- The gate was opened before the directory is changed, and nothing has failed by then. -/
structure Ready (tr : List Sys.Ev) : Prop where
  gate : ∃ ev ∈ tr, gateOpens ev = true
  clean : Clean tr

/-- A call has failed before the gate. -/
structure Failed (tr : List Sys.Ev) : Prop where
  fails : ∃ ev ∈ tr, setupFails ev = true
  none : ∀ ev ∈ tr, ev.1.commands = false
  gate : ∀ ev ∈ tr, gateOpens ev = false

/-- What the trace of a child holds at each point of its course. -/
def Told (cwd : String) : Course → List Sys.Ev → Prop
  | .setup, tr => Clean tr ∧ ∀ ev ∈ tr, gateOpens ev = false
  | .failed, tr => Failed tr
  | .exited, tr => Failed tr ∧ ⟨.exit 1, ()⟩ ∈ tr
  | .released, tr => Ready tr
  | .moved, tr => ∃ r tr₁, tr = tr₁ ++ [⟨.chdir cwd, r⟩] ∧ Ready tr₁
  | .commanded, tr => ∃ r tr₁ tr₂, tr = tr₁ ++ ⟨.chdir cwd, r⟩ :: tr₂ ∧ Ready tr₁ ∧
      (∃ ev ∈ tr₂, ev.1.commands = true) ∧ ∀ ev ∈ tr₂, setupFails ev = false

theorem forall_snoc {P : Sys.Ev → Prop} {ev : Sys.Ev} (h : ∀ e ∈ tr, P e) (hev : P ev) :
    ∀ e ∈ tr ++ [ev], P e := by
  intro e he
  rcases List.mem_append.mp he with he | he
  · exact h e he
  · rw [List.mem_singleton.mp he]
    exact hev

theorem not_fails {op : Op} (h : op.setsUp = false) (r : op.Ret) : setupFails ⟨op, r⟩ = false := by
  cases hf : setupFails ⟨op, r⟩ with
  | false => rfl
  | true => exact (Bool.false_ne_true (h.symm.trans (setsUp_of_fails hf))).elim

theorem told (h : (coursing cwd).Follows .setup tr) :
    Told cwd ((coursing cwd).phase .setup tr) tr := by
  have hstart : Told cwd .setup [] := ⟨List.forall_mem_nil _, List.forall_mem_nil _⟩
  refine h.history hstart ?_
  intro g tr ev hmay hJ
  obtain ⟨op, r⟩ := ev
  cases g with
  | setup =>
    obtain ⟨hclean, hgate⟩ := hJ
    have hno : op.commands = false := hmay
    cases hg : gateOpens ⟨op, r⟩ with
    | true =>
      have hf : setupFails ⟨op, r⟩ = false := by
        obtain ⟨p, he⟩ := gateOpens_iff.mp hg
        rw [he]
        rfl
      rw [show (coursing cwd).next .setup op r = .released by simp [coursing, hg]]
      exact ⟨⟨_, List.mem_append_right _ List.mem_cons_self, hg⟩, forall_snoc hclean ⟨hf, hno⟩⟩
    | false =>
      cases hf : setupFails ⟨op, r⟩ with
      | true =>
        rw [show (coursing cwd).next .setup op r = .failed by simp [coursing, hg, hf]]
        exact ⟨⟨_, List.mem_append_right _ List.mem_cons_self, hf⟩,
          forall_snoc (fun ev hev => (hclean ev hev).2) hno, forall_snoc hgate hg⟩
      | false =>
        rw [show (coursing cwd).next .setup op r = .setup by simp [coursing, hg, hf]]
        exact ⟨forall_snoc hclean ⟨hf, hno⟩, forall_snoc hgate hg⟩
  | failed =>
    obtain rfl : op = .exit 1 := hmay
    obtain ⟨ev, hev, hf⟩ := hJ.fails
    exact ⟨⟨⟨ev, List.mem_append_left _ hev, hf⟩, forall_snoc hJ.none rfl, forall_snoc hJ.gate rfl⟩,
      List.mem_append_right _ List.mem_cons_self⟩
  | exited => exact hmay.elim
  | released =>
    obtain ⟨hno, hset⟩ := hmay
    cases hs : op.setsUp with
    | true =>
      obtain rfl : op = .chdir cwd := hset hs
      exact ⟨r, tr, rfl, hJ⟩
    | false =>
      rw [show (coursing cwd).next .released op r = .released by simp [coursing, hs]]
      obtain ⟨ev, hev, hg⟩ := hJ.gate
      exact ⟨⟨ev, List.mem_append_left _ hev, hg⟩, forall_snoc hJ.clean ⟨not_fails hs r, hno⟩⟩
  | moved =>
    obtain ⟨r', tr₁, rfl, hready⟩ := hJ
    have hcom : op.commands = true := hmay
    have hs : op.setsUp = false := by
      cases op <;> first | rfl | contradiction
    refine ⟨r', tr₁, [⟨op, r⟩], by simp, hready, ⟨_, List.mem_cons_self, hcom⟩, ?_⟩
    intro ev hev
    rw [List.mem_singleton.mp hev]
    exact not_fails hs r
  | commanded =>
    obtain ⟨r', tr₁, tr₂, rfl, hready, ⟨ev, hev, hcom⟩, hfine⟩ := hJ
    obtain ⟨hno, hs⟩ := hmay
    exact ⟨r', tr₁, tr₂ ++ [⟨op, r⟩], by simp, hready, ⟨ev, List.mem_append_left _ hev, hcom⟩,
      forall_snoc hfine (not_fails hs r)⟩

/-! ### The result -/

theorem CwdFails.fails (h : CwdFails config tr) : ∃ ev ∈ tr, setupFails ev = true := by
  obtain ⟨tr₁, p, tr₂, e, rfl, hev⟩ := h
  exact ⟨_, List.mem_append_right _ (List.mem_cons_of_mem _ hev), rfl⟩

theorem CwdFails.gate (h : CwdFails config tr) : ∃ ev ∈ tr, gateOpens ev = true := by
  obtain ⟨tr₁, p, tr₂, e, rfl, -⟩ := h
  exact ⟨_, List.mem_append_right _ List.mem_cons_self, rfl⟩

theorem Ready.cwdFails {tr₂ : List Sys.Ev} {e : Errno} (h : Ready tr) :
    CwdFails config (tr ++ ⟨.chdir config.getProcessCwd, .error e⟩ :: tr₂) := by
  obtain ⟨ev, hev, hg⟩ := h.gate
  obtain ⟨p, rfl⟩ := gateOpens_iff.mp hg
  obtain ⟨tr₁, tr', rfl⟩ := List.append_of_mem hev
  exact ⟨tr₁, p, tr' ++ ⟨.chdir config.getProcessCwd, .error e⟩ :: tr₂, e, by simp, by simp⟩

/-- Where nothing has failed and no command was started there is nothing to show. -/
theorem Clean.failsClosed {q : Core Unit} (h : Clean tr) : FailsClosed id config tr q where
  command := by
    intro hex
    obtain ⟨ev, hev, hcom⟩ := hex
    exact (Bool.false_ne_true ((h ev hev).2.symm.trans hcom)).elim
  closed := by
    intro hex
    obtain ⟨ev, hev, hf⟩ := hex
    exact (Bool.false_ne_true ((h ev hev).1.symm.trans hf)).elim

theorem Clean.not_cwdFails (h : Clean tr) : ¬CwdFails config tr := by
  intro hcwd
  obtain ⟨ev, hev, hf⟩ := hcwd.fails
  exact Bool.false_ne_true ((h ev hev).1.symm.trans hf)

theorem Failed.not_cwdFails (h : Failed tr) : ¬CwdFails config tr := by
  intro hcwd
  obtain ⟨ev, hev, hg⟩ := hcwd.gate
  exact Bool.false_ne_true ((h.gate ev hev).symm.trans hg)

theorem Failed.failsClosed {q : Core Unit} (h : Failed tr)
    (hq : q = exit 1 ∨ q = .halt ∧ ⟨.exit 1, ()⟩ ∈ tr) : FailsClosed id config tr q where
  command := by
    intro hex
    obtain ⟨ev, hev, hcom⟩ := hex
    exact (Bool.false_ne_true ((h.none ev hev).symm.trans hcom)).elim
  closed := fun _ => hq

/-- A program that may only exit does so. -/
theorem exits_of_failed {q : Core Unit} (h : q.Obeys (coursing cwd) (fun g _ => g = .setup) .failed) :
    q = exit 1 := by
  cases q with
  | ret | fail => cases h
  | halt => exact (h.1 rfl).elim
  | call op k =>
    obtain ⟨rfl, hk⟩ := h
    have hend : k () = .halt := by
      have hrest : (k ()).Obeys (coursing cwd) (fun g _ => g = .setup) .exited := hk ()
      cases hp : k () with
      | ret | fail =>
        rw [hp] at hrest
        cases hrest
      | halt => rfl
      | call op' k' =>
        rw [hp] at hrest
        exact hrest.1.elim
    exact congrArg (Prog.call (S := Sys) (Op.exit 1)) (funext fun _ => hend)

theorem not_plain {op : Op} (h : op.commands = true) : ¬op.plain = true := by
  cases op with
  | execve => exact Bool.false_ne_true
  | _ => contradiction

/-- For every configuration and every pattern of answers, the setup of the child fails closed if and
only if its last call, the change to the configured working directory, does not fail: that failure
is passed over, and the command is started where the child happens to be. -/
theorem fails_closed {id : String} {config : Config} {p : Nat} {tr : List Sys.Ev} {q : Core Unit}
    (h : Reaches (createChild id config ⟨some p, some p, none⟩) tr q) :
    FailsClosed id config tr q ↔ ¬CwdFails config tr := by
  obtain ⟨hpast, hrest⟩ := h.obeys createChild_course
  have htold := told hpast
  generalize (coursing config.getProcessCwd).phase .setup tr = g at hrest htold
  cases g with
  | setup => exact iff_of_true htold.1.failsClosed htold.1.not_cwdFails
  | failed =>
    exact iff_of_true (htold.failsClosed (.inl (exits_of_failed hrest))) htold.not_cwdFails
  | exited =>
    have hq : q = .halt := by
      cases q with
      | ret | fail => cases hrest
      | halt => rfl
      | call op k => exact hrest.1.elim
    exact iff_of_true (htold.1.failsClosed (.inr ⟨hq, htold.2⟩)) htold.1.not_cwdFails
  | released => exact iff_of_true htold.clean.failsClosed htold.clean.not_cwdFails
  | moved =>
    obtain ⟨r, tr₁, rfl, hready⟩ := htold
    cases r with
    | ok _ =>
      have hclean : Clean (tr₁ ++ [⟨.chdir config.getProcessCwd, .ok ()⟩]) :=
        hready.clean.snoc rfl rfl
      exact iff_of_true hclean.failsClosed hclean.not_cwdFails
    | error e =>
      refine iff_of_false (fun hclosed => ?_) (not_not.mpr hready.cwdFails)
      -- what comes next is the command, not the exit
      rcases hclosed.closed ⟨_, List.mem_append_right _ List.mem_cons_self, rfl⟩ with rfl | ⟨rfl, -⟩
      · exact Bool.false_ne_true hrest.1
      · exact hrest.2 rfl
  | commanded =>
    obtain ⟨r, tr₁, tr₂, rfl, hready, ⟨ev, hev, hcom⟩, hfine⟩ := htold
    have hmem : ev ∈ tr₁ ++ ⟨.chdir config.getProcessCwd, r⟩ :: tr₂ :=
      List.mem_append_right _ (List.mem_cons_of_mem _ hev)
    cases r with
    | ok _ =>
      have hall : ∀ ev ∈ tr₁ ++ ⟨.chdir config.getProcessCwd, .ok ()⟩ :: tr₂, setupFails ev = false := by
        intro ev hev
        rcases List.mem_append.mp hev with hev | hev
        · exact (hready.clean ev hev).1
        · rcases List.mem_cons.mp hev with rfl | hev
          · rfl
          · exact hfine ev hev
      have hset : Completed (childSetup id config)
          (tr₁ ++ ⟨.chdir config.getProcessCwd, .ok ()⟩ :: tr₂) :=
        (createChild_marks rfl h hmem (not_plain hcom)).1
      refine iff_of_true ⟨fun _ => ⟨hset, by simp, hall⟩, fun hex => ?_⟩ fun hcwd => ?_
      · obtain ⟨ev, hev, hf⟩ := hex
        exact (Bool.false_ne_true ((hall ev hev).symm.trans hf)).elim
      · obtain ⟨ev, hev, hf⟩ := hcwd.fails
        exact Bool.false_ne_true ((hall ev hev).symm.trans hf)
    | error e =>
      refine iff_of_false (fun hclosed => ?_) (not_not.mpr hready.cwdFails)
      obtain ⟨-, -, hall⟩ := hclosed.command ⟨ev, hmem, hcom⟩
      have hf := hall ⟨.chdir config.getProcessCwd, .error e⟩
        (List.mem_append_right _ List.mem_cons_self)
      exact Bool.false_ne_true hf.symm

/-- Every call takes effect, but for a change to a directory that is not there. -/
def answers (gone : String) (op : Op) : Option op.Ret :=
  match op with
  | .chdir path => some (if path = gone then .error .enoent else .ok ())
  | .pipeRead _ => some (.ok ())
  | op => (sampleHost.run 1 0 op).map (·.1)

/-- The sample configuration with a working directory of its own. -/
def cwdConfig : Config := { sampleConfig with process := some ⟨none, some ["/bin/sh"], "/srv"⟩ }

/-- The first 18 calls of the child, the command included. -/
def childCalls (gone : String) : List Sys.Ev × Core Unit :=
  follow (answers gone) 18 (createChild "c" cwdConfig ⟨some 0, some 0, none⟩)

theorem fails_closed_sample : ∃ (tr : List Sys.Ev) (q : Core Unit),
    Reaches (createChild "c" cwdConfig ⟨some 0, some 0, none⟩) tr q ∧
    (∃ ev ∈ tr, ev.1.commands = true) ∧ FailsClosed "c" cwdConfig tr q := by
  have h : (∃ ev ∈ (childCalls "/none").1, ev.1.commands = true) ∧
      ∀ ev ∈ (childCalls "/none").1, setupFails ev = false := by
    decide +kernel
  obtain ⟨hcom, hall⟩ := h
  refine ⟨_, _, reaches_follow, hcom, (fails_closed reaches_follow).mpr fun hcwd => ?_⟩
  obtain ⟨ev, hev, hf⟩ := hcwd.fails
  exact Bool.false_ne_true ((hall ev hev).symm.trans hf)

/-- The working directory is not there: the command is started all the same. -/
theorem cwd_passed_over : ∃ (tr : List Sys.Ev) (q : Core Unit),
    Reaches (createChild "c" cwdConfig ⟨some 0, some 0, none⟩) tr q ∧
    (∃ ev ∈ tr, setupFails ev = true) ∧ (∃ ev ∈ tr, ev.1.commands = true) ∧
    ¬FailsClosed "c" cwdConfig tr q := by
  have h : (∃ ev ∈ (childCalls "/srv").1, setupFails ev = true) ∧
      ∃ ev ∈ (childCalls "/srv").1, ev.1.commands = true := by
    decide +kernel
  obtain ⟨⟨ev, hev, hf⟩, hcom⟩ := h
  refine ⟨_, _, reaches_follow, ⟨ev, hev, hf⟩, hcom, fun hclosed => ?_⟩
  obtain ⟨-, -, hall⟩ := hclosed.command hcom
  exact Bool.false_ne_true ((hall ev hev).symm.trans hf)

end Clonebox
