import Clonebox.System.GateUse
import Clonebox.System.Run

/-! # Operations that fail

`start`, `pause`, `resume` and `kill` read the state, act on the container, and write the state.
What a failed run has done is read off its trace: a failure before the act leaves no mark, and one
after it, in the second part of the work on `state.json`, leaves the act done and the status not
written. -/

namespace Clonebox
open Conc Prog

variable {α : Type} {id : String} {tr : List Sys.Ev}

/-- The operations that act on a container and record it. -/
inductive Act where
  | turn (t : Turn)
  | kill
  deriving DecidableEq

def Act.op (id : String) : Act → Core Unit
  | .turn t => t.op id
  | .kill => Clonebox.kill id

abbrev freezer (id : String) : Path := .inCgroup id "cgroup" "freeze"

/-- The call that acts on the container has succeeded. -/
def takesEffect (id : String) : Act → Sys.Ev → Bool
  | .turn .start, ⟨.connect p, .ok ()⟩ => p = startSk id
  | .turn .pause, ⟨.write p _, .ok ()⟩ | .turn .resume, ⟨.write p _, .ok ()⟩ => p = freezer id
  | .kill, ⟨.kill _, .ok ()⟩ => true
  | _, _ => false

/-- `kill` has found no process to signal. -/
def findsNobody : Act → Sys.Ev → Bool
  | .kill, ⟨.kill _, .error e⟩ => e.code = Errno.esrch.code
  | _, _ => false

/-- A read or a write of the state file. -/
def Op.onStateFile (id : String) : Op → Bool
  | .read p | .write p _ => p = stateJson id
  | _ => false

/-- The last call is on the state file, and not the first on it: the second read, or the write. -/
def FailsLate (id : String) (tr : List Sys.Ev) : Prop :=
  ∃ tr₁ ev, tr = tr₁ ++ [ev] ∧ ev.1.onStateFile id = true ∧ ∃ ev' ∈ tr₁, ev'.1.onStateFile id = true

/-- Wherever the call was answered so, it has left the bundle as it was. -/
def LeavesBundle (id : String) (ev : Sys.Ev) : Prop :=
  ∀ (w : World) t ch w', w.exec t ev.1 ch = some (ev.2, w') → w'.bundle id = w.bundle id

/-- Wherever the call was answered so, it has left the state file as it was, or empty. -/
def WritesNothing (id : String) (ev : Sys.Ev) : Prop :=
  ∀ (w : World) t ch w', w.exec t ev.1 ch = some (ev.2, w') →
    w'.file id = w.file id ∨ w'.file id = none

theorem LeavesBundle.writesNothing {ev : Sys.Ev} (h : LeavesBundle id ev) : WritesNothing id ev :=
  fun w t ch w' hx => .inl (congrArg (·.bind Bundle.file) (h w t ch w' hx))

theorem leavesBundle_of_op {ev : Sys.Ev} (h : ev.1.bundleOf ≠ some id) : LeavesBundle id ev :=
  fun _ _ _ _ hx => World.exec_bundle hx h

/-- A connection that fails is not queued. -/
theorem leavesBundle_connect {e : Errno} :
    LeavesBundle id ⟨.connect (startSk id), .error e⟩ := by
  intro w t ch w' hx
  cases ch with
  | err e' =>
    obtain ⟨-, rfl⟩ : e' = e ∧ w = w' := by simpa [World.exec, Op.failure] using hx
    rfl
  | part e' => simp [World.exec, World.runPart] at hx
  | run n =>
    simp only [World.exec, World.run, World.connect] at hx
    split at hx
    · cases hx
      rfl
    · split at hx <;> cases hx
    · cases hx
      rfl

theorem writesNothing_write {s : State} {e : Errno} :
    WritesNothing id ⟨.write (stateJson id) (.state s), .error e⟩ := by
  intro w t ch w' hx
  rcases World.exec_write hx with ⟨he, -⟩ | ⟨e', -, h⟩
  · cases he
  · exact h

/-! ### The parts -/

/-- However a read of the state ends, it is one read. -/
theorem readStateFile_one {q : Core State} (h : Reaches (readStateFile id) tr q)
    (hq : (∃ s, q = .ret s) ∨ ∃ e, q = .fail e) : ∃ r, tr = [⟨.read (stateJson id), r⟩] := by
  rcases h.of_call with ⟨rfl, he⟩ | ⟨r, tr', rfl, hrest⟩
  · rcases hq with ⟨s, rfl⟩ | ⟨e, rfl⟩ <;> cases he
  · refine ⟨r, ?_⟩
    have hend : tr' = [] := by
      rcases r with e | (s | c | t)
      · by_cases hc : e.code = Errno.enoent.code
        · simp only [Prog.bind, hc] at hrest
          exact hrest.of_fail.1
        · simp only [Prog.bind, hc] at hrest
          exact hrest.of_fail.1
      · exact hrest.of_ret.1
      · exact hrest.of_fail.1
      · exact hrest.of_fail.1
    rw [hend]

/-- A write of the state that has failed. -/
theorem writeStateFile_fail {s : State} {e : CoreError}
    (h : Reaches (writeStateFile id s) tr (.fail e)) :
    ∃ d, tr = [⟨.write (stateJson id) (.state s), .error d⟩] := by
  rcases mapErr_fail h with h | ⟨d, h⟩
  · exact (sys_not_fail h).elim
  · exact ⟨d, reaches_sys h⟩

/-- The record of an operation, when it fails: the read alone, or the read and a failed write. -/
structure Unrecorded (id : String) (tr : List Sys.Ev) : Prop where
  late : ∃ tr₁ ev, tr = tr₁ ++ [ev] ∧ ev.1.onStateFile id = true
  nothing : ∀ ev ∈ tr, WritesNothing id ev

theorem unrecorded_write {s : State} {e : CoreError}
    (h : Reaches (writeStateFile id s) tr (.fail e)) : Unrecorded id tr := by
  obtain ⟨d, rfl⟩ := writeStateFile_fail h
  refine ⟨⟨[], _, rfl, decide_eq_true rfl⟩, fun ev hev => ?_⟩
  rw [List.mem_singleton.mp hev]
  exact writesNothing_write

theorem readEvent_on {r : Io Content} :
    (⟨.read (stateJson id), r⟩ : Sys.Ev).1.onStateFile id = true := decide_eq_true rfl

theorem readEvent_leaves {r : Io Content} : LeavesBundle id ⟨.read (stateJson id), r⟩ :=
  leavesBundle_of_op nofun

theorem unrecorded_update {f : State → State} {e : CoreError}
    (h : Reaches (updateState id f) tr (.fail e)) : Unrecorded id tr := by
  rcases h.of_bind_fail with h | ⟨tr₁, tr₂, s, rfl, h₁, h₂⟩
  · obtain ⟨r, rfl⟩ := readStateFile_one h (.inr ⟨e, rfl⟩)
    refine ⟨⟨[], _, rfl, decide_eq_true rfl⟩, fun ev hev => ?_⟩
    rw [List.mem_singleton.mp hev]
    exact readEvent_leaves.writesNothing
  · obtain ⟨r, rfl⟩ := readStateFile_one h₁ (.inl ⟨s, rfl⟩)
    rcases h₂.of_bind_fail with h₂ | ⟨tr₃, tr₄, u, rfl, -, h₄⟩
    · obtain ⟨⟨tr₃, ev, rfl, hlast⟩, hnone⟩ := unrecorded_write h₂
      refine ⟨⟨_ :: tr₃, ev, rfl, hlast⟩, fun ev' hev => ?_⟩
      rcases List.mem_cons.mp hev with rfl | hev
      · exact readEvent_leaves.writesNothing
      · exact hnone ev' hev
    · cases h₄.of_ret.2

/-- A call of the act that has left no mark. -/
structure NoEffect (act : Act) (id : String) (ev : Sys.Ev) : Prop where
  none : takesEffect id act ev = false
  leaves : LeavesBundle id ev
  elsewhere : ev.1.onStateFile id = false

theorem noEffect_of_op {act : Act} {ev : Sys.Ev} (h : takesEffect id act ev = false)
    (hb : ev.1.bundleOf = none) (hs : ev.1.onStateFile id = false) : NoEffect act id ev :=
  ⟨h, leavesBundle_of_op (by simp [hb]), hs⟩

/-- What the act leaves when it fails, and when it succeeds. -/
structure Acts (act : Act) (id : String) (effect : Core Unit) : Prop where
  fails : ∀ {tr e}, Reaches effect tr (.fail e) → ∀ ev ∈ tr, NoEffect act id ev
  done : ∀ {tr}, Reaches effect tr (.ret ()) →
    (∃ ev ∈ tr, takesEffect id act ev = true ∨ findsNobody act ev = true) ∧
      ∀ ev ∈ tr, WritesNothing id ev

theorem connect_acts : Acts (.turn .start) id (connectCreateProcess id) where
  fails := by
    intro tr e h
    have hsocket (r : Io Unit) : NoEffect (.turn .start) id ⟨.socket, r⟩ := noEffect_of_op rfl rfl rfl
    rcases h.of_bind_fail with h | ⟨tr₁, tr₂, _, rfl, h₁, h₂⟩
    · rcases mapErr_fail h with h | ⟨d, h⟩
      · exact (sys_not_fail h).elim
      · rw [reaches_sys h]
        exact List.forall_mem_singleton.mpr (hsocket _)
    · rw [reaches_sys (reaches_mapErr h₁)]
      rcases h₂.of_bind_fail with h₂ | ⟨tr₃, tr₄, p, rfl, h₃, h₄⟩
      · rw [unixAddr_fail h₂]
        exact List.forall_mem_singleton.mpr (hsocket _)
      · obtain ⟨rfl, rfl⟩ := unixAddr_ret h₃
        rcases mapErr_fail h₄ with h₄ | ⟨d, h₄⟩
        · exact (sys_not_fail h₄).elim
        · rw [reaches_sys h₄]
          refine List.forall_mem_cons.mpr ⟨hsocket _, List.forall_mem_singleton.mpr ?_⟩
          exact ⟨rfl, leavesBundle_connect, rfl⟩
  done := by
    intro tr h
    obtain ⟨tr₁, tr₂, _, rfl, h₁, h₂⟩ := h.of_bind_ret
    obtain ⟨tr₃, tr₄, p, rfl, h₃, h₄⟩ := h₂.of_bind_ret
    obtain ⟨rfl, rfl⟩ := unixAddr_ret h₃
    rw [reaches_sys (reaches_mapErr h₁), reaches_sys (reaches_mapErr h₄)]
    refine ⟨⟨_, List.mem_cons_of_mem _ List.mem_cons_self, .inl (decide_eq_true rfl)⟩, fun ev hev => ?_⟩
    intro w t ch w' hx
    refine .inl (World.exec_file hx ?_)
    rcases List.mem_cons.mp hev with rfl | hev
    · exact nofun
    · rw [List.mem_singleton.mp hev]
      exact nofun

theorem setCgroup_acts {t : Turn} {value : String} (ht : t ≠ .start) :
    Acts (.turn t) id (setCgroup id "cgroup" "freeze" value) where
  fails := by
    intro tr e h
    rcases mapErr_fail h with h | ⟨d, h⟩
    · exact (sys_not_fail h).elim
    · rw [reaches_sys h]
      refine List.forall_mem_singleton.mpr (noEffect_of_op ?_ rfl (by simp [Op.onStateFile]))
      cases t <;> rfl
  done := by
    intro tr h
    rw [reaches_sys (reaches_mapErr h)]
    refine ⟨⟨_, List.mem_cons_self, .inl ?_⟩, fun ev hev => ?_⟩
    · cases t with
      | start => exact (ht rfl).elim
      | pause | resume => exact decide_eq_true rfl
    · rw [List.mem_singleton.mp hev]
      exact (leavesBundle_of_op (by simp [Op.bundleOf])).writesNothing

theorem sendKill_acts {pid : Int} : Acts .kill id (sendKill pid) where
  fails := by
    intro tr e h
    rcases h.of_bind_fail with h | ⟨tr₁, tr₂, r, rfl, h₁, h₂⟩
    · exact (sys_not_fail h).elim
    · rw [reaches_sys h₁]
      cases r with
      | ok _ => cases h₂.of_ret.2
      | error d =>
        rw [throwIf_nil h₂]
        exact List.forall_mem_singleton.mpr (noEffect_of_op rfl rfl rfl)
  done := by
    intro tr h
    obtain ⟨tr₁, tr₂, r, rfl, h₁, h₂⟩ := h.of_bind_ret
    rw [reaches_sys h₁]
    have hleaves (r : Io Unit) : ∀ ev ∈ [(⟨.kill pid, r⟩ : Sys.Ev)], WritesNothing id ev :=
      List.forall_mem_singleton.mpr (leavesBundle_of_op (by simp [Op.bundleOf])).writesNothing
    cases r with
    | ok _ =>
      rw [h₂.of_ret.1]
      exact ⟨⟨_, List.mem_cons_self, .inl rfl⟩, hleaves _⟩
    | error d =>
      by_cases hd : d.code = Errno.esrch.code
      · rw [throwIf_nil h₂]
        exact ⟨⟨_, List.mem_cons_self, .inr (decide_eq_true hd)⟩, hleaves _⟩
      · have hthrow : Reaches (throwIf (d.code ≠ Errno.esrch.code) (CoreError.other d.display)) tr₂
            (.ret ()) := h₂
        rw [throwIf, if_pos hd] at hthrow
        cases hthrow.of_fail.2

/-! ### The operations -/

/-- The three points an operation can fail at: before its act, in it, and in the record of it. -/
inductive FailsAt (act : Act) (id : String) : List Sys.Ev → Prop
  | check {r} : FailsAt act id [⟨.read (stateJson id), r⟩]
  | act {r tr} (h : ∀ ev ∈ tr, NoEffect act id ev) : FailsAt act id (⟨.read (stateJson id), r⟩ :: tr)
  | record {r tr₁ tr₂}
    (hact : ∃ ev ∈ tr₁, takesEffect id act ev = true ∨ findsNobody act ev = true)
    (hnothing : ∀ ev ∈ tr₁, WritesNothing id ev) (hrecord : Unrecorded id tr₂) :
    FailsAt act id (⟨.read (stateJson id), r⟩ :: (tr₁ ++ tr₂))

theorem failsAt {act : Act} {check : State → Core α} {effect : α → Core Unit} {record : State → Core Unit}
    {e : CoreError} (hcheck : ∀ s tr q, Reaches (check s) tr q → tr = [])
    (heffect : ∀ a, Acts act id (effect a))
    (hrecord : ∀ s tr e, Reaches (record s) tr (.fail e) → Unrecorded id tr)
    (h : Reaches ((readStateFile id).bind fun s => (check s).bind fun a =>
      (effect a).bind fun _ => record s) tr (.fail e)) : FailsAt act id tr := by
  rcases h.of_bind_fail with h | ⟨tr₁, tr₂, s, rfl, h₁, h₂⟩
  · obtain ⟨r, rfl⟩ := readStateFile_one h (.inr ⟨e, rfl⟩)
    exact .check
  · obtain ⟨r, rfl⟩ := readStateFile_one h₁ (.inl ⟨s, rfl⟩)
    rcases h₂.of_bind_fail with h₂ | ⟨tr₃, tr₄, a, rfl, h₃, h₄⟩
    · obtain rfl := hcheck _ _ _ h₂
      exact .check
    · obtain rfl := hcheck _ _ _ h₃
      rcases h₄.of_bind_fail with h₄ | ⟨tr₅, tr₆, u, rfl, h₅, h₆⟩
      · exact .act ((heffect a).fails h₄)
      · obtain ⟨hact, hnothing⟩ := (heffect a).done h₅
        simp only [List.cons_append, List.nil_append]
        exact .record hact hnothing (hrecord _ _ _ h₆)

theorem turn_failsAt {t : Turn} {e : CoreError} (h : Reaches (t.op id) tr (.fail e)) :
    FailsAt (.turn t) id tr := by
  have hshape {required : ContainerState} {refusal : CoreError} {effect : Core Unit} {set : State → State}
      (heffect : Acts (.turn t) id effect)
      (h : Reaches (transition id required refusal effect set) tr (.fail e)) :
      FailsAt (.turn t) id tr := by
    refine failsAt (fun s tr q h => throwIf_nil h) (fun _ => heffect) (fun s tr e h => ?_) h
    rcases h.of_bind_fail with h | ⟨_, _, _, rfl, -, h⟩
    · exact unrecorded_update h
    · cases h.of_ret.2
  cases t with
  | start => exact hshape connect_acts h
  | pause => exact hshape (setCgroup_acts nofun) h
  | resume => exact hshape (setCgroup_acts nofun) h

theorem kill_failsAt {e : CoreError} (h : Reaches (kill id) tr (.fail e)) : FailsAt .kill id tr := by
  refine failsAt (fun s tr q h => ?_) (fun pid => sendKill_acts) (fun s tr e h => unrecorded_write h) h
  cases ht : killTarget id s with
  | ok pid =>
    rw [ht] at h
    exact h.of_ret.1
  | error e =>
    rw [ht] at h
    exact h.of_fail.1

theorem Act.failsAt {act : Act} {e : CoreError} (h : Reaches (act.op id) tr (.fail e)) :
    FailsAt act id tr := by
  cases act with
  | turn t => exact turn_failsAt h
  | kill => exact kill_failsAt h

theorem not_failsLate {ev : Sys.Ev} (h : ∀ ev ∈ tr, ev.1.onStateFile id = false) :
    ¬FailsLate id (ev :: tr) := by
  intro hlate
  obtain ⟨tr₁, last, he, hlast, ev', hmem, -⟩ := hlate
  cases tr₁ with
  | nil => contradiction
  | cons first tr₁ =>
    obtain ⟨-, rfl⟩ := List.cons_eq_cons.mp he
    have hoff := h last (List.mem_append_right _ List.mem_cons_self)
    exact Bool.false_ne_true (hoff.symm.trans hlast)

/-- An operation that fails before its second call on the state file has had no effect, neither on
the container nor on its bundle. One that fails there has acted on the container, or `kill` has
found nobody to signal, and has written no state. -/
theorem failed_operation {act : Act} {id : String} {tr : List Sys.Ev} {e : CoreError}
    (h : Reaches (act.op id) tr (.fail e)) :
    (¬FailsLate id tr → ∀ ev ∈ tr, takesEffect id act ev = false ∧ LeavesBundle id ev) ∧
    (FailsLate id tr → (∃ ev ∈ tr, takesEffect id act ev = true ∨ findsNobody act ev = true) ∧
      ∀ ev ∈ tr, WritesNothing id ev) := by
  have hread {r : Io Content} : takesEffect id act ⟨.read (stateJson id), r⟩ = false := by
    rcases act with (_ | _ | _) | _ <;> rfl
  cases Act.failsAt h with
  | @check r =>
    have hnot : ¬FailsLate id [⟨.read (stateJson id), r⟩] := not_failsLate (List.forall_mem_nil _)
    refine ⟨fun _ => ?_, fun hlate => (hnot hlate).elim⟩
    exact List.forall_mem_singleton.mpr ⟨hread, readEvent_leaves⟩
  | @act r tr hquiet =>
    have hnot : ¬FailsLate id (⟨.read (stateJson id), r⟩ :: tr) :=
      not_failsLate fun ev hev => (hquiet ev hev).elsewhere
    refine ⟨fun _ => ?_, fun hlate => (hnot hlate).elim⟩
    refine List.forall_mem_cons.mpr ⟨⟨hread, readEvent_leaves⟩, fun ev hev => ?_⟩
    exact ⟨(hquiet ev hev).none, (hquiet ev hev).leaves⟩
  | @record r tr₁ tr₂ hact hnothing hrecord =>
    obtain ⟨⟨tr₃, last, rfl, hlast⟩, hnone⟩ := hrecord
    have hlate : FailsLate id (⟨.read (stateJson id), r⟩ :: (tr₁ ++ (tr₃ ++ [last]))) :=
      ⟨⟨.read (stateJson id), r⟩ :: (tr₁ ++ tr₃), last, by simp, hlast, _, List.mem_cons_self,
        readEvent_on⟩
    refine ⟨fun hnot => (hnot hlate).elim, fun _ => ⟨?_, ?_⟩⟩
    · obtain ⟨ev, hev, h⟩ := hact
      exact ⟨ev, List.mem_cons_of_mem _ (List.mem_append_left _ hev), h⟩
    · intro ev hev
      rcases List.mem_cons.mp hev with rfl | hev
      · exact readEvent_leaves.writesNothing
      · rcases List.mem_append.mp hev with hev | hev
        · exact hnothing ev hev
        · exact hnone ev hev

/-- A running container, as its state file has it. -/
def unpausedState : State := (initialState sampleConfig "c").setCreated 7 |>.setRunning

/-- `pause` whose write of the freezer fails. -/
theorem failed_operation_sample : ∃ (tr : List Sys.Ev) (e : CoreError),
    Reaches ((Act.turn .pause).op "c") tr (.fail e) ∧ tr.length = 2 ∧
    ∀ ev ∈ tr, takesEffect "c" (.turn .pause) ev = false ∧ LeavesBundle "c" ev := by
  have h : Reaches ((Act.turn .pause).op "c")
      [⟨.read (stateJson "c"), .ok (.state unpausedState)⟩,
        ⟨.write (freezer "c") (.text "1"), .error .enoent⟩] (.fail _) := .cons (.cons .nil)
  have hearly : ¬FailsLate "c" [⟨.read (stateJson "c"), .ok (.state unpausedState)⟩,
      ⟨.write (freezer "c") (.text "1"), .error .enoent⟩] :=
    not_failsLate (List.forall_mem_singleton.mpr (by simp [Op.onStateFile]))
  exact ⟨_, _, h, rfl, (failed_operation h).1 hearly⟩

/-- `start` cannot write the status: it fails, and the gate is open all the same. -/
theorem start_fails_open : ∃ (c : SysConf) (th : SysThread),
    Steps system.step (fun _ _ => True) (fresh sampleHost) c ∧ c.threads[2]? = some th ∧
    th.main = .turn .start "c" ∧ (fault th).isSome = true ∧
    (∃ ev ∈ th.trace, takesEffect "c" (.turn .start) ev = true) ∧
    c.world.gate 0 = true ∧ ∃ s, c.world.file "c" = some s ∧ s.status = .created := by
  have h : ∃ c ∈ runActions system.step (fun _ _ => True) (fresh sampleHost)
      (supervise "c" ++ begin "c" 4 ++ [.call 2 (.err .ebusy)] ++ goes 2 0),
      ∃ th ∈ c.threads[2]?, th.main = .turn .start "c" ∧ (fault th).isSome = true ∧
        (∃ ev ∈ th.trace, takesEffect "c" (.turn .start) ev = true) ∧ c.world.gate 0 = true ∧
        ∃ s ∈ c.world.file "c", s.status = .created := by
    decide +kernel
  obtain ⟨c, hrun, th, hi, hmain, hfail, heff, hgate, hfile⟩ := h
  exact ⟨c, th, .of_runActions hrun, hi, hmain, hfail, heff, hgate, hfile⟩

end Clonebox
