import Clonebox.Lifecycle.FailedOperation

/-! # Freezer and status

`pause` and `resume` read the status, write `cgroup.freeze`, and then read and write `state.json`.
Two calls that overlap can write the freezer in one order and the status in the other. -/

namespace Clonebox
open Conc Prog

variable {id : String} {c c' : SysConf} {a : SysAction} {t : Turn}

/-! ### One call -/

/-- What the operation writes to `cgroup.freeze`. -/
def Turn.freeze : Turn → String
  | .pause => "1"
  | _ => "0"

/-- How far a call of `pause` or `resume` has come. -/
inductive FreezeStage where
  | idle
  | refused
  | checked
  /-- `cgroup.freeze` is written. -/
  | acted
  | reread (s : State)
  | recorded
  deriving DecidableEq

namespace FreezeStage

def may (t : Turn) (id : String) (g : FreezeStage) (op : Op) : Prop :=
  match g with
  | .idle | .acted => op = .read (stateJson id)
  | .checked => op = .write (freezer id) (.text t.freeze)
  | .reread s => op = .write (stateJson id) (.state (t.set s))
  | .recorded => op = .setEntry id t.target
  | .refused => False

def next (t : Turn) : FreezeStage → (op : Op) → op.Ret → FreezeStage
  | .idle, .read _, r =>
    (parsed r).elim .refused fun s => if s.status = t.required then .checked else .refused
  | .checked, .write _ _, r => match r with | .ok () => .acted | .error _ => .refused
  | .acted, .read _, r => (parsed r).elim .refused .reread
  | .reread _, .write _ _, r => match r with | .ok () => .recorded | .error _ => .refused
  | g, _, _ => g

/-- The freezer is written and the status is not. -/
def between : FreezeStage → Bool
  | .acted | .reread _ => true
  | _ => false

end FreezeStage

def freezeProto (t : Turn) (id : String) : Proto Sys FreezeStage :=
  ⟨FreezeStage.may t id, FreezeStage.next t, fun _ => False⟩

section
attribute [local simp] forall_except forall_content obeys_mapErr obeys_call Prog.ask Except.mapError
  parsed freezeProto FreezeStage.may FreezeStage.next transition readStateFile updateState
  writeStateFile setCgroup Turn.required Turn.set Turn.freeze

theorem freeze_obeys (ht : t ≠ .start) (id : String) :
    Obeys (freezeProto t id) (fun g r => ∀ a, r = .ok a → g = .recorded) .idle (t.op id) := by
  cases t with
  | start => contradiction
  | pause => simp +contextual [Turn.op, pause]
  | resume => simp +contextual [Turn.op, resume]
end

/-- The operation by itself, or in the handler of a request. -/
theorem main_freezes {m : Main} (hk : m.kind = .turn t id) (ht : t ≠ .start) :
    Obeys (freezeProto t id) (fun _ _ => True) .idle m.prog := by
  have hcore := freeze_obeys ht id
  have hmirror : Obeys (freezeProto t id) (fun _ _ => True) .idle
      ((Cloneboxd.mirror id (t.op id) t.target).mapError Fault.status) := by
    refine obeys_mapError.mpr (obeys_bind.mpr (obeys_mapError.mpr (hcore.mono fun g r h => ?_)))
    cases r with
    | error e => trivial
    | ok a =>
      obtain rfl := h a rfl
      exact ⟨rfl, fun _ => trivial⟩
  cases m with
  | turn t' id' =>
    cases hk
    refine obeys_bind.mpr (obeys_mapError.mpr (hcore.mono fun g r _ => ?_))
    cases r <;> trivial
  | rpc req =>
    cases req with
    | start => cases hk; contradiction
    | pause | resume => cases hk; exact hmirror
    | create | kill | delete | state | exec | wait | list => cases hk
  | create | kill | delete | state | exec | shim => cases hk

/-! ### The threads -/

/-- How far the thread has come, if it is one of `t`. -/
def freezeStage (t : Turn) (id : String) (th : SysThread) : FreezeStage :=
  (freezeProto t id).phase .idle th.trace

/-- The operation of a thread that runs `pause` or `resume`. -/
def freezing (id : String) (th : SysThread) : Option Turn :=
  match kindOf th with
  | .turn .start _ => none
  | .turn t n => if n = id then some t else none
  | _ => none

theorem freezing_some {th : SysThread} (h : freezing id th = some t) :
    t ≠ .start ∧ kindOf th = .turn t id := by
  unfold freezing at h
  split at h
  · contradiction
  · rename_i t' n hne hk
    split at h
    · rename_i hn
      cases h
      subst hn
      exact ⟨hne, hk⟩
    · contradiction
  · contradiction

theorem freezing_main {th th' : SysThread} (h : th'.main = th.main) :
    freezing id th' = freezing id th := by
  simp only [freezing, kindOf, h]

/-- The thread has written the freezer of the container, and not yet its status. -/
def Between (id : String) (th : SysThread) : Prop :=
  ∃ t ∈ freezing id th, (freezeStage t id th).between = true

instance {th : SysThread} : Decidable (Between id th) :=
  inferInstanceAs (Decidable (∃ t ∈ freezing id th, (freezeStage t id th).between = true))

theorem freeze_may {th : SysThread} {op : Op} {k : op.Ret → Prog Sys Fault Reply}
    (ht : (system.prog th.main).Reaches th.trace th.prog) (hf : freezing id th = some t)
    (hp : th.prog = .call op k) : (freezeStage t id th).may t id op := by
  obtain ⟨hne, hk⟩ := freezing_some hf
  have hobeys := (ht.obeys (main_freezes hk hne)).2
  rw [hp] at hobeys
  exact hobeys.1

theorem freezeStage_answer {th : SysThread} {op : Op} {k : op.Ret → Prog Sys Fault Reply}
    {r : op.Ret} : freezeStage t id (th.answer op k r) = (freezeStage t id th).next t op r :=
  Proto.phase_snoc ..

/-! ### The condition -/

/-- The freezer is frozen if and only if the status is `paused`. -/
def Agree (id : String) (w : World) : Prop :=
  ∃ s ∈ w.file id, (w.files (freezer id) = some (.text "1") ↔ s.status = .paused)

instance {w : World} : Decidable (Agree id w) :=
  inferInstanceAs (Decidable (∃ s ∈ w.file id, (_ ↔ _)))

def Op.writesStatus (id : String) : Op → Bool
  | .write p _ => p = stateJson id
  | _ => false

/-- The call writes the status or the freezer of the container. -/
def Op.records (id : String) : Op → Bool
  | .write p _ => p = stateJson id ∨ p = freezer id
  | .removeDirAll p => p = .bundle id
  | _ => false

/-- A read or a write has failed. -/
def ioFails : Sys.Ev → Bool
  | ⟨.read _, .error _⟩ | ⟨.write _ _, .error _⟩ => true
  | _ => false

/-- Only calls of `pause` and `resume` write the status and the freezer, and these do not fail. -/
def OnlyFreezes (id : String) (c : SysConf) (a : SysAction) : Prop :=
  ∀ x ∈ system.event c a, ∀ th ∈ c.threads[x.1]?,
    if (freezing id th).isSome then ioFails x.2 = false else x.2.1.records id = false

instance : Decidable (OnlyFreezes id c a) :=
  inferInstanceAs (Decidable (∀ x ∈ system.event c a, ∀ th ∈ c.threads[x.1]?,
    if (freezing id th).isSome then ioFails x.2 = false else x.2.1.records id = false))

/-- After each step: if no call is between its two writes, freezer and status agree. -/
def KeepsAgreed (id : String) (c : SysConf) (a : SysAction) : Prop :=
  OnlyFreezes id c a ∧ ∀ c' ∈ system.step c a, (∀ th ∈ c'.threads, ¬Between id th) →
    Agree id c'.world

/-- The call that writes the status when no other is between its two writes finds the freezer as
it has written it. -/
def RecordsOwn (id : String) (c : SysConf) (a : SysAction) : Prop :=
  OnlyFreezes id c a ∧ ∀ x ∈ system.event c a, x.2.1.writesStatus id = true →
    ∀ th ∈ c.threads[x.1]?, ∀ t ∈ freezing id th, (∀ y ∈ c.threads.zipIdx, y.2 ≠ x.1 → ¬Between id y.1) →
      (c.world.files (freezer id) = some (.text "1") ↔ t = .pause)

instance : Decidable (RecordsOwn id c a) :=
  inferInstanceAs (Decidable (_ ∧ ∀ x ∈ system.event c a, x.2.1.writesStatus id = true →
    ∀ th ∈ c.threads[x.1]?, ∀ t ∈ freezing id th,
      (∀ y ∈ c.threads.zipIdx, y.2 ≠ x.1 → ¬Between id y.1) →
      (c.world.files (freezer id) = some (.text "1") ↔ t = .pause)))

/-! ### One step -/

theorem not_records {op : Op} (h : op.records id = false) :
    op.fileOf ≠ some id ∧ ∀ c, op ≠ .write (freezer id) c := by
  refine ⟨fun hf => ?_, fun c e => ?_⟩
  · unfold Op.fileOf at hf
    split at hf <;> cases hf <;> simp [Op.records] at h
  · subst e
    simp [Op.records] at h

theorem records_of_writesStatus {op : Op} (h : op.writesStatus id = true) :
    op.records id = true := by
  unfold Op.writesStatus at h
  split at h
  · simp only [decide_eq_true_eq] at h
    simp [Op.records, h]
  · contradiction

/-- A step whose call writes neither leaves status and freezer as they are. -/
theorem record_kept (hs : system.step c a = some c')
    (hx : ∀ x ∈ system.event c a, x.2.1.records id = false) :
    c'.world.file id = c.world.file id ∧
      c'.world.files (freezer id) = c.world.files (freezer id) := by
  rcases step_world hs with ⟨i, op, r, ch, he, hx'⟩ | e | ⟨e, -, he⟩ | ⟨t, -, e⟩
  · obtain ⟨hf, hw⟩ := not_records (hx _ he)
    exact ⟨World.exec_file hx' hf, World.exec_files hx' hw⟩
  · rw [e]
    exact ⟨rfl, rfl⟩
  · exact ⟨World.env_file he, congrFun (World.env_files he) _⟩
  · rw [e]
    exact ⟨World.crash_file, rfl⟩

/-- A thread that does not call stays where it is. -/
theorem between_kept {j : Nat} {th : SysThread} (hs : system.step c a = some c')
    (hj : c.threads[j]? = some th) (hne : ∀ x ∈ system.event c a, x.1 ≠ j) :
    ∃ th', c'.threads[j]? = some th' ∧ (Between id th' ↔ Between id th) := by
  obtain ⟨th', hj', rfl | rfl | ⟨op, k, r, ch, rfl, hst, hp, hx, rfl⟩⟩ := Machine.step_persists hs hj
  · exact ⟨_, hj', .rfl⟩
  · exact ⟨_, hj', .rfl⟩
  · exact (hne _ (event_call hj hst hp hx) rfl).elim

/-- What a call of `pause` or `resume` comes to with one more answer. -/
theorem between_answer {th : SysThread} {op : Op} {k : op.Ret → Prog Sys Fault Reply} {r : op.Ret} :
    Between id (th.answer op k r) ↔
      ∃ t ∈ freezing id th, ((freezeStage t id th).next t op r).between = true := by
  have hmain : freezing id (th.answer op k r) = freezing id th := freezing_main rfl
  simp only [Between, hmain, freezeStage_answer]

/-- If status and freezer stay, and no call leaves the place between its writes, what held still
holds. -/
theorem agree_kept (h : (∀ th ∈ c.threads, ¬Between id th) → Agree id c.world)
    (hrec : c'.world.file id = c.world.file id ∧
      c'.world.files (freezer id) = c.world.files (freezer id))
    (hthreads : ∀ (j : Nat) th, c.threads[j]? = some th → Between id th →
      ∃ th' ∈ c'.threads, Between id th') (hnone : ∀ th ∈ c'.threads, ¬Between id th) :
    Agree id c'.world := by
  have hbefore : ∀ th ∈ c.threads, ¬Between id th := by
    intro th hth hb
    obtain ⟨j, hj⟩ := List.mem_iff_getElem?.mp hth
    obtain ⟨th', hth', hb'⟩ := hthreads j th hj hb
    exact hnone th' hth' hb'
  obtain ⟨s, hs, hiff⟩ := h hbefore
  refine ⟨s, ?_, ?_⟩
  · rw [hrec.1]
    exact hs
  · rw [hrec.2]
    exact hiff

/-- A read that succeeds yields the state in the file. -/
theorem World.exec_read_ok {w w' : World} {i : Nat} {ch : Choice} {x : Content} {s : State}
    (h : w.exec i (.read (stateJson id)) ch = some (.ok x, w')) (hs : w.file id = some s) :
    w' = w ∧ parsed (.ok x) = some s := by
  refine ⟨(World.exec_read h).1, ?_⟩
  cases ch with
  | err e => simp [exec, Op.failure] at h
  | part e => simp [exec, runPart] at h
  | run n =>
    obtain ⟨hx, -⟩ : w.readFile (stateJson id) = .ok x ∧ w = w' := by simpa [exec, run] using h
    rw [← hx, readFile_of_file hs]
    rfl

/-- The thread whose call a step answers, before and after. -/
theorem event_continues {i : Nat} {op : Op} {r : op.Ret} (he : system.event c a = some (i, ⟨op, r⟩))
    (hs : system.step c a = some c') :
    ∃ (th : SysThread) (k : op.Ret → Prog Sys Fault Reply) (ch : Choice),
      c.threads[i]? = some th ∧ th.prog = .call op k ∧
        c.world.exec i op ch = some (r, c'.world) ∧ c'.threads[i]? = some (th.answer op k r) := by
  obtain ⟨th, k, ch, w, rfl, hi, hst, hp, hx, hs'⟩ := Machine.event_some he
  cases hs.symm.trans hs'
  have hlen : i < c.threads.length := (List.getElem?_eq_some_iff.mp hi).1
  refine ⟨th, k, ch, hi, hp, hx, ?_⟩
  rw [List.getElem?_append_left (by simpa using hlen), List.getElem?_set_self hlen]

/-- What a step does about status and freezer. -/
inductive FreezeChange (id : String) (c : SysConf) (a : SysAction) (c' : SysConf) : Prop
  /-- Nothing, and it is not the step of a call between its writes. -/
  | other (h : ∀ x ∈ system.event c a, x.2.1.records id = false ∧
      ∀ th ∈ c.threads[x.1]?, ¬Between id th)
  /-- A call is between its writes then. -/
  | between (h : ∃ th ∈ c'.threads, Between id th) (hf : c'.world.file id = c.world.file id)
    (hx : ∀ x ∈ system.event c a, x.2.1.writesStatus id = false)
  | recorded {i : Nat} {th th' : SysThread} {t : Turn} {s : State}
    (he : system.event c a = some (i, ⟨.write (stateJson id) (.state (t.set s)), .ok ()⟩))
    (hi : c.threads[i]? = some th) (ht : freezing id th = some t)
    (hi' : c'.threads[i]? = some th') (hb : ¬Between id th')
    (hf : c'.world.file id = some (t.set s))
    (hw : c'.world.files (freezer id) = c.world.files (freezer id))

theorem freeze_change (htr : Machine.Traced system c) (hok : OnlyFreezes id c a)
    (hfile : (c.world.file id).isSome) (hs : system.step c a = some c') :
    FreezeChange id c a c' := by
  cases he : system.event c a with
  | none =>
    refine .other fun x hx => ?_
    cases he.symm.trans hx
  | some x =>
  obtain ⟨i, op, r⟩ := x
  obtain ⟨th, k, ch, hi, hp, hx, hi'⟩ := event_continues he hs
  have hcall := hok _ he th hi
  have hother (hrec : op.records id = false) (hb : ¬Between id th) : FreezeChange id c a c' := by
    refine .other fun x hx' => ?_
    cases he.symm.trans hx'
    refine ⟨hrec, fun th₁ hi₁ => ?_⟩
    cases hi.symm.trans hi₁
    exact hb
  cases hf : freezing id th with
  | none =>
    rw [hf] at hcall
    refine hother hcall ?_
    rintro ⟨t, ht, -⟩
    rw [hf] at ht
    contradiction
  | some t =>
    rw [hf] at hcall
    have hmay := freeze_may (htr i th hi) hf hp
    have hafter : Between id (th.answer op k r) ↔
        ((freezeStage t id th).next t op r).between = true := by
      rw [between_answer, hf]
      simp
    have hnow : Between id th ↔ (freezeStage t id th).between = true := by
      rw [Between, hf]
      simp
    generalize freezeStage t id th = g at hmay hafter hnow
    cases g with
    | refused => exact hmay.elim
    | idle =>
      obtain rfl : op = .read (stateJson id) := hmay
      exact hother rfl (by rw [hnow]; nofun)
    | recorded =>
      obtain rfl : op = .setEntry id t.target := hmay
      exact hother rfl (by rw [hnow]; nofun)
    | checked =>
      obtain rfl : op = .write (freezer id) (.text t.freeze) := hmay
      cases r with
      | error e => contradiction
      | ok =>
        have hin : Between id (th.answer (.write (freezer id) (.text t.freeze)) k (.ok ())) :=
          hafter.mpr rfl
        refine .between ⟨_, List.mem_of_getElem? hi', hin⟩ (World.exec_file hx nofun) ?_
        intro x hx'
        cases he.symm.trans hx'
        simp [Op.writesStatus]
    | acted =>
      obtain rfl : op = .read (stateJson id) := hmay
      cases r with
      | error e => contradiction
      | ok content =>
        obtain ⟨s, hs₀⟩ := Option.isSome_iff_exists.mp hfile
        obtain ⟨hw, hparsed⟩ := World.exec_read_ok hx hs₀
        have hin : Between id (th.answer (.read (stateJson id)) k (.ok content)) := by
          rw [hafter]
          show ((parsed (.ok content)).elim FreezeStage.refused .reread).between = true
          rw [hparsed]
          rfl
        refine .between ⟨_, List.mem_of_getElem? hi', hin⟩ (by rw [hw]) ?_
        intro x hx'
        cases he.symm.trans hx'
        rfl
    | reread s =>
      obtain rfl : op = .write (stateJson id) (.state (t.set s)) := hmay
      cases r with
      | error e => contradiction
      | ok =>
        have hout : ¬Between id (th.answer (.write (stateJson id) (.state (t.set s))) k (.ok ())) := by
          rw [hafter]
          nofun
        rcases World.exec_write hx with ⟨-, hf'⟩ | ⟨e, herr, -⟩
        · exact .recorded he hi hf hi' hout hf' (World.exec_files hx nofun)
        · cases herr

/-- A write starts no thread, and moves no other than its own. -/
theorem between_back {i j : Nat} {p : Path} {x : Content} {r : Io Unit} {th' : SysThread}
    (hs : system.step c a = some c') (he : system.event c a = some (i, ⟨.write p x, r⟩))
    (hj : c'.threads[j]? = some th') (hne : j ≠ i) (hb : Between id th') :
    ∃ th, c.threads[j]? = some th ∧ Between id th := by
  have hstart {q : Option Nat} {m : Main} (e : th' = .start system.prog q m) : False := by
    obtain ⟨t, -, hbetween⟩ := hb
    rw [e] at hbetween
    contradiction
  cases Machine.step_origin hs hj with
  | same h => exact ⟨th', h, hb⟩
  | stopped h e =>
    subst e
    exact ⟨_, h, hb⟩
  | answered ha h hst hp hx e =>
    subst ha
    cases he.symm.trans (event_call h hst hp hx)
    exact (hne rfl).elim
  | invoked ha h hm e => exact (hstart e).elim
  | forked ha h hst hp hx hf h' e =>
    subst ha
    cases he.symm.trans (event_call h hst hp hx)
    contradiction
  | spawned ha h hst hp hx hs' h' e => exact (hstart e).elim

theorem Turn.target_paused (h : t ≠ .start) : t.target = .paused ↔ t = .pause := by
  cases t with
  | start => contradiction
  | pause | resume => simp [target]

theorem keepsAgreed_iff (htr : Machine.Traced system c) (hfile : (c.world.file id).isSome)
    (hagree : (∀ th ∈ c.threads, ¬Between id th) → Agree id c.world)
    (hs : system.step c a = some c') : KeepsAgreed id c a ↔ RecordsOwn id c a := by
  refine and_congr_right fun hok => ?_
  have hnext : (∀ c₁ ∈ system.step c a, (∀ th ∈ c₁.threads, ¬Between id th) → Agree id c₁.world) ↔
      ((∀ th ∈ c'.threads, ¬Between id th) → Agree id c'.world) := by
    refine ⟨fun h => h c' hs, fun h c₁ hc₁ => ?_⟩
    cases hs.symm.trans hc₁
    exact h
  rw [hnext]
  cases freeze_change htr hok hfile hs with
  | other h =>
    refine iff_of_true (agree_kept hagree (record_kept hs fun x hx => (h x hx).1) ?_) ?_
    · intro j th hj hb
      obtain ⟨th', hj', hb'⟩ := between_kept hs hj fun x hx e => (h x hx).2 th (by rw [e]; exact hj) hb
      exact ⟨th', List.mem_of_getElem? hj', hb'.mpr hb⟩
    · intro x hx hw
      have hrec := records_of_writesStatus hw
      rw [(h x hx).1] at hrec
      contradiction
  | between h hf hx =>
    obtain ⟨th, hth, hb⟩ := h
    refine iff_of_true (fun hnone => (hnone th hth hb).elim) fun x hx' hw => ?_
    rw [hx x hx'] at hw
    contradiction
  | @recorded i th th' t s he hi ht hi' hb hf hw =>
    have hne := (freezing_some ht).1
    have hleft : Agree id c'.world ↔ (c.world.files (freezer id) = some (.text "1") ↔ t = .pause) := by
      rw [Agree, hf, hw]
      simp [Turn.target_paused hne]
    have hothers : (∀ th ∈ c'.threads, ¬Between id th) ↔
        ∀ y ∈ c.threads.zipIdx, y.2 ≠ i → ¬Between id y.1 := by
      constructor
      · intro hnone y hy hyi hby
        have hj := List.mem_zipIdx_iff_getElem?.mp hy
        obtain ⟨th₂, hj', hb'⟩ := between_kept hs hj fun x hx e => by
          cases he.symm.trans hx
          exact hyi e.symm
        exact hnone th₂ (List.mem_of_getElem? hj') (hb'.mpr hby)
      · intro hnone th₂ hth₂ hb₂
        obtain ⟨j, hj⟩ := List.mem_iff_getElem?.mp hth₂
        rcases eq_or_ne j i with rfl | hji
        · cases hi'.symm.trans hj
          exact hb hb₂
        · obtain ⟨th₁, hj₁, hb₁⟩ := between_back hs he hj hji hb₂
          exact hnone (th₁, j) (List.mem_zipIdx_iff_getElem?.mpr hj₁) hji hb₁
    rw [hleft, hothers, he]
    simp [hi, ht, Op.writesStatus]

/-! ### The run -/

/-- In the runs in which only calls of `pause` and `resume` touch the container, and do not fail:
whenever no call is between its two writes, freezer and status agree, if and only if every call that
writes the status when no other is between its writes finds the freezer as it has written it. -/
theorem freezer_agrees {w : World} {c₀ c : SysConf} {id : String}
    (hrun : Steps system.step (fun _ _ => True) (fresh w) c₀) (h₀ : Agree id c₀.world) :
    Steps system.step (KeepsAgreed id) c₀ c ↔ Steps system.step (RecordsOwn id) c₀ c := by
  have htr₀ : Machine.Traced system c₀ :=
    hrun.invariant (fun c a c' h _ hs => h.step hs) (by intro i th hi; simp at hi)
  have hfirst : Machine.Traced system c₀ ∧ (c₀.world.file id).isSome ∧
      ((∀ th ∈ c₀.threads, ¬Between id th) → Agree id c₀.world) := by
    refine ⟨htr₀, ?_, fun _ => h₀⟩
    obtain ⟨s, hs, -⟩ := h₀
    rw [hs]
    rfl
  refine Steps.congr (I := fun c => Machine.Traced system c ∧ (c.world.file id).isSome ∧
    ((∀ th ∈ c.threads, ¬Between id th) → Agree id c.world)) ?_ ?_ hfirst
  · intro c a c' h hok hs
    obtain ⟨htr, hfile, -⟩ := h
    refine ⟨htr.step hs, ?_, hok.2 c' hs⟩
    cases freeze_change htr hok.1 hfile hs with
    | other h =>
      rw [(record_kept hs fun x hx => (h x hx).1).1]
      exact hfile
    | between h hf =>
      rw [hf]
      exact hfile
    | recorded he hi ht hi' hb hf =>
      rw [hf]
      rfl
  · intro c a c' h hs
    exact keepsAgreed_iff h.1 h.2.1 h.2.2 hs

/-- A container that was started, with a `pause` as thread 3, one as thread 4 and a `resume` as
thread 5. -/
def overlapping (id : String) : List SysAction :=
  [.invoke (.turn .pause id), .invoke (.turn .pause id), .invoke (.turn .resume id)]

def startedContainer (id : String) : List SysAction := supervise id ++ begin id 5

/-- The calls overlap, and each writes its status while the freezer is as it has written it. -/
theorem freezer_agrees_sample : ∃ c₀ c : SysConf,
    Steps system.step (fun _ _ => True) (fresh sampleHost) c₀ ∧ Agree "c" c₀.world ∧
    Steps system.step (KeepsAgreed "c") c₀ c ∧ (∀ th ∈ c.threads, ¬Between "c" th) ∧
    Agree "c" c.world := by
  have h : ∃ c₀ ∈ runActions system.step (fun _ _ => True) (fresh sampleHost) (startedContainer "c"),
      Agree "c" c₀.world ∧
      ∃ c ∈ runActions system.step (RecordsOwn "c") c₀
        (overlapping "c" ++ [go 4] ++ goes 4 3 ++ goes 4 5 ++ goes 3 4),
        (∀ th ∈ c.threads, ¬Between "c" th) ∧ Agree "c" c.world := by
    decide +kernel
  obtain ⟨c₀, hrun₀, hagree, c, hrun, hnone, hend⟩ := h
  have hrun₁ := Steps.of_runActions hrun₀
  exact ⟨c₀, c, hrun₁, hagree, (freezer_agrees hrun₁ hagree).mpr (.of_runActions hrun), hnone, hend⟩

/-- The second `pause` has read the status early. It freezes the container again after `resume` has
thawed it, and `resume` writes its status last. -/
theorem frozen_and_running : ∃ c₀ c : SysConf,
    Steps system.step (fun _ _ => True) (fresh sampleHost) c₀ ∧ Agree "c" c₀.world ∧
    Steps system.step (OnlyFreezes "c") c₀ c ∧
    (∀ th ∈ c.threads, (freezing "c" th).isSome → ¬Running th) ∧
    c.world.files (freezer "c") = some (.text "1") ∧
    (c.world.file "c").map (·.status) = some .running := by
  have h : ∃ c₀ ∈ runActions system.step (fun _ _ => True) (fresh sampleHost) (startedContainer "c"),
      Agree "c" c₀.world ∧
      ∃ c ∈ runActions system.step (OnlyFreezes "c") c₀
        (overlapping "c" ++ [go 4] ++ goes 4 3 ++ goes 2 5 ++ goes 3 4 ++ goes 2 5),
        (∀ th ∈ c.threads, (freezing "c" th).isSome → ¬Running th) ∧
        c.world.files (freezer "c") = some (.text "1") ∧
        (c.world.file "c").map (·.status) = some .running := by
    decide +kernel
  obtain ⟨c₀, hrun₀, hagree, c, hrun, hrest, hfrozen, hstatus⟩ := h
  exact ⟨c₀, c, .of_runActions hrun₀, hagree, .of_runActions hrun, hrest, hfrozen, hstatus⟩

end Clonebox
