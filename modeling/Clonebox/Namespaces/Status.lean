import Clonebox.Namespaces.Exec

/-! # The status of a command

`exec` waits for the command and drops what `waitpid` returns. `clonebox-exec` exits with 0 when
`exec` has returned, and `clonebox` exits as `clonebox-exec` does. -/

namespace Clonebox
open Conc Prog

variable {id : String} {cmd : List String} {tr : List Sys.Ev}

/-! ### The two programs -/

/-- How `main` of `clonebox-exec` fails. -/
inductive ExecError where
  | missingId
  | core (e : CoreError)
  deriving DecidableEq

/-- `main` of `clonebox-exec`, with the arguments after its name. -/
def execMain : List String → Prog Sys ExecError Unit
  | [] => .fail .missingId
  | id :: cmd => (exec id cmd).mapError .core

/-- The status of a process that runs `main`: 0 if it returns, 1 if it returns an error; or a signal
has ended it before. -/
inductive ProcessEnd : Prog Sys ExecError Unit → WaitStatus → Prop
  | returned : ProcessEnd (.ret ()) (.exited 0)
  | failed {e : ExecError} : ProcessEnd (.fail e) (.exited 1)
  | killed {q : Prog Sys ExecError Unit} {signal : Nat} {coreDump : Bool} :
    ProcessEnd q (.signaled signal coreDump)

/-- `ExitStatus::code` -/
def WaitStatus.code : WaitStatus → Option Int
  | .exited n => some n
  | .signaled _ _ => none

/-- The exit code of `clonebox exec`: it connects to the daemon, finds `clonebox-exec`, runs it and
forwards its status. -/
def cliExec (connected : Bool) (execPath : Option String) (status : Io WaitStatus) : Int :=
  if connected = false then 1
  else
    match execPath, status with
    -- a panic
    | none, _ => 101
    | some _, .error _ => 1
    | some _, .ok status => status.code.getD 1

/-! ### Waiting for the command -/

/-- How far `exec` has come. -/
inductive StatusStage where
  | ahead
  | waited (st : WaitStatus)
  /-- A namespace could not be entered. -/
  | astray
  deriving DecidableEq

/-- A call that moves the caller has failed. -/
def moveFails : Sys.Ev → Bool
  | ⟨.openNs _ _, .error _⟩ | ⟨.setns _, .error _⟩ => true
  | _ => false

/-- The status that `waitpid` has returned for the command. -/
def waitedFor : Sys.Ev → Option WaitStatus
  | ⟨.waitFork _, .ok st⟩ => some st
  | _ => none

def statusProto : Proto Sys StatusStage where
  may g op := match g, op with
    | .waited _, .waitFork _ => False
    | _, _ => True
  next
    | .ahead, op, r => if moveFails ⟨op, r⟩ then .astray else (waitedFor ⟨op, r⟩).elim .ahead .waited
    | .waited st, op, r => if moveFails ⟨op, r⟩ then .astray else .waited st
    | .astray, _, _ => .astray
  halts _ := True

/-- `exec` returns when it has waited for the command, and fails before or when it is astray. -/
def StatusStage.ends (g : StatusStage) (r : Except CoreError Unit) : Prop :=
  (∃ st, g = .waited st) ↔ ∃ a, r = .ok a

section
variable {Q : StatusStage → Except CoreError Unit → Prop} {g : StatusStage} {pid : Int} {ns : String}

theorem openNamespace_status (hok : Q g (.ok ())) (herr : ∀ e, Q .astray (.error e)) :
    Obeys statusProto Q g (openNamespace pid ns) := by
  refine obeys_bind.mpr ⟨by cases g <;> trivial, fun r => ?_⟩
  cases r with
  | error e => cases g <;> exact herr _
  | ok _ => cases g <;> exact hok

/-- A stage stays when the caller is moved, or the caller is astray. -/
theorem enterNamespace_status (hok : Q g (.ok ())) (herr : ∀ e, Q .astray (.error e)) :
    Obeys statusProto Q g (enterNamespace pid ns) := by
  refine obeys_bind.mpr (openNamespace_status ?_ herr)
  refine obeys_bind.mpr ⟨by cases g <;> trivial, fun r => ?_⟩
  cases r with
  | error e => cases g <;> exact herr _
  | ok _ => cases g <;> exact hok

end

theorem ends_error {g : StatusStage} {e : CoreError} (h : ∀ st, g ≠ .waited st) :
    g.ends (.error e) := by
  constructor
  · intro h'
    obtain ⟨st, hst⟩ := h'
    exact (h st hst).elim
  · intro h'
    obtain ⟨a, ha⟩ := h'
    cases ha

theorem runInside_status {parent : Int} :
    Obeys statusProto StatusStage.ends .ahead (runInside id cmd parent) := by
  have hastray (e : CoreError) : StatusStage.astray.ends (.error e) := ends_error nofun
  have hahead (e : CoreError) : StatusStage.ahead.ends (.error e) := ends_error nofun
  refine obeys_bind.mpr ⟨trivial, fun r => ?_⟩
  rw [obeys_ret, andThen_ok]
  split
  · exact hahead _
  · exact containerExec_never (I := fun g => g = .ahead) (fun _ => trivial) (fun g => by cases g <;> trivial)
      (fun g => by cases g <;> trivial) (fun g _ => by cases g <;> trivial)
      (fun g _ hg => by subst hg; exact ⟨trivial, fun _ => rfl⟩) (fun g _ _ _ _ => by cases g <;> trivial) rfl
  · refine obeys_bind.mpr (obeys_bind.mpr ⟨trivial, fun r => ?_⟩)
    cases r with
    | error e => exact hahead _
    | ok st =>
      refine obeys_bind.mpr ⟨trivial, fun r => ?_⟩
      cases r with
      | error e =>
        refine obeys_bind.mpr (obeys_attempt.mpr ⟨trivial, fun r => ?_⟩)
        cases r <;> exact hastray _
      | ok _ =>
        refine obeys_bind.mpr (enterNamespace_status ?_ hastray)
        refine obeys_bind.mpr (enterNamespace_status ?_ hastray)
        exact enterNamespace_status ⟨fun _ => ⟨(), rfl⟩, fun _ => ⟨st, rfl⟩⟩ hastray

theorem exec_status : Obeys statusProto StatusStage.ends .ahead (exec id cmd) := by
  have hastray (e : CoreError) : StatusStage.astray.ends (.error e) := ends_error nofun
  have hahead (e : CoreError) : StatusStage.ahead.ends (.error e) := ends_error nofun
  have hpids : Obeys statusProto (fun g _ => g = .ahead) .ahead (execPids id) := by
    have hcalls : Calls (S := Sys) (fun op => statusProto.may .ahead op ∧
        ∀ r, statusProto.next .ahead op r = .ahead) (execPids id) :=
      execPids_all ⟨trivial, fun _ => rfl⟩ ⟨trivial, fun _ => rfl⟩ ⟨trivial, fun _ => rfl⟩
    exact hcalls.obeys (fun op hop => hop) trivial fun _ => rfl
  rw [exec_eq]
  refine obeys_bind.mpr (hpids.mono fun g r hg => ?_)
  subst hg
  cases r with
  | error e => exact hahead e
  | ok pids =>
    refine obeys_bind.mpr (openNamespace_status ?_ hastray)
    refine obeys_bind.mpr (enterNamespace_status ?_ hastray)
    refine obeys_bind.mpr (enterNamespace_status ?_ hastray)
    refine obeys_bind.mpr (enterNamespace_status ?_ hastray)
    exact obeys_bind.mpr (enterNamespace_status runInside_status hastray)

/-! ### What the trace says of the stage -/

structure StatusStage.Told (g : StatusStage) (tr : List Sys.Ev) : Prop where
  ahead : g = .ahead → ∀ ev ∈ tr, waitedFor ev = none
  waited : ∀ st, g = .waited st → (∃ ev ∈ tr, waitedFor ev = some st) ∧
    ∀ ev ∈ tr, ∀ st', waitedFor ev = some st' → st' = st
  astray : g = .astray ↔ ∃ ev ∈ tr, moveFails ev = true

theorem StatusStage.told_start : StatusStage.ahead.Told [] where
  ahead := by intro _ ev hev; cases hev
  waited := by intro st h; cases h
  astray := by simp

theorem statusNext_ahead {ev : Sys.Ev} : statusProto.next .ahead ev.1 ev.2 =
    if moveFails ev then .astray else (waitedFor ev).elim .ahead .waited := rfl

theorem statusNext_waited {st : WaitStatus} {ev : Sys.Ev} : statusProto.next (.waited st) ev.1 ev.2 =
    if moveFails ev then .astray else .waited st := rfl

/-- `exec` waits once. -/
theorem waitedFor_of_waited {st : WaitStatus} {ev : Sys.Ev} (hmay : statusProto.may (.waited st) ev.1) :
    waitedFor ev = none := by
  obtain ⟨op, r⟩ := ev
  cases op with
  | waitFork => exact hmay.elim
  | _ => rfl

theorem StatusStage.Told.next {g : StatusStage} {ev : Sys.Ev} (h : g.Told tr)
    (hmay : statusProto.may g ev.1) : (statusProto.next g ev.1 ev.2).Told (tr ++ [ev]) := by
  have hsnoc {p : Sys.Ev → Prop} : (∃ e ∈ tr ++ [ev], p e) ↔ (∃ e ∈ tr, p e) ∨ p ev := by
    simp [or_and_right, exists_or]
  have hall {p : Sys.Ev → Prop} (htr : ∀ e ∈ tr, p e) (hev : p ev) : ∀ e ∈ tr ++ [ev], p e := by
    simpa [or_imp, forall_and] using ⟨htr, hev⟩
  have hastray (hfails : moveFails ev = true) : StatusStage.astray.Told (tr ++ [ev]) :=
    ⟨nofun, nofun, iff_of_true rfl (hsnoc.mpr (.inr hfails))⟩
  have hstill (hg : g ≠ .astray) (hfails : ¬ moveFails ev = true) : ¬ ∃ e ∈ tr ++ [ev], moveFails e = true := by
    rw [hsnoc]
    exact not_or.mpr ⟨fun h' => hg (h.astray.mpr h'), hfails⟩
  cases g with
  | astray => exact ⟨nofun, nofun, iff_of_true rfl (hsnoc.mpr (.inl (h.astray.mp rfl)))⟩
  | ahead =>
    rw [statusNext_ahead]
    split
    next hfails => exact hastray hfails
    next hfails =>
      have hbefore := h.ahead rfl
      cases hwait : waitedFor ev with
      | none => exact ⟨fun _ => hall hbefore hwait, nofun, iff_of_false nofun (hstill nofun hfails)⟩
      | some st =>
        refine ⟨nofun, ?_, iff_of_false nofun (hstill nofun hfails)⟩
        intro st' hst'
        obtain rfl : st = st' := StatusStage.waited.inj hst'
        refine ⟨hsnoc.mpr (.inr hwait), hall (fun e he st' hst' => ?_) fun st' hst' => ?_⟩
        · rw [hbefore e he] at hst'
          cases hst'
        · exact (Option.some.inj (hwait.symm.trans hst')).symm
  | waited st =>
    rw [statusNext_waited]
    split
    next hfails => exact hastray hfails
    next hfails =>
      obtain ⟨hsome, honly⟩ := h.waited st rfl
      refine ⟨nofun, ?_, iff_of_false nofun (hstill nofun hfails)⟩
      intro st' hst'
      obtain rfl : st = st' := StatusStage.waited.inj hst'
      refine ⟨hsnoc.mpr (.inl hsome), hall honly fun st' hst' => ?_⟩
      rw [waitedFor_of_waited hmay] at hst'
      cases hst'

/-- What the trace of a run of `exec` and its end say. -/
theorem exec_told {q : Core Unit} (h : Reaches (exec id cmd) tr q) :
    ∃ g : StatusStage, g.Told tr ∧ Obeys statusProto StatusStage.ends g q := by
  obtain ⟨hfollows, hrest⟩ := h.obeys exec_status
  refine ⟨_, ?_, hrest⟩
  exact hfollows.history (J := StatusStage.Told) StatusStage.told_start fun g tr ev hmay hg => hg.next hmay

/-! ### The status that is forwarded -/

/-- `clonebox-exec` could not be started, or it has ended after a run with this trace. -/
inductive Spawned (args : List String) : List Sys.Ev → Io WaitStatus → Prop
  | failed {e : Errno} : Spawned args [] (.error e)
  | ended {tr : List Sys.Ev} {q : Prog Sys ExecError Unit} {es : WaitStatus}
    (h : Reaches (execMain args) tr q) (hend : ProcessEnd q es) : Spawned args tr (.ok es)

/-- The command has exited with 0. -/
def CommandOk (tr : List Sys.Ev) : Prop := ∃ ev ∈ tr, waitedFor ev = some (.exited 0)

/-- The command has ended in another way, and `clonebox-exec` has come to its end without an
error. -/
structure StatusLost (connected : Bool) (execPath : Option String) (tr : List Sys.Ev)
    (status : Io WaitStatus) : Prop where
  connected : connected = true
  started : execPath ≠ none
  failed : ∃ ev ∈ tr, ∃ st, waitedFor ev = some st ∧ st ≠ .exited 0
  moves : ∀ ev ∈ tr, moveFails ev = false
  alive : ∀ signal coreDump, status ≠ .ok (.signaled signal coreDump)

/-- It exits with 0 only when `clonebox-exec` has. -/
theorem cliExec_zero {connected : Bool} {execPath : Option String} {status : Io WaitStatus} :
    cliExec connected execPath status = 0 ↔
      connected = true ∧ execPath ≠ none ∧ status = .ok (.exited 0) := by
  rcases connected with _ | _
  · simp [cliExec]
  · rcases execPath with _ | path
    · simp [cliExec]
    · rcases status with e | (n | ⟨signal, core⟩) <;> simp [cliExec, WaitStatus.code]

/-- `clonebox-exec` exits with 0 when `exec` has returned, and only then. -/
theorem execMain_ended {q : Prog Sys ExecError Unit} {es : WaitStatus}
    (h : Reaches (execMain (id :: cmd)) tr q)
    (hend : ProcessEnd q es) : ∃ g : StatusStage, g.Told tr ∧
      ((∃ signal coreDump, es = .signaled signal coreDump) ∨
        ((∃ st, g = .waited st) ↔ es = .exited 0)) := by
  obtain ⟨q', hq', rfl⟩ := Reaches.of_mapError h
  obtain ⟨g, htold, hrest⟩ := exec_told hq'
  refine ⟨g, htold, ?_⟩
  generalize hq : q'.mapError ExecError.core = q at hend
  cases hend with
  | killed => exact .inl ⟨_, _, rfl⟩
  | returned =>
    right
    cases q' with
    | ret a =>
      obtain ⟨-, hback⟩ := hrest
      exact iff_of_true (hback ⟨a, rfl⟩) rfl
    | fail | halt | call => cases hq
  | failed =>
    right
    cases q' with
    | fail e =>
      obtain ⟨hwaited, -⟩ := hrest
      refine iff_of_false (fun h => ?_) nofun
      obtain ⟨_, ha⟩ := hwaited h
      cases ha
    | ret | halt | call => cases hq

/-- `clonebox exec` exits with 0 only if the command has, if and only if the command's status is not
lost. -/
theorem exec_reports {connected : Bool} {execPath : Option String} {status : Io WaitStatus}
    (h : Spawned (id :: cmd) tr status) :
    (cliExec connected execPath status = 0 → CommandOk tr) ↔ ¬StatusLost connected execPath tr status := by
  rw [cliExec_zero]
  cases h with
  | failed => exact iff_of_true (fun h => nomatch h.2.2) fun h => by simpa using h.failed
  | @ended _ _ es h hend =>
    obtain ⟨g, htold, hg⟩ := execMain_ended h hend
    constructor
    · intro hok hlost
      obtain ⟨ev, hev, st, hst, hne⟩ := hlost.failed
      -- it has waited, and no move has failed
      obtain ⟨st', rfl⟩ : ∃ st', g = .waited st' := by
        cases g with
        | ahead => exact (Option.some_ne_none st (hst.symm.trans (htold.ahead rfl ev hev))).elim
        | waited st' => exact ⟨st', rfl⟩
        | astray =>
          obtain ⟨ev', hev', hfails⟩ := htold.astray.mp rfl
          rw [hlost.moves ev' hev'] at hfails
          cases hfails
      obtain ⟨-, honly⟩ := htold.waited st' rfl
      rcases hg with ⟨signal, coreDump, rfl⟩ | hg
      · exact hlost.alive signal coreDump rfl
      · obtain ⟨ev', hev', hzero⟩ := hok ⟨hlost.connected, hlost.started, congrArg _ (hg.mp ⟨_, rfl⟩)⟩
        exact hne ((honly ev hev st hst).trans (honly ev' hev' _ hzero).symm)
    · rintro hkept ⟨hconnected, hstarted, hstatus⟩
      obtain rfl : es = .exited 0 := Except.ok.inj hstatus
      rcases hg with ⟨_, _, hes⟩ | hg
      · cases hes
      obtain ⟨st, rfl⟩ := hg.mpr rfl
      obtain ⟨⟨ev, hev, hst⟩, -⟩ := htold.waited st rfl
      by_contra hnot
      refine hkept ⟨hconnected, hstarted, ⟨ev, hev, st, hst, ?_⟩, fun ev' hev' => ?_, nofun⟩
      · rintro rfl
        exact hnot ⟨ev, hev, hst⟩
      · by_contra hfails
        exact absurd (htold.astray.mpr ⟨ev', hev', by simpa using hfails⟩) nofun

/-- Every call of `exec` succeeds, and the command ends so. -/
def runsTo (st : WaitStatus) : (op : Op) → Option op.Ret
  | .read _ => some (.ok (.state ⟨"1.0.2", "c1", .running, some 7, "/", none⟩))
  | .openFile _ => some (.ok ())
  | .getpid => some (8 : Int)
  | .openNs _ _ | .setns _ => some (.ok ())
  | .fork => some (.ok 9)
  | .waitFork _ => some (.ok st)
  | _ => none

def visitTrace (st : WaitStatus) : List Sys.Ev := (follow (runsTo st) 30 (execMain ["c1", "ping"])).1

theorem visitTrace_spawned (st : WaitStatus) :
    Spawned ["c1", "ping"] (visitTrace st) (.ok (.exited 0)) := by
  refine .ended reaches_follow ?_
  have hreturned : (follow (runsTo st) 30 (execMain ["c1", "ping"])).2 = .ret () := rfl
  rw [hreturned]
  exact .returned

theorem visitTrace_waits {st st' : WaitStatus} :
    (∃ ev ∈ visitTrace st, waitedFor ev = some st') ↔ st' = st := by
  have hwaits : (visitTrace st).filterMap waitedFor = [st] := rfl
  rw [← List.mem_filterMap, hwaits, List.mem_singleton]

theorem exec_reports_sample : ∃ tr, Spawned ["c1", "ping"] tr (.ok (.exited 0)) ∧ CommandOk tr := by
  refine ⟨_, visitTrace_spawned (.exited 0), ?_⟩
  refine (exec_reports (visitTrace_spawned _)).mpr ?_ (cliExec_zero.mpr ⟨rfl, Option.some_ne_none "", rfl⟩)
  intro hlost
  obtain ⟨ev, hev, st, hst, hne⟩ := hlost.failed
  exact hne (visitTrace_waits.mp ⟨ev, hev, hst⟩)

/-- The command exits with 1, and `clonebox exec` with 0. -/
theorem failure_unreported : ∃ tr, Spawned ["c1", "ping"] tr (.ok (.exited 0)) ∧
    (∃ ev ∈ tr, waitedFor ev = some (.exited 1)) ∧
    cliExec true (some "clonebox-exec") (.ok (.exited 0)) = 0 ∧ ¬CommandOk tr := by
  refine ⟨visitTrace (.exited 1), visitTrace_spawned _, visitTrace_waits.mpr rfl, rfl, fun hok => ?_⟩
  cases visitTrace_waits.mp hok

end Clonebox
