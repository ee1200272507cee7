import Clonebox.System.Protocol

/-! # Every program keeps its contract

Each program is run symbolically once against its automaton. Quiet parts are skipped as a whole. -/

namespace Clonebox
open Conc Prog

/-! ### Rules -/

theorem forall_except {δ α : Type} {p : Except δ α → Prop} :
    (∀ r, p r) ↔ (∀ a, p (.ok a)) ∧ ∀ e, p (.error e) :=
  ⟨fun h => ⟨fun a => h _, fun e => h _⟩, fun h r => by cases r; exacts [h.2 _, h.1 _]⟩

theorem forall_content {p : Content → Prop} :
    (∀ c, p c) ↔ (∀ s, p (.state s)) ∧ (∀ c, p (.config c)) ∧ ∀ t, p (.text t) :=
  ⟨fun h => ⟨fun _ => h _, fun _ => h _, fun _ => h _⟩,
   fun h c => by cases c; exacts [h.1 _, h.2.1 _, h.2.2 _]⟩

variable {Φ ε α δ : Type} {P : Proto Sys Φ} {g : Φ}

theorem obeys_mapErr {p : Prog Sys ε (Except δ α)} {f : δ → ε} {Q : Φ → Except ε α → Prop} :
    Obeys P Q g (mapErr p f) ↔ Obeys P (andThen P Q fun r => .ofExcept (r.mapError f)) g p := by
  simp [mapErr]

attribute [local simp] forall_except forall_content obeys_mapErr obeys_call Prog.ask Except.mapError
  parsed Op.quiet Kind.may Kind.next Kind.halts

/-! ### `start`, `pause`, `resume`, `kill`, `delete` -/

section
attribute [local simp] readStateFile updateState writeStateFile

section
attribute [local simp] transition connectCreateProcess getSocketFd unixAddr setCgroup
  TurnStage.may TurnStage.advance Turn.required Turn.set Turn.op

theorem turn_obeys (t : Turn) (id : String) :
    Obeys (Kind.turn t id).proto
      (fun g r => ∃ h, g = .turn h ∧ h ≠ .settled ∧ (h = .wrote ↔ ∃ a, r = .ok a)) (.turn .idle) (t.op id) := by
  cases t with
  | start => simp +contextual [start]
  | pause => simp +contextual [pause]
  | resume => simp +contextual [resume]
end

attribute [local simp] KillStage.may KillStage.advance in
theorem kill_obeys (id : String) :
    Obeys (Kind.kill id).proto
      (fun g r => ∃ h, g = .kill h ∧ h ≠ .settled ∧ (h = .wrote ↔ ∃ a, r = .ok a)) (.kill .idle) (kill id) := by
  simp +contextual [kill, sendKill]
  intro s
  cases killTarget id s <;> simp +contextual

attribute [local simp] DeleteStage.may DeleteStage.advance in
theorem delete_obeys (id : String) (force : Bool) :
    Obeys (Kind.delete id force).proto
      (fun g r => ∃ h, g = .delete h ∧ h ≠ .settled ∧ (h = .cleared ↔ ∃ a, r = .ok a)) (.delete .idle)
      (delete id force) := by
  cases force <;> simp +contextual [delete, cleanup, Path.owner]

end

/-! ### `create` -/

/-- A program that makes quiet calls only. -/
def Quiet (p : Prog Sys ε α) : Prop := Calls (S := Sys) (fun op => Op.quiet op = true) p

namespace Quiet

theorem bind {β : Type} {p : Prog Sys ε α} {f : α → Prog Sys ε β} (hp : Quiet p)
    (hf : ∀ a, Quiet (f a)) : Quiet (p.bind f) := Calls.bind hp hf

/-- In a run of `create` a quiet program can be skipped. -/
theorem obeys {p : Prog Sys ε α} {id configPath : String} {sp : Option String} {g : Stage}
    {Q : Phase → Except ε α → Prop} (h : Quiet p) (hg : g.canHalt = true)
    (hQ : ∀ r, Q (.create g) r) : Obeys (Kind.create id configPath sp).proto Q (.create g) p :=
  Calls.obeys h (fun _ hop => ⟨.inl hop, Kind.proto_quiet hop⟩) hg hQ

end Quiet

theorem initResources_quiet (level : CgroupLevel) (rs : List String) :
    Quiet (initResources level rs) := by
  induction rs with
  | nil => trivial
  | cons r rs ih =>
    refine Calls.bind ?_ fun _ => ih
    simp [enableController, Calls]

theorem createNetlinkSocket_quiet : Quiet createNetlinkSocket :=
  .bind (by simp [Quiet, Calls]) fun _ => by simp [Quiet, Calls]

theorem recvAck_quiet (socket : Nat) : Quiet (recvAck socket) := by
  refine .bind (by simp [Quiet, Calls]) fun r => ?_
  cases r <;> simp [Quiet, Calls]

theorem request_quiet (socket : Nat) (w : Writer) : Quiet (request socket w) := by
  refine .bind (by simp [Quiet, Calls]) fun r => ?_
  cases r with
  | error e => simp [Quiet, Calls]
  | ok _ => exact .bind (Calls.attempt (recvAck_quiet socket)) fun _ => by simp [Quiet, Calls]

theorem getInterfaceIndex_quiet (socket : Nat) (w : Writer) (name : String) :
    Quiet (getInterfaceIndex socket w name) := by
  have hindex : Quiet (recvIndex socket) := by
    refine .bind (by simp [Quiet, Calls]) fun r => ?_
    cases r <;> simp [Quiet, Calls]
  refine .bind (by simp [Quiet, Calls]) fun r => ?_
  cases r with
  | error e => simp [Quiet, Calls]
  | ok _ => exact .bind (Calls.attempt hindex) fun _ => by simp [Quiet, Calls]

theorem orReturn_quiet {p : Core (Except CoreError α × Writer)} (h : Quiet p) :
    Quiet (orReturn p) := by
  refine h.bind fun r => ?_
  obtain ⟨r, w⟩ := r
  cases r <;> simp [Quiet, Calls, Prog.ofExcept, Prog.bind]

theorem createPeerNetwork_quiet (w : Writer) (i : UInt32) (h p : Ipv4Addr) :
    Quiet (createPeerNetwork w i h p) := by
  refine .bind createNetlinkSocket_quiet fun _ => ?_
  refine .bind (orReturn_quiet (request_quiet ..)) fun _ => ?_
  refine .bind (orReturn_quiet (request_quiet ..)) fun _ => ?_
  refine .bind (orReturn_quiet (request_quiet ..)) fun _ => ?_
  exact .bind (orReturn_quiet (request_quiet ..)) fun _ => by simp [Quiet, Calls]

theorem createNetwork_quiet (id : String) (pid : Int) : Quiet (createNetwork id pid) := by
  refine .bind (by simp [Quiet, Calls]) fun _ => .bind (by simp [Quiet, Calls]) fun _ => ?_
  cases takeBytes 9 id.toList with
  | none => simp [panic, Quiet, Calls]
  | some suffix =>
    refine .bind createNetlinkSocket_quiet fun _ => ?_
    refine .bind (orReturn_quiet (request_quiet ..)) fun _ => ?_
    refine .bind (orReturn_quiet (getInterfaceIndex_quiet ..)) fun _ => ?_
    refine .bind (orReturn_quiet (request_quiet ..)) fun _ => ?_
    refine .bind (orReturn_quiet (request_quiet ..)) fun _ => ?_
    refine .bind (orReturn_quiet (getInterfaceIndex_quiet ..)) fun _ => ?_
    refine .bind (orReturn_quiet (request_quiet ..)) fun _ => ?_
    refine .bind (by simp [Quiet, Calls]) fun _ => ?_
    refine .bind (createPeerNetwork_quiet ..) fun _ => ?_
    refine .bind (by simp [Quiet, Calls]) fun _ => ?_
    refine .bind (by simp [Quiet, Calls]) fun _ => ?_
    simp [Quiet, Calls]

/-- The calls of the cloned child. -/
def ChildCalls (id : String) (p : Prog Sys ε α) : Prop :=
  Calls (S := Sys) (fun op => Op.quiet op = true ∨ ∃ f, op = Op.createDirAll (.inBundle id f)) p

theorem ChildCalls.obeys {p : Prog Sys ε α} {id configPath : String} {sp : Option String}
    {Q : Phase → Except ε α → Prop} (h : ChildCalls id p) (hQ : ∀ r, Q (.create .child) r) :
    Obeys (Kind.create id configPath sp).proto Q (.create .child) p := by
  refine Calls.obeys h ?_ (show Stage.child.canHalt = true from rfl) hQ
  rintro op (hop | ⟨f, rfl⟩)
  · exact ⟨.inl hop, Kind.proto_quiet hop⟩
  · exact ⟨.inr (.inr ⟨f, rfl⟩), fun r => rfl⟩

theorem containerExec_obeys (id configPath : String) (sp : Option String)
    (args env : Option (List String)) (cwd : Option String) :
    Obeys (Kind.create id configPath sp).proto (fun _ _ => False) (.create .child)
      (containerExec args env cwd id : Core α) := by
  have hcommand (path : String) (ca ce : List String) :
      Obeys (Kind.create id configPath sp).proto (fun _ _ => False) (.create .child)
        (execCommand id path ca ce : Core α) := by
    simp [execCommand, writeLogFile, exit, Stage.may, Stage.advance, Stage.canHalt, Stage.canFail]
  unfold containerExec
  split
  · simp [exit, Stage.may, Stage.canHalt, Stage.canFail]
  · rename_i path rest heq
    by_cases hp : hasNul path
    · simp [hp, exit, Stage.may, Stage.canHalt, Stage.canFail]
    · by_cases h1 : (path :: rest).any hasNul
      · simp [hp, toCstringVec, h1, panic, Stage.may, Stage.canHalt, Stage.canFail]
      · by_cases h2 : (env.getD []).any hasNul
        · simp [hp, toCstringVec, h1, h2, panic, Stage.may, Stage.canHalt, Stage.canFail]
        · cases cwd with
          | none => simp [hp, toCstringVec, h1, h2, hcommand]
          | some cwd =>
            by_cases h3 : hasNul cwd
            · simp [hp, toCstringVec, h1, h2, h3, exit, Stage.may, Stage.canHalt, Stage.canFail]
            · simp [hp, toCstringVec, h1, h2, h3, hcommand, Stage.may]

theorem childTry_calls (id : String) {p : Prog Sys ε (Io Unit)} (h : ChildCalls id p) :
    ChildCalls id (childTry p) := by
  refine Calls.bind h fun r => ?_
  cases r with
  | ok _ => trivial
  | error e => exact ⟨.inl rfl, fun _ => trivial⟩

theorem mountChild_calls (id : String) (src : Option String) (dest : String)
    (mountType : Option String) (flags : List MsFlag) (data : Option String) :
    ChildCalls id (mountChild src dest mountType flags data) :=
  childTry_calls id ⟨.inl rfl, fun _ => trivial⟩

theorem prePivotMount_calls (id newRoot : String) (mounts : List Mount) :
    ChildCalls id (prePivotMount id newRoot mounts) := by
  refine Calls.bind (mountChild_calls ..) fun _ => ?_
  cases mounts.find? Mount.isBind with
  | some m => exact Calls.bind (mountChild_calls ..) fun _ => trivial
  | none =>
    have hdir (f : BundleFile) :
        ChildCalls id (childTry (sys (.createDirAll (.inBundle id f))) : Core Unit) :=
      childTry_calls id ⟨.inr ⟨f, rfl⟩, fun _ => trivial⟩
    refine Calls.bind (hdir _) fun _ => Calls.bind (hdir _) fun _ => Calls.bind (hdir _) fun _ => ?_
    exact Calls.bind (mountChild_calls ..) fun _ => trivial

theorem doPivotRoot_calls (id newRoot : String) : ChildCalls id (doPivotRoot newRoot) := by
  refine Calls.bind (childTry_calls id ⟨.inl rfl, fun _ => trivial⟩) fun _ => ?_
  refine Calls.bind (childTry_calls id ⟨.inl rfl, fun _ => trivial⟩) fun _ => ?_
  refine Calls.bind (childTry_calls id ⟨.inl rfl, fun _ => trivial⟩) fun _ => ?_
  refine Calls.bind (childTry_calls id ⟨.inl rfl, fun _ => trivial⟩) fun _ => ?_
  exact childTry_calls id ⟨.inl rfl, fun _ => trivial⟩

theorem postPivotMount_calls (id : String) (mounts : List Mount) :
    ChildCalls id (postPivotMount mounts) := by
  induction mounts with
  | nil => trivial
  | cons m mounts ih =>
    by_cases h : m.mountType = some "tmpfs"
    · simp only [postPivotMount, if_pos h]
      exact Calls.bind (mountChild_calls ..) fun _ => ih
    · simp only [postPivotMount, if_neg h]
      exact ih

theorem doDefaultMounts_calls (id : String) : ChildCalls id doDefaultMounts :=
  Calls.bind (mountChild_calls ..) fun _ => Calls.bind (mountChild_calls ..) fun _ =>
    mountChild_calls ..

theorem freezeChild_quiet (rt : Runtime) : Quiet rt.freezeChild := by
  unfold Runtime.freezeChild
  cases rt.childEnd with
  | none => trivial
  | some pipe => simp [Quiet, Calls]

theorem unfreezeChild_quiet (rt : Runtime) : Quiet rt.unfreezeChild := by
  unfold Runtime.unfreezeChild
  cases rt.parentEnd with
  | none => trivial
  | some pipe => simp [Quiet, Calls]

/-- How `create` itself ends. -/
def Stage.ends (id : String) (g : Stage) (r : Except CoreError α) : Prop :=
  match r with
  | .ok _ => ∃ pid, g = .stopped pid
  | .error e => g.canFail = true ∧ (g = .refused → e = .containerAlreadyExists id)

variable {id configPath : String} {sp : Option String}

theorem createChild_obeys (config : Config) (rt : Runtime) :
    Obeys (Kind.create id configPath sp).proto
      (fun g r => ∃ h : Stage, g = .create h ∧ h.ends id r) (.create .child)
      (createChild id config rt) := by
  have hskip {β : Type} {p : Core β} {f : β → Core Unit}
      {Q : Phase → Except CoreError Unit → Prop} (h : ChildCalls id p) (hQ : ∀ e, Q (.create .child) (.error e))
      (hf : ∀ b, Obeys (Kind.create id configPath sp).proto Q (.create .child) (f b)) :
      Obeys (Kind.create id configPath sp).proto Q (.create .child) (p.bind f) := by
    refine obeys_bind.mpr (h.obeys fun r => ?_)
    cases r with
    | ok b => exact hf b
    | error e => exact hQ e
  have hfail (e : CoreError) : ∃ h : Stage, Phase.create .child = .create h ∧
      h.ends id (.error e : Except CoreError Unit) :=
    ⟨.child, rfl, rfl, by simp⟩
  refine hskip (childTry_calls id ⟨.inl rfl, fun _ => trivial⟩) hfail fun _ => ?_
  refine hskip (childTry_calls id ⟨.inl rfl, fun _ => trivial⟩) hfail fun _ => ?_
  refine hskip (prePivotMount_calls ..) hfail fun _ => ?_
  refine hskip (doPivotRoot_calls ..) hfail fun _ => ?_
  refine hskip (postPivotMount_calls ..) hfail fun _ => ?_
  refine hskip (doDefaultMounts_calls ..) hfail fun _ => ?_
  refine hskip ((freezeChild_quiet rt).mono fun _ h => .inl h) hfail fun _ => ?_
  exact (containerExec_obeys ..).mono fun _ _ h => h.elim

section
attribute [local simp] Stage.may Stage.advance Stage.ends Stage.canFail report Event.sendEvent
  Event.getStreamSk writeLogFile readStateFile updateState writeStateFile

theorem superviseChild_obeys (rt : Runtime) (pid : Int) :
    Obeys (Kind.create id configPath sp).proto
      (fun g r => g = .create (.stopped pid) ∨
        (g = .create (.accepted pid) ∨ g = .create (.lost pid)) ∧ ∃ e, r = .error e)
      (.create (.accepted pid))
      (superviseChild id sp (Stage.event id .created) rt pid) := by
  refine obeys_bind.mpr ((unfreezeChild_quiet rt).obeys rfl fun r => ?_)
  cases r with
  | error e => exact .inr ⟨.inl rfl, e, rfl⟩
  | ok _ => cases sp <;> simp

/-- The end of a supervisor: the socket is closed whatever the outcome. -/
theorem superviseDrop_obeys (rt : Runtime) (pid : Int) (hrt : rt.unixSock = some (startSk id)) :
    Obeys (Kind.create id configPath sp).proto
      (fun g r => Obeys (Kind.create id configPath sp).proto
        (andThen (Kind.create id configPath sp).proto
          (fun g r => ∃ h : Stage, g = .create h ∧ h.ends id r) fun _ => ofExcept r) g rt.drop)
      (.create (.accepted pid)) (superviseChild id sp (Stage.event id .created) rt pid) := by
  refine (superviseChild_obeys rt pid).mono ?_
  rintro g r (rfl | ⟨rfl | rfl, e, rfl⟩)
  · cases r <;> simp [Runtime.drop, hrt]
  · simp [Runtime.drop, hrt]
  · simp [Runtime.drop, hrt]

theorem createParent_obeys (rt : Runtime) (pid : Int) :
    Obeys (Kind.create id configPath sp).proto
      (fun g r => ∃ h : Stage, g = .create h ∧ h.ends id r) (.create (.cloned pid))
      (createParent id sp (Stage.event id .creating) rt pid) := by
  refine obeys_bind.mpr ((createNetwork_quiet id pid).obeys rfl fun r => ?_)
  cases r with
  | error e => exact ⟨_, rfl, rfl, by simp⟩
  | ok _ =>
    cases sp with
    | none =>
      simp [setCgroup, Runtime.parentProcSocket, getSocketFd, Runtime.acceptStart, unixAddr]
      intro s _
      exact superviseDrop_obeys _ pid rfl
    | some s =>
      simp [setCgroup, Runtime.parentProcSocket, getSocketFd, Runtime.acceptStart, unixAddr,
        Event.updateState, Stage.event]
      intro s _
      exact superviseDrop_obeys _ pid rfl

theorem createResources_obeys (config : Config) :
    Obeys (Kind.create id configPath sp).proto
      (fun g r => match r with
        | .ok (_, pid) => g = .create (if pid = 0 then .child else .cloned pid)
        | .error _ => ∃ h : Stage, g = .create h ∧ h.canFail = true ∧ h ≠ .refused)
      (.create .passed) (createResources id config sp (Stage.event id .creating)) := by
  have hcgroup : Obeys (Kind.create id configPath sp).proto
      (fun g r => ∃ h : Stage, g = .create h ∧ h.canFail = true ∧ h ≠ .refused ∧
        ∀ a, r = .ok a → h = .grouped ∧ a = .cgroup id) (.create .initial) (createCgroup id) := by
    simp [createCgroup, Path.owner]
  have hpipe (rt : Runtime) : Quiet rt.parentChildPipe := by
    simp [Quiet, Calls, Runtime.parentChildPipe]
  have hfail (e : CoreError) : ∃ h : Stage, Phase.create .grouped = .create h ∧
    h.canFail = true ∧ h ≠ .refused := ⟨_, rfl, rfl, by simp⟩
  have hrest : Obeys (Kind.create id configPath sp).proto
      (andThen (Kind.create id configPath sp).proto
        (fun g r => match r with
          | .ok (_, pid) => g = .create (if pid = 0 then .child else .cloned pid)
          | .error _ => ∃ h : Stage, g = .create h ∧ h.canFail = true ∧ h ≠ .refused)
        fun childCgroupFd =>
          (initResources .root resources).bind fun _ => (initResources .app resources).bind fun _ =>
            (Runtime.mk none none none).parentChildPipe.bind fun runtime =>
              ((Clone3.mk 0 none none none (some SIGCHLD) none none).addFlags cloneFlags
                |>.intoCgroup childCgroupFd).build.bind fun childPid => .ret (runtime, childPid))
      (.create .initial) (createCgroup id) := by
    refine hcgroup.mono ?_
    rintro _ (e | fd) ⟨h, rfl, hcan, hne, hok⟩
    · exact ⟨h, rfl, hcan, hne⟩
    · obtain ⟨rfl, rfl⟩ := hok fd rfl
      refine obeys_bind.mpr ((initResources_quiet ..).obeys rfl fun r => ?_)
      cases r with
      | error e => exact hfail e
      | ok _ =>
        refine obeys_bind.mpr ((initResources_quiet ..).obeys rfl fun r => ?_)
        cases r with
        | error e => exact hfail e
        | ok _ =>
          refine obeys_bind.mpr ((hpipe _).obeys rfl fun r => ?_)
          cases r with
          | error e => exact hfail e
          | ok rt => simp [Clone3.build, Clone3.args_create]
  cases sp with
  | none =>
    simp [createResources, openLogFile, initialState, Path.owner]
    exact hrest
  | some s =>
    simp [createResources, openLogFile, initialState, Path.owner, Stage.event]
    exact hrest

theorem create_obeys :
    Obeys (Kind.create id configPath sp).proto
      (fun g r => ∃ h : Stage, g = .create h ∧ h.ends id r) (.create .start)
      (create id configPath sp) := by
  have hload : Obeys (Kind.create id configPath sp).proto
      (fun g r => match r with
        | .ok _ => g = .create .passed
        | .error _ => g = .create .unmade) (.create .passed) (Config.load configPath) := by
    simp [Config.load, readConfig, loads]
    grind
  refine obeys_bind.mpr ⟨.inr (.inr rfl), fun found => ?_⟩
  cases found with
  | true => simp [Path.owner, throwIf]
  | false =>
    refine obeys_bind.mpr (obeys_throwIf.mpr ⟨by simp, fun _ => obeys_bind.mpr (hload.mono ?_)⟩)
    rintro _ (e | config) rfl
    · exact ⟨_, rfl, rfl, by simp⟩
    · refine obeys_bind.mpr ((createResources_obeys config).mono ?_)
      rintro g (e | ⟨rt, pid⟩) h
      · obtain ⟨h, rfl, hcan, hne⟩ := h
        exact ⟨h, rfl, hcan, fun e => (hne e).elim⟩
      · subst h
        by_cases hp : pid = 0
        · simp only [if_pos hp, andThen_ok]
          exact createChild_obeys config rt
        · simp only [if_neg hp, andThen_ok]
          exact createParent_obeys rt pid
end

/-! ### The shim and the handlers -/

section
attribute [local simp] Stage.may Stage.advance Event.sendEvent Event.getStreamSk panic Main.halts

theorem Stage.canFail_of_canHalt {g : Stage} (h : g.canHalt = true) : g.canFail = true := by
  cases g <;> first | rfl | contradiction

theorem shim_halts {s : String} (g : Phase) (h : (Kind.create id configPath (some s)).halts g) :
    (Main.shim id configPath s).halts g := by
  cases g with
  | create g => exact Stage.canFail_of_canHalt h
  | turn | kill | delete | exec | handler | observer => exact h

theorem shimMain_obeys (s : String) :
    Obeys (Main.shim id configPath s).proto
      (fun g r => ∃ h : Stage, g = .create h ∧ h.ends id r) (.create .start)
      (shimMain id configPath s) := by
  refine obeys_bind.mpr (obeys_attempt.mpr ((create_obeys.weaken shim_halts).mono ?_))
  rintro _ (e | a) ⟨h, rfl, hends⟩
  · cases h <;> simp_all [Stage.ends, Stage.canFail, failureReport, Main.kind]
  · exact ⟨h, rfl, hends⟩

theorem ofCore_obeys {P : Proto Sys Phase} {p : Core α} {f : α → Reply} {g : Phase}
    {Q : Phase → Except Fault Reply → Prop}
    (h : Obeys P (fun g r => Q g ((r.map f).mapError Fault.core)) g p) :
    Obeys P Q g (ofCore p f) := by
  refine obeys_bind.mpr (obeys_mapError.mpr (h.mono fun g r => ?_))
  cases r <;> exact id

theorem mirror_obeys (k : Kind) {p : Core Unit} {st : ContainerState} {g : Phase}
    {Q : Phase → Except Fault Reply → Prop}
    (h : Obeys k.proto (fun g r => match r with
      | .ok () => k.may g (.setEntry id st) ∧ Q (k.next g (.setEntry id st) ()) (.ok .unit)
      | .error e => Q g (.error (.status (toStatus e)))) g p) :
    Obeys k.proto Q g ((Cloneboxd.mirror id p st).mapError .status) := by
  refine obeys_mapError.mpr (obeys_bind.mpr (obeys_mapError.mpr (h.mono fun g r => ?_)))
  rintro h
  cases r with
  | error e => exact h
  | ok _ => exact ⟨h.1, fun _ => h.2⟩

attribute [local simp] HandlerStage.may HandlerStage.advance in
theorem createHandler_obeys :
    Obeys (Kind.handler id configPath).proto
      (fun g r => ∃ h, g = .handler h ∧ (h = .answered true ↔ ∃ a, r = .ok a)) (.handler .idle)
      (Cloneboxd.create id configPath) := by
  simp [Cloneboxd.create]

theorem state_obeys (id : String) : Obeys Kind.observer.proto (fun g _ => g = .observer) .observer (state id) := by
  simp [state, readStateFile, Kind.looks]

/-- From its own pid on, `exec` opens the namespaces of two processes, and forks. -/
theorem entering_calls (id : String) (cmd : List String) (pid self : Int) :
    Calls (S := Sys) ((ExecStage.entering pid self).may id) (do
      openNamespace self "mnt"
      enterNamespace pid "uts"
      enterNamespace pid "pid"
      enterNamespace pid "net"
      enterNamespace pid "mnt"
      runInside id cmd self : Core Unit) := by
  have hsys {ε : Type} {op : Op} (h : (ExecStage.entering pid self).may id op) :
      Calls (S := Sys) ((ExecStage.entering pid self).may id) (sys op : Prog Sys ε _) :=
    ⟨h, fun _ => trivial⟩
  have henter (ns : String) :
      Calls (S := Sys) ((ExecStage.entering pid self).may id) (enterNamespace pid ns) :=
    Calls.bind (Calls.mapErr (hsys (.inr (.inl ⟨ns, .inl rfl⟩)))) fun _ => Calls.mapErr (hsys (.inl rfl))
  have hback (ns : String) :
      Calls (S := Sys) ((ExecStage.entering pid self).may id) (enterNamespace self ns) :=
    Calls.bind (Calls.mapErr (hsys (.inr (.inl ⟨ns, .inr rfl⟩)))) fun _ => Calls.mapErr (hsys (.inl rfl))
  refine Calls.bind (Calls.mapErr (hsys (.inr (.inl ⟨"mnt", .inr rfl⟩)))) fun _ =>
    Calls.bind (henter _) fun _ => Calls.bind (henter _) fun _ => Calls.bind (henter _) fun _ =>
    Calls.bind (henter _) fun _ => Calls.bind (hsys (.inr (.inr rfl))) fun r => ?_
  split
  · trivial
  · exact containerExec_all (.inl rfl) (.inl rfl) (fun _ _ _ => .inl rfl) (fun _ => .inl rfl)
      (fun _ => .inl rfl) ..
  · refine Calls.bind (Calls.mapErr (hsys (.inl rfl))) fun _ => Calls.bind (hsys (.inl rfl)) fun r => ?_
    cases r with
    | error e => exact Calls.bind (Calls.attempt (Calls.mapErr (hsys (.inl rfl)))) fun _ => trivial
    | ok _ => exact Calls.bind (hback _) fun _ => Calls.bind (hback _) fun _ => hback _

theorem exec_obeys (id : String) (cmd : List String) :
    Obeys (Kind.exec id).proto (fun g _ => ∃ h, g = .exec h) (.exec .idle) (exec id cmd) := by
  have hinside (pid self : Int) := (entering_calls id cmd pid self).obeys
    (P := (Kind.exec id).proto) (g := .exec (.entering pid self)) (Q := fun g _ => ∃ h, g = .exec h)
    (fun op hop => ⟨hop, fun r => by
      rcases hop with hq | ⟨ns, rfl | rfl⟩ | rfl
      exacts [Kind.proto_quiet hq r, rfl, rfl, rfl]⟩) ⟨pid, self, rfl⟩ fun _ => ⟨_, rfl⟩
  simp [exec, readStateFile, openLogFile, execTarget, ExecStage.may, ExecStage.advance]
  intro s hrun
  obtain ⟨ver, cid, status, pid, bundle, ann⟩ := s
  obtain rfl : status = .running := hrun
  cases pid with
  | none => exact ⟨_, rfl⟩
  | some pid => exact ⟨.inr rfl, fun self => hinside pid self⟩

theorem readStates_obeys (ids : List String) :
    Obeys Kind.observer.proto (fun g _ => g = .observer) .observer (Cloneboxd.readStates ids) := by
  induction ids with
  | nil => rfl
  | cons id ids ih =>
    refine obeys_bind.mpr (obeys_attempt.mpr ((state_obeys id).mono ?_))
    rintro _ s rfl
    refine obeys_bind.mpr (ih.mono ?_)
    rintro _ (e | states) rfl
    · rfl
    · cases s <;> rfl

/-- A request for `start`, `pause` or `resume`: the operation, and then the map. -/
theorem turnRequest_obeys (t : Turn) (id : String) :
    Obeys (Kind.turn t id).proto
      (fun g r => ∃ h, g = .turn h ∧ h ≠ .wrote ∧ (h = .settled ↔ ∃ a, r = .ok a)) (.turn .idle)
      ((Cloneboxd.mirror id (t.op id) t.target).mapError Fault.status) := by
  refine mirror_obeys _ ((turn_obeys t id).mono ?_)
  rintro _ (e | a) ⟨h, rfl, hne, hh⟩
  · exact ⟨h, rfl, by simpa using hh, by simpa using hne⟩
  · obtain rfl := hh.mpr ⟨a, rfl⟩
    exact ⟨.inr rfl, .settled, rfl, by simp, by simp⟩

theorem killRequest_obeys (id : String) :
    Obeys (Kind.kill id).proto
      (fun g r => ∃ h, g = .kill h ∧ h ≠ .wrote ∧ (h = .settled ↔ ∃ a, r = .ok a)) (.kill .idle)
      ((Cloneboxd.kill id).mapError Fault.status) := by
  refine mirror_obeys _ ((kill_obeys id).mono ?_)
  rintro _ (e | a) ⟨h, rfl, hne, hh⟩
  · exact ⟨h, rfl, by simpa using hh, by simpa using hne⟩
  · obtain rfl := hh.mpr ⟨a, rfl⟩
    exact ⟨.inr rfl, .settled, rfl, by simp, by simp⟩

theorem deleteRequest_obeys (id : String) (force : Bool) :
    Obeys (Kind.delete id force).proto
      (fun g r => ∃ h, g = .delete h ∧ h ≠ .cleared ∧ (h = .settled ↔ ∃ a, r = .ok a))
      (.delete .idle) ((Cloneboxd.delete id force).mapError Fault.status) := by
  refine obeys_mapError.mpr (obeys_bind.mpr (obeys_mapError.mpr ((delete_obeys id force).mono ?_)))
  rintro _ (e | a) ⟨h, rfl, hne, hh⟩
  · exact ⟨h, rfl, by simpa using hh, by simpa using hne⟩
  · obtain rfl := hh.mpr ⟨a, rfl⟩
    exact ⟨.inr rfl, fun _ => ⟨.settled, rfl, by simp, by simp⟩⟩

attribute [local simp] Main.post Main.isRpc Main.kind Kind.post

theorem conforms (m : Main) : Obeys m.proto m.post m.kind.init m.prog := by
  have hturn (t : Turn) (id : String) (req : Request) (hreq : (Main.rpc req).kind = .turn t id) :
      Obeys (Kind.turn t id).proto (Main.rpc req).post (.turn .idle)
        ((Cloneboxd.mirror id (t.op id) t.target).mapError Fault.status) := by
    refine (turnRequest_obeys t id).mono ?_
    rintro _ r ⟨h, rfl, hne, hh⟩
    refine ⟨?_, by simp [hne]⟩
    rw [hreq]
    simpa [hne] using hh
  cases m with
  | create id configPath sp =>
    refine ofCore_obeys (create_obeys.mono ?_)
    rintro _ (e | a) ⟨h, rfl, hh⟩
    · exact ⟨⟨hh.1, fun e => congrArg _ (hh.2 e)⟩, by simp⟩
    · exact ⟨hh, by simp⟩
  | turn t id =>
    refine ofCore_obeys ((turn_obeys t id).mono ?_)
    rintro _ (e | a) ⟨h, rfl, hne, hh⟩
    · simpa [hne, Except.map, Except.mapError] using hh
    · simpa [hne, Except.map, Except.mapError] using hh
  | kill id =>
    refine ofCore_obeys ((kill_obeys id).mono ?_)
    rintro _ (e | a) ⟨h, rfl, hne, hh⟩
    · simpa [hne, Except.map, Except.mapError] using hh
    · simpa [hne, Except.map, Except.mapError] using hh
  | delete id force =>
    refine ofCore_obeys ((delete_obeys id force).mono ?_)
    rintro _ (e | a) ⟨h, rfl, hne, hh⟩
    · simpa [hne, Except.map, Except.mapError] using hh
    · simpa [hne, Except.map, Except.mapError] using hh
  | state id => exact ofCore_obeys ((state_obeys id).mono fun g r hg => by simp [hg])
  | exec id cmd =>
    refine ofCore_obeys ((exec_obeys id cmd).mono ?_)
    rintro _ r ⟨h, rfl⟩
    simp
  | shim id configPath s =>
    refine ofCore_obeys ((shimMain_obeys s).mono ?_)
    rintro _ (e | a) ⟨h, rfl, hh⟩
    · exact ⟨⟨hh.1, fun e => congrArg _ (hh.2 e)⟩, by simp⟩
    · exact ⟨hh, by simp⟩
  | rpc req =>
    cases req with
    | create id configPath =>
      refine obeys_mapError.mpr (createHandler_obeys.mono ?_)
      rintro _ (e | a) ⟨h, rfl, hh⟩
      · simpa using hh
      · simpa using hh
    | start id => exact hturn .start id _ rfl
    | pause id => exact hturn .pause id _ rfl
    | resume id => exact hturn .resume id _ rfl
    | kill id =>
      refine (killRequest_obeys id).mono ?_
      rintro _ r ⟨h, rfl, hne, hh⟩
      simpa [hne] using hh
    | delete id force =>
      refine (deleteRequest_obeys id force).mono ?_
      rintro _ r ⟨h, rfl, hne, hh⟩
      simpa [hne] using hh
    | state id =>
      refine obeys_mapError.mpr (obeys_bind.mpr (obeys_mapError.mpr ((state_obeys id).mono ?_)))
      rintro _ (e | s) rfl <;> simp
    | exec => simp [Main.prog, Request.handler, Cloneboxd.exec, Kind.init, mapError]
    | wait id =>
      refine obeys_mapError.mpr ⟨rfl, fun tx => ⟨rfl, fun found => ?_⟩⟩
      cases found with
      | false => exact ⟨trivial, by simp [Kind.init]⟩
      | true =>
        refine ⟨rfl, fun code => ?_⟩
        cases code <;> exact ⟨trivial, by simp [Kind.init]⟩
    | list =>
      refine obeys_mapError.mpr
        ⟨rfl, fun ids => obeys_bind.mpr (obeys_bind.mpr ((readStates_obeys ids).mono ?_))⟩
      rintro _ (e | states) rfl <;> simp
end
end Clonebox
