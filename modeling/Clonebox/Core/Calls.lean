import Clonebox.Core.Runs

/-! # The calls of `create`

The controllers, the network and the mounts are set up by functions that make calls of no other
kind. `CreateCall` lists these and all the other calls that a run of `create` can make. -/

namespace Clonebox
open Conc Prog

variable {ε α β : Type} {id configPath : String} {sp : Option String}

/-- A call on controllers, on the network or on mounts, or the end of the process. -/
def Op.prepares : Op → Bool
  | .read (.controllers _) | .read (.subtreeControl _) | .write (.subtreeControl _) _
  | .write (.host _) _ | .createDirAll (.host _) | .removeDir (.host _)
  | .openFd _ | .netlinkSocket | .netlinkBind _ | .send _ _ | .recv _ | .iptables _ | .setns _
  | .mount _ _ _ _ _ | .sethostname _ | .pivotRoot _ _ | .chdir _ | .umount2 _ | .exit _ | .panic => true
  | _ => false

/-- A call that a run of `create` can make. -/
inductive CreateCall (id configPath : String) (sp : Option String) : Op → Prop
  | prepares {op : Op} (h : op.prepares = true) : CreateCall id configPath sp op
  | found : CreateCall id configPath sp (.exists (.bundle id))
  | load : CreateCall id configPath sp (.read (.host (configPath ++ "/config.json")))
  | bundle : CreateCall id configPath sp (.createDirAll (.bundle id))
  /-- A directory that the child makes for its overlay. -/
  | layer {f : BundleFile} : CreateCall id configPath sp (.createDirAll (.inBundle id f))
  | permissions {p : Path} {mode : Nat} : CreateCall id configPath sp (.setPermissions p mode)
  | openLog : CreateCall id configPath sp (.openFile (.inBundle id .containerLog))
  | log {message : String} : CreateCall id configPath sp (.append (.inBundle id .containerLog) message)
  | connectEvent {s : String} (h : sp = some s) : CreateCall id configPath sp (.connectEvent s)
  | event {s : String} {e : Event} (h : sp = some s) (he : e.id = id) :
    CreateCall id configPath sp (.writeEvent s e)
  | initial {config : Config} :
    CreateCall id configPath sp (.write (.inBundle id .stateJson) (.state (initialState config id)))
  | reread : CreateCall id configPath sp (.read (.inBundle id .stateJson))
  | created {pid : Int} {s : State} :
    CreateCall id configPath sp (.write (.inBundle id .stateJson) (.state (s.setCreated pid)))
  | stopped {s : State} :
    CreateCall id configPath sp (.write (.inBundle id .stateJson) (.state s.setStopped))
  | apps : CreateCall id configPath sp (.createDirAll (.level .app))
  | cgroup : CreateCall id configPath sp (.createDirAll (.cgroup id))
  | openCgroup : CreateCall id configPath sp (.openFile (.cgroup id))
  | limit {resource value : String} (h : resource ∈ resources) :
    CreateCall id configPath sp (.write (.inCgroup id resource "max") (.text value))
  | pipe : CreateCall id configPath sp .pipe2
  | pipeRead {pipe : Nat} : CreateCall id configPath sp (.pipeRead pipe)
  | pipeWrite {pipe : Nat} : CreateCall id configPath sp (.pipeWrite pipe)
  | clone {args : CloneArgs} : CreateCall id configPath sp (.clone3 args)
  | wait {pid : Int} : CreateCall id configPath sp (.waitpid pid)
  | execve {path : String} {args env : List String} : CreateCall id configPath sp (.execve path args env)
  | socket : CreateCall id configPath sp .socket
  | bind : CreateCall id configPath sp (.bind (getSocketPath id))
  /-- Longer addresses are turned down before. -/
  | listen (h : (getSocketPath id).str.utf8ByteSize < 108) :
    CreateCall id configPath sp (.listen (getSocketPath id))
  | accept (h : (getSocketPath id).str.utf8ByteSize < 108) :
    CreateCall id configPath sp (.accept4 (getSocketPath id))
  | close : CreateCall id configPath sp (.close (getSocketPath id))

/-! ### What is prepared -/

/-- The program only prepares. -/
def Prepares (p : Prog Sys ε α) : Prop := Prog.Calls (S := Sys) (fun op => op.prepares = true) p

namespace Prepares

theorem bind {p : Prog Sys ε α} {f : α → Prog Sys ε β} (hp : Prepares p)
    (hf : ∀ a, Prepares (f a)) : Prepares (p.bind f) := Prog.Calls.bind hp hf

theorem sys {op : Op} (h : op.prepares = true) : Prepares (sys op : Prog Sys ε _) :=
  ⟨h, fun _ => trivial⟩

theorem mapErr {δ : Type} {p : Prog Sys ε (Except δ α)} {f : δ → ε} (hp : Prepares p) :
    Prepares (mapErr p f) := Clonebox.Calls.mapErr hp

theorem throwIf {c : Prop} [Decidable c] {e : ε} : Prepares (.throwIf c e : Prog Sys ε Unit) :=
  calls_throwIf

theorem childTry {p : Prog Sys ε (Io Unit)} (hp : Prepares p) : Prepares (childTry p) :=
  Clonebox.Calls.childTry hp rfl

end Prepares

theorem initResources_prepares (level : CgroupLevel) (rs : List String) :
    Prepares (initResources level rs) := by
  induction rs with
  | nil => trivial
  | cons r rs ih =>
    refine .bind ?_ fun _ => ih
    refine .bind (.mapErr (.sys rfl)) fun _ => .bind .throwIf fun _ => ?_
    refine .bind (.mapErr (.sys rfl)) fun enabled => ?_
    by_cases h : strContains enabled.asText r
    · rw [if_pos h]
      trivial
    · rw [if_neg h]
      exact .mapErr (.sys rfl)

theorem createNetlinkSocket_prepares : Prepares createNetlinkSocket :=
  .bind (.mapErr (.sys rfl)) fun _ => .bind (.mapErr (.sys rfl)) fun _ => trivial

theorem request_prepares (socket : Nat) (w : Writer) : Prepares (request socket w) := by
  have hack : Prepares (recvAck socket) := by
    refine .bind (.mapErr (.sys rfl)) fun r => ?_
    cases r <;> trivial
  refine .bind (.sys rfl) fun r => ?_
  cases r with
  | error e => trivial
  | ok _ => exact .bind (Prog.Calls.attempt hack) fun _ => trivial

theorem getInterfaceIndex_prepares (socket : Nat) (w : Writer) (name : String) :
    Prepares (getInterfaceIndex socket w name) := by
  have hindex : Prepares (recvIndex socket) := by
    refine .bind (.mapErr (.sys rfl)) fun r => ?_
    cases r <;> trivial
  refine .bind (.sys rfl) fun r => ?_
  cases r with
  | error e => trivial
  | ok _ => exact .bind (Prog.Calls.attempt hindex) fun _ => trivial

theorem orReturn_prepares {p : Core (Except CoreError α × Writer)} (h : Prepares p) :
    Prepares (orReturn p) := by
  refine h.bind fun r => ?_
  obtain ⟨r, w⟩ := r
  cases r <;> trivial

theorem createPeerNetwork_prepares (w : Writer) (i : UInt32) (h p : Ipv4Addr) :
    Prepares (createPeerNetwork w i h p) := by
  refine .bind createNetlinkSocket_prepares fun _ => ?_
  refine .bind (orReturn_prepares (request_prepares ..)) fun _ => ?_
  refine .bind (orReturn_prepares (request_prepares ..)) fun _ => ?_
  refine .bind (orReturn_prepares (request_prepares ..)) fun _ => ?_
  exact .bind (orReturn_prepares (request_prepares ..)) fun _ => trivial

theorem createNetwork_prepares (id : String) (pid : Int) : Prepares (createNetwork id pid) := by
  refine .bind (.mapErr (.sys rfl)) fun _ => .bind (.mapErr (.sys rfl)) fun _ => ?_
  cases takeBytes 9 id.toList with
  | none => exact ⟨rfl, fun _ => trivial⟩
  | some suffix =>
    refine .bind createNetlinkSocket_prepares fun _ => ?_
    refine .bind (orReturn_prepares (request_prepares ..)) fun _ => ?_
    refine .bind (orReturn_prepares (getInterfaceIndex_prepares ..)) fun _ => ?_
    refine .bind (orReturn_prepares (request_prepares ..)) fun _ => ?_
    refine .bind (orReturn_prepares (request_prepares ..)) fun _ => ?_
    refine .bind (orReturn_prepares (getInterfaceIndex_prepares ..)) fun _ => ?_
    refine .bind (orReturn_prepares (request_prepares ..)) fun _ => ?_
    refine .bind (.mapErr (.sys rfl)) fun _ => .bind (createPeerNetwork_prepares ..) fun _ => ?_
    refine .bind (.mapErr (.sys rfl)) fun _ => .bind (.mapErr (.sys rfl)) fun _ => ?_
    exact .mapErr (.sys rfl)

theorem doPivotRoot_prepares (newRoot : String) : Prepares (doPivotRoot newRoot) := by
  refine .bind (.childTry (.sys rfl)) fun _ => .bind (.childTry (.sys rfl)) fun _ => ?_
  refine .bind (.childTry (.sys rfl)) fun _ => .bind (.childTry (.sys rfl)) fun _ => ?_
  exact .childTry (.sys rfl)

theorem postPivotMount_prepares (mounts : List Mount) : Prepares (postPivotMount mounts) := by
  induction mounts with
  | nil => trivial
  | cons m mounts ih =>
    by_cases h : m.mountType = some "tmpfs"
    · simp only [postPivotMount, if_pos h]
      exact .bind (.childTry (.sys rfl)) fun _ => ih
    · simp only [postPivotMount, if_neg h]
      exact ih

theorem doDefaultMounts_prepares : Prepares doDefaultMounts :=
  .bind (.childTry (.sys rfl)) fun _ => .bind (.childTry (.sys rfl)) fun _ => .childTry (.sys rfl)

/-! ### `create` -/

/-- The program makes no other calls than `create` does. -/
def CallsOfCreate (id configPath : String) (sp : Option String) (p : Prog Sys ε α) : Prop :=
  Prog.Calls (S := Sys) (CreateCall id configPath sp) p

namespace CallsOfCreate

theorem bind {p : Prog Sys ε α} {f : α → Prog Sys ε β} (hp : CallsOfCreate id configPath sp p)
    (hf : ∀ a, CallsOfCreate id configPath sp (f a)) : CallsOfCreate id configPath sp (p.bind f) :=
  Prog.Calls.bind hp hf

theorem of_prepares {p : Prog Sys ε α} (hp : Prepares p) : CallsOfCreate id configPath sp p :=
  Prog.Calls.mono hp fun _ => .prepares

theorem sys {op : Op} (h : CreateCall id configPath sp op) :
    CallsOfCreate id configPath sp (sys op : Prog Sys ε _) := ⟨h, fun _ => trivial⟩

theorem mapErr {δ : Type} {p : Prog Sys ε (Except δ α)} {f : δ → ε}
    (hp : CallsOfCreate id configPath sp p) : CallsOfCreate id configPath sp (mapErr p f) :=
  Clonebox.Calls.mapErr hp

theorem throwIf {c : Prop} [Decidable c] {e : ε} :
    CallsOfCreate id configPath sp (.throwIf c e : Prog Sys ε Unit) := calls_throwIf

theorem childTry {p : Prog Sys ε (Io Unit)} (hp : CallsOfCreate id configPath sp p) :
    CallsOfCreate id configPath sp (childTry p) := Clonebox.Calls.childTry hp (.prepares rfl)

end CallsOfCreate

theorem load_calls : CallsOfCreate id configPath sp (Config.load configPath) := by
  refine .bind (.bind (.sys .load) fun r => ?_) fun config =>
    .bind .throwIf fun _ => .bind .throwIf fun _ => trivial
  rcases r with e | (s | c | t)
  all_goals trivial

theorem sendEvent_calls {s : String} {e : Event} (hsp : sp = some s) (he : e.id = id) :
    CallsOfCreate id configPath sp (e.sendEvent s) :=
  .bind (.mapErr (.sys (.connectEvent hsp))) fun _ => .mapErr (.sys (.event hsp he))

theorem report_calls {e : Event} (he : e.id = id) : CallsOfCreate id configPath sp (report sp e) := by
  cases sp with
  | none => trivial
  | some s => exact sendEvent_calls rfl he

theorem updateState_calls {f : State → State}
    (h : ∀ s, CreateCall id configPath sp (.write (.inBundle id .stateJson) (.state (f s)))) :
    CallsOfCreate id configPath sp (updateState id f) :=
  .bind (readStateFile_all .reread) fun s => .bind (.mapErr (.sys (h s))) fun _ => trivial

theorem prePivotMount_calls_create (newRoot : String) (mounts : List Mount) :
    CallsOfCreate id configPath sp (prePivotMount id newRoot mounts) := by
  have hmount (src : Option String) (dest : String) (mountType : Option String) (flags : List MsFlag)
      (data : Option String) :
      CallsOfCreate id configPath sp (mountChild src dest mountType flags data) :=
    .childTry (.sys (.prepares rfl))
  have hdir (f : BundleFile) :
      CallsOfCreate id configPath sp (childTry (Clonebox.sys (.createDirAll (.inBundle id f))) : Core Unit) :=
    .childTry (.sys .layer)
  refine .bind (hmount ..) fun _ => ?_
  cases mounts.find? Mount.isBind with
  | some m => exact .bind (hmount ..) fun _ => trivial
  | none =>
    exact .bind (hdir _) fun _ => .bind (hdir _) fun _ => .bind (hdir _) fun _ =>
      .bind (hmount ..) fun _ => trivial

theorem createChild_calls (config : Config) (rt : Runtime) :
    CallsOfCreate id configPath sp (createChild id config rt) := by
  have hfreeze : CallsOfCreate id configPath sp rt.freezeChild := by
    unfold Runtime.freezeChild
    cases rt.childEnd with
    | none => trivial
    | some pipe => exact .mapErr (.sys .pipeRead)
  refine .bind (.childTry (.sys (.prepares rfl))) fun _ =>
    .bind (.childTry (.sys (.prepares rfl))) fun _ => ?_
  refine .bind (prePivotMount_calls_create ..) fun root => ?_
  refine .bind (.of_prepares (doPivotRoot_prepares root)) fun _ => ?_
  refine .bind (.of_prepares (postPivotMount_prepares _)) fun _ => ?_
  refine .bind (.of_prepares doDefaultMounts_prepares) fun _ => .bind hfreeze fun _ => ?_
  exact containerExec_all (.prepares rfl) (.prepares rfl) (fun _ _ _ => .execve) (fun _ => .log)
    (fun _ => .prepares rfl) ..

theorem stoppedEvent_id {e : Event} (st : WaitStatus) : (stoppedEvent e st).id = e.id := by
  cases st <;> rfl

theorem superviseChild_calls {e : Event} (he : e.id = id) (rt : Runtime) (pid : Int) :
    CallsOfCreate id configPath sp (superviseChild id sp e rt pid) := by
  have hgate : CallsOfCreate id configPath sp rt.unfreezeChild := by
    unfold Runtime.unfreezeChild
    cases rt.parentEnd with
    | none => trivial
    | some pipe => exact .mapErr (.sys .pipeWrite)
  have hend (st : WaitStatus) : (stoppedEvent e st).id = id := (stoppedEvent_id st).trans he
  refine .bind hgate fun _ => .bind (.mapErr (.sys .wait)) fun st => ?_
  refine .bind (report_calls (hend st)) fun _ => ?_
  exact .bind (updateState_calls fun _ => .stopped) fun _ => .mapErr (.sys .log)

theorem acceptStart_calls : CallsOfCreate id configPath sp (Runtime.acceptStart id) := by
  rw [Runtime.acceptStart, bind_def, unixAddr, bind_def, bind_assoc]
  unfold throwIf
  by_cases hlong : 108 ≤ (getSocketPath id).str.utf8ByteSize
  · rw [if_pos hlong]
    trivial
  rw [if_neg hlong]
  simp only [pure_def, Prog.bind]
  refine .bind (.mapErr (.sys .bind)) fun _ => .bind (.mapErr (.sys .permissions)) fun _ => ?_
  refine .bind (.mapErr (.sys (.listen (Nat.not_le.mp hlong)))) fun _ => ?_
  exact .mapErr (.sys (.accept (Nat.not_le.mp hlong)))

/-- The socket that a supervisor has accepted on is the one it closes. -/
theorem supervised_calls {e : Event} (he : e.id = id) (rt : Runtime) (pid : Int) :
    CallsOfCreate id configPath sp ((rt.parentProcSocket id).bind fun rt =>
      (superviseChild id sp e rt pid).attempt.bind fun result => rt.drop.bind fun _ => .ofExcept result) := by
  have hend (rt : Runtime) (h : rt.drop = (sys (.close (getSocketPath id)) : Core Unit)) :
      CallsOfCreate id configPath sp ((superviseChild id sp e rt pid).attempt.bind fun result =>
        rt.drop.bind fun _ => (.ofExcept result : Core Unit)) := by
    refine .bind (Prog.Calls.attempt (superviseChild_calls he rt pid)) fun result => ?_
    rw [h]
    exact .bind (.sys .close) fun _ => calls_ofExcept
  rw [Runtime.parentProcSocket, bind_def, bind_def, bind_assoc]
  refine .bind (.mapErr (.sys .socket)) fun _ => ?_
  rw [bind_assoc]
  refine .bind (Prog.Calls.attempt acceptStart_calls) fun r => ?_
  cases r with
  | ok _ => exact hend _ rfl
  | error e => exact ⟨.close, fun _ => trivial⟩

theorem createParent_calls {e : Event} (he : e.id = id) (rt : Runtime) (pid : Int) :
    CallsOfCreate id configPath sp (createParent id sp e rt pid) := by
  refine .bind (.of_prepares (createNetwork_prepares id pid)) fun _ => ?_
  refine .bind (.mapErr (.sys (.limit (by simp [resources])))) fun _ => ?_
  refine .bind (.mapErr (.sys (.limit (by simp [resources])))) fun _ => ?_
  have hcreated : (e.updateState .created).id = id := he
  refine .bind (report_calls hcreated) fun _ => .bind (updateState_calls fun _ => .created) fun _ => ?_
  exact supervised_calls hcreated rt pid

theorem createResources_calls {e : Event} (he : e.id = id) (config : Config) :
    CallsOfCreate id configPath sp (createResources id config sp e) := by
  have hcgroup : CallsOfCreate id configPath sp (createCgroup id) :=
    .bind (.mapErr (.sys .apps)) fun _ => .bind (.mapErr (.sys .cgroup)) fun _ =>
      .bind (.mapErr (.sys .openCgroup)) fun _ => trivial
  have hbuild (c : Clone3) : CallsOfCreate id configPath sp c.build :=
    .bind calls_ofExcept fun _ => .mapErr (.sys .clone)
  refine .bind (.mapErr (.sys .bundle)) fun _ => .bind (.mapErr (.sys .permissions)) fun _ => ?_
  refine .bind (.mapErr (.sys .openLog)) fun _ => .bind (report_calls he) fun _ => ?_
  refine .bind (.mapErr (.sys .initial)) fun _ => .bind hcgroup fun fd => ?_
  refine .bind (.of_prepares (initResources_prepares ..)) fun _ => ?_
  refine .bind (.of_prepares (initResources_prepares ..)) fun _ => ?_
  refine .bind (.bind (.mapErr (.sys .pipe)) fun _ => trivial) fun rt => ?_
  exact .bind (hbuild _) fun pid => trivial

/-- `create` makes the calls of the list only. -/
theorem create_calls : CallsOfCreate id configPath sp (create id configPath sp) := by
  refine .bind (.sys .found) fun found => .bind .throwIf fun _ => .bind load_calls fun config => ?_
  have hevent : (⟨id, .creating, some 0⟩ : Event).id = id := rfl
  refine .bind (createResources_calls hevent config) fun r => ?_
  obtain ⟨rt, pid⟩ := r
  dsimp only
  by_cases hpid : pid = 0
  · rw [if_pos hpid]
    exact createChild_calls config rt
  · rw [if_neg hpid]
    exact createParent_calls hevent rt pid

end Clonebox
