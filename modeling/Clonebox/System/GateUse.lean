import Clonebox.Core.Runs
import Clonebox.System.Protocol

/-! # Who uses the start gate

The child of a supervisor waits in a read of the pipe until the supervisor writes a byte to it. What
either has done when it comes to the gate is read off its trace: the parts of its program before the
gate have returned. -/

namespace Clonebox
open Conc Prog

variable {ε α β : Type} {id configPath : String} {sp : Option String}

/-! ### Programs that leave the gate alone -/

/-- A use of the pipe, or the start of the command. -/
def Op.gates : Op → Bool
  | .pipeRead _ | .pipeWrite _ | .execve _ _ _ => true
  | _ => false

/-- A call that says `created`. -/
def Op.announces : Op → Bool
  | .writeEvent _ e => e.state = .created
  | .write (.inBundle _ .stateJson) (.state s) => s.status = .created
  | _ => false

def Op.plain (op : Op) : Bool := !op.gates && !op.announces

theorem Op.plain_iff {op : Op} : op.plain = true ↔ op.gates = false ∧ op.announces = false := by
  simp [plain]

/-- A program that does not use the gate. -/
def Gateless (p : Prog Sys ε α) : Prop := Calls (S := Sys) (fun op => op.gates = false) p

/-- A program that neither uses the gate nor says `created`. -/
def Plain (p : Prog Sys ε α) : Prop := Calls (S := Sys) (fun op => op.plain = true) p

namespace Gateless

theorem bind {p : Prog Sys ε α} {f : α → Prog Sys ε β} (hp : Gateless p)
    (hf : ∀ a, Gateless (f a)) : Gateless (p.bind f) := Calls.bind hp hf

theorem mapErr {δ : Type} {p : Prog Sys ε (Except δ α)} {f : δ → ε} (hp : Gateless p) :
    Gateless (mapErr p f) := Clonebox.Calls.mapErr hp

theorem sys {op : Op} (h : op.gates = false) : Gateless (sys op : Prog Sys ε _) :=
  ⟨h, fun _ => trivial⟩

theorem throwIf {c : Prop} [Decidable c] {e : ε} : Gateless (.throwIf c e : Prog Sys ε Unit) :=
  calls_throwIf

end Gateless

namespace Plain

theorem bind {p : Prog Sys ε α} {f : α → Prog Sys ε β} (hp : Plain p) (hf : ∀ a, Plain (f a)) :
    Plain (p.bind f) := Calls.bind hp hf

theorem mapErr {δ : Type} {p : Prog Sys ε (Except δ α)} {f : δ → ε} (hp : Plain p) :
    Plain (mapErr p f) := Clonebox.Calls.mapErr hp

theorem sys {op : Op} (h : op.plain = true) : Plain (sys op : Prog Sys ε _) :=
  ⟨h, fun _ => trivial⟩

theorem throwIf {c : Prop} [Decidable c] {e : ε} : Plain (.throwIf c e : Prog Sys ε Unit) :=
  calls_throwIf

theorem gateless {p : Prog Sys ε α} (h : Plain p) : Gateless p :=
  Calls.mono h fun _ hop => (Op.plain_iff.mp hop).1

end Plain

section
variable (id)

theorem writeStateFile_gateless (s : State) : Gateless (writeStateFile id s) :=
  .mapErr (.sys rfl)

theorem readStateFile_gateless : Gateless (readStateFile id) := readStateFile_all rfl

theorem updateState_gateless (f : State → State) : Gateless (updateState id f) := by
  refine (readStateFile_gateless id).bind fun s => ?_
  exact (writeStateFile_gateless id _).bind fun _ => trivial

theorem writeLogFile_gateless (m : String) : Gateless (writeLogFile id m) := .mapErr (.sys rfl)

theorem setCgroup_plain (resource key value : String) :
    Plain (setCgroup id resource key value) := .mapErr (.sys rfl)

end

theorem sendEvent_gateless (e : Event) (path : String) : Gateless (e.sendEvent path) :=
  .bind (.mapErr (.sys rfl)) fun _ => .mapErr (.sys rfl)

theorem report_gateless (sp : Option String) (e : Event) : Gateless (report sp e) := by
  cases sp with
  | none => trivial
  | some s => exact sendEvent_gateless e s

theorem report_plain {e : Event} (h : e.state ≠ .created) (sp : Option String) :
    Plain (report sp e) := by
  cases sp with
  | none => trivial
  | some s =>
    refine .bind (.mapErr (.sys rfl)) fun _ => .mapErr (.sys (Op.plain_iff.mpr ⟨rfl, ?_⟩))
    simp [Op.announces, h]

theorem load_plain (configPath : String) : Plain (Config.load configPath) := by
  refine .bind ?_ fun c => ?_
  · refine .bind (.sys rfl) fun r => ?_
    rcases r with e | (s | c | t) <;> trivial
  · refine .bind .throwIf fun _ => ?_
    exact .bind .throwIf fun _ => trivial

theorem createNetlinkSocket_plain : Plain createNetlinkSocket :=
  .bind (.mapErr (.sys rfl)) fun _ => .bind (.mapErr (.sys rfl)) fun _ => trivial

theorem request_plain (socket : Nat) (w : Writer) : Plain (request socket w) := by
  have hack : Plain (recvAck socket) := by
    refine .bind (.mapErr (.sys rfl)) fun r => ?_
    cases r <;> trivial
  refine .bind (.sys rfl) fun r => ?_
  cases r with
  | error e => trivial
  | ok _ => exact .bind (Calls.attempt hack) fun _ => trivial

theorem getInterfaceIndex_plain (socket : Nat) (w : Writer) (name : String) :
    Plain (getInterfaceIndex socket w name) := by
  have hindex : Plain (recvIndex socket) := by
    refine .bind (.mapErr (.sys rfl)) fun r => ?_
    cases r <;> trivial
  refine .bind (.sys rfl) fun r => ?_
  cases r with
  | error e => trivial
  | ok _ => exact .bind (Calls.attempt hindex) fun _ => trivial

theorem orReturn_plain {p : Core (Except CoreError α × Writer)} (h : Plain p) :
    Plain (orReturn p) := by
  refine h.bind fun r => ?_
  obtain ⟨r, w⟩ := r
  cases r <;> trivial

theorem createPeerNetwork_plain (w : Writer) (i : UInt32) (h p : Ipv4Addr) :
    Plain (createPeerNetwork w i h p) := by
  refine .bind createNetlinkSocket_plain fun _ => ?_
  refine .bind (orReturn_plain (request_plain ..)) fun _ => ?_
  refine .bind (orReturn_plain (request_plain ..)) fun _ => ?_
  refine .bind (orReturn_plain (request_plain ..)) fun _ => ?_
  exact .bind (orReturn_plain (request_plain ..)) fun _ => trivial

theorem createNetwork_plain (id : String) (pid : Int) : Plain (createNetwork id pid) := by
  refine .bind (.mapErr (.sys rfl)) fun _ => .bind (.mapErr (.sys rfl)) fun _ => ?_
  cases takeBytes 9 id.toList with
  | none => exact ⟨rfl, fun _ => trivial⟩
  | some suffix =>
    refine .bind createNetlinkSocket_plain fun _ => ?_
    refine .bind (orReturn_plain (request_plain ..)) fun _ => ?_
    refine .bind (orReturn_plain (getInterfaceIndex_plain ..)) fun _ => ?_
    refine .bind (orReturn_plain (request_plain ..)) fun _ => ?_
    refine .bind (orReturn_plain (request_plain ..)) fun _ => ?_
    refine .bind (orReturn_plain (getInterfaceIndex_plain ..)) fun _ => ?_
    refine .bind (orReturn_plain (request_plain ..)) fun _ => ?_
    refine .bind (.mapErr (.sys rfl)) fun _ => .bind (createPeerNetwork_plain ..) fun _ => ?_
    refine .bind (.mapErr (.sys rfl)) fun _ => .bind (.mapErr (.sys rfl)) fun _ => ?_
    exact .mapErr (.sys rfl)

theorem initResources_plain (level : CgroupLevel) (rs : List String) :
    Plain (initResources level rs) := by
  induction rs with
  | nil => trivial
  | cons r rs ih =>
    refine .bind ?_ fun _ => ih
    refine .bind (.mapErr (.sys rfl)) fun _ => .bind .throwIf fun _ => ?_
    refine .bind (.mapErr (.sys rfl)) fun enabled => ?_
    by_cases h : strContains enabled.asText r
    · rw [if_pos h]
      trivial
    · rw [if_neg h]
      exact .mapErr (.sys rfl)

theorem acceptStart_plain (id : String) : Plain (Runtime.acceptStart id) := by
  refine .bind (.bind .throwIf fun _ => trivial) fun addr => .bind (.mapErr (.sys rfl)) fun _ => ?_
  refine .bind (.mapErr (.sys rfl)) fun _ => .bind (.mapErr (.sys rfl)) fun _ => ?_
  exact .mapErr (.sys rfl)

theorem parentProcSocket_plain (rt : Runtime) : Plain (rt.parentProcSocket id) := by
  refine .bind (.mapErr (.sys rfl)) fun _ => .bind (acceptStart_plain id).attempt fun r => ?_
  cases r with
  | ok _ => trivial
  | error e => exact .bind (.sys rfl) fun _ => trivial

theorem childTry_plain {op : Prog Sys ε (Io Unit)} (h : Plain op) : Plain (childTry op) :=
  Calls.childTry h rfl

theorem prePivotMount_plain (newRoot : String) (mounts : List Mount) :
    Plain (prePivotMount id newRoot mounts) := by
  refine .bind (childTry_plain (.sys rfl)) fun _ => ?_
  cases mounts.find? Mount.isBind with
  | some m => exact .bind (childTry_plain (.sys rfl)) fun _ => trivial
  | none =>
    refine .bind (childTry_plain (.sys rfl)) fun _ => ?_
    refine .bind (childTry_plain (.sys rfl)) fun _ => ?_
    refine .bind (childTry_plain (.sys rfl)) fun _ => ?_
    exact .bind (childTry_plain (.sys rfl)) fun _ => trivial

theorem doPivotRoot_plain (newRoot : String) : Plain (doPivotRoot newRoot) := by
  refine .bind (childTry_plain (.sys rfl)) fun _ => .bind (childTry_plain (.sys rfl)) fun _ => ?_
  refine .bind (childTry_plain (.sys rfl)) fun _ => .bind (childTry_plain (.sys rfl)) fun _ => ?_
  exact childTry_plain (.sys rfl)

theorem postPivotMount_plain (mounts : List Mount) : Plain (postPivotMount mounts) := by
  induction mounts with
  | nil => trivial
  | cons m mounts ih =>
    by_cases h : m.mountType = some "tmpfs"
    · simp only [postPivotMount, if_pos h]
      exact .bind (childTry_plain (.sys rfl)) fun _ => ih
    · simp only [postPivotMount, if_neg h]
      exact ih

theorem doDefaultMounts_plain : Plain doDefaultMounts :=
  .bind (childTry_plain (.sys rfl)) fun _ => .bind (childTry_plain (.sys rfl)) fun _ =>
    childTry_plain (.sys rfl)

/-! ### What has been done -/

variable {tr : List Sys.Ev}

/-- What a supervisor has done before it says that its child is created. -/
structure Prepared (id : String) (pid : Int) (tr : List Sys.Ev) : Prop where
  network : Completed (createNetwork id pid) tr
  cpu : ⟨.write (.inCgroup id "cpu" "max") (.text "100000 100000"), .ok ()⟩ ∈ tr
  memory : ⟨.write (.inCgroup id "memory" "max") (.text "256M"), .ok ()⟩ ∈ tr

/-- What a supervisor has done before it opens the gate for its child. -/
structure Opened (id : String) (pid : Int) (tr : List Sys.Ev) : Prop extends Prepared id pid tr where
  created : ∃ s : State, s.status = .created ∧ s.pid = some pid ∧
    ⟨.write (stateJson id) (.state s), .ok ()⟩ ∈ tr
  accepted : ⟨.accept4 (startSk id), .ok ()⟩ ∈ tr

section
variable {pid : Int} {tr' : List Sys.Ev}

theorem Prepared.left (h : Prepared id pid tr) : Prepared id pid (tr ++ tr') :=
  ⟨h.network.left, List.mem_append_left _ h.cpu, List.mem_append_left _ h.memory⟩

theorem Prepared.right (h : Prepared id pid tr') : Prepared id pid (tr ++ tr') :=
  ⟨h.network.right, List.mem_append_right _ h.cpu, List.mem_append_right _ h.memory⟩

theorem Opened.left (h : Opened id pid tr) : Opened id pid (tr ++ tr') := by
  obtain ⟨s, hst, hpid, hs⟩ := h.created
  exact ⟨h.toPrepared.left, ⟨s, hst, hpid, List.mem_append_left _ hs⟩,
    List.mem_append_left _ h.accepted⟩

theorem Opened.right (h : Opened id pid tr') : Opened id pid (tr ++ tr') := by
  obtain ⟨s, hst, hpid, hs⟩ := h.created
  exact ⟨h.toPrepared.right, ⟨s, hst, hpid, List.mem_append_right _ hs⟩,
    List.mem_append_right _ h.accepted⟩

end

/-- The setup of the child, up to the gate. -/
def childSetup (id : String) (config : Config) : Core Unit := do
  makeChildPrivate
  setChildHostname (config.getHostname.getD "none")
  let newRoot ← prePivotMount id config.getRootPath (config.getMounts.getD [])
  doPivotRoot newRoot
  postPivotMount (config.getMounts.getD [])
  doDefaultMounts

theorem createChild_eq (config : Config) (rt : Runtime) : createChild id config rt =
    (childSetup id config).bind fun _ => rt.freezeChild.bind fun _ =>
      containerExec config.getProcessArgs config.getProcessEnv (some config.getProcessCwd) id := by
  simp [createChild, childSetup, Prog.bind_assoc]

theorem childSetup_plain (config : Config) : Plain (childSetup id config) :=
  .bind (childTry_plain (.sys rfl)) fun _ => .bind (childTry_plain (.sys rfl)) fun _ =>
    (prePivotMount_plain _ _).bind fun _ => (doPivotRoot_plain _).bind fun _ =>
      (postPivotMount_plain _).bind fun _ => doDefaultMounts_plain

theorem parentChildPipe_ret {rt rt' : Runtime} (h : Reaches rt.parentChildPipe tr (.ret rt')) :
    ∃ p, rt' = { rt with childEnd := some p, parentEnd := some p } ∧ tr = [⟨.pipe2, .ok p⟩] := by
  obtain ⟨_, _, p, rfl, hp, hret⟩ := h.of_bind_ret
  cases reaches_sys (reaches_mapErr hp)
  obtain ⟨rfl, he⟩ := hret.of_ret
  cases he
  exact ⟨p, rfl, rfl⟩

theorem build_ret {c : Clone3} {pid : Int} (h : Reaches c.build tr (.ret pid)) :
    ∃ args, ⟨.clone3 args, .ok pid⟩ ∈ tr := by
  obtain ⟨_, _, args, rfl, -, hclone⟩ := h.of_bind_ret
  cases reaches_sys (reaches_mapErr hclone)
  exact ⟨args, by simp⟩

/-- The pipe and the child, when both are made. -/
theorem createResources_ret {config : Config} {ev : Event} {rt : Runtime} {pid : Int}
    (h : Reaches (createResources id config sp ev) tr (.ret (rt, pid))) :
    ∃ p args, rt = ⟨some p, some p, none⟩ ∧ ⟨.pipe2, .ok p⟩ ∈ tr ∧ ⟨.clone3 args, .ok pid⟩ ∈ tr := by
  obtain ⟨_, _, _, rfl, -, h⟩ := h.of_bind_ret
  obtain ⟨_, _, _, rfl, -, h⟩ := h.of_bind_ret
  obtain ⟨_, _, _, rfl, -, h⟩ := h.of_bind_ret
  obtain ⟨_, _, _, rfl, -, h⟩ := h.of_bind_ret
  obtain ⟨_, _, _, rfl, -, h⟩ := h.of_bind_ret
  obtain ⟨_, _, _, rfl, -, h⟩ := h.of_bind_ret
  obtain ⟨_, _, _, rfl, -, h⟩ := h.of_bind_ret
  obtain ⟨_, _, _, rfl, -, h⟩ := h.of_bind_ret
  obtain ⟨_, _, _, rfl, hpipe, h⟩ := h.of_bind_ret
  obtain ⟨_, _, _, rfl, hclone, h⟩ := h.of_bind_ret
  cases h.of_ret.2
  obtain ⟨p, rfl, rfl⟩ := parentChildPipe_ret hpipe
  obtain ⟨args, hargs⟩ := build_ret hclone
  exact ⟨p, args, rfl, by simp, by simp [hargs]⟩

theorem setCgroup_ret {resource key value : String} {u : Unit}
    (h : Reaches (setCgroup id resource key value) tr (.ret u)) :
    ⟨.write (.inCgroup id resource key) (.text value), .ok ()⟩ ∈ tr := by
  cases reaches_sys (reaches_mapErr h)
  simp

theorem updateState_ret {f : State → State} {s : State}
    (h : Reaches (updateState id f) tr (.ret s)) :
    ∃ s₀, s = f s₀ ∧ ⟨.write (stateJson id) (.state s), .ok ()⟩ ∈ tr := by
  obtain ⟨_, _, s₀, rfl, -, h⟩ := h.of_bind_ret
  obtain ⟨_, _, _, rfl, hw, h⟩ := h.of_bind_ret
  cases h.of_ret.2
  cases reaches_sys (reaches_mapErr hw)
  exact ⟨s₀, rfl, by simp⟩

theorem acceptStart_ret (h : Reaches (Runtime.acceptStart id) tr (.ret ())) :
    ⟨.accept4 (startSk id), .ok ()⟩ ∈ tr := by
  obtain ⟨_, _, addr, rfl, haddr, h⟩ := h.of_bind_ret
  obtain ⟨_, _, _, rfl, -, hret⟩ := haddr.of_bind_ret
  cases hret.of_ret.2
  obtain ⟨_, _, _, rfl, -, h⟩ := h.of_bind_ret
  obtain ⟨_, _, _, rfl, -, h⟩ := h.of_bind_ret
  obtain ⟨_, _, _, rfl, -, h⟩ := h.of_bind_ret
  cases reaches_sys (reaches_mapErr h)
  simp

theorem parentProcSocket_ret {rt rt' : Runtime}
    (h : Reaches (rt.parentProcSocket id) tr (.ret rt')) :
    rt'.parentEnd = rt.parentEnd ∧ ⟨.accept4 (startSk id), .ok ()⟩ ∈ tr := by
  obtain ⟨_, _, _, rfl, -, h⟩ := h.of_bind_ret
  obtain ⟨_, _, r, rfl, hacc, h⟩ := h.of_bind_ret
  obtain ⟨p', hp', he⟩ := hacc.of_attempt
  cases r with
  | ok _ =>
    cases p' <;> cases he
    cases h.of_ret.2
    exact ⟨rfl, by simp [acceptStart_ret hp']⟩
  | error e =>
    obtain ⟨_, _, _, rfl, -, hfail⟩ := h.of_bind_ret
    cases hfail.of_fail.2

/-- The supervisor's only use of the gate. -/
theorem supervise_gates {ev : Event} {rt : Runtime} {p : Nat} {pid : Int} {q : Core Unit}
    {g : Sys.Ev} (hrt : rt.parentEnd = some p)
    (h : Reaches ((superviseChild id sp ev rt pid).attempt.bind fun result =>
      rt.drop.bind fun _ => .ofExcept result) tr q) (hg : g ∈ tr) :
    g.1.gates = true → g.1 = .pipeWrite p := by
  have hcalls : Calls (S := Sys) (fun op => op.gates = true → op = .pipeWrite p)
      ((superviseChild id sp ev rt pid).attempt.bind fun result =>
        rt.drop.bind fun _ => (.ofExcept result : Core Unit)) := by
    have hless {α : Type} {r : Core α} (hr : Gateless r) :
        Calls (S := Sys) (fun op => op.gates = true → op = .pipeWrite p) r := by
      refine Calls.mono hr fun op hop hgates => ?_
      rw [hop] at hgates
      contradiction
    refine Calls.bind (Calls.attempt (Calls.bind ?_ fun _ => ?_)) fun result => ?_
    · rw [Runtime.unfreezeChild, hrt]
      refine Calls.bind ⟨fun _ => rfl, fun _ => trivial⟩ fun r => ?_
      cases r <;> trivial
    · refine hless (.bind (.mapErr (.sys rfl)) fun st => .bind (report_gateless sp _) fun _ => ?_)
      exact (updateState_gateless id _).bind fun _ => writeLogFile_gateless id _
    · refine hless (.bind ?_ fun _ => calls_ofExcept)
      unfold Runtime.drop
      cases rt.unixSock with
      | none => trivial
      | some path => exact .sys rfl
  exact (h.calls hcalls).1 g hg

/-- A supervisor that says `created` has prepared its child, and one that has used the gate has
opened it, after everything else. -/
theorem createParent_marks {ev : Event} {p : Nat} {pid : Int} {q : Core Unit} {g : Sys.Ev}
    (h : Reaches (createParent id sp ev ⟨some p, some p, none⟩ pid) tr q) (hg : g ∈ tr)
    (hn : ¬g.1.plain = true) :
    Prepared id pid tr ∧ (g.1.gates = true → g.1 = .pipeWrite p ∧ Opened id pid tr) := by
  obtain ⟨tr₁, _, _, rfl, hnet, h, hg⟩ := h.past (createNetwork_plain id pid) hg hn
  obtain ⟨tr₂, _, _, rfl, hcpu, h, hg⟩ := h.past (setCgroup_plain id _ _ _) hg hn
  obtain ⟨tr₃, _, _, rfl, hmem, h, hg⟩ := h.past (setCgroup_plain id _ _ _) hg hn
  have hprep (tr : List Sys.Ev) : Prepared id pid (tr₁ ++ (tr₂ ++ (tr₃ ++ tr))) :=
    ⟨(Completed.of_reaches hnet).left, by simp [setCgroup_ret hcpu], by simp [setCgroup_ret hmem]⟩
  refine ⟨hprep _, fun hgates => ?_⟩
  have hn : ¬g.1.gates = false := by simp [hgates]
  obtain ⟨_, _, _, rfl, -, h, hg⟩ := h.past (report_gateless sp _) hg hn
  obtain ⟨_, _, s, rfl, hst, h, hg⟩ := h.past (updateState_gateless id _) hg hn
  obtain ⟨_, _, rt, rfl, hsk, h, hg⟩ := h.past (parentProcSocket_plain _).gateless hg hn
  obtain ⟨hrt, hacc⟩ := parentProcSocket_ret hsk
  obtain ⟨s₀, rfl, hwrite⟩ := updateState_ret hst
  exact ⟨supervise_gates hrt h hg hgates, hprep _, ⟨s₀.setCreated pid, rfl, rfl, by
    simp only [List.mem_append, hwrite, true_or, or_true]⟩, by simp [hacc]⟩

theorem freezeChild_ret {rt : Runtime} {p : Nat} (hrt : rt.childEnd = some p)
    (h : Reaches rt.freezeChild tr (.ret ())) : ⟨.pipeRead p, .ok ()⟩ ∈ tr := by
  rw [Runtime.freezeChild, hrt] at h
  cases reaches_sys (reaches_mapErr h)
  simp

/-- The command is the only use that `container_exec` makes of the gate. -/
theorem containerExec_calls (args env : Option (List String)) (cwd : Option String) :
    Calls (S := Sys) (fun op => op.plain = true ∨ ∃ path args env, op = .execve path args env)
      (containerExec args env cwd id : Core α) :=
  containerExec_all (.inl rfl) (.inl rfl) (fun path args env => .inr ⟨path, args, env, rfl⟩)
    (fun _ => .inl rfl) (fun _ => .inl rfl) args env cwd

/-- A child at the gate is set up; it has read the byte if it has done more than read. -/
theorem createChild_marks {config : Config} {rt : Runtime} {p : Nat} {q : Core Unit} {g : Sys.Ev}
    (hrt : rt.childEnd = some p) (h : Reaches (createChild id config rt) tr q) (hg : g ∈ tr)
    (hn : ¬g.1.plain = true) : Completed (childSetup id config) tr ∧
      (g.1 = .pipeRead p ∨
        (∃ path args env, g.1 = .execve path args env) ∧ ⟨.pipeRead p, .ok ()⟩ ∈ tr) := by
  rw [createChild_eq] at h
  obtain ⟨_, _, _, rfl, hset, h, hg⟩ := h.past (childSetup_plain config) hg hn
  have hdone := Completed.of_reaches hset
  have hfreeze : Calls (S := Sys) (fun op => op = .pipeRead p) rt.freezeChild := by
    rw [Runtime.freezeChild, hrt]
    exact Calls.bind ⟨rfl, fun _ => trivial⟩ fun r => by cases r <;> trivial
  by_cases hread : g.1 = .pipeRead p
  · exact ⟨hdone.left, .inl hread⟩
  · obtain ⟨_, _, _, rfl, hfr, h, hg⟩ := h.past hfreeze hg hread
    refine ⟨hdone.left, .inr ⟨((h.calls (containerExec_calls ..)).1 g hg).resolve_left hn, ?_⟩⟩
    simp [freezeChild_ret hrt hfr]

theorem createResources_plain {ev : Event} (h : ev.state ≠ .created) (config : Config) :
    Plain (createResources id config sp ev) := by
  refine .bind (.mapErr (.sys rfl)) fun _ => .bind (.mapErr (.sys rfl)) fun _ => ?_
  refine .bind (.mapErr (.sys rfl)) fun _ => .bind (report_plain h sp) fun _ => ?_
  refine .bind (.mapErr (.sys rfl)) fun _ => .bind ?_ fun fd => ?_
  · refine .bind (.mapErr (.sys rfl)) fun _ => .bind (.mapErr (.sys rfl)) fun _ => ?_
    exact .bind (.mapErr (.sys rfl)) fun _ => trivial
  · refine .bind (initResources_plain _ _) fun _ => .bind (initResources_plain _ _) fun _ => ?_
    refine .bind (.bind (.mapErr (.sys rfl)) fun _ => trivial) fun rt => .bind ?_ fun _ => trivial
    exact .bind calls_ofExcept fun _ => .mapErr (.sys rfl)

theorem load_ret {config : Config} (h : Reaches (Config.load configPath) tr (.ret config)) :
    ⟨.read (.host (configPath ++ "/config.json")), .ok (.config config)⟩ ∈ tr := by
  obtain ⟨_, _, c, rfl, hread, h⟩ := h.of_bind_ret
  obtain ⟨_, _, _, rfl, -, h⟩ := h.of_bind_ret
  obtain ⟨_, _, _, rfl, -, h⟩ := h.of_bind_ret
  cases h.of_ret.2
  obtain ⟨_, _, r, rfl, hsys, hmatch⟩ := hread.of_bind_ret
  cases reaches_sys hsys
  rcases r with e | (s | c | t)
  · cases hmatch.of_fail.2
  · cases hmatch.of_fail.2
  · cases hmatch.of_ret.2
    simp
  · cases hmatch.of_fail.2

/-- The configuration that a run of `create` has loaded. -/
def Loaded (configPath : String) (config : Config) (tr : List Sys.Ev) : Prop :=
  ⟨.read (.host (configPath ++ "/config.json")), .ok (.config config)⟩ ∈ tr

/-- What a run of `create` has done that has used the gate or said `created`. It is the supervisor,
which has prepared its child before that, and has done everything else before it writes the byte; or
the child, which is set up, and has read the byte if it has done more than read. -/
theorem create_marks {q : Core Unit} {g : Sys.Ev} (h : Reaches (create id configPath sp) tr q)
    (hg : g ∈ tr) (hn : ¬g.1.plain = true) :
    ∃ p args pid, ⟨.pipe2, .ok p⟩ ∈ tr ∧ ⟨.clone3 args, .ok pid⟩ ∈ tr ∧
      ((pid ≠ 0 ∧ Prepared id pid tr ∧ (g.1.gates = true → g.1 = .pipeWrite p ∧ Opened id pid tr)) ∨
        (pid = 0 ∧ (∃ config, Loaded configPath config tr ∧ Completed (childSetup id config) tr) ∧
          (g.1 = .pipeRead p ∨
            (∃ path args env, g.1 = .execve path args env) ∧ ⟨.pipeRead p, .ok ()⟩ ∈ tr))) := by
  obtain ⟨_, _, _, rfl, -, h, hg⟩ := h.past (.sys rfl : Plain (sys (.exists (.bundle id)))) hg hn
  obtain ⟨_, _, _, rfl, -, h, hg⟩ := h.past Plain.throwIf hg hn
  obtain ⟨_, _, config, rfl, hload, h, hg⟩ := h.past (load_plain configPath) hg hn
  obtain ⟨_, _, ⟨rt, pid⟩, rfl, hres, h, hg⟩ :=
    h.past (createResources_plain (show (⟨id, .creating, some 0⟩ : Event).state ≠ _ from nofun)
      config) hg hn
  obtain ⟨p, args, rfl, hpipe, hclone⟩ := createResources_ret hres
  refine ⟨p, args, pid, by simp [hpipe], by simp [hclone], ?_⟩
  dsimp only at h
  by_cases hpid : pid = 0
  · rw [if_pos hpid] at h
    obtain ⟨hset, hread⟩ := createChild_marks rfl h hg hn
    refine .inr ⟨hpid, ⟨config, by simp [Loaded, load_ret hload], hset.right.right.right.right⟩,
      hread.imp_right fun hr => ⟨hr.1, ?_⟩⟩
    simp [hr.2]
  · rw [if_neg hpid] at h
    obtain ⟨hprep, hopen⟩ := createParent_marks h hg hn
    refine .inl ⟨hpid, hprep.right.right.right.right, fun hgates => ?_⟩
    obtain ⟨hw, ho⟩ := hopen hgates
    exact ⟨hw, ho.right.right.right.right⟩

/-! ### The other programs -/

theorem transition_gateless {required : ContainerState} {refusal : CoreError} {effect : Core Unit}
    {set : State → State} (h : Gateless effect) :
    Gateless (transition id required refusal effect set) :=
  (readStateFile_gateless id).bind fun _ => .bind .throwIf fun _ => h.bind fun _ =>
    (updateState_gateless id set).bind fun _ => trivial

theorem turn_gateless (t : Turn) (id : String) : Gateless (t.op id) := by
  cases t with
  | start =>
    refine transition_gateless (.bind (.mapErr (.sys rfl)) fun _ => ?_)
    exact .bind (.bind .throwIf fun _ => trivial) fun _ => .mapErr (.sys rfl)
  | pause => exact transition_gateless (setCgroup_plain ..).gateless
  | resume => exact transition_gateless (setCgroup_plain ..).gateless

theorem kill_gateless (id : String) : Gateless (kill id) := by
  refine (readStateFile_gateless id).bind fun s => .bind calls_ofExcept fun pid => .bind ?_ fun _ =>
    writeStateFile_gateless id _
  refine .bind (.sys rfl) fun r => ?_
  cases r with
  | ok _ => trivial
  | error e => exact .throwIf

theorem delete_gateless (id : String) (force : Bool) : Gateless (delete id force) := by
  cases force with
  | true => exact .bind (.sys rfl) fun _ => .bind (.sys rfl) fun _ => trivial
  | false =>
    exact (readStateFile_gateless id).bind fun _ => .bind .throwIf fun _ =>
      .bind (.mapErr (.sys rfl)) fun _ => .mapErr (.sys rfl)

theorem mirror_gateless {op : Core Unit} (h : Gateless op) (st : ContainerState) :
    Gateless (Cloneboxd.mirror id op st) :=
  .bind (Calls.mapError h) fun _ => .bind (.sys rfl) fun _ => trivial

theorem readStates_gateless (ids : List String) : Gateless (Cloneboxd.readStates ids) := by
  induction ids with
  | nil => trivial
  | cons id ids ih =>
    refine .bind (readStateFile_gateless id).attempt fun s => ih.bind fun states => ?_
    cases s <;> trivial

theorem handler_gateless (req : Request) : Gateless req.handler := by
  cases req with
  | create id cp =>
    refine .bind (.mapErr (.sys rfl)) fun _ => .bind (.sys rfl) fun _ => .bind (.sys rfl) fun _ => ?_
    refine .bind (.mapErr (.sys rfl)) fun _ => .bind (.sys rfl) fun b => ?_
    cases b <;> trivial
  | start id => exact mirror_gateless (turn_gateless .start id) _
  | state id => exact .bind (Calls.mapError (readStateFile_gateless id)) fun _ => trivial
  | kill id => exact mirror_gateless (kill_gateless id) _
  | delete id force =>
    exact .bind (Calls.mapError (delete_gateless id force)) fun _ => .bind (.sys rfl) fun _ => trivial
  | pause id => exact mirror_gateless (turn_gateless .pause id) _
  | resume id => exact mirror_gateless (turn_gateless .resume id) _
  | exec => trivial
  | wait id =>
    refine .bind (.sys rfl) fun _ => .bind (.sys rfl) fun _ => .bind .throwIf fun _ => ?_
    refine .bind (.sys rfl) fun code => ?_
    cases code <;> trivial
  | list => exact .bind (.sys rfl) fun ids => (readStates_gateless ids).bind fun _ => trivial

/-- `exec` runs a command of its own, and does not use the gate otherwise. -/
theorem exec_calls (id : String) (cmd : List String) :
    Calls (S := Sys) (fun op => op.plain = true ∨ ∃ path args env, op = .execve path args env)
      (exec id cmd) :=
  exec_all (.inl rfl) (.inl rfl) (.inl rfl) (fun _ _ => .inl rfl) (fun _ => .inl rfl) (.inl rfl)
    (fun _ => .inl rfl) (.inl rfl) (.inl rfl) (fun path args env => .inr ⟨path, args, env, rfl⟩)
    (fun _ => .inl rfl) (fun _ => .inl rfl) cmd

theorem ofCore_gateless {p : Core α} {f : α → Reply} (h : Gateless p) : Gateless (ofCore p f) :=
  .bind (Calls.mapError h) fun _ => trivial

theorem ofCore_reaches {p : Core α} {f : α → Reply} {q : Prog Sys Fault Reply}
    (h : Reaches (ofCore p f) tr q) : ∃ q', Reaches p tr q' := by
  rcases h.of_bind with ⟨p', hp', -⟩ | ⟨tr₁, tr₂, a, rfl, h₁, h₂⟩
  · obtain ⟨p'', hp'', -⟩ := hp'.of_mapError
    exact ⟨p'', hp''⟩
  · obtain ⟨p'', hp'', -⟩ := h₁.of_mapError
    rw [h₂.of_ret.1, List.append_nil]
    exact ⟨p'', hp''⟩

/-- The shim goes through `create`, and what it does after that is plain. -/
theorem shimMain_reaches {s : String} {q : Core Unit} (h : Reaches (shimMain id configPath s) tr q) :
    ∃ tr₁ tr₂ q', tr = tr₁ ++ tr₂ ∧ Reaches (create id configPath (some s)) tr₁ q' ∧
      ∀ ev ∈ tr₂, ev.1.plain = true := by
  rcases h.of_bind with ⟨p', hp', -⟩ | ⟨tr₁, tr₂, r, rfl, h₁, h₂⟩
  · obtain ⟨p'', hp'', -⟩ := hp'.of_attempt
    exact ⟨tr, [], p'', (List.append_nil _).symm, hp'', List.forall_mem_nil _⟩
  · obtain ⟨p'', hp'', -⟩ := h₁.of_attempt
    refine ⟨tr₁, tr₂, p'', rfl, hp'', ?_⟩
    cases r with
    | ok _ =>
      rw [h₂.of_ret.1]
      exact List.forall_mem_nil _
    | error e =>
      refine (h₂.calls (.bind (Calls.attempt
        (report_plain (by simp [failureReport]) (some s))) fun r => ?_)).1
      cases r with
      | ok _ => trivial
      | error e' => exact ⟨rfl, fun _ => trivial⟩

/-- The program of a thread that runs `create`, up to the end of `create`. -/
theorem main_reaches {m : Main} {q : Prog Sys Fault Reply} (h : Reaches m.prog tr q)
    (hk : m.kind = .create id configPath sp) : ∃ tr₁ tr₂ q', tr = tr₁ ++ tr₂ ∧
      Reaches (create id configPath sp) tr₁ q' ∧ ∀ ev ∈ tr₂, ev.1.plain = true := by
  cases m with
  | create id cp sp =>
    cases hk
    obtain ⟨q', hq⟩ := ofCore_reaches h
    exact ⟨tr, [], q', (List.append_nil _).symm, hq, List.forall_mem_nil _⟩
  | shim id cp s =>
    cases hk
    obtain ⟨q', hq⟩ := ofCore_reaches h
    exact shimMain_reaches hq
  | rpc req => cases req <;> cases hk
  | turn | kill | delete | state | exec => cases hk

/-- Only a run of `create` uses the pipe. -/
theorem kind_of_gates {m : Main} {q : Prog Sys Fault Reply} {g : Sys.Ev} (h : Reaches m.prog tr q)
    (hg : g ∈ tr) (hgates : g.1.gates = true) (hn : ∀ path args env, g.1 ≠ .execve path args env) :
    ∃ id configPath sp, m.kind = .create id configPath sp := by
  have hno (hm : Gateless m.prog) : False := by
    have hfalse := (h.calls hm).1 g hg
    rw [hgates] at hfalse
    contradiction
  cases m with
  | create id cp sp => exact ⟨id, cp, sp, rfl⟩
  | shim id cp s => exact ⟨id, cp, some s, rfl⟩
  | turn t id => exact (hno (ofCore_gateless (turn_gateless t id))).elim
  | kill id => exact (hno (ofCore_gateless (kill_gateless id))).elim
  | delete id force => exact (hno (ofCore_gateless (delete_gateless id force))).elim
  | state id => exact (hno (ofCore_gateless (readStateFile_gateless id))).elim
  | exec id cmd =>
    have hcalls : Calls (S := Sys)
        (fun op => op.plain = true ∨ ∃ path args env, op = .execve path args env)
        (Main.exec id cmd).prog := Calls.bind (Calls.mapError (exec_calls id cmd)) fun _ => trivial
    rcases (h.calls hcalls).1 g hg with hplain | ⟨path, args, env, he⟩
    · simp [Op.plain, hgates] at hplain
    · exact (hn path args env he).elim
  | rpc req => exact (hno (Calls.mapError (handler_gateless req))).elim

/-- `exec` makes no pipe. -/
theorem exec_pipeless {m : Main} {q : Prog Sys Fault Reply} (h : Reaches m.prog tr q)
    (hk : m.kind = .exec id) {r : Io Nat} : ⟨.pipe2, r⟩ ∉ tr := by
  intro hpipe
  cases m with
  | exec id cmd =>
    have hno : Calls (S := Sys) (fun op => op ≠ .pipe2) (exec id cmd) :=
      exec_all nofun nofun nofun (fun _ _ => nofun) (fun _ => nofun) nofun (fun _ => nofun) nofun nofun
        (fun _ _ _ => nofun) (fun _ => nofun) (fun _ => nofun) cmd
    have hcalls : Calls (S := Sys) (fun op => op ≠ .pipe2) (Main.exec id cmd).prog :=
      Calls.bind (Calls.mapError hno) fun _ => trivial
    exact (h.calls hcalls).1 _ hpipe rfl
  | rpc req => cases req <;> cases hk
  | create | shim | turn | kill | delete | state => cases hk

/-- What a thread has done that has used the gate or said `created` in a run of `create`: it is the
supervisor or its child (`create_marks`). -/
theorem main_marks {m : Main} {q : Prog Sys Fault Reply} {g : Sys.Ev} (h : Reaches m.prog tr q)
    (hk : m.kind = .create id configPath sp) (hg : g ∈ tr) (hn : ¬g.1.plain = true) :
    ∃ p args pid, ⟨.pipe2, .ok p⟩ ∈ tr ∧ ⟨.clone3 args, .ok pid⟩ ∈ tr ∧
      ((pid ≠ 0 ∧ Prepared id pid tr ∧ (g.1.gates = true → g.1 = .pipeWrite p ∧ Opened id pid tr)) ∨
        (pid = 0 ∧ (∃ config, Loaded configPath config tr ∧ Completed (childSetup id config) tr) ∧
          (g.1 = .pipeRead p ∨
            (∃ path args env, g.1 = .execve path args env) ∧ ⟨.pipeRead p, .ok ()⟩ ∈ tr))) := by
  obtain ⟨tr₁, tr₂, q', rfl, hq, hplain⟩ := main_reaches h hk
  have hg₁ : g ∈ tr₁ := by
    rcases List.mem_append.mp hg with hg | hg
    · exact hg
    · exact (hn (hplain g hg)).elim
  obtain ⟨p, args, pid, hpipe, hclone, hcase⟩ := create_marks hq hg₁ hn
  refine ⟨p, args, pid, List.mem_append_left _ hpipe, List.mem_append_left _ hclone, ?_⟩
  rcases hcase with ⟨hpid, hprep, hopen⟩ | ⟨hpid, ⟨config, hload, hset⟩, hread⟩
  · refine .inl ⟨hpid, hprep.left, fun hgates => ?_⟩
    obtain ⟨hw, ho⟩ := hopen hgates
    exact ⟨hw, ho.left⟩
  · exact .inr ⟨hpid, ⟨config, List.mem_append_left _ hload, hset.left⟩,
      hread.imp_right fun hr => ⟨hr.1, List.mem_append_left _ hr.2⟩⟩

end Clonebox
