import Clonebox.Core.Namespace
import Clonebox.Core.Network
import Clonebox.Core.Resources

/-! # Container operations (`container.rs`, `config.rs`) -/

namespace Clonebox
open Conc

variable {α : Type}

/-! ### `Config::load` -/

def readConfig (configPath : String) : Core Config := do
  match ← sys (.read (.host (configPath ++ "/config.json"))) with
  | .ok (.config c) => pure c
  | .ok _ => .fail ↑ConfigError.json
  | .error e => .fail ↑(ConfigError.io e)

def Config.load (configPath : String) : Core Config := do
  let config ← readConfig configPath
  .throwIf (config.getRootPath = "") ↑ConfigError.missingRootPath
  .throwIf ((config.getProcessArgs.map (·.isEmpty)).getD true) ↑ConfigError.missingProcessArgs
  pure config

/-! ### `cleanup` -/

def cleanup (containerId : String) (force : Bool) : Core Unit :=
  if force then do
    let _ ← sys (.removeDir (.cgroup containerId))
    let _ ← sys (.removeDirAll (.bundle containerId))
    pure ()
  else do
    mapErr (sys (.removeDir (.cgroup containerId))) fun e => .cleanupFailure e "cgroup"
    mapErr (sys (.removeDirAll (.bundle containerId))) fun e => .cleanupFailure e "bundle"

/-! ### `container_exec` -/

def hasNul (s : String) : Bool := s.toList.contains '\x00'

/-- `CString::new(..).unwrap()` on each string. -/
def toCstringVec (v : List String) : Core (List String) :=
  if v.any hasNul then panic else pure v

/-- Replace the process by the command. -/
def execCommand (containerId path : String) (args env : List String) : Core α := do
  match ← sys (.execve path args env) with
  | .ok () => .halt
  | .error e => do
    let _ ← ((writeLogFile containerId ("Execve failure: " ++ e.display ++ "\n")).attempt :
      Core (Except CoreError Unit))
    exit 1

def containerExec (args env : Option (List String)) (cwd : Option String)
    (containerId : String) : Core α :=
  match args.getD [] with
  | [] => exit 1
  | path :: rest =>
    if hasNul path then exit 1
    else do
      let ca ← toCstringVec (path :: rest)
      let ce ← toCstringVec (env.getD [])
      match cwd with
      | none => execCommand containerId path ca ce
      | some cwd =>
        if hasNul cwd then exit 1
        else do
          let _ ← sys (.chdir cwd)
          execCommand containerId path ca ce

/-- The calls of `container_exec`. -/
theorem containerExec_all {φ : Op → Prop} {containerId : String} (hexit : φ (.exit 1))
    (hpanic : φ .panic) (hexec : ∀ path args env, φ (.execve path args env))
    (hlog : ∀ m, φ (.append (.inBundle containerId .containerLog) m)) (hcwd : ∀ p, φ (.chdir p))
    (args env : Option (List String)) (cwd : Option String) :
    Prog.Calls (S := Sys) φ (containerExec args env cwd containerId : Core α) := by
  have hend : Prog.Calls (S := Sys) φ (exit 1 : Core α) := ⟨hexit, fun _ => trivial⟩
  have hcommand (path : String) (ca ce : List String) :
      Prog.Calls (S := Sys) φ (execCommand containerId path ca ce : Core α) := by
    refine Prog.Calls.bind ⟨hexec path ca ce, fun _ => trivial⟩ fun r => ?_
    cases r with
    | ok _ => trivial
    | error e =>
      refine Prog.Calls.bind (Prog.Calls.attempt ⟨hlog _, fun r => ?_⟩) fun _ => hend
      cases r <;> trivial
  have hvec (v : List String) : Prog.Calls (S := Sys) φ (toCstringVec v) := by
    cases h : v.any hasNul with
    | true =>
      rw [toCstringVec, if_pos h]
      exact ⟨hpanic, fun _ => trivial⟩
    | false =>
      rw [toCstringVec, if_neg (by simp [h])]
      trivial
  unfold containerExec
  split
  · exact hend
  · split
    · exact hend
    · refine Prog.Calls.bind (hvec _) fun ca => Prog.Calls.bind (hvec _) fun ce => ?_
      split
      · exact hcommand ..
      · split
        · exact hend
        · exact Prog.Calls.bind ⟨hcwd _, fun _ => trivial⟩ fun _ => hcommand ..

/-! ### `create` -/

/-- `event.send_event(sp)?` if there is a socket. -/
def report (socketPath : Option String) (event : Event) : Core Unit :=
  match socketPath with
  | some sp => event.sendEvent sp
  | none => pure ()

/-- The child's branch after `clone3`. A failed read of the gate returns from `create` here too. -/
def createChild (containerId : String) (config : Config) (runtime : Runtime) : Core Unit := do
  makeChildPrivate
  setChildHostname (config.getHostname.getD "none")
  let newRoot ← prePivotMount containerId config.getRootPath (config.getMounts.getD [])
  doPivotRoot newRoot
  postPivotMount (config.getMounts.getD [])
  doDefaultMounts
  runtime.freezeChild
  containerExec config.getProcessArgs config.getProcessEnv (some config.getProcessCwd) containerId

/-- The event reported when the child has ended: the code of the last event stays if the child did
not exit by itself. -/
def stoppedEvent (event : Event) (childReturn : WaitStatus) : Event :=
  (match childReturn with
    | .exited code => event.updateExitCode code
    | _ => event).updateState .stopped

/-- From the opened gate to the end of the supervisor. -/
def superviseChild (containerId : String) (socketPath : Option String) (event : Event)
    (runtime : Runtime) (childPid : Int) : Core Unit := do
  runtime.unfreezeChild
  let childReturn ← mapErr (sys (.waitpid childPid)) fun e => ↑(SystemError.wait e)
  report socketPath (stoppedEvent event childReturn)
  let _ ← updateState containerId State.setStopped
  writeLogFile containerId (childReturn.debug childPid ++ "\n")

/-- The parent's branch after `clone3`. -/
def createParent (containerId : String) (socketPath : Option String) (event : Event)
    (runtime : Runtime) (childPid : Int) : Core Unit := do
  createNetwork containerId childPid
  setCgroup containerId "cpu" "max" "100000 100000"
  setCgroup containerId "memory" "max" "256M"
  let event := event.updateState .created
  report socketPath event
  let _ ← updateState containerId (State.setCreated childPid)
  let runtime ← runtime.parentProcSocket containerId
  let result ← (superviseChild containerId socketPath event runtime childPid).attempt
  runtime.drop
  .ofExcept result

def initialState (config : Config) (containerId : String) : State where
  ociVersion := config.getOciVersion
  id := containerId
  status := .creating
  pid := none
  bundle := getBundlePath containerId
  annotations := none

def resources : List String := ["cpu", "memory"]

/-- The bundle, the state file and the cgroup; the pipe and the child. -/
def createResources (containerId : String) (config : Config) (socketPath : Option String)
    (event : Event) : Core (Runtime × Int) := do
  mapErr (sys (.createDirAll (.bundle containerId))) fun e =>
    ↑(SystemError.io e (getBundlePath containerId))
  mapErr (sys (.setPermissions (.bundle containerId) 0o700)) fun e =>
    ↑(SystemError.io e (getBundlePath containerId))
  openLogFile containerId
  report socketPath event
  writeStateFile containerId (initialState config containerId)
  let childCgroupFd ← createCgroup containerId
  initResources .root resources
  initResources .app resources
  let runtime ← (Runtime.mk none none none).parentChildPipe
  let childPid ← ((Clone3.mk 0 none none none (some SIGCHLD) none none).addFlags cloneFlags
    |>.intoCgroup childCgroupFd).build
  pure (runtime, childPid)

def create (containerId configPath : String) (socketPath : Option String) : Core Unit := do
  let found ← sys (.exists (.bundle containerId))
  .throwIf (found = true) (.containerAlreadyExists containerId)
  let config ← Config.load configPath
  let event : Event := ⟨containerId, .creating, some 0⟩
  let (runtime, childPid) ← createResources containerId config socketPath event
  if childPid = 0 then
    createChild containerId config runtime
  else
    createParent containerId socketPath event runtime childPid

/-! ### `start`, `pause`, `resume` -/

/-- The shape these three share: check the status, act, then update the file. -/
def transition (containerId : String) (required : ContainerState) (refusal : CoreError)
    (effect : Core Unit) (set : State → State) : Core Unit := do
  let state ← readStateFile containerId
  .throwIf (state.getState ≠ required) refusal
  effect
  let _ ← updateState containerId set

def start (containerId : String) : Core Unit :=
  transition containerId .created (.containerNotCreated containerId)
    (connectCreateProcess containerId) State.setRunning

def pause (containerId : String) : Core Unit :=
  transition containerId .running (.containerNotRunning containerId)
    (setCgroup containerId "cgroup" "freeze" "1") State.setPaused

def resume (containerId : String) : Core Unit :=
  transition containerId .paused (.containerNotPaused containerId)
    (setCgroup containerId "cgroup" "freeze" "0") State.setRunning

/-! ### `exec` -/

def nsPath (pid : Int) (ns : String) : String := "/proc/" ++ toString pid ++ "/ns/" ++ ns

def openNamespace (pid : Int) (ns : String) : Core Unit :=
  mapErr (sys (.openNs pid ns)) fun e => ↑(SystemError.io e (nsPath pid ns))

def enterFailure (pid : Int) (ns : String) (e : Errno) : String :=
  "enter " ++ ns ++ " for " ++ toString pid ++ " failed: " ++ e.display

def enterNamespace (pid : Int) (ns : String) : Core Unit := do
  openNamespace pid ns
  mapErr (sys (.setns (nsPath pid ns))) fun e =>
    ↑(NamespaceError.failedToEnterNamespace (enterFailure pid ns e))

/-- The child runs the command, and its parent waits for it and comes back. -/
def runInside (containerId : String) (cmd : List String) (parentPid : Int) : Core Unit := do
  match ← sys .fork with
  | .error e => .fail ↑(SystemError.wait e)
  | .ok 0 => containerExec (some cmd) none none containerId
  | .ok child => do
    let _ ← mapErr (sys (.waitFork child)) fun e => ↑(SystemError.wait e)
    match ← sys (.setns (nsPath parentPid "mnt")) with
    | .error e => do
      let _ ← ((writeLogFile containerId (enterFailure parentPid "mnt" e)).attempt :
        Core (Except CoreError Unit))
      .fail ↑(NamespaceError.failedToEnterNamespace (enterFailure parentPid "mnt" e))
    | .ok () => do
      enterNamespace parentPid "uts"
      enterNamespace parentPid "pid"
      enterNamespace parentPid "net"

/-- The pid in a state that says `running`. -/
def execTarget (containerId : String) (state : State) : Core Int :=
  match state.getPid with
  | some pid => pure pid
  | none => .fail (.containerNotRunning containerId)

def exec (containerId : String) (cmd : List String) : Core Unit := do
  let state ← readStateFile containerId
  .throwIf (state.getState ≠ .running) (.containerNotRunning containerId)
  openLogFile containerId
  let childPid ← execTarget containerId state
  let parentPid ← sys .getpid
  openNamespace parentPid "mnt"
  enterNamespace childPid "uts"
  enterNamespace childPid "pid"
  enterNamespace childPid "net"
  enterNamespace childPid "mnt"
  runInside containerId cmd parentPid

/-- The calls of `exec` from the fork on. -/
theorem runInside_all {φ : Op → Prop} {containerId : String} {parentPid : Int}
    (hns : ∀ ns, φ (.openNs parentPid ns))
    (hset : ∀ ns ∈ ["mnt", "uts", "pid", "net"], φ (.setns (nsPath parentPid ns))) (hfork : φ .fork)
    (hwait : ∀ pid, φ (.waitFork pid)) (hexit : φ (.exit 1)) (hpanic : φ .panic)
    (hexec : ∀ path args env, φ (.execve path args env))
    (hlog : ∀ m, φ (.append (.inBundle containerId .containerLog) m)) (hcwd : ∀ p, φ (.chdir p))
    (cmd : List String) : Prog.Calls (S := Sys) φ (runInside containerId cmd parentPid) := by
  have hsys {ε : Type} {op : Op} (h : φ op) : Prog.Calls (S := Sys) φ (sys op : Prog Sys ε _) :=
    ⟨h, fun _ => trivial⟩
  have henter (ns : String) (h : ns ∈ ["mnt", "uts", "pid", "net"]) :
      Prog.Calls (S := Sys) φ (enterNamespace parentPid ns) :=
    Prog.Calls.bind (Calls.mapErr (hsys (hns _))) fun _ => Calls.mapErr (hsys (hset ns h))
  refine Prog.Calls.bind (hsys hfork) fun r => ?_
  split
  · trivial
  · exact containerExec_all hexit hpanic hexec hlog hcwd ..
  · refine Prog.Calls.bind (Calls.mapErr (hsys (hwait _))) fun _ =>
      Prog.Calls.bind (hsys (hset "mnt" (by simp))) fun r => ?_
    cases r with
    | error e =>
      exact Prog.Calls.bind (Prog.Calls.attempt (Calls.mapErr (hsys (hlog _)))) fun _ => trivial
    | ok _ =>
      exact Prog.Calls.bind (henter "uts" (by simp)) fun _ =>
        Prog.Calls.bind (henter "pid" (by simp)) fun _ => henter "net" (by simp)

/-- The calls of `exec`. -/
theorem exec_all {φ : Op → Prop} {containerId : String} (hread : φ (.read (.inBundle containerId .stateJson)))
    (hopen : φ (.openFile (.inBundle containerId .containerLog))) (hgetpid : φ .getpid)
    (hns : ∀ pid ns, φ (.openNs pid ns)) (hset : ∀ ns, φ (.setns ns)) (hfork : φ .fork)
    (hwait : ∀ pid, φ (.waitFork pid)) (hexit : φ (.exit 1)) (hpanic : φ .panic)
    (hexec : ∀ path args env, φ (.execve path args env))
    (hlog : ∀ m, φ (.append (.inBundle containerId .containerLog) m)) (hcwd : ∀ p, φ (.chdir p))
    (cmd : List String) : Prog.Calls (S := Sys) φ (exec containerId cmd) := by
  have hsys {ε : Type} {op : Op} (h : φ op) : Prog.Calls (S := Sys) φ (sys op : Prog Sys ε _) :=
    ⟨h, fun _ => trivial⟩
  have hopenNs (pid : Int) (ns : String) : Prog.Calls (S := Sys) φ (openNamespace pid ns) :=
    Calls.mapErr (hsys (hns ..))
  have henter (pid : Int) (ns : String) : Prog.Calls (S := Sys) φ (enterNamespace pid ns) :=
    Prog.Calls.bind (hopenNs ..) fun _ => Calls.mapErr (hsys (hset _))
  have htarget (s : State) : Prog.Calls (S := Sys) φ (execTarget containerId s) := by
    cases h : s.getPid <;> simp [execTarget, h]
  refine Prog.Calls.bind (readStateFile_all hread) fun s => Prog.Calls.bind Prog.calls_throwIf fun _ => ?_
  refine Prog.Calls.bind (Calls.mapErr (hsys hopen)) fun _ => Prog.Calls.bind (htarget s) fun pid => ?_
  refine Prog.Calls.bind (hsys hgetpid) fun self => Prog.Calls.bind (hopenNs ..) fun _ => ?_
  refine Prog.Calls.bind (henter ..) fun _ => Prog.Calls.bind (henter ..) fun _ => ?_
  exact Prog.Calls.bind (henter ..) fun _ => Prog.Calls.bind (henter ..) fun _ =>
    runInside_all (hns self) (fun _ _ => hset _) hfork hwait hexit hpanic hexec hlog hcwd cmd

/-! ### `state`, `kill`, `delete` -/

def state (containerId : String) : Core State := readStateFile containerId

/-- The process `kill` signals, or why it signals none. -/
def killTarget (containerId : String) (state : State) : Except CoreError Int :=
  match state.getState, state.getPid with
  | .stopped, _ => .error (.containerAlreadyStopped containerId)
  | .running, some pid => .ok pid
  | .created, some pid => .ok pid
  | _, _ => .error (.other ("cannot kill " ++ containerId ++ " in current state"))

def sendKill (pid : Int) : Core Unit := do
  match ← sys (.kill pid) with
  | .ok () => pure ()
  | .error e => .throwIf (e.code ≠ Errno.esrch.code) (.other e.display)

def kill (containerId : String) : Core Unit := do
  let state ← readStateFile containerId
  let pid ← .ofExcept (killTarget containerId state)
  sendKill pid
  writeStateFile containerId state.setStopped

def delete (containerId : String) (force : Bool) : Core Unit :=
  if force then
    cleanup containerId force
  else do
    let state ← readStateFile containerId
    .throwIf (state.getState ≠ .stopped) (.containerNotStopped containerId)
    cleanup containerId force

end Clonebox
