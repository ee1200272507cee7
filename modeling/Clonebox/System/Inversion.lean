import Clonebox.System.Protocol

/-! # Who makes which call

`Does k g op` lists the calls that a program of kind `k` can make in phase `g`, one constructor for
each. A case analysis on it, with the call given, finds the programs and phases it can come from. -/

namespace Clonebox

/-- The stages in which the start socket may be closed. -/
def Stage.closes : Stage → Bool
  | .created _ | .bound _ | .broken _ | .accepted _ | .stopped _ | .lost _ => true
  | _ => false

inductive Does : Kind → Phase → Op → Prop
  | quiet {k : Kind} {g : Phase} {op : Op} (h : op.quiet = true) : Does k g op
  -- `create` and the shim
  | failConnect {id configPath s : String} {g : Stage} (h : g.canFail = true) :
    Does (.create id configPath (some s)) (.create g) (.connectEvent s)
  | failEvent {id configPath s : String} {g : Stage} (h : g.canFail = true) :
    Does (.create id configPath (some s)) (.create g) (.writeEvent s (failureReport id))
  | probe {id configPath : String} {sp : Option String} :
    Does (.create id configPath sp) (.create .start) (.exists (.bundle id))
  | load {id configPath : String} {sp : Option String} :
    Does (.create id configPath sp) (.create .passed) (.read (.host (configPath ++ "/config.json")))
  | makeBundle {id configPath : String} {sp : Option String} :
    Does (.create id configPath sp) (.create .passed) (.createDirAll (.bundle id))
  | creatingConnect {id configPath s : String} :
    Does (.create id configPath (some s)) (.create .made) (.connectEvent s)
  | creatingEvent {id configPath s : String} :
    Does (.create id configPath (some s)) (.create .made) (.writeEvent s (Stage.event id .creating))
  | writeCreating {id configPath : String} {sp : Option String} {st : State}
    (h : st.status = .creating) (hpid : st.pid = none) :
    Does (.create id configPath sp) (.create .made) (.write (stateJson id) (.state st))
  | makeCgroup {id configPath : String} {sp : Option String} :
    Does (.create id configPath sp) (.create .initial) (.createDirAll (.cgroup id))
  | clone {id configPath : String} {sp : Option String} :
    Does (.create id configPath sp) (.create .grouped)
      (.clone3 ⟨cloneFlags ||| CLONE_INTO_CGROUP, SIGCHLD, some (.cgroup id)⟩)
  | childDir {id configPath : String} {sp : Option String} (f : BundleFile) :
    Does (.create id configPath sp) (.create .child) (.createDirAll (.inBundle id f))
  | createdConnect {id configPath s : String} {pid : Int} :
    Does (.create id configPath (some s)) (.create (.cloned pid)) (.connectEvent s)
  | createdEvent {id configPath s : String} {pid : Int} :
    Does (.create id configPath (some s)) (.create (.cloned pid))
      (.writeEvent s (Stage.event id .created))
  | rereadCloned {id configPath : String} {pid : Int} :
    Does (.create id configPath none) (.create (.cloned pid)) (.read (stateJson id))
  | rereadAnnounced {id configPath : String} {sp : Option String} {pid : Int} :
    Does (.create id configPath sp) (.create (.announced pid)) (.read (stateJson id))
  | writeCreated {id configPath : String} {sp : Option String} {pid : Int} {st : State} :
    Does (.create id configPath sp) (.create (.reread pid st))
      (.write (stateJson id) (.state (st.setCreated pid)))
  | bind {id configPath : String} {sp : Option String} {pid : Int} :
    Does (.create id configPath sp) (.create (.created pid)) (.bind (startSk id))
  | listen {id configPath : String} {sp : Option String} {pid : Int} :
    Does (.create id configPath sp) (.create (.bound pid)) (.listen (startSk id))
  | accept {id configPath : String} {sp : Option String} {pid : Int} :
    Does (.create id configPath sp) (.create (.listening pid)) (.accept4 (startSk id))
  | waitpid {id configPath : String} {sp : Option String} {pid : Int} :
    Does (.create id configPath sp) (.create (.accepted pid)) (.waitpid pid)
  | close {id configPath : String} {sp : Option String} {g : Stage}
    (h : g.closes = true) :
    Does (.create id configPath sp) (.create g) (.close (startSk id))
  | stoppedConnect {id configPath s : String} {pid : Int} {st : WaitStatus} :
    Does (.create id configPath (some s)) (.create (.waited pid st)) (.connectEvent s)
  | stoppedEvent {id configPath s : String} {pid : Int} {st : WaitStatus} :
    Does (.create id configPath (some s)) (.create (.waited pid st))
      (.writeEvent s (stoppedEvent (Stage.event id .created) st))
  | rereadWaited {id configPath : String} {pid : Int} {st : WaitStatus} :
    Does (.create id configPath none) (.create (.waited pid st)) (.read (stateJson id))
  | rereadReported {id configPath : String} {sp : Option String} {pid : Int} :
    Does (.create id configPath sp) (.create (.reported pid)) (.read (stateJson id))
  | writeStopped {id configPath : String} {sp : Option String} {pid : Int} {st : State} :
    Does (.create id configPath sp) (.create (.ending pid st))
      (.write (stateJson id) (.state st.setStopped))
  -- `start`, `pause`, `resume`
  | check {id : String} {t : Turn} : Does (.turn t id) (.turn .idle) (.read (stateJson id))
  | connect {id : String} : Does (.turn .start id) (.turn .passed) (.connect (startSk id))
  | rereadPassed {id : String} {t : Turn} (h : t ≠ .start) :
    Does (.turn t id) (.turn .passed) (.read (stateJson id))
  | rereadConnected {id : String} {t : Turn} :
    Does (.turn t id) (.turn .connected) (.read (stateJson id))
  | writeTurn {id : String} {t : Turn} {st : State} :
    Does (.turn t id) (.turn (.reread st)) (.write (stateJson id) (.state (t.set st)))
  | settleTurn {id : String} {t : Turn} : Does (.turn t id) (.turn .wrote) (.setEntry id t.target)
  -- `kill`
  | checkKill {id : String} : Does (.kill id) (.kill .idle) (.read (stateJson id))
  | signal {id : String} {st : State} {pid : Int} :
    Does (.kill id) (.kill (.aimed st pid)) (.kill pid)
  | writeKilled {id : String} {st : State} :
    Does (.kill id) (.kill (.signalled st)) (.write (stateJson id) (.state st.setStopped))
  | settleKill {id : String} : Does (.kill id) (.kill .wrote) (.setEntry id .stopped)
  -- `delete`
  | checkDelete {id : String} : Does (.delete id false) (.delete .idle) (.read (stateJson id))
  | forceCgroup {id : String} : Does (.delete id true) (.delete .idle) (.removeDir (.cgroup id))
  | clearCgroup {id : String} {force : Bool} :
    Does (.delete id force) (.delete .checked) (.removeDir (.cgroup id))
  | clearBundle {id : String} {force : Bool} :
    Does (.delete id force) (.delete .clearing) (.removeDirAll (.bundle id))
  | settleDelete {id : String} {force : Bool} :
    Does (.delete id force) (.delete .cleared) (.removeStopped id)
  -- `exec`
  | checkExec {id : String} : Does (.exec id) (.exec .idle) (.read (stateJson id))
  | getpid {id : String} {pid : Int} : Does (.exec id) (.exec (.aimed pid)) .getpid
  | enter {id ns : String} {pid self : Int} :
    Does (.exec id) (.exec (.entering pid self)) (.openNs pid ns)
  | enterOwn {id ns : String} {pid self : Int} :
    Does (.exec id) (.exec (.entering pid self)) (.openNs self ns)
  | fork {id : String} {pid self : Int} : Does (.exec id) (.exec (.entering pid self)) .fork
  -- the `create` handler
  | channel {id configPath : String} : Does (.handler id configPath) (.handler .idle) .channel
  | insert {id configPath : String} {tx : Nat} :
    Does (.handler id configPath) (.handler (.holding tx))
      (.insertEntry id ⟨.creating, some tx, []⟩)
  | spawn {id configPath : String} {tx : Nat} :
    Does (.handler id configPath) (.handler (.entered tx))
      (.spawnShim id configPath getEventSocketPath)
  | await {id configPath : String} {tx : Nat} :
    Does (.handler id configPath) (.handler (.spawned tx)) (.awaitCreated id tx)
  -- the requests that look
  | looks {op : Op} (h : Kind.looks op = true) : Does .observer .observer op

variable {id configPath s : String} {sp : Option String}

theorem Stage.may_does {g : Stage} {op : Op} (h : g.may id configPath sp op) :
    Does (.create id configPath sp) (.create g) op := by
  rcases h with h | ⟨hf, s, rfl, rfl | rfl⟩ | h
  · exact .quiet h
  · exact .failConnect hf
  · exact .failEvent hf
  · cases g with
    | start => cases h; exact .probe
    | passed => rcases h with rfl | rfl; exacts [.load, .makeBundle]
    | made =>
      rcases h with ⟨s, rfl, rfl | rfl⟩ | ⟨st, hst, hpid, rfl⟩
      exacts [.creatingConnect, .creatingEvent, .writeCreating hst hpid]
    | initial => cases h; exact .makeCgroup
    | grouped => cases h; exact .clone
    | child => obtain ⟨f, rfl⟩ := h; exact .childDir f
    | cloned pid =>
      rcases h with ⟨s, rfl, rfl | rfl⟩ | ⟨rfl, rfl⟩
      exacts [.createdConnect, .createdEvent, .rereadCloned]
    | announced pid => cases h; exact .rereadAnnounced
    | reread pid st => cases h; exact .writeCreated
    | created pid => rcases h with rfl | rfl; exacts [.bind, .close rfl]
    | bound pid => rcases h with rfl | rfl; exacts [.listen, .close rfl]
    | listening pid => cases h; exact .accept
    | broken pid => cases h; exact .close rfl
    | accepted pid => rcases h with rfl | rfl; exacts [.waitpid, .close rfl]
    | waited pid st =>
      rcases h with ⟨s, rfl, rfl | rfl⟩ | ⟨rfl, rfl⟩
      exacts [.stoppedConnect, .stoppedEvent, .rereadWaited]
    | reported pid => cases h; exact .rereadReported
    | ending pid st => cases h; exact .writeStopped
    | stopped pid => cases h; exact .close rfl
    | lost pid => cases h; exact .close rfl
    | refused | unmade => exact h.elim

theorem TurnStage.may_does {t : Turn} {g : TurnStage} {op : Op} (h : g.may t id op) :
    Does (.turn t id) (.turn g) op := by
  rcases h with h | h
  · exact .quiet h
  · cases g with
    | idle => cases h; exact .check
    | passed =>
      by_cases ht : t = .start
      · subst ht
        cases h
        exact .connect
      · rw [if_neg ht] at h
        cases h
        exact .rereadPassed ht
    | connected => cases h; exact .rereadConnected
    | reread st => cases h; exact .writeTurn
    | wrote => cases h; exact .settleTurn
    | refused | settled => exact h.elim

theorem KillStage.may_does {g : KillStage} {op : Op} (h : g.may id op) :
    Does (.kill id) (.kill g) op := by
  rcases h with h | h
  · exact .quiet h
  · cases g with
    | idle => cases h; exact .checkKill
    | aimed st pid => cases h; exact .signal
    | signalled st => cases h; exact .writeKilled
    | wrote => cases h; exact .settleKill
    | refused | settled => exact h.elim

theorem DeleteStage.may_does {force : Bool} {g : DeleteStage} {op : Op} (h : g.may id force op) :
    Does (.delete id force) (.delete g) op := by
  rcases h with h | h
  · exact .quiet h
  · cases g with
    | idle => cases force <;> cases h; exacts [.checkDelete, .forceCgroup]
    | checked => cases h; exact .clearCgroup
    | clearing => cases h; exact .clearBundle
    | cleared => cases h; exact .settleDelete
    | refused | settled => exact h.elim

theorem ExecStage.may_does {g : ExecStage} {op : Op} (h : g.may id op) :
    Does (.exec id) (.exec g) op := by
  rcases h with h | h
  · exact .quiet h
  · cases g with
    | idle => cases h; exact .checkExec
    | aimed pid => cases h; exact .getpid
    | entering pid self =>
      rcases h with ⟨ns, rfl | rfl⟩ | rfl
      exacts [.enter, .enterOwn, .fork]
    | refused => exact h.elim

theorem HandlerStage.may_does {g : HandlerStage} {op : Op} (h : g.may id configPath op) :
    Does (.handler id configPath) (.handler g) op := by
  rcases h with h | h
  · exact .quiet h
  · cases g with
    | idle => cases h; exact .channel
    | holding tx => cases h; exact .insert
    | entered tx => cases h; exact .spawn
    | spawned tx => cases h; exact .await
    | unspawned | answered b => exact h.elim

theorem Kind.may_does {k : Kind} {g : Phase} {op : Op} (h : k.may g op) : Does k g op := by
  cases k <;> cases g <;> try exact h.elim
  · exact Stage.may_does h
  · exact TurnStage.may_does h
  · exact KillStage.may_does h
  · exact DeleteStage.may_does h
  · exact ExecStage.may_does h
  · exact HandlerStage.may_does h
  · exact .looks h

/-- The answers that take a run of `create` from one stage to another. -/
inductive Stage.Move (id : String) : Stage → (op : Op) → op.Ret → Stage → Prop
  | refused : Move id .start (.exists (.bundle id)) true .refused
  | passed : Move id .start (.exists (.bundle id)) false .passed
  | unloaded {p : Path} {r : Io Content} (h : loads r = false) : Move id .passed (.read p) r .unmade
  | unmade {e : Errno} : Move id .passed (.createDirAll (.bundle id)) (.error e) .unmade
  | made : Move id .passed (.createDirAll (.bundle id)) (.ok ()) .made
  | initial {s : State} (h : s.status = .creating) :
    Move id .made (.write (stateJson id) (.state s)) (.ok ()) .initial
  | grouped : Move id .initial (.createDirAll (.cgroup id)) (.ok ()) .grouped
  | child {args : CloneArgs} : Move id .grouped (.clone3 args) (.ok 0) .child
  | cloned {args : CloneArgs} {pid : Int} (h : pid ≠ 0) :
    Move id .grouped (.clone3 args) (.ok pid) (.cloned pid)
  | announced {sp : String} {pid : Int} :
    Move id (.cloned pid) (.writeEvent sp (Stage.event id .created)) (.ok ()) (.announced pid)
  | rereadCloned {pid : Int} {r : Io Content} {s : State} (h : parsed r = some s) :
    Move id (.cloned pid) (.read (stateJson id)) r (.reread pid s)
  | rereadAnnounced {pid : Int} {r : Io Content} {s : State} (h : parsed r = some s) :
    Move id (.announced pid) (.read (stateJson id)) r (.reread pid s)
  | created {pid : Int} {s : State} :
    Move id (.reread pid s) (.write (stateJson id) (.state (s.setCreated pid))) (.ok ())
      (.created pid)
  | bound {pid : Int} : Move id (.created pid) (.bind (startSk id)) (.ok ()) (.bound pid)
  | listening {pid : Int} : Move id (.bound pid) (.listen (startSk id)) (.ok ()) (.listening pid)
  | broken {pid : Int} {e : Errno} :
    Move id (.listening pid) (.accept4 (startSk id)) (.error e) (.broken pid)
  | accepted {pid : Int} :
    Move id (.listening pid) (.accept4 (startSk id)) (.ok ()) (.accepted pid)
  | waited {pid : Int} {st : WaitStatus} :
    Move id (.accepted pid) (.waitpid pid) (.ok st) (.waited pid st)
  | unreachable {sp : String} {pid : Int} {st : WaitStatus} {e : Errno} :
    Move id (.waited pid st) (.connectEvent sp) (.error e) (.lost pid)
  | unreported {sp : String} {ev : Event} {pid : Int} {st : WaitStatus} {e : Errno} :
    Move id (.waited pid st) (.writeEvent sp ev) (.error e) (.lost pid)
  | reported {sp : String} {pid : Int} {st : WaitStatus} :
    Move id (.waited pid st) (.writeEvent sp (stoppedEvent (Stage.event id .created) st)) (.ok ())
      (.reported pid)
  | endingWaited {pid : Int} {st : WaitStatus} {r : Io Content} {s : State}
    (h : parsed r = some s) : Move id (.waited pid st) (.read (stateJson id)) r (.ending pid s)
  | endingReported {pid : Int} {r : Io Content} {s : State} (h : parsed r = some s) :
    Move id (.reported pid) (.read (stateJson id)) r (.ending pid s)
  | unreadWaited {pid : Int} {st : WaitStatus} {r : Io Content} (h : parsed r = none) :
    Move id (.waited pid st) (.read (stateJson id)) r (.lost pid)
  | unreadReported {pid : Int} {r : Io Content} (h : parsed r = none) :
    Move id (.reported pid) (.read (stateJson id)) r (.lost pid)
  | stopped {pid : Int} {s : State} :
    Move id (.ending pid s) (.write (stateJson id) (.state s.setStopped)) (.ok ()) (.stopped pid)
  | unwritten {pid : Int} {s : State} {e : Errno} :
    Move id (.ending pid s) (.write (stateJson id) (.state s.setStopped)) (.error e) (.lost pid)

/-- A call of `create` leaves the stage as it is, or is one of the moves. -/
theorem Stage.moves {g : Stage} {op : Op} (hd : Does (.create id configPath sp) (.create g) op)
    (r : op.Ret) :
    (Kind.create id configPath sp).next (.create g) op r = .create g ∨
      ∃ g', (Kind.create id configPath sp).next (.create g) op r = .create g' ∧
        Stage.Move id g op r g' := by
  cases hd with
  | quiet hq => exact .inl (Kind.next_quiet hq r)
  | failConnect h => cases g <;> first | exact .inl rfl | contradiction
  | failEvent h => cases g <;> cases r <;> first | exact .inl rfl | contradiction
  | probe => cases r <;> exact .inr ⟨_, rfl, by constructor⟩
  | load =>
    cases h : loads r with
    | true => exact .inl (by simp [Kind.next, Op.quiet, Stage.advance, h])
    | false => exact .inr ⟨_, by simp [Kind.next, Op.quiet, Stage.advance, h], .unloaded h⟩
  | makeBundle => cases r <;> exact .inr ⟨_, rfl, by constructor⟩
  | creatingConnect | creatingEvent => exact .inl rfl
  | writeCreating h =>
    cases r with
    | error e => exact .inl rfl
    | ok _ => exact .inr ⟨_, rfl, .initial h⟩
  | makeCgroup =>
    cases r with
    | error e => exact .inl rfl
    | ok _ => exact .inr ⟨_, rfl, .grouped⟩
  | clone =>
    cases r with
    | error e => exact .inl rfl
    | ok pid =>
      by_cases h : pid = 0
      · subst h
        exact .inr ⟨_, rfl, .child⟩
      · exact .inr ⟨_, by simp [Kind.next, Op.quiet, Stage.advance, h], .cloned h⟩
  | childDir f => exact .inl rfl
  | createdConnect => exact .inl rfl
  | createdEvent =>
    cases r with
    | error e => exact .inl rfl
    | ok _ => exact .inr ⟨_, rfl, .announced⟩
  | rereadCloned =>
    cases h : parsed r with
    | none => exact .inl (by simp [Kind.next, Op.quiet, Stage.advance, h])
    | some s => exact .inr ⟨_, by simp [Kind.next, Op.quiet, Stage.advance, h], .rereadCloned h⟩
  | rereadAnnounced =>
    cases h : parsed r with
    | none => exact .inl (by simp [Kind.next, Op.quiet, Stage.advance, h])
    | some s => exact .inr ⟨_, by simp [Kind.next, Op.quiet, Stage.advance, h], .rereadAnnounced h⟩
  | writeCreated =>
    cases r with
    | error e => exact .inl rfl
    | ok _ => exact .inr ⟨_, rfl, .created⟩
  | bind =>
    cases r with
    | error e => exact .inl rfl
    | ok _ => exact .inr ⟨_, rfl, .bound⟩
  | listen =>
    cases r with
    | error e => exact .inl rfl
    | ok _ => exact .inr ⟨_, rfl, .listening⟩
  | accept =>
    cases r with
    | error e => exact .inr ⟨_, rfl, .broken⟩
    | ok _ => exact .inr ⟨_, rfl, .accepted⟩
  | waitpid =>
    cases r with
    | error e => exact .inl rfl
    | ok st => exact .inr ⟨_, rfl, .waited⟩
  | close h => cases g <;> exact .inl rfl
  | stoppedConnect =>
    cases r with
    | error e => exact .inr ⟨_, rfl, .unreachable⟩
    | ok _ => exact .inl rfl
  | stoppedEvent =>
    cases r with
    | error e => exact .inr ⟨_, rfl, .unreported⟩
    | ok _ => exact .inr ⟨_, rfl, .reported⟩
  | rereadWaited =>
    cases h : parsed r with
    | none => exact .inr ⟨_, by simp [Kind.next, Op.quiet, Stage.advance, h], .unreadWaited h⟩
    | some s => exact .inr ⟨_, by simp [Kind.next, Op.quiet, Stage.advance, h], .endingWaited h⟩
  | rereadReported =>
    cases h : parsed r with
    | none => exact .inr ⟨_, by simp [Kind.next, Op.quiet, Stage.advance, h], .unreadReported h⟩
    | some s => exact .inr ⟨_, by simp [Kind.next, Op.quiet, Stage.advance, h], .endingReported h⟩
  | writeStopped =>
    cases r with
    | error e => exact .inr ⟨_, rfl, .unwritten⟩
    | ok _ => exact .inr ⟨_, rfl, .stopped⟩

/-- How a run of `create` comes to a stage: it was there, or has just moved there. -/
theorem Stage.moved {g : Phase} {g' : Stage} {op : Op} {r : op.Ret}
    (hd : Does (.create id configPath sp) g op)
    (h : (Kind.create id configPath sp).next g op r = .create g') :
    g = .create g' ∨ ∃ g₀, g = .create g₀ ∧ Stage.Move id g₀ op r g' := by
  cases g with
  | create g₀ =>
    rcases Stage.moves hd r with e | ⟨g₁, e, hm⟩
    · exact .inl (e.symm.trans h)
    · cases e.symm.trans h
      exact .inr ⟨g₀, rfl, hm⟩
  | turn | kill | delete | exec | handler | observer => cases h

end Clonebox
