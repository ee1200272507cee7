import Clonebox.System.Protocol

/-! # What a call can change

Every call changes at most one part of the world (`exec_effect`); what it leaves alone follows for
all calls at once. The calls that protocols are about are then described one by one. -/

namespace Clonebox

namespace Op

/-- The container whose bundle a call may change. -/
def bundleOf : Op → Option String
  | .write (.inBundle id .stateJson) _ | .createDirAll (.bundle id) | .createDirAll (.inBundle id _)
  | .removeDirAll (.bundle id) | .bind (.inBundle id _) | .listen (.inBundle id _)
  | .accept4 (.inBundle id _) | .connect (.inBundle id _) | .close (.inBundle id _) => some id
  | _ => none

/-- The container whose state file a call may change. -/
def fileOf : Op → Option String
  | .write (.inBundle id .stateJson) _ | .removeDirAll (.bundle id) => some id
  | _ => none

/-- The container whose bundle a call may make or remove. -/
def makesOrRemoves : Op → Option String
  | .createDirAll (.bundle id) | .createDirAll (.inBundle id _) | .removeDirAll (.bundle id) => some id
  | _ => none

/-- The container whose cgroup a call may make or remove. -/
def cgroupOf : Op → Option String
  | .createDirAll (.cgroup id) | .removeDir (.cgroup id) => some id
  | _ => none

def onProcs : Op → Bool
  | .clone3 _ | .waitpid _ => true
  | _ => false

def onGate : Op → Bool
  | .pipe2 | .pipeWrite _ => true
  | _ => false

def onDaemon : Op → Bool
  | .insertEntry _ _ | .setEntry _ _ | .removeStopped _ | .pushWaiter _ _ => true
  | _ => false

theorem not_quiet_of_bundleOf {op : Op} {id : String} (h : op.bundleOf = some id) :
    op.quiet = false := by
  unfold bundleOf at h
  split at h <;> first | rfl | contradiction

theorem not_quiet_of_cgroupOf {op : Op} {id : String} (h : op.cgroupOf = some id) :
    op.quiet = false := by
  unfold cgroupOf at h
  split at h <;> first | rfl | contradiction

theorem not_quiet_of_onProcs {op : Op} (h : op.onProcs = true) : op.quiet = false := by
  unfold onProcs at h
  split at h <;> first | rfl | contradiction

theorem not_quiet_of_onDaemon {op : Op} (h : op.onDaemon = true) : op.quiet = false := by
  unfold onDaemon at h
  split at h <;> first | rfl | contradiction

end Op

namespace World

variable {w w' : World} {t : Nat} {op : Op} {ch : Choice} {r : op.Ret} {id : String}

attribute [local simp] exec run runPart Op.failure in
theorem exec_exists {b : Bool} (h : w.exec t (.exists (.bundle id)) ch = some (b, w')) :
    b = (w.bundle id).isSome ∧ w' = w := by
  cases ch <;> simp [pathExists, eq_comm] at h
  exact ⟨h.1, h.2.symm⟩

/-- The one part of the world a call changes. -/
inductive Effect (w : World) (t : Nat) (op : Op) : World → Prop
  | files (f : Path → Option Content) (h : ∀ p, (∀ c, op ≠ .write p c) → f p = w.files p) :
    Effect w t op { w with files := f }
  | gate (h : op.onGate = true) (g : Nat → Bool) : Effect w t op { w with gate := g }
  | bundle {id : String} {b : Option Bundle} (h : op.bundleOf = some id)
    (hf : op.fileOf ≠ some id → b.bind Bundle.file = w.file id)
    (hm : op.makesOrRemoves ≠ some id → b.isSome = (w.bundle id).isSome)
    (f : Nat → Nat) : Effect w t op { w.setBundle id b with orphans := f }
  | orphans {p : Path} (h : op = .accept4 p) (f : Nat → Nat) : Effect w t op { w with orphans := f }
  | cgroup {id : String} (h : op.cgroupOf = some id) (b : Bool) :
    Effect w t op { w with cgroup := Function.update w.cgroup id b }
  | procs (h : op.onProcs = true) (ps : List Proc) : Effect w t op { w with procs := ps }
  | event {sp : String} {e : Event} (h : op = .writeEvent sp e) :
    Effect w t op { w with events := w.events ++ [(t, e)] }
  | daemon (h : op.onDaemon = true) (d : Daemon) : Effect w t op (w.setDaemon d)

@[simp] theorem setBundle_bundle (b : Option Bundle) : (w.setBundle id b).bundle id = b := by
  simp [setBundle]

@[simp] theorem setBundle_file (b : Option Bundle) :
    (w.setBundle id b).file id = b.bind Bundle.file := by
  simp [file]

theorem setBundle_ne {id' : String} (b : Option Bundle) (h : id' ≠ id) :
    (w.setBundle id b).bundle id' = w.bundle id' := by
  simp [setBundle, h]

@[simp] theorem setSock_file (s : Sock) (id' : String) :
    (w.setSock id s).file id' = w.file id' := by
  by_cases h : id' = id
  · subst h
    cases hb : w.bundle id' <;> simp [file, setSock, hb, Bundle.file]
  · simp [file, setSock, setBundle_ne _ h]

theorem Effect.refl : Effect w t op w := .files w.files fun _ _ => rfl

theorem Effect.sock {s : Sock} (h : op.bundleOf = some id) : Effect w t op (w.setSock id s) := by
  refine .bundle h (fun _ => ?_) (fun _ => by simp) w.orphans
  cases hb : w.bundle id <;> simp [file, hb, Bundle.file]

theorem Effect.make (h : op.bundleOf = some id) (hm : op.makesOrRemoves = some id) :
    Effect w t op (w.setBundle id (some ((w.bundle id).getD ⟨none, .absent⟩))) := by
  refine .bundle h (fun _ => ?_) (fun e => (e hm).elim) w.orphans
  cases hb : w.bundle id <;> simp [file, hb, Bundle.file]

theorem writeFile_effect (p : Path) (c c' : Content) :
    Effect w t (.write p c) (w.writeFile p c').2 := by
  unfold writeFile
  split
  · split
    · rename_i b hb
      exact .bundle rfl (fun e => (e rfl).elim) (fun _ => by simp [hb]) w.orphans
    · exact .refl
  · refine .files _ fun q hq => ?_
    have hne : q ≠ p := by
      rintro rfl
      exact hq c rfl
    exact Function.update_of_ne hne ..

theorem exec_effect (h : w.exec t op ch = some (r, w')) : Effect w t op w' := by
  cases ch with
  | err e =>
    obtain ⟨r', -, h⟩ := Option.map_eq_some_iff.mp h
    cases h
    exact .refl
  | part e =>
    simp only [exec] at h
    unfold runPart at h
    split at h <;> cases h
    · exact writeFile_effect ..
    · exact .bundle rfl (fun e => (e rfl).elim) (fun e => (e rfl).elim) _
    · exact .refl
  | run n =>
    cases op <;> simp only [exec, run, Option.some.injEq, Prod.mk.injEq, Option.map_eq_some_iff] at h
    case write p c =>
      rw [← show (w.writeFile p c).2 = w' from congrArg Prod.snd h]
      exact writeFile_effect ..
    case createDirAll p =>
      obtain ⟨-, rfl⟩ := h
      cases p <;> first | exact .refl | exact .make rfl rfl | exact .cgroup rfl _
    case removeDir p =>
      cases p <;> simp only [removeDir] at h
      case cgroup id =>
        split at h
        · cases h; exact .refl
        · split at h
          · cases h; exact .refl
          · cases h; exact .cgroup rfl _
      all_goals cases h; exact .refl
    case removeDirAll p =>
      cases p <;> simp only [removeDirAll] at h
      case bundle id =>
        split at h
        · cases h; exact .bundle rfl (fun e => (e rfl).elim) (fun e => (e rfl).elim) _
        · cases h; exact .refl
      all_goals cases h; exact .refl
    case clone3 args =>
      unfold clone at h
      split at h <;> cases h
      exact .procs rfl _
    case waitpid pid =>
      unfold wait at h
      split at h
      · cases h; exact .refl
      · split at h <;> cases h
        exact .procs rfl _
    case bind p =>
      cases p <;> simp only [bind] at h
      case inBundle id f =>
        split at h
        · cases h; exact .refl
        · split at h
          · cases h; exact .sock rfl
          · cases h; exact .refl
      all_goals cases h; exact .refl
    case listen p =>
      obtain ⟨-, rfl⟩ := h
      cases p <;> simp only [listen]
      case inBundle id f =>
        split
        · exact .sock rfl
        · exact .refl
      all_goals exact .refl
    case accept4 p =>
      obtain ⟨w₁, h, rfl, rfl⟩ := h
      cases p <;> simp only [accept, reduceCtorEq] at h
      case inBundle id f =>
        split at h <;> cases h
        unfold setQueue
        split
        · split
          · exact .sock rfl
          · exact .orphans rfl _
        · exact .orphans rfl _
    case connect p =>
      cases p <;> simp only [connect] at h
      case inBundle id f =>
        split at h
        · cases h; exact .refl
        · split at h <;> cases h
          exact .sock rfl
        · cases h; exact .refl
      all_goals cases h; exact .refl
    case close p =>
      obtain ⟨-, rfl⟩ := h
      cases p <;> first | exact .refl | exact .sock rfl
    case writeEvent sp e =>
      simp only [writeEvent] at h
      split at h
      · cases h; exact .event rfl
      · cases h; exact .refl
    case pipeRead p =>
      split at h <;> cases h
      exact .refl
    case fork =>
      split at h <;> cases h
      exact .refl
    case pipe2 => obtain ⟨-, rfl⟩ := h; exact .gate rfl _
    case pipeWrite => obtain ⟨-, rfl⟩ := h; exact .gate rfl _
    case insertEntry => obtain ⟨-, rfl⟩ := h; exact .daemon rfl _
    case setEntry => obtain ⟨-, rfl⟩ := h; exact .daemon rfl _
    case removeStopped => obtain ⟨-, rfl⟩ := h; exact .daemon rfl _
    case pushWaiter => obtain ⟨-, rfl⟩ := h; exact .daemon rfl _
    case awaitCreated => obtain ⟨_, _, _, rfl⟩ := h; exact .refl
    case awaitExit => obtain ⟨_, _, _, rfl⟩ := h; exact .refl
    all_goals (obtain ⟨-, rfl⟩ := h; exact .refl)

/-! ### What a call leaves alone -/

theorem exec_bundle (h : w.exec t op ch = some (r, w')) (hop : op.bundleOf ≠ some id) :
    w'.bundle id = w.bundle id := by
  cases exec_effect h with
  | @bundle id' b hid =>
    have hne : id ≠ id' := fun e => hop (e ▸ hid)
    exact setBundle_ne _ hne
  | files | gate | orphans | cgroup | procs | event | daemon => rfl

/-- Only a write of `state.json` or a removal of the bundle changes the state file. -/
theorem exec_file (h : w.exec t op ch = some (r, w')) (hop : op.fileOf ≠ some id) :
    w'.file id = w.file id := by
  cases exec_effect h with
  | @bundle id' b hid hf =>
    by_cases he : id = id'
    · subst he
      exact (setBundle_file b).trans (hf hop)
    · exact congrArg (·.bind Bundle.file) (setBundle_ne b he)
  | files | gate | orphans | cgroup | procs | event | daemon => rfl

theorem exec_isSome (h : w.exec t op ch = some (r, w')) (hop : op.makesOrRemoves ≠ some id) :
    (w'.bundle id).isSome = (w.bundle id).isSome := by
  cases exec_effect h with
  | @bundle id' b hid hf hm =>
    by_cases he : id = id'
    · subst he
      exact (congrArg Option.isSome (setBundle_bundle b)).trans (hm hop)
    · exact congrArg Option.isSome (setBundle_ne b he)
  | files | gate | orphans | cgroup | procs | event | daemon => rfl

theorem exec_cgroup (h : w.exec t op ch = some (r, w')) (hop : op.cgroupOf ≠ some id) :
    w'.cgroup id = w.cgroup id := by
  cases exec_effect h with
  | @cgroup id' hid b =>
    have hne : id ≠ id' := fun e => hop (e ▸ hid)
    simp [hne]
  | files | gate | orphans | bundle | procs | event | daemon => rfl

/-- Only a write of the file itself changes a control file. -/
theorem exec_files {p : Path} (h : w.exec t op ch = some (r, w')) (hop : ∀ c, op ≠ .write p c) :
    w'.files p = w.files p := by
  cases exec_effect h with
  | files f hf => exact hf p hop
  | gate | bundle | orphans | cgroup | procs | event | daemon => rfl

theorem exec_procs (h : w.exec t op ch = some (r, w')) (hop : op.onProcs = false) :
    w'.procs = w.procs := by
  cases exec_effect h with
  | procs hp => simp [hop] at hp
  | files | gate | orphans | bundle | cgroup | event | daemon => rfl

theorem exec_daemon (h : w.exec t op ch = some (r, w')) (hop : op.onDaemon = false) :
    w'.daemon = w.daemon := by
  cases exec_effect h with
  | daemon hd => simp [hop] at hd
  | files | gate | orphans | bundle | cgroup | event | procs => rfl

theorem exec_events (h : w.exec t op ch = some (r, w')) (hop : ∀ sp e, op ≠ .writeEvent sp e) :
    w'.events = w.events := by
  cases exec_effect h with
  | event he => exact (hop _ _ he).elim
  | files | gate | orphans | bundle | cgroup | procs | daemon => rfl

theorem exec_up (h : w.exec t op ch = some (r, w')) : w'.up = w.up := by
  cases exec_effect h <;> rfl

theorem exec_pipes (h : w.exec t op ch = some (r, w')) (hop : op.onGate = false) :
    w'.gate = w.gate := by
  cases exec_effect h with
  | gate hg => simp [hop] at hg
  | files | orphans | bundle | cgroup | procs | event | daemon => rfl

/-! ### The calls one by one -/

theorem bundle_of_file {s : State} (h : w.file id = some s) :
    ∃ b, w.bundle id = some b ∧ b.state = some (.state s) := by
  obtain ⟨b, hb, hs⟩ := Option.bind_eq_some_iff.mp h
  refine ⟨b, hb, ?_⟩
  unfold Bundle.file at hs
  split at hs
  · rename_i s' hb'
    rw [hb', Option.some.inj hs]
  · contradiction

theorem readFile_of_file {s : State} (h : w.file id = some s) :
    w.readFile (stateJson id) = .ok (.state s) := by
  obtain ⟨b, hb, hs⟩ := bundle_of_file h
  simp [readFile, content, hb, hs]

/-- A file that holds a state is read. -/
theorem run_read {x : State} (h : w.file id = some x) (t : Nat) :
    w.exec t (.read (stateJson id)) (.run 0) = some (.ok (.state x), w) := by
  show some (w.readFile (stateJson id), w) = _
  rw [readFile_of_file h]

/-- And it is written. -/
theorem run_write {x : State} (h : w.file id = some x) (t : Nat) (y : State) :
    ∃ w', w.exec t (.write (stateJson id) (.state y)) (.run 0) = some (.ok (), w') ∧ w'.file id = some y := by
  obtain ⟨b, hb, -⟩ := bundle_of_file h
  refine ⟨w.setBundle id (some { b with state := some (.state y) }), ?_, by simp [file, Bundle.file]⟩
  show some (w.writeFile (stateJson id) (.state y)) = _
  simp [writeFile, hb]

/-- A read of `state.json` that parses yields what is in the file. -/
theorem exec_read {x : Io Content} (h : w.exec t (.read (stateJson id)) ch = some (x, w')) :
    w' = w ∧ ∀ s, parsed x = some s → w.file id = some s := by
  cases ch with
  | err e =>
    obtain ⟨rfl, rfl⟩ : Except.error e = x ∧ w = w' := by simpa [exec, Op.failure] using h
    exact ⟨rfl, by simp [parsed]⟩
  | part e => simp [exec, runPart] at h
  | run n =>
    obtain ⟨rfl, rfl⟩ : w.readFile (stateJson id) = x ∧ w = w' := by simpa [exec, run] using h
    refine ⟨rfl, fun s hs => ?_⟩
    simp only [readFile, file] at hs ⊢
    cases hb : w.bundle id with
    | none => simp [content, hb, parsed] at hs
    | some b =>
      obtain ⟨c, sk⟩ := b
      cases c with
      | none => simp [content, hb, parsed] at hs
      | some c => cases c <;> simp_all [content, parsed, Bundle.file]

/-- A write of `state.json` puts the state there, or fails and leaves the file as it was or
empty. -/
theorem exec_write {x : Io Unit} {s : State}
    (h : w.exec t (.write (stateJson id) (.state s)) ch = some (x, w')) :
    (x = .ok () ∧ w'.file id = some s) ∨
      ∃ e, x = .error e ∧ (w'.file id = w.file id ∨ w'.file id = none) := by
  cases ch with
  | err e =>
    obtain ⟨rfl, rfl⟩ : Except.error e = x ∧ w = w' := by simpa [exec, Op.failure] using h
    exact .inr ⟨e, rfl, .inl rfl⟩
  | part e =>
    simp only [exec, runPart, Option.some.injEq, Prod.mk.injEq] at h
    obtain ⟨rfl, rfl⟩ := h
    refine .inr ⟨e, rfl, ?_⟩
    simp only [writeFile]
    split <;> simp [Bundle.file]
  | run n =>
    simp only [exec, run, writeFile] at h
    split at h <;> cases h
    · simp [Bundle.file]
    · exact .inr ⟨_, rfl, .inl rfl⟩

/-- `create_dir_all` makes the bundle if it is not there. -/
theorem exec_createDirAll {x : Io Unit}
    (h : w.exec t (.createDirAll (.bundle id)) ch = some (x, w')) :
    (x = .ok () ∧ (w'.bundle id).isSome) ∨ ∃ e, x = .error e ∧ w' = w := by
  cases ch with
  | err e =>
    obtain ⟨rfl, rfl⟩ : Except.error e = x ∧ w = w' := by simpa [exec, Op.failure] using h
    exact .inr ⟨e, rfl, rfl⟩
  | part e => simp [exec, runPart] at h
  | run n =>
    obtain ⟨rfl, rfl⟩ : Except.ok () = x ∧ w.makeDirs (.bundle id) = w' := by
      simpa [exec, run] using h
    exact .inl ⟨rfl, by simp [makeDirs]⟩

theorem exec_createCgroup {x : Io Unit}
    (h : w.exec t (.createDirAll (.cgroup id)) ch = some (x, w')) :
    (x = .ok () ∧ w'.cgroup id = true) ∨ ∃ e, x = .error e ∧ w' = w := by
  cases ch with
  | err e =>
    obtain ⟨rfl, rfl⟩ : Except.error e = x ∧ w = w' := by simpa [exec, Op.failure] using h
    exact .inr ⟨e, rfl, rfl⟩
  | part e => simp [exec, runPart] at h
  | run n =>
    obtain ⟨rfl, rfl⟩ : Except.ok () = x ∧ w.makeDirs (.cgroup id) = w' := by
      simpa [exec, run] using h
    exact .inl ⟨rfl, by simp [makeDirs]⟩

theorem exec_clone {args : CloneArgs} {pid : Int}
    (h : w.exec t (.clone3 args) ch = some (.ok pid, w')) :
    0 < pid ∧ w.hasPid pid = false ∧ w'.procs = ⟨pid, t, args.cgroup, none, false⟩ :: w.procs := by
  cases ch with
  | err e => simp [exec, Op.failure] at h
  | part e => simp [exec, runPart] at h
  | run n =>
    simp only [exec, run, clone] at h
    split at h <;> cases h
    rename_i hn
    exact ⟨hn.1, hn.2, rfl⟩

/-- Only a byte that is written fills a pipe. -/
theorem exec_gate {p : Nat} (h : w.exec t op ch = some (r, w')) (hp : w'.gate p = true) :
    w.gate p = true ∨ (⟨op, r⟩ : Sys.Ev) = ⟨.pipeWrite p, .ok ()⟩ := by
  cases hon : op.onGate with
  | false =>
    rw [exec_pipes h hon] at hp
    exact .inl hp
  | true =>
    unfold Op.onGate at hon
    split at hon <;> try contradiction
    · cases ch with
      | err e =>
        obtain ⟨-, rfl⟩ : Except.error e = r ∧ w = w' := by simpa [exec, Op.failure] using h
        exact .inl hp
      | part e => simp [exec, runPart] at h
      | run n =>
        simp only [exec, run, Option.some.injEq, Prod.mk.injEq] at h
        obtain ⟨-, rfl⟩ := h
        by_cases hpt : p = t
        · simp [hpt] at hp
        · simp only [Function.update_of_ne hpt] at hp
          exact .inl hp
    · rename_i q
      cases ch with
      | err e =>
        obtain ⟨-, rfl⟩ : Except.error e = r ∧ w = w' := by simpa [exec, Op.failure] using h
        exact .inl hp
      | part e => simp [exec, runPart] at h
      | run n =>
        simp only [exec, run, Option.some.injEq, Prod.mk.injEq] at h
        obtain ⟨rfl, rfl⟩ := h
        by_cases hpq : p = q
        · exact .inr (by rw [hpq])
        · simp only [Function.update_of_ne hpq] at hp
          exact .inl hp

/-- A byte is read only from a pipe that holds one. -/
theorem exec_pipeRead {p : Nat} (h : w.exec t (.pipeRead p) ch = some (.ok (), w')) :
    w.gate p = true := by
  cases ch with
  | err e => simp [exec, Op.failure] at h
  | part e => simp [exec, runPart] at h
  | run n =>
    simp only [exec, run] at h
    split at h
    · assumption
    · cases h

/-- A process comes by a `clone3`, and goes when its parent reaps it. -/
theorem exec_process (h : w.exec t op ch = some (r, w')) :
    w'.procs = w.procs ∨
      (∃ args pid, (⟨op, r⟩ : Sys.Ev) = ⟨.clone3 args, .ok pid⟩ ∧ w.hasPid pid = false ∧
        w'.procs = ⟨pid, t, args.cgroup, none, false⟩ :: w.procs) ∨
      ∃ p ∈ w.procs, ∃ st, p.parent = t ∧ (⟨op, r⟩ : Sys.Ev) = ⟨.waitpid p.pid, .ok st⟩ ∧
        w'.procs = w.procs.filter (·.pid ≠ p.pid) := by
  cases hon : op.onProcs with
  | false => exact .inl (exec_procs h hon)
  | true =>
    unfold Op.onProcs at hon
    split at hon <;> try contradiction
    · rename_i args
      cases r with
      | ok pid => exact .inr (.inl ⟨args, pid, rfl, (exec_clone h).2⟩)
      | error e =>
        cases ch with
        | err e' =>
          obtain ⟨-, rfl⟩ : e' = e ∧ w = w' := by simpa [exec, Op.failure] using h
          exact .inl rfl
        | part e' => simp [exec, runPart] at h
        | run n =>
          simp only [exec, run, clone] at h
          split at h <;> cases h
    · rename_i pid
      cases ch with
      | err e =>
        obtain ⟨-, rfl⟩ : Except.error e = r ∧ w = w' := by simpa [exec, Op.failure] using h
        exact .inl rfl
      | part e => simp [exec, runPart] at h
      | run n =>
        simp only [exec, run, wait] at h
        split at h
        · cases h
          exact .inl rfl
        · rename_i p hp
          split at h <;> cases h
          rename_i st hst
          have hfound := List.find?_some hp
          simp only [decide_eq_true_eq] at hfound
          obtain ⟨rfl, hpar⟩ := hfound
          exact .inr (.inr ⟨p, List.mem_of_find?_eq_some hp, st, hpar, rfl, rfl⟩)

/-- An answer that the call can get. -/
def Answer (op : Op) (r : op.Ret) : Prop :=
  ∃ (w w' : World) (t : Nat) (ch : Choice), w.exec t op ch = some (r, w')

/-- The process that calls `clone3` is told the pid of its child. -/
theorem not_answer_zero {args : CloneArgs} : ¬Answer (.clone3 args) (.ok 0) := by
  intro h
  obtain ⟨w, w', t, ch, hx⟩ := h
  have hpos := (exec_clone hx).1
  omega

/-- The removal of a bundle, as far as its state file goes. -/
theorem exec_removeDirAll {x : Io Unit}
    (h : w.exec t (.removeDirAll (.bundle id)) ch = some (x, w')) :
    (x = .ok () ∧ w'.bundle id = none) ∨
      ∃ e, x = .error e ∧ ((w'.bundle id).isSome = (w.bundle id).isSome ∧
        (w'.file id = w.file id ∨ w'.file id = none)) := by
  cases ch with
  | err e =>
    obtain ⟨rfl, rfl⟩ : Except.error e = x ∧ w = w' := by simpa [exec, Op.failure] using h
    exact .inr ⟨e, rfl, rfl, .inl rfl⟩
  | part e =>
    obtain ⟨rfl, rfl⟩ := (by simpa [exec, runPart] using h :
      Except.error e = x ∧ w.unlink id ((w.bundle id).map fun _ => ⟨none, .absent⟩) = w')
    refine .inr ⟨e, rfl, by simp [unlink], .inr ?_⟩
    cases hb : w.bundle id <;> simp [unlink, file, Bundle.file]
  | run n =>
    simp only [exec, run, removeDirAll] at h
    split at h <;> cases h
    · simp [unlink]
    · exact .inr ⟨_, rfl, rfl, .inl rfl⟩

/-! ### The environment and the end of a thread -/

theorem env_bundle {e : Env} (h : w.env e = some w') : w'.bundle = w.bundle := by
  cases e <;> simp only [env] at h
  case deliver => split at h <;> cases h; rfl
  case daemonStart => split at h <;> cases h; rfl
  all_goals cases h; rfl

theorem env_file {e : Env} (h : w.env e = some w') : w'.file id = w.file id := by
  rw [file, env_bundle h, file]

theorem env_files {e : Env} (h : w.env e = some w') : w'.files = w.files := by
  cases e <;> simp only [env] at h
  case deliver => split at h <;> cases h; rfl
  case daemonStart => split at h <;> cases h; rfl
  all_goals cases h; rfl

theorem env_cgroup {e : Env} (h : w.env e = some w') : w'.cgroup = w.cgroup := by
  cases e <;> simp only [env] at h
  case deliver => split at h <;> cases h; rfl
  case daemonStart => split at h <;> cases h; rfl
  all_goals cases h; rfl

theorem env_gate {e : Env} (h : w.env e = some w') : w'.gate = w.gate := by
  cases e <;> simp only [env] at h
  case deliver => split at h <;> cases h; rfl
  case daemonStart => split at h <;> cases h; rfl
  all_goals cases h; rfl

/-- A process that ends by itself stays until it is reaped, by process 1 if its parent has ended. -/
theorem env_procs {e : Env} (h : w.env e = some w') :
    (∃ f : Proc → Proc, w'.procs = w.procs.map f ∧ ∀ p, (f p).pid = p.pid ∧
      (f p).parent = p.parent ∧ (f p).cgroup = p.cgroup ∧ (f p).adopted = p.adopted) ∨
      ∃ pid, e = .reap pid ∧ w'.procs = w.procs.filter fun p => !(p.pid = pid && p.reapable) := by
  have hid : w'.procs = w.procs → ∃ f : Proc → Proc, w'.procs = w.procs.map f ∧ ∀ p,
      (f p).pid = p.pid ∧ (f p).parent = p.parent ∧ (f p).cgroup = p.cgroup ∧
        (f p).adopted = p.adopted := by
    intro e
    exact ⟨fun p => p, by simp [e], fun p => ⟨rfl, rfl, rfl, rfl⟩⟩
  cases e with
  | exit pid status =>
    cases h
    refine .inl ⟨_, rfl, fun p => ?_⟩
    split <;> exact ⟨rfl, rfl, rfl, rfl⟩
  | reap pid =>
    cases h
    exact .inr ⟨pid, rfl, rfl⟩
  | deliver =>
    simp only [env] at h
    split at h <;> cases h
    exact .inl (hid rfl)
  | daemonStop =>
    cases h
    exact .inl (hid rfl)
  | daemonStart =>
    simp only [env] at h
    split at h <;> cases h
    exact .inl (hid rfl)

/-- The end of a process leaves its children to process 1. -/
theorem crash_procs : ∃ f : Proc → Proc, (w.crash t).procs = w.procs.map f ∧
    ∀ p, (f p).pid = p.pid ∧ (f p).parent = p.parent ∧ (f p).cgroup = p.cgroup ∧
      (f p).status = p.status ∧ (p.parent ≠ t → f p = p) := by
  refine ⟨_, rfl, fun p => ?_⟩
  split
  · rename_i hpar
    exact ⟨rfl, rfl, rfl, rfl, fun hne => (hne hpar).elim⟩
  · exact ⟨rfl, rfl, rfl, rfl, fun _ => rfl⟩

@[simp] theorem crash_isSome : ((w.crash t).bundle id).isSome = (w.bundle id).isSome := by
  simp [crash]

@[simp] theorem crash_file : (w.crash t).file id = w.file id := by
  cases hb : w.bundle id <;> simp [crash, file, hb, Bundle.file]

end World
end Clonebox
