import Clonebox.Lifecycle.Atomic
import Clonebox.System.OwnWrites

/-! # The life of a container

With one supervisor, no forced removal and every operation atomic, the status, the pid, the freezer
and the supervisor go together. -/

namespace Clonebox
open Conc Prog

variable {id : String} {c c' : SysConf} {a : SysAction} {i : Nat} {th th' : SysThread} {w w' : World}
  {s s' : State} {t : Turn}

/-! ### What is allowed -/

/-- The changes of the status in the state file. -/
inductive StatusMove : Option ContainerState → Option ContainerState → Prop
  | kept (s : Option ContainerState) : StatusMove s s
  | creating : StatusMove none (some .creating)
  | created : StatusMove (some .creating) (some .created)
  | started : StatusMove (some .created) (some .running)
  | paused : StatusMove (some .running) (some .paused)
  | resumed : StatusMove (some .paused) (some .running)
  | stopped {s : ContainerState} (h : s = .created ∨ s = .running ∨ s = .paused) :
    StatusMove (some s) (some .stopped)
  | removed : StatusMove (some .stopped) none

/-- A call that acts on the container. -/
def Op.actsOn (id : String) : Op → Bool
  | .write p _ => p = stateJson id ∨ p = freezer id
  | .connect p => p = startSk id
  | .kill _ => true
  | .removeDir p => p = .cgroup id
  | .removeDirAll p => p = .bundle id
  | _ => false

/-- The statuses in which an operation on the container is not refused. -/
def Kind.accepts (id : String) : Kind → Option (List ContainerState)
  | .turn t i => if i = id then some [t.required] else none
  | .kill i => if i = id then some [.created, .running] else none
  | .delete i _ => if i = id then some [.stopped] else none
  | _ => none

/-! ### Supervisor and file -/

/-- The stages in which the status is `creating`. -/
def Stage.before : Stage → Bool
  | .initial | .grouped | .cloned _ | .announced _ | .reread _ _ => true
  | _ => false

/-- The state that the file can hold while the supervisor has come to a stage. -/
def Stage.fits (s : State) (g : Stage) : Bool :=
  match s.status with
  | .creating => s.pid = none ∧ g.before
  | .stopped => s.pid = none ∧ g.past
  | _ => s.pid = g.pid ∧ g.past

theorem fits_supervises {k : Kind} {g : Phase} (h : AtStage id (Stage.fits s) k g) :
    Supervises id k g := by
  refine h.mono fun st hst => ?_
  unfold Stage.fits at hst
  split at hst
  · have hbefore := (of_decide_eq_true hst).2
    cases st <;> first | rfl | cases hbefore
  · have hpast := (of_decide_eq_true hst).2
    cases st <;> first | rfl | cases hpast
  · have hpast := (of_decide_eq_true hst).2
    cases st <;> first | rfl | cases hpast

theorem fits_turn {g : Stage} (h : g.fits s = true) (hst : s.status = t.required) :
    g.fits (t.set s) = true := by
  cases t <;> simp_all [Stage.fits, Turn.required, Turn.set, State.setRunning, State.setPaused]

theorem fits_stopped {g : Stage} (h : g.fits s = true) (hst : s.status ≠ .creating) :
    g.fits s.setStopped = true := by
  cases hs : s.status <;> simp_all [Stage.fits, State.setStopped]

theorem before_move {g g' : Stage} {op : Op} {r : op.Ret} (hm : Stage.Move id g op r g')
    (ha : World.Answer op r) (h : g.before = true) : g'.before = true ∨ ∃ pid, g' = .created pid := by
  cases hm with
  | child => exact (World.not_answer_zero ha).elim
  | created => exact .inr ⟨_, rfl⟩
  | grouped | cloned | announced | rereadCloned | rereadAnnounced => exact .inl rfl
  | _ => cases h

theorem past_move {g g' : Stage} {op : Op} {r : op.Ret} (hm : Stage.Move id g op r g')
    (h : g.past = true) :
    g'.past = true ∧ g'.pid = g.pid := by
  cases hm <;> first | exact ⟨rfl, rfl⟩ | cases h

theorem fits_move {g g' : Stage} {op : Op} {r : op.Ret} (hm : Stage.Move id g op r g')
    (ha : World.Answer op r)
    (h : g.fits s = true) (hcreated : ∀ pid, g' = .created pid → s.status ≠ .creating) :
    g'.fits s = true := by
  unfold Stage.fits at h ⊢
  split at h
  · obtain ⟨hpid, hbefore⟩ := of_decide_eq_true h
    rcases before_move hm ha hbefore with hb | ⟨pid, rfl⟩
    · exact decide_eq_true ⟨hpid, hb⟩
    · exact absurd ‹_› (hcreated pid rfl)
  · obtain ⟨hpid, hpast⟩ := of_decide_eq_true h
    exact decide_eq_true ⟨hpid, (past_move hm hpast).1⟩
  · obtain ⟨hpid, hpast⟩ := of_decide_eq_true h
    obtain ⟨hp, he⟩ := past_move hm hpast
    exact decide_eq_true ⟨hpid.trans he.symm, hp⟩

/-! ### Calls of `pause` and `resume` -/

/-- Where a call of `pause` or `resume` is in its protocol, while it is not at its end. -/
def FreezeStage.pairs (g : FreezeStage) (p : Phase) : Prop :=
  match g with
  | .idle => p = .turn .idle
  | .checked | .acted => p = .turn .passed
  | .reread s => p = .turn (.reread s)
  | .refused | .recorded => True

theorem pairs_next {g : FreezeStage} {p : Phase} {op : Op} (hmay : g.may t id op)
    (h : g.pairs p) (r : op.Ret) : (g.next t op r).pairs ((Kind.turn t id).next p op r) := by
  cases g with
  | idle =>
    obtain rfl : op = .read (stateJson id) := hmay
    obtain rfl : p = .turn .idle := h
    cases hp : parsed r with
    | none => simp [FreezeStage.next, hp, FreezeStage.pairs]
    | some s =>
      by_cases hst : s.status = t.required
      · simp [FreezeStage.next, Kind.next, Op.quiet, TurnStage.advance, hp, hst, FreezeStage.pairs]
      · simp [FreezeStage.next, hp, hst, FreezeStage.pairs]
  | checked =>
    obtain rfl : op = .write (freezer id) (.text t.freeze) := hmay
    obtain rfl : p = .turn .passed := h
    cases r with
    | ok _ => rfl
    | error _ => trivial
  | acted =>
    obtain rfl : op = .read (stateJson id) := hmay
    obtain rfl : p = .turn .passed := h
    cases hp : parsed r with
    | none => simp [FreezeStage.next, hp, FreezeStage.pairs]
    | some s => simp [FreezeStage.next, Kind.next, Op.quiet, TurnStage.advance, hp, FreezeStage.pairs]
  | reread s =>
    obtain rfl : op = .write (stateJson id) (.state (t.set s)) := hmay
    cases r <;> trivial
  | recorded =>
    obtain rfl : op = .setEntry id t.target := hmay
    trivial
  | refused => exact hmay.elim

theorem paired (htr : (system.prog th.main).Reaches th.trace th.prog) (hf : freezing id th = some t) :
    (freezeStage t id th).pairs (phaseOf th) := by
  obtain ⟨hne, hk⟩ := freezing_some hf
  have hobeys := (htr.obeys (main_freezes hk hne)).1
  have hinit : FreezeStage.idle.pairs (th.main.proto.phase th.main.kind.init []) := by
    have hkind : th.main.kind = .turn t id := hk
    rw [hkind]
    rfl
  refine hobeys.history (J := fun g tr => g.pairs (th.main.proto.phase th.main.kind.init tr))
    hinit fun g tr ev hmay hJ => ?_
  rw [Proto.phase_snoc]
  have hnext := pairs_next hmay hJ ev.2
  rw [← hk] at hnext
  exact hnext

theorem between_stage (htr : (system.prog th.main).Reaches th.trace th.prog) (hb : Between id th) :
    InSection id th := by
  obtain ⟨t, hf, hg⟩ := hb
  have hpairs := paired htr hf
  have hk := (freezing_some hf).2
  unfold InSection
  rw [hk]
  generalize freezeStage t id th = g at hg hpairs
  cases g with
  | acted =>
    have hph : phaseOf th = .turn .passed := hpairs
    rw [hph]
    exact decide_eq_true ⟨rfl, rfl⟩
  | reread s =>
    have hph : phaseOf th = .turn (.reread s) := hpairs
    rw [hph]
    exact decide_eq_true ⟨rfl, rfl⟩
  | idle | refused | checked | recorded => cases hg

theorem freezing_turn {n : String} (hk : kindOf th = .turn t n) (ht : t ≠ .start) (hn : n = id) :
    freezing id th = some t := by
  subst hn
  unfold freezing
  rw [hk]
  cases t with
  | start => exact absurd rfl ht
  | pause | resume => exact if_pos rfl

/-- The status is written after the freezer. -/
theorem between_write (htr : (system.prog th.main).Reaches th.trace th.prog)
    (hk : kindOf th = .turn t id) (ht : t ≠ .start) {k : Io Unit → Prog Sys Fault Reply}
    (hp : th.prog = .call (.write (stateJson id) (.state s)) k) : Between id th := by
  have hf := freezing_turn hk ht rfl
  refine ⟨t, hf, ?_⟩
  have hmay := freeze_may htr hf hp
  generalize freezeStage t id th = g at hmay ⊢
  cases g with
  | reread s => rfl
  | refused => exact hmay.elim
  | idle | acted | recorded | checked => cases hmay

/-! ### The invariant -/

structure Lives (id : String) (c : SysConf) : Prop where
  one : OneSupervisor id c
  known : KnowsFile id c
  file : ∀ s, c.world.file id = some s → Has id (Stage.fits s) c

/-- What a write makes of the file. -/
inductive Records (id : String) (c : SysConf) : State → Prop
  | creating {s : State} (hold : c.world.file id = none) (hst : s.status = .creating) (hpid : s.pid = none)
    (hpast : ¬HasPast id c) : Records id c s
  | created {s : State} {pid : Int} (hold : c.world.file id = some s) (hst : s.status = .creating) :
    Records id c (s.setCreated pid)
  | turned {t : Turn} {s : State} (hold : c.world.file id = some s) (hst : s.status = t.required)
    (hacted : t ≠ .start → ∃ th ∈ c.threads, Between id th) : Records id c (t.set s)
  | stopped {s : State} (hold : c.world.file id = some s) (hst : s.status ≠ .creating) :
    Records id c s.setStopped

theorem Records.move (h : Records id c s) :
    StatusMove ((c.world.file id).map (·.status)) (some s.status) := by
  cases h with
  | creating hold hst =>
    rw [hold, hst]
    exact .creating
  | @created s pid hold hst =>
    rw [hold, Option.map_some, hst]
    exact .created
  | @turned t s hold hst =>
    rw [hold, Option.map_some, hst, Turn.set_status]
    cases t with
    | start => exact .started
    | pause => exact .paused
    | resume => exact .resumed
  | @stopped s hold hst =>
    rw [hold, Option.map_some]
    show StatusMove (some s.status) (some .stopped)
    cases he : s.status with
    | creating => exact absurd he hst
    | created => exact .stopped (.inl rfl)
    | running => exact .stopped (.inr (.inl rfl))
    | paused => exact .stopped (.inr (.inr rfl))
    | stopped => exact .kept _

theorem Does.writeBy {k : Kind} {g : Phase} (hd : Does k g (.write (stateJson id) (.state s))) :
    WriteBy id k g s := by
  cases hd with
  | quiet hq => cases hq
  | writeCreating h hpid => exact .creating h hpid
  | writeCreated => exact .created
  | writeStopped => exact .stopped
  | writeTurn => exact .turned
  | writeKilled => exact .killed
  | looks hl => cases hl

/-- The supervisor whose stage fits the file is the one that writes. -/
theorem Lives.stage (h : Lives id c) (hf : c.world.file id = some s) (hi : c.threads[i]? = some th)
    (hsup : Supervises id (kindOf th) (phaseOf th)) :
    AtStage id (Stage.fits s) (kindOf th) (phaseOf th) := by
  obtain ⟨j, th₁, hj, hfits⟩ := h.file s hf
  obtain rfl := h.one.eq hi hj hsup (fits_supervises hfits)
  cases hi.symm.trans hj
  exact hfits

theorem Lives.records (h : Lives id c) (hc : Conforming c) (htr : Machine.Traced system c)
    (hw : Writes id s c a) : Records id c s := by
  obtain ⟨⟨i, ev⟩, he, hwrote⟩ := hw
  cases wrote_some hwrote
  obtain ⟨th, k, ch, w, -, hi, -, hp, -, -⟩ := Machine.event_some he
  have hby : WriteBy id (kindOf th) (phaseOf th) s := (Kind.may_does ((hc i th hi).may hp)).writeBy
  have hknown := h.known i th hi
  have hstage {s₀ : State} (hf : c.world.file id = some s₀) := h.stage hf hi
  have hmade (hph : phaseOf th = .create .made) (hsup : Supervises id (kindOf th) (phaseOf th)) :
      ¬HasPast id c := by
    intro hpast
    obtain ⟨j, th₁, hj, hpast⟩ := hpast
    obtain rfl := h.one.eq hi hj hsup (PastCreated.supervises hpast)
    cases hi.symm.trans hj
    obtain ⟨_, _, st, -, hg, hst⟩ := hpast
    cases hph.symm.trans hg
    cases hst
  have hacted {t : Turn} (hk : kindOf th = .turn t id) (ht : t ≠ .start) : ∃ th ∈ c.threads, Between id th :=
    ⟨th, List.mem_of_getElem? hi, between_write (htr i th hi) hk ht hp⟩
  unfold InSection at hknown
  generalize kindOf th = k at hby hknown hstage hmade hacted
  generalize phaseOf th = g at hby hknown hstage hmade
  cases hby with
  | creating hst hpid =>
    refine .creating ?_ hst hpid (hmade rfl ⟨_, _, _, rfl, rfl, rfl⟩)
    cases hf : c.world.file id with
    | none => rfl
    | some s₀ =>
      obtain ⟨_, _, st, -, hg, hfits⟩ := hstage hf ⟨_, _, _, rfl, rfl, rfl⟩
      cases hg
      unfold Stage.fits at hfits
      split at hfits <;> simp [Stage.before, Stage.past] at hfits
  | @created cp sp pid s =>
    have hf : c.world.file id = some s := hknown (decide_eq_true ⟨rfl, rfl⟩)
    refine .created hf ?_
    obtain ⟨_, _, st, -, hg, hfits⟩ := hstage hf ⟨_, _, _, rfl, rfl, rfl⟩
    cases hg
    unfold Stage.fits at hfits
    split at hfits
    · assumption
    · simp [Stage.past] at hfits
    · simp [Stage.past] at hfits
  | @stopped cp sp pid s =>
    have hf : c.world.file id = some s := hknown (decide_eq_true ⟨rfl, rfl⟩)
    refine .stopped hf fun hst => ?_
    obtain ⟨_, _, st, -, hg, hfits⟩ := hstage hf ⟨_, _, _, rfl, rfl, rfl⟩
    cases hg
    simp [Stage.fits, hst, Stage.before] at hfits
  | @turned t s =>
    obtain ⟨hf, hst⟩ : c.world.file id = some s ∧ s.status = t.required := hknown (decide_eq_true ⟨rfl, rfl⟩)
    exact .turned hf hst (hacted rfl)
  | @killed s =>
    obtain ⟨hf, pid, ht⟩ : c.world.file id = some s ∧ ∃ pid, killTarget id s = .ok pid :=
      hknown (decide_eq_true ⟨rfl, rfl⟩)
    refine .stopped hf fun hst => ?_
    rcases (killTarget_ok ht).1 with h | h
    · cases hst.symm.trans h
    · cases hst.symm.trans h

/-- While the file stays, the supervisor goes on to stages that fit it. -/
theorem fits_kept (h : Has id (Stage.fits s) c) (hc : Conforming c) (hs : system.step c a = some c')
    (hf' : c'.world.file id = some s) : Has id (Stage.fits s) c' := by
  obtain ⟨j, th, hj, cp, sp, st, hk, hg, hfits⟩ := h
  obtain ⟨th', hj', rfl | rfl | ⟨op, k, r, ch, rfl, hst, hop, hx, rfl⟩⟩ := Machine.step_persists hs hj
  · exact ⟨j, th', hj', cp, sp, st, hk, hg, hfits⟩
  · exact ⟨j, _, hj', cp, sp, st, hk, by simpa [phaseOf] using hg, hfits⟩
  · have hd : Does (kindOf th) (phaseOf th) op := Kind.may_does ((hc j th hj).may hop)
    have hph : phaseOf (th.answer op k r) = (kindOf th).next (phaseOf th) op r :=
      Machine.Contract.phase_answer
    rw [hk, hg] at hd hph
    rcases Stage.moves hd r with e | ⟨g', e, hm⟩
    · exact ⟨j, _, hj', cp, sp, st, hk, hph.trans e, hfits⟩
    · refine ⟨j, _, hj', cp, sp, g', hk, hph.trans e, fits_move hm ⟨_, _, _, _, hx⟩ hfits fun pid he => ?_⟩
      subst he
      cases hm
      rcases World.exec_write hx with ⟨-, hnew⟩ | ⟨e, he, -⟩
      · cases hf'.symm.trans hnew
        intro hst'
        cases hst'
      · cases he

/-- When another thread writes, the supervisor stays where it is. -/
theorem has_other {S : Stage → Bool} (h : Has id S c) {ev : Sys.Ev}
    (he : system.event c a = some (i, ev))
    (hs : system.step c a = some c') (hi : c.threads[i]? = some th)
    (hk : ∀ cp sp, kindOf th ≠ .create id cp sp) : Has id S c' := by
  obtain ⟨j, th₁, hj, hst⟩ := h
  refine ⟨j, th₁, event_other he hs hj fun hij => ?_, hst⟩
  subst hij
  cases hi.symm.trans hj
  obtain ⟨cp, sp, _, hkind, -⟩ := hst
  exact hk cp sp hkind

theorem Has.imp {S T : Stage → Bool} (h : Has id S c) (hST : ∀ g, S g = true → T g = true) :
    Has id T c := by
  obtain ⟨i, th, hi, hst⟩ := h
  exact ⟨i, th, hi, hst.mono hST⟩

theorem Lives.file_step (h : Lives id c) (hc : Conforming c) (hs : system.step c a = some c') :
    ∀ s, c'.world.file id = some s → Has id (Stage.fits s) c' := by
  intro s hf'
  rcases step_file hc hs with hsame | ⟨hnone, -⟩ | ⟨s', hw, hnew⟩
  · exact fits_kept (h.file s (hsame.symm.trans hf')) hc hs hf'
  · cases hnone.symm.trans hf'
  · cases hf'.symm.trans hnew
    obtain ⟨⟨i, ev⟩, he, hwrote⟩ := hw
    cases wrote_some hwrote
    obtain ⟨th, k, ch, hi, -, hd, -, hi', hph⟩ := event_thread hc he hs
    have hby := hd.writeBy
    have hk' : kindOf (th.answer (.write (stateJson id) (.state s)) k (.ok ())) = kindOf th := rfl
    have hknown := h.known i th hi
    have hstage {s₀ : State} (hf : c.world.file id = some s₀) := h.stage hf hi
    have hother {s₀ : State} (hf : c.world.file id = some s₀) (hk : ∀ cp sp, kindOf th ≠ .create id cp sp) :
        Has id (Stage.fits s₀) c' := has_other (h.file s₀ hf) he hs hi hk
    unfold InSection at hknown
    generalize kindOf th = k at hby hknown hstage hother hk' hph
    generalize phaseOf th = g at hby hknown hstage hph
    cases hby with
    | creating hst hpid =>
      refine ⟨i, _, hi', _, _, _, hk', hph, ?_⟩
      simp [Stage.fits, hst, hpid, Stage.advance, Op.quiet, Stage.before]
    | @created cp sp pid s =>
      refine ⟨i, _, hi', _, _, _, hk', hph, ?_⟩
      simp [Stage.fits, Stage.advance, Op.quiet, Stage.past, State.setCreated, Stage.pid]
    | @stopped cp sp pid s =>
      refine ⟨i, _, hi', _, _, _, hk', hph, ?_⟩
      simp [Stage.fits, Stage.advance, Op.quiet, Stage.past, State.setStopped]
    | @turned t s =>
      obtain ⟨hf, hst⟩ : c.world.file id = some s ∧ s.status = t.required := hknown (decide_eq_true ⟨rfl, rfl⟩)
      refine (hother hf fun cp sp hk => ?_).imp fun g hg => fits_turn hg hst
      cases hk
    | @killed s =>
      obtain ⟨hf, pid, ht⟩ : c.world.file id = some s ∧ ∃ pid, killTarget id s = .ok pid :=
        hknown (decide_eq_true ⟨rfl, rfl⟩)
      refine (hother hf fun cp sp hk => ?_).imp fun g hg => fits_stopped hg fun hst => ?_
      · cases hk
      · rcases (killTarget_ok ht).1 with h | h
        · cases hst.symm.trans h
        · cases hst.symm.trans h

/-! ### Freezer and status -/

/-- The status, and what the freezer holds. -/
structure Frozen (id : String) (c : SysConf) : Prop where
  acted : ∀ (i : Nat) th t, c.threads[i]? = some th → freezing id th = some t →
    (freezeStage t id th).between = true → c.world.files (freezer id) = some (.text t.freeze)
  thawed : c.world.files (freezer id) = some (.text "1") → HasPast id c
  agree : (∀ th ∈ c.threads, ¬Between id th) → ∀ s, c.world.file id = some s → s.status ≠ .stopped →
    (c.world.files (freezer id) = some (.text "1") ↔ s.status = .paused)

/-- Who writes the freezer. -/
theorem freezer_event (htr : Machine.Traced system c) {x : Content} {r : Io Unit}
    (he : system.event c a = some (i, ⟨.write (freezer id) x, r⟩)) :
    ∃ th ∈ c.threads[i]?, ∃ t, freezing id th = some t ∧ freezeStage t id th = .checked ∧
      x = .text t.freeze := by
  obtain ⟨th, k, ch, w, -, hi, -, hp, -, -⟩ := Machine.event_some he
  obtain ⟨t, ht, hk⟩ := (event_owns htr he hi).freezer id x rfl
  have hf := freezing_turn hk ht rfl
  refine ⟨th, hi, t, hf, ?_⟩
  have hmay := freeze_may (htr i th hi) hf hp
  generalize freezeStage t id th = g at hmay ⊢
  cases g with
  | checked =>
    cases hmay
    exact ⟨rfl, rfl⟩
  | refused => exact hmay.elim
  | idle | acted | recorded | reread => cases hmay

theorem exec_freezer {m : Int} {x : Content} {r : Io Unit}
    (hx : w.exec i (.write (freezer id) x) (.run m) = some (r, w')) :
    r = .ok () ∧ w'.files (freezer id) = some x := by
  obtain ⟨rfl, rfl⟩ := Prod.mk.inj (Option.some.inj hx)
  exact ⟨rfl, Function.update_self ..⟩

/-- Only those writes change the freezer. -/
theorem freezer_kept (hs : system.step c a = some c')
    (h : ∀ e ∈ system.event c a, ∀ x, e.2.1 ≠ .write (freezer id) x) :
    c'.world.files (freezer id) = c.world.files (freezer id) := by
  rcases step_world hs with ⟨i, op, r, ch, he, hx⟩ | e | ⟨e, -, he⟩ | ⟨t, -, e⟩
  · exact World.exec_files hx (h _ he)
  · rw [e]
  · exact congrFun (World.env_files he) _
  · rw [e]
    rfl

theorem Frozen.acted_step (h : Frozen id c) (hc : Conforming c) (htr : Machine.Traced system c)
    (hok : AtomicStep id c a) (hs : system.step c a = some c') (hi : c'.threads[i]? = some th')
    (hf : freezing id th' = some t) (hb : (freezeStage t id th').between = true) :
    c'.world.files (freezer id) = some (.text t.freeze) := by
  have hin := between_stage (htr.step hs i th' hi) ⟨t, hf, hb⟩
  obtain ⟨op, r, he⟩ := hok.section hc hs hi hin
  obtain ⟨th, k, ch, hi₀, hp, -, hx, hrun, hi', -⟩ := hok.event hc hs he
  cases hi.symm.trans hi'
  rw [freezing_main rfl] at hf
  rw [freezeStage_answer] at hb
  have hmay := freeze_may (htr i th hi₀) hf hp
  have hold := h.acted i th t hi₀ hf
  generalize freezeStage t id th = g at hb hmay hold
  cases g with
  | idle =>
    obtain rfl : op = .read (stateJson id) := hmay
    cases hp : parsed r with
    | none => simp [FreezeStage.next, hp, FreezeStage.between] at hb
    | some s =>
      by_cases hst : s.status = t.required <;>
        simp [FreezeStage.next, hp, hst, FreezeStage.between] at hb
  | checked =>
    obtain rfl : op = .write (freezer id) (.text t.freeze) := hmay
    obtain ⟨m, rfl⟩ := hrun (by simp [Op.onState, Op.records])
    exact (exec_freezer hx).2
  | acted =>
    obtain rfl : op = .read (stateJson id) := hmay
    rw [World.exec_files hx fun x he => by cases he]
    exact hold rfl
  | reread s =>
    obtain rfl : op = .write (stateJson id) (.state (t.set s)) := hmay
    cases r <;> cases hb
  | recorded =>
    obtain rfl : op = .setEntry id t.target := hmay
    cases hb
  | refused => exact hmay.elim

/-- A call that is between its two writes goes on, and then writes the status. -/
theorem Frozen.between_step (h : Frozen id c) (hknown : KnowsFile id c) (hc : Conforming c)
    (htr : Machine.Traced system c) (hok : AtomicStep id c a) (hs : system.step c a = some c')
    (hi : c.threads[i]? = some th) (hb : Between id th) (hnone : ∀ th ∈ c'.threads, ¬Between id th) :
    ∃ (t : Turn) (s : State), t ≠ .start ∧ c'.world.file id = some (t.set s) ∧
      c'.world.files (freezer id) = some (.text t.freeze) := by
  have hin := between_stage (htr i th hi) hb
  obtain ⟨t, hf, hg⟩ := hb
  obtain ⟨op, r, he⟩ := hok.called hs hi hin
  obtain ⟨th₁, k, ch, hi₁, hp, -, hx, hrun, hthread, -⟩ := hok.event hc hs he
  cases hi.symm.trans hi₁
  have hafter : ¬((freezeStage t id th).next t op r).between = true := fun hnext =>
    hnone _ (List.mem_of_getElem? hthread) (between_answer.mpr ⟨t, hf, hnext⟩)
  have hne := freezing_some hf
  have hpairs := paired (htr i th hi) hf
  have hknows := hknown i th hi hin
  have hmay := freeze_may (htr i th hi) hf hp
  have hold := h.acted i th t hi hf hg
  rw [hne.2] at hknows
  generalize freezeStage t id th = g at hg hafter hpairs hmay
  cases g with
  | acted =>
    obtain rfl : op = .read (stateJson id) := hmay
    have hph : phaseOf th = .turn .passed := hpairs
    rw [hph] at hknows
    obtain ⟨s, hfile, -⟩ := hknows
    obtain ⟨m, rfl⟩ := hrun (by simp [Op.onState, Op.onStateFile])
    have hread : c.world.exec i (.read (stateJson id)) (.run m) = some (.ok (.state s), c.world) :=
      World.run_read hfile i
    obtain rfl := (Prod.mk.inj (Option.some.inj (hread.symm.trans hx))).1
    exact absurd rfl hafter
  | reread s =>
    obtain rfl : op = .write (stateJson id) (.state (t.set s)) := hmay
    have hph : phaseOf th = .turn (.reread s) := hpairs
    rw [hph] at hknows
    obtain ⟨hfile, -⟩ := hknows
    obtain ⟨m, rfl⟩ := hrun (by simp [Op.onState, Op.onStateFile])
    obtain rfl := write_works hfile hx
    refine ⟨t, s, hne.1, ?_, ?_⟩
    · rcases World.exec_write hx with ⟨-, hnew⟩ | ⟨e, he, -⟩
      · exact hnew
      · cases he
    · rw [World.exec_files hx fun x he => by cases he]
      exact hold
  | idle | refused | checked | recorded => cases hg

theorem freeze_paused (ht : t ≠ .start) :
    (some (Content.text t.freeze) = some (.text "1") ↔ t.target = .paused) := by
  cases t with
  | start => exact absurd rfl ht
  | pause => simp [Turn.freeze, Turn.target]
  | resume => simp [Turn.freeze, Turn.target]

theorem Frozen.agree_step (h : Frozen id c) (hl : Lives id c) (hc : Conforming c)
    (htr : Machine.Traced system c) (hok : AtomicStep id c a) (hs : system.step c a = some c')
    (hnone : ∀ th ∈ c'.threads, ¬Between id th) (hf' : c'.world.file id = some s)
    (hst : s.status ≠ .stopped) :
    c'.world.files (freezer id) = some (.text "1") ↔ s.status = .paused := by
  by_cases hbefore : ∀ th ∈ c.threads, ¬Between id th
  · have hkept : c'.world.files (freezer id) = c.world.files (freezer id) := by
      refine freezer_kept hs fun e he x hop => ?_
      obtain ⟨i, op, r⟩ := e
      subst hop
      obtain ⟨th, hi, t, hf, hg, rfl⟩ := freezer_event htr he
      obtain ⟨th₁, k, ch, hi₁, -, -, hx, hrun, hi', -⟩ := hok.event hc hs he
      cases hi.symm.trans hi₁
      obtain ⟨m, rfl⟩ := hrun (by simp [Op.onState, Op.records])
      obtain ⟨rfl, -⟩ := exec_freezer hx
      refine hnone _ (List.mem_of_getElem? hi') (between_answer.mpr ⟨t, hf, ?_⟩)
      rw [hg]
      rfl
    have hagree := h.agree hbefore
    rw [hkept]
    rcases step_file hc hs with hsame | ⟨hn, -⟩ | ⟨s', hw, hnew⟩
    · exact hagree s (hsame.symm.trans hf') hst
    · cases hn.symm.trans hf'
    · cases hf'.symm.trans hnew
      cases hl.records hc htr hw with
      | creating hold hcreating hpid hpast =>
        rw [hcreating]
        exact iff_of_false (fun hz => hpast (h.thawed hz)) fun he => by cases he
      | @created s pid hold hcreating =>
        have hthawed := hagree s hold (by rw [hcreating]; intro he; cases he)
        rw [hthawed, hcreating]
        exact iff_of_false (fun he => by cases he) fun he => by cases he
      | @turned t s hold hreq hacted =>
        cases t with
        | start =>
          have hthawed := hagree s hold (by rw [hreq]; intro he; cases he)
          rw [hthawed, hreq]
          exact iff_of_false (fun he => by cases he) fun he => by cases he
        | pause | resume =>
          obtain ⟨th, hth, hb⟩ := hacted (by intro he; cases he)
          exact absurd hb (hbefore th hth)
      | stopped => exact absurd rfl hst
  · obtain ⟨th, hth, hb⟩ := not_forall₂.mp hbefore
    obtain ⟨i, hi⟩ := List.mem_iff_getElem?.mp hth
    obtain ⟨t, s₀, ht, hnew, hz⟩ := h.between_step hl.known hc htr hok hs hi (not_not.mp hb) hnone
    cases hf'.symm.trans hnew
    rw [hz, Turn.set_status]
    exact freeze_paused ht

/-- `pause` and `resume` write the freezer when the status is as they require. -/
theorem Lives.checked (h : Lives id c) (htr : (system.prog th.main).Reaches th.trace th.prog)
    (hi : c.threads[i]? = some th) (hf : freezing id th = some t)
    (hg : freezeStage t id th = .checked) :
    kindOf th = .turn t id ∧ ∃ s, c.world.file id = some s ∧ s.status = t.required := by
  have hpairs := paired htr hf
  have hk := (freezing_some hf).2
  rw [hg] at hpairs
  have hph : phaseOf th = .turn .passed := hpairs
  have hknows := h.known i th hi (by rw [InSection, hk, hph]; exact decide_eq_true ⟨rfl, rfl⟩)
  rw [hk, hph] at hknows
  exact ⟨hk, hknows⟩

theorem Frozen.thawed_step (h : Frozen id c) (hl : Lives id c) (hc : Conforming c)
    (htr : Machine.Traced system c) (hs : system.step c a = some c')
    (hz : c'.world.files (freezer id) = some (.text "1")) : HasPast id c' := by
  refine HasPast.step ?_ hc hs
  by_cases hkept : ∀ e ∈ system.event c a, ∀ x, e.2.1 ≠ .write (freezer id) x
  · rw [freezer_kept hs hkept] at hz
    exact h.thawed hz
  · push Not at hkept
    obtain ⟨⟨i, op, r⟩, he, x, hop⟩ := hkept
    subst hop
    obtain ⟨th, hi, t, hf, hg, rfl⟩ := freezer_event htr he
    obtain ⟨-, s, hfile, hst⟩ := hl.checked (htr i th hi) hi hf hg
    refine (hl.file s hfile).imp fun g hfits => ?_
    unfold Stage.fits at hfits
    split at hfits
    · rw [hst] at *
      cases t <;> contradiction
    · exact (of_decide_eq_true hfits).2
    · exact (of_decide_eq_true hfits).2

/-! ### The run -/

theorem lives_run {w : World} (hw : w.file id = none) (hz : w.files (freezer id) ≠ some (.text "1"))
    (h : Steps system.step (AtomicStep id) (fresh w) c) :
    Conforming c ∧ Machine.Traced system c ∧ Lives id c ∧ Frozen id c := by
  refine h.invariant (I := fun c => Conforming c ∧ Machine.Traced system c ∧ Lives id c ∧ Frozen id c) ?_ ?_
  · intro c a c' hI hok hs
    obtain ⟨hc, htr, hl, hf⟩ := hI
    refine ⟨hc.step hs, htr.step hs, ⟨hok.one c' hs, hl.known.step hc hok hs, hl.file_step hc hs⟩, ?_⟩
    exact ⟨fun i th t hi => hf.acted_step hc htr hok hs hi, hf.thawed_step hl hc htr hs,
      fun hnone s => hf.agree_step hl hc htr hok hs hnone⟩
  · refine ⟨conforming_fresh w, fun i th hi => ?_, ⟨List.Pairwise.nil, fun i th hi => ?_, fun s hs => ?_⟩,
      ⟨fun i th t hi => ?_, fun hz' => absurd hz' hz, fun _ s hs => ?_⟩⟩
    · simp at hi
    · simp at hi
    · cases hw.symm.trans hs
    · simp at hi
    · cases hw.symm.trans hs

/-! ### What is refused -/

theorem quiet_acts {op : Op} (hq : op.quiet = true) (hop : op.actsOn id = true) :
    ∃ x, op = .write (freezer id) x := by
  unfold Op.actsOn at hop
  split at hop
  · rename_i p x
    rcases of_decide_eq_true hop with rfl | rfl
    · cases hq
    · exact ⟨x, rfl⟩
  · cases hq
  · cases hq
  · rename_i p
    obtain rfl := of_decide_eq_true hop
    cases hq
  · rename_i p
    obtain rfl := of_decide_eq_true hop
    cases hq
  · cases hop

/-- An operation acts on the container only in a status in which it is not refused, and `kill`
signals the process whose pid the file has. -/
theorem Lives.acts (h : Lives id c) (hc : Conforming c) (htr : Machine.Traced system c) {op : Op}
    {r : op.Ret} (he : system.event c a = some (i, ⟨op, r⟩)) (hi : c.threads[i]? = some th)
    {allowed : List ContainerState} (hk : (kindOf th).accepts id = some allowed)
    (hforce : kindOf th ≠ .delete id true) (hop : op.actsOn id = true) :
    ∃ s, c.world.file id = some s ∧ s.status ∈ allowed ∧ ∀ p, op = .kill p → s.pid = some p := by
  obtain ⟨th₁, k, ch, w, -, hi₁, -, hp, -, -⟩ := Machine.event_some he
  cases hi.symm.trans hi₁
  have hd : Does (kindOf th) (phaseOf th) op := Kind.may_does ((hc i th hi).may hp)
  have hknown := h.known i th hi
  have hquiet (hq : op.quiet = true) : ∃ t s, kindOf th = .turn t id ∧ c.world.file id = some s ∧
      s.status = t.required ∧ ∀ p, op ≠ .kill p := by
    obtain ⟨x, rfl⟩ := quiet_acts hq hop
    obtain ⟨th₂, hi₂, t, hf, hg, rfl⟩ := freezer_event htr he
    cases hi.symm.trans hi₂
    obtain ⟨hkind, s, hfile, hst⟩ := h.checked (htr i th hi) hi hf hg
    exact ⟨t, s, hkind, hfile, hst, fun p he => by cases he⟩
  unfold InSection at hknown
  generalize kindOf th = kind at hd hknown hquiet hk hforce
  generalize phaseOf th = g at hd hknown
  cases kind with
  | turn t n =>
    obtain ⟨rfl, rfl⟩ : n = id ∧ [t.required] = allowed := by simpa [Kind.accepts] using hk
    have hunder {g : TurnStage} (hg : g.under = true) : inSection n (.turn t n) (.turn g) = true :=
      decide_eq_true ⟨rfl, hg⟩
    cases hd with
    | quiet hq =>
      obtain ⟨t', s, hkind, hfile, hst, hsignal⟩ := hquiet hq
      cases hkind
      exact ⟨s, hfile, List.mem_singleton.mpr hst, fun p he => absurd he (hsignal p)⟩
    | connect =>
      obtain ⟨s, hfile, hst⟩ := hknown (hunder rfl)
      exact ⟨s, hfile, List.mem_singleton.mpr hst, fun p he => by cases he⟩
    | writeTurn =>
      obtain ⟨hfile, hst⟩ := hknown (hunder rfl)
      exact ⟨_, hfile, List.mem_singleton.mpr hst, fun p he => by cases he⟩
    | check | rereadPassed | rereadConnected | settleTurn => cases hop
  | kill n =>
    obtain ⟨rfl, rfl⟩ : n = id ∧ [ContainerState.created, .running] = allowed := by
      simpa [Kind.accepts] using hk
    have htarget {s : State} {pid : Int} (ht : killTarget n s = .ok pid) :
        s.status ∈ [ContainerState.created, .running] := by
      rcases (killTarget_ok ht).1 with he | he
      · rw [he]
        exact List.mem_cons_of_mem _ List.mem_cons_self
      · rw [he]
        exact List.mem_cons_self
    cases hd with
    | quiet hq =>
      obtain ⟨t, s, hkind, -⟩ := hquiet hq
      cases hkind
    | signal =>
      obtain ⟨hfile, ht⟩ := hknown (decide_eq_true ⟨rfl, rfl⟩)
      refine ⟨_, hfile, htarget ht, fun p he => ?_⟩
      cases he
      exact (killTarget_ok ht).2
    | writeKilled =>
      obtain ⟨hfile, pid, ht⟩ := hknown (decide_eq_true ⟨rfl, rfl⟩)
      exact ⟨_, hfile, htarget ht, fun p he => by cases he⟩
    | checkKill | settleKill => cases hop
  | delete n force =>
    obtain ⟨rfl, rfl⟩ : n = id ∧ [ContainerState.stopped] = allowed := by simpa [Kind.accepts] using hk
    have hunder {g : DeleteStage} (hg : g.under = true) : inSection n (.delete n force) (.delete g) = true :=
      decide_eq_true ⟨rfl, hg⟩
    cases hd with
    | quiet hq =>
      obtain ⟨t, s, hkind, -⟩ := hquiet hq
      cases hkind
    | forceCgroup => exact absurd rfl hforce
    | clearCgroup | clearBundle =>
      obtain ⟨s, hfile, hst⟩ := hknown (hunder rfl)
      exact ⟨s, hfile, List.mem_singleton.mpr hst, fun p he => by cases he⟩
    | checkDelete | settleDelete => cases hop
  | create | exec | handler | observer => cases hk

/-- How status, pid, process and freezer of a container go together. -/
structure Sound (id : String) (c : SysConf) : Prop where
  pid : ∀ s, c.world.file id = some s →
    (s.pid.isSome ↔ s.status = .created ∨ s.status = .running ∨ s.status = .paused)
  /-- The pid is the one that the supervisor's `clone3` has returned. -/
  own : ∀ s p, c.world.file id = some s → s.pid = some p →
    ∃ (i : Nat) (th : SysThread), c.threads[i]? = some th ∧ (∃ cp sp, kindOf th = .create id cp sp) ∧
      ∃ ev ∈ th.trace, clones p ev = true
  freezer : (∀ th ∈ c.threads, ¬InSection id th) → ∀ s, c.world.file id = some s → s.status ≠ .stopped →
    (c.world.files (Clonebox.freezer id) = some (.text "1") ↔ s.status = .paused)

theorem past_pid {g : Stage} (h : g.past = true) : ∃ p, g.pid = some p := by
  cases g <;> first | exact ⟨_, rfl⟩ | cases h

theorem Lives.sound (h : Lives id c) (hf : Frozen id c) (hc : Conforming c)
    (htr : Machine.Traced system c) :
    Sound id c where
  pid s hfile := by
    obtain ⟨i, th, hi, cp, sp, st, hk, hg, hfits⟩ := h.file s hfile
    unfold Stage.fits at hfits
    cases hst : s.status with
    | creating | stopped =>
      rw [hst] at hfits
      rw [(of_decide_eq_true hfits).1]
      simp
    | created | running | paused =>
      rw [hst] at hfits
      obtain ⟨hpid, hpast⟩ := of_decide_eq_true hfits
      obtain ⟨p, hp⟩ := past_pid hpast
      rw [hpid, hp]
      simp
  own s p hfile hp := by
    obtain ⟨i, th, hi, cp, sp, st, hk, hg, hfits⟩ := h.file s hfile
    have hpid : st.pid = some p := by
      unfold Stage.fits at hfits
      split at hfits
      · cases hp.symm.trans (of_decide_eq_true hfits).1
      · cases hp.symm.trans (of_decide_eq_true hfits).1
      · exact (of_decide_eq_true hfits).1.symm.trans hp
    have hchild : phaseOf th ≠ .create .child := by
      rw [hg]
      rintro he
      cases he
      cases hpid
    refine ⟨i, th, hi, ⟨cp, sp, hk⟩, (pid_iff (hc i th hi) hk hchild p).mp ?_⟩
    exact ⟨cp, sp, st, hk, hg, decide_eq_true hpid⟩
  freezer hnone s hfile hst := by
    refine hf.agree (fun th hth hb => ?_) s hfile hst
    obtain ⟨i, hi⟩ := List.mem_iff_getElem?.mp hth
    exact hnone th hth (between_stage (htr i th hi) hb)

theorem Lives.status_step (h : Lives id c) (hc : Conforming c) (htr : Machine.Traced system c)
    (hok : AtomicStep id c a) (hs : system.step c a = some c') :
    StatusMove ((c.world.file id).map (·.status)) ((c'.world.file id).map (·.status)) := by
  rcases step_file hc hs with hsame | ⟨hnone, ⟨i, op, r⟩, he, hspoils⟩ | ⟨s', hw, hnew⟩
  · rw [hsame]
    exact .kept _
  · obtain ⟨th, k, ch, hi, hp, hd, hx, hrun, -⟩ := hok.event hc hs he
    rw [hnone]
    cases hf : c.world.file id with
    | none => exact .kept _
    | some s =>
      unfold spoils at hspoils
      split at hspoils
      · rename_i p content e heq
        cases heq
        obtain rfl := of_decide_eq_true hspoils
        obtain ⟨m, rfl⟩ := hrun (by simp [Op.onState, Op.onStateFile])
        obtain ⟨b, hb, -⟩ := World.bundle_of_file hf
        simp [World.exec, World.run, World.writeFile, hb] at hx
      · rename_i p e heq
        cases heq
        obtain rfl := of_decide_eq_true hspoils
        have hacts (hk : (kindOf th).accepts id = some [.stopped]) : s.status ∈ [ContainerState.stopped] := by
          obtain ⟨s', hfile, hst, -⟩ := h.acts hc htr he hi hk (hok.unforced _ he th hi) (decide_eq_true rfl)
          cases hf.symm.trans hfile
          exact hst
        generalize kindOf th = kind at hd hacts
        generalize phaseOf th = g at hd
        cases hd with
        | quiet hq => cases hq
        | clearBundle =>
          have hst := hacts (if_pos rfl)
          rw [Option.map_some, List.mem_singleton.mp hst]
          exact .removed
        | looks hl => cases hl
      · cases hspoils
  · rw [hnew]
    exact (h.records hc htr hw).move

/-- In the runs of a container with one supervisor and no forced removal, in which every operation
is atomic and no call on its files is made to fail, status, pid and freezer go together in every
configuration, the status changes only as it is meant to, and no operation that is refused acts. -/
theorem life_cycle {w : World} (hw : w.file id = none) (hz : w.files (freezer id) ≠ some (.text "1"))
    (h : Steps system.step (AtomicStep id) (fresh w) c) :
    Sound id c ∧ ∀ a c', AtomicStep id c a → system.step c a = some c' →
      StatusMove ((c.world.file id).map (·.status)) ((c'.world.file id).map (·.status)) ∧
      ∀ e ∈ system.event c a, ∀ th ∈ c.threads[e.1]?, ∀ allowed ∈ (kindOf th).accepts id,
        e.2.1.actsOn id = true → ∃ s, c.world.file id = some s ∧ s.status ∈ allowed ∧
          ∀ p, e.2.1 = .kill p → s.pid = some p := by
  obtain ⟨hc, htr, hl, hf⟩ := lives_run hw hz h
  refine ⟨hl.sound hf hc htr, fun a c' hok hs => ⟨hl.status_step hc htr hok hs, ?_⟩⟩
  intro e he th hi allowed hallowed hacts
  obtain ⟨i, op, r⟩ := e
  exact hl.acts hc htr he hi hallowed (hok.unforced _ he th hi) hacts

/-- A container is started and paused, and a `kill` is refused. -/
def pausedLife (id : String) : List SysAction :=
  supervise id ++ begin id 5 ++ goes 2 0 ++ [.invoke (.turn .pause id)] ++ goes 4 3 ++
    [.invoke (.kill id), go 4]

theorem life_cycle_sample : ∃ c : SysConf, Steps system.step (AtomicStep "c") (fresh sampleHost) c ∧
    Sound "c" c ∧ (c.world.file "c").map (·.status) = some .paused ∧
    c.world.files (freezer "c") = some (.text "1") := by
  have h : ∃ c ∈ runActions system.step (AtomicStep "c") (fresh sampleHost) (pausedLife "c"),
      (c.world.file "c").map (·.status) = some .paused ∧ c.world.files (freezer "c") = some (.text "1") := by
    decide +kernel
  obtain ⟨c, hrun, hstatus, hfreezer⟩ := h
  have hrun := Steps.of_runActions hrun
  exact ⟨c, hrun, (life_cycle rfl (by decide) hrun).1, hstatus, hfreezer⟩

end Clonebox
