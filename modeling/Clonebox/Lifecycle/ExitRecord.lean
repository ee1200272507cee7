import Clonebox.Lifecycle.NoResurrection

/-! # The exit of a container is recorded

When its init has ended, a supervisor sends the event `stopped` and then writes `stopped` into
`state.json`. A daemon that cannot be reached makes it return between the two. -/

namespace Clonebox
open Conc

variable {id : String} {c c' : SysConf} {a : SysAction}

/-! ### Conditions on a step -/

/-- A call on the state file that does not fail, where reads count if `own` holds, and no removal of
the bundle. -/
def fileWorks (id : String) (own : Bool) : Sys.Ev → Bool
  | ⟨.write p _, r⟩ => p ≠ stateJson id ∨ r.isOk
  | ⟨.read p, r⟩ => own = false ∨ p ≠ stateJson id ∨ (parsed r).isSome
  | ⟨.removeDirAll p, _⟩ => p ≠ .bundle id
  | _ => true

/-- Writes of the state file and the reads of the supervisor succeed, and the bundle is not
removed. -/
def FileWorks (id : String) (c : SysConf) (a : SysAction) : Prop :=
  ∀ e ∈ system.event c a, ∀ th ∈ c.threads[e.1]?,
    fileWorks id (decide (Supervises id (kindOf th) (phaseOf th))) e.2 = true

instance : Decidable (FileWorks id c a) :=
  inferInstanceAs (Decidable (∀ e ∈ system.event c a, ∀ th ∈ c.threads[e.1]?,
    fileWorks id (decide (Supervises id (kindOf th) (phaseOf th))) e.2 = true))

/-- A supervisor whose child has ended, and that has not told anybody yet. -/
def reporting (id : String) : Kind → Phase → Bool
  | .create i _ _, .create (.waited _ _) => i = id
  | _, _ => false

/-- The daemon takes the call. -/
def sends : Sys.Ev → Bool
  | ⟨.connectEvent _, r⟩ => r.isOk
  | ⟨.writeEvent _ _, r⟩ => r.isOk
  | _ => true

/-- The daemon can be reached when the event `stopped` is sent. -/
def StoppedSent (id : String) (c : SysConf) (a : SysAction) : Prop :=
  ∀ e ∈ system.event c a, ∀ th ∈ c.threads[e.1]?,
    reporting id (kindOf th) (phaseOf th) = true → sends e.2 = true

instance : Decidable (StoppedSent id c a) :=
  inferInstanceAs (Decidable (∀ e ∈ system.event c a, ∀ th ∈ c.threads[e.1]?,
    reporting id (kindOf th) (phaseOf th) = true → sends e.2 = true))

/-- A calm step of a container whose file can be read and written and is not removed. -/
structure FileStep (id : String) (c : SysConf) (a : SysAction) : Prop extends CalmStep id c a where
  works : FileWorks id c a

instance : Decidable (FileStep id c a) :=
  decidable_of_iff (CalmStep id c a ∧ FileWorks id c a)
    ⟨fun h => ⟨h.1, h.2⟩, fun h => ⟨h.toCalmStep, h.works⟩⟩

structure RecordStep (id : String) (c : SysConf) (a : SysAction) : Prop
    extends FileStep id c a where
  sent : StoppedSent id c a

instance : Decidable (RecordStep id c a) :=
  decidable_of_iff (FileStep id c a ∧ StoppedSent id c a)
    ⟨fun h => ⟨h.1, h.2⟩, fun h => ⟨h.toFileStep, h.sent⟩⟩

/-! ### The invariant -/

def Stage.isStopped : Stage → Bool
  | .stopped _ => true
  | _ => false

def Stage.isLost : Stage → Bool
  | .lost _ => true
  | _ => false

/-- A supervisor that has written `stopped`. -/
abbrev Finished (id : String) : Kind → Phase → Prop := AtStage id Stage.isStopped

/-- A supervisor that has not. -/
abbrev GaveUp (id : String) : Kind → Phase → Prop := AtStage id Stage.isLost

theorem Finished.entry {k : Kind} {g : Phase} {op : Op} {r : op.Ret} (hd : Does k g op)
    (h : Finished id k (k.next g op r)) :
    Finished id k g ∨ ∃ s, s.status = .stopped ∧ wrote id ⟨op, r⟩ = some s := by
  rcases AtStage.entry hd h with h | ⟨_, _, st, st', rfl, rfl, -, hm, hst⟩
  · exact .inl h
  · cases hm with
    | @stopped _ s => exact .inr ⟨s.setStopped, rfl, by simp [wrote]⟩
    | _ => contradiction

/-- What makes a supervisor give up: an event that is not sent, or a failure of its own calls on the
state file. -/
theorem GaveUp.entry {k : Kind} {g : Phase} {op : Op} {r : op.Ret} (hd : Does k g op)
    (h : GaveUp id k (k.next g op r)) :
    GaveUp id k g ∨ (reporting id k g = true ∧ sends ⟨op, r⟩ = false) ∨
      fileWorks id (decide (Supervises id k g)) ⟨op, r⟩ = false := by
  rcases AtStage.entry hd h with h | ⟨configPath, sp, st, st', rfl, rfl, -, hm, hst⟩
  · exact .inl h
  · cases hm with
    | unreachable => exact .inr (.inl ⟨by simp [reporting], rfl⟩)
    | unreported => exact .inr (.inl ⟨by simp [reporting], rfl⟩)
    | @unreadWaited pid status r hp =>
      have hown : Supervises id (.create id configPath sp) (.create (.waited pid status)) :=
        ⟨_, _, _, rfl, rfl, rfl⟩
      exact .inr (.inr (by simp [fileWorks, hown, hp]))
    | @unreadReported pid r hp =>
      have hown : Supervises id (.create id configPath sp) (.create (.reported pid)) :=
        ⟨_, _, _, rfl, rfl, rfl⟩
      exact .inr (.inr (by simp [fileWorks, hown, hp]))
    | unwritten => exact .inr (.inr (by simp [fileWorks, Except.isOk, Except.toBool]))
    | _ => contradiction

/-- What holds in every configuration of a run of `RecordStep`s. -/
structure Recorded (id : String) (c : SysConf) : Prop where
  settled : Settled id c
  noPid : ∀ s, c.world.file id = some s → s.status = .stopped → s.pid = none
  kept : ∀ (i : Nat) th, c.threads[i]? = some th → ¬GaveUp id (kindOf th) (phaseOf th)
  done : ∀ (i : Nat) th, c.threads[i]? = some th → Finished id (kindOf th) (phaseOf th) →
    Over id c ∧ ∃ s, c.world.file id = some s

theorem recorded_fresh {w : World} (hw : w.file id = none) : Recorded id (fresh w) where
  settled := settled_fresh hw
  noPid := by intro s hs; simp [hw] at hs
  kept := by intro i th hi; simp at hi
  done := by intro i th hi; simp at hi

/-- Every write of `stopped` clears the pid. -/
theorem Writes.noPid (hc : Conforming c) (hs : system.step c a = some c') {s : State}
    (hw : Writes id s c a) (hst : s.status = .stopped) : s.pid = none := by
  obtain ⟨i, th, th', -, -, hby, -⟩ := hw.writer hc hs
  generalize kindOf th = k at hby
  generalize phaseOf th = g at hby
  cases hby with
  | creating h => simp [h] at hst
  | created => simp at hst
  | stopped => rfl
  | @turned t => cases t <;> simp [Turn.target] at hst
  | killed => rfl

/-- Where the file works, a step leaves it or writes to it. -/
theorem FileWorks.step (h : FileWorks id c a) (hc : Conforming c)
    (hs : system.step c a = some c') :
    c'.world.file id = c.world.file id ∨ ∃ s, Writes id s c a ∧ c'.world.file id = some s := by
  have hfile : c'.world.file id = c.world.file id ∨ _ := step_file hc hs
  rcases hfile with e | ⟨-, ⟨t, ev⟩, he, hspoil⟩ | hw
  · exact .inl e
  · obtain ⟨op, r⟩ := ev
    obtain ⟨th, k, ch, w, rfl, hi, -⟩ := Machine.event_some he
    have hworks := h _ he th hi
    unfold spoils at hspoil
    split at hspoil
    · rename_i heq
      cases heq
      simp_all [fileWorks, Except.isOk, Except.toBool]
    · rename_i heq
      cases heq
      simp_all [fileWorks]
    · contradiction
  · exact .inr hw

theorem Recorded.noPid_step (h : Recorded id c) (hc : Conforming c)
    (hs : system.step c a = some c') (s : State) (hf : c'.world.file id = some s)
    (hst : s.status = .stopped) : s.pid = none := by
  rcases step_file hc hs with e | ⟨e, -⟩ | ⟨s', hw, e⟩
  · exact h.noPid s (e ▸ hf) hst
  · rw [e] at hf
    contradiction
  · obtain rfl : s = s' := Option.some.inj (hf.symm.trans e)
    exact hw.noPid hc hs hst

theorem Recorded.kept_step (h : Recorded id c) (hc : Conforming c) (hok : RecordStep id c a)
    (hs : system.step c a = some c') (i : Nat) (th' : SysThread)
    (hi : c'.threads[i]? = some th') : ¬GaveUp id (kindOf th') (phaseOf th') := by
  intro hg
  rcases step_enters (AtStage.not_init rfl) (AtStage.not_child rfl) hc hs hi hg with
    ⟨th, hi₀, hg⟩ | ⟨th, op, r, ch, hi₀, hev, -, hd, hg⟩
  · exact h.kept i th hi₀ hg
  · rcases GaveUp.entry hd hg with hg | ⟨hrep, hsend⟩ | hfile
    · exact h.kept i th hi₀ hg
    · simp [hok.sent _ hev th hi₀ hrep] at hsend
    · simp [hok.works _ hev th hi₀] at hfile

theorem Recorded.done_step (h : Recorded id c) (hc : Conforming c) (hok : RecordStep id c a)
    (hs : system.step c a = some c') (i : Nat) (th' : SysThread)
    (hi : c'.threads[i]? = some th') (hf : Finished id (kindOf th') (phaseOf th')) :
    Over id c' ∧ ∃ s, c'.world.file id = some s := by
  have hstay : (∃ th, c.threads[i]? = some th ∧ Finished id (kindOf th) (phaseOf th)) →
      Over id c' ∧ ∃ s, c'.world.file id = some s := by
    intro hex
    obtain ⟨th, hi₀, hfin⟩ := hex
    obtain ⟨hover, s, hs'⟩ := h.done i th hi₀ hfin
    refine ⟨hover.step hc hok.toCalmStep hs, ?_⟩
    rcases hok.works.step hc hs with e | ⟨s₁, -, e⟩
    · exact ⟨s, e.trans hs'⟩
    · exact ⟨s₁, e⟩
  rcases step_enters (AtStage.not_init rfl) (AtStage.not_child rfl) hc hs hi hf with
    hex | ⟨th, op, r, ch, hi₀, -, hx, hd, hf⟩
  · exact hstay hex
  · rcases Finished.entry hd hf with hf | ⟨s, hstop, hw⟩
    · exact hstay ⟨th, hi₀, hf⟩
    · -- the supervisor writes `stopped` in this step
      cases wrote_some hw
      have hfile : c'.world.file id = some s := by
        rcases World.exec_write hx with ⟨-, hf⟩ | ⟨e, he, -⟩
        · exact hf
        · cases he
      exact ⟨(h.settled.step hc hok.toCalmStep hs).toOver hfile hstop, s, hfile⟩

theorem Recorded.step (h : Recorded id c) (hc : Conforming c) (hok : RecordStep id c a)
    (hs : system.step c a = some c') : Recorded id c' where
  settled := h.settled.step hc hok.toCalmStep hs
  noPid := h.noPid_step hc hs
  kept := h.kept_step hc hok hs
  done := h.done_step hc hok hs

/-- A supervisor to which `waitpid` has returned, and that has come to its end, has left `stopped`
and no pid in `state.json`, provided the daemon takes its last event and no operation is under way
when `stopped` is written. -/
theorem exit_recorded {id : String} {w : World} {c : SysConf} (hw : w.file id = none)
    (hrun : Steps system.step (RecordStep id) (fresh w) c) {i : Nat} {th : SysThread}
    (hi : c.threads[i]? = some th) {configPath : String} {sp : Option String}
    (hk : kindOf th = .create id configPath sp)
    (hwait : ∃ ev ∈ th.trace, reaps ev = true) (hend : Ended th) :
    ∃ s, c.world.file id = some s ∧ s.status = .stopped ∧ s.pid = none := by
  obtain ⟨hc, hrec⟩ := run_invariant hrun (conforming_fresh w) (recorded_fresh hw)
    fun c a c' hc h hok hs => h.step hc hok hs
  obtain ⟨_, _, g, hk', hg, hreaped⟩ := reaped_of_trace (hc i th hi) hk hwait
  have hfin : Finished id (kindOf th) (phaseOf th) := by
    rcases hend.stage (hc i th hi) hk' hg with ⟨pid, rfl⟩ | hfail
    · exact ⟨_, _, _, hk', hg, rfl⟩
    · cases g with
      | lost pid => exact (hrec.kept i th hi ⟨_, _, _, hk', hg, rfl⟩).elim
      | stopped pid => exact ⟨_, _, _, hk', hg, rfl⟩
      | _ => contradiction
  obtain ⟨hover, s, hs⟩ := hrec.done i th hi hfin
  exact ⟨s, hs, hover.file s hs, hrec.noPid s hs (hover.file s hs)⟩

/-- A shim whose child fails to mount, with the daemon up. -/
theorem exit_recorded_sample : ∃ c : SysConf,
    Steps system.step (RecordStep "c") (fresh daemonHost) c ∧ (∃ th ∈ c.threads[0]?, Ended th) ∧
    ∃ s, c.world.file "c" = some s ∧ s.status = .stopped ∧ s.pid = none := by
  have h : ∃ c ∈ runActions system.step (RecordStep "c") (fresh daemonHost)
      (superviseShim "c" ++ begin "c" 3 ++ goes 2 2 ++ childFails ++ goes 7 0),
      ∃ th ∈ c.threads[0]?, kindOf th = .create "c" "cfg" (some getEventSocketPath) ∧
        (∃ ev ∈ th.trace, reaps ev = true) ∧ Ended th := by
    decide +kernel
  obtain ⟨c, hrun, th, hi, hk, hwait, hend⟩ := h
  exact ⟨c, .of_runActions hrun, ⟨th, hi, hend⟩,
    exit_recorded rfl (.of_runActions hrun) hi hk hwait hend⟩

/-- The daemon goes down before the child ends: the supervisor fails to connect, returns, and
`state.json` keeps `running` and the pid. -/
theorem exit_lost : ∃ c : SysConf,
    Steps system.step (FileStep "c") (fresh daemonHost) c ∧
    (∃ th ∈ c.threads[0]?, kindOf th = .create "c" "cfg" (some getEventSocketPath) ∧
      (∃ ev ∈ th.trace, reaps ev = true) ∧ Ended th) ∧
    ∃ s, c.world.file "c" = some s ∧ s.status = .running ∧ s.pid = some 7 := by
  have h : ∃ c ∈ runActions system.step (FileStep "c") (fresh daemonHost)
      (superviseShim "c" ++ begin "c" 3 ++ goes 2 2 ++ [.env .daemonStop] ++ childFails ++ goes 5 0),
      (∃ th ∈ c.threads[0]?, kindOf th = .create "c" "cfg" (some getEventSocketPath) ∧
        (∃ ev ∈ th.trace, reaps ev = true) ∧ Ended th) ∧
      ∃ s ∈ c.world.file "c", s.status = .running ∧ s.pid = some 7 := by
    decide +kernel
  obtain ⟨c, hrun, hth, s, hs, hst⟩ := h
  exact ⟨c, .of_runActions hrun, hth, s, hs, hst⟩

end Clonebox
