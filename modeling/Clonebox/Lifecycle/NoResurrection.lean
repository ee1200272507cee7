import Clonebox.Lifecycle.Supervisor

/-! # A stopped container stays stopped

`start`, `pause` and `resume` check the status on one read of `state.json` and write it after
another, with nothing in between that keeps the supervisor or `kill` from writing `stopped`. As long
as `stopped` is only written while no such operation is under way, it is the last status of the
container. -/

namespace Clonebox
open Conc

variable {id : String} {c c' : SysConf} {a : SysAction}

/-! ### Operations under way -/

/-- Past the status check, and not yet at the write or a failure. -/
def TurnStage.under : TurnStage → Bool
  | .passed | .connected | .reread _ => true
  | _ => false

/-- Past the status check. -/
def TurnStage.begun : TurnStage → Bool
  | .idle | .refused => false
  | _ => true

def KillStage.begun : KillStage → Bool
  | .idle | .refused => false
  | _ => true

/-- A `start`, `pause` or `resume` between its check and its write. -/
def UnderWay (id : String) (th : SysThread) : Prop :=
  Running th ∧ ∃ t g, kindOf th = .turn t id ∧ phaseOf th = .turn g ∧ g.under = true

def underWay (id : String) : Kind → Phase → Bool
  | .turn _ i, .turn g => i = id ∧ g.under
  | _, _ => false

instance {th : SysThread} : Decidable (UnderWay id th) :=
  decidable_of_iff (Running th ∧ underWay id (kindOf th) (phaseOf th) = true) <| by
    refine and_congr .rfl ⟨fun h => ?_, ?_⟩
    · unfold underWay at h
      split at h
      · obtain ⟨rfl, hg⟩ := of_decide_eq_true h
        exact ⟨_, _, ‹_›, ‹_›, hg⟩
      · contradiction
    · rintro ⟨t, g, hk, hg, hu⟩
      simp [underWay, hk, hg, hu]

/-- A `start`, `pause`, `resume` or `kill` that is past its check. -/
def Begun (id : String) (k : Kind) (g : Phase) : Prop :=
  (∃ t st, k = .turn t id ∧ g = .turn st ∧ st.begun = true) ∨
    ∃ st, k = .kill id ∧ g = .kill st ∧ st.begun = true

/-- No operation is under way when `stopped` is written. -/
def StopsUndisturbed (id : String) (c : SysConf) (a : SysAction) : Prop :=
  ∀ e ∈ system.event c a, ∀ s ∈ wrote id e.2, s.status = .stopped →
    ∀ th ∈ c.threads, ¬UnderWay id th

instance : Decidable (StopsUndisturbed id c a) :=
  inferInstanceAs (Decidable (∀ e ∈ system.event c a, ∀ s ∈ wrote id e.2, s.status = .stopped →
    ∀ th ∈ c.threads, ¬UnderWay id th))

/-- A step of a container with one supervisor that writes `stopped` undisturbed. -/
structure CalmStep (id : String) (c : SysConf) (a : SysAction) : Prop where
  one : SingleStep id c a
  calm : StopsUndisturbed id c a

instance : Decidable (CalmStep id c a) :=
  decidable_of_iff (SingleStep id c a ∧ StopsUndisturbed id c a)
    ⟨fun h => ⟨h.1, h.2⟩, fun h => ⟨h.1, h.2⟩⟩

/-- `killTarget` finds a process only for a container that was created. -/
theorem killTarget_ok {s : State} {pid : Int} (h : killTarget id s = .ok pid) :
    (s.status = .running ∨ s.status = .created) ∧ s.pid = some pid := by
  unfold killTarget at h
  split at h <;> cases h
  · exact ⟨.inl ‹_›, ‹_›⟩
  · exact ⟨.inr ‹_›, ‹_›⟩

/-- An operation passes its check only on a file that says more than `creating`. -/
theorem Begun.entry {w w' : World} {t : Nat} {ch : Choice} {k : Kind} {g : Phase} {op : Op}
    {r : op.Ret} (hd : Does k g op) (hx : w.exec t op ch = some (r, w'))
    (h : Begun id k (k.next g op r)) : Begun id k g ∨
      w' = w ∧ ∃ s, w.file id = some s ∧ s.status ≠ .creating ∧ s.status ≠ .stopped := by
  rcases h with ⟨t, st, rfl, hg, hst⟩ | ⟨st, rfl, hg, hst⟩
  · cases hd with
    | quiet hq => exact .inl (.inl ⟨t, st, rfl, (Kind.next_quiet hq r).symm.trans hg, hst⟩)
    | check =>
      obtain ⟨rfl, hread⟩ := World.exec_read hx
      refine .inr ⟨rfl, ?_⟩
      simp only [Kind.next, Op.quiet, TurnStage.advance, Bool.false_eq_true, if_false,
        Phase.turn.injEq] at hg
      cases hp : parsed r with
      | none => simp [hp] at hg; simp [← hg, TurnStage.begun] at hst
      | some s =>
        by_cases hr : s.status = t.required
        · refine ⟨s, hread s hp, ?_⟩
          rw [hr]
          cases t <;> simp [Turn.required]
        · simp [hp, hr] at hg; simp [← hg, TurnStage.begun] at hst
    | connect | rereadPassed | rereadConnected | writeTurn | settleTurn =>
      exact .inl (.inl ⟨_, _, rfl, rfl, rfl⟩)
  · cases hd with
    | quiet hq => exact .inl (.inr ⟨st, rfl, (Kind.next_quiet hq r).symm.trans hg, hst⟩)
    | checkKill =>
      obtain ⟨rfl, hread⟩ := World.exec_read hx
      refine .inr ⟨rfl, ?_⟩
      simp only [Kind.next, Op.quiet, KillStage.advance, Bool.false_eq_true, if_false,
        Phase.kill.injEq] at hg
      cases hp : parsed r with
      | none => simp [hp] at hg; simp [← hg, KillStage.begun] at hst
      | some s =>
        cases hk : killTarget id s with
        | error e => simp [hp, hk] at hg; simp [← hg, KillStage.begun] at hst
        | ok pid =>
          refine ⟨s, hread s hp, ?_⟩
          rcases (killTarget_ok hk).1 with e | e <;> simp [e]
    | signal | writeKilled | settleKill => exact .inl (.inr ⟨_, rfl, rfl, rfl⟩)

theorem not_begun_init (m : Main) : ¬Begun id m.kind m.kind.init := by
  rintro (⟨t, st, hk, hg, hst⟩ | ⟨st, hk, hg, hst⟩)
  · rw [hk] at hg
    cases hg
    contradiction
  · rw [hk] at hg
    cases hg
    contradiction

theorem not_begun_child (k : Kind) (g : Phase) (hg : g.copied = true) : ¬Begun id k g := by
  intro h
  rcases h with ⟨_, _, -, rfl, -⟩ | ⟨_, -, rfl, -⟩
  · contradiction
  · contradiction

/-- A `start`, `pause` or `resume` is under way from the step in which it finds the status it
requires. -/
theorem under_entry {i : Nat} {t : Turn} {g : TurnStage} {th' : SysThread} (hc : Conforming c)
    (hs : system.step c a = some c') (hi : c'.threads[i]? = some th') (hrun : Running th')
    (hk : kindOf th' = .turn t id) (hg : phaseOf th' = .turn g) (hu : g.under = true) :
    (∃ th g, c.threads[i]? = some th ∧ Running th ∧ kindOf th = .turn t id ∧ phaseOf th = .turn g ∧
      g.under = true) ∨
      c'.world = c.world ∧ ∃ s, c.world.file id = some s ∧ s.status = t.required := by
  cases step_change hc hs hi with
  | @kept th hi₀ hm hp hprog hst hph hr =>
    exact .inl ⟨th, g, hi₀, hr hrun, by simpa [kindOf, hm] using hk, hph ▸ hg, hu⟩
  | @answered th op k r ch ha hi₀ hst hop hx hd he hph =>
    have hkind : kindOf th = .turn t id := by rw [← hk, he]; rfl
    have hwas {g : TurnStage} (hg : phaseOf th = .turn g) (hu : g.under = true) :
        ∃ th g, c.threads[i]? = some th ∧ Running th ∧ kindOf th = .turn t id ∧ phaseOf th = .turn g ∧
          g.under = true := ⟨th, g, hi₀, ⟨hst, op, k, hop⟩, hkind, hg, hu⟩
    rw [hph, hkind] at hg
    rw [hkind] at hd
    generalize hg₀ : phaseOf th = g₀ at hd hg
    cases hd with
    | quiet hq => exact .inl (hwas (hg₀.trans ((Kind.next_quiet hq r).symm.trans hg)) hu)
    | check =>
      obtain ⟨hworld, hread⟩ := World.exec_read hx
      refine .inr ⟨hworld, ?_⟩
      simp only [Kind.next, Op.quiet, TurnStage.advance, Bool.false_eq_true, if_false,
        Phase.turn.injEq] at hg
      cases hp : parsed r with
      | none => simp [hp] at hg; simp [← hg, TurnStage.under] at hu
      | some s =>
        by_cases hr : s.status = t.required
        · exact ⟨s, hread s hp, hr⟩
        · simp [hp, hr] at hg; simp [← hg, TurnStage.under] at hu
    | connect | rereadPassed | rereadConnected | writeTurn => exact .inl (hwas hg₀ rfl)
    | settleTurn => cases hg; contradiction
  | @started p m h he hph =>
    have hkind : m.kind = .turn t id := by rw [← hk, he]; rfl
    rw [hph, hkind] at hg
    cases hg
    contradiction
  | forked ht h hg' hm hph => rw [hph] at hg; cases hg
  | copied ht h hm hg' hph => rw [hph] at hg; cases hg

/-- An operation is under way from the step in which it passes its check. -/
theorem UnderWay.entry {i : Nat} {th' : SysThread} (hc : Conforming c)
    (hs : system.step c a = some c') (hi : c'.threads[i]? = some th') (h : UnderWay id th') :
    (∃ th, c.threads[i]? = some th ∧ UnderWay id th) ∨
      c'.world = c.world ∧
        ∃ s, c.world.file id = some s ∧ s.status ≠ .creating ∧ s.status ≠ .stopped := by
  obtain ⟨hrun, t, g, hk, hg, hu⟩ := h
  rcases under_entry hc hs hi hrun hk hg hu with
    ⟨th, g, hi₀, hrun, hk, hg, hu⟩ | ⟨hworld, s, hf, hrequired⟩
  · exact .inl ⟨th, hi₀, hrun, t, g, hk, hg, hu⟩
  · refine .inr ⟨hworld, s, hf, ?_⟩
    rw [hrequired]
    cases t <;> simp [Turn.required]

/-! ### The invariant -/

/-- A file that says more than `creating`, and an operation that has found it so, come after a
supervisor at `created`. -/
structure Spoken (id : String) (c : SysConf) : Prop where
  file : ∀ s, c.world.file id = some s → s.status ≠ .creating → HasPast id c
  begun : ∀ (i : Nat) th, c.threads[i]? = some th → Begun id (kindOf th) (phaseOf th) → HasPast id c

/-- What holds in every configuration of a calm run. -/
structure Settled (id : String) (c : SysConf) : Prop where
  one : OneSupervisor id c
  /-- A file that says more than `creating` was written by a supervisor at `created`. -/
  file : ∀ s, c.world.file id = some s → s.status ≠ .creating → HasPast id c
  begun : ∀ (i : Nat) th, c.threads[i]? = some th → Begun id (kindOf th) (phaseOf th) → HasPast id c
  calm : ∀ s, c.world.file id = some s → s.status = .stopped →
    ∀ (i : Nat) th, c.threads[i]? = some th → ¬UnderWay id th

theorem spoken_fresh {w : World} (hw : w.file id = none) : Spoken id (fresh w) where
  file := by intro s hs; simp [hw] at hs
  begun := by intro i th hi; simp at hi

theorem settled_fresh {w : World} (hw : w.file id = none) : Settled id (fresh w) where
  one := List.Pairwise.nil
  file := (spoken_fresh hw).file
  begun := (spoken_fresh hw).begun
  calm := by intro s hs; simp [hw] at hs

theorem Settled.spoken (h : Settled id c) : Spoken id c := ⟨h.file, h.begun⟩

theorem Spoken.begun_step (h : Spoken id c) (hc : Conforming c)
    (hs : system.step c a = some c') (i : Nat) (th' : SysThread)
    (hi : c'.threads[i]? = some th') (hb : Begun id (kindOf th') (phaseOf th')) :
    HasPast id c' := by
  refine HasPast.step ?_ hc hs
  rcases step_enters not_begun_init not_begun_child hc hs hi hb with
    ⟨th, hi₀, hb⟩ | ⟨th, op, r, ch, hi₀, -, hx, hd, hb⟩
  · exact h.begun i th hi₀ hb
  · rcases Begun.entry hd hx hb with hb | ⟨-, s, hf, hne, -⟩
    · exact h.begun i th hi₀ hb
    · exact h.file s hf hne

theorem Spoken.file_step (h : Spoken id c) (hc : Conforming c)
    (hs : system.step c a = some c') (s : State) (hf : c'.world.file id = some s)
    (hne : s.status ≠ .creating) : HasPast id c' := by
  rcases step_file hc hs with e | ⟨e, -⟩ | ⟨s', hw, e⟩
  · exact (h.file s (e ▸ hf) hne).step hc hs
  · rw [e] at hf; cases hf
  · cases hf.symm.trans e
    obtain ⟨i, th, th', hi, -, hby, hi', hk', hph⟩ := hw.writer hc hs
    generalize hk : kindOf th = k at hby hph
    generalize hg : phaseOf th = g at hby hph
    cases hby with
    | creating h => exact (hne h).elim
    | created => exact ⟨i, th', hi', _, _, _, hk'.trans hk, hph, rfl⟩
    | stopped =>
      exact HasPast.step ⟨i, th, hi, _, _, _, hk, hg, rfl⟩ hc hs
    | turned => exact (h.begun i th hi (.inl ⟨_, _, hk, hg, rfl⟩)).step hc hs
    | killed => exact (h.begun i th hi (.inr ⟨_, hk, hg, rfl⟩)).step hc hs

theorem Spoken.step (h : Spoken id c) (hc : Conforming c) (hs : system.step c a = some c') :
    Spoken id c' := ⟨h.file_step hc hs, h.begun_step hc hs⟩

theorem Settled.calm_step (h : Settled id c) (hc : Conforming c) (hok : CalmStep id c a)
    (hs : system.step c a = some c') (s : State) (hf : c'.world.file id = some s)
    (hst : s.status = .stopped) (i : Nat) (th : SysThread) (hi : c'.threads[i]? = some th) :
    ¬UnderWay id th := by
  intro hu
  rcases hu.entry hc hs hi with ⟨th₀, hi₀, hu₀⟩ | ⟨hworld, s₀, hf₀, -, hns⟩
  · rcases step_file hc hs with e | ⟨e, -⟩ | ⟨s', hw, e⟩
    · exact h.calm s (e ▸ hf) hst i th₀ hi₀ hu₀
    · rw [e] at hf; cases hf
    · cases hf.symm.trans e
      obtain ⟨e, he, hw⟩ := hw
      exact hok.calm e he s hw hst th₀ (List.mem_of_getElem? hi₀) hu₀
  · rw [hworld, hf₀] at hf
    cases hf
    exact hns hst

theorem Settled.step (h : Settled id c) (hc : Conforming c) (hok : CalmStep id c a)
    (hs : system.step c a = some c') : Settled id c' where
  one := hok.one c' hs
  file := (h.spoken.step hc hs).file
  begun := (h.spoken.step hc hs).begun
  calm := h.calm_step hc hok hs

/-- From the write of `stopped` on. -/
structure Over (id : String) (c : SysConf) : Prop where
  settled : Settled id c
  past : HasPast id c
  file : ∀ s, c.world.file id = some s → s.status = .stopped
  idle : ∀ (i : Nat) th, c.threads[i]? = some th → ¬UnderWay id th

theorem Settled.toOver (h : Settled id c) {s : State} (hf : c.world.file id = some s)
    (hst : s.status = .stopped) : Over id c where
  settled := h
  past := h.file s hf (by simp [hst])
  file := by
    intro s' hf'
    cases hf.symm.trans hf'
    exact hst
  idle := h.calm s hf hst

/-- When the supervisor has written `created`, only the operations and its end are written. -/
theorem writer_past (hc : Conforming c) (hone : OneSupervisor id c) (hpast : HasPast id c)
    (hs : system.step c a = some c') {s : State} (hw : Writes id s c a) :
    s.status = .stopped ∨ ∃ (i : Nat) (th : SysThread) (t : Turn) (found : State),
      c.threads[i]? = some th ∧ Running th ∧ kindOf th = .turn t id ∧
        phaseOf th = .turn (.reread found) ∧ s = t.set found := by
  obtain ⟨i, th, th', hi, hrun, hby, -⟩ := hw.writer hc hs
  obtain ⟨j, th₁, hj, hp⟩ := hpast
  -- the supervisor is the one that has written `created`
  have hsup (hsup : Supervises id (kindOf th) (phaseOf th)) :
      PastCreated id (kindOf th) (phaseOf th) := by
    obtain rfl := hone.eq hi hj hsup (PastCreated.supervises hp)
    cases hi.symm.trans hj
    exact hp
  generalize hk : kindOf th = k at hby hsup
  generalize hg : phaseOf th = g at hby hsup
  cases hby with
  | creating =>
    obtain ⟨_, _, _, -, e, hpast⟩ := hsup ⟨_, _, _, rfl, rfl, rfl⟩
    cases e
    contradiction
  | created =>
    obtain ⟨_, _, _, -, e, hpast⟩ := hsup ⟨_, _, _, rfl, rfl, rfl⟩
    cases e
    contradiction
  | stopped | killed => exact .inl rfl
  | @turned t s => exact .inr ⟨i, th, t, s, hi, hrun, hk, hg, rfl⟩

/-- Every status written from then on is `stopped`. -/
theorem Over.writes (h : Over id c) (hc : Conforming c) (hs : system.step c a = some c')
    {s : State} (hw : Writes id s c a) : s.status = .stopped := by
  rcases writer_past hc h.settled.one h.past hs hw with hst | ⟨i, th, t, found, hi, hrun, hk, hg, -⟩
  · exact hst
  · exact (h.idle i th hi ⟨hrun, t, _, hk, hg, rfl⟩).elim

theorem Over.step (h : Over id c) (hc : Conforming c) (hok : CalmStep id c a)
    (hs : system.step c a = some c') : Over id c' := by
  have hfile : ∀ s, c'.world.file id = some s → s.status = .stopped := by
    intro s hf
    rcases step_file hc hs with e | ⟨e, -⟩ | ⟨s', hw, e⟩
    · exact h.file s (e ▸ hf)
    · rw [e] at hf; cases hf
    · cases hf.symm.trans e
      exact h.writes hc hs hw
  refine ⟨h.settled.step hc hok hs, h.past.step hc hs, hfile, fun i th hi hu => ?_⟩
  rcases hu.entry hc hs hi with ⟨th₀, hi₀, hu₀⟩ | ⟨-, s₀, hf₀, -, hns⟩
  · exact h.idle i th₀ hi₀ hu₀
  · exact hns (h.file s₀ hf₀)

/-- Once `stopped` has been written, it stays in `state.json` until the file is removed, and nothing
else is written there, provided it is written while no operation is under way. -/
theorem no_resurrection {id : String} {w : World} {c₁ c₂ : SysConf} (hw : w.file id = none)
    (hrun : Steps system.step (CalmStep id) (fresh w) c₁)
    (hstop : ∃ s, c₁.world.file id = some s ∧ s.status = .stopped)
    (hlater : Steps system.step (CalmStep id) c₁ c₂) :
    (∀ s, c₂.world.file id = some s → s.status = .stopped) ∧
      ∀ a s c₃, system.step c₂ a = some c₃ → Writes id s c₂ a → s.status = .stopped := by
  have hfirst := run_invariant hrun (conforming_fresh w) (settled_fresh hw)
    fun c a c' hc h hok hs => h.step hc hok hs
  obtain ⟨s, hs, hst⟩ := hstop
  have hover : Over id c₁ := hfirst.2.toOver hs hst
  have hlast := run_invariant hlater hfirst.1 hover fun c a c' hc h hok hs => h.step hc hok hs
  exact ⟨hlast.2.file, fun a s c₃ hs hw => hlast.2.writes hlast.1 hs hw⟩

/-- A container that runs, is started and ends, and is killed in vain. -/
theorem no_resurrection_sample : ∃ c₁ c₂ : SysConf,
    (∃ s, c₁.world.file "c" = some s ∧ s.status = .stopped) ∧
    Steps system.step (CalmStep "c") c₁ c₂ ∧
    ∀ s, c₂.world.file "c" = some s → s.status = .stopped := by
  have h : ∃ c₁ ∈ runActions system.step (CalmStep "c") (fresh sampleHost)
      (supervise "c" ++ begin "c" 3 ++ goes 2 2 ++ finish),
      (c₁.world.file "c").map (·.status) = some .stopped ∧
      ∃ c₂ ∈ runActions system.step (CalmStep "c") c₁ ([.invoke (.kill "c")] ++ goes 1 3 ++ goes 2 0),
        True := by
    decide +kernel
  obtain ⟨c₁, h₁, hst, c₂, h₂, -⟩ := h
  have hstop : ∃ s, c₁.world.file "c" = some s ∧ s.status = .stopped := Option.map_eq_some_iff.mp hst
  exact ⟨c₁, c₂, hstop, .of_runActions h₂,
    (no_resurrection rfl (.of_runActions h₁) hstop (.of_runActions h₂)).1⟩

/-- `start` has connected when the init ends; it writes `running` over the supervisor's
`stopped`. -/
theorem start_resurrects : ∃ c₁ c₂ : SysConf,
    Steps system.step (SingleStep "c") (fresh sampleHost) c₁ ∧
    (∃ s, c₁.world.file "c" = some s ∧ s.status = .stopped) ∧
    Steps system.step (SingleStep "c") c₁ c₂ ∧
    ∃ s, c₂.world.file "c" = some s ∧ s.status = .running := by
  have h : ∃ c₁ ∈ runActions system.step (SingleStep "c") (fresh sampleHost)
      (supervise "c" ++ begin "c" 3 ++ finish),
      (c₁.world.file "c").map (·.status) = some .stopped ∧
      ∃ c₂ ∈ runActions system.step (SingleStep "c") c₁ (goes 2 2),
        (c₂.world.file "c").map (·.status) = some .running := by
    decide +kernel
  obtain ⟨c₁, h₁, hst, c₂, h₂, hrun⟩ := h
  exact ⟨c₁, c₂, .of_runActions h₁, Option.map_eq_some_iff.mp hst, .of_runActions h₂,
    Option.map_eq_some_iff.mp hrun⟩

end Clonebox
