import Clonebox.Lifecycle.Supervisor
import Clonebox.System.OwnWrites

/-! # The name in a state file

A state file is written again and again by programs that know the container by its id alone. What
they write is what they have read, under another status, so the file keeps the name it was given. -/

namespace Clonebox
open Conc

variable {id : String} {c c' : SysConf} {a : SysAction}

/-- A state that the program has read and will write to the file of the container bears its name. -/
def HoldsOwn (id : String) : Kind → Phase → Prop
  | .create i _ _, .create (.reread _ s) | .create i _ _, .create (.ending _ s) => i = id → s.Names id
  | .turn _ i, .turn (.reread s) => i = id → s.Names id
  | .kill i, .kill (.aimed s _) | .kill i, .kill (.signalled s) => i = id → s.Names id
  | _, _ => True

/-- The file of the container, and what is going to be written to it, bears its name. -/
structure Named (id : String) (c : SysConf) : Prop where
  file : ∀ s, c.world.file id = some s → s.Names id
  held : ∀ (i : Nat) th, c.threads[i]? = some th → HoldsOwn id (kindOf th) (phaseOf th)

theorem holdsOwn_init (m : Main) : HoldsOwn id m.kind m.kind.init := by
  cases m with
  | rpc req =>
    cases req
    all_goals trivial
  | _ => trivial

/-- What is read is named, so what is held stays named. -/
theorem holdsOwn_next {k : Kind} {g : Phase} {op : Op} {r : op.Ret} (hd : Does k g op)
    (h : HoldsOwn id k g) (hread : ∀ x s, (⟨op, r⟩ : Sys.Ev) = ⟨.read (stateJson id), x⟩ →
      parsed x = some s → s.Names id) : HoldsOwn id k (k.next g op r) := by
  cases k with
  | create i cp sp =>
    cases g with
    | create g =>
      rcases Stage.moves hd r with e | ⟨g', e, hm⟩
      · rw [e]
        exact h
      · rw [e]
        cases hm with
        | rereadCloned hp | rereadAnnounced hp | endingWaited hp | endingReported hp =>
          rintro rfl
          exact hread _ _ rfl hp
        | _ => trivial
    | turn | kill | delete | exec | handler | observer => exact h
  | turn t i =>
    cases hd with
    | quiet hq =>
      rw [Kind.next_quiet hq]
      exact h
    | check =>
      cases hp : parsed r with
      | none => simp [Kind.next, Op.quiet, TurnStage.advance, hp, HoldsOwn]
      | some s =>
        by_cases hs : s.status = t.required <;>
          simp [Kind.next, Op.quiet, TurnStage.advance, hp, hs, HoldsOwn]
    | connect => cases r <;> trivial
    | rereadPassed | rereadConnected =>
      cases hp : parsed r with
      | none => simp [Kind.next, Op.quiet, TurnStage.advance, hp, HoldsOwn]
      | some s =>
        simp only [Kind.next, Op.quiet, TurnStage.advance, hp, Option.elim_some]
        rintro rfl
        exact hread _ _ rfl hp
    | writeTurn => cases r <;> trivial
    | settleTurn => trivial
  | kill i =>
    cases hd with
    | quiet hq =>
      rw [Kind.next_quiet hq]
      exact h
    | checkKill =>
      cases hp : parsed r with
      | none => simp [Kind.next, Op.quiet, KillStage.advance, hp, HoldsOwn]
      | some s =>
        cases ht : killTarget i s with
        | error e => simp [Kind.next, Op.quiet, KillStage.advance, hp, ht, HoldsOwn]
        | ok pid =>
          simp only [Kind.next, Op.quiet, KillStage.advance, hp, Option.elim_some, ht]
          rintro rfl
          exact hread _ _ rfl hp
    | signal =>
      cases r with
      | ok _ => exact h
      | error e =>
        by_cases he : e.code = Errno.esrch.code
        · simpa [Kind.next, Op.quiet, KillStage.advance, he, HoldsOwn] using h
        · simp [Kind.next, Op.quiet, KillStage.advance, he, HoldsOwn]
    | writeKilled => cases r <;> trivial
    | settleKill => trivial
  | delete | exec | handler | observer =>
    generalize (Kind.next _ g op r) = g'
    cases g' <;> trivial

theorem Named.held_step (h : Named id c) (hc : Conforming c) (hs : system.step c a = some c') :
    ∀ (i : Nat) th', c'.threads[i]? = some th' → HoldsOwn id (kindOf th') (phaseOf th') := by
  intro i th' hi
  cases step_change hc hs hi with
  | @kept th hi₀ hm hp hprog hst hph hr =>
    have hold := h.held i th hi₀
    rwa [kindOf, hm, hph]
  | @answered th op k r ch ha hi₀ hst hop hx hd he hph =>
    have hkind : kindOf th' = kindOf th := by rw [he]; rfl
    rw [hkind, hph]
    refine holdsOwn_next hd (h.held i th hi₀) fun x s hev hp => ?_
    cases hev
    exact h.file s ((World.exec_read hx).2 s hp)
  | @started p m hi₀ he hph =>
    have hkind : kindOf th' = m.kind := by rw [he]; rfl
    rw [hkind, hph]
    exact holdsOwn_init m
  | forked ht hi₀ hg hm hph =>
    rw [hph]
    cases kindOf th' <;> trivial
  | copied ht hi₀ hm hg hph =>
    rw [hph]
    cases kindOf th' <;> trivial

/-- A new status does not change the name. -/
theorem State.Names.update {s : State} (h : s.Names id) (st : ContainerState) (pid : Option Int) :
    State.Names id { s with status := st, pid := pid } := ⟨h.own, h.bundle, h.annotations⟩

theorem Named.file_step (h : Named id c) (hc : Conforming c) (ht : Machine.Traced system c)
    (hs : system.step c a = some c') : ∀ s, c'.world.file id = some s → s.Names id := by
  intro s hfile
  rcases step_file hc hs with hsame | ⟨hnone, -⟩ | ⟨s', hw, hfile'⟩
  · rw [hsame] at hfile
    exact h.file s hfile
  · rw [hnone] at hfile
    cases hfile
  · obtain rfl : s' = s := Option.some.inj (hfile'.symm.trans hfile)
    obtain ⟨i, th, th', hi, hrun, hby, -⟩ := hw.writer hc hs
    have hheld := h.held i th hi
    generalize hk : kindOf th = k at hby hheld
    generalize hg : phaseOf th = g at hby hheld
    cases hby with
    | creating hst hpid =>
      obtain ⟨⟨j, ev⟩, he, hwrote⟩ := hw
      cases wrote_some hwrote
      obtain ⟨th₁, -, -, hj, -⟩ := event_thread hc he hs
      exact (event_owns ht he hj).first id s' rfl hst
    | created => exact (hheld rfl).update .created (some _)
    | stopped => exact (hheld rfl).update .stopped none
    | @turned t s => cases t <;> exact (hheld rfl).update _ s.pid
    | killed => exact (hheld rfl).update .stopped none

theorem named_run {w : World} (hw : ∀ s, w.file id = some s → s.Names id)
    (h : Steps system.step (fun _ _ => True) (fresh w) c) : Named id c := by
  have hfirst : Conforming (fresh w) ∧ Machine.Traced system (fresh w) ∧ Named id (fresh w) := by
    refine ⟨conforming_fresh w, fun i th hi => ?_, hw, fun i th hi => ?_⟩
    · simp at hi
    · simp at hi
  refine (h.invariant (I := fun c => Conforming c ∧ Machine.Traced system c ∧ Named id c) ?_ hfirst).2.2
  intro c a c' hI _ hs
  obtain ⟨hc, ht, hn⟩ := hI
  exact ⟨hc.step hs, ht.step hs, hn.file_step hc ht hs, hn.held_step hc hs⟩

/-- In every configuration of every run in which the containers go by names, what `state.json` of a
container holds bears its name. -/
theorem state_file_named {w : World} (hw : ∀ id s, w.file id = some s → s.Names id)
    (h : Steps system.step ByName (fresh w) c) (id : String) (s : State)
    (hs : c.world.file id = some s) : s.Names id :=
  (named_run (hw id) (h.mono fun _ _ _ => trivial)).file s hs

/-- A container that was created and is not started. -/
theorem state_file_named_sample : ∃ (c : SysConf) (s : State),
    Steps system.step ByName (fresh sampleHost) c ∧ c.world.file "c" = some s ∧
    s.status = .created ∧ s.Names "c" := by
  have h : ∃ c ∈ runActions system.step ByName (fresh sampleHost) (supervise "c"),
      ∃ s ∈ c.world.file "c", s.status = .created := by
    decide +kernel
  obtain ⟨c, hrun, s, hs, hst⟩ := h
  have hrun := Steps.of_runActions hrun
  have hnone : ∀ id s, sampleHost.file id = some s → s.Names id := by
    intro id s hs
    cases hs
  exact ⟨c, s, hrun, hs, hst, state_file_named hnone hrun "c" s hs⟩

end Clonebox
