import Clonebox.Lifecycle.NoResurrection
import Clonebox.Lifecycle.Leftovers

/-! # What a deletion leaves

`delete` without force looks at the status only, and `kill` writes `stopped` while the process is
still there. That no live process is left behind follows from the removal of the cgroup, which fails
as long as a process is in it, and from the supervisor, which has cloned its child by then. -/

namespace Clonebox
open Conc

variable {id : String} {c c' : SysConf} {a : SysAction}

/-! ### Processes -/

/-- The process of the table, before it may have ended. -/
structure Was (p p' : Proc) : Prop where
  pid : p.pid = p'.pid
  parent : p.parent = p'.parent
  cgroup : p.cgroup = p'.cgroup
  alive : p'.status = none → p.status = none

theorem Was.refl (p : Proc) : Was p p := ⟨rfl, rfl, rfl, id⟩

theorem World.env_was {w w' : World} {e : Env} (h : w.env e = some w') {p' : Proc}
    (hp : p' ∈ w'.procs) : ∃ p ∈ w.procs, Was p p' := by
  cases e with
  | exit pid status =>
    cases h
    obtain ⟨p, hmem, rfl⟩ := List.mem_map.mp hp
    refine ⟨p, hmem, ?_⟩
    split
    · exact ⟨rfl, rfl, rfl, nofun⟩
    · exact .refl p
  | reap pid =>
    cases h
    exact ⟨p', (List.mem_filter.mp hp).1, .refl p'⟩
  | deliver =>
    simp only [env] at h
    split at h <;> cases h
    exact ⟨p', hp, .refl p'⟩
  | daemonStop =>
    cases h
    exact ⟨p', hp, .refl p'⟩
  | daemonStart =>
    simp only [env] at h
    split at h <;> cases h
    exact ⟨p', hp, .refl p'⟩

theorem World.crash_was {w : World} {t : Nat} {p' : Proc} (hp : p' ∈ (w.crash t).procs) :
    ∃ p ∈ w.procs, Was p p' := by
  obtain ⟨f, hf, hid⟩ := World.crash_procs (w := w) (t := t)
  rw [hf] at hp
  obtain ⟨p, hmem, rfl⟩ := List.mem_map.mp hp
  obtain ⟨hpid, hpar, hcg, hst, -⟩ := hid p
  exact ⟨p, hmem, hpid.symm, hpar.symm, hcg.symm, fun he => hst.symm.trans he⟩

/-- A process was there, or has just been cloned. -/
theorem proc_origin (hs : system.step c a = some c') {p' : Proc} (hp : p' ∈ c'.world.procs) :
    (∃ p ∈ c.world.procs, Was p p') ∨ ∃ i args pid,
      system.event c a = some (i, ⟨.clone3 args, .ok pid⟩) ∧ p' = ⟨pid, i, args.cgroup, none, false⟩ := by
  rcases step_world hs with ⟨i, op, r, ch, he, hx⟩ | e | ⟨e, -, he⟩ | ⟨t, -, e⟩
  · rcases World.exec_process hx with e | ⟨args, pid, hev, -, e⟩ | ⟨p, -, st, -, -, e⟩
    · rw [e] at hp
      exact .inl ⟨p', hp, .refl p'⟩
    · rw [e] at hp
      rcases List.mem_cons.mp hp with rfl | hp
      · exact .inr ⟨i, args, pid, hev ▸ he, rfl⟩
      · exact .inl ⟨p', hp, .refl p'⟩
    · rw [e] at hp
      exact .inl ⟨p', (List.mem_filter.mp hp).1, .refl p'⟩
  · rw [e] at hp
    exact .inl ⟨p', hp, .refl p'⟩
  · exact .inl (World.env_was he hp)
  · rw [e] at hp
    exact .inl (World.crash_was hp)

/-- A process is cloned by a supervisor, into the cgroup of its container. -/
theorem Does.clones {k : Kind} {g : Phase} {args : CloneArgs} (h : Does k g (.clone3 args)) :
    ∃ id configPath sp, k = .create id configPath sp ∧ g = .create .grouped ∧
      args.cgroup = some (.cgroup id) := by
  cases h with
  | quiet hq => contradiction
  | clone => exact ⟨_, _, _, rfl, rfl, rfl⟩
  | looks hl => contradiction

/-- Each process is in the cgroup of the container its parent runs `create` for. -/
def Placed (c : SysConf) : Prop :=
  ∀ p ∈ c.world.procs, ∃ (th : SysThread) (id configPath : String) (sp : Option String),
    c.threads[p.parent]? = some th ∧ kindOf th = .create id configPath sp ∧
      p.cgroup = some (.cgroup id)

theorem Placed.step (h : Placed c) (hc : Conforming c) (hs : system.step c a = some c') :
    Placed c' := by
  intro p' hp
  rcases proc_origin hs hp with ⟨p, hmem, hwas⟩ | ⟨i, args, pid, he, rfl⟩
  · obtain ⟨th, id, cp, sp, hi, hk, hcg⟩ := h p hmem
    obtain ⟨th', hi', hm, -⟩ := step_kept hs hi
    rw [hwas.parent] at hi'
    refine ⟨th', id, cp, sp, hi', ?_, hwas.cgroup ▸ hcg⟩
    rw [kindOf, hm]
    exact hk
  · obtain ⟨th, k, ch, hi, -, hd, -, hi', -⟩ := event_thread hc he hs
    obtain ⟨id, cp, sp, hk, -, hcg⟩ := hd.clones
    exact ⟨_, id, cp, sp, hi', hk, hcg⟩

/-! ### The cgroup after its removal -/

/-- No live process is in the cgroup, and its directory is gone. -/
structure Vacated (id : String) (w : World) : Prop where
  empty : ∀ p ∈ w.procs, p.cgroup = some (.cgroup id) → p.status ≠ none
  gone : w.cgroup id = false

theorem World.exec_removeCgroup {w w' : World} {t : Nat} {ch : Choice}
    (h : w.exec t (.removeDir (.cgroup id)) ch = some (.ok (), w')) : Vacated id w' := by
  cases ch with
  | err e => simp [exec, Op.failure] at h
  | part e => simp [exec, runPart] at h
  | run n =>
    simp only [exec, run, removeDir] at h
    split at h
    · simp at h
    · split at h
      · simp at h
      · rename_i hpop
        cases h
        refine ⟨fun p hp hcg hst => hpop ?_, by simp⟩
        simp only [populated, List.any_eq_true, decide_eq_true_eq]
        exact ⟨p, hp, hcg, hst⟩

theorem World.exec_removeDir_gone {w w' : World} {t : Nat} {ch : Choice} {r : Io Unit}
    (h : w.exec t (.removeDir (.cgroup id)) ch = some (r, w')) (hgone : w.cgroup id = false) :
    w'.cgroup id = false := by
  cases ch with
  | err e =>
    obtain ⟨-, rfl⟩ : Except.error e = r ∧ w = w' := by simpa [exec, Op.failure] using h
    exact hgone
  | part e => simp [exec, runPart] at h
  | run n =>
    simp only [exec, run, removeDir, hgone, if_true] at h
    cases h
    exact hgone

theorem World.exec_removeDir_error {w w' : World} {t : Nat} {ch : Choice} {e : Errno}
    (h : w.exec t (.removeDir (.cgroup id)) ch = some (.error e, w')) : w'.cgroup id = w.cgroup id := by
  cases ch with
  | err e' =>
    obtain ⟨-, rfl⟩ : e' = e ∧ w = w' := by simpa [exec, Op.failure] using h
    rfl
  | part e' => simp [exec, runPart] at h
  | run n =>
    simp only [exec, run, removeDir] at h
    split at h
    · cases h
      rfl
    · split at h
      · cases h
        rfl
      · simp at h

/-- Once the supervisor has written `created`, nobody joins the cgroup or makes it again. -/
theorem Vacated.step (h : Vacated id c.world) (hone : OneSupervisor id c) (hpast : HasPast id c)
    (hc : Conforming c) (hs : system.step c a = some c') : Vacated id c'.world := by
  obtain ⟨j, sup, hj, hsup⟩ := hpast
  -- the one supervisor is past both of these calls
  have hnot {i : Nat} {th : SysThread} {cp : String} {sp : Option String} {st : Stage}
      (hi : c.threads[i]? = some th) (hk : kindOf th = .create id cp sp)
      (hg : phaseOf th = .create st) (hadm : st.admitted = true) : st.past = true := by
    obtain rfl := hone.eq hi hj ⟨cp, sp, st, hk, hg, hadm⟩ (PastCreated.supervises hsup)
    cases hi.symm.trans hj
    obtain ⟨_, _, st', -, hg', hst⟩ := hsup
    cases hg.symm.trans hg'
    exact hst
  constructor
  · intro p' hp hcg hst
    rcases proc_origin hs hp with ⟨p, hmem, hwas⟩ | ⟨i, args, pid, he, rfl⟩
    · exact h.empty p hmem (hwas.cgroup.trans hcg) (hwas.alive hst)
    · obtain ⟨th, k, ch, hi, -, hd, -⟩ := event_thread hc he hs
      obtain ⟨id', cp, sp, hk, hg, hargs⟩ := hd.clones
      cases hargs.symm.trans hcg
      have hgrouped := hnot hi hk hg rfl
      contradiction
  · cases hcg : c'.world.cgroup id with
    | false => rfl
    | true =>
      rcases step_world hs with ⟨i, op, r, ch, he, hx⟩ | e | ⟨e, -, he⟩ | ⟨t, -, e⟩
      · by_cases hm : op.cgroupOf = some id
        · cases hclear : clears id ⟨op, r⟩ with
          | true =>
            -- a removal does not make it
            unfold Op.cgroupOf at hm
            split at hm <;> cases hm
            · contradiction
            · rw [World.exec_removeDir_gone hx h.gone] at hcg
              contradiction
          | false =>
            obtain ⟨th, k, ch', hi, -, hd, -⟩ := event_thread hc he hs
            obtain ⟨-, cp, sp, hk, hg⟩ := hd.makesCgroup hm hclear
            have hinitial := hnot hi hk hg rfl
            contradiction
        · rw [World.exec_cgroup hx hm, h.gone] at hcg
          contradiction
      · rw [e, h.gone] at hcg
        contradiction
      · rw [World.env_cgroup he, h.gone] at hcg
        contradiction
      · rw [e, World.crash, h.gone] at hcg
        contradiction

/-! ### Deletions -/

/-- Past the check of the status. -/
def DeleteStage.begun : DeleteStage → Bool
  | .checked | .clearing | .cleared | .settled => true
  | _ => false

/-- The cgroup is removed. -/
def DeleteStage.vacated : DeleteStage → Bool
  | .clearing | .cleared | .settled => true
  | _ => false

/-- A deletion without force that has come to one of the stages. -/
def Deletes (id : String) (S : DeleteStage → Bool) (k : Kind) (g : Phase) : Prop :=
  k = .delete id false ∧ ∃ st, g = .delete st ∧ S st = true

theorem Deletes.not_init {S : DeleteStage → Bool} (hS : S .idle = false) (m : Main) :
    ¬Deletes id S m.kind m.kind.init := by
  intro h
  obtain ⟨hk, st, hg, hst⟩ := h
  rw [hk] at hg
  cases hg
  rw [hS] at hst
  contradiction

theorem Deletes.not_copied {S : DeleteStage → Bool} (k : Kind) (g : Phase) (hg : g.copied = true) :
    ¬Deletes id S k g := by
  intro h
  obtain ⟨-, st, rfl, -⟩ := h
  contradiction

/-- What the check of the status decides. -/
theorem delete_check (r : Io Content) :
    (Kind.delete id false).next (.delete .idle) (.read (stateJson id)) r = .delete .refused ∨
      (Kind.delete id false).next (.delete .idle) (.read (stateJson id)) r = .delete .checked ∧
        ∃ s, parsed r = some s ∧ s.status = .stopped := by
  simp only [Kind.next, Op.quiet, DeleteStage.advance, Bool.false_eq_true, if_false]
  cases hp : parsed r with
  | none => exact .inl rfl
  | some s =>
    by_cases hs : s.status = .stopped
    · exact .inr ⟨by simp [hs], s, rfl, hs⟩
    · exact .inl (by simp [hs])

/-- A deletion passes its check only on a file that says `stopped`. -/
theorem Deletes.check {w w' : World} {t : Nat} {ch : Choice} {k : Kind} {g : Phase} {op : Op}
    {r : op.Ret} (hd : Does k g op) (hx : w.exec t op ch = some (r, w'))
    (h : Deletes id DeleteStage.begun k (k.next g op r)) : Deletes id DeleteStage.begun k g ∨
      ∃ s, w.file id = some s ∧ s.status = .stopped := by
  obtain ⟨rfl, st, hg, hst⟩ := h
  cases hd with
  | quiet hq => exact .inl ⟨rfl, st, (Kind.next_quiet hq r).symm.trans hg, hst⟩
  | checkDelete =>
    obtain ⟨-, hread⟩ := World.exec_read hx
    rcases delete_check r with e | ⟨-, s, hp, hs⟩
    · cases e.symm.trans hg
      contradiction
    · exact .inr ⟨s, hread s hp, hs⟩
  | clearCgroup | clearBundle | settleDelete => exact .inl ⟨rfl, _, rfl, rfl⟩

/-- A deletion comes past the cgroup only by removing it. -/
theorem Deletes.clear {w w' : World} {t : Nat} {ch : Choice} {k : Kind} {g : Phase} {op : Op}
    {r : op.Ret} (hd : Does k g op) (hx : w.exec t op ch = some (r, w'))
    (h : Deletes id DeleteStage.vacated k (k.next g op r)) : Deletes id DeleteStage.vacated k g ∨
      Vacated id w' := by
  obtain ⟨rfl, st, hg, hst⟩ := h
  cases hd with
  | quiet hq => exact .inl ⟨rfl, st, (Kind.next_quiet hq r).symm.trans hg, hst⟩
  | checkDelete =>
    rcases delete_check r with e | ⟨e, -⟩
    · cases e.symm.trans hg
      contradiction
    · cases e.symm.trans hg
      contradiction
  | clearCgroup =>
    cases r with
    | ok _ => exact .inr (World.exec_removeCgroup hx)
    | error e =>
      cases hg
      contradiction
  | clearBundle | settleDelete => exact .inl ⟨rfl, _, rfl, rfl⟩

/-- What holds in every configuration of a run with one supervisor. -/
structure Cleared (id : String) (c : SysConf) : Prop where
  one : OneSupervisor id c
  spoken : Spoken id c
  placed : Placed c
  begun : ∀ (i : Nat) th, c.threads[i]? = some th →
    Deletes id DeleteStage.begun (kindOf th) (phaseOf th) → HasPast id c
  vacated : ∀ (i : Nat) th, c.threads[i]? = some th →
    Deletes id DeleteStage.vacated (kindOf th) (phaseOf th) → Vacated id c.world

theorem cleared_fresh {w : World} (hf : w.file id = none) (hp : w.procs = []) :
    Cleared id (fresh w) where
  one := List.Pairwise.nil
  spoken := spoken_fresh hf
  placed := by
    intro p hmem
    rw [hp] at hmem
    contradiction
  begun := by intro i th hi; simp at hi
  vacated := by intro i th hi; simp at hi

theorem Cleared.begun_step (h : Cleared id c) (hc : Conforming c) (hs : system.step c a = some c')
    (i : Nat) (th' : SysThread) (hi : c'.threads[i]? = some th')
    (hb : Deletes id DeleteStage.begun (kindOf th') (phaseOf th')) : HasPast id c' := by
  refine HasPast.step ?_ hc hs
  rcases step_enters (Deletes.not_init rfl) Deletes.not_copied hc hs hi hb with
    ⟨th, hi₀, hb⟩ | ⟨th, op, r, ch, hi₀, -, hx, hd, hb⟩
  · exact h.begun i th hi₀ hb
  · rcases Deletes.check hd hx hb with hb | ⟨s, hf, hst⟩
    · exact h.begun i th hi₀ hb
    · exact h.spoken.file s hf (by simp [hst])

theorem Deletes.mono {S T : DeleteStage → Bool} {k : Kind} {g : Phase} (h : Deletes id S k g)
    (hS : ∀ st, S st = true → T st = true) : Deletes id T k g := by
  obtain ⟨hk, st, hg, hst⟩ := h
  exact ⟨hk, st, hg, hS st hst⟩

theorem Cleared.vacated_step (h : Cleared id c) (hc : Conforming c)
    (hs : system.step c a = some c') (i : Nat) (th' : SysThread) (hi : c'.threads[i]? = some th')
    (hv : Deletes id DeleteStage.vacated (kindOf th') (phaseOf th')) : Vacated id c'.world := by
  have hold {th : SysThread} (hi₀ : c.threads[i]? = some th)
      (hv : Deletes id DeleteStage.vacated (kindOf th) (phaseOf th)) : Vacated id c'.world := by
    refine (h.vacated i th hi₀ hv).step h.one (h.begun i th hi₀ (hv.mono fun st hst => ?_)) hc hs
    cases st <;> first | rfl | contradiction
  rcases step_enters (Deletes.not_init rfl) Deletes.not_copied hc hs hi hv with
    ⟨th, hi₀, hv⟩ | ⟨th, op, r, ch, hi₀, -, hx, hd, hv⟩
  · exact hold hi₀ hv
  · rcases Deletes.clear hd hx hv with hv | hv
    · exact hold hi₀ hv
    · exact hv

theorem Cleared.step (h : Cleared id c) (hc : Conforming c) (hok : SingleStep id c a)
    (hs : system.step c a = some c') : Cleared id c' where
  one := hok c' hs
  spoken := h.spoken.step hc hs
  placed := h.placed.step hc hs
  begun := h.begun_step hc hs
  vacated := h.vacated_step hc hs

/-! ### The order of the two removals -/

/-- Every removal of the bundle comes after a removal of the cgroup that has succeeded. -/
def CgroupFirst (id : String) (tr : List Sys.Ev) : Prop :=
  ∀ tr₁ ev tr₂, tr = tr₁ ++ ev :: tr₂ → removes id ev = true →
    ⟨.removeDir (.cgroup id), .ok ()⟩ ∈ tr₁

theorem CgroupFirst.snoc {tr : List Sys.Ev} {ev : Sys.Ev} (h : CgroupFirst id tr)
    (hev : removes id ev = true → ⟨.removeDir (.cgroup id), .ok ()⟩ ∈ tr) :
    CgroupFirst id (tr ++ [ev]) := by
  intro tr₁ ev' tr₂ he hrem
  rcases List.eq_nil_or_concat tr₂ with rfl | ⟨tr₃, last, rfl⟩
  · obtain ⟨rfl, hone⟩ := List.append_inj' he rfl
    cases hone
    exact hev hrem
  · rw [List.concat_eq_append, ← List.cons_append, ← List.append_assoc] at he
    obtain ⟨rfl, -⟩ := List.append_inj' he rfl
    exact h tr₁ ev' tr₃ rfl hrem

/-- What the trace of a deletion holds at each stage. -/
structure RemovesBoth (id : String) (g : Phase) (tr : List Sys.Ev) : Prop where
  first : CgroupFirst id tr
  cgroup : ∀ st, g = .delete st → st.vacated = true → ⟨.removeDir (.cgroup id), .ok ()⟩ ∈ tr
  bundle : g = .delete .cleared ∨ g = .delete .settled → ⟨.removeDirAll (.bundle id), .ok ()⟩ ∈ tr

theorem removes_quiet {op : Op} {r : op.Ret} (h : op.quiet = true) :
    removes id ⟨op, r⟩ = false := by
  cases op with
  | removeDirAll p =>
    refine decide_eq_false fun e => ?_
    rw [e] at h
    contradiction
  | _ => rfl

theorem removesBoth_next {g : Phase} {tr : List Sys.Ev} {op : Op} {r : op.Ret}
    (hd : Does (.delete id false) g op) (h : RemovesBoth id g tr) :
    RemovesBoth id ((Kind.delete id false).next g op r) (tr ++ [⟨op, r⟩]) := by
  have hsame (hno : removes id ⟨op, r⟩ = false) (hnext : (Kind.delete id false).next g op r = g) :
      RemovesBoth id ((Kind.delete id false).next g op r) (tr ++ [⟨op, r⟩]) := by
    rw [hnext]
    refine ⟨h.first.snoc fun e => ?_, fun st hg hst => List.mem_append_left _ (h.cgroup st hg hst),
      fun hg => List.mem_append_left _ (h.bundle hg)⟩
    exact (Bool.false_ne_true (hno.symm.trans e)).elim
  have hfirst (hno : removes id ⟨op, r⟩ = false) : CgroupFirst id (tr ++ [⟨op, r⟩]) :=
    h.first.snoc fun e => (Bool.false_ne_true (hno.symm.trans e)).elim
  cases hd with
  | quiet hq => exact hsame (removes_quiet hq) (Kind.next_quiet hq r)
  | checkDelete =>
    rcases delete_check r with e | ⟨e, -⟩
    all_goals
      rw [e]
      refine ⟨hfirst rfl, fun st hg hst => ?_, fun hg => ?_⟩
      · cases hg
        contradiction
      · rcases hg with hg | hg <;> cases hg
  | clearCgroup =>
    refine ⟨hfirst rfl, fun st hg hst => ?_, fun hg => ?_⟩
    · cases r with
      | ok _ => exact List.mem_append_right _ List.mem_cons_self
      | error e =>
        cases hg
        contradiction
    · cases r <;> rcases hg with hg | hg <;> cases hg
  | clearBundle =>
    have hdir := h.cgroup _ rfl rfl
    refine ⟨h.first.snoc fun _ => hdir, fun st hg hst => List.mem_append_left _ hdir, fun hg => ?_⟩
    cases r with
    | ok _ => exact List.mem_append_right _ List.mem_cons_self
    | error e => rcases hg with hg | hg <;> cases hg
  | settleDelete =>
    refine ⟨hfirst rfl, fun st hg hst => ?_, fun hg => ?_⟩
    · exact List.mem_append_left _ (h.cgroup _ rfl rfl)
    · exact List.mem_append_left _ (h.bundle (.inl rfl))

/-- A deletion without force that has returned has removed the bundle. -/
theorem deleted_stage {th : SysThread} {r : Reply} (h : contract.Conforms th)
    (hk : kindOf th = .delete id false) (hret : th.prog = .ret r) :
    phaseOf th = .delete .cleared ∨ phaseOf th = .delete .settled := by
  have hrest : th.prog.Obeys th.main.proto (kindOf th).post (phaseOf th) :=
    h.rest.mono fun _ _ hpost => hpost.1
  rw [hret, hk] at hrest
  have hhas := phase_has h
  rw [hk] at hhas
  cases hg : phaseOf th with
  | delete g =>
    rw [hg] at hrest
    have hpost : g = .cleared ∨ g = .settled := hrest.mpr ⟨r, rfl⟩
    rcases hpost with rfl | rfl
    · exact .inl rfl
    · exact .inr rfl
  | create | turn | kill | exec | handler | observer => simp [hg, Kind.has] at hhas

/-- When a deletion without force has returned, no live process is in the cgroup: the child that the
supervisor has cloned is dead. The bundle was removed after the cgroup. -/
theorem delete_abandons_none {id : String} {w : World} {c : SysConf} (hf : w.file id = none)
    (hp : w.procs = []) (hrun : Steps system.step (SingleStep id) (fresh w) c) {i : Nat}
    {th : SysThread} (hi : c.threads[i]? = some th) (hk : kindOf th = .delete id false)
    (hret : ∃ a, th.prog = .ret a) :
    Vacated id c.world ∧
    (∀ p ∈ c.world.procs, ∀ sup : SysThread, c.threads[p.parent]? = some sup →
      (∃ configPath sp, kindOf sup = .create id configPath sp) → p.status ≠ none) ∧
    ⟨.removeDirAll (.bundle id), .ok ()⟩ ∈ th.trace ∧ CgroupFirst id th.trace := by
  obtain ⟨hc, hclr⟩ := run_invariant hrun (conforming_fresh w) (cleared_fresh hf hp)
    fun c a c' hc h hok hs => h.step hc hok hs
  have hconf := hc i th hi
  obtain ⟨a, ha⟩ := hret
  have hend := deleted_stage hconf hk ha
  have hboth : RemovesBoth id (phaseOf th) th.trace := by
    have hstart : RemovesBoth id th.main.kind.init [] := by
      change th.main.kind = _ at hk
      rw [hk]
      refine ⟨fun tr₁ ev tr₂ he => ?_, fun st hg hst => ?_, fun hg => ?_⟩
      · simp at he
      · cases hg
        contradiction
      · rcases hg with hg | hg <;> cases hg
    refine hconf.past.history hstart fun g tr ev hmay hJ => ?_
    have hd : Does (kindOf th) g ev.1 := Kind.may_does hmay
    show RemovesBoth id ((kindOf th).next g ev.1 ev.2) (tr ++ [ev])
    rw [hk] at hd ⊢
    exact removesBoth_next hd hJ
  have hvac : Vacated id c.world := by
    refine hclr.vacated i th hi ⟨hk, ?_⟩
    rcases hend with hg | hg
    · exact ⟨_, hg, rfl⟩
    · exact ⟨_, hg, rfl⟩
  refine ⟨hvac, fun p hmem sup hsup hcreate => ?_, hboth.bundle hend, hboth.first⟩
  obtain ⟨cp, sp, hks⟩ := hcreate
  obtain ⟨th', id', cp', sp', hj, hk', hcg⟩ := hclr.placed p hmem
  cases hsup.symm.trans hj
  cases hks.symm.trans hk'
  exact hvac.empty p hmem hcg

/-- `kill` has written `stopped` while the init lives: the deletion fails at the cgroup, and a
second one goes through when the init has ended. -/
theorem delete_abandons_none_sample : ∃ (c₁ c₂ : SysConf) (th₁ th₂ : SysThread),
    Steps system.step (SingleStep "c") (fresh sampleHost) c₁ ∧
    (∃ p ∈ c₁.world.procs, p.pid = 7 ∧ p.status = none) ∧
    c₁.threads[3]? = some th₁ ∧ (fault th₁).isSome = true ∧ (c₁.world.bundle "c").isSome = true ∧
    Steps system.step (SingleStep "c") (fresh sampleHost) c₂ ∧ c₂.threads[4]? = some th₂ ∧
    Vacated "c" c₂.world ∧ CgroupFirst "c" th₂.trace := by
  have h : ∃ c₁ ∈ runActions system.step (SingleStep "c") (fresh sampleHost)
      (supervise "c" ++ [.invoke (.kill "c")] ++ goes 3 2 ++ [.invoke (.delete "c" false)] ++ goes 2 3),
      (∃ p ∈ c₁.world.procs, p.pid = 7 ∧ p.status = none) ∧
      (∃ th ∈ c₁.threads[3]?, (fault th).isSome = true) ∧ (c₁.world.bundle "c").isSome = true ∧
      ∃ c₂ ∈ runActions system.step (SingleStep "c") c₁ ([.env (.exit 7 (.signaled 9 false)),
        .invoke (.delete "c" false)] ++ goes 3 4),
        ∃ th ∈ c₂.threads[4]?, kindOf th = .delete "c" false ∧ (reply th).isSome = true := by
    decide +kernel
  obtain ⟨c₁, h₁, hp, ⟨th₁, hi₁, hfail⟩, hb, c₂, h₂, th₂, hi₂, hk, hret⟩ := h
  obtain ⟨a, ha⟩ := Option.isSome_iff_exists.mp hret
  have hrun : Steps system.step (SingleStep "c") (fresh sampleHost) c₂ :=
    (Steps.of_runActions h₁).trans (.of_runActions h₂)
  obtain ⟨hvac, -, -, hfirst⟩ := delete_abandons_none rfl rfl hrun hi₂ hk ⟨a, reply_some ha⟩
  exact ⟨c₁, c₂, th₁, th₂, .of_runActions h₁, hp, hi₁, hfail, hb, hrun, hi₂, hvac, hfirst⟩

end Clonebox
