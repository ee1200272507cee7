import Clonebox.Lifecycle.OneCreation

/-! # What a run of `create` leaves

`create` returns from every failing step with `?` and takes nothing back: the bundle, the cgroup and
the child it has made by then stay. -/

namespace Clonebox
open Conc

variable {id : String} {c c' : SysConf} {a : SysAction}

/-! ### Conditions on a step -/

/-- A removal of the bundle or of the cgroup. -/
def clears (id : String) : Sys.Ev → Bool
  | ⟨.removeDir p, _⟩ => p = .cgroup id
  | ⟨.removeDirAll p, _⟩ => p = .bundle id
  | _ => false

/-- A step of a container with one supervisor that nobody deletes. -/
structure Alone (id : String) (c : SysConf) (a : SysAction) : Prop where
  one : SingleStep id c a
  kept : ∀ e ∈ system.event c a, clears id e.2 = false

instance : Decidable (Alone id c a) :=
  decidable_of_iff (SingleStep id c a ∧ ∀ e ∈ system.event c a, clears id e.2 = false)
    ⟨fun h => ⟨h.1, h.2⟩, fun h => ⟨h.1, h.2⟩⟩

theorem Alone.undeleted (h : Alone id c a) : Undeleted id c a := by
  intro e he
  have hkept := h.kept e he
  unfold clears at hkept
  unfold removes
  split <;> simp_all

/-! ### Stages and what they hold -/

/-- The stages from the cgroup on. -/
def Stage.inCgroup : Stage → Bool
  | .made | .initial => false
  | g => g.owns

def Stage.isChild : Stage → Bool
  | .child => true
  | _ => false

/-- The child, from the stage on in which it is cloned. -/
def Stage.pid : Stage → Option Int
  | .cloned pid | .announced pid | .reread pid _ | .created pid | .bound pid | .listening pid
  | .broken pid | .accepted pid | .waited pid _ | .reported pid | .ending pid _ | .stopped pid | .lost pid =>
    some pid
  | _ => none

/-- The stages in which the child with that pid has not been waited for. -/
def Stage.parentOf (pid : Int) (g : Stage) : Bool := g.pid = some pid ∧ g.reaped = false

theorem owns_move {g g' : Stage} {op : Op} {r : op.Ret} (hm : Stage.Move id g op r g')
    (ha : World.Answer op r) (hg : g.owns = true) : g'.owns = true := by
  cases hm with
  | child => exact (World.not_answer_zero ha).elim
  | _ => first | rfl | contradiction

theorem inCgroup_move {g g' : Stage} {op : Op} {r : op.Ret} (hm : Stage.Move id g op r g')
    (ha : World.Answer op r) (hg : g.inCgroup = true) : g'.inCgroup = true := by
  cases hm with
  | child => exact (World.not_answer_zero ha).elim
  | _ => first | rfl | contradiction

/-- The process with the pid is a child of the thread, and nobody has reaped it. -/
def Unreaped (w : World) (t : Nat) (pid : Int) : Prop :=
  ∃ p ∈ w.procs, p.pid = pid ∧ p.parent = t ∧ p.adopted = false

/-! ### The invariant -/

structure Held (id : String) (c : SysConf) : Prop where
  one : OneSupervisor id c
  parent : Has id Stage.isChild c → Has id Stage.owns c
  bundle : (c.world.bundle id).isSome = true ↔ Has id Stage.owns c
  cgroup : c.world.cgroup id = true ↔ Has id Stage.inCgroup c
  pids : (c.world.procs.map (·.pid)).Nodup
  child : ∀ (i : Nat) th pid, c.threads[i]? = some th → th.stopped = false →
    AtStage id (Stage.parentOf pid) (kindOf th) (phaseOf th) → Unreaped c.world i pid

theorem not_has_fresh {S : Stage → Bool} {w : World} : ¬Has id S (fresh w) := by
  intro h
  obtain ⟨i, th, hi, -⟩ := h
  simp at hi

theorem held_fresh {w : World} (hb : w.bundle id = none) (hcg : w.cgroup id = false)
    (hp : (w.procs.map (·.pid)).Nodup) : Held id (fresh w) where
  one := List.Pairwise.nil
  parent := fun h => (not_has_fresh h).elim
  bundle := by simp [hb, not_has_fresh]
  cgroup := by simp [hcg, not_has_fresh]
  pids := hp
  child := by intro i th pid hi; simp at hi

theorem Held.parent_step (h : Held id c) (hc : Conforming c) (hs : system.step c a = some c')
    (hchild : Has id Stage.isChild c') : Has id Stage.owns c' := by
  refine Has.step ?_ hc hs fun g op r g' hm ha hg => owns_move hm ha hg
  obtain ⟨i, th', hi, hst⟩ := hchild
  cases step_change hc hs hi with
  | @kept th hi₀ hm hp hprog hst' hph hr =>
    rw [kindOf, hm, hph] at hst
    exact h.parent ⟨i, th, hi₀, hst⟩
  | @answered th op k r ch ha hi₀ hst' hop hx hd he hph =>
    have hkind : kindOf th' = kindOf th := by rw [he]; rfl
    rw [hkind, hph] at hst
    rcases AtStage.entry hd hst with hst | ⟨cp, sp, st, st', hk, hg, -, hm, hst⟩
    · exact h.parent ⟨i, th, hi₀, hst⟩
    · cases hm with
      | child => exact (World.not_answer_zero ⟨_, _, _, _, hx⟩).elim
      | _ => contradiction
  | @started p m hi₀ he hph =>
    have hkind : kindOf th' = m.kind := by rw [he]; rfl
    rw [hkind, hph] at hst
    exact (AtStage.not_init rfl m hst).elim
  | @forked t th ht hi₀ hg hm hph =>
    obtain ⟨cp, sp, st, hk, -, -⟩ := hst
    have hkind : kindOf th = kindOf th' := by rw [kindOf, kindOf, hm]
    exact ⟨t, th, ht, cp, sp, .grouped, hkind.trans hk, hg, rfl⟩
  | copied ht hi₀ hm hg hph =>
    rw [hph] at hst
    obtain ⟨-, -, st, -, he, -⟩ := hst
    cases he

/-- The bundle is made by a supervisor, or by its child in the bundle that is there. -/
theorem Does.makes {k : Kind} {g : Phase} {op : Op} {r : op.Ret} (hd : Does k g op)
    (hm : op.makesOrRemoves = some id) (hclear : clears id ⟨op, r⟩ = false) :
    (op = .createDirAll (.bundle id) ∧ ∃ configPath sp, k = .create id configPath sp ∧
      g = .create .passed) ∨ AtStage id Stage.isChild k g := by
  unfold Op.makesOrRemoves at hm
  split at hm <;> cases hm
  · cases hd with
    | quiet hq => contradiction
    | makeBundle => exact .inl ⟨rfl, _, _, rfl, rfl⟩
    | looks hl => contradiction
  · cases hd with
    | quiet hq => contradiction
    | childDir f => exact .inr ⟨_, _, _, rfl, rfl, rfl⟩
    | looks hl => contradiction
  · simp [clears] at hclear

theorem Held.bundle_step (h : Held id c) (hc : Conforming c) (hok : Alone id c a)
    (hs : system.step c a = some c') :
    (c'.world.bundle id).isSome = true ↔ Has id Stage.owns c' := by
  have hkeep (howns : Has id Stage.owns c) : Has id Stage.owns c' :=
    Has.step howns hc hs fun g op r g' hm ha hg => owns_move hm ha hg
  constructor
  · intro hb
    cases hb₀ : (c.world.bundle id).isSome with
    | true => exact hkeep (h.bundle.mp hb₀)
    | false =>
      rcases step_world hs with ⟨i, op, r, ch, he, hx⟩ | e | ⟨e, -, he⟩ | ⟨t, -, e⟩
      · by_cases hm : op.makesOrRemoves = some id
        · obtain ⟨th, k, ch', hi, -, hd, hx', hi', hph⟩ := event_thread hc he hs
          rcases hd.makes hm (hok.kept _ he) with ⟨rfl, cp, sp, hk, hg⟩ | hchild
          · rcases World.exec_createDirAll hx with ⟨rfl, -⟩ | ⟨e, rfl, hw⟩
            · refine ⟨i, _, hi', cp, sp, .made, hk, ?_, rfl⟩
              rw [hph, hk, hg]
              rfl
            · rw [hw, hb₀] at hb
              contradiction
          · exact hkeep (h.parent ⟨i, th, hi, hchild⟩)
        · rw [World.exec_isSome hx hm, hb₀] at hb
          contradiction
      · rw [e, hb₀] at hb
        contradiction
      · rw [World.env_bundle he, hb₀] at hb
        contradiction
      · rw [e, World.crash_isSome, hb₀] at hb
        contradiction
  · intro howns
    obtain ⟨i, th', hi, howns⟩ := howns
    rcases step_enters (AtStage.not_init rfl) (AtStage.not_child rfl) hc hs hi howns with
      ⟨th, hi₀, howns⟩ | ⟨th, op, r, ch, hi₀, -, hx, hd, howns⟩
    · exact hok.undeleted.stays hs (h.bundle.mpr ⟨i, th, hi₀, howns⟩)
    · rcases AtStage.entry hd howns with howns | ⟨cp, sp, st, st', hk, hg, -, hm, hst⟩
      · exact hok.undeleted.stays hs (h.bundle.mpr ⟨i, th, hi₀, howns⟩)
      · have hmade (ho : st.owns = true) : (c'.world.bundle id).isSome = true :=
          hok.undeleted.stays hs (h.bundle.mpr ⟨i, th, hi₀, cp, sp, st, hk, hg, ho⟩)
        cases hm with
        | made =>
          rcases World.exec_createDirAll hx with ⟨-, hb⟩ | ⟨e, he, -⟩
          · exact hb
          · cases he
        | refused | passed | unloaded | unmade | child => contradiction
        | _ => exact hmade rfl

/-- Only a removal takes the cgroup away. -/
theorem World.exec_cgroup_stays {w w' : World} {t : Nat} {op : Op} {ch : Choice} {r : op.Ret}
    (h : w.exec t op ch = some (r, w')) (hop : clears id ⟨op, r⟩ = false)
    (hcg : w.cgroup id = true) : w'.cgroup id = true := by
  by_cases hm : op.cgroupOf = some id
  · unfold Op.cgroupOf at hm
    split at hm <;> cases hm
    · rcases exec_createCgroup h with ⟨-, h⟩ | ⟨-, -, rfl⟩
      · exact h
      · exact hcg
    · simp [clears] at hop
  · rw [exec_cgroup h hm]
    exact hcg

theorem Alone.cgroup_stays (h : Alone id c a) (hs : system.step c a = some c')
    (hcg : c.world.cgroup id = true) : c'.world.cgroup id = true := by
  rcases step_world hs with ⟨i, op, r, ch, he, hx⟩ | e | ⟨e, -, he⟩ | ⟨t, -, e⟩
  · exact World.exec_cgroup_stays hx (h.kept _ he) hcg
  · rw [e]
    exact hcg
  · rw [World.env_cgroup he]
    exact hcg
  · rw [e]
    exact hcg

/-- The cgroup is made by a supervisor that has written `creating`. -/
theorem Does.makesCgroup {k : Kind} {g : Phase} {op : Op} {r : op.Ret} (hd : Does k g op)
    (hm : op.cgroupOf = some id) (hclear : clears id ⟨op, r⟩ = false) :
    op = .createDirAll (.cgroup id) ∧ ∃ configPath sp, k = .create id configPath sp ∧
      g = .create .initial := by
  unfold Op.cgroupOf at hm
  split at hm <;> cases hm
  · cases hd with
    | quiet hq => contradiction
    | makeCgroup => exact ⟨rfl, _, _, rfl, rfl⟩
    | looks hl => contradiction
  · simp [clears] at hclear

theorem Held.cgroup_step (h : Held id c) (hc : Conforming c) (hok : Alone id c a)
    (hs : system.step c a = some c') : c'.world.cgroup id = true ↔ Has id Stage.inCgroup c' := by
  constructor
  · intro hcg
    cases hcg₀ : c.world.cgroup id with
    | true =>
      exact Has.step (h.cgroup.mp hcg₀) hc hs fun g op r g' hm ha hg => inCgroup_move hm ha hg
    | false =>
      rcases step_world hs with ⟨i, op, r, ch, he, hx⟩ | e | ⟨e, -, he⟩ | ⟨t, -, e⟩
      · by_cases hm : op.cgroupOf = some id
        · obtain ⟨th, k, ch', hi, -, hd, hx', hi', hph⟩ := event_thread hc he hs
          obtain ⟨rfl, cp, sp, hk, hg⟩ := hd.makesCgroup hm (hok.kept _ he)
          rcases World.exec_createCgroup hx with ⟨rfl, -⟩ | ⟨e, rfl, hw⟩
          · refine ⟨i, _, hi', cp, sp, .grouped, hk, ?_, rfl⟩
            rw [hph, hk, hg]
            rfl
          · rw [hw, hcg₀] at hcg
            contradiction
        · rw [World.exec_cgroup hx hm, hcg₀] at hcg
          contradiction
      · rw [e, hcg₀] at hcg
        contradiction
      · rw [World.env_cgroup he, hcg₀] at hcg
        contradiction
      · rw [e] at hcg
        exact absurd hcg (by simp [World.crash, hcg₀])
  · intro hin
    obtain ⟨i, th', hi, hin⟩ := hin
    rcases step_enters (AtStage.not_init rfl) (AtStage.not_child rfl) hc hs hi hin with
      ⟨th, hi₀, hin⟩ | ⟨th, op, r, ch, hi₀, -, hx, hd, hin⟩
    · exact hok.cgroup_stays hs (h.cgroup.mpr ⟨i, th, hi₀, hin⟩)
    · rcases AtStage.entry hd hin with hin | ⟨cp, sp, st, st', hk, hg, -, hm, hst⟩
      · exact hok.cgroup_stays hs (h.cgroup.mpr ⟨i, th, hi₀, hin⟩)
      · have hmade (ho : st.inCgroup = true) : c'.world.cgroup id = true :=
          hok.cgroup_stays hs (h.cgroup.mpr ⟨i, th, hi₀, cp, sp, st, hk, hg, ho⟩)
        cases hm with
        | grouped =>
          rcases World.exec_createCgroup hx with ⟨-, hb⟩ | ⟨e, he, -⟩
          · exact hb
          · cases he
        | refused | passed | unloaded | unmade | made | initial | child => contradiction
        | _ => exact hmade rfl

/-! ### Processes -/

theorem pids_step (h : (c.world.procs.map (·.pid)).Nodup) (hs : system.step c a = some c') :
    (c'.world.procs.map (·.pid)).Nodup := by
  have hmap (f : Proc → Proc) (hf : c'.world.procs = c.world.procs.map f)
      (hid : ∀ p, (f p).pid = p.pid) : (c'.world.procs.map (·.pid)).Nodup := by
    have hcomp : (fun p : Proc => p.pid) ∘ f = fun p => p.pid := funext hid
    rw [hf, List.map_map, hcomp]
    exact h
  rcases step_world hs with ⟨i, op, r, ch, he, hx⟩ | e | ⟨e, -, he⟩ | ⟨t, -, e⟩
  · rcases World.exec_process hx with e | ⟨args, pid, -, hfresh, e⟩ | ⟨p, -, st, -, -, e⟩
    · rw [e]
      exact h
    · rw [e, List.map_cons, List.nodup_cons]
      refine ⟨fun hmem => ?_, h⟩
      obtain ⟨p, hp, hpid⟩ := List.mem_map.mp hmem
      simp only [World.hasPid, List.any_eq_false] at hfresh
      simpa [hpid] using hfresh p hp
    · rw [e]
      exact h.sublist (List.filter_sublist.map _)
  · rw [e]
    exact h
  · rcases World.env_procs he with ⟨f, hf, hid⟩ | ⟨pid, -, hf⟩
    · exact hmap f hf fun p => (hid p).1
    · rw [hf]
      exact h.sublist (List.filter_sublist.map _)
  · obtain ⟨f, hf, hid⟩ := World.crash_procs (w := c.world) (t := t)
    rw [← e] at hf
    exact hmap f hf fun p => (hid p).1

/-- A process stays until it is reaped: by its parent, or by process 1 once its parent has ended. -/
theorem step_proc (h : (c.world.procs.map (·.pid)).Nodup) (hs : system.step c a = some c')
    {p : Proc} (hp : p ∈ c.world.procs) :
    (∃ p' ∈ c'.world.procs, p'.pid = p.pid ∧ p'.parent = p.parent ∧
      (p'.adopted = p.adopted ∨ a = .crash p.parent)) ∨
      (∃ st, system.event c a = some (p.parent, ⟨.waitpid p.pid, .ok st⟩)) ∨
      a = .env (.reap p.pid) ∧ p.reapable = true := by
  rcases step_world hs with ⟨i, op, r, ch, he, hx⟩ | e | ⟨e, rfl, he⟩ | ⟨t, rfl, e⟩
  · rcases World.exec_process hx with e | ⟨args, pid, -, -, e⟩ | ⟨q, hq, st, hpar, hev, e⟩
    · exact .inl ⟨p, e ▸ hp, rfl, rfl, .inl rfl⟩
    · exact .inl ⟨p, e ▸ List.mem_cons_of_mem _ hp, rfl, rfl, .inl rfl⟩
    · by_cases hsame : p.pid = q.pid
      · -- pids are distinct, so the reaped process is this one
        obtain rfl : p = q := List.inj_on_of_nodup_map h hp hq hsame
        exact .inr (.inl ⟨st, by rw [he, hev, hpar]⟩)
      · refine .inl ⟨p, ?_, rfl, rfl, .inl rfl⟩
        rw [e]
        exact List.mem_filter.mpr ⟨hp, by simpa using hsame⟩
  · exact .inl ⟨p, e ▸ hp, rfl, rfl, .inl rfl⟩
  · rcases World.env_procs he with ⟨f, hf, hid⟩ | ⟨pid, rfl, hf⟩
    · refine .inl ⟨f p, ?_, (hid p).1, (hid p).2.1, .inl (hid p).2.2.2⟩
      rw [hf]
      exact List.mem_map_of_mem hp
    · by_cases hreap : p.pid = pid ∧ p.reapable = true
      · obtain ⟨rfl, hreap⟩ := hreap
        exact .inr (.inr ⟨rfl, hreap⟩)
      · refine .inl ⟨p, ?_, rfl, rfl, .inl rfl⟩
        rw [hf]
        exact List.mem_filter.mpr ⟨hp, by simpa [imp_iff_not_or] using hreap⟩
  · obtain ⟨f, hf, hid⟩ := World.crash_procs (w := c.world) (t := t)
    refine .inl ⟨f p, ?_, (hid p).1, (hid p).2.1, ?_⟩
    · rw [e, hf]
      exact List.mem_map_of_mem hp
    · by_cases hpar : p.parent = t
      · exact .inr (by rw [hpar])
      · exact .inl (by rw [(hid p).2.2.2.2 hpar])

/-- The process of a child stays until its parent reaps it, as long as the parent does not end. -/
theorem unreaped_step (h : (c.world.procs.map (·.pid)).Nodup) (hs : system.step c a = some c')
    {t : Nat} (hnc : a ≠ .crash t) {pid : Int} (hp : Unreaped c.world t pid) :
    Unreaped c'.world t pid ∨ ∃ st, system.event c a = some (t, ⟨.waitpid pid, .ok st⟩) := by
  obtain ⟨p, hmem, rfl, rfl, had⟩ := hp
  rcases step_proc h hs hmem with ⟨p', hmem', hpid, hpar, had'⟩ | hw | ⟨-, hreap⟩
  · have hnot : p'.adopted = false := (had'.resolve_right hnc).trans had
    exact .inl ⟨p', hmem', hpid, hpar, hnot⟩
  · exact .inr hw
  · rw [Proc.reapable, had] at hreap
    contradiction

/-- The child of a supervisor that has not waited for it is there. -/
theorem child_step (h : (c.world.procs.map (·.pid)).Nodup)
    (hchild : ∀ (i : Nat) th pid, c.threads[i]? = some th → th.stopped = false →
      AtStage id (Stage.parentOf pid) (kindOf th) (phaseOf th) → Unreaped c.world i pid)
    (hc : Conforming c) (hs : system.step c a = some c') (i : Nat) (th' : SysThread) (pid : Int)
    (hi : c'.threads[i]? = some th') (hrun : th'.stopped = false)
    (hst : AtStage id (Stage.parentOf pid) (kindOf th') (phaseOf th')) :
    Unreaped c'.world i pid := by
  have hback {th : SysThread} (hi₀ : c.threads[i]? = some th) := Machine.step_unstopped hs hi₀ hi hrun
  have hold {th : SysThread} (hi₀ : c.threads[i]? = some th)
      (hst₀ : AtStage id (Stage.parentOf pid) (kindOf th) (phaseOf th)) :
      Unreaped c'.world i pid := by
    obtain ⟨hrun₀, hnc⟩ := hback hi₀
    rcases unreaped_step h hs hnc (hchild i th pid hi₀ hrun₀ hst₀) with hp | ⟨status, he⟩
    · exact hp
    · -- the thread has just waited, so it is past the stages with a child
      obtain ⟨th, k, ch, hi₀, -, hd, -, hi', hph⟩ := event_thread hc he hs
      cases hi.symm.trans hi'
      obtain ⟨cp, sp, st, hk, hg, hst⟩ := hst
      rw [hph, show kindOf th = _ from hk] at hg
      rw [show kindOf th = _ from hk] at hd
      generalize phaseOf th = g at hd hg
      cases hd with
      | quiet hq => contradiction
      | waitpid =>
        cases hg
        have hnone : Stage.parentOf pid (.waited pid status) = true := hst
        simp [Stage.parentOf, Stage.reaped] at hnone
  rcases step_enters (AtStage.not_init rfl) (AtStage.not_child rfl) hc hs hi hst with
    ⟨th, hi₀, hst⟩ | ⟨th, op, r, ch, hi₀, -, hx, hd, hst⟩
  · exact hold hi₀ hst
  · rcases AtStage.entry hd hst with hst | ⟨cp, sp, st, st', hk, hg, -, hm, hst⟩
    · exact hold hi₀ hst
    · have hsame (ho : st.parentOf pid = true) : Unreaped c'.world i pid :=
        hold hi₀ ⟨cp, sp, st, hk, hg, ho⟩
      cases hm with
      | @cloned args pid' hne =>
        obtain rfl : pid' = pid := by
          simpa [Stage.parentOf, Stage.pid, Stage.reaped] using hst
        exact ⟨_, (World.exec_clone hx).2.2 ▸ List.mem_cons_self, rfl, rfl, rfl⟩
      | announced | rereadCloned | rereadAnnounced | created | bound | listening | broken | accepted =>
        exact hsame hst
      | _ => simp [Stage.parentOf, Stage.pid, Stage.reaped] at hst

theorem Held.step (h : Held id c) (hc : Conforming c) (hok : Alone id c a)
    (hs : system.step c a = some c') : Held id c' where
  one := hok.one c' hs
  parent := h.parent_step hc hs
  bundle := h.bundle_step hc hok hs
  cgroup := h.cgroup_step hc hok hs
  pids := pids_step h.pids hs
  child := child_step h.pids h.child hc hs

/-! ### Resources and the trace -/

/-- `create_dir_all` has made the directory. -/
def makes (p : Path) : Sys.Ev → Bool
  | ⟨.createDirAll q, r⟩ => q = p ∧ r.isOk
  | _ => false

/-- `clone3` has returned the pid of a child. -/
def clones (pid : Int) : Sys.Ev → Bool
  | ⟨.clone3 _, .ok n⟩ => n = pid ∧ pid ≠ 0
  | _ => false

/-- The check has found no bundle. -/
def passes (id : String) : Sys.Ev → Bool
  | ⟨.exists p, found⟩ => p = .bundle id ∧ found = false
  | _ => false

section
variable {th : SysThread} {configPath : String} {sp : Option String} (h : contract.Conforms th)
  (hk : kindOf th = .create id configPath sp) (hchild : phaseOf th ≠ .create .child)
include h hk hchild

theorem admitted_iff : Supervises id (kindOf th) (phaseOf th) ↔
    ∃ ev ∈ th.trace, passes id ev = true := by
  refine atStage_iff_trace h hk hchild rfl ?_ ?_ ?_
  · intro g op r g' hm hg hg'
    cases hm with
    | passed => simp [passes]
    | _ => contradiction
  · intro g op r hd hE
    unfold passes at hE
    split at hE <;> try contradiction
    rename_i p found heq
    obtain ⟨rfl, rfl⟩ := of_decide_eq_true hE
    cases heq
    cases hd with
    | quiet hq => contradiction
    | probe => exact ⟨_, rfl, .inl rfl⟩
  · intro g op r g' hm hg
    cases hm <;> first | exact .inl rfl | exact .inr rfl | contradiction

theorem owns_iff : AtStage id Stage.owns (kindOf th) (phaseOf th) ↔
    ∃ ev ∈ th.trace, makes (.bundle id) ev = true := by
  refine atStage_iff_trace h hk hchild rfl ?_ ?_ ?_
  · intro g op r g' hm hg hg'
    cases hm with
    | made => simp [makes, Except.isOk, Except.toBool]
    | _ => contradiction
  · intro g op r hd hE
    unfold makes at hE
    split at hE <;> try contradiction
    rename_i p r' heq
    obtain ⟨rfl, hr⟩ := of_decide_eq_true hE
    cases heq
    cases hd with
    | quiet hq => contradiction
    | makeBundle =>
      cases r' with
      | error e => contradiction
      | ok _ => exact ⟨_, rfl, .inl rfl⟩
  · intro g op r g' hm hg
    cases hm <;> first | exact .inl rfl | exact .inr rfl | contradiction

theorem inCgroup_iff : AtStage id Stage.inCgroup (kindOf th) (phaseOf th) ↔
    ∃ ev ∈ th.trace, makes (.cgroup id) ev = true := by
  refine atStage_iff_trace h hk hchild rfl ?_ ?_ ?_
  · intro g op r g' hm hg hg'
    cases hm with
    | grouped => simp [makes, Except.isOk, Except.toBool]
    | _ => contradiction
  · intro g op r hd hE
    unfold makes at hE
    split at hE <;> try contradiction
    rename_i p r' heq
    obtain ⟨rfl, hr⟩ := of_decide_eq_true hE
    cases heq
    cases hd with
    | quiet hq => contradiction
    | makeCgroup =>
      cases r' with
      | error e => contradiction
      | ok _ => exact ⟨_, rfl, .inl rfl⟩
  · intro g op r g' hm hg
    cases hm <;> first | exact .inl rfl | exact .inr rfl | contradiction

theorem pid_iff (pid : Int) :
    AtStage id (fun g => g.pid = some pid) (kindOf th) (phaseOf th) ↔
      ∃ ev ∈ th.trace, clones pid ev = true := by
  refine atStage_iff_trace h hk hchild rfl ?_ ?_ ?_
  · intro g op r g' hm hg hg'
    cases hm with
    | cloned hne =>
      have e := of_decide_eq_true hg'
      cases e
      simp [clones, hne]
    | _ => simp_all [Stage.pid]
  · intro g op r hd hE
    unfold clones at hE
    split at hE <;> try contradiction
    rename_i args n heq
    obtain ⟨rfl, hne⟩ := of_decide_eq_true hE
    cases heq
    cases hd with
    | quiet hq => contradiction
    | clone =>
      refine ⟨.cloned n, ?_, .inl (by simp [Stage.pid])⟩
      simp [Kind.next, Op.quiet, Stage.advance, hne]
  · intro g op r g' hm hg
    cases hm <;> simp_all [Stage.pid]

theorem reaped_iff : Reaped id (kindOf th) (phaseOf th) ↔ ∃ ev ∈ th.trace, reaps ev = true := by
  refine atStage_iff_trace h hk hchild rfl ?_ ?_ ?_
  · intro g op r g' hm hg hg'
    cases hm with
    | waited => rfl
    | _ => contradiction
  · intro g op r hd hE
    unfold reaps at hE
    split at hE <;> try contradiction
    rename_i pid status heq
    cases heq
    cases hd with
    | quiet hq => contradiction
    | waitpid => exact ⟨_, rfl, .inl rfl⟩
  · intro g op r g' hm hg
    exact .inl (reaped_move hm hg)

end

/-! ### Later runs -/

/-- The bundle is there, and no run from the `n`-th thread on has got past the check. -/
structure Barred (id : String) (n : Nat) (c : SysConf) : Prop where
  bundle : (c.world.bundle id).isSome
  refused : ∀ (i : Nat) th, n ≤ i → c.threads[i]? = some th → ¬Supervises id (kindOf th) (phaseOf th)

theorem Barred.step {n : Nat} (h : Barred id n c) (hc : Conforming c) (hok : Undeleted id c a)
    (hs : system.step c a = some c') : Barred id n c' where
  bundle := hok.stays hs h.bundle
  refused := by
    intro i th' hn hi hst
    rcases step_enters (AtStage.not_init rfl) (AtStage.not_child rfl) hc hs hi hst with
      ⟨th, hi₀, hst⟩ | ⟨th, op, r, ch, hi₀, -, hx, hd, hst⟩
    · exact h.refused i th hn hi₀ hst
    · rcases AtStage.entry hd hst with hst | ⟨cp, sp, st, st', hk, hg, -, hm, hst⟩
      · exact h.refused i th hn hi₀ hst
      · cases hm with
        | passed =>
          have hb := (World.exec_exists hx).1
          rw [h.bundle] at hb
          contradiction
        | refused | child => contradiction
        | _ => exact h.refused i th hn hi₀ ⟨cp, sp, _, hk, hg, rfl⟩

/-- As long as nobody removes the bundle, every run of `create` that is started after it was made
ends in a refusal. -/
theorem later_refused (hc : Conforming c) (hb : (c.world.bundle id).isSome)
    (hrun : Steps system.step (Undeleted id) c c') {j : Nat} {th : SysThread}
    (hnew : c.threads[j]? = none) (hj : c'.threads[j]? = some th) (hcreate : Creates id th)
    (hend : Ended th) : Refusal id th := by
  have hfirst : Barred id c.threads.length c := by
    refine ⟨hb, fun i th hle hi => ?_⟩
    rw [List.getElem?_eq_none hle] at hi
    contradiction
  obtain ⟨hc', hbar⟩ := run_invariant hrun hc hfirst fun c a c' hc h hok hs => h.step hc hok hs
  obtain ⟨⟨cp, sp, hk⟩, hchild⟩ := hcreate
  obtain ⟨st, hg⟩ := create_phase (hc' j th hj) hk
  have hstage := hend.stage (hc' j th hj) hk hg
  have hadm : st.admitted = false := by
    cases hst : st.admitted with
    | false => rfl
    | true =>
      have hle : c.threads.length ≤ j := List.getElem?_eq_none_iff.mp hnew
      exact (hbar.refused j th hle hj ⟨cp, sp, st, hk, hg, hst⟩).elim
  cases st with
  | refused => exact hend.refusal (hc' j th hj) hk hg
  | start => rcases hstage with ⟨pid, e⟩ | e <;> contradiction
  | child => exact (hchild hg).elim
  | _ => contradiction

/-- Whatever point a run of `create` that has passed the check has come to, a failure included, the
bundle and the cgroup are there if and only if it has made them, and the child it has cloned and not
waited for has not been reaped by anybody as long as the process of the run is there; where it has
made the bundle, every later run for the id is refused. -/
theorem create_keeps {id : String} {w : World} {c : SysConf} (hb : w.bundle id = none)
    (hcg : w.cgroup id = false) (hp : (w.procs.map (·.pid)).Nodup)
    (hrun : Steps system.step (Alone id) (fresh w) c) {i : Nat} {th : SysThread}
    (hi : c.threads[i]? = some th) (hcreate : Creates id th)
    (hpass : ∃ ev ∈ th.trace, passes id ev = true) :
    ((c.world.bundle id).isSome = true ↔ ∃ ev ∈ th.trace, makes (.bundle id) ev = true) ∧
    (c.world.cgroup id = true ↔ ∃ ev ∈ th.trace, makes (.cgroup id) ev = true) ∧
    (th.stopped = false → ∀ pid, (∃ ev ∈ th.trace, clones pid ev = true) →
      (¬∃ ev ∈ th.trace, reaps ev = true) → Unreaped c.world i pid) ∧
    ((∃ ev ∈ th.trace, makes (.bundle id) ev = true) → ∀ c₂,
      Steps system.step (Undeleted id) c c₂ → ∀ (j : Nat) th', c.threads[j]? = none →
        c₂.threads[j]? = some th' → Creates id th' → Ended th' → Refusal id th') := by
  obtain ⟨hc, hheld⟩ := run_invariant hrun (conforming_fresh w) (held_fresh hb hcg hp)
    fun c a c' hc h hok hs => h.step hc hok hs
  obtain ⟨⟨cp, sp, hk⟩, hchild⟩ := hcreate
  have hconf := hc i th hi
  have hadm := (admitted_iff hconf hk hchild).mpr hpass
  -- there is no other supervisor, so what a supervisor holds is held by this one
  have hhas {S : Stage → Bool} (hS : ∀ g, S g = true → g.admitted = true) :
      Has id S c ↔ AtStage id S (kindOf th) (phaseOf th) := by
    constructor
    · intro h
      obtain ⟨j, th', hj, hst⟩ := h
      obtain rfl := hheld.one.eq hi hj hadm (hst.mono hS)
      cases hi.symm.trans hj
      exact hst
    · exact fun h => ⟨i, th, hi, h⟩
  have howns : (c.world.bundle id).isSome = true ↔ ∃ ev ∈ th.trace, makes (.bundle id) ev = true := by
    rw [hheld.bundle, hhas fun g hg => by cases g <;> first | rfl | contradiction]
    exact owns_iff hconf hk hchild
  refine ⟨howns, ?_, ?_, ?_⟩
  · rw [hheld.cgroup, hhas fun g hg => by cases g <;> first | rfl | contradiction]
    exact inCgroup_iff hconf hk hchild
  · intro hrun pid hclone hreap
    refine hheld.child i th pid hi hrun ?_
    obtain ⟨_, _, st, hk', hg, hpid⟩ := (pid_iff hconf hk hchild pid).mpr hclone
    refine ⟨_, _, st, hk', hg, ?_⟩
    have hnot : st.reaped = false := by
      cases hst : st.reaped with
      | false => rfl
      | true => exact (hreap ((reaped_iff hconf hk hchild).mp ⟨_, _, st, hk', hg, hst⟩)).elim
    simpa [Stage.parentOf, hnot] using hpid
  · intro hmade c₂ hlater j th' hnew hj hcreate hend
    exact later_refused hc (howns.mpr hmade) hlater hnew hj hcreate hend

/-- `create` up to the network of the child, where its namespace cannot be opened. -/
def createFails (id : String) : List SysAction :=
  [.invoke (.create id "cfg" none)] ++ goes 18 0 ++ [.call 0 (.run 7), go 0, .call 0 (.err .ebusy)]

theorem create_keeps_sample : ∃ (c : SysConf) (th : SysThread),
    Steps system.step (Alone "c") (fresh sampleHost) c ∧ c.threads[0]? = some th ∧
    (fault th).isSome = true ∧
    ((c.world.bundle "c").isSome = true ↔ ∃ ev ∈ th.trace, makes (.bundle "c") ev = true) ∧
    (c.world.cgroup "c" = true ↔ ∃ ev ∈ th.trace, makes (.cgroup "c") ev = true) ∧
    (th.stopped = false → ∀ pid, (∃ ev ∈ th.trace, clones pid ev = true) →
      (¬∃ ev ∈ th.trace, reaps ev = true) → Unreaped c.world 0 pid) := by
  have h : ∃ c ∈ runActions system.step (Alone "c") (fresh sampleHost) (createFails "c"),
      ∃ th ∈ c.threads[0]?, (fault th).isSome = true ∧ kindOf th = .create "c" "cfg" none ∧
        phaseOf th ≠ .create .child ∧ ∃ ev ∈ th.trace, passes "c" ev = true := by
    decide +kernel
  obtain ⟨c, hrun, th, hi, hfail, hk, hchild, hpass⟩ := h
  obtain ⟨hb, hcg, hpid, -⟩ := create_keeps rfl rfl (by decide) (.of_runActions hrun) hi
    ⟨⟨_, _, hk⟩, hchild⟩ hpass
  exact ⟨c, th, .of_runActions hrun, hi, hfail, hb, hcg, hpid⟩

/-- When it fails there, the bundle, the cgroup and the live child stay, and the next run is
refused. -/
theorem create_leaves : ∃ c₁ c₂ : SysConf,
    Steps system.step (Alone "c") (fresh sampleHost) c₁ ∧
    (∃ th ∈ c₁.threads[0]?, kindOf th = .create "c" "cfg" none ∧ (fault th).isSome = true) ∧
    (c₁.world.bundle "c").isSome = true ∧ c₁.world.cgroup "c" = true ∧
    (∃ p ∈ c₁.world.procs, p.pid = 7 ∧ p.status = none) ∧
    Steps system.step (Undeleted "c") c₁ c₂ ∧
    ∃ th ∈ c₂.threads[2]?, fault th = some (.core (.containerAlreadyExists "c")) := by
  have h : ∃ c₁ ∈ runActions system.step (Alone "c") (fresh sampleHost) (createFails "c"),
      ((∃ th ∈ c₁.threads[0]?, kindOf th = .create "c" "cfg" none ∧ (fault th).isSome = true) ∧
        (c₁.world.bundle "c").isSome = true ∧ c₁.world.cgroup "c" = true ∧
        ∃ p ∈ c₁.world.procs, p.pid = 7 ∧ p.status = none) ∧
      ∃ c₂ ∈ runActions system.step (Undeleted "c") c₁ [.invoke (.create "c" "cfg" none), go 2],
        ∃ th ∈ c₂.threads[2]?, fault th = some (.core (.containerAlreadyExists "c")) := by
    decide +kernel
  obtain ⟨c₁, h₁, ⟨hfail, hb, hcg, hp⟩, c₂, h₂, hth⟩ := h
  exact ⟨c₁, c₂, .of_runActions h₁, hfail, hb, hcg, hp, .of_runActions h₂, hth⟩

end Clonebox
