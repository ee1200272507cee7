import Mathlib.Data.List.Induction
import Clonebox.Lib.Lineage
import Clonebox.System.Run

/-! # Lost updates of the state file

Each update reads the whole file and writes the whole file, and nothing keeps the two together. A
write puts back the pid that was read, so what another update has set in between is gone. -/

namespace Clonebox
open Conc Prog

/-- The updates of `state.json`. Of `kill` these are the read and the write. -/
inductive Update where
  | created (pid : Int)
  | running
  | paused
  | stopped
  | killed
  deriving DecidableEq

namespace Update

def apply : Update → State → State
  | .created pid => fun state => state.setCreated pid
  | .running => State.setRunning
  | .paused => State.setPaused
  | .stopped | .killed => State.setStopped

def prog (id : String) : Update → Core State
  | .created pid => updateState id fun state => state.setCreated pid
  | .running => updateState id State.setRunning
  | .paused => updateState id State.setPaused
  | .stopped => updateState id State.setStopped
  | .killed => do
    let state ← readStateFile id
    writeStateFile id state.setStopped
    pure state.setStopped

/-- The status an update sets. -/
def status : Update → ContainerState
  | .created _ => .created
  | .running => .running
  | .paused => .paused
  | .stopped | .killed => .stopped

/-- The pid an update sets, if it sets one. -/
def pid : Update → Option (Option Int)
  | .created pid => some (some pid)
  | .running | .paused => none
  | .stopped | .killed => some none

theorem apply_eq (u : Update) (s : State) :
    u.apply s = { s with status := u.status, pid := u.pid.getD s.pid } := by
  cases u <;> rfl

theorem prog_eq (u : Update) (id : String) : u.prog id = updateState id u.apply := by
  cases u <;> rfl

end Update

/-! ### One after the other -/

/-- The state after the updates have run one after the other. -/
def serial (s : State) (order : List Update) : State := order.foldl (fun s u => u.apply s) s

variable {s : State} {us chain : List Update} {u : Update}

theorem serial_form (s : State) (order : List Update) :
    ∃ st p, serial s order = { s with status := st, pid := p } := by
  induction order generalizing s with
  | nil => exact ⟨s.status, s.pid, rfl⟩
  | cons u order ih =>
    obtain ⟨st, p, h⟩ := ih (u.apply s)
    refine ⟨st, p, ?_⟩
    show serial (u.apply s) order = _
    rw [h, u.apply_eq]

theorem serial_concat (s : State) (order : List Update) (u : Update) :
    serial s (order ++ [u]) =
      { s with status := u.status, pid := u.pid.getD (serial s order).pid } := by
  obtain ⟨st, p, h⟩ := serial_form s order
  have hlast : serial s (order ++ [u]) = u.apply (serial s order) := by simp [serial]
  rw [hlast, h, u.apply_eq]

/-- The pid in the end is the first one, or was set by one of the updates. -/
theorem serial_pid (s : State) (order : List Update) :
    ((∀ u ∈ order, u.pid = none) ∧ (serial s order).pid = s.pid) ∨
      ∃ u ∈ order, u.pid = some (serial s order).pid := by
  induction order using List.reverseRecOn with
  | nil => exact .inl ⟨nofun, rfl⟩
  | append_singleton order u ih =>
    rw [serial_concat]
    cases hu : u.pid with
    | some p => exact .inr ⟨u, by simp, hu⟩
    | none =>
      rcases ih with ⟨hnone, hpid⟩ | ⟨v, hv, hpid⟩
      · refine .inl ⟨fun v hv => ?_, hpid⟩
        rcases List.mem_append.mp hv with hv | hv
        · exact hnone v hv
        · rw [List.mem_singleton.mp hv]
          exact hu
      · exact .inr ⟨v, List.mem_append_left _ hv, hpid⟩

theorem perm_concat (h : u ∈ us) : (us.erase u ++ [u]).Perm us :=
  (List.perm_append_singleton u _).trans (List.perm_cons_erase h).symm

/-- The update `k` before the last one, `u`. -/
theorem perm_concat_two {k : Update} (hu : u ∈ us) (hk : k ∈ us) (hne : k ≠ u) :
    ((us.erase u).erase k ++ [k] ++ [u]).Perm us := by
  have hmem : k ∈ us.erase u := (List.mem_erase_of_ne hne).mpr hk
  exact ((perm_concat hmem).append_right [u]).trans (perm_concat hu)

/-- The condition: of the updates that the content has come through one sets the pid, or none of all
sets it, or one sets it to what it was at first. -/
def KeepsPid (s : State) (us chain : List Update) : Prop :=
  (∃ u ∈ chain, u.pid ≠ none) ∨ (∀ u ∈ us, u.pid = none) ∨ ∃ u ∈ us, u.pid = some s.pid

instance : Decidable (KeepsPid s us chain) :=
  inferInstanceAs (Decidable ((∃ u ∈ chain, u.pid ≠ none) ∨ (∀ u ∈ us, u.pid = none) ∨
    ∃ u ∈ us, u.pid = some s.pid))

/-- Some of the updates make what all of them make in some order if and only if the pid is kept. -/
theorem serial_iff (hsub : ∀ u ∈ chain, u ∈ us) (hlast : us ≠ [] → chain ≠ []) :
    (∃ order : List Update, order.Perm us ∧ serial s order = serial s chain) ↔
      KeepsPid s us chain := by
  constructor
  · rintro ⟨order, hperm, heq⟩
    by_contra hnot
    simp only [KeepsPid, not_or, not_exists, not_and, not_forall] at hnot
    obtain ⟨hchain, ⟨u, hu, hset⟩, hfirst⟩ := hnot
    have hpid : (serial s chain).pid = s.pid := by
      rcases serial_pid s chain with ⟨-, h⟩ | ⟨v, hv, h⟩
      · exact h
      · exact (hchain v hv (by rw [h]; nofun)).elim
    rcases serial_pid s order with ⟨h, -⟩ | ⟨v, hv, h⟩
    · exact hset (h u (hperm.mem_iff.mpr hu))
    · rw [heq, hpid] at h
      exact hfirst v (hperm.mem_iff.mp hv) h
  · intro hkeep
    rcases List.eq_nil_or_concat' chain with rfl | ⟨before, u, rfl⟩
    · have hnil : us = [] := by
        by_contra hne
        exact hlast hne rfl
      exact ⟨[], by rw [hnil], rfl⟩
    · have hu : u ∈ us := hsub u (by simp)
      have hcopy (order : List Update) (hperm : (order ++ [u]).Perm us)
          (hpid : u.pid.getD (serial s order).pid = u.pid.getD (serial s before).pid) :
          ∃ order : List Update, order.Perm us ∧ serial s order = serial s (before ++ [u]) := by
        refine ⟨order ++ [u], hperm, ?_⟩
        rw [serial_concat, serial_concat, hpid]
      -- an update that sets the pid of the content comes before the last one
      have hbefore (k : Update) (hk : k ∈ us) (hset : u.pid = none)
          (hpid : k.pid = some (serial s before).pid) :
          ∃ order : List Update, order.Perm us ∧ serial s order = serial s (before ++ [u]) := by
        have hne : k ≠ u := by
          rintro rfl
          rw [hset] at hpid
          contradiction
        refine hcopy _ (perm_concat_two hu hk hne) ?_
        rw [serial_concat, hpid]
        rfl
      cases hset : u.pid with
      | some p =>
        refine hcopy _ (perm_concat hu) ?_
        rw [hset]
        rfl
      | none =>
        rcases serial_pid s before with ⟨hnone, hpid⟩ | ⟨k, hk, hpid⟩
        · rcases hkeep with ⟨k, hk, hne⟩ | hall | ⟨k, hk, hfirst⟩
          · rcases List.mem_append.mp hk with hk | hk
            · exact (hne (hnone k hk)).elim
            · rw [List.mem_singleton.mp hk] at hne
              exact (hne hset).elim
          · refine hcopy _ (perm_concat hu) ?_
            rcases serial_pid s (us.erase u) with ⟨-, h⟩ | ⟨k, hk, h⟩
            · rw [h, hpid]
            · rw [hall k (List.mem_of_mem_erase hk)] at h
              contradiction
          · exact hbefore k hk hset (by rw [hfirst, hpid])
        · exact hbefore k (hsub k (by simp [hk])) hset hpid

/-! ### All at once -/

/-- The machine that interleaves updates of the container, each of which takes its steps without
fail. -/
def updater (id : String) : Machine Sys CoreError State World Unit Empty Update where
  prog := Update.prog id
  exec w t op _ := w.exec t op (.run 0)
  fork _ _ := none
  spawn _ _ := none
  invocable _ _ := false
  env _ := nofun
  halts := nofun
  crash := World.crash

abbrev UpdateConf := Conf Sys CoreError State World Update

/-- The updates, none of which has made a step. -/
def together (id : String) (w : World) (us : List Update) : UpdateConf :=
  ⟨w, us.map (.start (Update.prog id) none)⟩

/-- The configuration after the updates have made their steps in the order of the schedule. -/
def interleave (id : String) (w : World) (us : List Update) (schedule : List Nat) :
    Option UpdateConf :=
  runActions (updater id).step (fun _ _ => True) (together id w us) (schedule.map (.call · ()))

/-- Update number `i`. -/
def applyAt (us : List Update) (i : Nat) (s : State) : State := (us[i]?).elim s (·.apply s)

/-- The updates that the content has come through after the schedule, the last one at the end. -/
def chainOf (us : List Update) (schedule : List Nat) : List Update :=
  (Lineage.after schedule).now.reverse.filterMap (us[·]?)

theorem value_serial (us : List Update) (s : State) (l : List Nat) :
    Lineage.value (applyAt us) s l = serial s (l.reverse.filterMap (us[·]?)) := by
  induction l with
  | nil => rfl
  | cons i l ih =>
    rw [Lineage.value_cons, ih, List.reverse_cons, List.filterMap_append]
    unfold applyAt
    cases hu : us[i]? with
    | none => simp [hu]
    | some u => simp [hu, serial]

/-- What an update has left to do when it has read `s`. -/
def Update.rest (u : Update) (id : String) (s : State) : Core State :=
  (writeStateFile id (u.apply s)).bind fun _ => .ret (u.apply s)

/-- Where update `u` is, when it has found `base` and the cell has come through `now`. -/
inductive UpdateAt (id : String) (s : State) (us : List Update) (u : Update) (now : List Nat) :
    Option (List Nat) → Core State → Prop
  | idle : UpdateAt id s us u now none (u.prog id)
  | read {found : List Nat} :
    UpdateAt id s us u now (some found) (u.rest id (Lineage.value (applyAt us) s found))
  | wrote {found : List Nat} {x : State} (h : now ≠ []) : UpdateAt id s us u now (some found) (.ret x)

/-- The machine keeps in the file what the lineage makes of the first state. -/
structure Builds (id : String) (s : State) (us : List Update) (c : UpdateConf) (g : Lineage) :
    Prop where
  file : c.world.file id = some (Lineage.value (applyAt us) s g.now)
  length : c.threads.length = us.length
  known : g.All (· < us.length)
  threads : ∀ (i : Nat) u th, us[i]? = some u → c.threads[i]? = some th →
    UpdateAt id s us u g.now (g.base i) th.prog

theorem UpdateAt.weaken {id : String} {now now' : List Nat} {base : Option (List Nat)}
    {p : Core State} (h : UpdateAt id s us u now base p) (hn : now' ≠ []) :
    UpdateAt id s us u now' base p := by
  cases h with
  | idle => exact .idle
  | read => exact .read
  | wrote => exact .wrote hn

theorem Update.prog_call (u : Update) (id : String) : ∃ k,
    u.prog id = .call (.read (stateJson id)) k ∧ ∀ x, k (.ok (.state x)) = u.rest id x := by
  cases u <;> exact ⟨_, rfl, fun _ => rfl⟩

theorem Update.rest_call (u : Update) (id : String) (x : State) : ∃ k,
    u.rest id x = .call (.write (stateJson id) (.state (u.apply x))) k ∧
      k (.ok ()) = .ret (u.apply x) := ⟨_, rfl, rfl⟩

/-- What a step leaves to the threads that do not make it. -/
theorem getElem?_step {c : UpdateConf} {i j : Nat} {th th' : Thread Sys CoreError State Update}
    (hj : (c.threads.set i th ++ [])[j]? = some th') :
    (j = i ∧ th' = th) ∨ (j ≠ i ∧ c.threads[j]? = some th') := by
  rw [List.append_nil] at hj
  rcases eq_or_ne i j with rfl | hne
  · refine .inl ⟨rfl, ?_⟩
    have hlen : i < (c.threads.set i th).length := (List.getElem?_eq_some_iff.mp hj).1
    rw [List.getElem?_set_self (by simpa using hlen)] at hj
    exact (Option.some.inj hj).symm
  · rw [List.getElem?_set_ne hne] at hj
    exact .inr ⟨hne.symm, hj⟩

theorem Builds.step {id : String} {c c' : UpdateConf} {g : Lineage} {i : Nat}
    (h : Builds id s us c g) (hs : (updater id).step c (.call i ()) = some c') :
    Builds id s us c' (g.step i) := by
  obtain ⟨th, op, k, r, w, hi, hst, hp, hx, rfl⟩ := Machine.step_call hs
  have hlen : i < us.length := by
    rw [← h.length]
    exact (List.getElem?_eq_some_iff.mp hi).1
  obtain ⟨u, hu⟩ : ∃ u, us[i]? = some u := ⟨_, List.getElem?_eq_getElem hlen⟩
  have hat := h.threads i u th hu hi
  have hknown := h.known.step hlen
  rw [hp] at hat
  generalize hbase : g.base i = base at hat
  generalize hprog : Prog.call op k = p at hat
  cases hat with
  | idle =>
    obtain ⟨k', hk, hnext⟩ := u.prog_call id
    cases hprog.trans hk
    cases (World.run_read h.file i).symm.trans hx
    rw [Lineage.step_read hbase] at hknown ⊢
    refine ⟨h.file, ?_, hknown, fun j v th' hv hj => ?_⟩
    · show (c.threads.set i _ ++ []).length = us.length
      simp [h.length]
    · rcases getElem?_step hj with ⟨rfl, rfl⟩ | ⟨hne, hj⟩
      · cases hu.symm.trans hv
        dsimp only
        rw [Function.update_self, Thread.answer_prog, hnext]
        exact .read
      · dsimp only
        rw [Function.update_of_ne hne]
        exact h.threads j v th' hv hj
  | @read found =>
    obtain ⟨k', hk, hnext⟩ := u.rest_call id (Lineage.value (applyAt us) s found)
    cases hprog.trans hk
    obtain ⟨w', hexec, hfile⟩ :=
      World.run_write h.file i (u.apply (Lineage.value (applyAt us) s found))
    cases hexec.symm.trans hx
    rw [Lineage.step_write hbase] at hknown ⊢
    refine ⟨?_, ?_, hknown, fun j v th' hv hj => ?_⟩
    · rw [Lineage.value_cons, applyAt, hu]
      exact hfile
    · show (c.threads.set i _ ++ []).length = us.length
      simp [h.length]
    · rcases getElem?_step hj with ⟨rfl, rfl⟩ | ⟨hne, hj⟩
      · dsimp only
        rw [hbase, Thread.answer_prog, hnext]
        exact .wrote (List.cons_ne_nil _ _)
      · exact (h.threads j v th' hv hj).weaken (List.cons_ne_nil _ _)
  | wrote => cases hprog

theorem Builds.start {id : String} {w : World} (hfile : w.file id = some s) :
    Builds id s us (together id w us) .start where
  file := hfile
  length := by simp [together]
  known := .start
  threads := by
    intro i u th hu hi
    simp only [together, List.getElem?_map, hu, Option.map_some, Option.some.injEq] at hi
    subst hi
    exact .idle

/-- What the machine makes of a schedule is what the lineage says. -/
theorem Builds.run {id : String} {schedule : List Nat} {c c' : UpdateConf} {g : Lineage}
    (h : Builds id s us c g)
    (hrun : runActions (updater id).step (fun _ _ => True) c (schedule.map (.call · ())) = some c') :
    Builds id s us c' (schedule.foldl Lineage.step g) := by
  induction schedule generalizing c g with
  | nil =>
    cases hrun
    exact h
  | cons i schedule ih =>
    simp only [List.map_cons, runActions, if_true] at hrun
    obtain ⟨c₁, hs, hrest⟩ := Option.bind_eq_some_iff.mp hrun
    exact ih (h.step hs) hrest

/-- Once an update has returned, the content has come through one. -/
theorem Builds.chain_ne_nil {id : String} {c : UpdateConf} {schedule : List Nat} {i : Nat}
    {th : Thread Sys CoreError State Update} {x : State}
    (h : Builds id s us c (Lineage.after schedule)) (hu : us[i]? = some u)
    (hi : c.threads[i]? = some th) (hx : th.prog = .ret x) : chainOf us schedule ≠ [] := by
  have hat := h.threads i u th hu hi
  rw [hx] at hat
  generalize hbase : (Lineage.after schedule).base i = base at hat
  generalize hprog : (Prog.ret x : Core State) = p at hat
  cases hat with
  | idle =>
    obtain ⟨k, hk, -⟩ := u.prog_call id
    cases hprog.trans hk
  | read => cases hprog
  | wrote hne =>
    intro hnil
    obtain ⟨j, hj⟩ := List.exists_mem_of_ne_nil _ hne
    obtain ⟨v, hv⟩ : ∃ v, us[j]? = some v := ⟨_, List.getElem?_eq_getElem (h.known.now j hj)⟩
    have hmem : v ∈ chainOf us schedule :=
      List.mem_filterMap.mpr ⟨j, List.mem_reverse.mpr hj, hv⟩
    rw [hnil] at hmem
    contradiction

/-- Updates that have all returned have left in the file what they make one after the other, in some
order, if and only if the pid is kept. -/
theorem no_lost_update {id : String} {w : World} {s : State} {us : List Update}
    {schedule : List Nat} {c : UpdateConf} (hfile : w.file id = some s)
    (hrun : interleave id w us schedule = some c)
    (hdone : ∀ th ∈ c.threads, ∃ x, th.prog = .ret x) :
    (∃ order : List Update, order.Perm us ∧ c.world.file id = some (serial s order)) ↔
      KeepsPid s us (chainOf us schedule) := by
  have h : Builds id s us c (Lineage.after schedule) := (Builds.start hfile).run hrun
  have hcontent : c.world.file id = some (serial s (chainOf us schedule)) := by
    rw [h.file, value_serial, chainOf]
  have hsub : ∀ u ∈ chainOf us schedule, u ∈ us := by
    intro u hu
    obtain ⟨i, -, hi⟩ := List.mem_filterMap.mp hu
    exact List.mem_of_getElem? hi
  have hlast : us ≠ [] → chainOf us schedule ≠ [] := by
    intro hne
    obtain ⟨u, hu⟩ : ∃ u, us[0]? = some u :=
      ⟨_, List.getElem?_eq_getElem (List.length_pos_iff.mpr hne)⟩
    obtain ⟨th, hi⟩ : ∃ th, c.threads[0]? = some th := by
      refine ⟨_, List.getElem?_eq_getElem ?_⟩
      rw [h.length]
      exact List.length_pos_iff.mpr hne
    obtain ⟨x, hx⟩ := hdone th (List.mem_of_getElem? hi)
    exact h.chain_ne_nil hu hi hx
  rw [← serial_iff hsub hlast, hcontent]
  simp only [Option.some.injEq, eq_comm]

/-! ### The writes of the programs -/

/-- The state that a thread has read and has yet to write back. -/
def Phase.held : Phase → Option State
  | .create (.reread _ s) | .create (.ending _ s) => some s
  | .turn (.reread s) | .kill (.signalled s) => some s
  | _ => none

/-- Every write of the state file, but the first one of `create`, is an update of what the thread
has read. -/
theorem write_updates {id : String} {x : State} {c c' : SysConf} {a : SysAction}
    (hc : Conforming c) (hw : Writes id x c a) (hs : system.step c a = some c') :
    x.status = .creating ∧ x.pid = none ∨
      ∃ (i : Nat) (th : SysThread) (u : Update), c.threads[i]? = some th ∧
        ∃ found ∈ (phaseOf th).held, x = u.apply found := by
  obtain ⟨i, th, th', hi, -, hby, -⟩ := hw.writer hc hs
  generalize hg : phaseOf th = g at hby
  generalize kindOf th = k at hby
  have hupdate (u : Update) (found : State) (hheld : g.held = some found) (hx : x = u.apply found) :
      ∃ (i : Nat) (th : SysThread) (u : Update), c.threads[i]? = some th ∧
        ∃ found ∈ (phaseOf th).held, x = u.apply found := by
    refine ⟨i, th, u, hi, found, ?_, hx⟩
    rw [hg]
    exact hheld
  cases hby with
  | creating h hpid => exact .inl ⟨h, hpid⟩
  | @created _ _ pid s => exact .inr (hupdate (.created pid) s rfl rfl)
  | stopped => exact .inr (hupdate .stopped _ rfl rfl)
  | @turned t s =>
    refine .inr ?_
    cases t with
    | start | resume => exact hupdate .running s rfl rfl
    | pause => exact hupdate .paused s rfl rfl
  | killed => exact .inr (hupdate .killed _ rfl rfl)

/-! ### Two updates -/

def createdState : State := ⟨"1.0.2", "c", .created, some 7, "./rootfs", none⟩

/-- A host with a container that was created. -/
def createdHost : World :=
  { sampleHost with
    bundle := fun id => if id = "c" then some ⟨some (.state createdState), .absent⟩ else none }

def returned (th : Thread Sys CoreError State Update) : Bool :=
  match th.prog with
  | .ret _ => true
  | _ => false

theorem returned_ret {th : Thread Sys CoreError State Update} (h : returned th = true) :
    ∃ x, th.prog = .ret x := by
  unfold returned at h
  split at h
  · exact ⟨_, by assumption⟩
  · contradiction

/-- `start` and the end of the container are read together, and the end is written last. -/
theorem no_lost_update_sample : ∃ c : UpdateConf,
    interleave "c" createdHost [.running, .stopped] [0, 1, 0, 1] = some c ∧
      ∃ order : List Update, order.Perm [.running, .stopped] ∧
        c.world.file "c" = some (serial createdState order) := by
  have h : ∃ c ∈ interleave "c" createdHost [.running, .stopped] [0, 1, 0, 1],
      (∀ th ∈ c.threads, returned th = true) ∧
        KeepsPid createdState [.running, .stopped] (chainOf [.running, .stopped] [0, 1, 0, 1]) := by
    decide +kernel
  obtain ⟨c, hrun, hdone, hkeep⟩ := h
  exact ⟨c, hrun, (no_lost_update rfl hrun fun th hth => returned_ret (hdone th hth)).mpr hkeep⟩

/-- They are read together, and `start` writes last: the file says `running`, with the pid of a
process whose end was written before. -/
theorem stopped_lost : ∃ c : UpdateConf,
    interleave "c" createdHost [.running, .stopped] [0, 1, 1, 0] = some c ∧
      (∀ th ∈ c.threads, ∃ x, th.prog = .ret x) ∧
      c.world.file "c" = some { createdState with status := .running } ∧
      ¬∃ order : List Update, order.Perm [.running, .stopped] ∧
        c.world.file "c" = some (serial createdState order) := by
  have h : ∃ c ∈ interleave "c" createdHost [.running, .stopped] [0, 1, 1, 0],
      (∀ th ∈ c.threads, returned th = true) ∧
        c.world.file "c" = some { createdState with status := .running } := by
    decide +kernel
  obtain ⟨c, hrun, hdone, hfile⟩ := h
  refine ⟨c, hrun, fun th hth => returned_ret (hdone th hth), hfile, ?_⟩
  rintro ⟨order, hperm, heq⟩
  rw [hfile] at heq
  have hpid : (serial createdState order).pid = some 7 := by
    rw [← Option.some.inj heq]
    rfl
  -- one of the two sets the pid, and neither to 7
  rcases serial_pid createdState order with ⟨hnone, -⟩ | ⟨u, hu, hset⟩
  · have hstop := hnone .stopped (hperm.mem_iff.mpr (by simp))
    contradiction
  · rw [hpid] at hset
    have hmem := hperm.mem_iff.mp hu
    cases u <;> simp [Update.pid] at hmem hset

end Clonebox
