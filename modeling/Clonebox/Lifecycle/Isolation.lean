import Clonebox.System.OwnWrites
import Clonebox.System.StartSocket
import Clonebox.Lifecycle.Deletion
import Clonebox.Requests.Map

/-! # What containers do to each other

A program works on the bundle, the cgroup, the process, the map entry and the events of its own
container only. Whatever programs about other containers do meanwhile, and in whatever order, it
finds these as it left them. -/

namespace Clonebox
open Conc

variable {id : String} {c c' : SysConf} {a : SysAction} {w w' : World} {t : Nat} {op : Op} {ch : Choice}
  {r : op.Ret}

/-- The part of the world that belongs to a container. -/
structure Part where
  bundle : Option Bundle
  cgroup : Bool
  control : String → String → Option Content
  procs : List Proc
  entry : Option ContainerEntry
  events : List (Nat × Event)

def World.part (w : World) (id : String) : Part where
  bundle := w.bundle id
  cgroup := w.cgroup id
  control resource key := w.files (.inCgroup id resource key)
  procs := w.procs.filter (·.cgroup = some (.cgroup id))
  entry := w.entry id
  events := w.events.filter (·.2.id = id)

/-! ### Calls -/

/-- The container to whose part a call belongs. -/
def Op.container : Op → Option String
  | .write p _ | .createDirAll p | .removeDir p | .removeDirAll p | .bind p | .listen p | .accept4 p
  | .connect p | .close p => p.owner
  | .clone3 args => args.cgroup.bind Path.owner
  | .insertEntry id _ | .setEntry id _ | .removeStopped id | .pushWaiter id _ => some id
  | .writeEvent _ e => some e.id
  | _ => none

theorem Op.container_of_bundleOf (h : op.bundleOf = some id) : op.container = some id := by
  unfold Op.bundleOf at h
  split at h <;> first | exact h | cases h

theorem Op.container_of_cgroupOf (h : op.cgroupOf = some id) : op.container = some id := by
  unfold Op.cgroupOf at h
  split at h <;> first | exact h | cases h

/-- The container that a kind of program is about. -/
def Kind.container : Kind → Option String
  | .create id _ _ | .turn _ id | .kill id | .delete id _ | .exec id | .handler id _ => some id
  | .observer => none

theorem Kind.container_main {m : Main} (h : m.kind.container = some id) : m.container = some id := by
  cases m with
  | rpc req => cases req <;> first | exact h | cases h
  | _ => first | exact h | cases h

/-- A call belongs to the container of the program, unless it is one that the protocols do not
follow. -/
theorem Does.container {k : Kind} {g : Phase} (hd : Does k g op) (h : op.container = some id) :
    k.container = some id ∨ op.writesTo = some id := by
  cases hd with
  | quiet hq =>
    unfold Op.container at h
    split at h
    all_goals first
      | exact .inr h
      | (simp only [Op.quiet, h] at hq; cases hq)
      | cases h
  | looks hl =>
    unfold Op.container at h
    split at h
    all_goals first
      | exact .inr h
      | (simp only [Kind.looks, Op.quiet, h] at hl; cases hl)
      | cases h
  | @stoppedEvent i _ _ _ st =>
    rw [← h]
    exact .inl (congrArg some (stoppedEvent_id (e := Stage.event i .created) st).symm)
  | _ => first | exact .inl h | cases h

namespace World

theorem exec_control (h : w.exec t op ch = some (r, w')) (hop : op.container ≠ some id) :
    (w'.part id).control = (w.part id).control := by
  refine funext fun resource => funext fun key => exec_files h fun c hw => hop ?_
  rw [hw]
  rfl

/-- A process of the container is reaped by its own parent only. -/
theorem exec_own_procs (h : w.exec t op ch = some (r, w')) (hop : op.container ≠ some id)
    (hpids : (w.procs.map (·.pid)).Nodup)
    (hparent : ∀ p ∈ w.procs, p.cgroup = some (.cgroup id) → p.parent ≠ t) :
    (w'.part id).procs = (w.part id).procs := by
  rcases exec_process h with e | ⟨args, pid, hev, -, e⟩ | ⟨p, hp, st, hpar, -, e⟩
  · simp only [part, e]
  · have hcg : args.cgroup ≠ some (.cgroup id) := by
      intro hcg
      cases hev
      exact hop (by rw [Op.container, hcg]; rfl)
    simp only [part, e]
    exact List.filter_cons_of_neg (by simpa using hcg)
  · simp only [part, e, List.filter_filter]
    refine List.filter_congr fun q hq => ?_
    by_cases hcg : q.cgroup = some (.cgroup id)
    · have hne : q.pid ≠ p.pid := by
        intro he
        obtain rfl := List.inj_on_of_nodup_map hpids hq hp he
        exact hparent q hq hcg hpar
      simp [hcg, hne]
    · simp [hcg]

theorem exec_own_events (h : w.exec t op ch = some (r, w')) (hop : op.container ≠ some id) :
    (w'.part id).events = (w.part id).events := by
  cases exec_effect h with
  | @event sp e he =>
    have hne : e.id ≠ id := by
      intro hid
      subst he
      exact hop (congrArg some hid)
    simp [part, List.filter_append, hne]
  | files | gate | orphans | bundle | cgroup | procs | daemon => rfl

end World

/-! ### The environment and the end of a thread -/

/-- A step of the environment that does not concern the container. -/
def World.Env.Spares (id : String) (w : World) : World.Env → Prop
  | .exit pid _ => ∀ p ∈ w.procs, p.pid = pid → p.cgroup ≠ some (.cgroup id)
  | .reap pid => ∀ p ∈ w.procs, p.pid = pid → p.reapable = true → p.cgroup ≠ some (.cgroup id)
  | .deliver i => ∀ x ∈ w.events[i]?, x.2.id ≠ id
  | .daemonStop | .daemonStart _ => False

theorem filter_eraseIdx {β : Type} {p : β → Bool} {l : List β} {i : Nat}
    (h : ∀ x ∈ l[i]?, p x = false) : (l.eraseIdx i).filter p = l.filter p := by
  induction l generalizing i with
  | nil => rfl
  | cons x l ih =>
    cases i with
    | zero =>
      have hx : p x = false := h x rfl
      rw [List.eraseIdx_cons_zero, List.filter_cons_of_neg (by rw [hx]; decide)]
    | succ i =>
      rw [List.eraseIdx_cons_succ, List.filter_cons, List.filter_cons, ih h]

theorem World.env_part {e : Env} (h : w.env e = some w') (hsp : e.Spares id w) :
    w'.part id = w.part id := by
  cases e with
  | exit pid status =>
    cases h
    have hprocs : ((w.exitProc pid status).part id).procs = (w.part id).procs := by
      simp only [part, exitProc, List.filter_map]
      have hsame : ((fun p : Proc => decide (p.cgroup = some (.cgroup id))) ∘ fun p =>
          if p.pid = pid ∧ p.status = none then { p with status := some status } else p) =
          fun p => decide (p.cgroup = some (.cgroup id)) := by
        funext p
        simp only [Function.comp_apply]
        split <;> rfl
      rw [hsame]
      refine (List.map_congr_left fun p hp => ?_).trans (List.map_id' _)
      obtain ⟨hp, hcg⟩ := List.mem_filter.mp hp
      exact if_neg fun he => hsp p hp he.1 (of_decide_eq_true hcg)
    simp only [part] at hprocs ⊢
    rw [hprocs]
    rfl
  | reap pid =>
    cases h
    have hprocs : ((w.reapAdopted pid).part id).procs = (w.part id).procs := by
      simp only [part, reapAdopted, List.filter_filter]
      refine List.filter_congr fun p hp => ?_
      by_cases hcg : p.cgroup = some (.cgroup id)
      · have hnot : (p.pid = pid && p.reapable) = false := by
          by_cases hpid : p.pid = pid
          · cases hreap : p.reapable with
            | false => simp
            | true => exact (hsp p hp hpid hreap hcg).elim
          · simp [hpid]
        simp [hnot]
      · simp [hcg]
    simp only [part] at hprocs ⊢
    rw [hprocs]
    rfl
  | deliver i =>
    simp only [env] at h
    split at h
    · cases h
    · rename_i t e hi
      cases h
      have hne : e.id ≠ id := hsp (t, e) hi
      have hevents : (w.events.eraseIdx i).filter (fun x => decide (x.2.id = id)) =
          w.events.filter (fun x => decide (x.2.id = id)) := by
        refine filter_eraseIdx fun x hx => ?_
        cases hx.symm.trans hi
        exact decide_eq_false hne
      simp only [part, hevents, entry, Daemon.updateStatus_entry_ne _ _ hne.symm]
  | daemonStop | daemonStart => exact hsp.elim

theorem World.crash_part (h : (w.sock id).maker ≠ some t)
    (hparent : ∀ p ∈ w.procs, p.cgroup = some (.cgroup id) → p.parent ≠ t) :
    (w.crash t).part id = w.part id := by
  obtain ⟨f, hf, hid⟩ := crash_procs (w := w) (t := t)
  have hprocs : ((w.crash t).part id).procs = (w.part id).procs := by
    have hsame : (fun p : Proc => decide (p.cgroup = some (.cgroup id))) ∘ f =
        fun p => decide (p.cgroup = some (.cgroup id)) := by
      funext p
      rw [Function.comp_apply, (hid p).2.2.1]
    simp only [part, hf, List.filter_map, hsame]
    refine (List.map_congr_left fun p hp => ?_).trans (List.map_id' _)
    obtain ⟨hp, hcg⟩ := List.mem_filter.mp hp
    exact (hid p).2.2.2.2 (hparent p hp (of_decide_eq_true hcg))
  simp only [part] at hprocs ⊢
  rw [crash_bundle h, hprocs]
  rfl

/-! ### Runs -/

/-- A step of which the container is no part. -/
def Elsewhere (id : String) (c : SysConf) : SysAction → Prop
  | .call i _ | .crash i => ∀ th ∈ c.threads[i]?, th.main.container ≠ some id
  | .invoke _ => True
  | .env e => e.Spares id c.world

instance : Decidable (Elsewhere id c a) :=
  match a with
  | .call i _ | .crash i => inferInstanceAs (Decidable (∀ th ∈ c.threads[i]?, th.main.container ≠ some id))
  | .invoke _ => inferInstanceAs (Decidable True)
  | .env (.exit pid _) =>
    inferInstanceAs (Decidable (∀ p ∈ c.world.procs, p.pid = pid → p.cgroup ≠ some (.cgroup id)))
  | .env (.reap pid) => inferInstanceAs (Decidable
      (∀ p ∈ c.world.procs, p.pid = pid → p.reapable = true → p.cgroup ≠ some (.cgroup id)))
  | .env (.deliver i) => inferInstanceAs (Decidable (∀ x ∈ c.world.events[i]?, x.2.id ≠ id))
  | .env .daemonStop | .env (.daemonStart _) => inferInstanceAs (Decidable False)

/-- Who the processes and the start sockets belong to. -/
structure Grounded (c : SysConf) : Prop where
  procs : Placed c
  socks : SocksPlaced c
  pids : (c.world.procs.map (·.pid)).Nodup

theorem Grounded.step (h : Grounded c) (hc : Conforming c) (hs : system.step c a = some c') :
    Grounded c' where
  procs := h.procs.step hc hs
  socks := h.socks.step hc hs
  pids := pids_step h.pids hs

/-- A call belongs to the container of the program that makes it. -/
theorem event_container {i : Nat} {th : SysThread} (hc : Conforming c) (ht : Machine.Traced system c)
    (he : system.event c a = some (i, ⟨op, r⟩)) (hi : c.threads[i]? = some th)
    (hop : op.container = some id) : th.main.container = some id := by
  obtain ⟨th₁, k, ch, w, -, hi₁, -, hp, -, -⟩ := Machine.event_some he
  cases hi.symm.trans hi₁
  have hd : Does (kindOf th) (phaseOf th) op := Kind.may_does ((hc i th hi).may hp)
  rcases hd.container hop with hk | hw
  · exact Kind.container_main hk
  · exact (event_owns ht he hi).place id hw

theorem Elsewhere.event {i : Nat} (h : Elsewhere id c a) (hc : Conforming c)
    (ht : Machine.Traced system c)
    (he : system.event c a = some (i, ⟨op, r⟩)) : op.container ≠ some id := by
  intro hop
  obtain ⟨th, k, ch, w, rfl, hi, -, -, -, -⟩ := Machine.event_some he
  exact h th hi (event_container hc ht he hi hop)

theorem Elsewhere.entry (h : Elsewhere id c a) (hc : Conforming c) (ht : Machine.Traced system c)
    (hs : system.step c a = some c') : c'.world.entry id = c.world.entry id := by
  have hch : EntryChange id c a (c'.world.entry id) := step_entry hc hs
  generalize c'.world.entry id = x at hch
  cases hch with
  | same => rfl
  | inserted he | turned he | killed he | removed he | waits he => exact absurd rfl (h.event hc ht he)
  | delivered ha hev hid =>
    subst ha
    exact absurd hid (h _ hev)
  | stopped ha | recovered ha =>
    subst ha
    exact h.elim

/-- The parent of a process of the container is a thread of the container. -/
theorem Grounded.not_parent {i : Nat} {th : SysThread} (hg : Grounded c)
    (hi : c.threads[i]? = some th) (hne : th.main.container ≠ some id) :
    ∀ p ∈ c.world.procs, p.cgroup = some (.cgroup id) → p.parent ≠ i := by
  intro p hp hcg hpi
  obtain ⟨th₁, id₁, cp, sp, hi₁, hk, hcg₁⟩ := hg.procs p hp
  cases hcg.symm.trans hcg₁
  rw [hpi] at hi₁
  cases hi.symm.trans hi₁
  exact hne (Kind.container_main (by rw [show th.main.kind = _ from hk]; rfl))

theorem Elsewhere.part (h : Elsewhere id c a) (hg : Grounded c) (hc : Conforming c)
    (ht : Machine.Traced system c) (hs : system.step c a = some c') :
    c'.world.part id = c.world.part id := by
  have hentry := h.entry hc ht hs
  cases a with
  | call i ch =>
    obtain ⟨th, op, k, r, w, hi, hst, hop, hx, rfl⟩ := Machine.step_call hs
    have hne := h.event hc ht (event_call hi hst hop hx)
    have hbundle := World.exec_bundle hx fun hb => hne (Op.container_of_bundleOf hb)
    have hcgroup := World.exec_cgroup hx fun hb => hne (Op.container_of_cgroupOf hb)
    have hcontrol := World.exec_control hx hne
    have hprocs := World.exec_own_procs hx hne hg.pids (hg.not_parent hi (h th hi))
    have hevents := World.exec_own_events hx hne
    simp only [World.part, Part.mk.injEq] at hcontrol hprocs hevents ⊢
    exact ⟨hbundle, hcgroup, hcontrol, hprocs, hentry, hevents⟩
  | invoke m =>
    obtain ⟨-, rfl⟩ := Machine.step_invoke hs
    rfl
  | env e =>
    obtain ⟨w, hw, rfl⟩ := Machine.step_env hs
    exact World.env_part hw h
  | crash i =>
    obtain ⟨th, hi, rfl⟩ := Machine.step_crash hs
    refine World.crash_part (fun hm => ?_) (hg.not_parent hi (h th hi))
    obtain ⟨th₁, cp, sp, hi₁, hk⟩ := hg.socks id i hm
    cases hi.symm.trans hi₁
    exact h th hi (Kind.container_main (by rw [show th.main.kind = _ from hk]; rfl))

/-- A step about other containers, which go by names. -/
def OthersAct (id : String) (c : SysConf) (a : SysAction) : Prop := Elsewhere id c a ∧ ByName c a

instance : Decidable (OthersAct id c a) := inferInstanceAs (Decidable (Elsewhere id c a ∧ ByName c a))

end Clonebox
