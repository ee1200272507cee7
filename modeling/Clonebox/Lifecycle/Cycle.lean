import Clonebox.Lifecycle.Deletion
import Clonebox.Lib.Retire

/-! # One container after another

A cycle creates a container, starts it, kills it and deletes it. What earlier cycles have left are
threads that are over, so each cycle is looked at as if it were the first (`Machine.retire`). -/

namespace Clonebox
open Conc

variable {id : String} {n : Nat} {c c' : SysConf} {a : SysAction}

/-! ### Cycles -/

/-- A child whose process has ended makes no call. -/
def ChildLives (c : SysConf) : SysAction → Prop
  | .call i _ => ∀ th ∈ c.threads[i]?, phaseOf th = .create .child →
      ∃ p ∈ c.world.procs, th.parent = some p.parent ∧ p.status = none
  | _ => True

instance : Decidable (ChildLives c a) := by
  cases a <;> unfold ChildLives <;> infer_instance

def invokes : SysAction → Bool
  | .invoke _ => true
  | _ => false

/-- A step in which nothing is started. -/
structure Within (c : SysConf) (a : SysAction) : Prop where
  uninvoked : invokes a = false
  lives : ChildLives c a

instance : Decidable (Within c a) :=
  decidable_of_iff (invokes a = false ∧ ChildLives c a) ⟨fun h => ⟨h.1, h.2⟩, fun h => ⟨h.1, h.2⟩⟩

/-- Every program has come to its end, and there is no process. -/
structure AtRest (c : SysConf) : Prop where
  idle : ∀ th ∈ c.threads, ¬Running th
  gone : c.world.procs = []

instance : Decidable (AtRest c) :=
  decidable_of_iff ((∀ th ∈ c.threads, ¬Running th) ∧ c.world.procs = [])
    ⟨fun h => ⟨h.1, h.2⟩, fun h => ⟨h.1, h.2⟩⟩

/-- `m` is started, and nothing else. -/
def Proceeds (m : Main) (c c' : SysConf) : Prop :=
  ∃ c₁, system.step c (.invoke m) = some c₁ ∧ Steps system.step Within c₁ c'

/-- The thread has returned. -/
def Returned (i : Nat) (c : SysConf) : Prop :=
  ∃ th r, c.threads[i]? = some th ∧ th.prog = .ret r

/-- `create`, `start`, `kill` and `delete` one after another, from rest to rest, and all of them
with success. `create` has created the container when the supervisor has written `created`, and
returns when the container has ended. -/
inductive Cycle (id : String) (force : Bool) (c c' : SysConf) : Prop
  | intro {create start kill delete : Main} {c₁ c₂ c₃ : SysConf} {configPath : String}
    {sp : Option String} (rest : AtRest c) (hcreate : create.kind = .create id configPath sp)
    (hstart : start.kind = .turn .start id) (hkill : kill.kind = .kill id)
    (hdelete : delete.kind = .delete id force)
    (creates : Proceeds create c c₁)
    (created : ∃ th, c₁.threads[c.threads.length]? = some th ∧ PastCreated id (kindOf th) (phaseOf th))
    (starts : Proceeds start c₁ c₂) (started : Returned c₁.threads.length c₂)
    (kills : Proceeds kill c₂ c₃) (killed : Returned c₂.threads.length c₃)
    (deletes : Proceeds delete c₃ c') (deleted : Returned c₃.threads.length c')
    (ended : Returned c.threads.length c') (rest' : AtRest c')

/-- One cycle for each container and way to delete it in the list. -/
def Cycles : List (String × Bool) → SysConf → SysConf → Prop
  | [], c, c' => c = c'
  | (id, force) :: rest, c, c' => ∃ c₁, Cycle id force c c₁ ∧ Cycles rest c₁ c'

/-! ### The programs of a cycle -/

/-- The programs that are about the container, and those that have nothing to do with any. -/
def Serves (id : String) : Kind → Prop
  | .create i _ _ | .turn _ i | .kill i | .delete i _ => i = id
  | .observer => True
  | .exec _ | .handler _ _ => False

/-- They make and remove the bundle and the cgroup of the container only. -/
theorem Does.own {k : Kind} {g : Phase} {op : Op} (hd : Does k g op) (hk : Serves id k) :
    (∀ id', op.makesOrRemoves = some id' → id' = id) ∧ ∀ id', op.cgroupOf = some id' → id' = id := by
  constructor
  · intro id' hm
    unfold Op.makesOrRemoves at hm
    split at hm <;> cases hm
    · cases hd with
      | quiet hq => contradiction
      | makeBundle => exact hk
      | looks hl => contradiction
    · cases hd with
      | quiet hq => contradiction
      | childDir f => exact hk
      | looks hl => contradiction
    · cases hd with
      | quiet hq => contradiction
      | clearBundle => exact hk
      | looks hl => contradiction
  · intro id' hm
    unfold Op.cgroupOf at hm
    split at hm <;> cases hm
    · cases hd with
      | quiet hq => contradiction
      | makeCgroup => exact hk
      | looks hl => contradiction
    · cases hd with
      | quiet hq => contradiction
      | forceCgroup | clearCgroup => exact hk
      | looks hl => contradiction

/-- None of them starts a program or forks. -/
theorem Does.starts_none {k : Kind} {g : Phase} {op : Op} {r : op.Ret} (hd : Does k g op)
    (hk : Serves id k) : spawned op r = none ∧ op ≠ .fork := by
  constructor
  · cases hs : spawned op r with
    | none => rfl
    | some m =>
      unfold spawned at hs
      split at hs <;> cases hs
      cases hd with
      | quiet hq => contradiction
      | spawn => exact hk.elim
      | looks hl => contradiction
  · intro e
    subst e
    cases hd with
    | quiet hq => contradiction
    | fork => exact hk.elim
    | looks hl => contradiction

/-- All programs are those of the container. -/
def AllServe (id : String) (c : SysConf) : Prop :=
  ∀ (i : Nat) th, c.threads[i]? = some th → Serves id (kindOf th)

/-- A new thread is a program that is started from outside, or the child of a supervisor. -/
inductive Birth (id : String) (c : SysConf) (a : SysAction) (c' : SysConf) (th' : SysThread) : Prop
  | invoked {m : Main} (ha : a = .invoke m) (he : th' = .start Main.prog none m)
  | cloned {t : Nat} {th : SysThread} (ht : c.threads[t]? = some th) (hrun : Running th)
    (hg : phaseOf th = .create .grouped) (hm : th'.main = th.main) (hp : th'.parent = some t)
    (hph : phaseOf th' = .create .child)

theorem AllServe.birth (h : AllServe id c) (hc : Conforming c) (hs : system.step c a = some c')
    {i : Nat} {th' : SysThread} (hi : c'.threads[i]? = some th') (hnone : c.threads[i]? = none) :
    Birth id c a c' th' := by
  cases Machine.step_origin hs hi with
  | same hi₀ => cases hnone.symm.trans hi₀
  | stopped hi₀ e => cases hnone.symm.trans hi₀
  | answered ha hi₀ hst hp hx e => cases hnone.symm.trans hi₀
  | invoked ha hi₀ hm e => exact .invoked ha e
  | @forked t th op k r r' ch ha ht hst hp hx hf hi₀ e =>
    have hd : Does (kindOf th) (phaseOf th) op := Kind.may_does ((hc t th ht).may hp)
    have hne := (hd.starts_none (r := r) (h t th ht)).2
    cases step_change hc hs hi with
    | kept hi₁ | answered _ hi₁ => cases hnone.symm.trans hi₁
    | started _ he hph =>
      rw [e] at he
      have htr := congrArg Thread.trace he
      simp at htr
    | @forked t' th₁ ht₁ _ hg hm hph =>
      have hg' : phaseOf th = .create .grouped := by
        generalize phaseOf th = g at hd
        cases op <;> simp only [system, forkAnswer, reduceCtorEq] at hf
        case clone3 args =>
          generalize kindOf th = k at hd
          cases hd with
          | quiet hq => contradiction
          | clone => rfl
          | looks hl => contradiction
        case fork => exact (hne rfl).elim
      exact .cloned ht ⟨hst, op, k, hp⟩ hg' (by rw [e]; rfl) (by rw [e]) hph
    | @copied t' th₁ g ht₁ _ hm hg hph =>
      obtain ⟨id', hk⟩ := exec_phase (hc t' th₁ ht₁) hg
      have hno := h t' th₁ ht₁
      rw [hk] at hno
      exact hno.elim
  | @spawned t th op k r m ch ha ht hst hp hx hsp hi₀ e =>
    have hd : Does (kindOf th) (phaseOf th) op := Kind.may_does ((hc t th ht).may hp)
    cases hsp.symm.trans (hd.starts_none (h t th ht)).1

/-! ### Before the check of the bundle -/

/-- Only the supervisor runs, it has not checked the bundle yet, and the bundle is as it was. -/
structure Unchecked (id : String) (n : Nat) (there : Bool) (c : SysConf) : Prop where
  idle : ∀ (i : Nat) th, c.threads[i]? = some th → i ≠ n → ¬Running th
  start : ∃ th configPath sp, c.threads[n]? = some th ∧ kindOf th = .create id configPath sp ∧
    phaseOf th = .create .start
  bundle : (c.world.bundle id).isSome = there

/-- The calls of a supervisor that has not checked the bundle. -/
theorem Does.before_check {configPath : String} {sp : Option String} {op : Op}
    (hd : Does (.create id configPath sp) (.create .start) op) :
    op.quiet = true ∨ op = .exists (.bundle id) := by
  cases hd with
  | quiet hq => exact .inl hq
  | probe => exact .inr rfl
  | failConnect h | failEvent h | close h => contradiction

theorem Unchecked.step {there : Bool} (h : Unchecked id n there c) (hc : Conforming c)
    (hserve : AllServe id c) (hok : Within c a) (hs : system.step c a = some c') :
    Unchecked id n there c' ∨ there = false ∨
      ∃ th, c'.threads[n]? = some th ∧ AtStage id (fun st => st = .refused) (kindOf th) (phaseOf th) := by
  obtain ⟨sup, cp, sp, hn, hk, hg⟩ := h.start
  have hrunner {i : Nat} {th : SysThread} (hi : c.threads[i]? = some th) (hrun : Running th) :
      i = n ∧ th = sup := by
    rcases eq_or_ne i n with rfl | hne
    · exact ⟨rfl, Option.some.inj (hi.symm.trans hn)⟩
    · exact (h.idle i th hi hne hrun).elim
  -- nobody joins in
  have hidle : ∀ (i : Nat) th', c'.threads[i]? = some th' → i ≠ n → ¬Running th' := by
    intro i th' hi hne hrun
    cases hc₀ : c.threads[i]? with
    | some th =>
      cases step_change hc hs hi with
      | kept hi₀ _ _ _ _ _ hr => exact h.idle i _ hi₀ hne (hr hrun)
      | answered _ hi₀ hst hop => exact h.idle i _ hi₀ hne ⟨hst, _, _, hop⟩
      | started hi₀ | forked _ hi₀ | copied _ hi₀ => cases hc₀.symm.trans hi₀
    | none =>
      cases hserve.birth hc hs hi hc₀ with
      | invoked ha =>
        have hno := hok.uninvoked
        rw [ha] at hno
        contradiction
      | cloned ht hrun hgrouped =>
        obtain ⟨-, rfl⟩ := hrunner ht hrun
        cases hg.symm.trans hgrouped
  obtain ⟨sup', hn', hkept⟩ := Machine.step_persists hs hn
  have hsame (htr : sup'.trace = sup.trace) :
      (c'.world.bundle id).isSome = (c.world.bundle id).isSome := by
    rcases step_world hs with ⟨i, op, r, ch, he, hx⟩ | e | ⟨e, -, he⟩ | ⟨t, -, e⟩
    · -- only the supervisor could have made a call, and it has made none
      obtain ⟨th, k, ch', hi, hrun, -, -, hi', -⟩ := event_thread hc he hs
      obtain ⟨rfl, rfl⟩ := hrunner hi hrun
      cases hn'.symm.trans hi'
      simp at htr
    · rw [e]
    · rw [World.env_bundle he]
    · rw [e, World.crash_isSome]
  rcases hkept with rfl | rfl | ⟨op, k, r, ch, rfl, hst, hop, hx, rfl⟩
  · exact .inl ⟨hidle, ⟨_, cp, sp, hn', hk, hg⟩, (hsame rfl).trans h.bundle⟩
  · exact .inl ⟨hidle, ⟨_, cp, sp, hn', hk, by simpa [phaseOf] using hg⟩, (hsame rfl).trans h.bundle⟩
  · have hd : Does (kindOf sup) (phaseOf sup) op := Kind.may_does ((hc n sup hn).may hop)
    have hph : phaseOf (sup.answer op k r) = (kindOf sup).next (phaseOf sup) op r :=
      Machine.Contract.phase_answer
    rw [hk, hg] at hd hph
    rcases hd.before_check with hq | rfl
    · have hm : op.makesOrRemoves ≠ some id := by
        intro e
        unfold Op.makesOrRemoves at e
        split at e <;> contradiction
      refine .inl ⟨hidle, ⟨_, cp, sp, hn', hk, ?_⟩, (World.exec_isSome hx hm).trans h.bundle⟩
      rw [hph, Kind.next_quiet hq]
    · obtain ⟨hr, -⟩ := World.exec_exists hx
      rw [h.bundle] at hr
      cases r with
      | false => exact .inr (.inl hr.symm)
      | true => exact .inr (.inr ⟨_, hn', cp, sp, .refused, hk, hph, rfl⟩)

/-! ### Inside a cycle -/

/-- A step of the rest of a cycle: `start`, `kill` or `delete` may be started. -/
structure Continues (id : String) (c : SysConf) (a : SysAction) : Prop where
  lives : ChildLives c a
  started : ∀ m, a = .invoke m →
    m.kind = .turn .start id ∨ m.kind = .kill id ∨ ∃ force, m.kind = .delete id force

theorem Within.continues (h : Within c a) : Continues id c a where
  lives := h.lives
  started := by
    intro m e
    have hno := h.uninvoked
    rw [e] at hno
    contradiction

theorem AllServe.step (h : AllServe id c) (hc : Conforming c) (hok : Continues id c a)
    (hs : system.step c a = some c') : AllServe id c' := by
  intro i th' hi
  cases hi₀ : c.threads[i]? with
  | some th =>
    obtain ⟨th₁, hi₁, hm, -⟩ := step_kept hs hi₀
    cases hi.symm.trans hi₁
    rw [kindOf, hm]
    exact h i th hi₀
  | none =>
    cases h.birth hc hs hi hi₀ with
    | @invoked m ha he =>
      rw [he]
      show Serves id m.kind
      rcases hok.started m ha with e | e | ⟨force, e⟩
      all_goals
        rw [e]
        exact rfl
    | @cloned t th ht hrun hg hm hp hph =>
      rw [kindOf, hm]
      exact h t th ht

/-- A supervisor that has written `created` has found no bundle. -/
theorem Unchecked.absent {there : Bool} (h : Unchecked id n there c) (hc : Conforming c)
    (hserve : AllServe id c) (hrun : Steps system.step Within c c')
    (hpast : ∃ th, c'.threads[n]? = some th ∧ PastCreated id (kindOf th) (phaseOf th)) :
    there = false := by
  obtain ⟨-, -, hend⟩ := run_invariant (I := fun c => AllServe id c ∧ (Unchecked id n there c ∨
      there = false ∨ ∃ th, c.threads[n]? = some th ∧
        AtStage id (fun st => st = .refused) (kindOf th) (phaseOf th))) hrun hc ⟨hserve, .inl h⟩
    fun c a c' hc h hok hs => by
      obtain ⟨hserve, h | h | ⟨th, hi, hst⟩⟩ := h
      · exact ⟨hserve.step hc hok.continues hs, h.step hc hserve hok hs⟩
      · exact ⟨hserve.step hc hok.continues hs, .inr (.inl h)⟩
      · refine ⟨hserve.step hc hok.continues hs, .inr (.inr ?_)⟩
        obtain ⟨th', hi', -, hst'⟩ := step_keeps (fun k g op r hd ha h => AtStage.next hd h
          fun g g' hm hg => by
            obtain rfl : g = .refused := of_decide_eq_true hg
            cases hm) hc hs hi hst
        exact ⟨th', hi', hst'⟩
  obtain ⟨th, hi, -, -, st, -, hg, hst⟩ := hpast
  rcases hend with h | h | ⟨th', hi', -, -, st', -, hg', hst'⟩
  · obtain ⟨th', -, -, hi', -, hg'⟩ := h.start
    cases hi.symm.trans hi'
    cases hg.symm.trans hg'
    contradiction
  · exact h
  · cases hi.symm.trans hi'
    cases hg.symm.trans hg'
    obtain rfl : st = .refused := of_decide_eq_true hst'
    contradiction

/-- The supervisor is the thread `n`; every other run of `create` is its child. -/
structure Alike (id : String) (n : Nat) (c : SysConf) : Prop where
  serve : AllServe id c
  sole : ∀ (i : Nat) th configPath sp, c.threads[i]? = some th → kindOf th = .create id configPath sp →
    i = n ∨ phaseOf th = .create .child
  line : ∀ (i : Nat) th, c.threads[i]? = some th → phaseOf th = .create .child →
    ∃ (t : Nat) (sup : SysThread) (configPath : String) (sp : Option String), th.parent = some t ∧
      c.threads[t]? = some sup ∧ kindOf sup = .create id configPath sp

/-- A run of `create` is one for the container. -/
theorem AllServe.creates (h : AllServe id c) (hc : Conforming c) {i : Nat} {th : SysThread} {st : Stage}
    (hi : c.threads[i]? = some th) (hg : phaseOf th = .create st) :
    ∃ configPath sp, kindOf th = .create id configPath sp := by
  have hhas := phase_has (hc i th hi)
  have hserve := h i th hi
  rw [hg] at hhas
  cases hk : kindOf th with
  | create id' cp sp =>
    rw [hk] at hserve
    obtain rfl : id' = id := hserve
    exact ⟨cp, sp, rfl⟩
  | turn | kill | delete | exec | handler | observer => simp [hk, Kind.has] at hhas

theorem child_stays (hc : Conforming c) (hs : system.step c a = some c') {i : Nat} {th th' : SysThread}
    (hi : c.threads[i]? = some th) (hi' : c'.threads[i]? = some th')
    (hg : phaseOf th = .create .child) : phaseOf th' = .create .child := by
  obtain ⟨th₁, hi₁, -, hg₁⟩ := step_keeps (P := fun _ g => g = .create .child)
    (fun k g op r hd _ hg => by
      subst hg
      cases hd with
      | quiet hq => exact Kind.next_quiet hq r
      | failConnect | failEvent | childDir => rfl
      | close h => contradiction) hc hs hi hg
  cases hi'.symm.trans hi₁
  exact hg₁

theorem Alike.step (h : Alike id n c) (hc : Conforming c) (hok : Continues id c a)
    (hs : system.step c a = some c') : Alike id n c' where
  serve := h.serve.step hc hok hs
  sole := by
    intro i th' cp sp hi hk
    cases hi₀ : c.threads[i]? with
    | some th =>
      obtain ⟨th₁, hi₁, hm, -⟩ := step_kept hs hi₀
      cases hi.symm.trans hi₁
      rw [kindOf, hm] at hk
      exact (h.sole i th cp sp hi₀ hk).imp_right (child_stays hc hs hi₀ hi)
    | none =>
      cases h.serve.birth hc hs hi hi₀ with
      | @invoked m ha he =>
        have hkind : m.kind = .create id cp sp := by
          rw [he] at hk
          exact hk
        rcases hok.started m ha with e | e | ⟨force, e⟩
        all_goals cases e.symm.trans hkind
      | cloned ht hrun hg hm hp hph => exact .inr hph
  line := by
    intro i th' hi hg
    have hkeep {t : Nat} {sup : SysThread} {cp : String} {sp : Option String}
        (ht : c.threads[t]? = some sup) (hk : kindOf sup = .create id cp sp) :
        ∃ sup' cp sp, c'.threads[t]? = some sup' ∧ kindOf sup' = .create id cp sp := by
      obtain ⟨sup', ht', hm, -⟩ := step_kept hs ht
      exact ⟨sup', cp, sp, ht', by rw [kindOf, hm]; exact hk⟩
    cases hi₀ : c.threads[i]? with
    | some th =>
      obtain ⟨th₁, hi₁, hm, hp, -⟩ := step_kept hs hi₀
      cases hi.symm.trans hi₁
      obtain ⟨cp, sp, hk⟩ := (h.serve.step hc hok hs).creates (hc.step hs) hi hg
      -- a thread becomes a child only by being one from the start
      have hold : phaseOf th = .create .child := by
        have hchild : AtStage id Stage.isChild (kindOf th') (phaseOf th') := ⟨cp, sp, _, hk, hg, rfl⟩
        cases step_change hc hs hi with
        | kept hi₂ _ _ _ _ hph =>
          cases hi₀.symm.trans hi₂
          exact hph.symm.trans hg
        | @answered th₂ op k r ch ha hi₂ hst hop hx hd he hph =>
          cases hi₀.symm.trans hi₂
          have hkind : kindOf th' = kindOf th := by rw [he]; rfl
          rw [hkind, hph] at hchild
          rcases AtStage.entry hd hchild with ⟨_, _, st, -, hg', hst'⟩ | ⟨_, _, st, st', -, -, -, hm', hst'⟩
          · cases st <;> first | exact hg' | contradiction
          · cases hm' with
            | child => exact (World.not_answer_zero ⟨_, _, _, _, hx⟩).elim
            | _ => contradiction
        | started hi₂ | forked _ hi₂ | copied _ hi₂ => cases hi₀.symm.trans hi₂
      obtain ⟨t, sup, cp, sp, hpar, ht, hk⟩ := h.line i th hi₀ hold
      obtain ⟨sup', cp', sp', ht', hk'⟩ := hkeep ht hk
      exact ⟨t, sup', cp', sp', hp.trans hpar, ht', hk'⟩
    | none =>
      cases h.serve.birth hc hs hi hi₀ with
      | @invoked m ha he =>
        rw [he, phaseOf, Machine.Contract.phase_start] at hg
        change m.kind.init = _ at hg
        cases hk : m.kind <;> rw [hk] at hg <;> cases hg
      | @cloned t th ht hrun hgrouped hm hp hph =>
        obtain ⟨cp, sp, hk⟩ := h.serve.creates hc ht hgrouped
        obtain ⟨sup', cp', sp', ht', hk'⟩ := hkeep ht hk
        exact ⟨t, sup', cp', sp', hp, ht', hk'⟩

theorem Alike.one (h : Alike id n c) : OneSupervisor id c := by
  refine List.pairwise_iff_getElem.mpr fun i j hi hj hlt hboth => ?_
  have hat {i : Nat} (hi : i < c.threads.length)
      (hsup : Supervises id (kindOf c.threads[i]) (phaseOf c.threads[i])) : i = n := by
    obtain ⟨cp, sp, st, hk, hg, hst⟩ := hsup
    rcases h.sole i _ cp sp (List.getElem?_eq_getElem hi) hk with e | e
    · exact e
    · cases hg.symm.trans e
      contradiction
  have hi' := hat hi hboth.1
  have hj' := hat hj hboth.2
  omega

/-! ### The deletion of a cycle -/

/-- The bundle is removed. -/
def DeleteStage.emptied : DeleteStage → Bool
  | .cleared | .settled => true
  | _ => false

/-- A deletion comes past the bundle only by removing it. -/
theorem Deletes.empty {w w' : World} {t : Nat} {ch : Choice} {k : Kind} {g : Phase} {op : Op}
    {r : op.Ret} (hd : Does k g op) (hx : w.exec t op ch = some (r, w'))
    (h : Deletes id DeleteStage.emptied k (k.next g op r)) : Deletes id DeleteStage.emptied k g ∨
      w'.bundle id = none := by
  obtain ⟨rfl, st, hg, hst⟩ := h
  cases hd with
  | quiet hq => exact .inl ⟨rfl, st, (Kind.next_quiet hq r).symm.trans hg, hst⟩
  | checkDelete =>
    rcases delete_check r with e | ⟨e, -⟩
    · cases e.symm.trans hg
      contradiction
    · cases e.symm.trans hg
      contradiction
  | clearCgroup =>
    cases r with
    | ok _ =>
      cases hg
      contradiction
    | error e =>
      cases hg
      contradiction
  | clearBundle =>
    rcases World.exec_removeDirAll hx with ⟨-, hnone⟩ | ⟨e, rfl, -⟩
    · exact .inr hnone
    · cases hg
      contradiction
  | settleDelete => exact .inl ⟨rfl, _, rfl, rfl⟩

/-- What holds from the start of the supervisor to the end of the cycle, which has begun in `w`. -/
structure InCycle (id : String) (n : Nat) (w : World) (c : SysConf) : Prop extends Alike id n c where
  cleared : Cleared id c
  emptied : ∀ (i : Nat) th, c.threads[i]? = some th →
    Deletes id DeleteStage.emptied (kindOf th) (phaseOf th) → c.world.bundle id = none
  others : ∀ id' ≠ id, (c.world.bundle id').isSome = (w.bundle id').isSome ∧
    c.world.cgroup id' = w.cgroup id'

namespace InCycle

variable {w : World}

/-- Nobody makes the bundle again: the supervisor is past that, and its child is dead. -/
theorem stays_gone (h : InCycle id n w c) (hc : Conforming c) (hlives : ChildLives c a)
    (hs : system.step c a = some c') (hgone : c.world.bundle id = none) (hpast : HasPast id c)
    (hvac : Vacated id c.world) : c'.world.bundle id = none := by
  have hnone {w' : World} (hsame : (w'.bundle id).isSome = (c.world.bundle id).isSome) :
      w'.bundle id = none := by
    rw [hgone] at hsame
    exact Option.isSome_eq_false_iff.mp hsame |> Option.isNone_iff_eq_none.mp
  rcases step_world hs with ⟨i, op, r, ch, he, hx⟩ | e | ⟨e, -, he⟩ | ⟨t, -, e⟩
  · rcases eq_or_ne op.makesOrRemoves (some id) with hm | hm
    · cases hclear : clears id ⟨op, r⟩ with
      | true =>
        unfold Op.makesOrRemoves at hm
        split at hm <;> cases hm
        · contradiction
        · contradiction
        · rcases World.exec_removeDirAll hx with ⟨-, hb⟩ | ⟨e, -, hb, -⟩
          · exact hb
          · exact hnone hb
      | false =>
        obtain ⟨th, k, ch', hi, hrun, hd, -⟩ := event_thread hc he hs
        rcases hd.makes hm hclear with ⟨-, cp, sp, hk, hg⟩ | ⟨cp, sp, st, hk, hg, hst⟩
        · obtain ⟨j, sup, hj, hsup⟩ := hpast
          obtain rfl := h.cleared.one.eq hi hj ⟨cp, sp, _, hk, hg, rfl⟩ (PastCreated.supervises hsup)
          cases hi.symm.trans hj
          obtain ⟨_, _, st, -, hg', hst⟩ := hsup
          cases hg.symm.trans hg'
          contradiction
        · obtain rfl : st = .child := by
            cases st <;> first | rfl | contradiction
          obtain ⟨th₁, k₁, ch₁, w₁, rfl, hi₁, -⟩ := Machine.event_some he
          cases hi.symm.trans hi₁
          obtain ⟨p, hp, hpar, halive⟩ := hlives th hi hg
          obtain ⟨t, sup, cp', sp', hpar', ht, hk'⟩ := h.line i th hi hg
          obtain ⟨th₂, id₂, cp₂, sp₂, ht₂, hk₂, hcg⟩ := h.cleared.placed p hp
          obtain rfl : p.parent = t := Option.some.inj (hpar.symm.trans hpar')
          cases ht.symm.trans ht₂
          cases hk'.symm.trans hk₂
          exact (hvac.empty p hp hcg halive).elim
    · exact hnone (World.exec_isSome hx hm)
  · rw [e]
    exact hgone
  · rw [World.env_bundle he]
    exact hgone
  · rw [e]
    exact hnone World.crash_isSome

theorem emptied_step (h : InCycle id n w c) (hc : Conforming c) (hlives : ChildLives c a)
    (hs : system.step c a = some c') (i : Nat) (th' : SysThread) (hi : c'.threads[i]? = some th')
    (he : Deletes id DeleteStage.emptied (kindOf th') (phaseOf th')) : c'.world.bundle id = none := by
  have hold {th : SysThread} (hi₀ : c.threads[i]? = some th)
      (he : Deletes id DeleteStage.emptied (kindOf th) (phaseOf th)) : c'.world.bundle id = none := by
    refine h.stays_gone hc hlives hs (h.emptied i th hi₀ he)
      (h.cleared.begun i th hi₀ (he.mono fun st hst => ?_))
      (h.cleared.vacated i th hi₀ (he.mono fun st hst => ?_))
    all_goals cases st <;> first | rfl | contradiction
  rcases step_enters (Deletes.not_init rfl) Deletes.not_copied hc hs hi he with
    ⟨th, hi₀, he⟩ | ⟨th, op, r, ch, hi₀, -, hx, hd, he⟩
  · exact hold hi₀ he
  · rcases Deletes.empty hd hx he with he | he
    · exact hold hi₀ he
    · exact he

/-- The bundles and cgroups of other containers are left alone. -/
theorem others_step (h : AllServe id c) (hc : Conforming c) (hs : system.step c a = some c')
    {id' : String} (hne : id' ≠ id) : (c'.world.bundle id').isSome = (c.world.bundle id').isSome ∧
      c'.world.cgroup id' = c.world.cgroup id' := by
  rcases step_world hs with ⟨i, op, r, ch, he, hx⟩ | e | ⟨e, -, he⟩ | ⟨t, -, e⟩
  · obtain ⟨th, k, ch', hi, -, hd, -⟩ := event_thread hc he hs
    obtain ⟨hmakes, hcgroup⟩ := hd.own (h i th hi)
    exact ⟨World.exec_isSome hx fun e => hne (hmakes id' e),
      World.exec_cgroup hx fun e => hne (hcgroup id' e)⟩
  · rw [e]
    exact ⟨rfl, rfl⟩
  · rw [World.env_bundle he, World.env_cgroup he]
    exact ⟨rfl, rfl⟩
  · rw [e]
    exact ⟨World.crash_isSome, rfl⟩

theorem step (h : InCycle id n w c) (hc : Conforming c) (hok : Continues id c a)
    (hs : system.step c a = some c') : InCycle id n w c' where
  toAlike := h.toAlike.step hc hok hs
  cleared := by
    refine h.cleared.step hc (fun c'' hs'' => ?_) hs
    cases hs.symm.trans hs''
    exact (h.toAlike.step hc hok hs).one
  emptied := h.emptied_step hc hok.lives hs
  others := by
    intro id' hne
    obtain ⟨hb, hcg⟩ := others_step h.serve hc hs hne
    obtain ⟨hb₀, hcg₀⟩ := h.others id' hne
    exact ⟨hb.trans hb₀, hcg.trans hcg₀⟩

/-- A program of the cycle is run. -/
theorem proceeds (h : InCycle id n w c) (hc : Conforming c) {m : Main}
    (hm : m.kind = .turn .start id ∨ m.kind = .kill id ∨ ∃ force, m.kind = .delete id force)
    (hrun : Proceeds m c c') : Conforming c' ∧ InCycle id n w c' := by
  obtain ⟨c₁, hs, hsteps⟩ := hrun
  have hok : Continues id c (.invoke m) := by
    refine ⟨trivial, fun m' e => ?_⟩
    cases e
    exact hm
  exact run_invariant hsteps (hc.step hs) (h.step hc hok hs)
    fun c a c' hc h hok hs => h.step hc hok.continues hs

end InCycle

/-! ### What a cycle leaves -/

/-- The first `n` threads are over. -/
structure Past (n : Nat) (c : SysConf) : Prop where
  length : n ≤ c.threads.length
  idle : ∀ (i : Nat) th, i < n → c.threads[i]? = some th → th.Idle

theorem AtRest.past (h : AtRest c) : Past c.threads.length c where
  length := Nat.le_refl _
  idle := by
    intro i th _ hi hst op k hp
    exact h.idle th (List.mem_of_getElem? hi) ⟨hst, op, k, hp⟩

theorem Past.step (h : Past n c) (hs : system.step c a = some c') : Past n c' where
  length := by
    refine Nat.le_of_not_lt fun hlt => ?_
    have hlen : c'.threads.length < c.threads.length := Nat.lt_of_lt_of_le hlt h.length
    obtain ⟨th', hi', -⟩ := Machine.step_persists hs (List.getElem?_eq_getElem hlen)
    exact Nat.lt_irrefl _ (List.getElem?_eq_some_iff.mp hi').1
  idle := by
    intro i th' hlt hi
    have hlen : i < c.threads.length := Nat.lt_of_lt_of_le hlt h.length
    obtain ⟨th₁, hi₁, hidle, -⟩ := Machine.step_idle hs (List.getElem?_eq_getElem hlen)
      (h.idle i _ hlt (List.getElem?_eq_getElem hlen))
    cases hi.symm.trans hi₁
    exact hidle

/-- Without what earlier cycles have left. -/
abbrev renewed (n : Nat) (c : SysConf) : SysConf := system.retire (.state "") n c

theorem renewed_new {i : Nat} {th : SysThread} (h : n ≤ i) (hi : c.threads[i]? = some th) :
    (renewed n c).threads[i]? = some th := (Machine.retire_new h).trans hi

theorem Within.renewed (h : Within c a) : Within (renewed n c) a where
  uninvoked := h.uninvoked
  lives := by
    cases a with
    | call i ch =>
      intro th hi hg
      rcases Nat.lt_or_ge i n with hlt | hge
      · rw [Machine.retire_old hlt] at hi
        obtain ⟨-, -, rfl⟩ := Option.map_eq_some_iff.mp hi
        cases hg
      · rw [Machine.retire_new hge] at hi
        exact h.lives th hi hg
    | invoke | env | crash => trivial

theorem Past.steps (h : Past n c) (hrun : Steps system.step Within c c') :
    Past n c' ∧ Steps system.step Within (renewed n c) (renewed n c') := by
  induction hrun with
  | refl => exact ⟨h, .refl⟩
  | tail _ hlast ih =>
    obtain ⟨a, hok, hs⟩ := hlast
    obtain ⟨hpast, hrun⟩ := ih
    exact ⟨hpast.step hs, hrun.tail hok.renewed (Machine.step_retire hpast.length hpast.idle hs)⟩

theorem Past.proceeds (h : Past n c) {m : Main} (hrun : Proceeds m c c') :
    Past n c' ∧ Proceeds m (renewed n c) (renewed n c') := by
  obtain ⟨c₁, hs, hsteps⟩ := hrun
  obtain ⟨hpast, hsteps'⟩ := (h.step hs).steps hsteps
  exact ⟨hpast, _, Machine.step_retire h.length h.idle hs, hsteps'⟩

theorem Conforming.renewed (hc : Conforming c) : Conforming (renewed n c) := by
  intro i th hi
  rcases Nat.lt_or_ge i n with hlt | hge
  · rw [Machine.retire_old hlt] at hi
    obtain ⟨-, -, rfl⟩ := Option.map_eq_some_iff.mp hi
    exact (Machine.Contract.Conforms.start (conforms (.state ""))).stop
  · rw [Machine.retire_new hge] at hi
    exact hc i th hi

/-- A thread stays what it is over a run. -/
theorem run_main {ok : SysConf → SysAction → Prop} (hrun : Steps system.step ok c c') {i : Nat}
    {th : SysThread} (hi : c.threads[i]? = some th) :
    ∃ th', c'.threads[i]? = some th' ∧ th'.main = th.main := by
  refine hrun.invariant (I := fun c' => ∃ th', c'.threads[i]? = some th' ∧ th'.main = th.main)
    (fun c₁ a c₂ h _ hs => ?_) ⟨th, hi, rfl⟩
  obtain ⟨th₁, hi₁, hm₁⟩ := h
  obtain ⟨th₂, hi₂, hm₂, -⟩ := step_kept hs hi₁
  exact ⟨th₂, hi₂, hm₂.trans hm₁⟩

/-- The program that was started is the next thread. -/
theorem Proceeds.main {m : Main} (h : Proceeds m c c') :
    ∃ th, c'.threads[c.threads.length]? = some th ∧ th.main = m := by
  obtain ⟨c₁, hs, hsteps⟩ := h
  obtain ⟨-, rfl⟩ := Machine.step_invoke hs
  exact run_main hsteps (List.getElem?_concat_length ..)

/-- The threads of a configuration at rest in which a program is started. -/
theorem renewed_invoked {m : Main} {i : Nat} {th : SysThread} (hs : system.step c (.invoke m) = some c')
    (hi : (renewed c.threads.length c').threads[i]? = some th) :
    th = .spent Main.prog (.state "") ∨ i = c.threads.length ∧ th = .start Main.prog none m := by
  obtain ⟨-, rfl⟩ := Machine.step_invoke hs
  rcases Nat.lt_or_ge i c.threads.length with hlt | hge
  · rw [Machine.retire_old hlt] at hi
    obtain ⟨-, -, rfl⟩ := Option.map_eq_some_iff.mp hi
    exact .inl rfl
  · rw [Machine.retire_new hge, List.getElem?_append_right hge] at hi
    obtain ⟨hlt, rfl⟩ := List.getElem?_eq_some_iff.mp hi
    have heq : i = c.threads.length := by
      rw [List.length_singleton] at hlt
      omega
    exact .inr ⟨heq, by simp [heq, system]⟩

/-- Where the supervisor is started, no other thread is in a phase of interest. -/
theorem inCycle_start {m : Main} {configPath : String} {sp : Option String} (hrest : AtRest c)
    (hm : m.kind = .create id configPath sp) (hs : system.step c (.invoke m) = some c')
    (hnone : c.world.bundle id = none) :
    InCycle id c.threads.length c.world (renewed c.threads.length c') := by
  have hworld : c'.world = c.world := by
    obtain ⟨-, rfl⟩ := Machine.step_invoke hs
    rfl
  have hthreads {P : Kind → Phase → Prop} (hspent : ¬P .observer .observer)
      (hstart : ¬P (.create id configPath sp) (.create .start)) {i : Nat} {th : SysThread}
      (hi : (renewed c.threads.length c').threads[i]? = some th) : ¬P (kindOf th) (phaseOf th) := by
    rcases renewed_invoked hs hi with rfl | ⟨-, rfl⟩
    · exact hspent
    · show ¬P m.kind m.kind.init
      rw [hm]
      exact hstart
  have halike : Alike id c.threads.length (renewed c.threads.length c') := by
    refine ⟨fun i th hi => ?_, fun i th cp sp' hi hk => ?_, fun i th hi hg => ?_⟩
    · rcases renewed_invoked hs hi with rfl | ⟨-, rfl⟩
      · trivial
      · show Serves id m.kind
        rw [hm]
        rfl
    · rcases renewed_invoked hs hi with rfl | ⟨e, -⟩
      · cases hk
      · exact .inl e
    · exact (hthreads (P := fun _ g => g = .create .child) (fun h => by cases h) (fun h => by cases h) hi hg).elim
  have hfile : c.world.file id = none := by rw [World.file, hnone]; rfl
  refine ⟨halike, ⟨halike.one, ⟨fun s hf => ?_, fun i th hi hb => ?_⟩, fun p hp => ?_,
    fun i th hi hb => ?_, fun i th hi hb => ?_⟩, fun i th hi hb => ?_, fun id' _ => ?_⟩
  · rw [Machine.retire_world, hworld, hfile] at hf
    cases hf
  · refine (hthreads (P := Begun id) ?_ ?_ hi hb).elim
    all_goals
      intro h
      rcases h with ⟨_, _, h, -⟩ | ⟨_, h, -⟩
      all_goals cases h
  · rw [Machine.retire_world, hworld, hrest.gone] at hp
    cases hp
  all_goals first
    | exact (hthreads (P := Deletes id _) (fun h => by cases h.1) (fun h => by cases h.1) hi hb).elim
    | exact ⟨by rw [Machine.retire_world, hworld], by rw [Machine.retire_world, hworld]⟩

/-- A cycle has found no bundle, and its deletion has come to its end. -/
theorem Cycle.inCycle {force : Bool} (hc : Conforming c) (h : Cycle id force c c') :
    c.world.bundle id = none ∧ InCycle id c.threads.length c.world (renewed c.threads.length c') ∧
      (force = false → ∃ (i : Nat) (th : SysThread), (renewed c.threads.length c').threads[i]? = some th ∧
        Deletes id DeleteStage.emptied (kindOf th) (phaseOf th)) := by
  obtain ⟨hrest, hcreate, hstart, hkill, hdelete, ⟨c₀, hs, hsteps⟩, hcreated, starts, -, kills, -, deletes,
    ⟨th, r, hi, hret⟩, -, -⟩ := h
  have hpast₀ : Past c.threads.length c₀ := hrest.past.step hs
  obtain ⟨hpast₁, hsteps'⟩ := hpast₀.steps hsteps
  obtain ⟨hpast₂, starts'⟩ := hpast₁.proceeds starts
  obtain ⟨hpast₃, kills'⟩ := hpast₂.proceeds kills
  obtain ⟨hpast₄, deletes'⟩ := hpast₃.proceeds deletes
  have hc₀ : Conforming (renewed c.threads.length c₀) := (hc.step hs).renewed
  -- the supervisor has found no bundle
  have hnone : c.world.bundle id = none := by
    have hserve : AllServe id (renewed c.threads.length c₀) := by
      intro i th hi
      rcases renewed_invoked hs hi with rfl | ⟨-, rfl⟩
      · trivial
      · rw [kindOf, Thread.start_main, hcreate]
        rfl
    have hstart : Unchecked id c.threads.length (c.world.bundle id).isSome
        (renewed c.threads.length c₀) := by
      obtain ⟨-, rfl⟩ := Machine.step_invoke hs
      refine ⟨fun i th hi hne hrun => ?_, ?_, rfl⟩
      · rcases renewed_invoked hs hi with rfl | ⟨e, -⟩
        · cases hrun.1
        · exact hne e
      · exact ⟨_, _, _, renewed_new (Nat.le_refl _) (List.getElem?_concat_length ..), hcreate,
          congrArg Kind.init hcreate⟩
    obtain ⟨sup, hi, hsup⟩ := hcreated
    have habsent := hstart.absent hc₀ hserve hsteps' ⟨sup, renewed_new (Nat.le_refl _) hi, hsup⟩
    exact Option.isSome_eq_false_iff.mp habsent |> Option.isNone_iff_eq_none.mp
  obtain ⟨hc₁, h₁⟩ := run_invariant hsteps' hc₀ (inCycle_start hrest hcreate hs hnone)
    fun c a c' hc h hok hs => h.step hc hok.continues hs
  obtain ⟨hc₂, h₂⟩ := h₁.proceeds hc₁ (.inl hstart) starts'
  obtain ⟨hc₃, h₃⟩ := h₂.proceeds hc₂ (.inr (.inl hkill)) kills'
  obtain ⟨hc₄, h₄⟩ := h₃.proceeds hc₃ (.inr (.inr ⟨force, hdelete⟩)) deletes'
  refine ⟨hnone, h₄, fun hforce => ?_⟩
  subst hforce
  obtain ⟨th', hi', hm⟩ := deletes.main
  cases hi.symm.trans hi'
  have hk : kindOf th = .delete id false := by rw [kindOf, hm, hdelete]
  have hi₄ := renewed_new hpast₃.length hi
  rcases deleted_stage (hc₄ _ th hi₄) hk hret with hg | hg
  · exact ⟨_, th, hi₄, hk, _, hg, rfl⟩
  · exact ⟨_, th, hi₄, hk, _, hg, rfl⟩

/-- A cycle without force leaves no bundle and no cgroup, and leaves those of other containers
alone. -/
theorem Cycle.leaves (hc : Conforming c) (h : Cycle id false c c') :
    c'.world.bundle id = none ∧ Vacated id c'.world ∧
      ∀ id' ≠ id, (c'.world.bundle id').isSome = (c.world.bundle id').isSome ∧
        c'.world.cgroup id' = c.world.cgroup id' := by
  obtain ⟨-, hin, hdone⟩ := h.inCycle hc
  obtain ⟨i, th, hi, hstage⟩ := hdone rfl
  refine ⟨hin.emptied i th hi hstage, hin.cleared.vacated i th hi (hstage.mono fun st hst => ?_), hin.others⟩
  cases st <;> first | rfl | contradiction

/-! ### The run of a cycle -/

theorem Proceeds.run {m : Main} (h : Proceeds m c c') : Steps system.step (fun _ _ => True) c c' := by
  obtain ⟨c₁, hs, hsteps⟩ := h
  have hfirst : Steps system.step (fun _ _ => True) c c₁ := .tail .refl trivial hs
  exact hfirst.trans (hsteps.mono fun _ _ _ => trivial)

theorem Cycle.run {force : Bool} (h : Cycle id force c c') :
    Steps system.step (fun _ _ => True) c c' := by
  obtain ⟨-, -, -, -, -, creates, -, starts, -, kills, -, deletes, -, -, -⟩ := h
  exact creates.run.trans (starts.run.trans (kills.run.trans deletes.run))

theorem Cycle.atRest {force : Bool} (h : Cycle id force c c') : AtRest c ∧ AtRest c' := by
  obtain ⟨hrest, -, -, -, -, -, -, -, -, -, -, -, -, -, hrest'⟩ := h
  exact ⟨hrest, hrest'⟩

/-- The threads that were over are what they were. -/
theorem Past.unchanged (h : Past n c) (hrun : Steps system.step (fun _ _ => True) c c') {i : Nat}
    {th : SysThread} (hlt : i < n) (hi : c.threads[i]? = some th) :
    ∃ th', c'.threads[i]? = some th' ∧ th'.main = th.main ∧ th'.trace = th.trace := by
  refine (hrun.invariant (I := fun c' => Past n c' ∧
    ∃ th', c'.threads[i]? = some th' ∧ th'.main = th.main ∧ th'.trace = th.trace)
    (fun c₁ a c₂ h _ hs => ?_) ⟨h, th, hi, rfl, rfl⟩).2
  obtain ⟨hpast, th₁, hi₁, hm₁, htr₁⟩ := h
  obtain ⟨th₂, hi₂, -, hm₂, htr₂, -⟩ := Machine.step_idle hs hi₁ (hpast.idle i th₁ hlt hi₁)
  exact ⟨hpast.step hs, th₂, hi₂, hm₂.trans hm₁, htr₂.trans htr₁⟩

end Clonebox
