import Clonebox.Lifecycle.Leftovers
import Clonebox.Namespaces.Exec

/-! # Whose process `kill` and `exec` act on

Both take a pid from the state file and use it later. The supervisor waits for the process before it
writes that there is none any more; if the supervisor has ended, process 1 waits for it and nobody
writes. From then on the kernel may give the pid to another. -/

namespace Clonebox
open Conc Prog

variable {id : String} {c c' : SysConf} {a : SysAction} {w : World} {p parent : Int} {th : SysThread}

/-! ### What is asked -/

/-- The process with the pid was cloned by the thread. -/
def HasChild (w : World) (t : Nat) (pid : Int) : Prop := ∃ q ∈ w.procs, q.pid = pid ∧ q.parent = t

instance {t : Nat} : Decidable (HasChild w t p) :=
  inferInstanceAs (Decidable (∃ q ∈ w.procs, q.pid = p ∧ q.parent = t))

/-- The process with this pid is one that a supervisor of the container has cloned. -/
def OwnPid (id : String) (c : SysConf) (p : Int) : Prop :=
  ∃ (i : Nat) (th : SysThread), c.threads[i]? = some th ∧
    (∃ configPath sp, kindOf th = .create id configPath sp) ∧
    (∃ ev ∈ th.trace, clones p ev = true) ∧ HasChild c.world i p

/-- The process that a call signals. -/
def Op.signalled : Op → Option Int
  | .kill p => some p
  | _ => none

/-- The process of which a call opens a namespace. -/
def Op.opened : Op → Option Int
  | .openNs p _ => some p
  | _ => none

/-- A step of `kill` signals such a process, and a step of `exec` opens the namespaces of such a
process or its own. -/
structure ActsOnOwn (id : String) (c : SysConf) (a : SysAction) : Prop where
  signal : ∀ e ∈ system.event c a, ∀ th ∈ c.threads[e.1]?, kindOf th = .kill id →
    ∀ p ∈ e.2.1.signalled, OwnPid id c p
  enter : ∀ e ∈ system.event c a, ∀ th ∈ c.threads[e.1]?, kindOf th = .exec id →
    ∀ p ∈ e.2.1.opened, ⟨.getpid, p⟩ ∈ th.trace ∨ OwnPid id c p

/-! ### The condition -/

/-- The pid that a phase has taken from the file. -/
def Phase.target : Phase → Option Int
  | .kill (.aimed _ p) | .exec (.aimed p) | .exec (.entering p _) => some p
  | _ => none

/-- The link that `exec` opens last. -/
def Op.opensMnt (p : Int) : Op → Bool
  | .openNs pid ns => pid = p ∧ ns = "mnt"
  | _ => false

/-- The thread has taken the pid from the file and is still to use it. -/
structure Targets (id : String) (p : Int) (th : SysThread) : Prop where
  running : Running th
  target : (phaseOf th).target = some p
  kind : kindOf th = .kill id ∨ kindOf th = .exec id
  unopened : ∀ ev ∈ th.trace, ev.1.opensMnt p = false

instance : Decidable (Targets id p th) :=
  decidable_of_iff (Running th ∧ (phaseOf th).target = some p ∧
    (kindOf th = .kill id ∨ kindOf th = .exec id) ∧ ∀ ev ∈ th.trace, ev.1.opensMnt p = false)
    ⟨fun ⟨h₁, h₂, h₃, h₄⟩ => ⟨h₁, h₂, h₃, h₄⟩, fun h => ⟨h.1, h.2, h.3, h.4⟩⟩

/-- The pid of a process that `waitpid` has reaped. -/
def reapedPid : Sys.Ev → Option Int
  | ⟨.waitpid p, .ok _⟩ => some p
  | _ => none

/-- The pid of the process that is reaped in a step: by its parent, or by process 1. -/
def reapedIn (c : SysConf) : SysAction → Option Int
  | .env (.reap p) => if ∃ q ∈ c.world.procs, q.pid = p ∧ q.reapable = true then some p else none
  | a => (system.event c a).bind fun e => reapedPid e.2

/-- A supervisor of the container has cloned the process and not waited for it, and neither has
process 1. -/
def Unwaited (id : String) (c : SysConf) (p : Int) : Prop :=
  ∃ (i : Nat) (th : SysThread), c.threads[i]? = some th ∧
    AtStage id (Stage.parentOf p) (kindOf th) (phaseOf th) ∧ HasChild c.world i p

instance : Decidable (Unwaited id c p) :=
  decidable_of_iff (∃ i ∈ List.range c.threads.length, ∃ th ∈ c.threads[i]?,
      AtStage id (Stage.parentOf p) (kindOf th) (phaseOf th) ∧ HasChild c.world i p) <| by
    constructor
    · rintro ⟨i, -, th, hi, h⟩
      exact ⟨i, th, hi, h⟩
    · rintro ⟨i, th, hi, h⟩
      exact ⟨i, List.mem_range.mpr (List.getElem?_eq_some_iff.mp hi).1, th, hi, h⟩

/-- No process is reaped while a `kill` or an `exec` is still to use its pid, and none of them takes
a pid from the file whose process has already been reaped. -/
structure Orderly (id : String) (c : SysConf) (a : SysAction) : Prop where
  reap : ∀ p ∈ reapedIn c a, ∀ th ∈ c.threads, ¬Targets id p th
  take : ∀ e ∈ system.event c a, ∀ th ∈ c.threads[e.1]?, (kindOf th = .kill id ∨ kindOf th = .exec id) →
    (phaseOf th).target = none → ∀ p ∈ ((kindOf th).next (phaseOf th) e.2.1 e.2.2).target,
      Unwaited id c p

instance : Decidable (Orderly id c a) :=
  decidable_of_iff ((∀ p ∈ reapedIn c a, ∀ th ∈ c.threads, ¬Targets id p th) ∧
    ∀ e ∈ system.event c a, ∀ th ∈ c.threads[e.1]?, (kindOf th = .kill id ∨ kindOf th = .exec id) →
      (phaseOf th).target = none → ∀ p ∈ ((kindOf th).next (phaseOf th) e.2.1 e.2.2).target,
        Unwaited id c p)
    ⟨fun h => ⟨h.1, h.2⟩, fun h => ⟨h.1, h.2⟩⟩

/-! ### The namespaces that `exec` opens -/

/-- From the fork on, only the caller's own namespaces are opened. -/
theorem runInside_opens {cmd : List String} : Calls (S := Sys)
    (fun op => ∀ pid ns, op = .openNs pid ns → pid = parent) (runInside id cmd parent) :=
  runInside_all (fun _ _ _ he => by cases he; rfl) (fun _ _ _ _ => nofun) (fun _ _ => nofun)
    (fun _ _ _ => nofun) (fun _ _ => nofun) (fun _ _ => nofun) (fun _ _ _ _ _ => nofun)
    (fun _ _ _ => nofun) (fun _ _ _ => nofun) cmd

/-- When the last of the container's namespaces is opened, only the caller's own follow. -/
theorem lastOpen_then {cmd : List String} (r : Io Unit) : Calls (S := Sys)
    (fun op => ∀ pid ns, op = .openNs pid ns → pid = parent)
    (((mapErr (.ret r) fun e => ↑(SystemError.io e (nsPath p "mnt")) : Core Unit).bind fun _ =>
      mapErr (sys (.setns (nsPath p "mnt"))) fun e =>
        ↑(NamespaceError.failedToEnterNamespace (enterFailure p "mnt" e))).bind fun _ =>
          runInside id cmd parent) := by
  cases r with
  | error e => trivial
  | ok _ =>
    refine Calls.bind (Calls.bind trivial fun _ => ?_) fun _ => runInside_opens
    exact Clonebox.Calls.mapErr ⟨fun _ _ => nofun, fun _ => trivial⟩

/-- After the last of the container's namespaces, only the caller's own are opened. -/
theorem visit_opens {cmd : List String} {tr : List Sys.Ev} {pid : Int} {ns : String}
    {k : Io Unit → Core Unit} (h : Reaches (visit id cmd p parent) tr (.call (.openNs pid ns) k)) :
    pid = parent ∨ pid = p ∧ ∀ ev ∈ tr, ev.1.opensMnt p = false := by
  have hopens (q : Int) (ns : String) (hq : q = parent ∨ q = p) : Calls (S := Sys)
      (fun op => ∀ pid ns, op = .openNs pid ns → pid = parent ∨ pid = p) (enterNamespace q ns) := by
    refine Calls.bind ?_ fun _ => Clonebox.Calls.mapErr ⟨fun _ _ => nofun, fun _ => trivial⟩
    refine Clonebox.Calls.mapErr ⟨fun pid ns he => ?_, fun _ => trivial⟩
    cases he
    exact hq
  have hvisit : Calls (S := Sys) (fun op => ∀ pid ns, op = .openNs pid ns → pid = parent ∨ pid = p)
      (visit id cmd p parent) := by
    refine Calls.bind ?_ fun _ => Calls.bind (hopens p _ (.inr rfl)) fun _ =>
      Calls.bind (hopens p _ (.inr rfl)) fun _ => Calls.bind (hopens p _ (.inr rfl)) fun _ =>
        Calls.bind (hopens p _ (.inr rfl)) fun _ => runInside_opens.mono fun op hop pid ns he =>
          .inl (hop pid ns he)
    refine Clonebox.Calls.mapErr ⟨fun pid ns he => ?_, fun _ => trivial⟩
    cases he
    exact .inl rfl
  rcases (h.calls hvisit).2.1 pid ns rfl with hpid | hpid
  · exact .inl hpid
  by_cases hlast : ∃ ev ∈ tr, ev.1.opensMnt p = true
  · by_cases hne : p = parent
    · exact .inl (hpid.trans hne)
    obtain ⟨ev, hev, hmnt⟩ := hlast
    have hn : ¬ev.1.opensMnt p = false := by rw [hmnt]; exact nofun
    have hopen (q : Int) (ns : String) (hq : ¬(q = p ∧ ns = "mnt")) : Calls (S := Sys)
        (fun op => op.opensMnt p = false) (openNamespace q ns) :=
      Clonebox.Calls.mapErr ⟨by simpa [Op.opensMnt] using hq, fun _ => trivial⟩
    have henter (ns : String) (hns : ns ≠ "mnt") : Calls (S := Sys)
        (fun op => op.opensMnt p = false) (enterNamespace p ns) :=
      Calls.bind (hopen _ _ fun he => hns he.2) fun _ => Clonebox.Calls.mapErr ⟨rfl, fun _ => trivial⟩
    obtain ⟨tr₀, _, _, rfl, h₀, h, hev⟩ := h.past (hopen _ _ fun he => hne he.1.symm) hev hn
    obtain ⟨tr₁, _, _, rfl, h₁, h, hev⟩ := h.past (henter "uts" (by decide)) hev hn
    obtain ⟨tr₂, _, _, rfl, h₂, h, hev⟩ := h.past (henter "pid" (by decide)) hev hn
    obtain ⟨tr₃, _, _, rfl, h₃, h, hev⟩ := h.past (henter "net" (by decide)) hev hn
    rcases Reaches.of_call h with ⟨rfl, -⟩ | ⟨r, tr', rfl, hrest⟩
    · contradiction
    · obtain ⟨-, hmay, -⟩ := hrest.calls (lastOpen_then r)
      exact .inl (hmay pid ns rfl)
  · refine .inr ⟨hpid, fun ev hev => Bool.eq_false_of_not_eq_true fun hmnt => hlast ⟨ev, hev, hmnt⟩⟩

/-! ### Phases of the two programs -/

theorem target_init (m : Main) : m.kind.init.target = none := by
  cases m with
  | rpc req => cases req <;> rfl
  | _ => rfl

/-- A pid is taken by a read, and is then kept. -/
theorem target_next {k : Kind} {g : Phase} {op : Op} {r : op.Ret} (hd : Does k g op)
    (hk : k = .kill id ∨ k = .exec id) (h : (k.next g op r).target = some p) :
    g.target = some p ∨ g.target = none ∧ op = .read (stateJson id) := by
  rcases hk with rfl | rfl
  · cases hd with
    | quiet hq =>
      rw [Kind.next_quiet hq] at h
      exact .inl h
    | checkKill => exact .inr ⟨rfl, rfl⟩
    | signal =>
      cases r with
      | ok _ => cases h
      | error e =>
        simp only [Kind.next, Op.quiet, KillStage.advance, Bool.false_eq_true, if_false] at h
        by_cases hcode : e.code = Errno.esrch.code
        · rw [if_pos hcode] at h
          cases h
        · rw [if_neg hcode] at h
          cases h
    | writeKilled => cases r <;> cases h
    | settleKill => cases h
  · cases hd with
    | quiet hq =>
      rw [Kind.next_quiet hq] at h
      exact .inl h
    | checkExec => exact .inr ⟨rfl, rfl⟩
    | getpid | enter | enterOwn | fork => exact .inl h

/-- The pid by which `exec` knows itself. -/
theorem exec_self (h : contract.Conforms th) {self : Int}
    (hg : phaseOf th = .exec (.entering p self)) : ⟨.getpid, self⟩ ∈ th.trace := by
  obtain ⟨id, hk⟩ := exec_phase h hg
  have hhistory : ∀ p self, phaseOf th = .exec (.entering p self) → ⟨.getpid, self⟩ ∈ [] ++ th.trace := by
    refine h.past.history (J := fun g tr => ∀ p self, g = .exec (.entering p self) → ⟨.getpid, self⟩ ∈ tr) ?_ ?_
    · intro p self he
      have hnone := target_init th.main
      rw [show th.main.kind.init = _ from he] at hnone
      cases hnone
    · intro g tr ev hmay ih p self he
      obtain ⟨op, r⟩ := ev
      have hd : Does (kindOf th) g op := Kind.may_does hmay
      change (kindOf th).next g op r = .exec (.entering p self) at he
      rw [hk] at hd he
      cases hd with
      | quiet hq =>
        rw [Kind.next_quiet hq] at he
        exact List.mem_append_left _ (ih p self he)
      | checkExec =>
        have hread := Phase.exec.inj he
        simp only [Op.quiet, Bool.false_eq_true, if_false, ExecStage.advance] at hread
        rcases hparsed : parsed r with _ | s
        · simp [hparsed] at hread
        · by_cases hrunning : s.status = .running
          · cases hpid : s.pid <;> simp [hparsed, hrunning, hpid] at hread
          · simp [hparsed, hrunning] at hread
      | getpid =>
        cases he
        exact List.mem_append_right _ List.mem_cons_self
      | enter | enterOwn | fork =>
        cases he
        exact List.mem_append_left _ (ih _ _ rfl)
  exact hhistory p self hg

/-! ### The invariant -/

structure Aimed (id : String) (c : SysConf) : Prop where
  traced : system.Traced c
  pids : (c.world.procs.map (·.pid)).Nodup
  live : ∀ th ∈ c.threads, ∀ p, Targets id p th → Unwaited id c p

theorem aimed_fresh (hp : (w.procs.map (·.pid)).Nodup) : Aimed id (fresh w) where
  traced := by intro i th hi; simp at hi
  pids := hp
  live := by intro th hmem; simp at hmem

/-- A process that has not been waited for is the container's own. -/
theorem Unwaited.own (hc : Conforming c) (h : Unwaited id c p) : OwnPid id c p := by
  obtain ⟨i, th, hi, hst, hthere⟩ := h
  have hchild : phaseOf th ≠ .create .child := by
    intro he
    rw [he] at hst
    exact AtStage.not_child rfl _ _ rfl hst
  obtain ⟨cp, sp, st, hk, hg, hparent⟩ := hst
  have hpid : AtStage id (fun g => g.pid = some p) (kindOf th) (phaseOf th) :=
    ⟨cp, sp, st, hk, hg, by simpa using (of_decide_eq_true hparent).1⟩
  exact ⟨i, th, hi, ⟨cp, sp, hk⟩, (pid_iff (hc i th hi) hk hchild p).mp hpid, hthere⟩

theorem reapedIn_event {e : Nat × Sys.Ev} (he : system.event c a = some e) :
    reapedIn c a = reapedPid e.2 := by
  cases a with
  | call t ch => simp [reapedIn, he]
  | invoke | env | crash => cases he

/-- Until the process is reaped, its pid is its own. -/
theorem Unwaited.step (h : Unwaited id c p) (hpids : (c.world.procs.map (·.pid)).Nodup)
    (hc : Conforming c) (hs : system.step c a = some c') (hreap : reapedIn c a ≠ some p) :
    Unwaited id c' p := by
  obtain ⟨i, th, hi, hst, q, hq, hpid, hpar⟩ := h
  have hwait {e : Nat × Sys.Ev} (he : system.event c a = some e) : reapedPid e.2 ≠ some p :=
    reapedIn_event he ▸ hreap
  have hthere : HasChild c'.world i p := by
    rcases step_proc hpids hs hq with ⟨q', hq', hpid', hpar', -⟩ | ⟨st, he⟩ | ⟨rfl, hq'⟩
    · exact ⟨q', hq', hpid'.trans hpid, hpar'.trans hpar⟩
    · exact (hwait he (congrArg some hpid)).elim
    · refine (hreap ?_).elim
      simp only [reapedIn]
      rw [if_pos ⟨q, hq, rfl, hq'⟩, hpid]
  obtain ⟨th', hi', rfl | rfl | ⟨op, k, r, ch, rfl, hstop, hop, hx, rfl⟩⟩ := Machine.step_persists hs hi
  · exact ⟨i, th', hi', hst, hthere⟩
  · exact ⟨i, _, hi', by simpa [kindOf, phaseOf] using hst, hthere⟩
  · have hd : Does (kindOf th) (phaseOf th) op := Kind.may_does ((hc i th hi).may hop)
    have hev : system.event c (.call i ch) = some (i, ⟨op, r⟩) := event_call hi hstop hop hx
    have hph : phaseOf (th.answer op k r) = (kindOf th).next (phaseOf th) op r :=
      Machine.Contract.phase_answer
    refine ⟨i, _, hi', ?_, hthere⟩
    rw [hph]
    refine AtStage.next hd hst fun g g' hm hg => ?_
    cases hm with
    | waited =>
      have hpid := (of_decide_eq_true hg).1
      cases hpid
      exact (hwait hev rfl).elim
    | child => exact (World.not_answer_zero ⟨_, _, _, _, hx⟩).elim
    | announced | rereadCloned | rereadAnnounced | created | bound | listening | broken | accepted => exact hg
    | _ => simp [Stage.parentOf, Stage.pid, Stage.reaped] at hg

/-- Where a thread that is to use a pid comes from. -/
theorem Targets.origin {i : Nat} {th' : SysThread} (hc : Conforming c) (hs : system.step c a = some c')
    (hi : c'.threads[i]? = some th') (h : Targets id p th') :
    (∃ th ∈ c.threads, Targets id p th) ∨ ∃ e ∈ system.event c a, ∃ th ∈ c.threads[e.1]?,
      (kindOf th = .kill id ∨ kindOf th = .exec id) ∧ (phaseOf th).target = none ∧
        ((kindOf th).next (phaseOf th) e.2.1 e.2.2).target = some p ∧ reapedPid e.2 = none := by
  have hanswered {t : Nat} {th : SysThread} {op : Op} {k : op.Ret → Prog Sys Fault Reply} {r r' : op.Ret}
      {ch : Choice} (ht : c.threads[t]? = some th) (hst : th.stopped = false) (hop : th.prog = .call op k)
      (hx : c.world.exec t op ch = some (r, c'.world)) (ha : a = .call t ch)
      (hkind : kindOf th = .kill id ∨ kindOf th = .exec id)
      (htarget : ((kindOf th).next (phaseOf th) op r').target = some p)
      (hsame : op = .read (stateJson id) → r' = r)
      (hopen : ∀ ev ∈ th.trace, ev.1.opensMnt p = false) :
      (∃ th ∈ c.threads, Targets id p th) ∨ ∃ e ∈ system.event c a, ∃ th ∈ c.threads[e.1]?,
        (kindOf th = .kill id ∨ kindOf th = .exec id) ∧ (phaseOf th).target = none ∧
          ((kindOf th).next (phaseOf th) e.2.1 e.2.2).target = some p ∧ reapedPid e.2 = none := by
    have hd : Does (kindOf th) (phaseOf th) op := Kind.may_does ((hc t th ht).may hop)
    rcases target_next hd hkind htarget with hold | ⟨hnone, rfl⟩
    · exact .inl ⟨th, List.mem_of_getElem? ht, ⟨hst, op, k, hop⟩, hold, hkind, hopen⟩
    · rw [hsame rfl] at htarget
      refine .inr ⟨(t, ⟨.read (stateJson id), r⟩), ?_, th, ht, hkind, hnone, htarget, rfl⟩
      rw [ha]
      exact event_call ht hst hop hx
  obtain ⟨hrun, htarget, hkind, hopen⟩ := h
  cases Machine.step_origin hs hi with
  | same h => exact .inl ⟨th', List.mem_of_getElem? h, hrun, htarget, hkind, hopen⟩
  | stopped h e =>
    rw [e] at hrun
    exact nomatch hrun.1
  | @answered th op k r ch ha h hst hop hx e =>
    subst e
    have hph : phaseOf (th.answer op k r) = (kindOf th).next (phaseOf th) op r :=
      Machine.Contract.phase_answer
    rw [hph] at htarget
    exact hanswered h hst hop hx ha hkind htarget (fun _ => rfl) fun ev hev =>
      hopen ev (List.mem_append_left _ hev)
  | @invoked m ha h hm e =>
    subst e
    exact nomatch (target_init m).symm.trans htarget
  | @forked t th op k r r' ch ha ht hst hop hx hf h e =>
    subst e
    have hph : phaseOf { th.answer op k r' with parent := some t } = (kindOf th).next (phaseOf th) op r' :=
      Machine.Contract.phase_answer_parent
    rw [hph] at htarget
    refine hanswered ht hst hop hx ha hkind htarget (fun he => ?_) fun ev hev =>
      hopen ev (List.mem_append_left _ hev)
    subst he
    cases hf
  | @spawned t th op k r m ch ha ht hst hop hx hs' h e =>
    subst e
    exact nomatch (target_init m).symm.trans htarget

theorem Aimed.step (h : Aimed id c) (hc : Conforming c) (hok : Orderly id c a)
    (hs : system.step c a = some c') : Aimed id c' where
  traced := h.traced.step hs
  pids := pids_step h.pids hs
  live := by
    intro th' hmem p htargets
    obtain ⟨i, hi⟩ := List.mem_iff_getElem?.mp hmem
    rcases htargets.origin hc hs hi with ⟨th, hth, hold⟩ | ⟨e, he, th, hth, hkind, hnone, htarget, hreap⟩
    · exact (h.live th hth p hold).step h.pids hc hs fun hreap => hok.reap p hreap th hth hold
    · -- the step is a read, and reaps nobody
      refine (hok.take e he th hth hkind hnone p htarget).step h.pids hc hs fun hreap' => ?_
      rw [reapedIn_event he, hreap] at hreap'
      cases hreap'

/-! ### The calls that use a pid -/

/-- A thread that runs `kill` opens no namespace. -/
theorem kill_unopened (h : contract.Conforms th) (hk : kindOf th = .kill id) :
    ∀ ev ∈ th.trace, ev.1.opensMnt p = false := by
  intro ev hev
  obtain ⟨tr₁, tr₂, hsplit⟩ := List.append_of_mem hev
  have hpast := h.past
  rw [hsplit] at hpast
  obtain ⟨g, hd⟩ : ∃ g, Does (kindOf th) g ev.1 := ⟨_, Kind.may_does hpast.at_split⟩
  rw [hk] at hd
  obtain ⟨op, r⟩ := ev
  cases op with
  | openNs pid ns =>
    cases hd with
    | quiet hq => contradiction
  | _ => rfl

theorem still_unopened {op : Op} (h : op.still = true) : op.opensMnt p = false := by
  cases op <;> first | rfl | contradiction

theorem ofCore_call {α : Type} {q : Core α} {f : α → Reply} {tr : List Sys.Ev} {op : Op}
    {k : op.Ret → Prog Sys Fault Reply} (h : Reaches (ofCore q f) tr (.call op k)) :
    ∃ k', Reaches q tr (.call op k') := by
  rcases h.of_bind with ⟨q', hq', he⟩ | ⟨tr₁, tr₂, b, rfl, -, hret⟩
  · obtain ⟨q'', hq'', rfl⟩ := hq'.of_mapError
    cases q'' with
    | ret | fail | halt => cases he
    | call op' k' =>
      cases he
      exact ⟨k', hq''⟩
  · exact nomatch hret.of_ret.2

/-- A namespace that `exec` opens is its own, or that of a pid it is still to use. -/
theorem exec_targets {ns : String} {k : Io Unit → Prog Sys Fault Reply} (h : contract.Conforms th)
    (ht : (system.prog th.main).Reaches th.trace th.prog) (hk : kindOf th = .exec id)
    (hst : th.stopped = false) (hop : th.prog = .call (.openNs p ns) k) :
    ⟨.getpid, p⟩ ∈ th.trace ∨ Targets id p th := by
  have hd : Does (kindOf th) (phaseOf th) (.openNs p ns) := Kind.may_does (h.may hop)
  obtain ⟨cmd, hm⟩ : ∃ cmd, th.main = .exec id cmd := by
    rw [kindOf] at hk
    cases hmain : th.main with
    | exec id' cmd =>
      rw [hmain] at hk
      cases hk
      exact ⟨cmd, rfl⟩
    | rpc req =>
      rw [hmain] at hk
      cases req <;> cases hk
    | create | turn | kill | delete | state | shim =>
      rw [hmain] at hk
      cases hk
  have htarget : ⟨.getpid, p⟩ ∈ th.trace ∨ (phaseOf th).target = some p := by
    rw [hk] at hd
    generalize hg : phaseOf th = g at hd
    cases hd with
    | quiet hq => contradiction
    | enter => exact .inr rfl
    | enterOwn => exact .inl (exec_self h hg)
  rcases htarget with hself | htarget
  · exact .inl hself
  rw [hm, hop] at ht
  obtain ⟨k', hreach⟩ := ofCore_call ht
  have htargets (hopen : ∀ ev ∈ th.trace, ev.1.opensMnt p = false) : Targets id p th :=
    ⟨⟨hst, _, _, hop⟩, htarget, .inr hk, hopen⟩
  rcases exec_reaches hreach with hstill | ⟨p', parent, tr₁, tr₂, htr, hstill, -, hself, hvisit⟩
  · exact .inr (htargets fun ev hev => still_unopened (hstill ev hev))
  · rcases visit_opens hvisit with rfl | ⟨rfl, hunopened⟩
    · rw [htr]
      exact .inl (List.mem_append_left _ hself)
    · refine .inr (htargets fun ev hev => ?_)
      rw [htr] at hev
      rcases List.mem_append.mp hev with hev | hev
      · exact still_unopened (hstill ev hev)
      · exact hunopened ev hev

/-- In a run in which no process is reaped between the time when `kill` or `exec` takes its pid and
the time when it is used, every signal and every opened namespace is that of the container's own
process. -/
theorem acts_on_own {id : String} {w : World} {c : SysConf} (hp : (w.procs.map (·.pid)).Nodup)
    (hrun : Steps system.step (Orderly id) (fresh w) c) (a : SysAction) : ActsOnOwn id c a := by
  obtain ⟨hc, haimed⟩ := run_invariant hrun (conforming_fresh w) (aimed_fresh hp)
    fun c a c' hc h hok hs => h.step hc hok hs
  have hown {i : Nat} {th : SysThread} {p : Int} (hi : c.threads[i]? = some th) (h : Targets id p th) :
      OwnPid id c p := (haimed.live th (List.mem_of_getElem? hi) p h).own hc
  constructor
  · rintro ⟨i, op, r⟩ he th hth hk p hkill
    obtain ⟨th', k, ch, w', rfl, hi, hst, hop, hx, -⟩ := Machine.event_some he
    cases hi.symm.trans hth
    have hd : Does (kindOf th) (phaseOf th) op := Kind.may_does ((hc i th hi).may hop)
    refine hown hi ⟨⟨hst, op, k, hop⟩, ?_, .inl hk, kill_unopened (hc i th hi) hk⟩
    change op.signalled = some p at hkill
    rw [hk] at hd
    unfold Op.signalled at hkill
    split at hkill <;> cases hkill
    generalize phaseOf th = g at hd
    cases hd with
    | quiet hq => contradiction
    | signal => rfl
  · rintro ⟨i, op, r⟩ he th hth hk p hopen
    obtain ⟨th', k, ch, w', rfl, hi, hst, hop, hx, -⟩ := Machine.event_some he
    cases hi.symm.trans hth
    change op.opened = some p at hopen
    unfold Op.opened at hopen
    split at hopen <;> cases hopen
    exact (exec_targets (hc i th hi) (haimed.traced i th hi) hk hst hop).imp_right (hown hi)

/-- A running container, and a `kill` that has read its state. -/
def killAimed : List SysAction := supervise "c" ++ [.invoke (.kill "c"), go 2]

theorem acts_on_own_sample : ∃ c : SysConf, Steps system.step (Orderly "c") (fresh sampleHost) c ∧
    (∃ e ∈ system.event c (go 2), e.2.1.signalled = some 7) ∧ OwnPid "c" c 7 := by
  have h : ∃ c ∈ runActions system.step (Orderly "c") (fresh sampleHost) killAimed,
      ∃ e ∈ system.event c (go 2), ∃ th ∈ c.threads[e.1]?, kindOf th = .kill "c" ∧ e.2.1.signalled = some 7 := by
    decide +kernel
  obtain ⟨c, hrun, e, he, th, hth, hk, hkill⟩ := h
  exact ⟨c, .of_runActions hrun, ⟨e, he, hkill⟩,
    (acts_on_own (by decide) (.of_runActions hrun) (go 2)).signal e he th hth hk 7 hkill⟩

/-- The supervisor waits for the child, the container `d` gets its pid, and `kill` reads the
file. -/
def pidGivenAway : List SysAction := supervise "c" ++ begin "c" 3 ++ goes 2 2 ++ childFails ++ [go 0] ++
  [.invoke (.create "d" "cfg" none)] ++ goes 18 3 ++ [.call 3 (.run 7), .invoke (.kill "c"), go 5]

/-- `kill` of the container `c` signals the process of the container `d`. -/
theorem other_process_killed : ∃ (c : SysConf) (a : SysAction),
    Steps system.step (fun _ _ => True) (fresh sampleHost) c ∧
    (∃ e ∈ system.event c a, e.2.1.signalled = some 7) ∧
    (∃ p ∈ c.world.procs, p.pid = 7 ∧ p.cgroup = some (.cgroup "d")) ∧ ¬ActsOnOwn "c" c a := by
  have h : ∃ c ∈ runActions system.step (fun _ _ => True) (fresh sampleHost) pidGivenAway,
      (∃ e ∈ system.event c (go 5), ∃ th ∈ c.threads[e.1]?, kindOf th = .kill "c" ∧ e.2.1.signalled = some 7) ∧
      (∃ p ∈ c.world.procs, p.pid = 7 ∧ p.cgroup = some (.cgroup "d")) ∧
      (∀ p ∈ c.world.procs, p.pid = 7 → p.parent = 3) ∧
      ∀ th ∈ c.threads[3]?, kindOf th = .create "d" "cfg" none := by
    decide +kernel
  obtain ⟨c, hrun, ⟨e, he, th, hth, hk, hkill⟩, hother, hparent, hcreate⟩ := h
  refine ⟨c, go 5, .of_runActions hrun, ⟨e, he, hkill⟩, hother, fun hacts => ?_⟩
  obtain ⟨i, th', hi, ⟨cp, sp, hk'⟩, -, p, hp, hpid, hpar⟩ := hacts.signal e he th hth hk 7 hkill
  obtain rfl : 3 = i := (hparent p hp hpid).symm.trans hpar
  have hd := (hcreate th' hi).symm.trans hk'
  injection hd with hid
  exact absurd hid (by decide)

end Clonebox
