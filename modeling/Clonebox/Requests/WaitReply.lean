import Clonebox.Requests.Snapshot
import Clonebox.Requests.ExitStatus
import Clonebox.Lifecycle.Deletion

/-! # Where the answer to Wait comes from

What Wait answers has come a long way: from the kernel to `waitpid`, from the supervisor to the
event socket, through the daemon's map to a channel. Nothing on this way makes a value up but the
shim, which reports -1 when `create` has failed. -/

namespace Clonebox
open Conc Prog

variable {id : String} {c c' : SysConf} {a : SysAction} {i : Nat} {th : SysThread} {tr : List Sys.Ev}
  {w : World}

/-! ### The handler -/

/-- A handler that waits registers the channel it has made. -/
theorem waitHandler_push {tx : Nat} {i : String} {k : Bool → Prog Sys Fault Reply}
    (h : Reaches (Main.rpc (.wait id)).prog tr (.call (.pushWaiter i tx) k)) :
    i = id ∧ tr = [⟨.channel, tx⟩] := by
  obtain ⟨p, hp, he⟩ := h.of_mapError
  cases p with
  | ret | fail | halt => cases he
  | call op k =>
    cases he
    rcases Reaches.of_call hp with ⟨-, he⟩ | ⟨n, tr₁, rfl, h₁⟩
    · cases he
    rcases Reaches.of_call h₁ with ⟨rfl, he⟩ | ⟨found, tr₂, rfl, h₂⟩
    · cases he
      exact ⟨rfl, rfl⟩
    cases found with
    | false => cases (Reaches.of_fail h₂).2
    | true =>
      rcases Reaches.of_call h₂ with ⟨-, he⟩ | ⟨code, tr₃, rfl, h₃⟩
      · cases he
      cases code with
      | none => cases (Reaches.of_fail h₃).2
      | some v => cases (Reaches.of_ret h₃).2

/-- What it answers is what has come through that channel. -/
theorem waitHandler_ret {v : Int} (h : Reaches (Main.rpc (.wait id)).prog tr (.ret (.exit v))) :
    ∃ tx, tr = [⟨.channel, tx⟩, ⟨.pushWaiter id tx, true⟩, ⟨.awaitExit id tx, some v⟩] := by
  obtain ⟨p, hp, he⟩ := h.of_mapError
  cases p with
  | call | fail | halt => cases he
  | ret x =>
    cases he
    rcases Reaches.of_call hp with ⟨-, he⟩ | ⟨n, tr₁, rfl, h₁⟩
    · cases he
    rcases Reaches.of_call h₁ with ⟨-, he⟩ | ⟨found, tr₂, rfl, h₂⟩
    · cases he
    cases found with
    | false => cases (Reaches.of_fail h₂).2
    | true =>
      rcases Reaches.of_call h₂ with ⟨-, he⟩ | ⟨code, tr₃, rfl, h₃⟩
      · cases he
      cases code with
      | none => cases (Reaches.of_fail h₃).2
      | some u =>
        obtain ⟨rfl, he⟩ := Reaches.of_ret h₃
        cases he
        exact ⟨n, rfl⟩

/-- Nobody else registers. -/
theorem push_wait {m : Main} {tx : Nat} {k : Bool → Prog Sys Fault Reply}
    (h : Reaches m.prog tr (.call (.pushWaiter id tx) k)) (hk : m.kind = .observer) :
    m = .rpc (.wait id) ∧ tr = [⟨.channel, tx⟩] := by
  have hread (i : String) : Prog.Calls (S := Sys) (fun op => op.writesTo = none) (readStateFile i) :=
    readStateFile_all rfl
  have howned : m.container = some id := (h.calls (main_owns m)).2.1.place id rfl
  cases m with
  | state i =>
    cases ((h.calls (Prog.Calls.bind (Prog.Calls.mapError (hread i)) fun _ => trivial)).2).1
  | rpc req =>
    cases req with
    | state i =>
      have hcalls : Prog.Calls (S := Sys) (fun op => op.writesTo = none) (Main.rpc (.state i)).prog :=
        Prog.Calls.mapError (Prog.Calls.bind (Prog.Calls.mapError (hread i)) fun _ => trivial)
      cases (h.calls hcalls).2.1
    | wait i =>
      obtain ⟨rfl, htr⟩ := waitHandler_push h
      exact ⟨rfl, htr⟩
    | exec | list => cases howned
    | create | start | kill | delete | pause | resume => cases hk
  | create | turn | kill | delete | exec | shim => cases hk

/-! ### What is on its way -/

/-- Who sends an event about a container runs `create` for it. -/
theorem sender {sp : String} {e : Event} (h : contract.Conforms th)
    (hev : (⟨.writeEvent sp e, .ok ()⟩ : Sys.Ev) ∈ th.trace) :
    ∃ configPath s, kindOf th = .create e.id configPath s := by
  obtain ⟨tr₁, tr₂, htr⟩ := List.append_of_mem hev
  have hpast := h.past
  rw [htr] at hpast
  have hd : Does (kindOf th) _ (.writeEvent sp e) := Kind.may_does hpast.at_split
  generalize kindOf th = k at hd
  generalize Proto.phase _ _ tr₁ = g at hd
  cases hd with
  | quiet hq => cases hq
  | failEvent | creatingEvent | createdEvent => exact ⟨_, _, rfl⟩
  | stoppedEvent =>
    rw [stoppedEvent_id]
    exact ⟨_, _, rfl⟩
  | looks hl => cases hl

/-- Somebody has sent the event that the container has stopped, with this value. -/
def StopSent (id : String) (v : Int) (c : SysConf) : Prop :=
  ∃ (t : Nat) (sup : SysThread) (sp : String) (e : Event), c.threads[t]? = some sup ∧
    ⟨.writeEvent sp e, .ok ()⟩ ∈ sup.trace ∧ e.id = id ∧ e.state = .stopped ∧ v = e.exitCode.getD 0

theorem StopSent.step {v : Int} (h : StopSent id v c) (hs : system.step c a = some c') :
    StopSent id v c' := by
  obtain ⟨t, sup, sp, e, ht, hev, hid, hst, hv⟩ := h
  obtain ⟨sup', ht', -, -, htr⟩ := step_kept hs ht
  exact ⟨t, sup', sp, e, ht', htr hev, hid, hst, hv⟩

theorem recover_exits (alive : Int → Bool) (dir : List (String × Option State)) (d : Daemon) :
    (d.recover alive dir).exits = d.exits := by
  induction dir generalizing d with
  | nil => rfl
  | cons x dir ih =>
    obtain ⟨fileName, parsed⟩ := x
    rw [Daemon.recover, ih]
    cases parsed <;> simp [Daemon.recoverEntry]

/-- A thread that was never copied has made the channel that bears its number. -/
theorem own_channel {tx : Nat} (hrun : Runs (fresh w) c) (hi : c.threads[i]? = some th)
    (hev : ⟨.channel, tx⟩ ∈ th.trace) (hfork : ∀ ev ∈ th.trace, ∀ r, system.fork ev.1 r = none) :
    tx = i := by
  have hans := Machine.answers_of_steps hrun List.getElem?_nil hi hfork
  obtain ⟨c₁, a, c₂, -, -, he, hs, -⟩ := hans.given hev
  obtain ⟨th₁, k, ch, w₁, rfl, hi₁, hst, hp, hx, -⟩ := Machine.event_some he
  change World.exec _ i .channel ch = some (tx, w₁) at hx
  cases ch with
  | run n => exact (Prod.mk.inj (Option.some.inj hx)).1.symm
  | err e | part e => cases hx

/-- The channels registered for the end of a container are those of threads that wait for it, and
what is in them was sent. -/
structure Waiters (w : World) (c : SysConf) : Prop where
  run : Runs (fresh w) c
  conforming : Conforming c
  registered : Registered c
  waiter : ∀ id e tx, c.world.entry id = some e → tx ∈ e.exitWaiter →
    ∃ th, c.threads[tx]? = some th ∧ th.main = .rpc (.wait id)
  exits : ∀ tx v, c.world.daemon.exits tx = some v →
    ∃ th id, c.threads[tx]? = some th ∧ th.main = .rpc (.wait id) ∧ StopSent id v c

theorem Waiters.waiter_step (h : Waiters w c) (hs : system.step c a = some c') (id : String)
    (e : ContainerEntry) (tx : Nat) (he : c'.world.entry id = some e) (htx : tx ∈ e.exitWaiter) :
    ∃ th, c'.threads[tx]? = some th ∧ th.main = .rpc (.wait id) := by
  have hold {e : ContainerEntry} (he : c.world.entry id = some e) (htx : tx ∈ e.exitWaiter) :
      ∃ th, c'.threads[tx]? = some th ∧ th.main = .rpc (.wait id) := by
    obtain ⟨th, hi, hm⟩ := h.waiter id e tx he htx
    obtain ⟨th', hi', hm', -⟩ := step_kept hs hi
    exact ⟨th', hi', hm'.trans hm⟩
  have hent : EntryChange id c a (c'.world.entry id) := step_entry h.conforming hs
  generalize c'.world.entry id = o at hent he
  cases hent with
  | same => exact hold he htx
  | inserted hev hi hk hg hn =>
    cases he
    cases htx
  | turned hev hi hk hg hen =>
    cases he
    exact hold hen htx
  | killed hev hi hk hg hen =>
    cases he
    exact hold hen htx
  | removed | stopped => cases he
  | @waits i tx' found e hev hen =>
    cases he
    rcases List.mem_append.mp htx with htx | htx
    · exact hold hen htx
    · obtain rfl := List.mem_singleton.mp htx
      obtain ⟨th, k, ch, w₁, -, hi, -, hp, -, -⟩ := Machine.event_some hev
      have hd : Does (kindOf th) (phaseOf th) (.pushWaiter id tx) :=
        Kind.may_does ((h.conforming i th hi).may hp)
      have hobs : th.main.kind = .observer := by
        change Does th.main.kind _ _ at hd
        generalize th.main.kind = k at hd
        generalize phaseOf th = g at hd
        cases hd with
        | quiet hq => cases hq
        | looks hl => rfl
      have htraced : Reaches th.main.prog th.trace th.prog := traced_fresh h.run i th hi
      rw [hp] at htraced
      obtain ⟨hm, htr⟩ := push_wait htraced hobs
      obtain rfl : tx = i := own_channel h.run hi (by rw [htr]; simp) (by rw [htr]; simp [system, forkAnswer])
      obtain ⟨th', hi', hm', -⟩ := step_kept hs hi
      exact ⟨th', hi', hm'.trans hm⟩
  | delivered ha hev hid hen =>
    cases he
    refine hold hen ?_
    unfold ContainerEntry.update at htx
    dsimp only at htx
    split at htx
    · cases htx
    · exact htx
  | recovered ha hw =>
    cases he
    rw [hw.2] at htx
    cases htx

theorem Waiters.exits_step (h : Waiters w c) (hs : system.step c a = some c') (tx : Nat) (v : Int)
    (hv : c'.world.daemon.exits tx = some v) :
    ∃ th id, c'.threads[tx]? = some th ∧ th.main = .rpc (.wait id) ∧ StopSent id v c' := by
  have hold (hv : c.world.daemon.exits tx = some v) :
      ∃ th id, c'.threads[tx]? = some th ∧ th.main = .rpc (.wait id) ∧ StopSent id v c' := by
    obtain ⟨th, id, hi, hm, htold⟩ := h.exits tx v hv
    obtain ⟨th', hi', hm', -⟩ := step_kept hs hi
    exact ⟨th', id, hi', hm'.trans hm, htold.step hs⟩
  have hmap : MapChange c a c'.world.daemon := step_map h.conforming hs
  generalize c'.world.daemon = d at hmap hv
  cases hmap with
  | same | stopped => exact hold hv
  | inserted | turned | killed | removed | waits => exact hold (by simpa using hv)
  | started =>
    rw [recover_exits] at hv
    exact hold hv
  | @delivered k t e ha hev =>
    rw [Daemon.updateStatus_exits] at hv
    split at hv
    · rename_i hstop
      cases hv
      obtain ⟨hst, entry, hen, htx⟩ := hstop
      obtain ⟨th, hi, hm⟩ := h.waiter e.id entry tx hen htx
      obtain ⟨sup, sp, ht, hsent⟩ := h.registered.sent t e (List.mem_of_getElem? hev)
      obtain ⟨th', hi', hm', -⟩ := step_kept hs hi
      have htold : StopSent e.id (e.exitCode.getD 0) c := ⟨t, sup, sp, e, ht, hsent, rfl, hst, rfl⟩
      exact ⟨th', e.id, hi', hm'.trans hm, htold.step hs⟩
    · exact hold hv

theorem Waiters.step (h : Waiters w c) (hs : system.step c a = some c') : Waiters w c' where
  run := h.run.tail trivial hs
  conforming := h.conforming.step hs
  registered := h.registered.step h.conforming hs
  waiter := h.waiter_step hs
  exits := h.exits_step hs

theorem waits_run (he : w.events = []) (hd : w.daemon = .new) (hrun : Runs (fresh w) c) :
    Waiters w c := by
  refine Steps.invariant hrun (fun c a c' h _ hs => h.step hs) ⟨.refl, conforming_fresh w,
    registered_fresh he hd, fun id e tx hen => ?_, fun tx v hv => ?_⟩
  · simp [World.entry, hd] at hen
  · simp [hd, Daemon.new] at hv

/-! ### The answer -/

/-- The value that an end is reported with: that of an end by a signal is 0. -/
def WaitStatus.reported : WaitStatus → Int
  | .exited code => code
  | .signaled _ _ => 0

theorem stoppedEvent_code (st : WaitStatus) :
    (stoppedEvent (Stage.event id .created) st).exitCode.getD 0 = st.reported := by
  cases st <;> rfl

/-- `waitpid` tells how a child of the caller has ended. -/
theorem World.exec_waitpid {w w' : World} {t : Nat} {ch : Choice} {pid : Int} {st : WaitStatus}
    (h : w.exec t (.waitpid pid) ch = some (.ok st, w')) :
    ∃ p ∈ w.procs, p.parent = t ∧ p.status = some st := by
  cases ch with
  | err e => simp [exec, Op.failure] at h
  | part e => simp [exec, runPart] at h
  | run n =>
    simp only [exec, run, wait] at h
    split at h
    · cases h
    · rename_i p hp
      split at h
      · cases h
      · rename_i st' hst
        cases h
        have hpar := List.find?_some hp
        simp only [decide_eq_true_eq] at hpar
        exact ⟨p, List.mem_of_find?_eq_some hp, hpar.2, hst⟩

theorem placed_run (hp : w.procs = []) (hrun : Runs (fresh w) c) : Placed c := by
  have hfirst : Conforming (fresh w) ∧ Placed (fresh w) := by
    refine ⟨conforming_fresh w, fun p hmem => ?_⟩
    rw [show (fresh w).world.procs = [] from hp] at hmem
    cases hmem
  exact (Steps.invariant hrun (I := fun c => Conforming c ∧ Placed c)
    (fun c a c' h _ hs => ⟨h.1.step hs, h.2.step h.1 hs⟩) hfirst).2

/-- A process of the container has ended in the run, and this is how. -/
def EndedIn (w : World) (id : String) (st : WaitStatus) (c : SysConf) : Prop :=
  ∃ c₁, Runs (fresh w) c₁ ∧ Runs c₁ c ∧ ∃ p ∈ c₁.world.procs, p.cgroup = some (.cgroup id) ∧ p.status = some st

/-- What a run of `create` has heard of the end of its child, and what it has sent of it. -/
structure Heard (id : String) (g : Phase) (tr : List Sys.Ev) : Prop where
  stage : ∀ pid st, g = .create (.waited pid st) → ⟨.waitpid pid, .ok st⟩ ∈ tr
  sent : ∀ ev ∈ tr, ∀ e ∈ sentEvent ev, e.state = .stopped → e = failureReport id ∨
    ∃ pid st, ⟨.waitpid pid, .ok st⟩ ∈ tr ∧ e = stoppedEvent (Stage.event id .created) st

theorem Heard.next {configPath : String} {sp : Option String} {g : Phase} {op : Op} {r : op.Ret}
    (h : Heard id g tr) (hd : Does (.create id configPath sp) g op) :
    Heard id ((Kind.create id configPath sp).next g op r) (tr ++ [⟨op, r⟩]) where
  stage := by
    intro pid st hg
    rcases waited_next (r := r) hd with ⟨pid', st', hev, rfl, hnext⟩ | ⟨-, hstage⟩
    · cases hnext.symm.trans hg
      exact List.mem_append_right _ (List.mem_singleton.mpr hev.symm)
    · exact List.mem_append_left _ (h.stage pid st (hstage pid st hg))
  sent := by
    intro ev hev e he hst
    rcases List.mem_append.mp hev with hev | hev
    · rcases h.sent ev hev e he hst with he | ⟨pid, st, hw, he⟩
      · exact .inl he
      · exact .inr ⟨pid, st, List.mem_append_left _ hw, he⟩
    · obtain rfl := List.mem_singleton.mp hev
      obtain ⟨s, heq⟩ := sentEvent_some he
      cases heq
      rcases hd.sends.2 hst with he | ⟨pid, st, rfl, he⟩
      · exact .inl he
      · exact .inr ⟨pid, st, List.mem_append_left _ (h.stage pid st rfl), he⟩

theorem heard {configPath : String} {sp : Option String} (h : contract.Conforms th)
    (hk : kindOf th = .create id configPath sp) : Heard id (phaseOf th) th.trace := by
  have hinit : Heard id (contract.init th.main) [] := by
    rw [show contract.init th.main = .create .start from congrArg Kind.init hk]
    refine ⟨fun pid st hg => ?_, fun ev hev => (List.not_mem_nil hev).elim⟩
    cases hg
  have hstep (g : Phase) (tr : List Sys.Ev) (ev : Sys.Ev) (hmay : (contract.proto th.main).may g ev.1)
      (hheard : Heard id g tr) : Heard id ((contract.proto th.main).next g ev.1 ev.2) (tr ++ [ev]) := by
    obtain ⟨op, r⟩ := ev
    have hd : Does (kindOf th) g op := Kind.may_does hmay
    show Heard id ((kindOf th).next g op r) _
    rw [hk] at hd ⊢
    exact hheard.next hd
  exact Proto.Follows.history (J := fun g tr => Heard id g tr) h.past hinit hstep

/-- What is reported of a container is that `create` has failed, or how its process has ended. -/
theorem StopSent.origin {v : Int} (h : StopSent id v c) (hp : w.procs = []) (hrun : Runs (fresh w) c) :
    (v = -1 ∧ ∃ sup ∈ c.threads, ∃ sp, ⟨.writeEvent sp (failureReport id), .ok ()⟩ ∈ sup.trace) ∨
      ∃ st, EndedIn w id st c ∧ v = st.reported := by
  obtain ⟨t, sup, sp, e, ht, hev, rfl, hst, rfl⟩ := h
  have hc : Conforming c :=
    (run_invariant (I := fun _ => True) hrun (conforming_fresh w) trivial fun _ _ _ _ _ _ _ => trivial).1
  obtain ⟨cp, s, hk⟩ := sender (hc t sup ht) hev
  rcases (heard (hc t sup ht) hk).sent _ hev e rfl hst with he | ⟨pid, st, hw, he⟩
  · refine .inl ⟨?_, sup, List.mem_of_getElem? ht, sp, he ▸ hev⟩
    rw [he]
    rfl
  · refine .inr ⟨st, ?_, ?_⟩
    · cases Machine.given_of_mem hrun rfl ht hw fun r => rfl with
      | @intro c₁ c₂ a j th₁ hbefore hj hm ha he hs hrest =>
        obtain ⟨th₂, k, ch, w₂, rfl, hj₂, -, -, hx, -⟩ := Machine.event_some he
        obtain ⟨p, hmem, hpar, hpst⟩ := World.exec_waitpid hx
        obtain ⟨th₃, id', cp', sp', hj₃, hk₃, hcg⟩ := placed_run hp hbefore p hmem
        rw [hpar] at hj₃
        cases hj.symm.trans hj₃
        have hsame : kindOf th₁ = kindOf sup := by rw [kindOf, hm, kindOf]
        cases hk₃.symm.trans (hsame.trans hk)
        exact ⟨c₁, hbefore, (Steps.tail .refl ha hs).trans hrest, p, hmem, hcg, hpst⟩
    · rw [he]
      exact stoppedEvent_code st

theorem EndedIn.later {st : WaitStatus} (h : EndedIn w id st c) (hrun : Runs c c') :
    EndedIn w id st c' := by
  obtain ⟨c₁, hbefore, hafter, hp⟩ := h
  exact ⟨c₁, hbefore, hafter.trans hrun, hp⟩

/-- A thread keeps its program and what it was answered. -/
theorem runs_kept (hrun : Runs c c') (hi : c.threads[i]? = some th) :
    ∃ th', c'.threads[i]? = some th' ∧ th'.main = th.main ∧ th.trace ⊆ th'.trace := by
  induction hrun with
  | refl => exact ⟨th, hi, rfl, fun _ h => h⟩
  | tail _ hlast ih =>
    obtain ⟨a, -, hs⟩ := hlast
    obtain ⟨th₁, hi₁, hm₁, htr₁⟩ := ih
    obtain ⟨th₂, hi₂, hm₂, -, htr₂⟩ := step_kept hs hi₁
    exact ⟨th₂, hi₂, hm₂.trans hm₁, fun _ h => htr₂ (htr₁ h)⟩

/-- If Wait is answered with a value, a process of the container has ended with this exit code, or
has ended by a signal and the value is 0, or the value is -1 and the creation of the container was
reported to have failed. -/
theorem wait_reply {v : Int} (he : w.events = []) (hd : w.daemon = .new) (hp : w.procs = [])
    (hrun : Runs (fresh w) c) (hi : c.threads[i]? = some th) (hm : th.main = .rpc (.wait id))
    (hr : reply th = some (.exit v)) :
    (v = -1 ∧ ∃ sup ∈ c.threads, ∃ sp, ⟨.writeEvent sp (failureReport id), .ok ()⟩ ∈ sup.trace) ∨
      ∃ st, EndedIn w id st c ∧ v = st.reported := by
  have htraced : Reaches th.main.prog th.trace th.prog := traced_fresh hrun i th hi
  rw [hm, reply_some hr] at htraced
  obtain ⟨tx, htr⟩ := waitHandler_ret htraced
  obtain rfl : tx = i := own_channel hrun hi (by rw [htr]; simp) (by rw [htr]; simp [system, forkAnswer])
  have hawait : (⟨.awaitExit id tx, some v⟩ : Sys.Ev) ∈ th.trace := by rw [htr]; simp
  cases Machine.given_of_mem hrun rfl hi hawait fun r => rfl with
  | @intro c₁ c₂ a j th₁ hbefore hj hm₁ ha hev hs hrest =>
    obtain ⟨th₂, k, ch, w₂, rfl, -, -, -, hx, -⟩ := Machine.event_some hev
    have hrest : Runs c₁ c := (Steps.tail .refl ha hs).trans hrest
    have hexits : c₁.world.daemon.exits tx = some v := by
      cases ch with
      | err e | part e => cases hx
      | run n =>
        obtain ⟨x, hx, hpair⟩ := Option.map_eq_some_iff.mp hx
        obtain rfl : x = some v := congrArg Prod.fst hpair
        unfold World.awaitExit at hx
        split at hx
        · rename_i code hcode
          cases hx
          exact hcode
        · split at hx <;> cases hx
    obtain ⟨th₃, id', hi₃, hm₃, htold⟩ := (waits_run he hd hbefore).exits tx v hexits
    obtain ⟨th', hi', hm', -⟩ := runs_kept hrest hi₃
    cases hi.symm.trans hi'
    cases hm.symm.trans (hm'.trans hm₃)
    rcases htold.origin hp hbefore with ⟨rfl, sup, hsup, sp, hsent⟩ | ⟨st, hended, hv⟩
    · obtain ⟨t, ht⟩ := List.mem_iff_getElem?.mp hsup
      obtain ⟨sup', ht', -, hsub⟩ := runs_kept hrest ht
      exact .inl ⟨rfl, sup', List.mem_of_getElem? ht', sp, hsub hsent⟩
    · exact .inr ⟨st, hended.later hrest, hv⟩

/-- The init of a container exits with 1 while a client waits, and the client is told 1. -/
theorem wait_reply_sample : ∃ c : SysConf, Runs (fresh daemonHost) c ∧
    (∃ th ∈ c.threads[4]?, reply th = some (.exit 1)) ∧
    ∃ st, EndedIn daemonHost "c" st c ∧ st.reported = 1 := by
  have h : ∃ c ∈ runActions system.step (fun _ _ => True) (fresh daemonHost)
      (runningContainer "c" ++ [.invoke (.rpc (.wait "c"))] ++ goes 2 4 ++ containerEnds ++ [go 4]),
      ∃ th ∈ c.threads[4]?, th.main = .rpc (.wait "c") ∧ reply th = some (.exit 1) := by
    decide +kernel
  obtain ⟨c, hrun, th, hi, hm, hr⟩ := h
  have hrun := Steps.of_runActions hrun
  rcases wait_reply rfl rfl rfl hrun hi hm hr with ⟨he, -⟩ | ⟨st, hended, hv⟩
  · cases he
  · exact ⟨c, hrun, ⟨th, hi, hr⟩, st, hended, hv.symm⟩

end Clonebox
