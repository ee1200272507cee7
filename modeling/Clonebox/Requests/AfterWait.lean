import Clonebox.Lib.Reaches
import Clonebox.Lifecycle.ExitRecord
import Clonebox.Requests.Duplicate

/-! # Delete and State after the answer to Wait

The event `stopped` answers Wait. The supervisor sends it first and writes `stopped` into
`state.json` afterwards, and Delete and State read the file. -/

namespace Clonebox
open Conc

variable {id : String} {c c₁ c' : SysConf} {a : SysAction} {j n : Nat}

/-! ### Requests that read the status -/

/-- Delete without force, and State. -/
def asks (id : String) : Main → Bool
  | .rpc (.delete i false) => i = id
  | .rpc (.state i) => i = id
  | _ => false

/-- How a thread has ended. -/
def outcome (th : SysThread) : Option (Except Fault Reply) :=
  match th.prog with
  | .ret a => some (.ok a)
  | .fail e => some (.error e)
  | _ => none

/-- `ContainerNotStopped`, or a state that is not `stopped`. -/
def against (id : String) : Except Fault Reply → Bool
  | .error e => e = .status (toStatus (.containerNotStopped id))
  | .ok (.state s) => s.status ≠ .stopped
  | .ok _ => false

/-- A Delete that is refused because the container has not stopped, or a State that says so. -/
def Contradicts (id : String) (th : SysThread) : Prop :=
  asks id th.main = true ∧ ∃ r ∈ outcome th, against id r = true

/-- The state a call has found in `state.json` of the container. -/
def seen (id : String) : Sys.Ev → Option State
  | ⟨.read (.inBundle i .stateJson), r⟩ => if i = id then parsed r else none
  | _ => none

/-- What was read is a state other than `stopped`. -/
def stale (r : Io Content) : Bool := (parsed r).any (·.status ≠ .stopped)

/-- One read of `state.json`, and no call after a stale one. -/
def reading (id : String) : Proto Sys (Option Bool) where
  may g op := match g with
    | none => op = .read (stateJson id)
    | some b => b = false ∧ op ≠ .read (stateJson id)
  next
    | none, .read _, r => some (stale r)
    | g, _, _ => g
  halts _ := False

section
attribute [local simp] forall_except forall_content obeys_mapErr Prog.obeys_call Prog.ask
  Except.mapError reading stale parsed against toStatus readStateFile

/-- A request that reads the status ends against the container's end exactly if the read is
stale. -/
theorem asks_obeys {m : Main} (h : asks id m = true) :
    m.prog.Obeys (reading id) (fun g r => g = some (against id r)) none := by
  unfold asks at h
  split at h
  · obtain rfl := of_decide_eq_true h
    simp +contextual [Main.prog, Request.handler, Cloneboxd.delete, delete, cleanup]
  · obtain rfl := of_decide_eq_true h
    simp +contextual [Main.prog, Request.handler, Cloneboxd.state, state]
  · contradiction
end

/-- A call that has read a state other than `stopped`. -/
def Stale (id : String) (ev : Sys.Ev) : Prop := ∃ s, seen id ev = some s ∧ s.status ≠ .stopped

theorem stale_iff {r : Io Content} :
    stale r = true ↔ Stale id ⟨.read (stateJson id), r⟩ := by
  simp [stale, Stale, seen, Option.any_eq_true]

/-- The phase tells whether the request has read, and whether that was stale. -/
def Tells (id : String) : Option Bool → List Sys.Ev → Prop
  | none, tr => tr = []
  | some b, tr => b = true ↔ ∃ ev ∈ tr, Stale id ev

theorem reading_phase {tr : List Sys.Ev} (h : (reading id).Follows none tr) :
    Tells id ((reading id).phase none tr) tr := by
  have hstart : Tells id none [] := rfl
  refine h.history hstart ?_
  intro g tr ev hmay hJ
  obtain ⟨op, r⟩ := ev
  cases g with
  | none =>
    cases hmay
    cases hJ
    simpa [reading, Tells] using stale_iff
  | some b =>
    have hnot : ¬Stale id ⟨op, r⟩ := by
      intro hst
      obtain ⟨s, hs, -⟩ := hst
      unfold seen at hs
      split at hs
      · rename_i heq
        cases heq
        split at hs
        · rename_i hid
          exact hmay.2 (by rw [hid])
        · contradiction
      · contradiction
    simp only [reading, Tells] at hJ ⊢
    rw [hJ]
    simp [hnot]

/-- A request is answered against the container's end if and only if it has read a stale state. -/
theorem contradicts_iff {th : SysThread} (h : th.main.prog.Reaches th.trace th.prog) :
    Contradicts id th ↔ asks id th.main = true ∧ ∃ ev ∈ th.trace, Stale id ev := by
  refine and_congr_right fun hasks => ?_
  obtain ⟨hpast, hrest⟩ := h.obeys (asks_obeys hasks)
  have hphase := reading_phase hpast
  generalize (reading id).phase none th.trace = g at hrest hphase
  unfold outcome
  cases hp : th.prog with
  | ret x =>
    rw [hp] at hrest
    cases hrest
    simpa [Tells] using hphase
  | fail e =>
    rw [hp] at hrest
    cases hrest
    simpa [Tells] using hphase
  | halt =>
    rw [hp] at hrest
    exact hrest.elim
  | call op k =>
    rw [hp] at hrest
    have hmay : (reading id).may g op := hrest.1
    cases g with
    | none => simp [show th.trace = [] from hphase]
    | some b =>
      obtain rfl : b = false := hmay.1
      simpa [Tells] using hphase

/-! ### The schedules -/

/-- A supervisor of the container that has sent the event `stopped`. -/
def reported (id : String) : Kind → Phase → Bool
  | .create i _ (some _), .create (.reported _)
  | .create i _ (some _), .create (.ending _ _)
  | .create i _ (some _), .create (.stopped _) => i = id
  | _, _ => false

/-- Wait has been answered with an exit code, and the event `stopped` of the supervisor has been
processed. -/
structure Answered (id : String) (j : Nat) (c : SysConf) : Prop where
  told : ∃ th ∈ c.threads[j]?, reported id (kindOf th) (phaseOf th) = true
  processed : ∀ x ∈ c.world.events, x.1 = j → x.2.state ≠ .stopped
  replied : ∃ th ∈ c.threads, th.main = .rpc (.wait id) ∧ ∃ code, reply th = some (.exit code)

/-- A run of `create` in the process that was started for it, and a `start`, `pause`, `resume` or
`kill` of the container. -/
def operates (id : String) : Kind → Phase → Bool
  | .create i _ _, .create g => i = id ∧ g ≠ .child
  | .turn _ i, _ | .kill i, _ => i = id
  | _, _ => false

/-- Nothing but the supervisor operates on the container. -/
def Undisputed (id : String) (j : Nat) (c : SysConf) : Prop :=
  ∀ i < c.threads.length, ∀ th ∈ c.threads[i]?, Running th →
    operates id (kindOf th) (phaseOf th) = true → i = j

instance : Decidable (Undisputed id j c) :=
  inferInstanceAs (Decidable (∀ i < c.threads.length, ∀ th ∈ c.threads[i]?, Running th →
    operates id (kindOf th) (phaseOf th) = true → i = j))

/-- No request issued since has been answered against the container's end. -/
def Consistent (id : String) (n : Nat) (c : SysConf) : Prop :=
  ∀ (i : Nat) th, n ≤ i → c.threads[i]? = some th → ¬Contradicts id th

def KeepsConsistent (id : String) (n : Nat) (c : SysConf) (a : SysAction) : Prop :=
  ∀ c' ∈ system.step c a, Consistent id n c'

/-- The supervisor has written `stopped`. -/
def Wrote (id : String) (j : Nat) (c : SysConf) : Prop :=
  ∃ th ∈ c.threads[j]?, Finished id (kindOf th) (phaseOf th)

instance : Decidable (Wrote id j c) :=
  inferInstanceAs (Decidable (∃ th ∈ c.threads[j]?, Finished id (kindOf th) (phaseOf th)))

/-- `stopped` was in the file when Wait was answered, or the supervisor has written it since. -/
def Noted (id : String) (j : Nat) (c₁ c : SysConf) : Prop :=
  (∃ s ∈ c₁.world.file id, s.status = .stopped) ∨ ¬Wrote id j c₁ ∧ Wrote id j c

/-- A request issued since reads `state.json` only when `stopped` is noted there. -/
def ReadsNoted (id : String) (j n : Nat) (c₁ c : SysConf) (a : SysAction) : Prop :=
  ∀ e ∈ system.event c a, n ≤ e.1 → ∀ th ∈ c.threads[e.1]?, asks id th.main = true →
    (seen id e.2).isSome = true → Noted id j c₁ c

/-- A request issued since reads `state.json` only when the supervisor has written `stopped`. -/
def ReadsWritten (id : String) (j n : Nat) (c : SysConf) (a : SysAction) : Prop :=
  ∀ e ∈ system.event c a, n ≤ e.1 → ∀ th ∈ c.threads[e.1]?, asks id th.main = true →
    (seen id e.2).isSome = true → Wrote id j c

instance : Decidable (ReadsWritten id j n c a) :=
  inferInstanceAs (Decidable (∀ e ∈ system.event c a, n ≤ e.1 → ∀ th ∈ c.threads[e.1]?,
    asks id th.main = true → (seen id e.2).isSome = true → Wrote id j c))

theorem ReadsWritten.noted (h : ReadsWritten id j n c a) (hnot : ¬Wrote id j c₁) :
    ReadsNoted id j n c₁ c a :=
  fun e he hn th hi hasks hseen => .inr ⟨hnot, h e he hn th hi hasks hseen⟩

/-! ### What the supervisor still does -/

/-- From the answer of Wait on: the supervisor is past `waitpid`, and the file says `stopped` if and
only if that is noted. -/
structure After (id : String) (j : Nat) (c₁ c : SysConf) : Prop where
  reaped : ∃ th, c.threads[j]? = some th ∧ Reaped id (kindOf th) (phaseOf th)
  kept : Wrote id j c₁ → Wrote id j c
  file : ∀ s, c.world.file id = some s → (s.status = .stopped ↔ Noted id j c₁ c)

theorem Answered.after (h : Answered id j c) : After id j c c where
  reaped := by
    obtain ⟨th, hi, hrep⟩ := h.told
    refine ⟨th, hi, ?_⟩
    unfold reported at hrep
    split at hrep <;> try contradiction
    all_goals
      obtain rfl := of_decide_eq_true hrep
      exact ⟨_, _, _, ‹_›, ‹_›, rfl⟩
  kept hw := hw
  file := by
    intro s hs
    constructor
    · exact fun hst => .inl ⟨s, hs, hst⟩
    · intro hn
      rcases hn with ⟨s', hs', hst⟩ | ⟨hnot, hw⟩
      · cases hs.symm.trans hs'
        exact hst
      · exact (hnot hw).elim

theorem Wrote.step (h : Wrote id j c) (hc : Conforming c) (hs : system.step c a = some c') :
    Wrote id j c' := by
  obtain ⟨th, hi, hw⟩ := h
  obtain ⟨th', hi', -, hw'⟩ := step_keeps
    (P := fun k g => Finished id k g) (fun k g op r hd _ h => AtStage.next hd h fun g g' hm hg => by
      cases hm <;> first | rfl | contradiction) hc hs hi hw
  exact ⟨th', hi', hw'⟩

/-- The supervisor comes to have written `stopped` by writing it. -/
theorem Wrote.entry (h : Wrote id j c') (hc : Conforming c) (hs : system.step c a = some c') :
    Wrote id j c ∨ ∃ s, c'.world.file id = some s ∧ s.status = .stopped := by
  obtain ⟨th', hi', hw⟩ := h
  rcases step_enters (AtStage.not_init rfl) (AtStage.not_child rfl) hc hs hi' hw with
    ⟨th, hi, hw⟩ | ⟨th, op, r, ch, hi, -, hx, hd, hw⟩
  · exact .inl ⟨th, hi, hw⟩
  · rcases Finished.entry hd hw with hw | ⟨s, hst, hwrote⟩
    · exact .inl ⟨th, hi, hw⟩
    · cases wrote_some hwrote
      rcases World.exec_write hx with ⟨-, hf⟩ | ⟨e, he, -⟩
      · exact .inr ⟨s, hf, hst⟩
      · cases he

/-- Undisputed, the supervisor writes nothing but `stopped`. -/
theorem After.writes (h : After id j c₁ c) (ha : Undisputed id j c) (hc : Conforming c)
    (hs : system.step c a = some c') {s : State} (hw : Writes id s c a) :
    s.status = .stopped ∧ ¬Wrote id j c ∧ Wrote id j c' := by
  obtain ⟨i, th, th', hi, hrun, hby, hi', hk', hph⟩ := hw.writer hc hs
  have hop : operates id (kindOf th) (phaseOf th) = true := by
    generalize kindOf th = k at hby
    generalize phaseOf th = g at hby
    cases hby <;> simp [operates]
  obtain rfl : i = j := ha i (List.getElem?_eq_some_iff.mp hi).1 th hi hrun hop
  obtain ⟨th₁, hi₁, cp, sp, st, hk, hg, hst⟩ := h.reaped
  cases hi.symm.trans hi₁
  rw [hk, hg] at hby hph
  cases hby with
  | creating | created => contradiction
  | stopped =>
    refine ⟨rfl, ?_, th', hi', cp, sp, _, hk'.trans hk, hph, rfl⟩
    intro hwrote
    obtain ⟨th₂, hi₂, _, _, _, -, hg₂, hfin⟩ := hwrote
    cases hi.symm.trans hi₂
    cases hg.symm.trans hg₂
    contradiction

theorem After.step (h : After id j c₁ c) (ha : Undisputed id j c) (hc : Conforming c)
    (hs : system.step c a = some c') : After id j c₁ c' where
  reaped := by
    obtain ⟨th, hi, hr⟩ := h.reaped
    obtain ⟨th', hi', -, hr'⟩ := step_keeps (P := fun k g => Reaped id k g)
      (fun k g op r hd _ h => AtStage.next hd h fun g g' hm hg => reaped_move hm hg) hc hs hi hr
    exact ⟨th', hi', hr'⟩
  kept hw := (h.kept hw).step hc hs
  file := by
    intro s hf
    rcases step_file hc hs with e | ⟨e, -⟩ | ⟨s', hw, e⟩
    · rw [e] at hf
      have hnow := h.file s hf
      constructor
      · intro hst
        exact (hnow.mp hst).imp_right fun hn => ⟨hn.1, hn.2.step hc hs⟩
      · intro hn
        rcases hn with hold | ⟨hnot, hw⟩
        · exact hnow.mpr (.inl hold)
        · rcases hw.entry hc hs with hw | ⟨s', hf', hst⟩
          · exact hnow.mpr (.inr ⟨hnot, hw⟩)
          · cases (e.trans hf).symm.trans hf'
            exact hst
    · rw [e] at hf
      contradiction
    · cases hf.symm.trans e
      obtain ⟨hst, hnot, hwrote⟩ := h.writes ha hc hs hw
      exact iff_of_true hst (.inr ⟨fun h₁ => hnot (h.kept h₁), hwrote⟩)

/-! ### The result -/

/-- The phases of the programs that copy themselves. -/
def Phase.copies : Phase → Bool
  | .create _ | .exec _ => true
  | _ => false

theorem asks_not_copied {m : Main} {g : Phase} (h : asks id m = true) (hg : g.copies = true) :
    m.kind.has g = false := by
  unfold asks at h
  split at h
  · cases g <;> first | rfl | contradiction
  · cases g <;> first | rfl | contradiction
  · contradiction

theorem seen_some {ev : Sys.Ev} {s : State} (h : seen id ev = some s) :
    ∃ r, ev = ⟨.read (stateJson id), r⟩ ∧ parsed r = some s := by
  unfold seen at h
  split at h
  · split at h
    · rename_i hid
      subst hid
      exact ⟨_, rfl, h⟩
    · contradiction
  · contradiction

/-- What a call of a request has found in `state.json` is what the file says. -/
theorem event_seen {i : Nat} {ev : Sys.Ev} {s : State} (hc : Conforming c)
    (he : system.event c a = some (i, ev)) (hs : system.step c a = some c')
    (hseen : seen id ev = some s) : c.world.file id = some s := by
  obtain ⟨r, rfl, hp⟩ := seen_some hseen
  obtain ⟨th, k, ch, -, -, -, hx, -⟩ := event_thread hc he hs
  exact (World.exec_read hx).2 s hp

/-- No later request is contradicted in a step in which those that read find the container
stopped. -/
theorem Consistent.step (hcons : Consistent id n c) (hc : Conforming c)
    (ht : Machine.Traced system c) (hs : system.step c a = some c')
    (hread : ∀ e ∈ system.event c a, n ≤ e.1 → ∀ th ∈ c.threads[e.1]?, asks id th.main = true →
      ∀ s, seen id e.2 = some s → s.status = .stopped) : Consistent id n c' := by
  intro i th' hn hi' hcontra
  obtain ⟨hasks, ev, hmem, s, hseen, hst⟩ := (contradicts_iff (ht.step hs i th' hi')).mp hcontra
  rcases step_trace hc hs hi' hmem with ⟨th, hi, hm, -, hev⟩ | he | ⟨t, th, hcopy⟩
  · -- it was answered so before
    rw [hm] at hasks
    exact hcons i th hn hi ((contradicts_iff (ht i th hi)).mpr ⟨hasks, ev, hev, s, hseen, hst⟩)
  · obtain ⟨op, r⟩ := ev
    obtain ⟨th, k, ch, hi, -, -, -, hi'', -⟩ := event_thread hc he hs
    cases hi'.symm.trans hi''
    exact hst (hread _ he hn th hi hasks s hseen)
  · rw [hcopy.main] at hasks
    have hhas := phase_has (hc t th hcopy.origin)
    rcases hcopy.trace with ⟨hg, -⟩ | ⟨⟨g, hg⟩, -⟩
    · rw [hg] at hhas
      exact Bool.false_ne_true ((asks_not_copied hasks rfl).symm.trans hhas)
    · rw [hg] at hhas
      exact Bool.false_ne_true ((asks_not_copied hasks rfl).symm.trans hhas)

/-- One step: no later request is contradicted exactly if those that read, read what is noted. -/
theorem keepsConsistent_iff (hc : Conforming c) (ht : Machine.Traced system c)
    (ha : After id j c₁ c) (hcons : Consistent id n c) (hs : system.step c a = some c') :
    KeepsConsistent id n c a ↔ ReadsNoted id j n c₁ c a := by
  constructor
  · intro hok x he hn th hi hasks hseen
    obtain ⟨i, op, r⟩ := x
    obtain ⟨s, hs₁⟩ := Option.isSome_iff_exists.mp hseen
    rw [← ha.file s (event_seen hc he hs hs₁)]
    by_contra hst
    obtain ⟨th₀, k, ch, hi₀, -, -, -, hi', -⟩ := event_thread hc he hs
    cases hi.symm.trans hi₀
    refine hok c' hs i _ hn hi' ((contradicts_iff (ht.step hs i _ hi')).mpr ⟨hasks, ?_⟩)
    exact ⟨_, List.mem_append_right _ List.mem_cons_self, s, hs₁, hst⟩
  · intro hok c₂ hc₂
    cases hs.symm.trans hc₂
    refine hcons.step hc ht hs fun x he hn th hi hasks s hseen => ?_
    refine (ha.file s (event_seen hc he hs hseen)).mpr (hok x he hn th hi hasks ?_)
    rw [hseen]
    rfl

/-- When Wait has been answered because of the event `stopped` and nothing but the supervisor
operates on the container, no Delete or State issued afterwards is answered against that if and only
if each of them reads `state.json` when `stopped` is noted there: the file said so when Wait was
answered, or the supervisor has written it since. -/
theorem wait_then_delete {id : String} {j : Nat} {w : World} {c₁ c₂ : SysConf}
    (hrun : Steps system.step (fun _ _ => True) (fresh w) c₁) (hans : Answered id j c₁) :
    Steps system.step (fun c a => Undisputed id j c ∧ KeepsConsistent id c₁.threads.length c a) c₁ c₂ ↔
      Steps system.step
        (fun c a => Undisputed id j c ∧ ReadsNoted id j c₁.threads.length c₁ c a) c₁ c₂ := by
  have hfirst : Conforming c₁ ∧ Machine.Traced system c₁ :=
    run_invariant hrun (conforming_fresh w) (by intro i th hi; simp at hi)
      fun c a c' _ h _ hs => h.step hs
  refine Steps.congr (I := fun c => Conforming c ∧ Machine.Traced system c ∧ After id j c₁ c ∧
    Consistent id c₁.threads.length c) ?_ ?_ ?_
  · intro c a c' h hok hs
    exact ⟨h.1.step hs, h.2.1.step hs, h.2.2.1.step hok.1 h.1 hs, hok.2 c' hs⟩
  · intro c a c' h hs
    exact and_congr_right fun _ => keepsConsistent_iff h.1 h.2.1 h.2.2.1 h.2.2.2 hs
  · refine ⟨hfirst.1, hfirst.2, hans.after, fun i th hn hi => ?_⟩
    rw [List.getElem?_eq_none hn] at hi
    contradiction

instance {th : SysThread} : Decidable (Contradicts id th) :=
  inferInstanceAs (Decidable (_ ∧ ∃ r ∈ outcome th, against id r = true))

/-- A client waits for a running container; its child ends, the supervisor sends the event, and the
client is answered. -/
def answeredWait (id : String) : List SysAction :=
  runningContainer id ++ [.invoke (.rpc (.wait id))] ++ goes 2 4 ++
    [.call 2 (.err .ebusy), go 2, .env (.exit 7 (.exited 1))] ++ goes 3 1 ++
    [.env (.deliver 0), go 4]

theorem answered_of {c : SysConf} (htold : ∃ th ∈ c.threads[j]?, reported id (kindOf th) (phaseOf th) = true)
    (hev : c.world.events = []) (hreply : ∃ th ∈ c.threads, th.main = .rpc (.wait id) ∧
      reply th = some (.exit 1)) : Answered id j c where
  told := htold
  processed := by simp [hev]
  replied := by
    obtain ⟨th, hth, hm, hr⟩ := hreply
    exact ⟨th, hth, hm, 1, hr⟩

/-- The supervisor writes `stopped`, and then State and Delete are issued. -/
theorem wait_then_delete_sample : ∃ c₁ c₂ : SysConf, Answered "c" 1 c₁ ∧
    Steps system.step (fun c a => Undisputed "c" 1 c ∧ KeepsConsistent "c" c₁.threads.length c a) c₁ c₂ ∧
    ∃ th ∈ c₂.threads[6]?, th.main = .rpc (.delete "c" false) ∧ reply th = some .unit := by
  have h : ∃ c₁ ∈ runActions system.step (fun _ _ => True) (fresh daemonHost) (answeredWait "c"),
      (∃ th ∈ c₁.threads[1]?, reported "c" (kindOf th) (phaseOf th) = true) ∧ c₁.world.events = [] ∧
      (∃ th ∈ c₁.threads, th.main = .rpc (.wait "c") ∧ reply th = some (.exit 1)) ∧
      c₁.threads.length = 5 ∧ ¬Wrote "c" 1 c₁ ∧
      ∃ c₂ ∈ runActions system.step (fun c a => Undisputed "c" 1 c ∧ ReadsWritten "c" 1 5 c a) c₁
        (goes 2 1 ++ [.invoke (.rpc (.state "c")), go 5, .invoke (.rpc (.delete "c" false))] ++
          goes 4 6),
        ∃ th ∈ c₂.threads[6]?, th.main = .rpc (.delete "c" false) ∧ reply th = some .unit := by
    decide +kernel
  obtain ⟨c₁, h₁, htold, hev, hreply, hlen, hnot, c₂, h₂, hth⟩ := h
  have hans : Answered "c" 1 c₁ := answered_of htold hev hreply
  refine ⟨c₁, c₂, hans, (wait_then_delete (.of_runActions h₁) hans).mpr ?_, hth⟩
  rw [hlen]
  exact (Steps.of_runActions h₂).mono fun c a hok => ⟨hok.1, hok.2.noted hnot⟩

/-- Delete and State are issued before the supervisor writes: Wait has told that the container has
ended, and they are answered that it has not. -/
theorem wait_then_refused : ∃ c₁ c₂ : SysConf,
    Steps system.step (fun _ _ => True) (fresh daemonHost) c₁ ∧ Answered "c" 1 c₁ ∧
    Steps system.step (fun c _ => Undisputed "c" 1 c) c₁ c₂ ∧ c₁.threads.length = 5 ∧
    (∃ th ∈ c₂.threads[5]?, th.main = .rpc (.delete "c" false) ∧ Contradicts "c" th) ∧
    ∃ th ∈ c₂.threads[6]?, th.main = .rpc (.state "c") ∧ Contradicts "c" th := by
  have h : ∃ c₁ ∈ runActions system.step (fun _ _ => True) (fresh daemonHost) (answeredWait "c"),
      (∃ th ∈ c₁.threads[1]?, reported "c" (kindOf th) (phaseOf th) = true) ∧ c₁.world.events = [] ∧
      (∃ th ∈ c₁.threads, th.main = .rpc (.wait "c") ∧ reply th = some (.exit 1)) ∧
      c₁.threads.length = 5 ∧
      ∃ c₂ ∈ runActions system.step (fun c _ => Undisputed "c" 1 c) c₁
        [.invoke (.rpc (.delete "c" false)), go 5, .invoke (.rpc (.state "c")), go 6],
        (∃ th ∈ c₂.threads[5]?, th.main = .rpc (.delete "c" false) ∧ Contradicts "c" th) ∧
        ∃ th ∈ c₂.threads[6]?, th.main = .rpc (.state "c") ∧ Contradicts "c" th := by
    decide +kernel
  obtain ⟨c₁, h₁, htold, hev, hreply, hlen, c₂, h₂, hdel, hstate⟩ := h
  exact ⟨c₁, c₂, .of_runActions h₁, answered_of htold hev hreply, .of_runActions h₂, hlen, hdel,
    hstate⟩

end Clonebox
