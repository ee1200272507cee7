import Clonebox.Requests.CreateReply

/-! # A second Create for the same id

The handler's `or_insert` leaves the entry alone, and the shim finds the bundle and returns. What
comes back is the event of its failure, and the daemon knows events by the id only. -/

namespace Clonebox
open Conc

variable {id : String} {c c' : SysConf} {a : SysAction}

def Stage.isRefused : Stage → Bool
  | .refused => true
  | _ => false

def Stage.isStart : Stage → Bool
  | .start => true
  | _ => false

/-- A run of `create` that has found the bundle. -/
abbrev Refused (id : String) : Kind → Phase → Prop := AtStage id Stage.isRefused

/-- A `create` handler for the container, or a run of `create` that finds the bundle there. -/
def DuplicateThread (id : String) (c : SysConf) (th : SysThread) : Prop :=
  (∃ configPath, kindOf th = .handler id configPath) ∨ Refused id (kindOf th) (phaseOf th) ∨
    (c.world.bundle id).isSome ∧ AtStage id Stage.isStart (kindOf th) (phaseOf th)

/-- The event that is processed was sent by a refused run. -/
def FromRefused (id : String) (c : SysConf) (x : Nat × Event) : Prop :=
  ∃ th ∈ c.threads[x.1]?, Refused id (kindOf th) (phaseOf th)

instance {x : Nat × Event} : Decidable (FromRefused id c x) :=
  inferInstanceAs (Decidable (∃ th ∈ c.threads[x.1]?, Refused id (kindOf th) (phaseOf th)))

/-- The step is one of a further Create, or processes the event it has caused. -/
def Duplicate (id : String) (c : SysConf) (a : SysAction) : Prop :=
  (∃ e ∈ system.event c a, ∃ th ∈ c.threads[e.1]?, DuplicateThread id c th) ∨
    ∃ x ∈ delivery c a, FromRefused id c x

/-- The entry of the container stays what it is, and nothing is sent to those who wait in it. -/
def Undisturbed (id : String) (w w' : World) : Prop :=
  ∀ e ∈ w.entry id, w'.entry id = some e ∧
    (∀ tx ∈ e.createdWaiter, w'.daemon.created tx = w.daemon.created tx) ∧
    ∀ rx ∈ e.exitWaiter, w'.daemon.exits rx = w.daemon.exits rx

def LeavesAlone (id : String) (c : SysConf) (a : SysAction) : Prop :=
  Duplicate id c a → ∀ c' ∈ system.step c a, Undisturbed id c.world c'.world

/-- The event of a refused run finds no entry, or one that says `stopped` and in which nobody
waits. -/
def RefusedHarmless (id : String) (c : SysConf) (a : SysAction) : Prop :=
  ∀ x ∈ delivery c a, FromRefused id c x →
    ∀ e ∈ c.world.entry id, e = ⟨.stopped, none, []⟩

instance : Decidable (RefusedHarmless id c a) :=
  inferInstanceAs (Decidable (∀ x ∈ delivery c a, FromRefused id c x →
    ∀ e ∈ c.world.entry id, e = ⟨.stopped, none, []⟩))

theorem Undisturbed.refl {w : World} : Undisturbed id w w :=
  fun _ he => ⟨he, fun _ _ => rfl, fun _ _ => rfl⟩

/-- All that a refused run sends is the report of its failure. -/
theorem refused_sends {th : SysThread} (h : contract.Conforms th) {sp : String} {e : Event}
    (hr : Refused id (kindOf th) (phaseOf th))
    (hev : (⟨.writeEvent sp e, .ok ()⟩ : Sys.Ev) ∈ th.trace) : e = failureReport id := by
  obtain ⟨cp, s, st, hk, hg, hst⟩ := hr
  obtain rfl : st = .refused := by cases st <;> first | rfl | contradiction
  by_contra hne
  -- any other event is sent at a stage from which `refused` is not reached
  have hpast : AtStage id (fun st => st ≠ .start ∧ st ≠ .refused) (kindOf th) (phaseOf th) := by
    refine h.past.after (I := fun g => AtStage id _ (kindOf th) g) hev ?_ ?_
    · intro g hmay
      change (kindOf th).may g _ at hmay
      show AtStage id _ (kindOf th) ((kindOf th).next g _ _)
      rw [hk] at hmay ⊢
      have hd := Kind.may_does hmay
      cases hd with
      | quiet hq => contradiction
      | failEvent h => exact (hne rfl).elim
      | creatingEvent => exact ⟨_, _, _, rfl, rfl, rfl⟩
      | createdEvent => exact ⟨_, _, _, rfl, rfl, rfl⟩
      | stoppedEvent => exact ⟨_, _, _, rfl, rfl, rfl⟩
    · intro g op r hmay hg
      refine AtStage.next (Kind.may_does hmay) hg fun g g' hm hg => ?_
      cases hm <;> first | rfl | contradiction
  obtain ⟨_, _, st, hk', hg', hst'⟩ := hpast
  cases hg.symm.trans hg'
  contradiction

/-- A duplicate changes the map at most by an `or_insert` for its own id. -/
theorem DuplicateThread.map (hc : Conforming c) (hs : system.step c a = some c') {i : Nat}
    {ev : Sys.Ev} {th : SysThread} (he : system.event c a = some (i, ev))
    (hi : c.threads[i]? = some th) (hd : DuplicateThread id c th) :
    c'.world.daemon = c.world.daemon ∨
      ∃ e, c'.world.daemon = c.world.daemon.orInsert id e := by
  have hkind : (∃ cp, kindOf th = .handler id cp) ∨ ∃ cp sp, kindOf th = .create id cp sp := by
    rcases hd with hh | ⟨cp, sp, st, hk, -⟩ | ⟨-, cp, sp, st, hk, -⟩
    · exact .inl hh
    · exact .inr ⟨cp, sp, hk⟩
    · exact .inr ⟨cp, sp, hk⟩
  have hm : MapChange c a c'.world.daemon := step_map hc hs
  generalize c'.world.daemon = d at hm
  cases hm with
  | same => exact .inl rfl
  | inserted he' hi' hk hg =>
    cases he.symm.trans he'
    cases hi.symm.trans hi'
    rcases hkind with ⟨cp, hk'⟩ | ⟨cp, sp, hk'⟩
    · cases hk.symm.trans hk'
      exact .inr ⟨_, rfl⟩
    · cases hk.symm.trans hk'
  | turned he' hi' hk hg | killed he' hi' hk hg | removed he' hi' hk hg =>
    cases he.symm.trans he'
    cases hi.symm.trans hi'
    rcases hkind with ⟨cp, hk'⟩ | ⟨cp, sp, hk'⟩
    · cases hk.symm.trans hk'
    · cases hk.symm.trans hk'
  | waits he' =>
    cases he.symm.trans he'
    obtain ⟨th', k, ch, hi', -, hdoes, -⟩ := event_thread hc he hs
    cases hi.symm.trans hi'
    rcases hkind with ⟨cp, hk⟩ | ⟨cp, sp, hk⟩
    · rw [hk] at hdoes
      generalize phaseOf th = g at hdoes
      cases hdoes with
      | quiet hq => contradiction
    · rw [hk] at hdoes
      generalize phaseOf th = g at hdoes
      cases hdoes with
      | quiet hq => contradiction
  | delivered ha | stopped ha | started ha =>
    rw [ha] at he
    contradiction

/-- A step of a duplicate's threads leaves the entry and the channels alone. -/
theorem duplicate_call (hc : Conforming c) (hs : system.step c a = some c') {i : Nat}
    {ev : Sys.Ev} {th : SysThread} (he : system.event c a = some (i, ev))
    (hi : c.threads[i]? = some th) (hd : DuplicateThread id c th) :
    Undisturbed id c.world c'.world := by
  intro e hen
  have hen' : c.world.daemon.entry id = some e := hen
  have hsame : c'.world.daemon = c.world.daemon := by
    rcases hd.map hc hs he hi with hsame | ⟨e', hins⟩
    · exact hsame
    · rw [hins, Daemon.orInsert_of_entry _ _ _ hen']
  rw [World.entry, hsame]
  exact ⟨hen', fun _ _ => rfl, fun _ _ => rfl⟩

/-- The event of a refused run is the report of its failure. -/
theorem FromRefused.report (hc : Conforming c) (hr : Registered c) {x : Nat × Event}
    (hx : delivery c a = some x) (h : FromRefused id c x) : x.2 = failureReport id := by
  obtain ⟨k, rfl, hk⟩ := delivery_some hx
  obtain ⟨th, hi, href⟩ := h
  obtain ⟨th', sp, hi', hev⟩ := hr.sent x.1 x.2 (List.mem_of_getElem? hk)
  cases hi.symm.trans hi'
  exact refused_sends (hc _ th hi) href hev

theorem ContainerEntry.update_failure {e : ContainerEntry}
    (h : e.update (failureReport id) = e) : e = ⟨.stopped, none, []⟩ := by
  rw [← h]
  simp [update, failureReport]

/-- One step: the duplicate leaves the entry alone exactly if its event finds nothing to change. -/
theorem leavesAlone_iff (hc : Conforming c) (hr : Registered c)
    (hs : system.step c a = some c') : LeavesAlone id c a ↔ RefusedHarmless id c a := by
  constructor
  · intro h x hx hfrom e hen
    have hund : Undisturbed id c.world c'.world := h (.inr ⟨x, hx, hfrom⟩) c' hs
    have hrep : x.2 = failureReport id := hfrom.report hc hr hx
    have hentry : c'.world.entry id = some (e.update (failureReport id)) := by
      have hupd := Daemon.updateStatus_entry c.world.daemon (failureReport id)
      rw [World.entry, delivery_step hx hs, hrep]
      rw [show (failureReport id).id = id from rfl] at hupd
      rw [hupd, show c.world.daemon.entry id = some e from hen]
      rfl
    exact ContainerEntry.update_failure (Option.some.inj (hentry.symm.trans (hund e hen).1))
  · intro h hdup c₁ hc₁
    cases hs.symm.trans hc₁
    rcases hdup with ⟨ev, he, th, hi, hd⟩ | ⟨x, hx, hfrom⟩
    · exact duplicate_call hc hs he hi hd
    · intro e hen
      obtain rfl : e = ⟨.stopped, none, []⟩ := h x hx hfrom e hen
      have hrep : x.2 = failureReport id := hfrom.report hc hr hx
      have hentry : c'.world.entry id = some ⟨.stopped, none, []⟩ := by
        have hupd := Daemon.updateStatus_entry c.world.daemon (failureReport id)
        rw [World.entry, delivery_step hx hs, hrep]
        rw [show (failureReport id).id = id from rfl] at hupd
        rw [hupd, show c.world.daemon.entry id = some _ from hen]
        rfl
      exact ⟨hentry, by simp, by simp⟩

/-- From every reachable state on, the runs in which a further Create for the id never disturbs the
entry are those in which the event of a refused shim finds no entry, or one that says `stopped` and
in which nobody waits. -/
theorem duplicate_create {id : String} {w : World} {c₁ c₂ : SysConf} (he : w.events = [])
    (hd : w.daemon = .new) (hrun : Steps system.step (fun _ _ => True) (fresh w) c₁) :
    Steps system.step (LeavesAlone id) c₁ c₂ ↔ Steps system.step (RefusedHarmless id) c₁ c₂ := by
  have hfirst := run_invariant hrun (conforming_fresh w) (registered_fresh he hd)
    fun c a c' hc h _ hs => h.step hc hs
  exact Steps.congr (I := fun c => Conforming c ∧ Registered c)
    (fun c a c' h _ hs => ⟨h.1.step hs, h.2.step h.1 hs⟩)
    (fun c a c' h hs => leavesAlone_iff h.1 h.2 hs) hfirst

/-- A container that the daemon has created and started; its child has pid 7 and is thread 2. -/
def runningContainer (id : String) : List SysAction :=
  createRequest id ++ goes 20 1 ++ [.call 1 (.run 7)] ++ goes 40 1 ++
    [.env (.deliver 0), .env (.deliver 0), .invoke (.rpc (.start id))] ++ goes 6 3 ++ goes 2 1

/-- Its child fails to mount and ends, and the supervisor reports that and returns. -/
def containerEnds : List SysAction :=
  [.call 2 (.err .ebusy), go 2, .env (.exit 7 (.exited 1))] ++ goes 7 1 ++ [.env (.deliver 0)]

/-- A second Create as thread `n`, with its shim, up to the event of its failure. -/
def duplicate (id : String) (n : Nat) : List SysAction :=
  [.invoke (.rpc (.create id "cfg"))] ++ goes 4 n ++ goes 3 (n + 1)

/-- The second Create comes when the container has ended. -/
theorem duplicate_create_sample : ∃ c₁ c₂ : SysConf,
    Steps system.step (fun _ _ => True) (fresh daemonHost) c₁ ∧
    c₁.world.entry "c" = some ⟨.stopped, none, []⟩ ∧
    Steps system.step (LeavesAlone "c") c₁ c₂ := by
  have h : ∃ c₁ ∈ runActions system.step (fun _ _ => True) (fresh daemonHost)
      (runningContainer "c" ++ containerEnds),
      c₁.world.entry "c" = some ⟨.stopped, none, []⟩ ∧
      ∃ c₂ ∈ runActions system.step (RefusedHarmless "c") c₁
        (duplicate "c" 4 ++ [.env (.deliver 0)]), True := by
    decide +kernel
  obtain ⟨c₁, h₁, hen, c₂, h₂, -⟩ := h
  exact ⟨c₁, c₂, .of_runActions h₁, hen,
    (duplicate_create rfl rfl (.of_runActions h₁)).mpr (.of_runActions h₂)⟩

/-- The second Create comes while the container runs and a client waits for its end: the entry says
`stopped`, and the client is told -1. -/
theorem duplicate_disturbs : ∃ c₁ c₂ : SysConf,
    Steps system.step (fun _ _ => True) (fresh daemonHost) c₁ ∧
    (c₁.world.bundle "c").isSome ∧ c₁.world.entry "c" = some ⟨.running, none, [4]⟩ ∧
    (∃ a, Duplicate "c" c₁ a ∧ system.step c₁ a = some c₂) ∧
    c₂.world.entry "c" = some ⟨.stopped, none, []⟩ ∧ c₂.world.daemon.exits 4 = some (-1) ∧
    ∃ s, c₂.world.file "c" = some s ∧ s.status = .running := by
  have h : ∃ c₁ ∈ runActions system.step (fun _ _ => True) (fresh daemonHost)
      (runningContainer "c" ++ [.invoke (.rpc (.wait "c"))] ++ goes 2 4 ++ duplicate "c" 5),
      (c₁.world.bundle "c").isSome ∧ c₁.world.entry "c" = some ⟨.running, none, [4]⟩ ∧
      (∃ x ∈ delivery c₁ (.env (.deliver 0)), FromRefused "c" c₁ x) ∧
      ∃ c₂ ∈ system.step c₁ (.env (.deliver 0)),
        c₂.world.entry "c" = some ⟨.stopped, none, []⟩ ∧ c₂.world.daemon.exits 4 = some (-1) ∧
        ∃ s ∈ c₂.world.file "c", s.status = .running := by
    decide +kernel
  obtain ⟨c₁, h₁, hb, hen, hdup, c₂, h₂, hen', hex, hfile⟩ := h
  exact ⟨c₁, c₂, .of_runActions h₁, hb, hen, ⟨_, .inr hdup, h₂⟩, hen', hex, hfile⟩

end Clonebox
