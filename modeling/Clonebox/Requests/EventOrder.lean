import Clonebox.Requests.ExitStatus

/-! # The order of events

A shim sends each event on a connection of its own, and the daemon processes the connections in any
order. What is processed last decides what the entry says. -/

namespace Clonebox
open Conc

variable {id : String} {i : Nat} {c c' : SysConf} {a : SysAction} {th : SysThread}

/-- The events about the container that are not yet processed. -/
def pending (id : String) (w : World) : List (Nat × Event) := w.events.filter fun x => x.2.id = id

/-- The event about the container that the thread has sent last. -/
def lastSent (id : String) (th : SysThread) : Option Event :=
  ((th.trace.filterMap sentEvent).filter fun e => e.id = id).getLast?

/-- Once all is processed, the entry says what thread `i` has sent last. -/
def UpToDate (id : String) (i : Nat) (c : SysConf) : Prop :=
  pending id c.world = [] → ∀ th ∈ c.threads[i]?, ∀ e ∈ lastSent id th,
    (c.world.entry id).map (·.state) = some e.state

/-- Thread `t` sets the entry in another way than by an event, or sends an event in place of thread
`i`. -/
def interferes (id : String) (i t : Nat) : Op → Bool
  | .insertEntry n _ | .setEntry n _ | .removeStopped n => n = id
  | .writeEvent _ e => e.id = id ∧ t ≠ i
  | _ => false

def restarts : SysAction → Bool
  | .env .daemonStop | .env (.daemonStart _) => true
  | _ => false

/-- What happens to the entry are the events of thread `i` and registrations of Wait. -/
def OnlyEvents (id : String) (i : Nat) (c : SysConf) (a : SysAction) : Prop :=
  restarts a = false ∧ ∀ x ∈ system.event c a, interferes id i x.1 x.2.1 = false

instance : Decidable (OnlyEvents id i c a) :=
  inferInstanceAs (Decidable (_ ∧ ∀ x ∈ system.event c a, interferes id i x.1 x.2.1 = false))

def KeepsUpToDate (id : String) (i : Nat) (c : SysConf) (a : SysAction) : Prop :=
  OnlyEvents id i c a ∧ ∀ c' ∈ system.step c a, UpToDate id i c'

/-- If no other event is left, the one that is processed says what was sent last. -/
def LastComesLast (id : String) (i : Nat) (c : SysConf) (a : SysAction) : Prop :=
  OnlyEvents id i c a ∧ ∀ x ∈ delivery c a, x.2.id = id → pending id c.world = [x] →
    ∀ th ∈ c.threads[i]?, ∀ e ∈ lastSent id th, x.2.state = e.state

instance : Decidable (LastComesLast id i c a) :=
  inferInstanceAs (Decidable (_ ∧ ∀ x ∈ delivery c a, x.2.id = id → pending id c.world = [x] →
    ∀ th ∈ c.threads[i]?, ∀ e ∈ lastSent id th, x.2.state = e.state))

/-! ### What is left to process -/

theorem filter_eraseIdx_nil {α : Type} {p : α → Bool} {l : List α} {k : Nat} {x : α}
    (hk : l[k]? = some x) (hp : p x = true) : (l.eraseIdx k).filter p = [] ↔ l.filter p = [x] := by
  induction l generalizing k with
  | nil => contradiction
  | cons y l ih =>
    cases k with
    | zero =>
      obtain rfl : y = x := by simpa using hk
      simp [hp]
    | succ k =>
      have hk' : l[k]? = some x := by simpa using hk
      have hmem : x ∈ l := List.mem_of_getElem? hk'
      cases hy : p y with
      | true =>
        have hne : l.filter p ≠ [] := by
          intro e
          have hx := List.mem_filter.mpr ⟨hmem, hp⟩
          rw [e] at hx
          contradiction
        simp [hy, hne]
      | false => simp [hy, ih hk']

theorem filter_eraseIdx_of_not {α : Type} {p : α → Bool} {l : List α} {k : Nat} {x : α}
    (hk : l[k]? = some x) (hp : p x = false) : (l.eraseIdx k).filter p = l.filter p := by
  induction l generalizing k with
  | nil => contradiction
  | cons y l ih =>
    cases k with
    | zero =>
      obtain rfl : y = x := by simpa using hk
      simp [hp]
    | succ k =>
      have hk' : l[k]? = some x := by simpa using hk
      rw [List.eraseIdx_cons_succ, List.filter_cons, List.filter_cons, ih hk']

theorem delivery_events {x : Nat × Event} (h : delivery c a = some x)
    (hs : system.step c a = some c') :
    ∃ k, c.world.events[k]? = some x ∧ c'.world.events = c.world.events.eraseIdx k := by
  obtain ⟨k, rfl, hk⟩ := delivery_some h
  obtain ⟨w, hw, rfl⟩ := Machine.step_env hs
  simp only [system, World.env, hk, Option.some.injEq] at hw
  exact ⟨k, hk, by rw [← hw]⟩

/-! ### One step -/

variable (id) in
/-- What a thread has sent last changes only when it sends. -/
theorem lastSent_step (hs : system.step c a = some c') (hi : c.threads[i]? = some th) :
    ∃ th', c'.threads[i]? = some th' ∧ (lastSent id th' = lastSent id th ∨
      ∃ sp e, system.event c a = some (i, ⟨.writeEvent sp e, .ok ()⟩) ∧ e.id = id) := by
  obtain ⟨th', hi', rfl | rfl | ⟨op, k, r, ch, ha, hst, hop, hx, rfl⟩⟩ := Machine.step_persists hs hi
  · exact ⟨_, hi', .inl rfl⟩
  · exact ⟨_, hi', .inl rfl⟩
  · refine ⟨_, hi', ?_⟩
    cases hsent : sentEvent ⟨op, r⟩ with
    | none =>
      refine .inl ?_
      simp [lastSent, hsent]
    | some e =>
      obtain ⟨sp, he⟩ := sentEvent_some hsent
      by_cases hid : e.id = id
      · refine .inr ⟨sp, e, ?_, hid⟩
        rw [ha, ← he]
        exact event_call hi hst hop hx
      · refine .inl ?_
        simp [lastSent, hsent, hid]

theorem delivery_cases (id : String) (c : SysConf) (a : SysAction) :
    (∃ x, delivery c a = some x ∧ x.2.id = id) ∨ ∀ x ∈ delivery c a, x.2.id ≠ id := by
  cases hx : delivery c a with
  | none => exact .inr nofun
  | some x =>
    rcases eq_or_ne x.2.id id with hid | hid
    · exact .inl ⟨x, rfl, hid⟩
    · refine .inr fun y hy => ?_
      cases hy
      exact hid

/-- What the entry says once an event has been processed. -/
theorem delivery_entry {x : Nat × Event} (hx : delivery c a = some x) (hid : x.2.id = id)
    (hen : (c.world.entry id).isSome) (hs : system.step c a = some c') :
    (c'.world.entry id).map (·.state) = some x.2.state := by
  obtain ⟨e, he⟩ := Option.isSome_iff_exists.mp hen
  have hd := delivery_step hx hs
  subst hid
  rw [World.entry, hd, Daemon.updateStatus_entry, show c.world.daemon.entry x.2.id = some e from he]
  rfl

/-- Where nothing interferes, a step that processes no event about the container leaves the entry
what it says. -/
theorem OnlyEvents.entry (hok : OnlyEvents id i c a) (hc : Conforming c)
    (hs : system.step c a = some c') (hx : ∀ x ∈ delivery c a, x.2.id ≠ id) :
    (c'.world.entry id).map (·.state) = (c.world.entry id).map (·.state) := by
  obtain ⟨hrestart, hcall⟩ := hok
  have hent : EntryChange id c a (c'.world.entry id) := step_entry hc hs
  generalize c'.world.entry id = o at hent ⊢
  cases hent with
  | same => rfl
  | inserted he | turned he | killed he | removed he =>
    have hno := hcall _ he
    simp [interferes] at hno
  | waits he hen => rw [hen]; rfl
  | @delivered k t ev e ha hev hid hen =>
    refine (hx (t, ev) ?_ hid).elim
    rw [ha]
    exact hev
  | stopped ha | recovered ha =>
    rw [ha] at hrestart
    contradiction

theorem sent_queued {sp : String} {e : Event} (hs : system.step c a = some c')
    (he : system.event c a = some (i, ⟨.writeEvent sp e, .ok ()⟩)) :
    c'.world.events = c.world.events ++ [(i, e)] := by
  obtain ⟨th, k, ch, w, rfl, hi, hst, hop, hexec, hs'⟩ := Machine.event_some he
  cases hs.symm.trans hs'
  rcases World.exec_writeEvent hexec with ⟨-, hq⟩ | ⟨⟨err, herr⟩, -⟩
  · exact hq
  · cases herr

theorem OnlyEvents.entry_isSome (hok : OnlyEvents id i c a) (hc : Conforming c)
    (hs : system.step c a = some c') (hen : (c.world.entry id).isSome) :
    (c'.world.entry id).isSome := by
  have hmap : ((c'.world.entry id).map (·.state)).isSome := by
    rcases delivery_cases id c a with ⟨x, hx, hid⟩ | hx
    · rw [delivery_entry hx hid hen hs]
      rfl
    · rw [hok.entry hc hs hx]
      simpa using hen
  simpa using hmap

/-- The queue of the container only loses the event that is processed. -/
theorem OnlyEvents.queue (hok : OnlyEvents id i c a) (hs : system.step c a = some c')
    (hx : ∀ x ∈ delivery c a, x.2.id ≠ id) (hp : pending id c'.world = []) :
    pending id c.world = [] := by
  have hq : QueueChange c a c'.world.events := step_queue hs
  unfold pending at hp ⊢
  generalize c'.world.events = q at hq hp
  cases hq with
  | same => exact hp
  | sent he =>
    rw [List.filter_append] at hp
    exact (List.append_eq_nil_iff.mp hp).1
  | @taken k ha =>
    cases hk : c.world.events[k]? with
    | none => rwa [List.eraseIdx_of_length_le (List.getElem?_eq_none_iff.mp hk)] at hp
    | some x =>
      have hid : x.2.id ≠ id := by
        refine hx x ?_
        rw [ha]
        exact hk
      rwa [filter_eraseIdx_of_not hk (by simpa using hid)] at hp
  | dropped ha =>
    have hrestart := hok.1
    rw [ha] at hrestart
    contradiction

/-- A step that processes no event about the container keeps the entry up to date. -/
theorem UpToDate.step (h : UpToDate id i c) (hc : Conforming c) (hok : OnlyEvents id i c a)
    (hi : c.threads[i]? = some th) (hs : system.step c a = some c')
    (hx : ∀ x ∈ delivery c a, x.2.id ≠ id) : UpToDate id i c' := by
  intro hp th₁ hi₁ e he
  obtain ⟨th', hi', hlast⟩ := lastSent_step id hs hi
  cases hi'.symm.trans hi₁
  rcases hlast with hlast | ⟨sp, e', hev, hid⟩
  · rw [hok.entry hc hs hx]
    rw [hlast] at he
    exact h (hok.queue hs hx hp) th hi e he
  · -- what was just sent is still to be processed
    rw [pending, sent_queued hs hev, List.filter_append] at hp
    have hnew := (List.append_eq_nil_iff.mp hp).2
    simp [hid] at hnew

/-- A step that processes an event about the container keeps the entry up to date if and only if it
is not the last to be processed, or says what was sent last. -/
theorem upToDate_delivery {x : Nat × Event} (hx : delivery c a = some x) (hid : x.2.id = id)
    (hen : (c.world.entry id).isSome) (hi : c.threads[i]? = some th)
    (hs : system.step c a = some c') : UpToDate id i c' ↔
      (pending id c.world = [x] → ∀ e ∈ lastSent id th, x.2.state = e.state) := by
  obtain ⟨k, hk, hq⟩ := delivery_events hx hs
  have hpend : pending id c'.world = [] ↔ pending id c.world = [x] := by
    rw [pending, hq]
    exact filter_eraseIdx_nil hk (by simpa using hid)
  have hstate := delivery_entry hx hid hen hs
  have hth : ∃ th', c'.threads[i]? = some th' ∧ lastSent id th' = lastSent id th := by
    obtain ⟨th', hi', hlast | ⟨sp, e, hev, -⟩⟩ := lastSent_step id hs hi
    · exact ⟨th', hi', hlast⟩
    · obtain ⟨k', rfl, -⟩ := delivery_some hx
      cases hev
  obtain ⟨th', hi', hlast⟩ := hth
  constructor
  · intro hup hp e he
    rw [← hlast] at he
    have heq := hup (hpend.mpr hp) th' hi' e he
    rw [hstate] at heq
    exact Option.some.inj heq
  · intro hcond hp th₁ hi₁ e he
    cases hi'.symm.trans hi₁
    rw [hlast] at he
    rw [hstate, hcond (hpend.mp hp) e he]

/-! ### The run -/

/-- The entry is there, and nothing about the container is on its way or was sent by thread `i`. -/
structure BeforeEvents (id : String) (i : Nat) (c : SysConf) : Prop where
  entry : (c.world.entry id).isSome
  pending : pending id c.world = []
  thread : ∃ th, c.threads[i]? = some th ∧ lastSent id th = none

/-- From the time at which thread `i` has sent nothing yet, and if only its events and registrations
of Wait change the entry: whenever all events are processed the entry says what was sent last, if
and only if of the events that are there the one sent last is always processed last. -/
theorem event_order {w : World} {c₀ c : SysConf} {id : String} {i : Nat}
    (hrun : Steps system.step (fun _ _ => True) (fresh w) c₀) (h₀ : BeforeEvents id i c₀) :
    Steps system.step (KeepsUpToDate id i) c₀ c ↔ Steps system.step (LastComesLast id i) c₀ c := by
  obtain ⟨hc₀, -⟩ := run_invariant (I := fun _ => True) hrun (conforming_fresh w) trivial
    fun _ _ _ _ _ _ _ => trivial
  obtain ⟨th₀, hi₀, hnone⟩ := h₀.thread
  have hup₀ : UpToDate id i c₀ := by
    intro _ th hi e he
    cases hi₀.symm.trans hi
    rw [hnone] at he
    contradiction
  have hfirst : Conforming c₀ ∧ (c₀.world.entry id).isSome ∧ (∃ th, c₀.threads[i]? = some th) ∧
      UpToDate id i c₀ := ⟨hc₀, h₀.entry, ⟨th₀, hi₀⟩, hup₀⟩
  refine Steps.congr (I := fun c => Conforming c ∧ (c.world.entry id).isSome ∧
    (∃ th, c.threads[i]? = some th) ∧ UpToDate id i c) ?_ ?_ hfirst
  · intro c a c' h hok hs
    obtain ⟨hc, hen, ⟨th, hi⟩, hup⟩ := h
    obtain ⟨th', hi', -⟩ := step_kept hs hi
    exact ⟨hc.step hs, hok.1.entry_isSome hc hs hen, ⟨th', hi'⟩, hok.2 c' hs⟩
  · intro c a c' h hs
    obtain ⟨hc, hen, ⟨th, hi⟩, hup⟩ := h
    refine and_congr_right fun hok => ?_
    have hnext : (∀ c₁ ∈ system.step c a, UpToDate id i c₁) ↔ UpToDate id i c' := by
      refine ⟨fun h => h c' hs, fun h c₁ hc₁ => ?_⟩
      cases hs.symm.trans hc₁
      exact h
    rw [hnext]
    rcases delivery_cases id c a with ⟨x, hx, hid⟩ | hx
    · rw [upToDate_delivery hx hid hen hi hs, hx, hi]
      simp [hid]
    · refine iff_of_true (hup.step hc hok hi hs hx) fun x hx' hid => ?_
      exact (hx x hx' hid).elim

/-- The shim, thread 1, sends all its events, of which the first is processed at once. The container
is started by a thread of its own, and its child ends. -/
def sendsAll (id : String) : List SysAction :=
  goes 20 1 ++ [.call 1 (.run 7)] ++ goes 40 1 ++ [.env (.deliver 0), .invoke (.turn .start id)] ++
    goes 3 3 ++ goes 2 1 ++ [.call 2 (.err .ebusy), go 2, .env (.exit 7 (.exited 1))] ++ goes 7 1

instance : Decidable (BeforeEvents id i c) :=
  decidable_of_iff ((c.world.entry id).isSome ∧ Clonebox.pending id c.world = [] ∧
      ∃ th ∈ c.threads[i]?, lastSent id th = none)
    ⟨fun ⟨h₁, h₂, h₃⟩ => ⟨h₁, h₂, h₃⟩, fun h => ⟨h.entry, h.pending, h.thread⟩⟩

/-- The events come in their order. -/
theorem event_order_sample : ∃ c₀ c : SysConf,
    Steps system.step (fun _ _ => True) (fresh daemonHost) c₀ ∧ BeforeEvents "c" 1 c₀ ∧
    Steps system.step (KeepsUpToDate "c" 1) c₀ c ∧ pending "c" c.world = [] ∧
    (c.world.entry "c").map (·.state) = some .stopped := by
  have h : ∃ c₀ ∈ runActions system.step (fun _ _ => True) (fresh daemonHost) (createRequest "c"),
      BeforeEvents "c" 1 c₀ ∧
      ∃ c ∈ runActions system.step (LastComesLast "c" 1) c₀
        (sendsAll "c" ++ [.env (.deliver 0), .env (.deliver 0)]),
        pending "c" c.world = [] ∧ (c.world.entry "c").map (·.state) = some .stopped := by
    decide +kernel
  obtain ⟨c₀, hrun₀, hbefore, c, hrun, hp, hen⟩ := h
  have hrun₁ := Steps.of_runActions hrun₀
  exact ⟨c₀, c, hrun₁, hbefore, (event_order hrun₁ hbefore).mpr (.of_runActions hrun), hp, hen⟩

/-- `stopped` is processed before `created`: the container has ended, no event is left, and the
entry says `created`. -/
theorem events_swapped : ∃ c₀ c : SysConf,
    Steps system.step (fun _ _ => True) (fresh daemonHost) c₀ ∧ BeforeEvents "c" 1 c₀ ∧
    Steps system.step (OnlyEvents "c" 1) c₀ c ∧ pending "c" c.world = [] ∧
    (∃ th ∈ c.threads[1]?, (lastSent "c" th).map (·.state) = some .stopped) ∧
    (c.world.entry "c").map (·.state) = some .created := by
  have h : ∃ c₀ ∈ runActions system.step (fun _ _ => True) (fresh daemonHost) (createRequest "c"),
      BeforeEvents "c" 1 c₀ ∧
      ∃ c ∈ runActions system.step (OnlyEvents "c" 1) c₀
        (sendsAll "c" ++ [.env (.deliver 1), .env (.deliver 0)]),
        pending "c" c.world = [] ∧
        (∃ th ∈ c.threads[1]?, (lastSent "c" th).map (·.state) = some .stopped) ∧
        (c.world.entry "c").map (·.state) = some .created := by
    decide +kernel
  obtain ⟨c₀, hrun₀, hbefore, c, hrun, hp, hlast, hen⟩ := h
  exact ⟨c₀, c, .of_runActions hrun₀, hbefore, .of_runActions hrun, hp, hlast, hen⟩

end Clonebox
