import Clonebox.Requests.Duplicate

/-! # Who waits in an entry

A `stopped` event takes the waiters out of the entry and answers them. The handler of Kill sets the
status without that, and Wait registers whatever the status is. -/

namespace Clonebox
open Conc

variable {id : String} {c c' : SysConf} {a : SysAction}

/-- Nobody waits in the entry. -/
def ContainerEntry.free (e : ContainerEntry) : Prop := e.createdWaiter = none ∧ e.exitWaiter = []

instance {e : ContainerEntry} : Decidable e.free := inferInstanceAs (Decidable (_ ∧ _))

/-- Nobody waits in an entry that says `stopped`. -/
def Unparked (w : World) : Prop :=
  ∀ id, ∀ e ∈ w.entry id, e.state = .stopped → e.free

/-- The call sets an entry in which somebody waits to `stopped`, or registers a waiter in one that
says `stopped`. -/
def parks (w : World) : Op → Bool
  | .setEntry id .stopped => ∃ e ∈ w.entry id, ¬e.free
  | .pushWaiter id _ => ∃ e ∈ w.entry id, e.state = .stopped
  | _ => false

/-- Kill finds nobody waiting when it sets the entry, and Wait finds no stopped entry. -/
def ParksNobody (c : SysConf) (a : SysAction) : Prop :=
  ∀ x ∈ system.event c a, parks c.world x.2.1 = false

instance : Decidable (ParksNobody c a) :=
  inferInstanceAs (Decidable (∀ x ∈ system.event c a, parks c.world x.2.1 = false))

def KeepsUnparked (c : SysConf) (a : SysAction) : Prop :=
  ∀ c' ∈ system.step c a, Unparked c'.world

theorem World.exec_setEntry {w w' : World} {t : Nat} {st : ContainerState} {ch : Choice} {r : Unit}
    (h : w.exec t (.setEntry id st) ch = some (r, w')) :
    w'.daemon = w.daemon.modify id ({ · with state := st }) := by
  cases ch with
  | err e => simp [exec, Op.failure] at h
  | part e => simp [exec, runPart] at h
  | run n =>
    obtain rfl : _ = w' := by simpa [exec, run] using h
    rfl

theorem World.exec_pushWaiter {w w' : World} {t tx : Nat} {ch : Choice} {r : Bool}
    (h : w.exec t (.pushWaiter id tx) ch = some (r, w')) : w'.daemon =
      w.daemon.modify id fun e => { e with exitWaiter := e.exitWaiter ++ [tx] } := by
  cases ch with
  | err e => simp [exec, Op.failure] at h
  | part e => simp [exec, runPart] at h
  | run n =>
    obtain ⟨-, rfl⟩ : _ ∧ _ = w' := by simpa [exec, run] using h
    rfl

theorem ContainerEntry.update_free {e : ContainerEntry} {ev : Event} (h : ev.state = .stopped) :
    (e.update ev).free := by
  simp [update, free, h]

theorem Unparked.step (h : Unparked c.world) (hc : Conforming c) (hok : ParksNobody c a)
    (hs : system.step c a = some c') : Unparked c'.world := by
  intro id e he hst
  have hent : EntryChange id c a (c'.world.entry id) := step_entry hc hs
  generalize c'.world.entry id = o at hent he
  cases hent with
  | same => exact h id e he hst
  | inserted => cases he; contradiction
  | @turned i th t => cases he; cases t <;> contradiction
  | @killed i th e₀ hev hi hk hg hen =>
    cases he
    have hfree := hok _ hev
    simp only [parks, decide_eq_false_iff_not] at hfree
    by_contra hnot
    exact hfree ⟨e₀, hen, hnot⟩
  | removed | stopped => contradiction
  | @waits i tx found e₀ hev hen =>
    cases he
    have hrun := hok _ hev
    simp only [parks, decide_eq_false_iff_not] at hrun
    exact (hrun ⟨e₀, hen, hst⟩).elim
  | delivered ha hev hid hen =>
    cases he
    exact ContainerEntry.update_free hst
  | recovered ha hw =>
    cases he
    exact hw

theorem parksNobody_of_unparked (hs : system.step c a = some c') (h : Unparked c'.world) :
    ParksNobody c a := by
  intro x hx
  obtain ⟨i, op, r⟩ := x
  obtain ⟨th, k, ch, w, rfl, hi, hst, hop, hexec, hs'⟩ := Machine.event_some hx
  cases hs.symm.trans hs'
  show parks c.world op = false
  cases op with
  | setEntry id st =>
    cases st with
    | stopped =>
      simp only [parks, decide_eq_false_iff_not]
      intro hex
      obtain ⟨e, hen, hnot⟩ := hex
      have hentry : w.entry id = some { e with state := .stopped } := by
        have hd := World.exec_setEntry hexec
        rw [World.entry, hd, Daemon.entry_modify, show c.world.daemon.entry id = some e from hen]
        rfl
      have hfree := h id _ hentry rfl
      exact hnot hfree
    | creating | created | running | paused => rfl
  | pushWaiter id tx =>
    simp only [parks, decide_eq_false_iff_not]
    intro hex
    obtain ⟨e, hen, hstop⟩ := hex
    have hentry : w.entry id = some { e with exitWaiter := e.exitWaiter ++ [tx] } := by
      have hd := World.exec_pushWaiter hexec
      rw [World.entry, hd, Daemon.entry_modify, show c.world.daemon.entry id = some e from hen]
      rfl
    have hfree := h id _ hentry hstop
    simp [ContainerEntry.free] at hfree
  | _ => rfl

/-- The runs in which no waiter is ever parked in a stopped entry are those in which Kill sets no
entry to `stopped` in which somebody waits, and Wait registers in no entry that says `stopped`. -/
theorem wait_unparked {w : World} {c : SysConf} (hd : w.daemon = .new) :
    Steps system.step KeepsUnparked (fresh w) c ↔ Steps system.step ParksNobody (fresh w) c := by
  have hfirst : Conforming (fresh w) ∧ Unparked (fresh w).world := by
    refine ⟨conforming_fresh w, fun id e he => ?_⟩
    simp [World.entry, hd] at he
  refine Steps.congr (I := fun c => Conforming c ∧ Unparked c.world) ?_ ?_ hfirst
  · intro c a c' h hok hs
    exact ⟨h.1.step hs, hok c' hs⟩
  · intro c a c' h hs
    refine ⟨fun hok => parksNobody_of_unparked hs (hok c' hs), fun hok c₁ hc₁ => ?_⟩
    cases hs.symm.trans hc₁
    exact h.2.step h.1 hok hs

/-- A client waits for a container that then ends. -/
theorem wait_unparked_sample : ∃ c : SysConf,
    Steps system.step KeepsUnparked (fresh daemonHost) c ∧
    c.world.entry "c" = some ⟨.stopped, none, []⟩ := by
  have h : ∃ c ∈ runActions system.step ParksNobody (fresh daemonHost)
      (runningContainer "c" ++ [.invoke (.rpc (.wait "c"))] ++ goes 2 4 ++ containerEnds),
      c.world.entry "c" = some ⟨.stopped, none, []⟩ := by
    decide +kernel
  obtain ⟨c, hrun, hen⟩ := h
  exact ⟨c, (wait_unparked rfl).mpr (.of_runActions hrun), hen⟩

/-- A client waits for a container that has ended: its supervisor has returned, no event is on its
way, and the client stays in the entry. -/
theorem wait_parked : ∃ c : SysConf,
    Steps system.step (fun _ _ => True) (fresh daemonHost) c ∧ ¬Unparked c.world ∧
    c.world.entry "c" = some ⟨.stopped, none, [4]⟩ ∧ c.world.events = [] ∧
    (∃ th ∈ c.threads[4]?, th.main = .rpc (.wait "c") ∧ Running th) ∧
    ∀ th ∈ c.threads, th.main ≠ .rpc (.wait "c") → ¬Running th := by
  have h : ∃ c ∈ runActions system.step (fun _ _ => True) (fresh daemonHost)
      (runningContainer "c" ++ containerEnds ++ [go 0, .invoke (.rpc (.wait "c"))] ++ goes 2 4),
      c.world.entry "c" = some ⟨.stopped, none, [4]⟩ ∧ c.world.events = [] ∧
      (∃ th ∈ c.threads[4]?, th.main = .rpc (.wait "c") ∧ Running th) ∧
      ∀ th ∈ c.threads, th.main ≠ .rpc (.wait "c") → ¬Running th := by
    decide +kernel
  obtain ⟨c, hrun, hen, hq, hwait, hrest⟩ := h
  refine ⟨c, .of_runActions hrun, fun h => ?_, hen, hq, hwait, hrest⟩
  have hfree := h "c" _ hen rfl
  simp [ContainerEntry.free] at hfree

end Clonebox
