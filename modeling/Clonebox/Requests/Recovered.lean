import Clonebox.Requests.AfterWait

/-! # Containers recovered as stopped

When the daemon starts, `recover` enters each container it finds a state file of. One whose process
is gone is entered as stopped, but its file is left as it is, and State and Delete read the file. -/

namespace Clonebox
open Conc

variable {id : String} {c c' : SysConf} {a : SysAction}

/-- No call writes a state to `state.json` of the container. -/
def Unwritten (id : String) (c : SysConf) (a : SysAction) : Prop :=
  ∀ e ∈ system.event c a, wrote id e.2 = none

instance : Decidable (Unwritten id c a) :=
  inferInstanceAs (Decidable (∀ e ∈ system.event c a, wrote id e.2 = none))

/-- In every run from here on that leaves the state file alone, no request is answered as if the
container had not stopped. -/
def StaysStopped (id : String) (c : SysConf) : Prop :=
  ∀ c', Steps system.step (Unwritten id) c c' → Consistent id c.threads.length c'

/-- The file says that the container has stopped, if it says anything. -/
def FileStopped (id : String) (c : SysConf) : Prop :=
  ∀ s, c.world.file id = some s → s.status = .stopped

theorem FileStopped.step (h : FileStopped id c) (hc : Conforming c) (hok : Unwritten id c a)
    (hs : system.step c a = some c') : FileStopped id c' := by
  intro s hf
  rcases step_file hc hs with e | ⟨e, -⟩ | ⟨s', ⟨ev, he, hw⟩, -⟩
  · rw [e] at hf
    exact h s hf
  · rw [e] at hf
    contradiction
  · rw [hok ev he] at hw
    contradiction

theorem FileStopped.staysStopped (h : FileStopped id c) (hc : Conforming c)
    (ht : Machine.Traced system c) : StaysStopped id c := by
  intro c' hrun
  have hstart : Consistent id c.threads.length c := by
    intro i th hn hi
    rw [List.getElem?_eq_none hn] at hi
    contradiction
  obtain ⟨-, -, -, hcons⟩ := run_invariant
    (I := fun c' => Machine.Traced system c' ∧ FileStopped id c' ∧ Consistent id c.threads.length c')
    hrun hc ⟨ht, h, hstart⟩ fun c a c' hc h hok hs =>
      ⟨h.1.step hs, h.2.1.step hc hok hs, h.2.2.step hc h.1 hs fun e he _ _ _ _ s hseen =>
        h.2.1 s (event_seen hc he hs hseen)⟩
  exact hcons

theorem World.readFile_state {w : World} {s : State} (h : w.file id = some s) :
    w.readFile (stateJson id) = .ok (.state s) := by
  obtain ⟨b, hb, hs⟩ := Option.bind_eq_some_iff.mp h
  unfold Bundle.file at hs
  split at hs
  · rename_i heq
    cases hs
    simp [World.readFile, World.content, hb, heq]
  · contradiction

/-- A State request issued now is answered with what the file says. -/
theorem state_now {s : State} (hup : c.world.up = true) (hf : c.world.file id = some s) :
    ∃ c' th, Steps system.step (Unwritten id) c c' ∧ c'.threads[c.threads.length]? = some th ∧
      th.main = .rpc (.state id) ∧ outcome th = some (.ok (.state s)) := by
  obtain ⟨k, hprog, hk⟩ : ∃ k, Main.prog (.rpc (.state id)) = .call (.read (stateJson id)) k ∧
      ∀ s, k (.ok (.state s)) = .ret (.state s) := ⟨_, rfl, fun _ => rfl⟩
  let th : SysThread := .start Main.prog none (.rpc (.state id))
  let c₁ : SysConf := ⟨c.world, c.threads ++ [th]⟩
  have hinvoke : system.step c (.invoke (.rpc (.state id))) = some c₁ := by
    simp [Machine.step, system, hup, c₁, th]
  have hth : c₁.threads[c.threads.length]? = some th := by
    simp [c₁]
  have hx : c₁.world.exec c.threads.length (.read (stateJson id)) (.run 0) =
      some (.ok (.state s), c.world) := by
    simp [World.exec, World.run, World.readFile_state hf, c₁]
  have hstep : system.step c₁ (go c.threads.length) = some ⟨c.world, c₁.threads.set c.threads.length
      (th.answer (.read (stateJson id)) k (.ok (.state s))) ++ []⟩ :=
    Machine.step_of_exec hth rfl hprog hx
  have hev := event_call hth rfl hprog hx
  have hrun : Steps system.step (Unwritten id) c c₁ := by
    refine Steps.refl.tail ?_ hinvoke
    intro e he
    cases he
  refine ⟨_, th.answer (.read (stateJson id)) k (.ok (.state s)), hrun.tail ?_ hstep, ?_, rfl, ?_⟩
  · intro e he
    rw [hev] at he
    cases he
    rfl
  · have hlen : c.threads.length < c₁.threads.length := by
      simp [c₁]
    rw [List.getElem?_append_left (by simpa using hlen), List.getElem?_set_self hlen]
  · simp [outcome, hk]

/-- A container that the daemon has recovered as stopped is stopped for the State and Delete
requests that follow if and only if its state file says so itself: `recover` has not had to correct
it. -/
theorem recovered_stopped {w : World} {c c₁ : SysConf} {dir : List String} {id : String}
    {e : ContainerEntry} (hrun : Steps system.step (fun _ _ => True) (fresh w) c)
    (hs : system.step c (.env (.daemonStart dir)) = some c₁) (hnew : c.world.entry id = none)
    (hrec : c₁.world.entry id = some e) :
    (e.state = .stopped → StaysStopped id c₁) ↔
      (e.state = .stopped → ∃ s, c₁.world.file id = some s ∧ s.status = .stopped) := by
  refine imp_congr_right fun _ => ?_
  obtain ⟨hc, ht⟩ : Conforming c₁ ∧ Machine.Traced system c₁ :=
    run_invariant (hrun.tail trivial hs) (conforming_fresh w) (by intro i th hi; simp at hi)
      fun c a c' _ h _ hs => h.step hs
  obtain ⟨hup, s, hf⟩ : c₁.world.up = true ∧ ∃ s, c₁.world.file id = some s := by
    obtain ⟨w₁, hw, rfl⟩ := Machine.step_env hs
    simp only [system, World.env] at hw
    split at hw
    · contradiction
    · cases hw
      rcases Daemon.recover_entry hrec with hold | ⟨s, hmem, -⟩
      · rw [show c.world.daemon.entry id = c.world.entry id from rfl, hnew] at hold
        contradiction
      · obtain ⟨name, -, hname⟩ := List.mem_map.mp hmem
        obtain ⟨rfl, hf⟩ := Prod.mk.inj hname
        exact ⟨rfl, s, hf⟩
  constructor
  · intro hstays
    refine ⟨s, hf, ?_⟩
    by_contra hne
    obtain ⟨c', th, hrun', hi, hm, hout⟩ := state_now hup hf
    refine hstays c' hrun' _ th le_rfl hi ⟨by rw [hm]; simp [asks], .ok (.state s), hout, ?_⟩
    simp [against, hne]
  · intro h
    obtain ⟨s', hf', hst'⟩ := h
    refine FileStopped.staysStopped (fun s'' hf'' => ?_) hc ht
    cases hf'.symm.trans hf''
    exact hst'

/-- A host whose container `c` was running when the power went. -/
def crashedHost (st : ContainerState) : World :=
  { sampleHost with bundle := fun i =>
      if i = "c" then some ⟨some (.state ⟨"1.0.1", "c", st, some 7, "/run/clonebox/c", none⟩), .dead⟩
      else none }

theorem recovered_stopped_sample : ∃ c₁ : SysConf,
    system.step (fresh (crashedHost .stopped)) (.env (.daemonStart ["c"])) = some c₁ ∧
    StaysStopped "c" c₁ := by
  have h : ∃ c₁ ∈ system.step (fresh (crashedHost .stopped)) (.env (.daemonStart ["c"])),
      (∃ e ∈ c₁.world.entry "c", e.state = .stopped) ∧
      ∃ s ∈ c₁.world.file "c", s.status = .stopped := by
    decide +kernel
  obtain ⟨c₁, hs, ⟨e, hrec, hst⟩, hfile⟩ := h
  exact ⟨c₁, hs, (recovered_stopped .refl hs rfl hrec).mpr (fun _ => hfile) hst⟩

/-- The daemon enters the container as stopped; State says that it is running, and Delete refuses
it. -/
theorem recovered_running : ∃ c₁ c₂ : SysConf,
    system.step (fresh (crashedHost .running)) (.env (.daemonStart ["c"])) = some c₁ ∧
    (∃ e ∈ c₁.world.entry "c", e.state = .stopped) ∧
    Steps system.step (Unwritten "c") c₁ c₂ ∧ c₁.threads.length = 0 ∧
    (∃ th ∈ c₂.threads[0]?, th.main = .rpc (.state "c") ∧ Contradicts "c" th) ∧
    ∃ th ∈ c₂.threads[1]?, th.main = .rpc (.delete "c" false) ∧ Contradicts "c" th := by
  have h : ∃ c₁ ∈ system.step (fresh (crashedHost .running)) (.env (.daemonStart ["c"])),
      (∃ e ∈ c₁.world.entry "c", e.state = .stopped) ∧ c₁.threads.length = 0 ∧
      ∃ c₂ ∈ runActions system.step (Unwritten "c") c₁
        [.invoke (.rpc (.state "c")), go 0, .invoke (.rpc (.delete "c" false)), go 1],
        (∃ th ∈ c₂.threads[0]?, th.main = .rpc (.state "c") ∧ Contradicts "c" th) ∧
        ∃ th ∈ c₂.threads[1]?, th.main = .rpc (.delete "c" false) ∧ Contradicts "c" th := by
    decide +kernel
  obtain ⟨c₁, hs, hrec, hlen, c₂, h₂, hstate, hdel⟩ := h
  exact ⟨c₁, c₂, hs, hrec, .of_runActions h₂, hlen, hstate, hdel⟩

end Clonebox
