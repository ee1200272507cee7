import Clonebox.Lifecycle.Gate

/-! # What `created` says of the child

The supervisor does not hear from its child before it waits for its end. When it says `created`, its
own part is done; that the child is set up is known only of a child that is past the gate. -/

namespace Clonebox
open Conc Prog

variable {id : String} {th : SysThread}

/-- The event `created` was sent, or the status was written. -/
def saysCreated : Sys.Ev → Bool
  | ⟨.writeEvent _ e, .ok ()⟩ => e.state = .created
  | ⟨.write (.inBundle _ .stateJson) (.state s), .ok ()⟩ => s.status = .created
  | _ => false

def SaidCreated (th : SysThread) : Prop := ∃ ev ∈ th.trace, saysCreated ev = true

instance : Decidable (SaidCreated th) :=
  inferInstanceAs (Decidable (∃ ev ∈ th.trace, saysCreated ev = true))

theorem announces_of_says {ev : Sys.Ev} (h : saysCreated ev = true) :
    ev.1.announces = true := by
  unfold saysCreated at h
  split at h
  · exact h
  · exact h
  · contradiction

/-- A supervisor that has said `created` has cloned its child, set up its network and limited it. -/
theorem SaidCreated.prepared (h : SaidCreated th)
    (ht : (system.prog th.main).Reaches th.trace th.prog) {configPath : String} {sp : Option String}
    (hk : kindOf th = .create id configPath sp) :
    ∃ args pid, pid ≠ 0 ∧ ⟨.clone3 args, .ok pid⟩ ∈ th.trace ∧ Prepared id pid th.trace := by
  obtain ⟨ev, hev, hsays⟩ := h
  have hann := announces_of_says hsays
  obtain ⟨p, args, pid, -, hclone, hcase⟩ :=
    main_marks ht hk hev fun hplain => by simp [Op.plain, hann] at hplain
  rcases hcase with ⟨hpid, hprep, -⟩ | ⟨-, -, hr | ⟨⟨path, cargs, env, hr⟩, -⟩⟩
  · exact ⟨args, pid, hpid, hclone, hprep⟩
  · rw [hr] at hann
    contradiction
  · rw [hr] at hann
    contradiction

/-- A child at `container_exec` has completed its setup. -/
theorem AtExec.setUp (h : AtExec th) (ht : (system.prog th.main).Reaches th.trace th.prog)
    {configPath : String} {sp : Option String} (hk : kindOf th = .create id configPath sp) :
    ∃ config, Loaded configPath config th.trace ∧ Completed (childSetup id config) th.trace := by
  obtain ⟨ev, hev, hrel⟩ := h
  obtain ⟨hgates, hnw, -⟩ := gates_of_released hrel
  obtain ⟨p, args, pid, -, -, hcase⟩ :=
    main_marks ht hk hev fun hplain => by simp [Op.plain, hgates] at hplain
  rcases hcase with ⟨-, -, hopen⟩ | ⟨-, hset, -⟩
  · exact (hnw p (hopen hgates).1).elim
  · exact hset

/-- When `created` is sent or written, the child is cloned, its network is set up and its limits are
set; and a child that comes to its command has completed its own setup by then. -/
theorem created_prepared {w : World} {c : SysConf}
    (hrun : Steps system.step (fun _ _ => True) (fresh w) c) {i : Nat} {th : SysThread}
    (hi : c.threads[i]? = some th) {id configPath : String} {sp : Option String}
    (hk : kindOf th = .create id configPath sp) :
    (SaidCreated th →
      ∃ args pid, pid ≠ 0 ∧ ⟨.clone3 args, .ok pid⟩ ∈ th.trace ∧ Prepared id pid th.trace) ∧
    (AtExec th →
      ∃ config, Loaded configPath config th.trace ∧ Completed (childSetup id config) th.trace) := by
  have htraced : Machine.Traced system c := by
    refine hrun.invariant (fun c a c' h _ hs => h.step hs) ?_
    intro i th hi
    simp at hi
  exact ⟨fun h => h.prepared (htraced i th hi) hk, fun h => h.setUp (htraced i th hi) hk⟩

/-! ### A child that is not ready -/

/-- The last mount of the setup. -/
def mountsDev : Sys.Ev → Bool
  | ⟨.mount _ dest _ _ _, .ok ()⟩ => dest = "/dev"
  | _ => false

def exitsOne : Sys.Ev → Bool
  | ⟨.exit code, _⟩ => code = 1
  | _ => false

/-- A child that is set up has mounted `/dev`. -/
theorem mountsDev_of_setUp {config : Config} {tr : List Sys.Ev}
    (h : Completed (childSetup id config) tr) : ∃ ev ∈ tr, mountsDev ev = true := by
  obtain ⟨_, _, _, _, rfl, h⟩ := h
  obtain ⟨_, _, _, rfl, -, h⟩ := h.of_bind_ret
  obtain ⟨_, _, _, rfl, -, h⟩ := h.of_bind_ret
  obtain ⟨_, _, _, rfl, -, h⟩ := h.of_bind_ret
  obtain ⟨_, _, _, rfl, -, h⟩ := h.of_bind_ret
  obtain ⟨_, _, _, rfl, -, h⟩ := h.of_bind_ret
  obtain ⟨_, _, _, rfl, -, h⟩ := h.of_bind_ret
  obtain ⟨_, _, _, rfl, -, h⟩ := h.of_bind_ret
  cases mountChild_ret h
  exact ⟨⟨.mount (some "devtmpfs") "/dev" (some "devtmpfs") [] none, .ok ()⟩, by simp, rfl⟩

/-- A shim up to the network of its child, which has pid 7. -/
def networked (id : String) : List SysAction :=
  [.invoke (.shim id "cfg" getEventSocketPath)] ++ goes 20 0 ++ [.call 0 (.run 7)] ++ goes 30 0

/-- A shim that has sent `created`. -/
theorem created_prepared_sample : ∃ (c : SysConf) (th : SysThread) (pid : Int),
    Steps system.step (fun _ _ => True) (fresh daemonHost) c ∧ c.threads[0]? = some th ∧
      SaidCreated th ∧ Prepared "c" pid th.trace := by
  have h : ∃ c ∈ runActions system.step (fun _ _ => True) (fresh daemonHost)
      (networked "c" ++ goes 4 0), ∃ th ∈ c.threads[0]?,
      kindOf th = .create "c" "cfg" (some getEventSocketPath) ∧ SaidCreated th := by
    decide +kernel
  obtain ⟨c, hrun, th, hi, hk, hsaid⟩ := h
  obtain ⟨hprep, -⟩ := created_prepared (.of_runActions hrun) hi hk
  obtain ⟨args, pid, -, -, hp⟩ := hprep hsaid
  exact ⟨c, th, pid, .of_runActions hrun, hi, hsaid, hp⟩

/-- The child fails to mount and exits when the network is set up, and then the supervisor sends
`created` and writes the status. -/
theorem created_unready : ∃ c₁ c₂ : SysConf,
    Steps system.step (fun _ _ => True) (fresh daemonHost) c₁ ∧
    (∃ th sup : SysThread, c₁.threads[1]? = some th ∧ c₁.threads[0]? = some sup ∧
      th.parent = some 0 ∧ (∃ ev ∈ th.trace, exitsOne ev = true) ∧
      (∀ config, ¬Completed (childSetup "c" config) th.trace) ∧ ¬SaidCreated sup) ∧
    Steps system.step (fun c a => ∃ e ∈ system.event c a, e.1 = 0) c₁ c₂ ∧
    (∃ sup : SysThread, c₂.threads[0]? = some sup ∧ SaidCreated sup) ∧
    ∃ s, c₂.world.file "c" = some s ∧ s.status = .created := by
  have h : ∃ c₁ ∈ runActions system.step (fun _ _ => True) (fresh daemonHost)
      (networked "c" ++ [.call 1 (.err .ebusy), go 1, .env (.exit 7 (.exited 1))]),
      (∃ th ∈ c₁.threads[1]?, ∃ sup ∈ c₁.threads[0]?, th.parent = some 0 ∧
        (∃ ev ∈ th.trace, exitsOne ev = true) ∧ (∀ ev ∈ th.trace, mountsDev ev = false) ∧
        ¬SaidCreated sup) ∧
      ∃ c₂ ∈ runActions system.step (fun c a => ∃ e ∈ system.event c a, e.1 = 0) c₁ (goes 6 0),
        (∃ sup ∈ c₂.threads[0]?, SaidCreated sup) ∧
        ∃ s ∈ c₂.world.file "c", s.status = .created := by
    decide +kernel
  obtain ⟨c₁, h₁, ⟨th, hi, sup, hj, hpar, hexit, hdev, hnot⟩, c₂, h₂, hsaid, hfile⟩ := h
  refine ⟨c₁, c₂, .of_runActions h₁, ⟨th, sup, hi, hj, hpar, hexit, fun config hset => ?_, hnot⟩,
    .of_runActions h₂, hsaid, hfile⟩
  obtain ⟨ev, hev, hmount⟩ := mountsDev_of_setUp hset
  exact Bool.false_ne_true ((hdev ev hev).symm.trans hmount)

end Clonebox
