import Clonebox.Lifecycle.Leftovers
import Clonebox.System.GateUse

/-! # No command before start

The byte that lets a child through is written by the supervisor that has cloned it, after the
connection of `start`. The pipe is named by the thread that has made it. -/

namespace Clonebox
open Conc Prog

variable {id : String} {c c' : SysConf} {a : SysAction} {i : Nat} {th th' : SysThread}

/-- A child that has been let through, or a command that was started. -/
def released : Sys.Ev → Bool
  | ⟨.pipeRead _, .ok ()⟩ | ⟨.execve _ _ _, _⟩ => true
  | _ => false

/-- The thread has come to `container_exec`. -/
def AtExec (th : SysThread) : Prop := ∃ ev ∈ th.trace, released ev = true

instance : Decidable (AtExec th) :=
  inferInstanceAs (Decidable (∃ ev ∈ th.trace, released ev = true))

/-- The thread has made the pipe, or was cloned from the one that has: no call closes an end of
it. -/
def HoldsPipe (p : Nat) (th : SysThread) : Prop := ⟨.pipe2, .ok p⟩ ∈ th.trace

/-! ### Traces -/

/-- What `clone3` has told a thread, it goes by. -/
theorem clone_phase {args : CloneArgs} {pid : Int} (h : contract.Conforms th)
    (hev : (⟨.clone3 args, .ok pid⟩ : Sys.Ev) ∈ th.trace) :
    ∃ st : Stage, phaseOf th = .create st ∧
      if pid = 0 then st.isChild = true else st.pid = some pid := by
  refine h.past.after (I := fun g => ∃ st : Stage, g = .create st ∧
    if pid = 0 then st.isChild = true else st.pid = some pid) hev ?_ ?_
  · intro g hmay
    have hd : Does (kindOf th) g (.clone3 args) := Kind.may_does hmay
    show ∃ st : Stage, (kindOf th).next g (.clone3 args) (.ok pid) = .create st ∧ _
    generalize kindOf th = k at hd ⊢
    cases hd with
    | quiet hq => contradiction
    | looks hl => contradiction
    | clone =>
      by_cases hp : pid = 0
      · refine ⟨.child, by simp [Kind.next, Op.quiet, Stage.advance, hp], ?_⟩
        rw [if_pos hp]
        rfl
      · refine ⟨.cloned pid, by simp [Kind.next, Op.quiet, Stage.advance, hp], ?_⟩
        rw [if_neg hp]
        rfl
  · intro g op r hmay hst
    obtain ⟨st, rfl, hst⟩ := hst
    have hd : Does (kindOf th) (.create st) op := Kind.may_does hmay
    show ∃ st' : Stage, (kindOf th).next (.create st) op r = .create st' ∧ _
    generalize kindOf th = k at hd ⊢
    cases k with
    | create id cp sp =>
      rcases Stage.moves hd r with e | ⟨st', e, hm⟩
      · exact ⟨st, e, hst⟩
      · refine ⟨st', e, ?_⟩
        by_cases hp : pid = 0
        · rw [if_pos hp] at hst ⊢
          cases hm <;> first | exact hst | contradiction
        · rw [if_neg hp] at hst ⊢
          cases hm <;> first | exact hst | contradiction
    | turn | kill | delete | exec | handler | observer =>
      refine ⟨st, ?_, hst⟩
      rfl

theorem not_both_clones {args args' : CloneArgs} {pid : Int} (h : contract.Conforms th)
    (hchild : (⟨.clone3 args, .ok 0⟩ : Sys.Ev) ∈ th.trace)
    (hparent : (⟨.clone3 args', .ok pid⟩ : Sys.Ev) ∈ th.trace) : pid = 0 := by
  by_contra hp
  obtain ⟨st, hg, hst⟩ := clone_phase h hchild
  obtain ⟨st', hg', hst'⟩ := clone_phase h hparent
  cases hg.symm.trans hg'
  rw [if_pos rfl] at hst
  rw [if_neg hp] at hst'
  cases st <;> contradiction

/-! ### The invariant -/

/-- The thread was cloned by thread `p`. -/
def ClonedBy (p : Nat) (th : SysThread) : Prop :=
  th.parent = some p ∧ ∃ args, ⟨.clone3 args, .ok 0⟩ ∈ th.trace

structure Gated (c : SysConf) : Prop where
  traced : Machine.Traced system c
  /-- A pipe is held by its maker and the child of its maker. -/
  holder : ∀ (i : Nat) th p, c.threads[i]? = some th → HoldsPipe p th → p = i ∨ ClonedBy p th
  family : ∀ (i : Nat) th p, c.threads[i]? = some th → ClonedBy p th →
    ∃ sup, c.threads[p]? = some sup ∧ sup.main = th.main
  /-- A byte in a pipe was written by its maker. -/
  gate : ∀ p, c.world.gate p = true →
    ∃ sup, c.threads[p]? = some sup ∧ ⟨.pipeWrite p, .ok ()⟩ ∈ sup.trace
  read : ∀ (i : Nat) th p, c.threads[i]? = some th → ⟨.pipeRead p, .ok ()⟩ ∈ th.trace →
    ∃ sup, c.threads[p]? = some sup ∧ ⟨.pipeWrite p, .ok ()⟩ ∈ sup.trace

theorem gated_fresh {w : World} (hw : ∀ p, w.gate p = false) : Gated (fresh w) where
  traced := by intro i th hi; simp at hi
  holder := by intro i th p hi; simp at hi
  family := by intro i th p hi; simp at hi
  gate := by intro p hp; simp [hw] at hp
  read := by intro i th p hi; simp at hi

/-- A thread that has written to a pipe has made it, and has opened the gate for its child. -/
theorem Gated.writer {p : Nat} (hc : Conforming c) (ht : Machine.Traced system c)
    (hh : ∀ (i : Nat) th p, c.threads[i]? = some th → HoldsPipe p th → p = i ∨ ClonedBy p th)
    (hi : c.threads[i]? = some th) (hev : ⟨.pipeWrite p, .ok ()⟩ ∈ th.trace) :
    p = i ∧ ∃ id configPath sp args pid, kindOf th = .create id configPath sp ∧ pid ≠ 0 ∧
      ⟨.clone3 args, .ok pid⟩ ∈ th.trace ∧ Opened id pid th.trace := by
  obtain ⟨id, cp, sp, hk⟩ := kind_of_gates (ht i th hi) hev rfl nofun
  obtain ⟨p', args, pid, hpipe, hclone, hcase⟩ := main_marks (ht i th hi) hk hev nofun
  rcases hcase with ⟨hpid, -, hgates⟩ | ⟨-, -, hw | ⟨⟨path, args, env, hw⟩, -⟩⟩
  · obtain ⟨hw, hopen⟩ := hgates rfl
    cases hw
    refine ⟨?_, id, cp, sp, args, pid, hk, hpid, hclone, hopen⟩
    rcases hh i th p hi hpipe with e | ⟨-, args', hchild⟩
    · exact e
    · exact (hpid (not_both_clones (hc i th hi) hchild hclone)).elim
  · cases hw
  · cases hw

theorem Gated.holder_step (h : Gated c) (hc : Conforming c) (hs : system.step c a = some c')
    (i : Nat) (th' : SysThread) (p : Nat) (hi : c'.threads[i]? = some th')
    (hp : HoldsPipe p th') : p = i ∨ ClonedBy p th' := by
  rcases step_trace hc hs hi hp with ⟨th, hi₀, -, hpar, hev⟩ | hev | ⟨t, th, hcopy⟩
  · rcases h.holder i th p hi₀ hev with e | ⟨hparent, args, hclone⟩
    · exact .inl e
    · obtain ⟨th₁, hi₁, -, -, hsub⟩ := step_kept hs hi₀
      cases hi.symm.trans hi₁
      exact .inr ⟨hpar.trans hparent, args, hsub hclone⟩
  · obtain ⟨th, k, ch, -, -, -, hx, -⟩ := event_thread hc hev hs
    refine .inl ?_
    cases ch <;> simp [World.exec, World.run, World.runPart, Op.failure] at hx
    exact hx.1.symm
  · rcases hcopy.trace with ⟨hg, args, htr⟩ | ⟨⟨g, hg⟩, htr⟩
    · rw [HoldsPipe, htr] at hp
      rcases List.mem_append.mp hp with hp | hp
      · rcases h.holder t th p hcopy.origin hp with rfl | ⟨-, args', hclone⟩
        · exact .inr ⟨hcopy.parent, args, by rw [htr]; simp⟩
        · obtain ⟨st, hg', hst⟩ := clone_phase (hc t th hcopy.origin) hclone
          cases hg.symm.trans hg'
          contradiction
      · cases List.mem_singleton.mp hp
    · rw [HoldsPipe, htr] at hp
      rcases List.mem_append.mp hp with hp | hp
      · obtain ⟨id, hk⟩ := exec_phase (hc t th hcopy.origin) hg
        exact (exec_pipeless (h.traced t th hcopy.origin) hk hp).elim
      · cases List.mem_singleton.mp hp

theorem Gated.family_step (h : Gated c) (hc : Conforming c) (hs : system.step c a = some c')
    (i : Nat) (th' : SysThread) (p : Nat) (hi : c'.threads[i]? = some th')
    (hp : ClonedBy p th') : ∃ sup, c'.threads[p]? = some sup ∧ sup.main = th'.main := by
  have hsup {sup : SysThread} (hp : c.threads[p]? = some sup) (hm : sup.main = th'.main) :
      ∃ sup, c'.threads[p]? = some sup ∧ sup.main = th'.main := by
    obtain ⟨sup', hp', hm', -, -⟩ := step_kept hs hp
    exact ⟨sup', hp', hm'.trans hm⟩
  obtain ⟨hparent, args, hclone⟩ := hp
  rcases step_trace hc hs hi hclone with ⟨th, hi₀, hm, hpar, hev⟩ | hev | ⟨t, th, hcopy⟩
  · obtain ⟨sup, hp, hmain⟩ := h.family i th p hi₀ ⟨hpar.symm.trans hparent, args, hev⟩
    exact hsup hp (hmain.trans hm.symm)
  · obtain ⟨th, k, ch, -, -, -, hx, -⟩ := event_thread hc hev hs
    exact (World.not_answer_zero ⟨_, _, _, _, hx⟩).elim
  · cases hcopy.parent.symm.trans hparent
    exact hsup hcopy.origin hcopy.main.symm

/-- A thread that has written to a pipe stays. -/
theorem writer_kept (hs : system.step c a = some c') {p : Nat}
    (h : ∃ sup, c.threads[p]? = some sup ∧ ⟨.pipeWrite p, .ok ()⟩ ∈ sup.trace) :
    ∃ sup, c'.threads[p]? = some sup ∧ ⟨.pipeWrite p, .ok ()⟩ ∈ sup.trace := by
  obtain ⟨sup, hp, hw⟩ := h
  obtain ⟨sup', hp', -, -, hsub⟩ := step_kept hs hp
  exact ⟨sup', hp', hsub hw⟩

theorem Gated.gate_step (h : Gated c) (hc : Conforming c) (hs : system.step c a = some c')
    (p : Nat) (hp : c'.world.gate p = true) :
    ∃ sup, c'.threads[p]? = some sup ∧ ⟨.pipeWrite p, .ok ()⟩ ∈ sup.trace := by
  rcases step_world hs with ⟨i, op, r, ch, he, hx⟩ | e | ⟨e, -, he⟩ | ⟨t, -, e⟩
  · rcases World.exec_gate hx hp with hp | hev
    · exact writer_kept hs (h.gate p hp)
    · rw [hev] at he
      obtain ⟨th, k, -, -, -, -, -, hi', -⟩ := event_thread hc he hs
      have hw : ⟨.pipeWrite p, .ok ()⟩ ∈ (th.answer (.pipeWrite p) k (.ok ())).trace := by simp
      obtain ⟨rfl, -⟩ := Gated.writer (hc.step hs) (h.traced.step hs) (h.holder_step hc hs) hi' hw
      exact ⟨_, hi', hw⟩
  · rw [e] at hp
    exact writer_kept hs (h.gate p hp)
  · rw [World.env_gate he] at hp
    exact writer_kept hs (h.gate p hp)
  · rw [e] at hp
    exact writer_kept hs (h.gate p hp)

theorem Gated.read_step (h : Gated c) (hc : Conforming c) (hs : system.step c a = some c')
    (i : Nat) (th' : SysThread) (p : Nat) (hi : c'.threads[i]? = some th')
    (hp : ⟨.pipeRead p, .ok ()⟩ ∈ th'.trace) :
    ∃ sup, c'.threads[p]? = some sup ∧ ⟨.pipeWrite p, .ok ()⟩ ∈ sup.trace := by
  refine writer_kept hs ?_
  rcases step_trace hc hs hi hp with ⟨th, hi₀, -, -, hev⟩ | hev | ⟨t, th, hcopy⟩
  · exact h.read i th p hi₀ hev
  · obtain ⟨th, k, ch, -, -, -, hx, -⟩ := event_thread hc hev hs
    exact h.gate p (World.exec_pipeRead hx)
  · rcases hcopy.trace with ⟨-, args, htr⟩ | ⟨-, htr⟩
    · rw [htr] at hp
      rcases List.mem_append.mp hp with hp | hp
      · exact h.read t th p hcopy.origin hp
      · cases List.mem_singleton.mp hp
    · rw [htr] at hp
      rcases List.mem_append.mp hp with hp | hp
      · exact h.read t th p hcopy.origin hp
      · cases List.mem_singleton.mp hp

theorem Gated.step (h : Gated c) (hc : Conforming c) (hs : system.step c a = some c') :
    Gated c' where
  traced := h.traced.step hs
  holder := h.holder_step hc hs
  family := h.family_step hc hs
  gate := h.gate_step hc hs
  read := h.read_step hc hs

/-! ### The gate -/

theorem gates_of_released {ev : Sys.Ev} (h : released ev = true) :
    ev.1.gates = true ∧ (∀ p, ev.1 ≠ .pipeWrite p) ∧
      ∀ p, ev.1 = .pipeRead p → ev = ⟨.pipeRead p, .ok ()⟩ := by
  unfold released at h
  split at h
  · refine ⟨rfl, nofun, fun p e => ?_⟩
    cases e
    rfl
  · exact ⟨rfl, nofun, nofun⟩
  · contradiction

/-- A child at `container_exec` has read the byte from the pipe it shares with its supervisor. -/
theorem AtExec.read (h : AtExec th) (ht : (system.prog th.main).Reaches th.trace th.prog)
    {configPath : String} {sp : Option String} (hk : kindOf th = .create id configPath sp) :
    ∃ p args, HoldsPipe p th ∧ ⟨.clone3 args, .ok 0⟩ ∈ th.trace ∧
      ⟨.pipeRead p, .ok ()⟩ ∈ th.trace := by
  obtain ⟨ev, hev, hrel⟩ := h
  obtain ⟨hgates, hnw, hread⟩ := gates_of_released hrel
  obtain ⟨p, args, pid, hpipe, hclone, hcase⟩ :=
    main_marks ht hk hev fun hplain => by simp [Op.plain, hgates] at hplain
  rcases hcase with ⟨-, -, hopen⟩ | ⟨rfl, -, hr⟩
  · exact (hnw p (hopen hgates).1).elim
  · refine ⟨p, args, hpipe, hclone, ?_⟩
    rcases hr with hr | ⟨-, hr⟩
    · rw [← hread p hr]
      exact hev
    · exact hr

/-- A thread that waits at the gate holds the pipe. -/
theorem holds_of_waiting {p : Nat} {k : Io Unit → Prog Sys Fault Reply}
    (ht : (system.prog th.main).Reaches th.trace th.prog) (hp : th.prog = .call (.pipeRead p) k) :
    HoldsPipe p th := by
  rw [hp] at ht
  have hnext : (system.prog th.main).Reaches (th.trace ++ [⟨.pipeRead p, .ok ()⟩]) (k (.ok ())) :=
    ht.snoc
  have hlast : ⟨.pipeRead p, .ok ()⟩ ∈ th.trace ++ [(⟨.pipeRead p, .ok ()⟩ : Sys.Ev)] := by simp
  obtain ⟨id, cp, sp, hk⟩ := kind_of_gates hnext hlast rfl nofun
  obtain ⟨p', args, pid, hmem, -, hcase⟩ := main_marks hnext hk hlast nofun
  have hpipe : HoldsPipe p' th := by
    rcases List.mem_append.mp hmem with hmem | hmem
    · exact hmem
    · cases List.mem_singleton.mp hmem
  rcases hcase with ⟨-, -, hopen⟩ | ⟨-, -, hr | ⟨⟨path, args, env, hr⟩, -⟩⟩
  · cases (hopen rfl).1
  · cases hr
    exact hpipe
  · cases hr

/-- A child reaches `container_exec` only when the supervisor that has cloned it has done everything
up to the accepted connection; and while it waits for the byte, it holds the pipe itself, so the end
of the supervisor does not end its read. -/
theorem no_command_before_start {w : World} {c : SysConf} (hw : ∀ p, w.gate p = false)
    (hrun : Steps system.step (fun _ _ => True) (fresh w) c) {i : Nat} {th : SysThread}
    (hi : c.threads[i]? = some th) {id configPath : String} {sp : Option String}
    (hk : kindOf th = .create id configPath sp) :
    (AtExec th → ∃ (p : Nat) (sup : SysThread) (args : CloneArgs) (pid : Int),
      th.parent = some p ∧ c.threads[p]? = some sup ∧ sup.main = th.main ∧
        ⟨.clone3 args, .ok pid⟩ ∈ sup.trace ∧ Opened id pid sup.trace) ∧
    ∀ p k, th.prog = .call (.pipeRead p) k → HoldsPipe p th := by
  obtain ⟨hc, h⟩ := run_invariant hrun (conforming_fresh w) (gated_fresh hw)
    fun c a c' hc h _ hs => h.step hc hs
  refine ⟨fun hexec => ?_, fun p k hp => holds_of_waiting (h.traced i th hi) hp⟩
  obtain ⟨p, args, hhold, hchild, hread⟩ := hexec.read (h.traced i th hi) hk
  obtain ⟨sup, hp, hwrite⟩ := h.read i th p hi hread
  obtain ⟨-, id', cp, sp', args', pid, hk', hpid, hclone, hopen⟩ :=
    Gated.writer hc h.traced h.holder hp hwrite
  rcases h.holder i th p hi hhold with rfl | hby
  · -- the child has not written the byte itself
    cases hi.symm.trans hp
    exact (hpid (not_both_clones (hc _ th hi) hchild hclone)).elim
  · obtain ⟨sup', hp', hmain⟩ := h.family i th p hi hby
    cases hp.symm.trans hp'
    have hkind : kindOf sup = kindOf th := by rw [kindOf, hmain, kindOf]
    cases (hk'.symm.trans hkind).trans hk
    exact ⟨p, sup, args', pid, hby.1, hp, hmain, hclone, hopen⟩

/-- The child of a supervisor that was started comes to its command: it makes 15 calls to set itself
up, and reads the byte. -/
def childStarts (id : String) : List SysAction := supervise id ++ begin id 3 ++ goes 2 0 ++ goes 16 1

theorem no_command_before_start_sample : ∃ (c : SysConf) (th sup : SysThread) (pid : Int),
    Steps system.step (fun _ _ => True) (fresh sampleHost) c ∧ c.threads[1]? = some th ∧
      AtExec th ∧ c.threads[0]? = some sup ∧ Opened "c" pid sup.trace := by
  have h : ∃ c ∈ runActions system.step (fun _ _ => True) (fresh sampleHost) (childStarts "c"),
      ∃ th ∈ c.threads[1]?, kindOf th = .create "c" "cfg" none ∧ AtExec th ∧ th.parent = some 0 := by
    decide +kernel
  obtain ⟨c, hrun, th, hi, hk, hexec, hpar⟩ := h
  obtain ⟨hall, -⟩ := no_command_before_start (fun _ => rfl) (.of_runActions hrun) hi hk
  obtain ⟨p, sup, args, pid, hpar', hp, -, -, hopen⟩ := hall hexec
  obtain rfl : 0 = p := Option.some.inj (hpar.symm.trans hpar')
  exact ⟨c, th, sup, pid, .of_runActions hrun, hi, hexec, hp, hopen⟩

end Clonebox
