import Clonebox.Lifecycle.ExitRecord
import Clonebox.Lifecycle.Leftovers
import Clonebox.System.StartSocket

/-! # A supervisor that nobody can reach

`kill` writes `stopped` whether the supervisor has come through `accept4` or not, and `start`
refuses a container that is not `created`. -/

namespace Clonebox
open Conc

variable {id : String} {c c' : SysConf} {a : SysAction} {i : Nat}

/-! ### Who can be let through -/

def Stage.isListening : Stage → Bool
  | .listening _ => true
  | _ => false

/-- Thread `i` is the supervisor of the container, and has come to `accept4`. -/
def Waits (id : String) (i : Nat) (c : SysConf) : Prop :=
  ∃ th ∈ c.threads[i]?, th.stopped = false ∧ AtStage id Stage.isListening (kindOf th) (phaseOf th)

instance : Decidable (Waits id i c) :=
  inferInstanceAs (Decidable (∃ th ∈ c.threads[i]?, _ ∧ AtStage id _ (kindOf th) (phaseOf th)))

/-- Thread `j` is a `start` between its check and its connection. -/
def Pending (id : String) (j : Nat) (c : SysConf) : Prop :=
  ∃ th ∈ c.threads[j]?, Running th ∧ kindOf th = .turn .start id ∧ phaseOf th = .turn .passed

instance {j : Nat} : Decidable (Pending id j c) :=
  inferInstanceAs (Decidable (∃ th ∈ c.threads[j]?, _ ∧ _ ∧ _))

def StartPending (id : String) (c : SysConf) : Prop := ∃ j < c.threads.length, Pending id j c

instance : Decidable (StartPending id c) :=
  inferInstanceAs (Decidable (∃ j < c.threads.length, Pending id j c))

/-- The socket listens for the thread. -/
def Sock.listensFor (t : Nat) : Sock → Bool
  | .listening o _ => o = t
  | _ => false

/-- A connection is queued, or a `start` has yet to connect to the socket. -/
def CanEnter (id : String) (i : Nat) (c : SysConf) : Prop :=
  0 < c.world.queue i id ∨ StartPending id c ∧ (c.world.sock id).listensFor i = true

instance : Decidable (CanEnter id i c) := inferInstanceAs (Decidable (_ ∨ _ ∧ _))

/-- `state.json` says `stopped`, or the bundle is deleted. -/
def PutAway (id : String) (w : World) : Prop :=
  (∃ s ∈ w.file id, s.status = .stopped) ∨ w.bundle id = none

instance {w : World} : Decidable (PutAway id w) :=
  inferInstanceAs (Decidable ((∃ s ∈ w.file id, s.status = .stopped) ∨ w.bundle id = none))

/-- The container is over and its init dead, and its supervisor waits in `accept4` for a connection
that nobody can make: no `start` is past its check, or the socket is gone. -/
structure Stranded (id : String) (c : SysConf) (i : Nat) (pid : Int) : Prop where
  putAway : PutAway id c.world
  waits : ∃ th ∈ c.threads[i]?, Running th ∧ phaseOf th = .create (.listening pid) ∧
    Supervises id (kindOf th) (phaseOf th)
  dead : ∀ p ∈ c.world.procs, p.pid = pid → p.status ≠ none
  cut : ¬CanEnter id i c

/-! ### Conditions on a step -/

/-- Nobody removes the container by force. -/
def Unforced (id : String) (c : SysConf) (a : SysAction) : Prop :=
  ∀ e ∈ system.event c a, ∀ th ∈ c.threads[e.1]?, kindOf th ≠ .delete id true

instance : Decidable (Unforced id c a) :=
  inferInstanceAs (Decidable (∀ e ∈ system.event c a, ∀ th ∈ c.threads[e.1]?,
    kindOf th ≠ .delete id true))

/-- A step of a container with one supervisor and without a forced removal. -/
structure OneRun (id : String) (c : SysConf) (a : SysAction) : Prop where
  one : SingleStep id c a
  unforced : Unforced id c a

instance : Decidable (OneRun id c a) :=
  decidable_of_iff (SingleStep id c a ∧ Unforced id c a)
    ⟨fun h => ⟨h.1, h.2⟩, fun h => ⟨h.1, h.2⟩⟩

/-- A `kill` that has written `stopped`. -/
def killed (id : String) : Kind → Phase → Bool
  | .kill i, .kill .wrote | .kill i, .kill .settled => i = id
  | _, _ => false

def Killed (id : String) (c : SysConf) : Prop :=
  ∃ th ∈ c.threads, killed id (kindOf th) (phaseOf th) = true

instance : Decidable (Killed id c) :=
  inferInstanceAs (Decidable (∃ th ∈ c.threads, killed id (kindOf th) (phaseOf th) = true))

/-- `kill` writes `stopped` only when a supervisor in `accept4` can be let through. -/
def KillsReached (id : String) (c : SysConf) (a : SysAction) : Prop :=
  ∀ e ∈ system.event c a, ∀ th ∈ c.threads[e.1]?, kindOf th = .kill id →
    (wrote id e.2).isSome = true → ∀ i < c.threads.length, Waits id i c → CanEnter id i c

instance : Decidable (KillsReached id c a) :=
  inferInstanceAs (Decidable (∀ e ∈ system.event c a, ∀ th ∈ c.threads[e.1]?, kindOf th = .kill id →
    (wrote id e.2).isSome = true → ∀ i < c.threads.length, Waits id i c → CanEnter id i c))

def opens (id : String) : Sys.Ev → Bool
  | ⟨.listen p, r⟩ => p = startSk id ∧ r.isOk
  | _ => false

/-- A supervisor that listens after a `kill` finds a `start` that has yet to connect. -/
def ListensReached (id : String) (c : SysConf) (a : SysAction) : Prop :=
  ∀ e ∈ system.event c a, opens id e.2 = true → Killed id c →
    StartPending id c ∧ c.world.sock id = .bound e.1

instance : Decidable (ListensReached id c a) :=
  inferInstanceAs (Decidable (∀ e ∈ system.event c a, opens id e.2 = true → Killed id c →
    StartPending id c ∧ c.world.sock id = .bound e.1))

/-- The step ends the thread, or has its call fail. -/
def Cuts (c : SysConf) (j : Nat) : SysAction → Prop
  | .call t ch => t = j ∧ ch.fails = true
  | .crash t => t = j
  | .env e => ∃ th ∈ c.threads[j]?, system.halts e th.main = true
  | .invoke _ => False

instance {j : Nat} : Decidable (Cuts c j a) :=
  match a with
  | .call t ch => inferInstanceAs (Decidable (t = j ∧ ch.fails = true))
  | .crash t => inferInstanceAs (Decidable (t = j))
  | .env e => inferInstanceAs (Decidable (∃ th ∈ c.threads[j]?, system.halts e th.main = true))
  | .invoke _ => inferInstanceAs (Decidable False)

/-- The step removes the files of the bundle, even if it does not come to the end. -/
def Unlinks (id : String) (c : SysConf) : SysAction → Prop
  | .call t ch => ch.fails = false ∧ ∃ e ∈ system.event c (.call t ch), removes id e.2 = true
  | _ => False

instance : Decidable (Unlinks id c a) :=
  match a with
  | .call t ch => inferInstanceAs
    (Decidable (ch.fails = false ∧ ∃ e ∈ system.event c (.call t ch), removes id e.2 = true))
  | .crash _ | .env _ | .invoke _ => inferInstanceAs (Decidable False)

/-- Where there is a `start` that has yet to connect, the step leaves one. -/
def StartsLeft (id : String) (c : SysConf) (a : SysAction) : Prop :=
  ∀ j < c.threads.length, Pending id j c → Cuts c j a →
    ∃ k < c.threads.length, Pending id k c ∧ ¬Cuts c k a

instance : Decidable (StartsLeft id c a) :=
  inferInstanceAs (Decidable (∀ j < c.threads.length, Pending id j c → Cuts c j a →
    ∃ k < c.threads.length, Pending id k c ∧ ¬Cuts c k a))

/-- After a `kill`, and while a supervisor waits to which nobody has connected, the bundle is not
removed, and neither is the last `start` on its way ended, nor does its call fail. -/
def KeepsChance (id : String) (c : SysConf) (a : SysAction) : Prop :=
  Killed id c → ∀ i < c.threads.length, Waits id i c → c.world.queue i id = 0 →
    ¬Unlinks id c a ∧ StartsLeft id c a

instance : Decidable (KeepsChance id c a) :=
  inferInstanceAs (Decidable (Killed id c → ∀ i < c.threads.length, Waits id i c →
    c.world.queue i id = 0 → ¬Unlinks id c a ∧ StartsLeft id c a))

structure ReachedStep (id : String) (c : SysConf) (a : SysAction) : Prop extends OneRun id c a where
  kills : KillsReached id c a
  listens : ListensReached id c a
  chance : KeepsChance id c a

instance : Decidable (ReachedStep id c a) :=
  decidable_of_iff (OneRun id c a ∧ KillsReached id c a ∧ ListensReached id c a ∧ KeepsChance id c a)
    ⟨fun h => ⟨h.1, h.2.1, h.2.2.1, h.2.2.2⟩, fun h => ⟨h.toOneRun, h.kills, h.listens, h.chance⟩⟩

/-! ### The invariant -/

/-- Somebody has written `stopped`: a `kill`, or the supervisor. -/
def StopWritten (id : String) (c : SysConf) : Prop := Killed id c ∨ Has id Stage.isStopped c

/-- A removal without force that has found `stopped`. -/
def Clears (id : String) (k : Kind) (g : Phase) : Prop :=
  k = .delete id false ∧ ∃ st, g = .delete st ∧ st ≠ .idle ∧ st ≠ .refused

structure Reached (id : String) (c : SysConf) : Prop where
  one : OneSupervisor id c
  traced : Machine.Traced system c
  socks : SocksPlaced c
  file : ∀ s, c.world.file id = some s → s.status = .stopped → StopWritten id c
  clears : ∀ (i : Nat) th, c.threads[i]? = some th → Clears id (kindOf th) (phaseOf th) →
    StopWritten id c
  bundle : Has id Stage.owns c → (c.world.bundle id).isSome = true ∨ StopWritten id c
  enters : Killed id c → ∀ i, Waits id i c → CanEnter id i c

theorem reached_fresh {w : World} (hw : w.file id = none) (hsocks : ∀ id, (w.sock id).maker = none) :
    Reached id (fresh w) where
  one := List.Pairwise.nil
  traced := by intro i th hi; simp at hi
  socks := by
    intro id t ht
    cases (hsocks id).symm.trans ht
  file := by intro s hs; simp [hw] at hs
  clears := by intro i th hi; simp at hi
  bundle := fun h => (not_has_fresh h).elim
  enters := by
    intro hk
    obtain ⟨th, hth, -⟩ := hk
    cases hth

theorem killed_next {k : Kind} {g : Phase} {op : Op} {r : op.Ret} (hd : Does k g op)
    (h : killed id k g = true) : killed id k (k.next g op r) = true := by
  unfold killed at h
  split at h
  · cases hd with
    | quiet hq => simpa [Kind.next_quiet hq, killed] using h
    | settleKill => exact h
  · cases hd with
    | quiet hq => simpa [Kind.next_quiet hq, killed] using h
  · contradiction

theorem Killed.step (h : Killed id c) (hc : Conforming c) (hs : system.step c a = some c') :
    Killed id c' := by
  obtain ⟨th, hth, hk⟩ := h
  obtain ⟨j, hj⟩ := List.mem_iff_getElem?.mp hth
  obtain ⟨th', hj', -, hk'⟩ := step_keeps (P := fun k g => killed id k g = true)
    (fun k g op r hd _ h => killed_next hd h) hc hs hj hk
  exact ⟨th', List.mem_of_getElem? hj', hk'⟩

/-- A `kill` comes to have written `stopped` by writing it. -/
theorem Killed.entry (h : Killed id c') (hc : Conforming c) (hs : system.step c a = some c') :
    Killed id c ∨ ∃ (j : Nat) (th : SysThread) (s : State), c.threads[j]? = some th ∧
      kindOf th = .kill id ∧
      system.event c a = some (j, ⟨.write (stateJson id) (.state s), .ok ()⟩) := by
  obtain ⟨th', hth, hk⟩ := h
  obtain ⟨j, hj⟩ := List.mem_iff_getElem?.mp hth
  have hinit (m : Main) : ¬killed id m.kind m.kind.init = true := by
    generalize m.kind = k
    cases k <;> simp [killed, Kind.init]
  have hchild (k : Kind) (g : Phase) (hg : g.copied = true) : ¬killed id k g = true := by
    unfold killed
    split
    · contradiction
    · contradiction
    · exact Bool.false_ne_true
  rcases step_enters (P := fun k g => killed id k g = true) hinit hchild hc hs hj hk with
    ⟨th, hi, hk⟩ | ⟨th, op, r, ch, hi, he, hx, hd, hk⟩
  · exact .inl ⟨th, List.mem_of_getElem? hi, hk⟩
  · generalize hkind : kindOf th = k at hd hk
    generalize hg : phaseOf th = g at hd hk
    have hold (h : killed id k g = true) : Killed id c :=
      ⟨th, List.mem_of_getElem? hi, by rw [hkind, hg]; exact h⟩
    cases hd with
    | quiet hq =>
      rw [Kind.next_quiet hq] at hk
      exact .inl (hold hk)
    | @writeKilled i s =>
      cases r with
      | error e => simp [killed, Kind.next, Op.quiet, KillStage.advance] at hk
      | ok u =>
        obtain rfl : i = id := by simpa [killed, Kind.next, Op.quiet, KillStage.advance] using hk
        exact .inr ⟨j, th, _, hi, hkind, he⟩
    | settleKill => exact .inl (hold hk)
    | @checkKill i =>
      simp only [Kind.next, Op.quiet, KillStage.advance, Bool.false_eq_true, if_false] at hk
      cases hp : parsed r with
      | none => simp [hp, killed] at hk
      | some s =>
        cases ht : killTarget i s <;> simp [hp, ht, killed] at hk
    | signal =>
      simp only [Kind.next, Op.quiet, KillStage.advance, Bool.false_eq_true, if_false] at hk
      cases r with
      | ok u => simp [killed] at hk
      | error e => by_cases hcode : e.code = Errno.esrch.code <;> simp [hcode, killed] at hk
    | looks => contradiction
    | _ => simp [killed] at hk

theorem StopWritten.step (h : StopWritten id c) (hc : Conforming c)
    (hs : system.step c a = some c') : StopWritten id c' := by
  rcases h with h | h
  · exact .inl (h.step hc hs)
  · refine .inr (Has.step h hc hs fun g op r g' hm _ hg => ?_)
    cases hm <;> first | rfl | contradiction

theorem Reached.file_step (h : Reached id c) (hc : Conforming c) (hs : system.step c a = some c')
    (s : State) (hf : c'.world.file id = some s) (hst : s.status = .stopped) :
    StopWritten id c' := by
  rcases step_file hc hs with e | ⟨e, -⟩ | ⟨s', hw, e⟩
  · rw [e] at hf
    exact (h.file s hf hst).step hc hs
  · rw [e] at hf
    contradiction
  · cases hf.symm.trans e
    obtain ⟨j, th, th', hj, hrun, hby, hj', hk', hph⟩ := hw.writer hc hs
    generalize hk : kindOf th = k at hby hph hk'
    generalize phaseOf th = g at hby hph
    cases hby with
    | creating h => rw [h] at hst; contradiction
    | created => contradiction
    | stopped => exact .inr ⟨j, th', hj', _, _, _, hk', hph, rfl⟩
    | @turned t => cases t <;> contradiction
    | killed =>
      refine .inl ⟨th', List.mem_of_getElem? hj', ?_⟩
      rw [hk', hph]
      exact decide_eq_true rfl

theorem not_clears_init (m : Main) : ¬Clears id m.kind m.kind.init := by
  intro h
  obtain ⟨hk, st, hg, hidle, -⟩ := h
  rw [hk] at hg
  cases hg
  exact hidle rfl

theorem not_clears_child (k : Kind) (g : Phase) (hg : g.copied = true) : ¬Clears id k g := by
  intro h
  obtain ⟨-, st, rfl, -⟩ := h
  contradiction

/-- A removal without force goes on when it has read `stopped`. -/
theorem Clears.entry {w w' : World} {t : Nat} {ch : Choice} {k : Kind} {g : Phase} {op : Op}
    {r : op.Ret} (hd : Does k g op) (hx : w.exec t op ch = some (r, w'))
    (h : Clears id k (k.next g op r)) :
    Clears id k g ∨ ∃ s, w.file id = some s ∧ s.status = .stopped := by
  obtain ⟨rfl, st, hg, hidle, href⟩ := h
  cases hd with
  | quiet hq => exact .inl ⟨rfl, st, (Kind.next_quiet hq r).symm.trans hg, hidle, href⟩
  | checkDelete =>
    simp only [Kind.next, Op.quiet, DeleteStage.advance, Bool.false_eq_true, if_false,
      Phase.delete.injEq] at hg
    cases hp : parsed r with
    | none => simp [hp] at hg; exact (href hg.symm).elim
    | some s =>
      by_cases hst : s.status = .stopped
      · exact .inr ⟨s, (World.exec_read hx).2 s hp, hst⟩
      · simp [hp, hst] at hg
        exact (href hg.symm).elim
  | clearCgroup | clearBundle | settleDelete => exact .inl ⟨rfl, _, rfl, nofun, nofun⟩

theorem Reached.clears_step (h : Reached id c) (hc : Conforming c) (hs : system.step c a = some c')
    (j : Nat) (th' : SysThread) (hj : c'.threads[j]? = some th')
    (hcl : Clears id (kindOf th') (phaseOf th')) : StopWritten id c' := by
  refine StopWritten.step ?_ hc hs
  rcases step_enters not_clears_init not_clears_child hc hs hj hcl with
    ⟨th, hj₀, hcl⟩ | ⟨th, op, r, ch, hj₀, -, hx, hd, hcl⟩
  · exact h.clears j th hj₀ hcl
  · rcases Clears.entry hd hx hcl with hcl | ⟨s, hf, hst⟩
    · exact h.clears j th hj₀ hcl
    · exact h.file s hf hst

/-- Without force, the bundle is removed by somebody who has read `stopped`. -/
theorem Unforced.clears (h : Unforced id c a) (hc : Conforming c) (hs : system.step c a = some c')
    {e : Nat × Sys.Ev} (he : system.event c a = some e) (hr : removes id e.2 = true) :
    ∃ (j : Nat) (th : SysThread), c.threads[j]? = some th ∧ Clears id (kindOf th) (phaseOf th) := by
  obtain ⟨j, op, r⟩ := e
  obtain ⟨th, k, ch, hj, -, hd, -⟩ := event_thread hc he hs
  have hunf := h _ he th hj
  refine ⟨j, th, hj, ?_⟩
  unfold removes at hr
  split at hr
  · rename_i heq
    cases heq
    obtain rfl := of_decide_eq_true hr
    generalize kindOf th = k at hd hunf
    generalize phaseOf th = g at hd
    cases hd with
    | quiet hq => contradiction
    | @clearBundle i force =>
      cases force with
      | true => exact (hunf rfl).elim
      | false => exact ⟨rfl, _, rfl, nofun, nofun⟩
    | looks hl => contradiction
  · contradiction

theorem Reached.bundle_step (h : Reached id c) (hc : Conforming c) (hok : Unforced id c a)
    (hs : system.step c a = some c') (howns : Has id Stage.owns c') :
    (c'.world.bundle id).isSome = true ∨ StopWritten id c' := by
  have hstays (hb : (c.world.bundle id).isSome = true) :
      (c'.world.bundle id).isSome = true ∨ StopWritten id c' := by
    by_cases hund : Undeleted id c a
    · exact .inl (hund.stays hs hb)
    · simp only [Undeleted, not_forall] at hund
      obtain ⟨e, he, hr⟩ := hund
      obtain ⟨j, th, hj, hcl⟩ := hok.clears hc hs he (eq_true_of_ne_false hr)
      exact .inr ((h.clears j th hj hcl).step hc hs)
  obtain ⟨j, th', hj, howns⟩ := howns
  have hold {th : SysThread} (hj : c.threads[j]? = some th)
      (ho : AtStage id Stage.owns (kindOf th) (phaseOf th)) :
      (c'.world.bundle id).isSome = true ∨ StopWritten id c' := by
    rcases h.bundle ⟨j, th, hj, ho⟩ with hb | hst
    · exact hstays hb
    · exact .inr (hst.step hc hs)
  rcases step_enters (AtStage.not_init rfl) (AtStage.not_child rfl) hc hs hj howns with
    ⟨th, hj₀, ho⟩ | ⟨th, op, r, ch, hj₀, -, hx, hd, ho⟩
  · exact hold hj₀ ho
  · rcases AtStage.entry hd ho with ho | ⟨cp, sp, st, st', hk, hg, -, hm, hst⟩
    · exact hold hj₀ ho
    · cases hm with
      | made =>
        rcases World.exec_createDirAll hx with ⟨-, hb⟩ | ⟨e, he, -⟩
        · exact .inl hb
        · cases he
      | refused | passed | unloaded | unmade | child => contradiction
      | _ => exact hold hj₀ ⟨cp, sp, _, hk, hg, rfl⟩

theorem Waits.entry (h : Waits id i c') (hc : Conforming c) (hs : system.step c a = some c') :
    Waits id i c ∨ system.event c a = some (i, ⟨.listen (startSk id), .ok ()⟩) := by
  obtain ⟨th', hi, hrun, hst⟩ := h
  rcases step_enters (AtStage.not_init rfl) (AtStage.not_child rfl) hc hs hi hst with
    ⟨th, hi₀, hst⟩ | ⟨th, op, r, ch, hi₀, he, -, hd, hst⟩
  · exact .inl ⟨th, hi₀, (Machine.step_unstopped hs hi₀ hi hrun).1, hst⟩
  · rcases AtStage.entry hd hst with hst | ⟨_, _, st, st', -, -, -, hm, hst⟩
    · exact .inl ⟨th, hi₀, (Machine.step_unstopped hs hi₀ hi hrun).1, hst⟩
    · cases hm with
      | listening => exact .inr he
      | _ => contradiction

theorem Waits.lt (h : Waits id i c) : i < c.threads.length := by
  obtain ⟨th, hi, -⟩ := h
  exact (List.getElem?_eq_some_iff.mp hi).1

/-- For as long as it waits, a supervisor makes no call on the bundle. -/
theorem Waits.call {op : Op} {r : op.Ret} (h : Waits id i c) (h' : Waits id i c') (hc : Conforming c)
    (hs : system.step c a = some c') (he : system.event c a = some (i, ⟨op, r⟩)) : op.bundleOf = none := by
  obtain ⟨th, hi, -, cp, sp, st, hk, hg, hst⟩ := h
  obtain ⟨th', hi', -, _, _, st', -, hg', hst'⟩ := h'
  obtain ⟨th₁, k, ch, hi₁, -, hd, -, hi₂, hph⟩ := event_thread hc he hs
  cases hi.symm.trans hi₁
  cases hi'.symm.trans hi₂
  rw [hph, hk, hg] at hg'
  rw [hk, hg] at hd
  cases st with
  | listening pid =>
    cases hd with
    | quiet hq =>
      cases hop : op.bundleOf with
      | none => rfl
      | some id' => cases (Op.not_quiet_of_bundleOf hop).symm.trans hq
    | accept =>
      -- it would have come through, or given up
      cases r <;> cases hg' <;> cases hst'
    | failConnect | failEvent => rfl
    | close h => cases h
  | _ => cases hst

/-- A supervisor that waits has come to listen, so the address is one that a `start` can use. -/
theorem Waits.fits (h : Waits id i c) (hc : Conforming c) (ht : Machine.Traced system c) :
    (getSocketPath id).str.utf8ByteSize < 108 := by
  obtain ⟨th, hi, -, hst⟩ := h
  have hk : ∃ cp sp, kindOf th = .create id cp sp := by
    obtain ⟨cp, sp, st, hk, -⟩ := hst
    exact ⟨cp, sp, hk⟩
  obtain ⟨cp, sp, hk⟩ := hk
  obtain ⟨⟨op, r⟩, hev, g, hmay, hbefore, hafter⟩ := (hc i th hi).past.cause
    (I := fun g => AtStage id Stage.isListening (kindOf th) g) (AtStage.not_init rfl th.main) hst
  rcases AtStage.entry (Kind.may_does hmay) hafter with hst | ⟨_, _, st, st', -, -, -, hm, hst⟩
  · exact (hbefore hst).elim
  · have hop : op = .listen (startSk id) := by
      cases hm with
      | listening => rfl
      | _ => contradiction
    exact ((ht i th hi).calls (listen_fits hk)).1 _ hev (.inl hop)

/-! ### Nobody is cut off -/

/-- A `start` that has yet to connect is left alone by the steps of others. -/
theorem Pending.other {j t : Nat} (h : Pending id j c) {ev : Sys.Ev}
    (he : system.event c a = some (t, ev)) (hs : system.step c a = some c') (hne : t ≠ j) :
    Pending id j c' := by
  obtain ⟨th, hj, hth⟩ := h
  exact ⟨th, event_other he hs hj hne, hth⟩

theorem Pending.startPending {j : Nat} (h : Pending id j c) : StartPending id c := by
  have hp := h
  obtain ⟨th, hj, -⟩ := h
  exact ⟨j, (List.getElem?_eq_some_iff.mp hj).1, hp⟩

theorem StartPending.other (h : StartPending id c) {t : Nat} {ev : Sys.Ev} {th : SysThread}
    (he : system.event c a = some (t, ev)) (hs : system.step c a = some c')
    (ht : c.threads[t]? = some th) (hk : kindOf th ≠ .turn .start id) : StartPending id c' := by
  obtain ⟨j, -, hp⟩ := h
  have hne : t ≠ j := by
    rintro rfl
    obtain ⟨th₀, hj, -, hkind, -⟩ := hp
    cases ht.symm.trans hj
    exact hk hkind
  exact (hp.other he hs hne).startPending

/-- The next call of a `start` that has yet to connect. -/
theorem Pending.next {th : SysThread} {op : Op} {b : Bool}
    (hd : Does (kindOf th) (phaseOf th) op) (hk : kindOf th = .turn .start id)
    (hg : phaseOf th = .turn .passed) (hmay : (mishaps id).may b op) :
    b = false ∧ (op = .socket ∨ op = .connect (startSk id)) := by
  rw [hk, hg] at hd
  obtain ⟨hcall, happ⟩ := hmay
  have hop : op = .socket ∨ op = .connect (startSk id) := by
    cases hd with
    | quiet hq =>
      unfold startCalls at hcall
      split at hcall
      · subst hcall
        cases hq
      · exact .inr (congrArg _ hcall)
      · obtain ⟨rfl, -⟩ := hcall
        cases hq
      · cases hq
      · exact .inl rfl
      · exact hcall.elim
    | connect => exact .inr rfl
    | rereadPassed hne => exact absurd rfl hne
  refine ⟨?_, hop⟩
  cases b with
  | false => rfl
  | true => rcases hop with rfl | rfl <;> cases happ rfl

/-- A `start` that has met with no mishap is not over before it has connected. -/
theorem Pending.running {th : SysThread} (h : contract.Conforms th) (hk : kindOf th = .turn .start id)
    (hg : phaseOf th = .turn .passed) (hst : th.stopped = false)
    (hrest : th.prog.Obeys (mishaps id) (fun b r => b = true ∨ ∃ x, r = .ok x) false) : Running th := by
  cases hp : th.prog with
  | call op k => exact ⟨hst, op, k, hp⟩
  | ret r =>
    have hpost : th.prog.Obeys th.main.proto (kindOf th).post (phaseOf th) :=
      h.rest.mono fun _ _ hpost => hpost.1
    rw [hp, hk, hg] at hpost
    have hend : TurnStage.passed = .wrote ∨ TurnStage.passed = .settled := hpost.mpr ⟨r, rfl⟩
    rcases hend with he | he <;> cases he
  | fail e =>
    rw [hp] at hrest
    rcases hrest with hb | ⟨x, hx⟩
    · cases hb
    · cases hx
  | halt =>
    rw [hp] at hrest
    exact hrest.elim

/-- A call that does not fail gives a `start` its socket, or connects it. -/
theorem Pending.answered {j : Nat} {th : SysThread} {op : Op} {k : op.Ret → Prog Sys Fault Reply} {r : op.Ret}
    {ch : Choice} (hc' : Conforming c') (ht : Machine.Traced system c)
    (hfit : (getSocketPath id).str.utf8ByteSize < 108) (hsock : c.world.sock id = .listening i 0)
    (hj : c.threads[j]? = some th) (hst : th.stopped = false) (hk : kindOf th = .turn .start id)
    (hg : phaseOf th = .turn .passed) (hp : th.prog = .call op k) (hd : Does (kindOf th) (phaseOf th) op)
    (hx : c.world.exec j op ch = some (r, c'.world)) (hch : ch.fails = false)
    (hj' : c'.threads[j]? = some (th.answer op k r))
    (hph : phaseOf (th.answer op k r) = (kindOf th).next (phaseOf th) op r) :
    Pending id j c' ∨ (⟨op, r⟩ : Sys.Ev) = ⟨.connect (startSk id), .ok ()⟩ := by
  have hrest := ((ht j th hj).obeys (startMain_obeys hfit hk)).2
  rw [hp] at hrest
  obtain ⟨hmay, hnext⟩ := hrest
  obtain ⟨hb, hop⟩ := Pending.next hd hk hg hmay
  cases ch with
  | err e => cases hch
  | part e => rcases hop with rfl | rfl <;> cases hx
  | run n =>
    rcases hop with rfl | rfl
    · -- it has its socket
      obtain rfl : Except.ok () = r := congrArg Prod.fst (Option.some.inj hx)
      have hg' : phaseOf (th.answer .socket k (.ok ())) = .turn .passed := by
        rw [hph, hk, hg]
        rfl
      have hlive := hnext (.ok ())
      rw [hb] at hlive
      exact .inl ⟨_, hj', Pending.running (hc' j _ hj') hk hg' hst hlive, hk, hg'⟩
    · -- somebody listens
      refine .inr ?_
      simp only [World.exec, World.run, World.connect, hsock] at hx
      obtain rfl : Except.ok () = r := congrArg Prod.fst (Option.some.inj hx)
      rfl

/-- A `start` that has yet to connect does so with its next call, or goes on to it. -/
theorem Pending.step {j : Nat} (h : Pending id j c) (hc : Conforming c) (ht : Machine.Traced system c)
    (hfit : (getSocketPath id).str.utf8ByteSize < 108) (hsock : c.world.sock id = .listening i 0)
    (hlasts : ¬Cuts c j a) (hs : system.step c a = some c') :
    Pending id j c' ∨ system.event c a = some (j, ⟨.connect (startSk id), .ok ()⟩) := by
  obtain ⟨th, hj, hrun, hk, hg⟩ := h
  have hsame (hj' : c'.threads[j]? = some th) : Pending id j c' := ⟨th, hj', hrun, hk, hg⟩
  cases a with
  | call t ch =>
    obtain ⟨th₁, op, k, r, w, ht₁, hst, hp, hx, rfl⟩ := Machine.step_call hs
    have he := event_call ht₁ hst hp hx
    by_cases hne : t = j
    · subst hne
      cases hj.symm.trans ht₁
      have hch : ch.fails = false := by
        cases hf : ch.fails with
        | false => rfl
        | true => exact (hlasts ⟨rfl, hf⟩).elim
      have hd : Does (kindOf th) (phaseOf th) op := Kind.may_does ((hc t th hj).may hp)
      have hlen : t < c.threads.length := (List.getElem?_eq_some_iff.mp hj).1
      have hj' : (c.threads.set t (th.answer op k r) ++ system.born t th op k r)[t]? =
          some (th.answer op k r) := by
        rw [List.getElem?_append_left (by simpa using hlen), List.getElem?_set_self hlen]
      rw [he]
      refine (Pending.answered (hc.step hs) ht hfit hsock hj hst hk hg hp hd hx hch hj'
        Machine.Contract.phase_answer).imp_right fun hev => ?_
      rw [hev]
    · exact .inl (hsame (event_other he hs hj hne))
  | invoke m =>
    obtain ⟨-, rfl⟩ := Machine.step_invoke hs
    exact .inl (hsame (by rw [List.getElem?_append_left (List.getElem?_eq_some_iff.mp hj).1, hj]))
  | env e =>
    obtain ⟨w, hw, rfl⟩ := Machine.step_env hs
    have hhalts : ¬system.halts e th.main = true := fun hh => hlasts ⟨th, hj, hh⟩
    refine .inl (hsame ?_)
    rw [List.getElem?_map, hj, Option.map_some, if_neg hhalts]
  | crash t =>
    obtain ⟨th₁, ht₁, rfl⟩ := Machine.step_crash hs
    have hne : t ≠ j := hlasts
    exact .inl (hsame (by rw [List.getElem?_set_ne hne, hj]))

/-- Whoever has connected to a supervisor that waits stays in its queue. -/
theorem Waits.queue_step (h : Waits id i c) (h' : Waits id i c') (hc : Conforming c) (hsocks : SocksPlaced c)
    (hs : system.step c a = some c') : c.world.queue i id ≤ c'.world.queue i id := by
  have hothers (id' : String) (hne : id' ≠ id) : (c.world.sock id').maker ≠ some i := by
    intro hm
    obtain ⟨th, cp, sp, hi, hk⟩ := hsocks id' i hm
    obtain ⟨th₁, hi₁, -, _, _, st, hk₁, -⟩ := h
    cases hi.symm.trans hi₁
    cases hk.symm.trans hk₁
    exact hne rfl
  rcases step_world hs with ⟨t, op, r, ch, he, hx⟩ | e | ⟨e, -, he⟩ | ⟨t, ha, e⟩
  · by_cases hne : t = i
    · subst hne
      have hop := h.call h' hc hs he
      have hb : c'.world.bundle id = c.world.bundle id := World.exec_bundle hx (by simp [hop])
      simp only [World.queue, World.sock, hb, World.exec_orphans hx hop]
      exact Nat.le_refl _
    · exact (World.exec_sock hx).queue hne hothers
  · rw [e]
  · rw [World.env_queue he]
  · have hne : t ≠ i := by
      obtain ⟨th, hi, -⟩ := h
      obtain ⟨th', hi', hrun, -⟩ := h'
      rintro rfl
      exact (Machine.step_unstopped hs hi hi' hrun).2 ha
    rw [e, World.crash_queue hne]

/-- While nobody has connected, the socket listens for the supervisor until its file is removed. -/
theorem Waits.listens_step {q : Nat} (h : Waits id i c) (h' : Waits id i c') (hc : Conforming c)
    (hs : system.step c a = some c') (hsock : c.world.sock id = .listening i q) (hkeeps : ¬Unlinks id c a) :
    ∃ q', q ≤ q' ∧ c'.world.sock id = .listening i q' := by
  cases a with
  | call t ch =>
    obtain ⟨th, op, k, r, w, ht, hst, hp, hx, rfl⟩ := Machine.step_call hs
    have he := event_call ht hst hp hx
    by_cases hne : t = i
    · subst hne
      have hop := h.call h' hc hs he
      have hb : w.bundle id = c.world.bundle id := World.exec_bundle hx (by simp [hop])
      exact ⟨q, Nat.le_refl _, by rw [World.sock, hb]; exact hsock⟩
    · rcases (World.exec_sock hx).listening hne hsock with hl | ⟨rfl, hch⟩
      · exact hl
      · exact (hkeeps ⟨hch, _, he, by simp [removes]⟩).elim
  | invoke m =>
    obtain ⟨-, rfl⟩ := Machine.step_invoke hs
    exact ⟨q, Nat.le_refl _, hsock⟩
  | env e =>
    obtain ⟨w, hw, rfl⟩ := Machine.step_env hs
    exact ⟨q, Nat.le_refl _, by rw [World.sock, World.env_bundle hw]; exact hsock⟩
  | crash t =>
    have hne : i ≠ t := by
      obtain ⟨th, hi, -⟩ := h
      obtain ⟨th', hi', hrun, -⟩ := h'
      rintro rfl
      exact (Machine.step_unstopped hs hi hi' hrun).2 rfl
    obtain ⟨th, ht, rfl⟩ := Machine.step_crash hs
    have hdrop : (c.world.crash t).sock id = (c.world.sock id).drop t := World.crash_sock
    rw [hsock] at hdrop
    exact ⟨q, Nat.le_refl _, hdrop.trans (if_neg hne)⟩

theorem listening_of_listensFor {s : Sock} (h : s.listensFor i = true) : ∃ q, s = .listening i q := by
  cases s with
  | listening o q =>
    obtain rfl : o = i := of_decide_eq_true h
    exact ⟨q, rfl⟩
  | absent | bound | dead => cases h

/-- What keeps the last `start` on its way lets it through, or leaves it on its way. -/
theorem CanEnter.step (h : CanEnter id i c) (hw : Waits id i c) (hw' : Waits id i c') (hc : Conforming c)
    (ht : Machine.Traced system c) (hsocks : SocksPlaced c)
    (hkeeps : c.world.queue i id = 0 → ¬Unlinks id c a ∧ StartsLeft id c a)
    (hs : system.step c a = some c') : CanEnter id i c' := by
  rcases Nat.eq_zero_or_pos (c.world.queue i id) with hq | hq
  · rcases h with hpos | ⟨⟨j, hlt, hp⟩, hl⟩
    · exact absurd hq (Nat.ne_of_gt hpos)
    obtain ⟨hunlinks, hleft⟩ := hkeeps hq
    obtain ⟨q, hsock⟩ := listening_of_listensFor hl
    obtain rfl : q = 0 := by simpa [World.queue, hsock] using hq
    obtain ⟨q', -, hsock'⟩ := hw.listens_step hw' hc hs hsock hunlinks
    obtain ⟨k, hp, hlasts⟩ : ∃ k, Pending id k c ∧ ¬Cuts c k a := by
      by_cases hcut : Cuts c j a
      · obtain ⟨k, -, hk⟩ := hleft j hlt hp hcut
        exact ⟨k, hk⟩
      · exact ⟨j, hp, hcut⟩
    rcases hp.step hc ht (hw.fits hc ht) hsock hlasts hs with hp | he
    · exact .inr ⟨hp.startPending, by rw [hsock']; exact decide_eq_true rfl⟩
    · obtain ⟨th, k, ch, -, -, -, hx, -⟩ := event_thread hc he hs
      obtain ⟨o, n, hs₀, hs₁⟩ := World.exec_connect hx
      cases hsock.symm.trans hs₀
      refine .inl ?_
      simp [World.queue, hs₁]
  · exact .inl (Nat.lt_of_lt_of_le hq (hw.queue_step hw' hc hsocks hs))

theorem Reached.enters_step (h : Reached id c) (hc : Conforming c) (hok : ReachedStep id c a)
    (hs : system.step c a = some c') (hk : Killed id c') (i : Nat) (hw : Waits id i c') :
    CanEnter id i c' := by
  rcases hk.entry hc hs with hk | ⟨j, th, s, hj, hkind, he⟩
  · rcases hw.entry hc hs with hw₀ | he
    · exact (h.enters hk i hw₀).step hw₀ hw hc h.traced h.socks (hok.chance hk i hw₀.lt hw₀) hs
    · -- the supervisor begins to listen after the `kill`
      obtain ⟨hpend, hbound⟩ := hok.listens _ he (by simp [opens, Except.isOk, Except.toBool]) hk
      obtain ⟨th, k, ch, hi, -, hd, hx, -⟩ := event_thread hc he hs
      have hkind : kindOf th ≠ .turn .start id := by
        generalize kindOf th = kind at hd
        generalize phaseOf th = g at hd
        cases hd with
        | quiet hq => contradiction
        | listen =>
          intro h
          cases h
        | looks hl => contradiction
      refine .inr ⟨hpend.other he hs hi hkind, ?_⟩
      rw [World.exec_listen hx hbound]
      exact decide_eq_true rfl
  · -- the `kill` writes
    have hw₀ : Waits id i c := by
      rcases hw.entry hc hs with hw₀ | he'
      · exact hw₀
      · cases he.symm.trans he'
    obtain ⟨th', k, ch, hj', -, -, hx, -⟩ := event_thread hc he hs
    have hsock : c'.world.sock id = c.world.sock id := World.exec_write_sock hx
    rcases hok.kills _ he th hj hkind (by simp [wrote]) i hw₀.lt hw₀ with hq | ⟨hpend, hl⟩
    · exact .inl (Nat.lt_of_lt_of_le hq (hw₀.queue_step hw hc h.socks hs))
    · refine .inr ⟨hpend.other he hs hj (by simp [hkind]), ?_⟩
      rw [hsock]
      exact hl

theorem Reached.step (h : Reached id c) (hc : Conforming c) (hok : ReachedStep id c a)
    (hs : system.step c a = some c') : Reached id c' where
  one := hok.one c' hs
  traced := h.traced.step hs
  socks := h.socks.step hc hs
  file := h.file_step hc hs
  clears := h.clears_step hc hs
  bundle := h.bundle_step hc hok.unforced hs
  enters := h.enters_step hc hok hs

/-- Where a `kill` writes `stopped` only when the supervisor has come through `accept4` or can still
be let through, no supervisor is stranded in any reachable state. -/
theorem never_stranded {id : String} {w : World} {c : SysConf} (hw : w.file id = none)
    (hsocks : ∀ id, (w.sock id).maker = none) (hrun : Steps system.step (ReachedStep id) (fresh w) c)
    (i : Nat) (pid : Int) : ¬Stranded id c i pid := by
  intro hstr
  obtain ⟨hc, hr⟩ := run_invariant hrun (conforming_fresh w) (reached_fresh hw hsocks)
    fun c a c' hc h hok hs => h.step hc hok hs
  obtain ⟨th, hi, hrun, hg, hsup⟩ := hstr.waits
  have hwait : Waits id i c := by
    obtain ⟨cp, sp, st, hk, hg', -⟩ := hsup
    exact ⟨th, hi, hrun.1, cp, sp, _, hk, hg, rfl⟩
  have hstop : StopWritten id c := by
    rcases hstr.putAway with ⟨s, hf, hst⟩ | hb
    · exact hr.file s hf hst
    · have howns : Has id Stage.owns c := by
        obtain ⟨cp, sp, st, hk, hg', -⟩ := hsup
        exact ⟨i, th, hi, cp, sp, _, hk, hg, rfl⟩
      rcases hr.bundle howns with hsome | hst
      · rw [hb] at hsome
        contradiction
      · exact hst
  rcases hstop with hk | ⟨j, th', hj, hfin⟩
  · exact hstr.cut (hr.enters hk i hwait)
  · -- the only supervisor is the one that waits
    obtain rfl := hr.one.eq hi hj hsup (hfin.mono fun st hst => by
      cases st <;> first | rfl | contradiction)
    cases hi.symm.trans hj
    obtain ⟨_, _, st, -, hg', hst⟩ := hfin
    cases hg.symm.trans hg'
    contradiction

/-- `kill` comes between the check of a `start` and its connection; the init ends, and the
supervisor gets through. -/
theorem never_stranded_sample : ∃ c : SysConf,
    Steps system.step (ReachedStep "c") (fresh sampleHost) c ∧ PutAway "c" c.world ∧
    (∃ th ∈ c.threads[0]?, phaseOf th = .create (.accepted 7)) ∧ ∀ i pid, ¬Stranded "c" c i pid := by
  have h : ∃ c ∈ runActions system.step (ReachedStep "c") (fresh sampleHost)
      (supervise "c" ++ begin "c" 1 ++ [.invoke (.kill "c")] ++ goes 3 3 ++
        [.env (.exit 7 (.signaled 9 false))] ++ goes 2 2 ++ [go 0]),
      PutAway "c" c.world ∧ ∃ th ∈ c.threads[0]?, phaseOf th = .create (.accepted 7) := by
    decide +kernel
  obtain ⟨c, hrun, hput, hth⟩ := h
  exact ⟨c, .of_runActions hrun, hput, hth,
    fun i pid => never_stranded rfl (fun _ => rfl) (.of_runActions hrun) i pid⟩

/-- `kill` comes before `start`: the supervisor waits for a connection that `start` now refuses to
make, before and after Delete. -/
theorem kill_strands : ∃ c₁ c₂ : SysConf,
    Steps system.step (OneRun "c") (fresh sampleHost) c₁ ∧
    (∃ s, c₁.world.file "c" = some s ∧ s.status = .stopped) ∧ Stranded "c" c₁ 0 7 ∧
    Steps system.step (OneRun "c") c₁ c₂ ∧ c₂.world.bundle "c" = none ∧ Stranded "c" c₂ 0 7 := by
  have h : ∃ c₁ ∈ runActions system.step (OneRun "c") (fresh sampleHost)
      (supervise "c" ++ [.invoke (.kill "c")] ++ goes 3 2 ++ [.env (.exit 7 (.signaled 9 false))]),
      (∃ s ∈ c₁.world.file "c", s.status = .stopped) ∧
      ((∃ th ∈ c₁.threads[0]?, Running th ∧ phaseOf th = .create (.listening 7) ∧
        Supervises "c" (kindOf th) (phaseOf th)) ∧
        (∀ p ∈ c₁.world.procs, p.pid = 7 → p.status ≠ none) ∧ ¬CanEnter "c" 0 c₁) ∧
      ∃ c₂ ∈ runActions system.step (OneRun "c") c₁ ([.invoke (.delete "c" false)] ++ goes 3 3),
        c₂.world.bundle "c" = none ∧
        (∃ th ∈ c₂.threads[0]?, Running th ∧ phaseOf th = .create (.listening 7) ∧
          Supervises "c" (kindOf th) (phaseOf th)) ∧
        (∀ p ∈ c₂.world.procs, p.pid = 7 → p.status ≠ none) ∧ ¬CanEnter "c" 0 c₂ := by
    decide +kernel
  obtain ⟨c₁, h₁, hfile, ⟨hw₁, hd₁, hc₁⟩, c₂, h₂, hb, hw₂, hd₂, hc₂⟩ := h
  exact ⟨c₁, c₂, .of_runActions h₁, hfile, ⟨.inl hfile, hw₁, hd₁, hc₁⟩, .of_runActions h₂, hb,
    ⟨.inr hb, hw₂, hd₂, hc₂⟩⟩

end Clonebox
