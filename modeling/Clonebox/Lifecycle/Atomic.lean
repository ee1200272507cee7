import Clonebox.Lifecycle.Freezer
import Clonebox.Lifecycle.Stranded

/-! # One operation at a time

An operation is atomic if nobody else moves between its read of the status and its last write, and
so is each update of the status by the supervisor. What a thread has read of the state file is still
there when it writes. -/

namespace Clonebox
open Conc Prog

variable {id : String} {c c' : SysConf} {a : SysAction} {i : Nat} {th th' : SysThread} {w w' : World}

/-! ### Sections -/

def KillStage.under : KillStage → Bool
  | .aimed _ _ | .signalled _ => true
  | _ => false

def DeleteStage.under : DeleteStage → Bool
  | .checked | .clearing => true
  | _ => false

/-- A supervisor between its read and its write of the file, or on the way there from `waitpid`. -/
def Stage.updates : Stage → Bool
  | .reread _ _ | .waited _ _ | .reported _ | .ending _ _ => true
  | _ => false

def inSection (id : String) : Kind → Phase → Bool
  | .turn _ i, .turn g => i = id ∧ g.under
  | .kill i, .kill g => i = id ∧ g.under
  | .delete i _, .delete g => i = id ∧ g.under
  | .create i _ _, .create g => i = id ∧ g.updates
  | _, _ => false

abbrev InSection (id : String) (th : SysThread) : Prop := inSection id (kindOf th) (phaseOf th) = true

/-- A call on the state file, the freezer or the bundle. -/
def Op.onState (id : String) (op : Op) : Bool := op.onStateFile id || op.records id

def calledBy : SysAction → Option Nat
  | .call i _ => some i
  | _ => none

def takesItsCourse : SysAction → Bool
  | .call _ (.run _) => true
  | _ => false

/-- A step of a container with one supervisor and without a forced removal. While an operation is in
its section nobody else moves, and no call on the state is made to fail. -/
structure AtomicStep (id : String) (c : SysConf) (a : SysAction) : Prop extends OneRun id c a where
  alone : ∀ x ∈ c.threads.zipIdx, InSection id x.1 → calledBy a = some x.2
  works : ∀ e ∈ system.event c a, e.2.1.onState id = true → takesItsCourse a = true

instance : Decidable (AtomicStep id c a) :=
  decidable_of_iff (OneRun id c a ∧ (∀ x ∈ c.threads.zipIdx, InSection id x.1 → calledBy a = some x.2) ∧
    ∀ e ∈ system.event c a, e.2.1.onState id = true → takesItsCourse a = true)
    ⟨fun h => ⟨h.1, h.2.1, h.2.2⟩, fun h => ⟨h.toOneRun, h.alone, h.works⟩⟩

/-- While a thread is in its section, the step is a call of it. -/
theorem AtomicStep.called (h : AtomicStep id c a) (hs : system.step c a = some c')
    (hi : c.threads[i]? = some th) (hin : InSection id th) :
    ∃ (op : Op) (r : op.Ret), system.event c a = some (i, ⟨op, r⟩) := by
  have hcall := h.alone (th, i) (List.mem_zipIdx_iff_getElem?.mpr hi) hin
  cases a with
  | call j ch =>
    cases hcall
    obtain ⟨th₁, op, k, r, w, ht, hst, hop, hx, -⟩ := Machine.step_call hs
    exact ⟨op, r, event_call ht hst hop hx⟩
  | invoke | env | crash => cases hcall

/-- The thread whose call a step answers, and that a call on the state takes its course. -/
theorem AtomicStep.event (h : AtomicStep id c a) (hc : Conforming c) (hs : system.step c a = some c')
    {op : Op} {r : op.Ret} (he : system.event c a = some (i, ⟨op, r⟩)) :
    ∃ (th : SysThread) (k : op.Ret → Prog Sys Fault Reply) (ch : Choice), c.threads[i]? = some th ∧
      th.prog = .call op k ∧ Does (kindOf th) (phaseOf th) op ∧ c.world.exec i op ch = some (r, c'.world) ∧
        (op.onState id = true → ∃ m, ch = .run m) ∧ c'.threads[i]? = some (th.answer op k r) ∧
          phaseOf (th.answer op k r) = (kindOf th).next (phaseOf th) op r := by
  have hcourse := h.works _ he
  obtain ⟨th, k, ch, w, rfl, hi, hst, hop, hx, hs'⟩ := Machine.event_some he
  cases hs.symm.trans hs'
  have hlen : i < c.threads.length := (List.getElem?_eq_some_iff.mp hi).1
  refine ⟨th, k, ch, hi, hop, Kind.may_does ((hc i th hi).may hop), hx, fun hon => ?_, ?_,
    Machine.Contract.phase_answer⟩
  · cases ch with
    | run m => exact ⟨m, rfl⟩
    | err | part => cases hcourse hon
  · rw [List.getElem?_append_left (by simpa using hlen), List.getElem?_set_self hlen]

/-! ### How a thread comes to be in a section -/

theorem not_inSection_init (m : Main) : inSection id m.kind m.kind.init = false := by
  cases m with
  | rpc req => cases req <;> simp [Main.kind, Kind.init, inSection, TurnStage.under, KillStage.under,
      DeleteStage.under]
  | _ => simp [Main.kind, Kind.init, inSection, TurnStage.under, KillStage.under, DeleteStage.under,
      Stage.updates]

theorem not_inSection_copied (k : Kind) {g : Phase} (hg : g.copied = true) :
    inSection id k g = false := by
  cases g with
  | create g =>
    cases g with
    | child => cases k <;> simp [inSection, Stage.updates]
    | _ => contradiction
  | exec g => cases k <;> rfl
  | turn | kill | delete | handler | observer => contradiction

/-- A thread that is in a section after a step has made the call. -/
theorem AtomicStep.section (h : AtomicStep id c a) (hc : Conforming c) (hs : system.step c a = some c')
    (hi : c'.threads[i]? = some th') (hin : InSection id th') :
    ∃ (op : Op) (r : op.Ret), system.event c a = some (i, ⟨op, r⟩) := by
  cases step_change hc hs hi with
  | @kept th hi₀ hm hp hprog hst hph hr =>
    rw [InSection, kindOf, hm, hph] at hin
    exact h.called hs hi₀ hin
  | @answered th op k r ch ha hi₀ hst hop hx hd he hph =>
    rw [ha]
    exact ⟨op, r, event_call hi₀ hst hop hx⟩
  | @started p m hi₀ he hph =>
    have hkind : kindOf th' = m.kind := by rw [he]; rfl
    rw [InSection, hkind, hph, not_inSection_init] at hin
    cases hin
  | forked ht hi₀ hg hm hph =>
    rw [InSection, hph, not_inSection_copied _ rfl] at hin
    cases hin
  | copied ht hi₀ hm hg hph =>
    rw [InSection, hph, not_inSection_copied _ rfl] at hin
    cases hin

/-! ### What the threads in a section know -/

/-- What a thread knows of the file in its section. -/
def Knows (id : String) (w : World) : Kind → Phase → Prop
  | .turn t _, .turn (.reread s) => w.file id = some s ∧ s.status = t.required
  | .turn t _, .turn _ => ∃ s, w.file id = some s ∧ s.status = t.required
  | .kill i, .kill (.aimed s pid) => w.file id = some s ∧ killTarget i s = .ok pid
  | .kill i, .kill (.signalled s) => w.file id = some s ∧ ∃ pid, killTarget i s = .ok pid
  | .delete _ _, .delete _ => ∃ s, w.file id = some s ∧ s.status = .stopped
  | .create _ _ _, .create (.reread _ s) | .create _ _ _, .create (.ending _ s) => w.file id = some s
  | _, _ => True

theorem Knows.of_file (hf : w'.file id = w.file id) {k : Kind} {g : Phase} (h : Knows id w k g) :
    Knows id w' k g := by
  unfold Knows at h ⊢
  rw [hf]
  exact h

/-- What the threads know: nothing, outside their sections. -/
def KnowsFile (id : String) (c : SysConf) : Prop :=
  ∀ (i : Nat) th, c.threads[i]? = some th → InSection id th → Knows id c.world (kindOf th) (phaseOf th)

section
variable {k : Kind} {op : Op} {r : op.Ret} {ch : Choice}

theorem exec_off (hx : w.exec i op ch = some (r, w')) (hop : op.fileOf = none) :
    w'.file id = w.file id :=
  World.exec_file hx (by rw [hop]; intro h; cases h)

theorem fileOf_quiet (h : op.quiet = true) : op.fileOf = none := by
  unfold Op.fileOf
  split
  · cases h
  · cases h
  · rfl

theorem turn_knows {t : Turn} {n : String} {g : TurnStage} (hd : Does (.turn t n) (.turn g) op)
    (hx : w.exec i op ch = some (r, w'))
    (h : inSection id (.turn t n) (.turn g) = true → Knows id w (.turn t n) (.turn g))
    (hin : inSection id (.turn t n) ((Kind.turn t n).next (.turn g) op r) = true) :
    Knows id w' (.turn t n) ((Kind.turn t n).next (.turn g) op r) := by
  obtain rfl : n = id := (of_decide_eq_true hin).1
  have hsec (hg : g.under = true) : inSection n (.turn t n) (.turn g) = true := decide_eq_true ⟨rfl, hg⟩
  cases hd with
  | quiet hq =>
    rw [Kind.next_quiet hq] at hin ⊢
    exact (h hin).of_file (exec_off hx (fileOf_quiet hq))
  | check =>
    obtain ⟨rfl, hread⟩ := World.exec_read hx
    cases hp : parsed r with
    | none => simp [Kind.next, Op.quiet, TurnStage.advance, hp, inSection, TurnStage.under] at hin
    | some s =>
      by_cases hst : s.status = t.required
      · simp only [Kind.next, Op.quiet, TurnStage.advance, hp, Option.elim_some, if_pos hst]
        exact ⟨s, hread s hp, hst⟩
      · simp [Kind.next, Op.quiet, TurnStage.advance, hp, hst, inSection, TurnStage.under] at hin
  | connect =>
    cases r with
    | error e => simp [Kind.next, Op.quiet, TurnStage.advance, inSection, TurnStage.under] at hin
    | ok _ => exact (h (hsec rfl)).of_file (exec_off hx rfl)
  | rereadPassed | rereadConnected =>
    obtain ⟨rfl, hread⟩ := World.exec_read hx
    obtain ⟨s₀, hfile, hst⟩ := h (hsec rfl)
    cases hp : parsed r with
    | none => simp [Kind.next, Op.quiet, TurnStage.advance, hp, inSection, TurnStage.under] at hin
    | some s =>
      cases hfile.symm.trans (hread s hp)
      simp only [Kind.next, Op.quiet, TurnStage.advance, hp, Option.elim_some]
      exact ⟨hread s₀ hp, hst⟩
  | writeTurn =>
    cases r <;> simp [Kind.next, Op.quiet, TurnStage.advance, inSection, TurnStage.under] at hin
  | settleTurn => simp [Kind.next, Op.quiet, TurnStage.advance, inSection, TurnStage.under] at hin

theorem kill_knows {n : String} {g : KillStage} (hd : Does (.kill n) (.kill g) op)
    (hx : w.exec i op ch = some (r, w'))
    (h : inSection id (.kill n) (.kill g) = true → Knows id w (.kill n) (.kill g))
    (hin : inSection id (.kill n) ((Kind.kill n).next (.kill g) op r) = true) :
    Knows id w' (.kill n) ((Kind.kill n).next (.kill g) op r) := by
  obtain rfl : n = id := (of_decide_eq_true hin).1
  cases hd with
  | quiet hq =>
    rw [Kind.next_quiet hq] at hin ⊢
    exact (h hin).of_file (exec_off hx (fileOf_quiet hq))
  | checkKill =>
    obtain ⟨rfl, hread⟩ := World.exec_read hx
    cases hp : parsed r with
    | none => simp [Kind.next, Op.quiet, KillStage.advance, hp, inSection, KillStage.under] at hin
    | some s =>
      cases ht : killTarget n s with
      | error e => simp [Kind.next, Op.quiet, KillStage.advance, hp, ht, inSection, KillStage.under] at hin
      | ok pid =>
        simp only [Kind.next, Op.quiet, KillStage.advance, hp, Option.elim_some, ht]
        exact ⟨hread s hp, ht⟩
  | @signal _ s pid =>
    obtain ⟨hfile, ht⟩ : w.file n = some s ∧ killTarget n s = .ok pid := h (decide_eq_true ⟨rfl, rfl⟩)
    have hsame : w'.file n = w.file n := exec_off hx rfl
    cases r with
    | ok _ => exact ⟨hsame.trans hfile, pid, ht⟩
    | error e =>
      by_cases he : e.code = Errno.esrch.code
      · simp only [Kind.next, Op.quiet, KillStage.advance, Bool.false_eq_true, if_false, if_pos he]
        exact ⟨hsame.trans hfile, pid, ht⟩
      · simp [Kind.next, Op.quiet, KillStage.advance, he, inSection, KillStage.under] at hin
  | writeKilled =>
    cases r <;> simp [Kind.next, Op.quiet, KillStage.advance, inSection, KillStage.under] at hin
  | settleKill => simp [Kind.next, Op.quiet, KillStage.advance, inSection, KillStage.under] at hin

theorem delete_knows {n : String} {force : Bool} {g : DeleteStage} (hforce : force = false)
    (hd : Does (.delete n force) (.delete g) op) (hx : w.exec i op ch = some (r, w'))
    (h : inSection id (.delete n force) (.delete g) = true → Knows id w (.delete n force) (.delete g))
    (hin : inSection id (.delete n force) ((Kind.delete n force).next (.delete g) op r) = true) :
    Knows id w' (.delete n force) ((Kind.delete n force).next (.delete g) op r) := by
  obtain rfl : n = id := (of_decide_eq_true hin).1
  cases hd with
  | quiet hq =>
    rw [Kind.next_quiet hq] at hin ⊢
    exact (h hin).of_file (exec_off hx (fileOf_quiet hq))
  | checkDelete =>
    obtain ⟨rfl, hread⟩ := World.exec_read hx
    cases hp : parsed r with
    | none => simp [Kind.next, Op.quiet, DeleteStage.advance, hp, inSection, DeleteStage.under] at hin
    | some s =>
      by_cases hst : s.status = .stopped
      · exact ⟨s, hread s hp, hst⟩
      · simp [Kind.next, Op.quiet, DeleteStage.advance, hp, hst, inSection, DeleteStage.under] at hin
  | forceCgroup => cases hforce
  | clearCgroup => exact (h (decide_eq_true ⟨rfl, rfl⟩)).of_file (exec_off hx rfl)
  | clearBundle =>
    subst hforce
    have hunder := (of_decide_eq_true hin).2
    cases r <;> cases hunder
  | settleDelete => simp [Kind.next, Op.quiet, DeleteStage.advance, inSection, DeleteStage.under] at hin

/-- Over a state a write does not fail by itself. -/
theorem write_works {x y : State} {r : Io Unit} {m : Int} (hf : w.file id = some x)
    (hx : w.exec i (.write (stateJson id) (.state y)) (.run m) = some (r, w')) : r = .ok () := by
  obtain ⟨w₁, hw, -⟩ := World.run_write hf i y
  have hrun : w.exec i (.write (stateJson id) (.state y)) (.run m) = some (.ok (), w₁) := hw
  cases hrun.symm.trans hx
  rfl

theorem create_knows {n cp : String} {sp : Option String} {g : Stage}
    (hd : Does (.create n cp sp) (.create g) op)
    (hx : w.exec i op ch = some (r, w')) (hrun : op.onState id = true → ∃ m, ch = .run m)
    (h : inSection id (.create n cp sp) (.create g) = true → Knows id w (.create n cp sp) (.create g))
    (hin : inSection id (.create n cp sp) ((Kind.create n cp sp).next (.create g) op r) = true) :
    Knows id w' (.create n cp sp) ((Kind.create n cp sp).next (.create g) op r) := by
  have hkept (hop : op.fileOf = none) (e : (Kind.create n cp sp).next (.create g) op r = .create g) :
      Knows id w' (.create n cp sp) ((Kind.create n cp sp).next (.create g) op r) := by
    rw [e] at hin ⊢
    exact (h hin).of_file (exec_off hx hop)
  rcases Stage.moves hd r with e | ⟨g', e, hm⟩
  · by_cases hop : op.fileOf = none
    · exact hkept hop e
    · rw [e] at hin ⊢
      have hunder := (of_decide_eq_true hin).2
      obtain rfl : n = id := (of_decide_eq_true hin).1
      cases hd with
      | quiet hq => exact absurd (fileOf_quiet hq) hop
      | writeCreated =>
        cases r with
        | ok _ => cases e
        | error _ =>
          obtain ⟨m, rfl⟩ := hrun (by simp [Op.onState, Op.onStateFile])
          cases write_works (h hin) hx
      | writeStopped => cases r <;> cases e
      | _ => first | exact absurd rfl hop | cases hunder
  · obtain rfl : n = id := (of_decide_eq_true hin).1
    rw [e] at hin ⊢
    have hunder := (of_decide_eq_true hin).2
    cases hm with
    | rereadCloned hp | rereadAnnounced hp | endingWaited hp | endingReported hp =>
      obtain ⟨rfl, hread⟩ := World.exec_read hx
      exact hread _ hp
    | waited | reported => trivial
    | _ => cases hunder

end

theorem KnowsFile.step (h : KnowsFile id c) (hc : Conforming c) (hok : AtomicStep id c a)
    (hs : system.step c a = some c') : KnowsFile id c' := by
  intro i th' hi hin
  obtain ⟨op, r, he⟩ := hok.section hc hs hi hin
  obtain ⟨th, k, ch, hi₀, -, hd, hx, hrun, hi', hph⟩ := hok.event hc hs he
  cases hi.symm.trans hi'
  have hold := h i th hi₀
  have hhas := phase_has (hc i th hi₀)
  have hunf := hok.unforced _ he th hi₀
  have hkind : kindOf (th.answer op k r) = kindOf th := rfl
  unfold InSection at hin hold
  rw [hkind, hph] at hin ⊢
  generalize kindOf th = k at hd hold hhas hunf hin ⊢
  generalize phaseOf th = g at hd hold hhas hin ⊢
  cases k with
  | turn t n =>
    cases g with
    | turn g => exact turn_knows hd hx hold hin
    | create | kill | delete | exec | handler | observer => cases hhas
  | kill n =>
    cases g with
    | kill g => exact kill_knows hd hx hold hin
    | create | turn | delete | exec | handler | observer => cases hhas
  | delete n force =>
    cases g with
    | delete g =>
      obtain rfl : n = id := (of_decide_eq_true hin).1
      refine delete_knows ?_ hd hx hold hin
      cases force with
      | false => rfl
      | true => exact absurd rfl hunf
    | create | turn | kill | exec | handler | observer => cases hhas
  | create n cp sp =>
    cases g with
    | create g => exact create_knows hd hx hrun hold hin
    | turn | kill | delete | exec | handler | observer => cases hhas
  | exec | handler | observer => simp [inSection] at hin

end Clonebox
