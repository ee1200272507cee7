import Clonebox.System.Run

/-! # Supervisors

The process that runs `create` for a container, and what it has done. -/

namespace Clonebox
open Conc

variable {id : String} {c c' : SysConf} {a : SysAction}

/-! ### Stages -/

/-- The thread runs `create` for the container, and has come to one of the stages. -/
def AtStage (id : String) (S : Stage → Bool) (k : Kind) (g : Phase) : Prop :=
  ∃ configPath sp st, k = .create id configPath sp ∧ g = .create st ∧ S st = true

def atStage (id : String) (S : Stage → Bool) : Kind → Phase → Bool
  | .create i _ _, .create st => i = id ∧ S st
  | _, _ => false

theorem atStage_iff {S : Stage → Bool} {k : Kind} {g : Phase} :
    atStage id S k g = true ↔ AtStage id S k g := by
  constructor
  · intro h
    unfold atStage at h
    split at h
    · obtain ⟨rfl, hst⟩ := of_decide_eq_true h
      exact ⟨_, _, _, rfl, rfl, hst⟩
    · contradiction
  · intro h
    obtain ⟨configPath, sp, st, rfl, rfl, hst⟩ := h
    simp [atStage, hst]

instance {S : Stage → Bool} {k : Kind} {g : Phase} : Decidable (AtStage id S k g) :=
  decidable_of_iff _ atStage_iff

namespace AtStage

variable {S T : Stage → Bool} {k : Kind} {g : Phase} {op : Op} {r : op.Ret}

theorem mono (h : AtStage id S k g) (hS : ∀ st, S st = true → T st = true) :
    AtStage id T k g := by
  obtain ⟨configPath, sp, st, hk, hg, hst⟩ := h
  exact ⟨configPath, sp, st, hk, hg, hS st hst⟩

theorem not_init (hS : S .start = false) (m : Main) : ¬AtStage id S m.kind m.kind.init := by
  intro h
  obtain ⟨_, _, st, hk, hg, hst⟩ := h
  rw [hk] at hg
  cases hg
  simp [hS] at hst

theorem not_child (hS : S .child = false) (k : Kind) (g : Phase) (hg : g.copied = true) :
    ¬AtStage id S k g := by
  intro h
  obtain ⟨_, _, st, -, rfl, hst⟩ := h
  cases st with
  | child => simp [hS] at hst
  | _ => contradiction

/-- Stages that no move leaves are kept. -/
theorem next (hd : Does k g op) (h : AtStage id S k g)
    (hS : ∀ g g', Stage.Move id g op r g' → S g = true → S g' = true) :
    AtStage id S k (k.next g op r) := by
  obtain ⟨configPath, sp, st, rfl, rfl, hst⟩ := h
  rcases Stage.moves hd r with e | ⟨g', e, hm⟩
  · exact ⟨configPath, sp, st, rfl, e, hst⟩
  · exact ⟨configPath, sp, g', rfl, e, hS _ _ hm hst⟩

/-- How a thread comes to one of the stages. -/
theorem entry (hd : Does k g op) (h : AtStage id S k (k.next g op r)) :
    AtStage id S k g ∨ ∃ configPath sp st st', k = .create id configPath sp ∧ g = .create st ∧
      k.next g op r = .create st' ∧ Stage.Move id st op r st' ∧ S st' = true := by
  obtain ⟨configPath, sp, st', rfl, hg, hst⟩ := h
  rcases Stage.moved hd hg with rfl | ⟨st, rfl, hm⟩
  · exact .inl ⟨configPath, sp, st', rfl, rfl, hst⟩
  · exact .inr ⟨configPath, sp, st, st', rfl, rfl, hg, hm, hst⟩

end AtStage

/-- The phase of a run of `create` is one of its stages. -/
theorem create_phase {th : SysThread} (h : contract.Conforms th) {configPath : String}
    {sp : Option String} (hk : kindOf th = .create id configPath sp) :
    ∃ st, phaseOf th = .create st := by
  have hhas := phase_has h
  rw [hk] at hhas
  cases hg : phaseOf th with
  | create st => exact ⟨st, rfl⟩
  | turn | kill | delete | exec | handler | observer => simp [hg, Kind.has] at hhas

theorem exec_phase {th : SysThread} (h : contract.Conforms th) {g : ExecStage}
    (hg : phaseOf th = .exec g) : ∃ id, kindOf th = .exec id := by
  have hhas := phase_has h
  rw [hg] at hhas
  cases hk : kindOf th with
  | exec id => exact ⟨id, rfl⟩
  | create | turn | kill | delete | handler | observer => simp [hk, Kind.has] at hhas

/-! ### The end of a run of `create` -/

/-- A shim can end in more stages than `create`, all of which can fail. -/
theorem Main.halts_canFail {m : Main} {configPath : String} {sp : Option String} {g : Stage}
    (hk : m.kind = .create id configPath sp) (h : m.halts (.create g)) : g.canFail = true := by
  cases m with
  | shim => exact h
  | create => exact Stage.canFail_of_canHalt h
  | rpc req => cases req <;> cases hk
  | turn | kill | delete | state | exec => cases hk

/-- How far a run of `create` has come when it ends. -/
theorem Ended.stage {th : SysThread} (hend : Ended th) (h : contract.Conforms th)
    {configPath : String} {sp : Option String} {g : Stage}
    (hk : kindOf th = .create id configPath sp) (hg : phaseOf th = .create g) :
    (∃ pid, g = .stopped pid) ∨ g.canFail = true := by
  have hrest : th.prog.Obeys th.main.proto (kindOf th).post (phaseOf th) :=
    h.rest.mono fun _ _ hpost => hpost.1
  rw [hk, hg] at hrest
  cases hp : th.prog with
  | ret a =>
    rw [hp] at hrest
    exact .inl hrest
  | fail e =>
    rw [hp] at hrest
    exact .inr hrest.1
  | halt =>
    rw [hp] at hrest
    exact .inr (Main.halts_canFail hk hrest)
  | call op k => exact (hend.2 op k hp).elim

/-- The thread has returned `ContainerAlreadyExists`, or is a shim that could not report it. -/
def Refusal (id : String) (th : SysThread) : Prop :=
  th.prog = .fail (.core (.containerAlreadyExists id)) ∨
    (∃ i configPath s, th.main = .shim i configPath s) ∧ th.prog = .halt

theorem Ended.refusal {th : SysThread} (hend : Ended th) (h : contract.Conforms th)
    {configPath : String} {sp : Option String} (hk : kindOf th = .create id configPath sp)
    (hg : phaseOf th = .create .refused) : Refusal id th := by
  have hrest : th.prog.Obeys th.main.proto (kindOf th).post (phaseOf th) :=
    h.rest.mono fun _ _ hpost => hpost.1
  rw [hk, hg] at hrest
  cases hp : th.prog with
  | ret a =>
    rw [hp] at hrest
    obtain ⟨pid, e⟩ := hrest
    cases e
  | fail e =>
    rw [hp] at hrest
    exact .inl (hp.trans (congrArg _ (hrest.2 rfl)))
  | halt =>
    rw [hp] at hrest
    refine .inr ⟨?_, hp⟩
    have hhalts : th.main.halts (.create .refused) := hrest
    change th.main.kind = _ at hk
    generalize th.main = m at hhalts hk ⊢
    cases m with
    | shim => exact ⟨_, _, _, rfl⟩
    | create => contradiction
    | rpc req => cases req <;> cases hk
    | turn | kill | delete | state | exec => cases hk
  | call op k => exact (hend.2 op k hp).elim

/-! ### Supervisors -/

/-- The stages past the check that no bundle is there, in the process that made it. -/
def Stage.admitted : Stage → Bool
  | .start | .refused | .child => false
  | _ => true

/-- The thread runs `create`, is past the check, and is not the child it has cloned. -/
abbrev Supervises (id : String) : Kind → Phase → Prop := AtStage id Stage.admitted

/-- At most one run of `create` has ever been admitted for the container. -/
def OneSupervisor (id : String) (c : SysConf) : Prop :=
  c.threads.Pairwise fun th th' =>
    ¬(Supervises id (kindOf th) (phaseOf th) ∧ Supervises id (kindOf th') (phaseOf th'))

instance : Decidable (OneSupervisor id c) := inferInstanceAs (Decidable (List.Pairwise _ _))

/-- A step after which there is still at most one. -/
def SingleStep (id : String) (c : SysConf) (a : SysAction) : Prop :=
  ∀ c' ∈ system.step c a, OneSupervisor id c'

instance : Decidable (SingleStep id c a) :=
  inferInstanceAs (Decidable (∀ c' ∈ system.step c a, OneSupervisor id c'))

theorem OneSupervisor.eq (h : OneSupervisor id c) {i j : Nat} {th th' : SysThread}
    (hi : c.threads[i]? = some th) (hj : c.threads[j]? = some th')
    (hth : Supervises id (kindOf th) (phaseOf th))
    (hth' : Supervises id (kindOf th') (phaseOf th')) : i = j := by
  obtain ⟨hil, rfl⟩ := List.getElem?_eq_some_iff.mp hi
  obtain ⟨hjl, rfl⟩ := List.getElem?_eq_some_iff.mp hj
  have hpair := List.pairwise_iff_getElem.mp h
  rcases Nat.lt_trichotomy i j with hlt | rfl | hgt
  · exact (hpair i j hil hjl hlt ⟨hth, hth'⟩).elim
  · rfl
  · exact (hpair j i hjl hil hgt ⟨hth', hth⟩).elim

/-- The stages from the write of `created` on. -/
def Stage.past : Stage → Bool
  | .created _ | .bound _ | .listening _ | .broken _ | .accepted _ | .waited _ _ | .reported _ | .ending _ _
  | .stopped _ | .lost _ => true
  | _ => false

/-- A supervisor that has written `created`. -/
abbrev PastCreated (id : String) : Kind → Phase → Prop := AtStage id Stage.past

theorem PastCreated.supervises {k : Kind} {g : Phase} (h : PastCreated id k g) :
    Supervises id k g := by
  refine h.mono fun st hst => ?_
  cases st <;> first | rfl | contradiction

theorem PastCreated.next {k : Kind} {g : Phase} {op : Op} {r : op.Ret} (hd : Does k g op)
    (h : PastCreated id k g) : PastCreated id k (k.next g op r) := by
  refine AtStage.next hd h fun g g' hm hg => ?_
  cases hm <;> first | rfl | contradiction

/-- A run of `create` for the container has come to one of the stages. -/
def Has (id : String) (S : Stage → Bool) (c : SysConf) : Prop :=
  ∃ (i : Nat) (th : SysThread), c.threads[i]? = some th ∧ AtStage id S (kindOf th) (phaseOf th)

theorem Has.step {S : Stage → Bool} (h : Has id S c) (hc : Conforming c)
    (hs : system.step c a = some c')
    (hS : ∀ g op r g', Stage.Move id g op r g' → World.Answer op r → S g = true → S g' = true) :
    Has id S c' := by
  obtain ⟨i, th, hi, hp⟩ := h
  obtain ⟨th', hi', -, hp'⟩ := step_keeps
    (fun k g op r hd ha h => AtStage.next hd h fun g g' hm => hS g op r g' hm ha) hc hs hi hp
  exact ⟨i, th', hi', hp'⟩

/-- The supervisor has written `created`. -/
abbrev HasPast (id : String) : SysConf → Prop := Has id Stage.past

theorem HasPast.step (h : HasPast id c) (hc : Conforming c) (hs : system.step c a = some c') :
    HasPast id c' := by
  refine Has.step h hc hs fun g op r g' hm _ hg => ?_
  cases hm <;> first | rfl | contradiction

/-! ### After `waitpid` -/

/-- The stages from the end of the child on. -/
def Stage.reaped : Stage → Bool
  | .waited _ _ | .reported _ | .ending _ _ | .stopped _ | .lost _ => true
  | _ => false

abbrev Reaped (id : String) : Kind → Phase → Prop := AtStage id Stage.reaped

theorem reaped_move {g g' : Stage} {op : Op} {r : op.Ret} (hm : Stage.Move id g op r g')
    (hg : g.reaped = true) : g'.reaped = true := by
  cases hm <;> first | rfl | contradiction

/-- `waitpid` has returned the status of a child. -/
def reaps : Sys.Ev → Bool
  | ⟨.waitpid _, .ok _⟩ => true
  | _ => false

/-- A thread to which `waitpid` has returned is past that call. -/
theorem reaped_of_trace {th : SysThread} (h : contract.Conforms th) {configPath : String}
    {sp : Option String} (hk : kindOf th = .create id configPath sp)
    (hwait : ∃ ev ∈ th.trace, reaps ev = true) : Reaped id (kindOf th) (phaseOf th) := by
  obtain ⟨ev, hmem, hev⟩ := hwait
  unfold reaps at hev
  split at hev <;> try contradiction
  rename_i pid status
  refine h.past.after (I := fun g => Reaped id (kindOf th) g) hmem ?_ ?_
  · intro g hmay
    have hd : Does (kindOf th) g (.waitpid pid) := Kind.may_does hmay
    show Reaped id (kindOf th) ((kindOf th).next g (.waitpid pid) (.ok status))
    rw [hk] at hd ⊢
    cases hd with
    | quiet hq => contradiction
    | waitpid => exact ⟨_, _, _, rfl, rfl, rfl⟩
  · intro g op r hmay hr
    exact AtStage.next (Kind.may_does hmay) hr fun g g' hm hg => reaped_move hm hg

/-! ### Stages and the trace -/

/-- Stages that are entered by an answer of the kind `E` and left for no others are those of the
threads that have got such an answer. -/
theorem atStage_iff_trace {S : Stage → Bool} {E : Sys.Ev → Bool} {th : SysThread}
    {configPath : String} {sp : Option String} (h : contract.Conforms th)
    (hk : kindOf th = .create id configPath sp) (hchild : phaseOf th ≠ .create .child)
    (hstart : S .start = false)
    (hin : ∀ g op r g', Stage.Move id g op r g' → S g = false → S g' = true → E ⟨op, r⟩ = true)
    (hout : ∀ g op r, Does (.create id configPath sp) (.create g) op → E ⟨op, r⟩ = true →
      ∃ g', (Kind.create id configPath sp).next (.create g) op r = .create g' ∧
        (S g' = true ∨ g' = .child))
    (hstay : ∀ g op r g', Stage.Move id g op r g' → S g = true → S g' = true ∨ g' = .child) :
    AtStage id S (kindOf th) (phaseOf th) ↔ ∃ ev ∈ th.trace, E ev = true := by
  constructor
  · intro hS
    obtain ⟨ev, hmem, g, hmay, hng, hg⟩ := h.past.cause
      (I := fun g => AtStage id S (kindOf th) g) (AtStage.not_init hstart th.main) hS
    refine ⟨ev, hmem, ?_⟩
    rcases AtStage.entry (Kind.may_does hmay) hg with hg | ⟨cp, sp', st, st', hk', rfl, -, hm, hst⟩
    · exact (hng hg).elim
    · refine hin _ _ _ _ hm ?_ hst
      cases hst₀ : S st with
      | false => rfl
      | true => exact (hng ⟨cp, sp', st, hk', rfl, hst₀⟩).elim
  · intro hex
    obtain ⟨ev, hmem, hE⟩ := hex
    have hend : ∃ st, phaseOf th = .create st ∧ (S st = true ∨ st = .child) := by
      refine h.past.after (I := fun g => ∃ st, g = .create st ∧ (S st = true ∨ st = .child))
        hmem ?_ ?_
      · intro g hmay
        change (kindOf th).may g ev.1 at hmay
        show ∃ st, (kindOf th).next g ev.1 ev.2 = .create st ∧ (S st = true ∨ st = .child)
        rw [hk] at hmay ⊢
        cases g with
        | create st => exact hout st ev.1 ev.2 (Kind.may_does hmay) hE
        | turn | kill | delete | exec | handler | observer => exact hmay.elim
      · intro g op r hmay hg
        obtain ⟨st, rfl, hst⟩ := hg
        change (kindOf th).may (.create st) op at hmay
        show ∃ st', (kindOf th).next (.create st) op r = .create st' ∧ (S st' = true ∨ st' = .child)
        rw [hk] at hmay ⊢
        rcases Stage.moves (Kind.may_does hmay) r with e | ⟨st', e, hm⟩
        · exact ⟨st, e, hst⟩
        · refine ⟨st', e, ?_⟩
          rcases hst with hst | rfl
          · exact hstay _ _ _ _ hm hst
          · cases hm
    obtain ⟨st, hg, hst | rfl⟩ := hend
    · exact ⟨configPath, sp, st, hk, hg, hst⟩
    · exact (hchild hg).elim

end Clonebox
