import Clonebox.Lifecycle.NoResurrection

/-! # One start succeeds

`start` checks the status, connects and writes `running`. The supervisor accepts one connection, but
the socket takes more, and a `start` that has connected is let through whether it is accepted or
not. So only the check keeps a second `start` out, and it does so from the write of the first one
on. -/

namespace Clonebox
open Conc

variable {id : String} {c c' : SysConf} {a : SysAction} {i j : Nat} {th th' : SysThread}

/-! ### How far a `start` has come -/

/-- The thread is a `start` of the container, in one of the stages. -/
def StartsIn (id : String) (S : TurnStage → Bool) (k : Kind) (g : Phase) : Prop :=
  k = .turn .start id ∧ ∃ st, g = .turn st ∧ S st = true

def startsIn (id : String) (S : TurnStage → Bool) : Kind → Phase → Bool
  | .turn .start i, .turn st => i = id ∧ S st
  | _, _ => false

instance {S : TurnStage → Bool} {k : Kind} {g : Phase} : Decidable (StartsIn id S k g) :=
  decidable_of_iff (startsIn id S k g = true) <| by
    constructor
    · intro h
      unfold startsIn at h
      split at h
      · obtain ⟨rfl, hst⟩ := of_decide_eq_true h
        exact ⟨rfl, _, rfl, hst⟩
      · contradiction
    · rintro ⟨rfl, st, rfl, hst⟩
      simp [startsIn, hst]

/-- Past the connection. -/
def TurnStage.through : TurnStage → Bool
  | .connected | .reread _ | .wrote | .settled => true
  | _ => false

/-- Past the write. -/
def TurnStage.written : TurnStage → Bool
  | .wrote | .settled => true
  | _ => false

/-- The `start` has written `running`. -/
abbrev Started (id : String) : Kind → Phase → Prop := StartsIn id TurnStage.written

/-- A connection to the socket is made. -/
def connects (id : String) : Sys.Ev → Bool
  | ⟨.connect p, .ok ()⟩ => p = startSk id
  | _ => false

/-- A `start` comes past the connection by connecting. -/
theorem through_connects (h : contract.Conforms th)
    (hth : StartsIn id TurnStage.through (kindOf th) (phaseOf th)) :
    ∃ ev ∈ th.trace, connects id ev = true := by
  obtain ⟨hk, st, hg, hst⟩ := hth
  have hstart : ¬∃ st, th.main.kind.init = .turn st ∧ st.through = true := by
    rintro ⟨st, hinit, hst⟩
    change (kindOf th).init = _ at hinit
    rw [hk] at hinit
    cases hinit
    contradiction
  have hthrough : ∃ st, phaseOf th = .turn st ∧ st.through = true := ⟨st, hg, hst⟩
  obtain ⟨⟨op, r⟩, hmem, g, hmay, hng, st', hg', hst'⟩ := h.past.cause
    (I := fun g => ∃ st, g = .turn st ∧ st.through = true) hstart hthrough
  refine ⟨_, hmem, ?_⟩
  have hd : Does (kindOf th) g op := Kind.may_does hmay
  change (kindOf th).next g op r = _ at hg'
  rw [hk] at hd hg'
  cases hd with
  | quiet hq => exact (hng ⟨st', (Kind.next_quiet hq r).symm.trans hg', hst'⟩).elim
  | check =>
    simp only [Kind.next, Op.quiet, TurnStage.advance, Bool.false_eq_true, if_false, Phase.turn.injEq] at hg'
    cases hp : parsed r with
    | none => simp [hp] at hg'; simp [← hg', TurnStage.through] at hst'
    | some s =>
      by_cases hr : s.status = Turn.start.required
      · simp [hp, hr] at hg'; simp [← hg', TurnStage.through] at hst'
      · simp [hp, hr] at hg'; simp [← hg', TurnStage.through] at hst'
  | connect =>
    cases r with
    | error e => cases hg'; contradiction
    | ok _ => simp [connects]
  | rereadPassed hne => exact (hne rfl).elim
  | rereadConnected | writeTurn | settleTurn => exact (hng ⟨_, rfl, rfl⟩).elim

theorem Main.not_halts_turn {m : Main} {t : Turn} {g : Phase} (hk : m.kind = .turn t id) : ¬m.halts g := by
  have hsame : m.halts g = m.kind.halts g := by
    cases m with
    | shim => cases hk
    | create | turn | kill | delete | state | exec | rpc => rfl
  rw [hsame, hk]
  exact fun h => h

/-- How a `start`, `pause` or `resume` ends. -/
theorem turn_ended {t : Turn} (h : contract.Conforms th) (hk : kindOf th = .turn t id) (hend : Ended th) :
    (∃ e, fault th = some e) ∨ ∃ r, reply th = some r := by
  cases hp : th.prog with
  | call op k => exact (hend.2 op k hp).elim
  | ret r => exact .inr ⟨r, by simp [reply, hp]⟩
  | fail e => exact .inl ⟨e, by simp [fault, hp]⟩
  | halt =>
    have hrest := h.rest
    rw [hp] at hrest
    exact (Main.not_halts_turn hk hrest).elim

/-- One that has returned has written. -/
theorem started_of_reply {r : Reply} (h : contract.Conforms th) (hk : kindOf th = .turn .start id)
    (hr : reply th = some r) : Started id (kindOf th) (phaseOf th) := by
  have hrest : th.prog.Obeys th.main.proto (kindOf th).post (phaseOf th) :=
    h.rest.mono fun _ _ hpost => hpost.1
  have hhas := phase_has h
  rw [reply_some hr, hk] at hrest
  rw [hk] at hhas ⊢
  generalize phaseOf th = g at hrest hhas ⊢
  cases g with
  | turn g =>
    have hpost : g = .wrote ∨ g = .settled := hrest.mpr ⟨r, rfl⟩
    refine ⟨rfl, g, rfl, ?_⟩
    rcases hpost with rfl | rfl <;> rfl
  | create | kill | delete | exec | handler | observer => cases hhas

/-! ### The condition -/

/-- The starts that are past their check and still to write, but for thread `i`, are to be turned
away at the socket. -/
def OthersAway (id : String) (away : Nat → Prop) (c : SysConf) (i : Nat) : Prop :=
  ∀ j, j < c.threads.length → j ≠ i → ∀ th ∈ c.threads[j]?, Running th →
    StartsIn id TurnStage.under (kindOf th) (phaseOf th) → away j

instance {away : Nat → Prop} [DecidablePred away] : Decidable (OthersAway id away c i) :=
  inferInstanceAs (Decidable (∀ j, j < c.threads.length → j ≠ i → ∀ th ∈ c.threads[j]?, Running th →
    StartsIn id TurnStage.under (kindOf th) (phaseOf th) → away j))

/-- When a `start` writes `running`, no other one gets from its check to the socket. -/
def StartsApart (id : String) (away : Nat → Prop) (c : SysConf) (a : SysAction) : Prop :=
  ∀ e ∈ system.event c a, ∀ th ∈ c.threads[e.1]?, kindOf th = .turn .start id → (wrote id e.2).isSome →
    OthersAway id away c e.1

instance {away : Nat → Prop} [DecidablePred away] : Decidable (StartsApart id away c a) :=
  inferInstanceAs (Decidable (∀ e ∈ system.event c a, ∀ th ∈ c.threads[e.1]?, kindOf th = .turn .start id →
    (wrote id e.2).isSome → OthersAway id away c e.1))

/-- A step of a container with one supervisor that keeps its starts apart. -/
structure StartStep (id : String) (away : Nat → Prop) (c : SysConf) (a : SysAction) : Prop where
  one : SingleStep id c a
  apart : StartsApart id away c a

instance {away : Nat → Prop} [DecidablePred away] : Decidable (StartStep id away c a) :=
  decidable_of_iff (SingleStep id c a ∧ StartsApart id away c a)
    ⟨fun h => ⟨h.1, h.2⟩, fun h => ⟨h.1, h.2⟩⟩

/-! ### The invariant -/

theorem Started.begun {k : Kind} {g : Phase} (h : Started id k g) : Begun id k g := by
  obtain ⟨hk, st, hg, hst⟩ := h
  refine .inl ⟨.start, st, hk, hg, ?_⟩
  cases st <;> first | rfl | contradiction

/-- A `start` comes past its write by writing `running`. -/
theorem Started.entry (hc : Conforming c) (hs : system.step c a = some c')
    (hi : c'.threads[i]? = some th') (h : Started id (kindOf th') (phaseOf th')) :
    (∃ th, c.threads[i]? = some th ∧ Started id (kindOf th) (phaseOf th)) ∨
      ∃ th ev s, c.threads[i]? = some th ∧ Running th ∧
        StartsIn id TurnStage.under (kindOf th) (phaseOf th) ∧ system.event c a = some (i, ev) ∧
        wrote id ev = some s ∧ c'.world.file id = some s ∧ s.status = .running := by
  have hinit (m : Main) : ¬Started id m.kind m.kind.init := by
    rintro ⟨hk, st, hg, hst⟩
    rw [hk] at hg
    cases hg
    contradiction
  have hcopy (k : Kind) (g : Phase) (hg : g.copied = true) : ¬Started id k g := by
    rintro ⟨-, st, rfl, -⟩
    contradiction
  rcases step_enters hinit hcopy hc hs hi h with hold | ⟨th, op, r, ch, hi₀, he, hx, hd, hk, st, hg, hst⟩
  · exact .inl hold
  · obtain ⟨th₁, _, _, hi₁, hrun, -⟩ := event_thread hc he hs
    cases hi₀.symm.trans hi₁
    have hwas {st : TurnStage} (hg : phaseOf th = .turn st) (hst : st.written = true) :
        ∃ th, c.threads[i]? = some th ∧ Started id (kindOf th) (phaseOf th) :=
      ⟨th, hi₀, hk, st, hg, hst⟩
    rw [hk] at hd hg
    generalize hg₀ : phaseOf th = g₀ at hd hg
    cases hd with
    | quiet hq => exact .inl (hwas (hg₀.trans ((Kind.next_quiet hq r).symm.trans hg)) hst)
    | check =>
      simp only [Kind.next, Op.quiet, TurnStage.advance, Bool.false_eq_true, if_false, Phase.turn.injEq] at hg
      cases hp : parsed r with
      | none => simp [hp] at hg; simp [← hg, TurnStage.written] at hst
      | some s =>
        by_cases hr : s.status = Turn.start.required
        · simp [hp, hr] at hg; simp [← hg, TurnStage.written] at hst
        · simp [hp, hr] at hg; simp [← hg, TurnStage.written] at hst
    | connect => cases r <;> cases hg <;> contradiction
    | rereadPassed hne => exact (hne rfl).elim
    | rereadConnected =>
      simp only [Kind.next, Op.quiet, TurnStage.advance, Bool.false_eq_true, if_false, Phase.turn.injEq] at hg
      cases hp : parsed r with
      | none => simp [hp] at hg; simp [← hg, TurnStage.written] at hst
      | some s => simp [hp] at hg; simp [← hg, TurnStage.written] at hst
    | @writeTurn _ _ s =>
      cases r with
      | error e => cases hg; contradiction
      | ok _ =>
        rcases World.exec_write hx with ⟨-, hf⟩ | ⟨_, herr, -⟩
        · exact .inr ⟨th, _, s.setRunning, hi₀, hrun, ⟨hk, _, hg₀, rfl⟩, he, by simp [wrote, Turn.set], hf, rfl⟩
        · cases herr
    | settleTurn => exact .inl (hwas hg₀ rfl)

/-- What holds in every configuration of a run whose starts are kept apart. -/
structure StartsKept (id : String) (away : Nat → Prop) (c : SysConf) : Prop where
  one : OneSupervisor id c
  spoken : Spoken id c
  /-- Once a `start` has written, `created` is not written again. -/
  file : ∀ (i : Nat) th, c.threads[i]? = some th → Started id (kindOf th) (phaseOf th) →
    ∀ s, c.world.file id = some s → s.status ≠ .created
  under : ∀ (i j : Nat) th th', i ≠ j → c.threads[i]? = some th → c.threads[j]? = some th' →
    Started id (kindOf th) (phaseOf th) → Running th' →
      StartsIn id TurnStage.under (kindOf th') (phaseOf th') → away j
  unique : ∀ (i j : Nat) th th', i ≠ j → c.threads[i]? = some th → c.threads[j]? = some th' →
    Started id (kindOf th) (phaseOf th) → Started id (kindOf th') (phaseOf th') → away i ∨ away j

variable {away : Nat → Prop}

theorem startsKept_fresh {w : World} (hw : w.file id = none) : StartsKept id away (fresh w) where
  one := List.Pairwise.nil
  spoken := spoken_fresh hw
  file := by intro i th hi; simp at hi
  under := by intro i j th th' _ hi; simp at hi
  unique := by intro i j th th' _ hi; simp at hi

theorem StartsKept.file_step (h : StartsKept id away c) (hc : Conforming c) (hs : system.step c a = some c')
    (i : Nat) (th' : SysThread) (hi : c'.threads[i]? = some th')
    (hth : Started id (kindOf th') (phaseOf th')) (s : State) (hf : c'.world.file id = some s) :
    s.status ≠ .created := by
  rcases hth.entry hc hs hi with ⟨th, hi₀, hth⟩ | ⟨th, ev, s', hi₀, hrun, hunder, he, hw, hf', hst⟩
  · rcases step_file hc hs with e | ⟨e, -⟩ | ⟨s', hw, e⟩
    · exact h.file i th hi₀ hth s (e ▸ hf)
    · rw [e] at hf
      cases hf
    · cases hf.symm.trans e
      rcases writer_past hc h.one (h.spoken.begun i th hi₀ hth.begun) hs hw with
        hst | ⟨_, _, t, found, -, -, -, -, rfl⟩
      · rw [hst]
        nofun
      · rw [Turn.set_status]
        cases t <;> nofun
  · cases hf.symm.trans hf'
    rw [hst]
    nofun

theorem StartsKept.under_step (h : StartsKept id away c) (hc : Conforming c) (hok : StartsApart id away c a)
    (hs : system.step c a = some c') (i j : Nat) (th th' : SysThread) (hne : i ≠ j)
    (hi : c'.threads[i]? = some th) (hj : c'.threads[j]? = some th')
    (hth : Started id (kindOf th) (phaseOf th)) (hrun : Running th')
    (hunder : StartsIn id TurnStage.under (kindOf th') (phaseOf th')) : away j := by
  obtain ⟨hk, g, hg, hu⟩ := hunder
  rcases under_entry hc hs hj hrun hk hg hu with
    ⟨th₂, g₂, hj₂, hrun₂, hk₂, hg₂, hu₂⟩ | ⟨hworld, s, hf, hcreated⟩
  · rcases hth.entry hc hs hi with ⟨th₁, hi₁, hth₁⟩ | ⟨th₁, ev, s, hi₁, -, ⟨hk₁, -⟩, he, hw, -, -⟩
    · exact h.under i j th₁ th₂ hne hi₁ hj₂ hth₁ hrun₂ ⟨hk₂, g₂, hg₂, hu₂⟩
    · have hlen : j < c.threads.length := (List.getElem?_eq_some_iff.mp hj₂).1
      refine hok _ he th₁ hi₁ hk₁ ?_ j hlen hne.symm th₂ hj₂ hrun₂ ⟨hk₂, g₂, hg₂, hu₂⟩
      rw [hw]
      rfl
  · -- the file says `created`, so no `start` has written
    exact (h.file_step hc hs i th hi hth s (hworld ▸ hf) hcreated).elim

theorem StartsKept.unique_step (h : StartsKept id away c) (hc : Conforming c) (hs : system.step c a = some c')
    (i j : Nat) (th th' : SysThread) (hne : i ≠ j) (hi : c'.threads[i]? = some th)
    (hj : c'.threads[j]? = some th') (hth : Started id (kindOf th) (phaseOf th))
    (hth' : Started id (kindOf th') (phaseOf th')) : away i ∨ away j := by
  rcases hth.entry hc hs hi with ⟨th₁, hi₁, hth₁⟩ | ⟨th₁, ev₁, _, hi₁, hrun₁, hunder₁, he₁, -⟩
  · rcases hth'.entry hc hs hj with ⟨th₂, hj₂, hth₂⟩ | ⟨th₂, _, _, hj₂, hrun₂, hunder₂, -⟩
    · exact h.unique i j th₁ th₂ hne hi₁ hj₂ hth₁ hth₂
    · exact .inr (h.under i j th₁ th₂ hne hi₁ hj₂ hth₁ hrun₂ hunder₂)
  · rcases hth'.entry hc hs hj with ⟨th₂, hj₂, hth₂⟩ | ⟨_, ev₂, _, -, -, -, he₂, -⟩
    · exact .inl (h.under j i th₂ th₁ hne.symm hj₂ hi₁ hth₂ hrun₁ hunder₁)
    · cases he₁.symm.trans he₂
      exact (hne rfl).elim

theorem StartsKept.step (h : StartsKept id away c) (hc : Conforming c) (hok : StartStep id away c a)
    (hs : system.step c a = some c') : StartsKept id away c' where
  one := hok.one c' hs
  spoken := h.spoken.step hc hs
  file := h.file_step hc hs
  under := h.under_step hc hok.apart hs
  unique := h.unique_step hc hs

/-- Of the starts of a container, when one has returned, every other one that ends has failed,
provided that no `start` writes while another one is between its check and its write, unless that
one is turned away at the socket. -/
theorem one_start {id : String} {away : Nat → Prop} {w : World} {c : SysConf} {i j : Nat}
    {th th' : SysThread} {r : Reply} (hw : w.file id = none)
    (hrun : Steps system.step (StartStep id away) (fresh w) c)
    (haway : ∀ (j : Nat) th, c.threads[j]? = some th → away j → ∀ ev ∈ th.trace, connects id ev = false)
    (hne : i ≠ j) (hi : c.threads[i]? = some th) (hj : c.threads[j]? = some th')
    (hk : kindOf th = .turn .start id) (hk' : kindOf th' = .turn .start id) (hr : reply th = some r)
    (hend : Ended th') : ∃ e, fault th' = some e := by
  obtain ⟨hc, hkept⟩ := run_invariant hrun (conforming_fresh w) (startsKept_fresh hw)
    fun c a c' hc h hok hs => h.step hc hok hs
  have hnot {j : Nat} {th : SysThread} (hj : c.threads[j]? = some th)
      (hth : Started id (kindOf th) (phaseOf th)) : ¬away j := by
    intro ha
    obtain ⟨hk, st, hg, hst⟩ := hth
    have hthrough : StartsIn id TurnStage.through (kindOf th) (phaseOf th) := by
      refine ⟨hk, st, hg, ?_⟩
      cases st <;> first | rfl | contradiction
    obtain ⟨ev, hmem, hev⟩ := through_connects (hc j th hj) hthrough
    rw [haway j th hj ha ev hmem] at hev
    contradiction
  rcases turn_ended (hc j th' hj) hk' hend with hfault | ⟨r', hr'⟩
  · exact hfault
  · have hth := started_of_reply (hc i th hi) hk hr
    have hth' := started_of_reply (hc j th' hj) hk' hr'
    rcases hkept.unique i j th th' hne hi hj hth hth' with ha | ha
    · exact (hnot hi hth ha).elim
    · exact (hnot hj hth' ha).elim

/-- The first `start` connects only when the container has ended, and is turned away. The second one
has returned before. -/
theorem one_start_sample : ∃ (c : SysConf) (th th' : SysThread),
    c.threads[3]? = some th ∧ (∃ r, reply th = some r) ∧
    c.threads[2]? = some th' ∧ ∃ e, fault th' = some e := by
  have h : ∃ c ∈ runActions system.step (StartStep "c" (· = 2)) (fresh sampleHost)
      (supervise "c" ++ begin "c" 1 ++ [.invoke (.turn .start "c")] ++ goes 5 3 ++ finish ++ goes 2 0 ++ goes 2 2),
      ∃ th ∈ c.threads[3]?, ∃ th' ∈ c.threads[2]?, kindOf th = .turn .start "c" ∧
        kindOf th' = .turn .start "c" ∧ (reply th).isSome ∧ Ended th' ∧
        ∀ ev ∈ th'.trace, connects "c" ev = false := by
    decide +kernel
  obtain ⟨c, hrun, th, hi, th', hj, hk, hk', hr, hend, haway⟩ := h
  obtain ⟨r, hr⟩ := Option.isSome_iff_exists.mp hr
  refine ⟨c, th, th', hi, ⟨r, hr⟩, hj, ?_⟩
  refine one_start rfl (.of_runActions hrun) ?_ (show 3 ≠ 2 by decide) hi hj hk hk' hr hend
  rintro j th₂ hj₂ rfl ev hev
  cases hj.symm.trans hj₂
  exact haway ev hev

/-- Both have passed their check before either writes, and both connect. -/
theorem two_starts : ∃ (c : SysConf) (th th' : SysThread),
    Steps system.step (SingleStep "c") (fresh sampleHost) c ∧
    c.threads[2]? = some th ∧ kindOf th = .turn .start "c" ∧ (∃ r, reply th = some r) ∧
    c.threads[3]? = some th' ∧ kindOf th' = .turn .start "c" ∧ ∃ r, reply th' = some r := by
  have h : ∃ c ∈ runActions system.step (SingleStep "c") (fresh sampleHost)
      (supervise "c" ++ begin "c" 3 ++ [.invoke (.turn .start "c")] ++ goes 5 3 ++ goes 2 2),
      ∃ th ∈ c.threads[2]?, ∃ th' ∈ c.threads[3]?, kindOf th = .turn .start "c" ∧
        kindOf th' = .turn .start "c" ∧ (reply th).isSome ∧ (reply th').isSome := by
    decide +kernel
  obtain ⟨c, hrun, th, hi, th', hj, hk, hk', hr, hr'⟩ := h
  exact ⟨c, th, th', .of_runActions hrun, hi, hk, Option.isSome_iff_exists.mp hr, hj, hk',
    Option.isSome_iff_exists.mp hr'⟩

end Clonebox
