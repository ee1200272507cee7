import Clonebox.Lifecycle.Deletion
import Clonebox.Requests.Snapshot

/-! # A container that is gone stays gone

The bundle is made by `create`, and once more by the child, which makes the directories of its
overlay in it. A supervisor that has cloned its child, a child at its command, and all other
operations find nothing to work on when the bundle has been removed, and do not bring it back. -/

namespace Clonebox
open Conc Prog

variable {id : String} {c c' : SysConf} {a : SysAction} {ε α β : Type} {tr : List Sys.Ev}

/-! ### Who makes the bundle -/

/-- The stages from which a run of `create` can still make the bundle. -/
def Stage.early : Stage → Bool
  | .start | .passed | .initial | .grouped | .child => true
  | _ => false

/-- The stages of the `create` handler before the shim is there. -/
def HandlerStage.early : HandlerStage → Bool
  | .idle | .holding _ | .entered _ => true
  | _ => false

/-- The program can still make the bundle of the container. -/
def Kind.early (id : String) : Kind → Phase → Bool
  | .create i _ _, .create g => i = id ∧ g.early
  | .handler i _, .handler g => i = id ∧ g.early
  | _, _ => false

/-- No creation of the container is under way. -/
def NoCreation (id : String) (c : SysConf) : Prop :=
  ∀ th ∈ c.threads, Running th → (kindOf th).early id (phaseOf th) = false

instance : Decidable (NoCreation id c) :=
  inferInstanceAs (Decidable (∀ th ∈ c.threads, Running th → (kindOf th).early id (phaseOf th) = false))

/-- The container a program may create. -/
def Main.creates : Main → Option String
  | .create id _ _ | .shim id _ _ | .rpc (.create id _) => some id
  | _ => none

/-- Nobody asks for a new creation of the container. -/
def Unasked (id : String) : SysAction → Prop
  | .invoke m => m.creates ≠ some id
  | _ => True

instance : Decidable (Unasked id a) :=
  match a with
  | .invoke m => inferInstanceAs (Decidable (m.creates ≠ some id))
  | .call _ _ | .env _ | .crash _ => inferInstanceAs (Decidable True)

theorem early_init {m : Main} (h : m.creates ≠ some id) : m.kind.early id m.kind.init = false := by
  have hne {i : String} (hi : some i ≠ some id) : decide (i = id ∧ true = true) = false :=
    decide_eq_false fun hd => hi (congrArg some hd.1)
  cases m with
  | create i cp sp | shim i cp sp => exact hne h
  | rpc req =>
    cases req with
    | create i cp => exact hne h
    | _ => rfl
  | _ => rfl

/-- Only a write of the first state leads back to a stage that can make the bundle. -/
theorem early_next {k : Kind} {g : Phase} {op : Op} {r : op.Ret} (hd : Does k g op)
    (h : k.early id g = false)
    (hwrite : ∀ s, (⟨op, r⟩ : Sys.Ev) ≠ ⟨.write (stateJson id) (.state s), .ok ()⟩) :
    k.early id (k.next g op r) = false := by
  cases k with
  | create i cp sp =>
    cases g with
    | create g =>
      by_cases hi : i = id
      · subst hi
        have hg : g.early = false := by simpa [Kind.early] using h
        rcases Stage.moves hd r with e | ⟨g', e, hm⟩
        · rw [e]
          exact h
        · rw [e]
          cases hm with
          | initial => exact (hwrite _ rfl).elim
          | refused | passed | unloaded | unmade | made | grouped | child | cloned => cases hg
          | _ => simp [Kind.early, Stage.early]
      · have hother (g : Phase) : (Kind.create i cp sp).early id g = false := by
          cases g <;> simp [Kind.early, hi]
        exact hother _
    | _ => exact h
  | handler i cp =>
    cases g with
    | handler g =>
      by_cases hi : i = id
      · subst hi
        have hg : g.early = false := by simpa [Kind.early] using h
        cases hd with
        | quiet hq =>
          rw [Kind.next_quiet hq]
          exact h
        | channel | insert | spawn => cases hg
        | await => simp [Kind.next, Op.quiet, HandlerStage.advance, Kind.early, HandlerStage.early]
      · have hother (g : Phase) : (Kind.handler i cp).early id g = false := by
          cases g <;> simp [Kind.early, hi]
        exact hother _
    | _ => exact h
  | _ => rfl

/-- The bundle is gone, and no creation of the container is under way. -/
structure Gone (id : String) (c : SysConf) : Prop where
  bundle : c.world.bundle id = none
  quiet : NoCreation id c

/-- The calls that make the bundle come early. -/
theorem Does.early {k : Kind} {g : Phase} {op : Op} {r : op.Ret} (hd : Does k g op)
    (hm : op.makesOrRemoves = some id) (hclear : clears id ⟨op, r⟩ = false) : k.early id g = true := by
  rcases hd.makes hm hclear with ⟨-, cp, sp, rfl, rfl⟩ | ⟨cp, sp, st, rfl, rfl, hst⟩
  · simp [Kind.early, Stage.early]
  · cases st with
    | child => simp [Kind.early, Stage.early]
    | _ => cases hst

theorem Gone.bundle_step (h : Gone id c) (hc : Conforming c) (hs : system.step c a = some c') :
    c'.world.bundle id = none := by
  have hnone (e : (c'.world.bundle id).isSome = (c.world.bundle id).isSome) : c'.world.bundle id = none := by
    rw [h.bundle] at e
    exact Option.not_isSome_iff_eq_none.mp (by rw [e]; decide)
  rcases step_world hs with ⟨i, op, r, ch, he, hx⟩ | e | ⟨e, -, he⟩ | ⟨t, -, e⟩
  · by_cases hm : op.makesOrRemoves = some id
    · obtain ⟨th, k, ch', hi, hrun, hd, -, -, -⟩ := event_thread hc he hs
      cases hclear : clears id ⟨op, r⟩ with
      | false =>
        have hearly := h.quiet th (List.mem_of_getElem? hi) hrun
        rw [hd.early hm hclear] at hearly
        cases hearly
      | true =>
        unfold Op.makesOrRemoves at hm
        split at hm <;> cases hm
        · cases hclear
        · cases hclear
        · rcases World.exec_removeDirAll hx with ⟨-, hb⟩ | ⟨e, -, hb, -⟩
          · exact hb
          · exact hnone hb
    · exact hnone (World.exec_isSome hx hm)
  · exact hnone (by rw [e])
  · exact hnone (by rw [World.env_bundle he])
  · exact hnone (by rw [e, World.crash_isSome])

theorem Gone.quiet_step (h : Gone id c) (hc : Conforming c) (hok : Unasked id a)
    (hs : system.step c a = some c') : NoCreation id c' := by
  intro th' hmem hrun
  obtain ⟨i, hi⟩ := List.mem_iff_getElem?.mp hmem
  have hold {j : Nat} {th : SysThread} {op : Op} {k : op.Ret → Prog Sys Fault Reply}
      (hj : c.threads[j]? = some th) (hst : th.stopped = false) (hp : th.prog = .call op k) :
      (kindOf th).early id (phaseOf th) = false ∧ Does (kindOf th) (phaseOf th) op :=
    ⟨h.quiet th (List.mem_of_getElem? hj) ⟨hst, op, k, hp⟩, Kind.may_does ((hc j th hj).may hp)⟩
  cases Machine.step_origin hs hi with
  | same h₀ => exact h.quiet th' (List.mem_of_getElem? h₀) hrun
  | stopped h₀ e =>
    subst e
    cases hrun.1
  | @answered th op k r ch ha h₀ hst hp hx e =>
    obtain ⟨hearly, hd⟩ := hold h₀ hst hp
    subst e
    rw [show kindOf (th.answer op k r) = kindOf th from rfl,
      show phaseOf (th.answer op k r) = (kindOf th).next (phaseOf th) op r from Machine.Contract.phase_answer]
    refine early_next hd hearly fun s he => ?_
    cases he
    -- there is no file to write
    rcases World.exec_write hx with ⟨-, hf⟩ | ⟨e, he, -⟩
    · have hb := h.bundle_step hc hs
      rw [World.file, hb] at hf
      cases hf
    · cases he
  | invoked ha h₀ hm e =>
    subst ha
    subst e
    exact early_init hok
  | @forked t th op k r r' ch ha h₀ hst hp hx hf hn e =>
    obtain ⟨hearly, hd⟩ := hold h₀ hst hp
    have hkind : kindOf th' = kindOf th := by rw [e]; rfl
    rw [hkind]
    generalize hk : kindOf th = kind at hearly hd
    generalize phaseOf th = g at hearly hd
    cases op <;> simp only [system, forkAnswer, reduceCtorEq] at hf
    case clone3 args =>
      obtain ⟨i, cp, sp, rfl, rfl, -⟩ := hd.clones
      have hne : i ≠ id := by
        intro hi
        simp [Kind.early, Stage.early, hi] at hearly
      cases phaseOf th' <;> simp [Kind.early, hne]
    case fork =>
      cases hd with
      | quiet hq => cases hq
      | fork => cases phaseOf th' <;> rfl
      | looks hl => cases hl
  | @spawned t th op k r m ch ha h₀ hst hp hx hsp hn e =>
    obtain ⟨hearly, hd⟩ := hold h₀ hst hp
    subst e
    refine early_init fun hm => ?_
    generalize kindOf th = kind at hearly hd
    generalize phaseOf th = g at hearly hd
    simp only [system] at hsp
    unfold spawned at hsp
    split at hsp <;> cases hsp
    cases hm
    cases hd with
    | quiet hq => cases hq
    | spawn => simp [Kind.early, HandlerStage.early] at hearly
    | looks hl => cases hl

theorem Gone.step (h : Gone id c) (hc : Conforming c) (hok : Unasked id a)
    (hs : system.step c a = some c') : Gone id c' := ⟨h.bundle_step hc hs, h.quiet_step hc hok hs⟩

/-! ### What is asked of it from then on -/

/-- The container whose state file a program has to read before anything else. -/
def Main.looksUp : Main → Option String
  | .turn _ id | .kill id | .delete id false | .state id | .exec id _ => some id
  | .rpc (.start id) | .rpc (.pause id) | .rpc (.resume id) | .rpc (.kill id) | .rpc (.delete id false)
  | .rpc (.state id) => some id
  | _ => none

/-- The call has found a state in the file. -/
def finds (id : String) : Sys.Ev → Prop
  | ⟨.read p, .ok (.state _)⟩ => p = stateJson id
  | _ => False

/-- Until it has found a state the program only tries to read it, and it does not succeed
without. -/
def LooksUp (id : String) (p : Prog Sys ε α) : Prop :=
  ∀ tr q, Reaches p tr q → (∀ ev ∈ tr, ¬finds id ev) →
    (∀ ev ∈ tr, ev.1 = .read (stateJson id)) ∧ ∀ a, q ≠ .ret a

namespace LooksUp

theorem readStateFile : LooksUp id (readStateFile id) := by
  intro tr q h hno
  cases q with
  | ret s =>
    rw [readStateFile_read h] at hno
    exact (hno _ List.mem_cons_self rfl).elim
  | fail e =>
    obtain ⟨x, -, rfl⟩ := readStateFile_unread h
    refine ⟨fun ev hev => ?_, fun a he => by cases he⟩
    rw [List.mem_singleton.mp hev]
  | halt | call =>
    have hcalls := h.calls (readStateFile_all (φ := fun op => op = .read (stateJson id)) rfl)
    exact ⟨hcalls.1, fun a he => by cases he⟩

theorem bind {p : Prog Sys ε α} {f : α → Prog Sys ε β} (hp : LooksUp id p) : LooksUp id (p.bind f) := by
  intro tr q h hno
  rcases h.of_bind with ⟨p', hp', rfl⟩ | ⟨tr₁, tr₂, a, rfl, h₁, -⟩
  · obtain ⟨hread, hret⟩ := hp tr p' hp' hno
    refine ⟨hread, fun b he => ?_⟩
    cases p' with
    | ret a => exact hret a rfl
    | fail | halt | call => cases he
  · exact ((hp tr₁ _ h₁ fun ev hev => hno ev (List.mem_append_left _ hev)).2 a rfl).elim

theorem mapError {δ : Type} {p : Prog Sys δ α} {f : δ → ε} (hp : LooksUp id p) :
    LooksUp id (p.mapError f) := by
  intro tr q h hno
  obtain ⟨p', hp', rfl⟩ := h.of_mapError
  obtain ⟨hread, hret⟩ := hp tr p' hp' hno
  refine ⟨hread, fun b he => ?_⟩
  cases p' with
  | ret a => exact hret a rfl
  | fail | halt | call => cases he

end LooksUp

theorem turn_looksUp (t : Turn) (id : String) : LooksUp id (t.op id) := by
  cases t <;> exact .bind .readStateFile

theorem main_looksUp {m : Main} (h : m.looksUp = some id) : LooksUp id m.prog := by
  have hdelete : LooksUp id (delete id false) := .bind .readStateFile
  cases m with
  | turn t i =>
    cases h
    exact .bind (.mapError (turn_looksUp t _))
  | kill i =>
    cases h
    exact .bind (.mapError (.bind .readStateFile))
  | delete i force =>
    cases force <;> cases h
    exact .bind (.mapError hdelete)
  | state i =>
    cases h
    exact .bind (.mapError .readStateFile)
  | exec i cmd =>
    cases h
    exact .bind (.mapError (.bind .readStateFile))
  | create | shim => cases h
  | rpc req =>
    cases req with
    | start i =>
      cases h
      exact .mapError (.bind (.mapError (turn_looksUp .start _)))
    | pause i =>
      cases h
      exact .mapError (.bind (.mapError (turn_looksUp .pause _)))
    | resume i =>
      cases h
      exact .mapError (.bind (.mapError (turn_looksUp .resume _)))
    | kill i =>
      cases h
      exact .mapError (.bind (.mapError (.bind .readStateFile)))
    | delete i force =>
      cases force <;> cases h
      exact .mapError (.bind (.mapError hdelete))
    | state i =>
      cases h
      exact .mapError (.bind (.mapError .readStateFile))
    | create | exec | wait | list => cases h

/-- The programs invoked since there were `n` threads have not found a state. -/
def Unfound (id : String) (n : Nat) (c : SysConf) : Prop :=
  ∀ (i : Nat) th, n ≤ i → c.threads[i]? = some th → th.parent = none → ∀ ev ∈ th.trace, ¬finds id ev

theorem Unfound.step {n : Nat} (h : Unfound id n c) (hg : Gone id c) (hs : system.step c a = some c') :
    Unfound id n c' := by
  intro i th' hn hi hpar ev hev
  cases Machine.step_origin hs hi with
  | same h₀ => exact h i th' hn h₀ hpar ev hev
  | stopped h₀ e =>
    subst e
    exact h i _ hn h₀ hpar ev hev
  | @answered th op k r ch ha h₀ hst hp hx e =>
    subst e
    rcases List.mem_append.mp hev with hev | hev
    · exact h i th hn h₀ hpar ev hev
    · rw [List.mem_singleton.mp hev]
      intro hfinds
      unfold finds at hfinds
      split at hfinds
      · rename_i p s he
        cases he
        subst hfinds
        have hf := (World.exec_read hx).2 s rfl
        rw [World.file, hg.bundle] at hf
        cases hf
      · exact hfinds
  | invoked ha h₀ hm e =>
    subst e
    cases hev
  | forked ha h₀ hst hp hx hf hnone e =>
    subst e
    cases hpar
  | spawned ha h₀ hst hp hx hsp hnone e =>
    subst e
    cases hpar

/-- No creation of the container is asked for, and the others asked for go by names. -/
def UnaskedByName (id : String) (c : SysConf) (a : SysAction) : Prop := Unasked id a ∧ ByName c a

instance : Decidable (UnaskedByName id c a) := inferInstanceAs (Decidable (Unasked id a ∧ ByName c a))

/-- Once the bundle of a container is gone and no creation of it is under way, it stays gone until
somebody asks for a new creation, given that all containers go by names. Whoever wants to start,
pause, resume, kill, delete, enter or look at the container in the meantime tries to read its state,
does nothing else, and does not succeed. -/
theorem gone_for_good {w : World} (_ : IsName id) (h : Steps system.step ByName (fresh w) c)
    (hb : c.world.bundle id = none) (hq : NoCreation id c)
    (h' : Steps system.step (UnaskedByName id) c c') :
    c'.world.bundle id = none ∧
      ∀ (i : Nat) th, c.threads.length ≤ i → c'.threads[i]? = some th → th.parent = none →
        th.main.looksUp = some id → (∀ ev ∈ th.trace, ev.1 = .read (stateJson id)) ∧ reply th = none := by
  have hfirst : Conforming (fresh w) ∧ Machine.Traced system (fresh w) := by
    refine ⟨conforming_fresh w, fun i th hi => ?_⟩
    simp at hi
  have hreached := h.invariant (I := fun c => Conforming c ∧ Machine.Traced system c)
    (fun c a c' hI _ hs => ⟨hI.1.step hs, hI.2.step hs⟩) hfirst
  have hunfound : Unfound id c.threads.length c := by
    intro i th hn hi
    rw [List.getElem?_eq_none_iff.mpr hn] at hi
    cases hi
  obtain ⟨⟨-, ht⟩, hgone, hun⟩ := h'.invariant
    (I := fun c₁ => (Conforming c₁ ∧ Machine.Traced system c₁) ∧ Gone id c₁ ∧ Unfound id c.threads.length c₁)
    (fun c₁ a c₂ hI hok hs => ⟨⟨hI.1.1.step hs, hI.1.2.step hs⟩, hI.2.1.step hI.1.1 hok.1 hs,
      hI.2.2.step hI.2.1 hs⟩) ⟨hreached, ⟨hb, hq⟩, hunfound⟩
  refine ⟨hgone.bundle, fun i th hn hi hpar hm => ?_⟩
  obtain ⟨hread, hret⟩ := main_looksUp hm th.trace th.prog (ht i th hi) (hun i th hn hi hpar)
  refine ⟨hread, ?_⟩
  cases hr : reply th with
  | none => rfl
  | some x => exact (hret x (reply_some hr)).elim

/-- A container is started, ends and is deleted; its supervisor goes on, and it is started again in
vain. -/
theorem gone_for_good_sample : ∃ c c' : SysConf,
    Steps system.step ByName (fresh sampleHost) c ∧ c.world.bundle "c" = none ∧
    NoCreation "c" c ∧ Steps system.step (UnaskedByName "c") c c' ∧
    c'.world.bundle "c" = none ∧ ∃ th ∈ c'.threads[4]?, th.main = .turn .start "c" ∧ reply th = none := by
  have h : ∃ c ∈ runActions system.step ByName (fresh sampleHost)
      (supervise "c" ++ begin "c" 3 ++ goes 2 2 ++ finish ++ [.invoke (.delete "c" false)] ++ goes 3 3),
      c.world.bundle "c" = none ∧ NoCreation "c" c ∧ c.threads.length ≤ 4 ∧
      ∃ c' ∈ runActions system.step (UnaskedByName "c") c
        ([.invoke (.turn .start "c"), go 0] ++ goes 1 4),
      ∃ th ∈ c'.threads[4]?, th.main = .turn .start "c" ∧ th.parent = none := by
    decide +kernel
  obtain ⟨c, hrun, hb, hq, hlen, c', hrun', th, hth, hm, hpar⟩ := h
  have hrun := Steps.of_runActions hrun
  have hrun' := Steps.of_runActions hrun'
  obtain ⟨hb', hlater⟩ := gone_for_good (by decide) hrun hb hq hrun'
  have hlooks : th.main.looksUp = some "c" := by rw [hm]; rfl
  exact ⟨c, c', hrun, hb, hq, hrun', hb', th, hth, hm, (hlater 4 th hlen hth hpar hlooks).2⟩

end Clonebox
