import Clonebox.Requests.ExitStatus

/-! # The supervisor of a container that was deleted

The state file, the events and the entry are found by the id alone. A supervisor that still runs
when its container was deleted and the id created again does its last steps on the new container. -/

namespace Clonebox
open Conc

variable {id : String} {c c' : SysConf} {a : SysAction} {i : Nat}

/-- The step is a call of thread `i`, or processes an event it has sent. -/
def StepOf (i : Nat) (c : SysConf) (a : SysAction) : Prop :=
  (∃ e ∈ system.event c a, e.1 = i) ∨ ∃ x ∈ delivery c a, x.1 = i

instance : Decidable (StepOf i c a) :=
  inferInstanceAs (Decidable ((∃ e ∈ system.event c a, e.1 = i) ∨ ∃ x ∈ delivery c a, x.1 = i))

/-- The state file and the entry stay what they are, and nothing is sent to those who wait. -/
structure Untouched (id : String) (w w' : World) : Prop where
  file : w'.file id = w.file id
  entry : Undisturbed id w w'

/-- Thread `i` leaves the container alone. -/
def Separate (id : String) (i : Nat) (c : SysConf) (a : SysAction) : Prop :=
  StepOf i c a → ∀ c' ∈ system.step c a, Untouched id c.world c'.world

/-- A write of `s` with this outcome changes the state file: there is a bundle, and the file does
not hold `s` yet; or it fails halfway, and the file holds something. -/
def World.overwrites (w : World) (id : String) (s : State) : Choice → Bool
  | .run _ => (w.bundle id).isSome ∧ w.file id ≠ some s
  | .err _ => false
  | .part _ => (w.file id).isSome

/-- The state that a call writes to `state.json` of the container. -/
def writesState (id : String) : Op → Option State
  | .write (.inBundle i .stateJson) (.state s) => if i = id then some s else none
  | _ => none

def choiceOf : SysAction → Option Choice
  | .call _ ch => some ch
  | _ => none

/-- The entry says already what the event says, and nobody waits in it whom the event would
release. -/
def ContainerEntry.deaf (ev : Event) (e : ContainerEntry) : Prop :=
  e.state = ev.state ∧ (ev.state ≠ .creating → e.createdWaiter = none) ∧
    (ev.state = .stopped → e.exitWaiter = [])

instance {ev : Event} {e : ContainerEntry} : Decidable (e.deaf ev) :=
  inferInstanceAs (Decidable (e.state = ev.state ∧ (ev.state ≠ .creating → e.createdWaiter = none) ∧
    (ev.state = .stopped → e.exitWaiter = [])))

/-- Thread `i` has outlived its container: a write of the state file finds no bundle, or what it
writes already there, or fails; an event finds no entry, or one that is deaf to it. -/
structure Outlived (id : String) (i : Nat) (c : SysConf) (a : SysAction) : Prop where
  write : ∀ e ∈ system.event c a, e.1 = i → ∀ s ∈ writesState id e.2.1, ∀ ch ∈ choiceOf a,
    c.world.overwrites id s ch = false
  event : ∀ x ∈ delivery c a, x.1 = i → ∀ e ∈ c.world.entry id, e.deaf x.2

instance : Decidable (Outlived id i c a) :=
  decidable_of_iff ((∀ e ∈ system.event c a, e.1 = i → ∀ s ∈ writesState id e.2.1,
      ∀ ch ∈ choiceOf a, c.world.overwrites id s ch = false) ∧
    ∀ x ∈ delivery c a, x.1 = i → ∀ e ∈ c.world.entry id, e.deaf x.2)
    ⟨fun h => ⟨h.1, h.2⟩, fun h => ⟨h.1, h.2⟩⟩

/-! ### The daemon -/

theorem ContainerEntry.update_eq_self {e : ContainerEntry} {ev : Event} :
    e.update ev = e ↔ e.deaf ev := by
  obtain ⟨st, cw, xw⟩ := e
  simp only [update, deaf, ContainerEntry.mk.injEq]
  constructor
  · rintro ⟨rfl, hc, hx⟩
    refine ⟨rfl, fun h => ?_, fun h => ?_⟩
    · rw [← hc, if_neg h]
    · rw [← hx, if_pos h]
  · rintro ⟨rfl, hc, hx⟩
    refine ⟨rfl, ?_, ?_⟩
    · split
      · rfl
      · exact (hc ‹_›).symm
    · split
      · exact (hx ‹_›).symm
      · rfl

/-- An event that does not change the entry sends nothing to those who wait in it. -/
theorem undisturbed_of_deaf {e : ContainerEntry} {ev : Event} {w w' : World}
    (hd : w'.daemon = w.daemon.updateStatus ev) (hid : ev.id = id)
    (hen : w.entry id = some e) (hdeaf : e.deaf ev) : Undisturbed id w w' := by
  subst hid
  have he : e.update ev = e := ContainerEntry.update_eq_self.mpr hdeaf
  intro e₁ hen₁
  cases hen.symm.trans hen₁
  have hentry : w'.entry ev.id = some e := by
    rw [World.entry, hd, Daemon.updateStatus_entry, show w.daemon.entry ev.id = some e from hen]
    exact congrArg some he
  refine ⟨hentry, fun tx htx => ?_, fun rx hrx => ?_⟩
  · have hcreating : ev.state = .creating := by
      by_contra hne
      rw [hdeaf.2.1 hne] at htx
      contradiction
    rw [hd, Bool.eq_iff_iff, Daemon.updateStatus_created]
    simp [hcreating]
  · have hrun : ev.state ≠ .stopped := by
      intro hst
      rw [hdeaf.2.2 hst] at hrx
      contradiction
    rw [hd, Daemon.updateStatus_exits, if_neg fun h => hrun h.1]

theorem deaf_of_undisturbed {e : ContainerEntry} {ev : Event} {w w' : World}
    (hd : w'.daemon = w.daemon.updateStatus ev) (hid : ev.id = id)
    (hen : w.entry id = some e) (h : Undisturbed id w w') : e.deaf ev := by
  subst hid
  have hentry : w'.entry ev.id = some (e.update ev) := by
    rw [World.entry, hd, Daemon.updateStatus_entry, show w.daemon.entry ev.id = some e from hen]
    rfl
  exact ContainerEntry.update_eq_self.mp (Option.some.inj (hentry.symm.trans (h e hen).1))

/-- A run of `create` does not touch the map itself. -/
theorem Does.not_onDaemon {configPath : String} {sp : Option String} {g : Phase} {op : Op}
    (hd : Does (.create id configPath sp) g op) : op.onDaemon = false := by
  cases hd with
  | quiet hq =>
    cases hon : op.onDaemon with
    | false => rfl
    | true =>
      have hnq := Op.not_quiet_of_onDaemon hon
      rw [hq] at hnq
      contradiction
  | _ => rfl

/-! ### The state file -/

/-- What a write makes of the state file. -/
theorem World.exec_overwrite {w w' : World} {t : Nat} {s : State} {ch : Choice} {r : Io Unit}
    (h : w.exec t (.write (stateJson id) (.state s)) ch = some (r, w')) :
    w'.file id = w.file id ↔ w.overwrites id s ch = false := by
  cases ch with
  | err e =>
    obtain ⟨-, rfl⟩ : Except.error e = r ∧ w = w' := by simpa [exec, Op.failure] using h
    simp [overwrites]
  | part e =>
    simp only [exec, runPart, Option.some.injEq, Prod.mk.injEq] at h
    obtain ⟨-, rfl⟩ := h
    cases hb : w.bundle id with
    | none => simp [writeFile, overwrites, file, hb]
    | some b =>
      have hnone : (w.setBundle id (some { b with state := some (.text "") })).file id = none := by
        simp [Bundle.file]
      simp only [writeFile, hb, hnone, overwrites]
      cases w.file id <;> simp
  | run n =>
    simp only [exec, run, Option.some.injEq] at h
    cases hb : w.bundle id with
    | none =>
      simp only [writeFile, hb, Prod.mk.injEq] at h
      obtain ⟨-, rfl⟩ := h
      have hno : w.overwrites id s (.run n) = false := by rw [overwrites, hb]; rfl
      exact iff_of_true rfl hno
    | some b =>
      simp only [writeFile, hb, Prod.mk.injEq] at h
      obtain ⟨-, rfl⟩ := h
      have hsome : (w.setBundle id (some { b with state := some (.state s) })).file id = some s := by
        simp [Bundle.file]
      have hover : w.overwrites id s (.run n) = decide (w.file id ≠ some s) := by
        rw [overwrites, hb]
        simp
      rw [hsome, hover, decide_eq_false_iff_not, not_not]
      exact eq_comm

/-- A call of `create` that writes no state leaves the state file alone. -/
theorem Does.file_kept {configPath : String} {sp : Option String} {g : Phase} {op : Op}
    {r : op.Ret} {w w' : World} {t : Nat} {ch : Choice}
    (hd : Does (.create id configPath sp) g op) (hop : writesState id op = none)
    (hx : w.exec t op ch = some (r, w')) : w'.file id = w.file id := by
  refine World.exec_file hx fun hf => ?_
  unfold Op.fileOf at hf
  split at hf <;> cases hf
  · cases hd with
    | quiet hq => contradiction
    | writeCreating | writeCreated | writeStopped => simp [writesState] at hop
  · cases hd with
    | quiet hq => contradiction

theorem writesState_some {op : Op} {s : State} (h : writesState id op = some s) :
    op = .write (stateJson id) (.state s) := by
  unfold writesState at h
  split at h <;> try contradiction
  split at h <;> cases h
  subst id
  rfl

/-! ### One step -/

theorem separate_iff {th : SysThread} {configPath : String} {sp : Option String}
    (hc : Conforming c) (hr : Registered c) (hs : system.step c a = some c')
    (hi : c.threads[i]? = some th) (hk : kindOf th = .create id configPath sp) :
    Separate id i c a ↔ Outlived id i c a := by
  constructor
  · intro h
    refine ⟨fun e he hei s hw ch hch => ?_, fun x hx hxi e hen => ?_⟩
    · have hunt : Untouched id c.world c'.world := h (.inl ⟨e, he, hei⟩) c' hs
      obtain ⟨j, op, r⟩ := e
      cases hei
      obtain ⟨th', k, ch', w, rfl, hj, hst, hop, hexec, hs'⟩ := Machine.event_some he
      cases hs.symm.trans hs'
      cases hch
      cases writesState_some hw
      exact (World.exec_overwrite hexec).mp hunt.file
    · have hunt : Untouched id c.world c'.world := h (.inr ⟨x, hx, hxi⟩) c' hs
      subst hxi
      obtain ⟨k, ha, hq⟩ := delivery_some hx
      obtain ⟨th', s, hi', hev⟩ := hr.sent x.1 x.2 (List.mem_of_getElem? hq)
      cases hi.symm.trans hi'
      obtain ⟨o, hsent⟩ := sentAs (hc _ th hi) hk
      exact deaf_of_undisturbed (delivery_step hx hs) (hsent.sent _ hev x.2 rfl).1 hen hunt.entry
  · intro h hstep c₁ hc₁
    cases hs.symm.trans hc₁
    rcases hstep with ⟨e, he, hei⟩ | ⟨x, hx, hxi⟩
    · obtain ⟨j, op, r⟩ := e
      cases hei
      obtain ⟨th', k, ch, hi', -, hd, hx, -⟩ := event_thread hc he hs
      cases hi.symm.trans hi'
      rw [hk] at hd
      refine ⟨?_, ?_⟩
      · cases hw : writesState id op with
        | none => exact hd.file_kept hw hx
        | some s =>
          obtain ⟨th₁, k₁, ch₁, w, rfl, hj, hst, hop, hexec, hs'⟩ := Machine.event_some he
          cases hs.symm.trans hs'
          have hno := h.write _ he rfl s hw ch₁ rfl
          cases writesState_some hw
          exact (World.exec_overwrite hexec).mpr hno
      · intro e hen
        rw [World.entry, World.exec_daemon hx hd.not_onDaemon]
        exact ⟨hen, fun _ _ => rfl, fun _ _ => rfl⟩
    · subst hxi
      obtain ⟨k, rfl, hq⟩ := delivery_some hx
      obtain ⟨th', s, hi', hev⟩ := hr.sent x.1 x.2 (List.mem_of_getElem? hq)
      cases hi.symm.trans hi'
      obtain ⟨o, hsent⟩ := sentAs (hc _ th hi) hk
      have hid : x.2.id = id := (hsent.sent _ hev x.2 rfl).1
      obtain ⟨w, hw, hc'⟩ := Machine.step_env hs
      have hw' : c.world.env (.deliver k) = some w := hw
      refine ⟨?_, fun e hen => ?_⟩
      · rw [hc']
        exact World.env_file hw'
      · exact undisturbed_of_deaf (delivery_step hx hs) hid hen (h.event x hx rfl e hen) e hen

/-! ### Runs -/

/-- Thread `i` is a run of `create` for the container. -/
def RunsCreate (id : String) (i : Nat) (c : SysConf) : Prop :=
  ∃ (th : SysThread) (configPath : String) (sp : Option String),
    c.threads[i]? = some th ∧ kindOf th = .create id configPath sp

theorem RunsCreate.step (h : RunsCreate id i c) (hs : system.step c a = some c') :
    RunsCreate id i c' := by
  obtain ⟨th, cp, sp, hi, hk⟩ := h
  obtain ⟨th', hi', hm, -, -⟩ := step_kept hs hi
  exact ⟨th', cp, sp, hi', by rw [kindOf, hm]; exact hk⟩

/-- From every reachable state on, also from those in which the container was deleted and created
again, a supervisor leaves the container alone in exactly the runs in which it has outlived it. -/
theorem incarnations {id : String} {w : World} {i : Nat} {c₁ c₂ : SysConf} (he : w.events = [])
    (hd : w.daemon = .new) (hrun : Steps system.step (fun _ _ => True) (fresh w) c₁)
    (hsup : RunsCreate id i c₁) :
    Steps system.step (Separate id i) c₁ c₂ ↔ Steps system.step (Outlived id i) c₁ c₂ := by
  obtain ⟨hc, hr⟩ := run_invariant hrun (conforming_fresh w) (registered_fresh he hd)
    fun c a c' hc h _ hs => h.step hc hs
  refine Steps.congr (I := fun c => Conforming c ∧ Registered c ∧ RunsCreate id i c) ?_ ?_
    ⟨hc, hr, hsup⟩
  · intro c a c' h _ hs
    exact ⟨h.1.step hs, h.2.1.step h.1 hs, h.2.2.step hs⟩
  · intro c a c' h hs
    obtain ⟨hc, hr, th, cp, sp, hi, hk⟩ := h
    exact separate_iff hc hr hs hi hk

/-- The container is killed, and its supervisor hears that the child has ended. -/
def killedContainer (id : String) : List SysAction :=
  runningContainer id ++ [.invoke (.rpc (.kill id))] ++ goes 4 4 ++
    [.env (.exit 7 (.signaled 9 false)), go 1]

/-- It is deleted and created again; the second shim is thread 7 and has written `creating`. -/
def recreated (id : String) : List SysAction :=
  [.invoke (.rpc (.delete id false))] ++ goes 4 5 ++ [.invoke (.rpc (.create id "cfg"))] ++
    goes 4 6 ++ goes 8 7

/-- The supervisor of a container that was deleted reports and fails before the id is created
again. -/
theorem incarnations_sample : ∃ c₁ c₂ : SysConf,
    Steps system.step (fun _ _ => True) (fresh daemonHost) c₁ ∧
    Steps system.step (Separate "c" 1) c₁ c₂ ∧
    c₂.world.entry "c" = some ⟨.creating, some 6, []⟩ ∧
    ∀ th ∈ c₂.threads[1]?, ¬Running th := by
  have h : ∃ c₁ ∈ runActions system.step (fun _ _ => True) (fresh daemonHost) (killedContainer "c"),
      (∃ th ∈ c₁.threads[1]?, kindOf th = .create "c" "cfg" (some getEventSocketPath)) ∧
      ∃ c₂ ∈ runActions system.step (Outlived "c" 1) c₁
        ([.invoke (.rpc (.delete "c" false))] ++ goes 4 5 ++ goes 6 1 ++
          [.env (.deliver 0), .env (.deliver 0), .invoke (.rpc (.create "c" "cfg"))] ++ goes 4 6),
        c₂.world.entry "c" = some ⟨.creating, some 6, []⟩ ∧
        ∀ th ∈ c₂.threads[1]?, ¬Running th := by
    decide +kernel
  obtain ⟨c₁, h₁, ⟨th, hi, hk⟩, c₂, h₂, hen, hend⟩ := h
  exact ⟨c₁, c₂, .of_runActions h₁,
    (incarnations rfl rfl (.of_runActions h₁) ⟨th, _, _, hi, hk⟩).mpr (.of_runActions h₂), hen, hend⟩

/-- The first supervisor comes to report when the id was created again: the second Create is
released, and the second container's file and entry say `stopped`. -/
theorem incarnations_mix : ∃ c₁ c₂ : SysConf,
    Steps system.step (fun _ _ => True) (fresh daemonHost) c₁ ∧
    c₁.world.entry "c" = some ⟨.creating, some 6, []⟩ ∧
    (∃ s ∈ c₁.world.file "c", s.status = .creating) ∧ RunsCreate "c" 1 c₁ ∧
    Steps system.step (fun c a => StepOf 1 c a) c₁ c₂ ∧
    c₂.world.entry "c" = some ⟨.stopped, none, []⟩ ∧ c₂.world.daemon.created 6 = true ∧
    ∃ s ∈ c₂.world.file "c", s.status = .stopped := by
  have h : ∃ c₁ ∈ runActions system.step (fun _ _ => True) (fresh daemonHost)
      (killedContainer "c" ++ recreated "c"),
      c₁.world.entry "c" = some ⟨.creating, some 6, []⟩ ∧
      (∃ s ∈ c₁.world.file "c", s.status = .creating) ∧
      (∃ th ∈ c₁.threads[1]?, kindOf th = .create "c" "cfg" (some getEventSocketPath)) ∧
      ∃ c₂ ∈ runActions system.step (fun c a => StepOf 1 c a) c₁
        (goes 2 1 ++ [.env (.deliver 1)] ++ goes 2 1),
        c₂.world.entry "c" = some ⟨.stopped, none, []⟩ ∧ c₂.world.daemon.created 6 = true ∧
        ∃ s ∈ c₂.world.file "c", s.status = .stopped := by
    decide +kernel
  obtain ⟨c₁, h₁, hen, hfile, ⟨th, hi, hk⟩, c₂, h₂, hen', hcr, hfile'⟩ := h
  exact ⟨c₁, c₂, .of_runActions h₁, hen, hfile, ⟨th, _, _, hi, hk⟩, .of_runActions h₂, hen', hcr,
    hfile'⟩

end Clonebox
