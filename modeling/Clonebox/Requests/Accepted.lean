import Clonebox.Lifecycle.Atomic
import Clonebox.Lifecycle.OneStart
import Clonebox.Lifecycle.Isolation
import Clonebox.Requests.Duplicate
import Clonebox.System.StartSocket

/-! # A start that is accepted

The event `created` answers Create before the supervisor has written `created` and made its socket,
and a `start` that comes in between is refused. From the moment the supervisor waits for a
connection on, a `start` goes through. -/

namespace Clonebox
open Conc Prog

variable {id : String} {c c₀ c' : SysConf} {a : SysAction} {i j : Nat} {th : SysThread} {w w' : World}

/-! ### The schedules -/

/-- The next call is the one that waits for a `start`. -/
def inAccept (id : String) : Prog Sys Fault Reply → Bool
  | .call (.accept4 p) _ => p = startSk id
  | _ => false

/-- The supervisor waits for a connection, and nobody has connected. -/
structure Awaiting (id : String) (j : Nat) (c : SysConf) : Prop where
  waits : ∃ th ∈ c.threads[j]?, inAccept id th.prog = true
  file : ∃ s ∈ c.world.file id, s.status = .created
  sock : c.world.sock id = .listening j 0

instance : Decidable (Awaiting id j c) :=
  decidable_of_iff ((∃ th ∈ c.threads[j]?, inAccept id th.prog = true) ∧
    (∃ s ∈ c.world.file id, s.status = .created) ∧ c.world.sock id = .listening j 0)
    ⟨fun h => ⟨h.1, h.2.1, h.2.2⟩, fun h => ⟨h.1, h.2, h.3⟩⟩

def Op.isWait : Op → Bool
  | .waitpid _ => true
  | _ => false

def crashed : SysAction → Option Nat
  | .crash t => some t
  | _ => none

/-- A step of a container that thread `i` starts and thread `j` supervises: nobody else touches its
bundle, the calls of these two take their course, the supervisor is not killed, and the child does
not end. -/
structure StartRuns (id : String) (i j : Nat) (c : SysConf) (a : SysAction) : Prop where
  others : ∀ e ∈ system.event c a, e.2.1.bundleOf = some id →
    e.1 = j ∨ e.1 = i ∧ ∃ th ∈ c.threads[i]?, kindOf th = .turn .start id
  course : ∀ e ∈ system.event c a, e.1 = i ∨ e.1 = j → takesItsCourse a = true
  lasts : ∀ e ∈ system.event c a, e.1 = j → e.2.1.isWait = false
  lives : crashed a ≠ some j

instance : Decidable (StartRuns id i j c a) :=
  decidable_of_iff ((∀ e ∈ system.event c a, e.2.1.bundleOf = some id →
      e.1 = j ∨ e.1 = i ∧ ∃ th ∈ c.threads[i]?, kindOf th = .turn .start id) ∧
    (∀ e ∈ system.event c a, e.1 = i ∨ e.1 = j → takesItsCourse a = true) ∧
    (∀ e ∈ system.event c a, e.1 = j → e.2.1.isWait = false) ∧ crashed a ≠ some j)
    ⟨fun h => ⟨h.1, h.2.1, h.2.2.1, h.2.2.2⟩, fun h => ⟨h.1, h.2, h.3, h.4⟩⟩

/-! ### What a `start` has done -/

/-- The stages from the connection on. -/
def TurnStage.late : TurnStage → Bool
  | .idle | .passed => false
  | _ => true

/-- The stages from the write on. -/
def TurnStage.last : TurnStage → Bool
  | .refused | .wrote | .settled => true
  | _ => false

/-- A call that a `start` has made has brought it to a stage that it does not leave. -/
theorem turn_after {S : TurnStage → Bool} {ev : Sys.Ev} (h : contract.Conforms th)
    (hk : kindOf th = .turn .start id) (hev : ev ∈ th.trace)
    (hto : ∀ g, Does (.turn .start id) g ev.1 →
      ∃ st, (Kind.turn .start id).next g ev.1 ev.2 = .turn st ∧ S st = true)
    (hkeep : ∀ st (op : Op) (r : op.Ret), Does (.turn .start id) (.turn st) op → S st = true →
      ∃ st', (Kind.turn .start id).next (.turn st) op r = .turn st' ∧ S st' = true) :
    ∃ st, phaseOf th = .turn st ∧ S st = true := by
  refine h.past.after (I := fun g => ∃ st, g = .turn st ∧ S st = true) hev ?_ ?_
  · intro g hmay
    change (kindOf th).may g _ at hmay
    show ∃ st, (kindOf th).next g _ _ = .turn st ∧ S st = true
    rw [hk] at hmay ⊢
    exact hto g (Kind.may_does hmay)
  · intro g op r hmay hst
    obtain ⟨st, rfl, hst⟩ := hst
    change (kindOf th).may _ op at hmay
    show ∃ st', (kindOf th).next _ op r = .turn st' ∧ S st' = true
    rw [hk] at hmay ⊢
    exact hkeep st op r (Kind.may_does hmay) hst

theorem late_of_connects {ev : Sys.Ev} (h : contract.Conforms th) (hk : kindOf th = .turn .start id)
    (hev : ev ∈ th.trace) (hc : connects id ev = true) :
    ∃ st : TurnStage, phaseOf th = .turn st ∧ st.late = true := by
  obtain ⟨op, r⟩ := ev
  refine turn_after h hk hev (fun g hd => ?_) fun st op r hd hst => ?_
  · unfold connects at hc
    split at hc
    · rename_i heq
      cases heq
      cases hd with
      | quiet hq => cases hq
      | connect => exact ⟨_, rfl, rfl⟩
    · cases hc
  · cases hd with
    | quiet hq => exact ⟨st, Kind.next_quiet hq r, hst⟩
    | check | connect | rereadPassed => cases hst
    | rereadConnected =>
      refine ⟨_, rfl, ?_⟩
      cases hp : parsed r <;> simp [Op.quiet, TurnStage.advance, hp, TurnStage.late]
    | writeTurn => cases r <;> exact ⟨_, rfl, rfl⟩
    | settleTurn => exact ⟨_, rfl, rfl⟩

theorem last_of_wrote {ev : Sys.Ev} (h : contract.Conforms th) (hk : kindOf th = .turn .start id)
    (hev : ev ∈ th.trace) (hw : (wrote id ev).isSome = true) :
    ∃ st : TurnStage, phaseOf th = .turn st ∧ st.last = true := by
  obtain ⟨s, hw⟩ := Option.isSome_iff_exists.mp hw
  obtain rfl := wrote_some hw
  refine turn_after h hk hev (fun g hd => ?_) fun st op r hd hst => ?_
  · cases hd with
    | quiet hq => cases hq
    | writeTurn => exact ⟨_, rfl, rfl⟩
  · cases hd with
    | quiet hq => exact ⟨st, Kind.next_quiet hq r, hst⟩
    | check | connect | rereadPassed | rereadConnected | writeTurn => cases hst
    | settleTurn => exact ⟨_, rfl, rfl⟩

/-! ### The invariant -/

/-- The stages of a supervisor that lets a `start` in, or has. -/
def Stage.letsIn : Stage → Bool
  | .listening _ | .accepted _ => true
  | _ => false

/-- Thread `i` is a `start` and has met with this answer. -/
def HasMet (id : String) (i : Nat) (met : Sys.Ev → Bool) (c : SysConf) : Prop :=
  ∃ th, c.threads[i]? = some th ∧ kindOf th = .turn .start id ∧ ∃ ev ∈ th.trace, met ev = true

/-- A thread that runs `create` in one of the stages. -/
def StageIn (id : String) (S : Stage → Bool) (j : Nat) (c : SysConf) : Prop :=
  ∃ th, c.threads[j]? = some th ∧ AtStage id S (kindOf th) (phaseOf th)

/-- The supervisor waits until the `start` has connected, and `created` is in the file until the
`start` has written; and the `start` has met with no mishap. -/
structure Accepting (id : String) (i j : Nat) (c : SysConf) : Prop where
  supervisor : StageIn id Stage.letsIn j c
  sock : (c.world.sock id = .listening j 0 ∧ StageIn id Stage.isListening j c) ∨ HasMet id i (connects id) c
  file : (∃ s ∈ c.world.file id, s.status = .created) ∨ HasMet id i (fun ev => (wrote id ev).isSome) c
  lucky : ∀ th, c.threads[i]? = some th → kindOf th = .turn .start id → ∀ ev ∈ th.trace, mishap ev = false

theorem HasMet.step {met : Sys.Ev → Bool} (h : HasMet id i met c) (hs : system.step c a = some c') :
    HasMet id i met c' := by
  obtain ⟨th, hi, hk, ev, hev, hmet⟩ := h
  obtain ⟨th', hi', hm, -, htr⟩ := step_kept hs hi
  exact ⟨th', hi', (congrArg Main.kind hm).trans hk, ev, htr hev, hmet⟩

/-- A supervisor stays in the stages that no answer of the step takes it out of. -/
theorem StageIn.step {S : Stage → Bool} (h : StageIn id S j c) (hc : Conforming c)
    (hs : system.step c a = some c')
    (hS : ∀ (op : Op) (r : op.Ret), system.event c a = some (j, ⟨op, r⟩) →
      ∀ g g', Stage.Move id g op r g' → S g = true → S g' = true) : StageIn id S j c' := by
  obtain ⟨th, hj, hst⟩ := h
  obtain ⟨th', hj', rfl | rfl | ⟨op, k, r, ch, rfl, hrun, hop, hx, rfl⟩⟩ := Machine.step_persists hs hj
  · exact ⟨_, hj', hst⟩
  · exact ⟨_, hj', by simpa [kindOf, phaseOf] using hst⟩
  · have hd : Does (kindOf th) (phaseOf th) op := Kind.may_does ((hc j th hj).may hop)
    refine ⟨_, hj', ?_⟩
    rw [phaseOf, Machine.Contract.phase_answer]
    exact AtStage.next hd hst (hS op r (event_call hj hrun hop hx))

/-- What a call of the two threads makes of the world. -/
theorem StartRuns.event (h : StartRuns id i j c a) (hc : Conforming c) (hs : system.step c a = some c')
    {k : Nat} {op : Op} {r : op.Ret} (he : system.event c a = some (k, ⟨op, r⟩)) (hk : k = i ∨ k = j) :
    ∃ (th : SysThread) (n : Int) (cont : op.Ret → Prog Sys Fault Reply), c.threads[k]? = some th ∧
      th.prog = .call op cont ∧ Does (kindOf th) (phaseOf th) op ∧ c.world.run k n op = some (r, c'.world) ∧
      c'.threads[k]? = some (th.answer op cont r) := by
  have hcourse := h.course _ he hk
  obtain ⟨th, cont, ch, w, rfl, hi, hst, hop, hx, hs'⟩ := Machine.event_some he
  cases hs.symm.trans hs'
  have hlen : k < c.threads.length := (List.getElem?_eq_some_iff.mp hi).1
  have hi' : (c.threads.set k (th.answer op cont r) ++ system.born k th op cont r)[k]? =
      some (th.answer op cont r) := by
    rw [List.getElem?_append_left (by simpa using hlen), List.getElem?_set_self hlen]
  cases ch with
  | run n => exact ⟨th, n, cont, hi, hop, Kind.may_does ((hc k th hi).may hop), hx, hi'⟩
  | err | part => cases hcourse

/-- A `start` that is in an early stage has neither connected nor written. -/
theorem HasMet.late (h : HasMet id i (connects id) c) (hc : Conforming c)
    (hi : c.threads[i]? = some th) :
    ∃ st : TurnStage, phaseOf th = .turn st ∧ st.late = true := by
  obtain ⟨th₁, hi₁, hk, ev, hev, hmet⟩ := h
  cases hi.symm.trans hi₁
  exact late_of_connects (hc i th hi) hk hev hmet

theorem HasMet.last (h : HasMet id i (fun ev => (wrote id ev).isSome) c) (hc : Conforming c)
    (hi : c.threads[i]? = some th) : ∃ st : TurnStage, phaseOf th = .turn st ∧ st.last = true := by
  obtain ⟨th₁, hi₁, hk, ev, hev, hmet⟩ := h
  cases hi.symm.trans hi₁
  exact last_of_wrote (hc i th hi) hk hev hmet

/-- Whatever the `start` asks for, it gets. -/
theorem Accepting.answer (h : Accepting id i j c) (hc : Conforming c) {op : Op} {r : op.Ret} {n : Int}
    (hi : c.threads[i]? = some th) (hk : kindOf th = .turn .start id)
    (hd : Does (kindOf th) (phaseOf th) op) (hcall : startCalls id op)
    (hx : c.world.run i n op = some (r, w')) : mishap ⟨op, r⟩ = false := by
  have hunwritten (hst : ∀ st : TurnStage, phaseOf th = .turn st → st.last = false) :
      ∃ s, c.world.file id = some s ∧ s.status = .created := by
    rcases h.file with hcreated | hwrote
    · exact hcreated
    · obtain ⟨st, hg, hlast⟩ := hwrote.last hc hi
      cases (hst st hg).symm.trans hlast
  have hread (hst : ∀ st : TurnStage, phaseOf th = .turn st → st.last = false) {r : Io Content}
      (hx : c.world.run i n (.read (stateJson id)) = some (r, w')) :
      mishap ⟨.read (stateJson id), r⟩ = false := by
    obtain ⟨s, hfile, hcreated⟩ := hunwritten hst
    obtain ⟨b, hb, hstate⟩ := World.bundle_of_file hfile
    cases hx
    simp [mishap, parsed, World.readFile, World.content, hb, hstate, hcreated]
  rw [hk] at hd
  generalize hg : phaseOf th = g at hd
  have hat {st st' : TurnStage} (he : g = .turn st) (hst' : phaseOf th = .turn st') : st' = st := by
    rw [he] at hg
    exact (Phase.turn.inj (hst'.symm.trans hg))
  cases hd with
  | quiet hq =>
    unfold startCalls at hcall
    split at hcall
    · subst hcall
      cases hq
    · subst hcall
      cases hq
    · obtain ⟨rfl, -⟩ := hcall
      cases hq
    · cases hq
    · cases hx
      rfl
    · exact hcall.elim
  | check => exact hread (fun st hst => by rw [hat rfl hst]; rfl) hx
  | connect =>
    rcases h.sock with ⟨hsock, -⟩ | hmet
    · simp only [World.run, World.connect, hsock] at hx
      cases hx
      rfl
    · obtain ⟨st, hst, hlate⟩ := hmet.late hc hi
      rw [hat rfl hst] at hlate
      cases hlate
  | rereadPassed hne => exact absurd rfl hne
  | rereadConnected => exact hread (fun st hst => by rw [hat rfl hst]; rfl) hx
  | writeTurn =>
    obtain ⟨s, hfile, -⟩ := hunwritten fun st hst => by rw [hat rfl hst]; rfl
    obtain ⟨b, hb, -⟩ := World.bundle_of_file hfile
    simp only [World.run, World.writeFile, hb] at hx
    cases hx
    rfl
  | settleTurn => rfl

theorem Accepting.supervisor_step (h : Accepting id i j c) (hc : Conforming c)
    (hok : StartRuns id i j c a)
    (hs : system.step c a = some c') : StageIn id Stage.letsIn j c' := by
  refine h.supervisor.step hc hs fun op r he g g' hm hg => ?_
  cases hm with
  | accepted => rfl
  | broken =>
    obtain ⟨th, n, cont, -, -, -, hx, -⟩ := hok.event hc hs he (.inr rfl)
    obtain ⟨w, -, hw⟩ := Option.map_eq_some_iff.mp hx
    cases hw
  | waited => cases hok.lasts _ he rfl
  | _ => cases hg

/-- While nobody has connected, the supervisor waits. -/
theorem accept_waits {n : Int} (h : c.world.sock id = .listening j 0) :
    c.world.run j n (.accept4 (startSk id)) = none := by
  simp [World.run, World.accept, World.queue, h]

/-- While it waits, the supervisor makes no other call on the bundle. -/
theorem StageIn.waits {op : Op} {r : op.Ret} (h : StageIn id Stage.isListening j c) (hc : Conforming c)
    (hs : system.step c a = some c') (he : system.event c a = some (j, ⟨op, r⟩))
    (hop : op.bundleOf = some id) :
    op = .accept4 (startSk id) := by
  obtain ⟨th, hj, cp, sp, st, hk, hg, hst⟩ := h
  obtain ⟨th₁, k, ch, hj₁, -, hd, -⟩ := event_thread hc he hs
  cases hj.symm.trans hj₁
  rw [hk, hg] at hd
  cases st with
  | listening pid =>
    cases hd with
    | quiet hq => cases (Op.not_quiet_of_bundleOf hop).symm.trans hq
    | accept => rfl
    | failConnect | failEvent => cases hop
    | close h => cases h
  | _ => cases hst

theorem Op.bundleOf_of_fileOf {op : Op} (h : op.fileOf = some id) : op.bundleOf = some id := by
  unfold Op.fileOf at h
  split at h <;> first | exact h | cases h

/-- From then on it does not change the state file. -/
theorem StageIn.leaves_file {op : Op} {r : op.Ret} (h : StageIn id Stage.letsIn j c) (hc : Conforming c)
    (hs : system.step c a = some c') (he : system.event c a = some (j, ⟨op, r⟩)) :
    op.fileOf ≠ some id := by
  intro hop
  obtain ⟨th, hj, cp, sp, st, hk, hg, hst⟩ := h
  obtain ⟨th₁, k, ch, hj₁, -, hd, -⟩ := event_thread hc he hs
  cases hj.symm.trans hj₁
  rw [hk, hg] at hd
  cases hd with
  | quiet hq => cases (Op.not_quiet_of_bundleOf (Op.bundleOf_of_fileOf hop)).symm.trans hq
  | writeCreating | writeCreated | writeStopped => cases hst
  | _ => cases hop

/-- A call on the bundle by the `start`. -/
theorem start_call {op : Op} (hd : Does (.turn .start id) (phaseOf th) op)
    (hop : op.bundleOf = some id) :
    op = .connect (startSk id) ∨ ∃ s, op = .write (stateJson id) (.state s) := by
  generalize phaseOf th = g at hd
  cases hd with
  | quiet hq => cases (Op.not_quiet_of_bundleOf hop).symm.trans hq
  | connect => exact .inl rfl
  | writeTurn => exact .inr ⟨_, rfl⟩
  | check | rereadPassed | rereadConnected | settleTurn => cases hop

theorem StartRuns.sock_step (hok : StartRuns id i j c a) (hc : Conforming c)
    (hs : system.step c a = some c') (hsock : c.world.sock id = .listening j 0)
    (hlis : StageIn id Stage.isListening j c) :
    c'.world.sock id = .listening j 0 ∨ HasMet id i (connects id) c' := by
  have hbundle (hb : c'.world.bundle id = c.world.bundle id) : c'.world.sock id = .listening j 0 := by
    rw [World.sock, hb]
    exact hsock
  cases a with
  | call t ch =>
    obtain ⟨th, op, k, r, w, hi, hst, hop, hx, rfl⟩ := Machine.step_call hs
    have he := event_call hi hst hop hx
    by_cases hon : op.bundleOf = some id
    · rcases hok.others _ he hon with rfl | ⟨rfl, th₁, hi₁, hk⟩
      · -- the supervisor waits
        obtain rfl := hlis.waits hc hs he hon
        obtain ⟨_, n, cont, -, -, -, hx, -⟩ := hok.event hc hs he (.inr rfl)
        cases (accept_waits hsock).symm.trans hx
      · cases hi.symm.trans hi₁
        obtain ⟨_, n, cont, hi₂, hp, hd, hx, hi'⟩ := hok.event hc hs he (.inl rfl)
        cases hi.symm.trans hi₂
        rw [hk] at hd
        rcases start_call hd hon with rfl | ⟨s, rfl⟩
        · simp only [World.run, World.connect, hsock] at hx
          cases hx
          exact .inr ⟨_, hi', hk, _, List.mem_append_right _ List.mem_cons_self, by simp [connects]⟩
        · have hw : (c.world.writeFile (stateJson id) (.state s)).2 = w :=
            congrArg Prod.snd (Option.some.inj hx)
          refine .inl ?_
          rw [← hw, World.writeFile_sock]
          exact hsock
    · exact .inl (hbundle (World.exec_bundle hx hon))
  | invoke m =>
    obtain ⟨-, rfl⟩ := Machine.step_invoke hs
    exact .inl hsock
  | env e =>
    obtain ⟨w, hw, rfl⟩ := Machine.step_env hs
    exact .inl (hbundle (congrFun (World.env_bundle hw) id))
  | crash t =>
    obtain ⟨th, hi, rfl⟩ := Machine.step_crash hs
    have hne : (c.world.sock id).maker ≠ some t := by
      rw [hsock]
      rintro he
      cases he
      exact hok.lives rfl
    exact .inl (hbundle (World.crash_bundle hne))

theorem StartRuns.listening_step (hok : StartRuns id i j c a) (hc : Conforming c)
    (hs : system.step c a = some c') (hsock : c.world.sock id = .listening j 0)
    (hlis : StageIn id Stage.isListening j c) : StageIn id Stage.isListening j c' := by
  refine hlis.step hc hs fun op r he g g' hm hg => ?_
  obtain ⟨th, n, cont, -, -, -, hx, -⟩ := hok.event hc hs he (.inr rfl)
  cases hm with
  | accepted | broken => cases (accept_waits hsock).symm.trans hx
  | _ => cases hg

theorem Accepting.file_step (h : Accepting id i j c) (hc : Conforming c)
    (hok : StartRuns id i j c a) (hs : system.step c a = some c')
    (hfile : ∃ s ∈ c.world.file id, s.status = .created) :
    (∃ s ∈ c'.world.file id, s.status = .created) ∨ HasMet id i (fun ev => (wrote id ev).isSome) c' := by
  have hsame (he : c'.world.file id = c.world.file id) : ∃ s ∈ c'.world.file id, s.status = .created := by
    rw [he]
    exact hfile
  cases a with
  | call t ch =>
    obtain ⟨th, op, k, r, w, hi, hst, hop, hx, rfl⟩ := Machine.step_call hs
    have he := event_call hi hst hop hx
    by_cases hon : op.fileOf = some id
    · have hb := Op.bundleOf_of_fileOf hon
      rcases hok.others _ he hb with rfl | ⟨rfl, th₁, hi₁, hk⟩
      · exact absurd hon (h.supervisor.leaves_file hc hs he)
      · cases hi.symm.trans hi₁
        obtain ⟨_, n, cont, hi₂, hp, hd, hx, hi'⟩ := hok.event hc hs he (.inl rfl)
        cases hi.symm.trans hi₂
        rw [hk] at hd
        rcases start_call hd hb with rfl | ⟨s, rfl⟩
        · cases hon
        · obtain ⟨s₀, hs₀, -⟩ := hfile
          obtain ⟨b, hb, -⟩ := World.bundle_of_file hs₀
          simp only [World.run, World.writeFile, hb] at hx
          cases hx
          exact .inr ⟨_, hi', hk, _, List.mem_append_right _ List.mem_cons_self, by simp [wrote]⟩
    · exact .inl (hsame (World.exec_file hx hon))
  | invoke m =>
    obtain ⟨-, rfl⟩ := Machine.step_invoke hs
    exact .inl hfile
  | env e =>
    obtain ⟨w, hw, rfl⟩ := Machine.step_env hs
    exact .inl (hsame (World.env_file hw))
  | crash t =>
    obtain ⟨th, hi, rfl⟩ := Machine.step_crash hs
    exact .inl (hsame World.crash_file)

theorem Accepting.lucky_step (h : Accepting id i j c) (hc : Conforming c) (ht : Machine.Traced system c)
    (hfit : (getSocketPath id).str.utf8ByteSize < 108) (hok : StartRuns id i j c a)
    (hs : system.step c a = some c') (th' : SysThread) (hi' : c'.threads[i]? = some th')
    (hk : kindOf th' = .turn .start id) (ev : Sys.Ev) (hev : ev ∈ th'.trace) : mishap ev = false := by
  rcases step_trace hc hs hi' hev with ⟨th, hi, hm, -, hold⟩ | he | ⟨t, th, hcopy⟩
  · exact h.lucky th hi ((congrArg Main.kind hm).symm.trans hk) ev hold
  · obtain ⟨op, r⟩ := ev
    obtain ⟨th, n, cont, hi, hp, hd, hx, hi₁⟩ := hok.event hc hs he (.inl rfl)
    cases hi'.symm.trans hi₁
    have hrest := ((ht i th hi).obeys (startMain_obeys hfit hk)).2
    rw [hp] at hrest
    exact h.answer hc hi hk hd hrest.1.1 hx
  · have hhas := phase_has (hc t th hcopy.origin)
    rw [kindOf, ← hcopy.main] at hhas
    rw [show th'.main.kind = .turn .start id from hk] at hhas
    rcases hcopy.trace with ⟨hg, -⟩ | ⟨⟨g, hg⟩, -⟩
    · rw [hg] at hhas
      cases hhas
    · rw [hg] at hhas
      cases hhas

theorem Accepting.step (h : Accepting id i j c) (hc : Conforming c) (ht : Machine.Traced system c)
    (hfit : (getSocketPath id).str.utf8ByteSize < 108) (hok : StartRuns id i j c a)
    (hs : system.step c a = some c') : Accepting id i j c' where
  supervisor := h.supervisor_step hc hok hs
  sock := by
    rcases h.sock with ⟨hsock, hlis⟩ | hmet
    · exact (hok.sock_step hc hs hsock hlis).imp_left fun hs' => ⟨hs', hok.listening_step hc hs hsock hlis⟩
    · exact .inr (hmet.step hs)
  file := by
    rcases h.file with hfile | hmet
    · exact h.file_step hc hok hs hfile
    · exact .inr (hmet.step hs)
  lucky := h.lucky_step hc ht hfit hok hs

/-- A supervisor that waits at its socket has come to listen on it. -/
theorem Awaiting.accepting (h : Awaiting id j c) (hc : Conforming c) (ht : Machine.Traced system c)
    (hnew : c.threads[i]? = none) :
    Accepting id i j c ∧ (getSocketPath id).str.utf8ByteSize < 108 := by
  obtain ⟨th, hj, haccept⟩ := h.waits
  unfold inAccept at haccept
  split at haccept
  · rename_i p k hp
    obtain rfl := of_decide_eq_true haccept
    have hd : Does (kindOf th) (phaseOf th) (.accept4 (startSk id)) := Kind.may_does ((hc j th hj).may hp)
    obtain ⟨cp, sp, pid, hk, hg⟩ : ∃ cp sp pid, kindOf th = .create id cp sp ∧
        phaseOf th = .create (.listening pid) := by
      generalize kindOf th = kind at hd
      generalize phaseOf th = g at hd
      cases hd with
      | quiet hq => cases hq
      | accept => exact ⟨_, _, _, rfl, rfl⟩
      | looks hl => cases hl
    have hcalls := ((ht j th hj).calls (listen_fits hk)).2
    rw [hp] at hcalls
    refine ⟨⟨⟨th, hj, cp, sp, _, hk, hg, rfl⟩, .inl ⟨h.sock, th, hj, cp, sp, _, hk, hg, rfl⟩, .inl h.file, ?_⟩,
      hcalls.1 (.inr rfl)⟩
    intro th₁ hi
    cases hnew.symm.trans hi
  · cases haccept

/-- The next call of the `start` does not wait. -/
theorem Accepting.next (h : Accepting id i j c) (hc : Conforming c) {op : Op}
    {k : op.Ret → Prog Sys Fault Reply}
    (hi : c.threads[i]? = some th) (hk : kindOf th = .turn .start id) (hst : th.stopped = false)
    (hp : th.prog = .call op k) (hcall : startCalls id op) : ∃ c', system.step c (go i) = some c' := by
  have hd : Does (kindOf th) (phaseOf th) op := Kind.may_does ((hc i th hi).may hp)
  have hrun : ∃ x, c.world.run i 0 op = some x := by
    unfold startCalls at hcall
    split at hcall
    · exact ⟨_, rfl⟩
    · subst hcall
      rcases h.sock with ⟨hsock, -⟩ | hmet
      · simp [World.run, World.connect, hsock]
      · obtain ⟨st, hg, hlate⟩ := hmet.late hc hi
        rw [hk, hg] at hd
        cases hd with
        | quiet hq => cases hq
        | connect => cases hlate
    · exact ⟨_, rfl⟩
    · exact ⟨_, rfl⟩
    · exact ⟨_, rfl⟩
    · exact hcall.elim
  obtain ⟨⟨r, w⟩, hx⟩ := hrun
  exact ⟨_, Machine.step_of_exec hi hst hp hx⟩

/-- Once the supervisor waits with `created` in the file, the next `start` goes through: it can
always make its next call, and it does not end but with success. Nobody else may touch the bundle
meanwhile, and the child may not end. -/
theorem start_accepted (hrun : Steps system.step (fun _ _ => True) (fresh w) c) (hwait : Awaiting id j c)
    (hrun' : Steps system.step (StartRuns id i j) c c') (hnew : c.threads.length ≤ i)
    (hi : c'.threads[i]? = some th) (hk : kindOf th = .turn .start id) :
    (Running th → ∃ c'', system.step c' (go i) = some c'') ∧ (Ended th → ∃ x, reply th = some x) := by
  obtain ⟨hc, ht⟩ : Conforming c ∧ Machine.Traced system c :=
    run_invariant hrun (conforming_fresh w) (by intro i th hi; simp at hi) fun c a c' _ h _ hs => h.step hs
  obtain ⟨hfirst, hfit⟩ := hwait.accepting (i := i) hc ht (List.getElem?_eq_none hnew)
  obtain ⟨hc', ht', haccept⟩ := hrun'.invariant
    (I := fun c => Conforming c ∧ Machine.Traced system c ∧ Accepting id i j c)
    (fun c a c' h hok hs => ⟨h.1.step hs, h.2.1.step hs, h.2.2.step h.1 h.2.1 hfit hok hs⟩) ⟨hc, ht, hfirst⟩
  have hrest := ((ht' i th hi).obeys (startMain_obeys hfit hk)).2
  constructor
  · rintro ⟨hst, op, k, hp⟩
    rw [hp] at hrest
    exact haccept.next hc' hi hk hst hp hrest.1.1
  · intro hend
    rcases turn_ended (hc' i th hi) hk hend with ⟨e, he⟩ | hreply
    · -- it has met with no mishap
      have hfail : th.prog = .fail e := by
        unfold fault at he
        split at he <;> cases he
        assumption
      rw [hfail] at hrest
      rcases hrest with hmet | ⟨x, hx⟩
      · rcases phase_mishaps.mp hmet with hb | ⟨ev, hev, hmishap⟩
        · cases hb
        · cases (haccept.lucky th hi hk ev hev).symm.trans hmishap
      · cases hx
    · exact hreply

/-- A client is told that the container was created as soon as the supervisor has sent its event, or
`n` calls later. -/
def createdAfter (n : Nat) : List SysAction :=
  createRequest "c" ++ goes 20 1 ++ [.call 1 (.run 7)] ++ goes (34 + n) 1 ++
    [.env (.deliver 0), .env (.deliver 0), go 0]

/-- The client starts it when the supervisor waits. -/
theorem start_accepted_sample : ∃ c c' : SysConf, Steps system.step (fun _ _ => True) (fresh daemonHost) c ∧
    (∃ th ∈ c.threads[0]?, reply th = some .unit) ∧ Awaiting "c" 1 c ∧
    Steps system.step (StartRuns "c" 3 1) c c' ∧ ∃ th ∈ c'.threads[3]?, ∃ x, reply th = some x := by
  have h : ∃ c ∈ runActions system.step (fun _ _ => True) (fresh daemonHost) (createdAfter 6),
      (∃ th ∈ c.threads[0]?, reply th = some .unit) ∧ Awaiting "c" 1 c ∧ c.threads.length ≤ 3 ∧
      ∃ c' ∈ runActions system.step (StartRuns "c" 3 1) c ([.invoke (.rpc (.start "c"))] ++ goes 6 3),
        ∃ th ∈ c'.threads[3]?, kindOf th = .turn .start "c" ∧ Ended th := by
    decide +kernel
  obtain ⟨c, hrun, hreply, hwait, hnew, c', hrun', th, hi, hk, hend⟩ := h
  have hrun := Steps.of_runActions hrun
  have hrun' := Steps.of_runActions hrun'
  exact ⟨c, c', hrun, hreply, hwait, hrun', th, hi, (start_accepted hrun hwait hrun' hnew hi hk).2 hend⟩

end Clonebox
