import Clonebox.Requests.Wait

/-! # What Wait is answered

The status that `waitpid` returns travels in the exit code of the event `stopped`. The event is
made with code 0 and keeps it if the child did not exit by itself. -/

namespace Clonebox
open Conc

variable {id : String} {c c' : SysConf} {a : SysAction}

/-- The status that `waitpid` has returned. -/
def waited : Sys.Ev → Option WaitStatus
  | ⟨.waitpid _, .ok st⟩ => some st
  | _ => none

/-- The event that was sent. -/
def sentEvent : Sys.Ev → Option Event
  | ⟨.writeEvent _ e, .ok ()⟩ => some e
  | _ => none

/-- An event that a run of `create` for the container may have sent if its child has ended as `o`
says. -/
def Truthful (id : String) (o : Option WaitStatus) (e : Event) : Prop :=
  e.id = id ∧ (e.state = .stopped → e = failureReport id ∨
    ∃ st, o = some st ∧ e = stoppedEvent (Stage.event id .created) st)

/-- What a run of `create` has heard and sent, where `o` is how its child has ended. -/
structure SentAs (id : String) (o : Option WaitStatus) (g : Phase) (tr : List Sys.Ev) : Prop where
  waited : ∀ ev ∈ tr, ∀ st ∈ waited ev, o = some st
  stage : ∀ pid st, g = .create (.waited pid st) → o = some st
  reaped : o = none ∨ ∃ st, g = .create st ∧ st.reaped = true
  sent : ∀ ev ∈ tr, ∀ e ∈ sentEvent ev, Truthful id o e

theorem Does.sends {configPath s : String} {sp : Option String} {g : Phase} {e : Event}
    (hd : Does (.create id configPath sp) g (.writeEvent s e)) : e.id = id ∧
      (e.state = .stopped → e = failureReport id ∨ ∃ pid st, g = .create (.waited pid st) ∧
        e = Clonebox.stoppedEvent (Stage.event id .created) st) := by
  cases hd with
  | quiet hq => contradiction
  | failEvent h => exact ⟨rfl, fun _ => .inl rfl⟩
  | creatingEvent => exact ⟨rfl, nofun⟩
  | createdEvent => exact ⟨rfl, nofun⟩
  | @stoppedEvent _ _ _ pid st =>
    refine ⟨?_, fun _ => .inr ⟨pid, st, rfl, rfl⟩⟩
    cases st <;> rfl

theorem sentEvent_some {ev : Sys.Ev} {e : Event} (h : sentEvent ev = some e) :
    ∃ sp, ev = ⟨.writeEvent sp e, .ok ()⟩ := by
  unfold sentEvent at h
  split at h <;> cases h
  exact ⟨_, rfl⟩

theorem waited_some {ev : Sys.Ev} {st : WaitStatus} (h : waited ev = some st) :
    ∃ pid, ev = ⟨.waitpid pid, .ok st⟩ := by
  unfold waited at h
  split at h <;> cases h
  exact ⟨_, rfl⟩

/-- How `waitpid` moves a supervisor on, and that nothing else moves it there. -/
theorem waited_next {configPath : String} {sp : Option String} {g : Phase} {op : Op} {r : op.Ret}
    (hd : Does (.create id configPath sp) g op) :
    (∃ pid st, (⟨op, r⟩ : Sys.Ev) = ⟨.waitpid pid, .ok st⟩ ∧ g = .create (.accepted pid) ∧
      (Kind.create id configPath sp).next g op r = .create (.waited pid st)) ∨
    (waited ⟨op, r⟩ = none ∧ ∀ pid st,
      (Kind.create id configPath sp).next g op r = .create (.waited pid st) →
        g = .create (.waited pid st)) := by
  cases hw : waited ⟨op, r⟩ with
  | some st =>
    obtain ⟨pid, e⟩ := waited_some hw
    cases e
    cases hd with
    | quiet hq => contradiction
    | waitpid => exact .inl ⟨pid, st, rfl, rfl, rfl⟩
  | none =>
    refine .inr ⟨rfl, fun pid st hg => ?_⟩
    rcases Stage.moved hd hg with e | ⟨g₀, e, hm⟩
    · exact e
    · cases hm with
      | waited => contradiction

/-- One more answer, of a call other than `waitpid`. -/
theorem SentAs.other {o : Option WaitStatus} {configPath : String} {sp : Option String}
    {g : Phase} {tr : List Sys.Ev} {op : Op} {r : op.Ret} (h : SentAs id o g tr)
    (hd : Does (.create id configPath sp) g op) (hw : Clonebox.waited ⟨op, r⟩ = none)
    (hstage : ∀ pid st, (Kind.create id configPath sp).next g op r = .create (.waited pid st) →
      g = .create (.waited pid st)) :
    SentAs id o ((Kind.create id configPath sp).next g op r) (tr ++ [⟨op, r⟩]) where
  waited := by
    intro ev hev st hst
    rcases List.mem_append.mp hev with hev | hev
    · exact h.waited ev hev st hst
    · cases List.mem_singleton.mp hev
      simp [hw] at hst
  stage := fun pid st hg => h.stage pid st (hstage pid st hg)
  reaped := by
    rcases h.reaped with ho | ⟨st, rfl, hst⟩
    · exact .inl ho
    · obtain ⟨_, _, st', _, hg, hst'⟩ : Reaped id (.create id configPath sp) _ :=
        AtStage.next (r := r) hd ⟨_, _, st, rfl, rfl, hst⟩ fun _ _ hm hg => reaped_move hm hg
      exact .inr ⟨st', hg, hst'⟩
  sent := by
    intro ev hev e he
    rcases List.mem_append.mp hev with hev | hev
    · exact h.sent ev hev e he
    · cases List.mem_singleton.mp hev
      obtain ⟨s, heq⟩ := sentEvent_some he
      cases heq
      obtain ⟨hid, hrep⟩ := hd.sends
      refine ⟨hid, fun hst => ?_⟩
      rcases hrep hst with e | ⟨pid, st, hg, e⟩
      · exact .inl e
      · exact .inr ⟨st, h.stage pid st hg, e⟩

/-- The child has ended. -/
theorem SentAs.end {o : Option WaitStatus} {tr : List Sys.Ev} {pid : Int} {st : WaitStatus}
    (h : SentAs id o (.create (.accepted pid)) tr) :
    SentAs id (some st) (.create (.waited pid st)) (tr ++ [⟨.waitpid pid, .ok st⟩]) := by
  have ho : o = none := by
    rcases h.reaped with ho | ⟨st', hg, hst'⟩
    · exact ho
    · cases hg
      contradiction
  refine ⟨fun ev hev st' hst' => ?_, fun pid' st' hg => ?_, .inr ⟨_, rfl, rfl⟩,
    fun ev hev e he => ?_⟩
  · rcases List.mem_append.mp hev with hev | hev
    · have hsome := h.waited ev hev st' hst'
      rw [ho] at hsome
      contradiction
    · cases List.mem_singleton.mp hev
      exact hst'
  · cases hg
    rfl
  · rcases List.mem_append.mp hev with hev | hev
    · obtain ⟨hid, hrep⟩ := h.sent ev hev e he
      refine ⟨hid, fun hstop => ?_⟩
      rcases hrep hstop with e | ⟨st', hst', -⟩
      · exact .inl e
      · rw [ho] at hst'
        contradiction
    · cases List.mem_singleton.mp hev
      contradiction

theorem sentAs {th : SysThread} (h : contract.Conforms th) {configPath : String}
    {sp : Option String} (hk : kindOf th = .create id configPath sp) :
    ∃ o, SentAs id o (phaseOf th) th.trace := by
  have hinit : SentAs id none (contract.init th.main) [] := by
    rw [show contract.init th.main = .create .start from congrArg Kind.init hk]
    refine ⟨fun ev hev => ?_, fun pid st hg => ?_, .inl rfl, fun ev hev => ?_⟩
    · contradiction
    · cases hg
    · contradiction
  have hstep (g : Phase) (tr : List Sys.Ev) (ev : Sys.Ev)
      (hmay : (contract.proto th.main).may g ev.1) (hex : ∃ o, SentAs id o g tr) :
      ∃ o, SentAs id o ((contract.proto th.main).next g ev.1 ev.2) (tr ++ [ev]) := by
    obtain ⟨o, hsent⟩ := hex
    obtain ⟨op, r⟩ := ev
    have hd : Does (kindOf th) g op := Kind.may_does hmay
    show ∃ o, SentAs id o ((kindOf th).next g op r) _
    rw [hk] at hd ⊢
    rcases waited_next (r := r) hd with ⟨pid, st, hev, rfl, hnext⟩ | ⟨hw, hstage⟩
    · rw [hnext, hev]
      exact ⟨some st, hsent.end⟩
    · exact ⟨o, hsent.other hd hw hstage⟩
  exact Proto.Follows.history (J := fun g tr => ∃ o, SentAs id o g tr) h.past ⟨none, hinit⟩ hstep

/-! ### The answer -/

/-- How the child of a supervisor has ended, as `waitpid` told it. -/
def endedAs (th : SysThread) : Option WaitStatus := th.trace.findSome? waited

/-- A run of `create` for the container that has an event socket. -/
def Kind.reportsOn (id : String) : Kind → Bool
  | .create i _ (some _) => i = id
  | _ => false

/-- The value is the exit code of a child that ended so, and 0 only for an exit with 0. -/
def Matches (v : Int) (st : WaitStatus) : Prop :=
  (∀ code, st = .exited code → v = code) ∧ (v = 0 → st = .exited 0)

/-- When the event `stopped` of a container's supervisor is processed, all who wait in the entry are
sent one value, and it matches how the child has ended. -/
def TellsEnd (id : String) (c : SysConf) (a : SysAction) : Prop :=
  ∀ x ∈ delivery c a, x.2.state = .stopped → ∀ th ∈ c.threads[x.1]?,
    (kindOf th).reportsOn id = true → ∀ st ∈ endedAs th, ∀ e ∈ c.world.entry id,
      ∀ c' ∈ system.step c a,
        ∃ v, (∀ rx ∈ e.exitWaiter, c'.world.daemon.exits rx = some v) ∧ Matches v st

def WaitStatus.isExited : WaitStatus → Bool
  | .exited _ => true
  | .signaled _ _ => false

/-- If somebody waits, the child has exited by itself, and what is processed is not the report of a
later failure. -/
def EndsByCode (id : String) (c : SysConf) (a : SysAction) : Prop :=
  ∀ x ∈ delivery c a, x.2.state = .stopped → ∀ th ∈ c.threads[x.1]?,
    (kindOf th).reportsOn id = true → ∀ st ∈ endedAs th, ∀ e ∈ c.world.entry id,
      e.exitWaiter ≠ [] →
        if x.2 = failureReport id then st = .exited (-1) ∨ st.isExited = false
        else st.isExited = true

instance : Decidable (EndsByCode id c a) :=
  inferInstanceAs (Decidable (∀ x ∈ delivery c a, x.2.state = .stopped → ∀ th ∈ c.threads[x.1]?,
    (kindOf th).reportsOn id = true → ∀ st ∈ endedAs th, ∀ e ∈ c.world.entry id,
      e.exitWaiter ≠ [] →
        if x.2 = failureReport id then st = .exited (-1) ∨ st.isExited = false
        else st.isExited = true))

theorem Kind.reportsOn_some {k : Kind} (h : k.reportsOn id = true) :
    ∃ configPath sp, k = .create id configPath (some sp) := by
  unfold reportsOn at h
  split at h
  · cases of_decide_eq_true h
    exact ⟨_, _, rfl⟩
  · contradiction

/-- What a supervisor has sent when its child has ended. -/
theorem sent_of_ended {th : SysThread} (h : contract.Conforms th) {configPath sp s : String}
    {e : Event} {st : WaitStatus} (hk : kindOf th = .create id configPath (some s))
    (hev : (⟨.writeEvent sp e, .ok ()⟩ : Sys.Ev) ∈ th.trace) (hst : endedAs th = some st) :
    e.id = id ∧ (e.state = .stopped →
      e = failureReport id ∨ e = stoppedEvent (Stage.event id .created) st) := by
  obtain ⟨o, hsent⟩ := sentAs h hk
  obtain ⟨ev, hmem, hw⟩ := List.exists_of_findSome?_eq_some hst
  have ho : o = some st := hsent.waited ev hmem st hw
  obtain ⟨hid, hrep⟩ := hsent.sent _ hev e rfl
  refine ⟨hid, fun hstop => ?_⟩
  rcases hrep hstop with e | ⟨st', hst', e⟩
  · exact .inl e
  · rw [ho] at hst'
    cases hst'
    exact .inr e

/-- The value that the waiters are sent matches exactly if the child exited by itself and the event
is not the report of a later failure. -/
theorem matches_iff {e : Event} {st : WaitStatus}
    (he : e = failureReport id ∨ e = stoppedEvent (Stage.event id .created) st) :
    Matches (e.exitCode.getD 0) st ↔
      if e = failureReport id then st = .exited (-1) ∨ st.isExited = false
      else st.isExited = true := by
  by_cases hf : e = failureReport id
  · rw [if_pos hf, hf]
    cases st with
    | exited code => simp [Matches, failureReport, WaitStatus.isExited, eq_comm]
    | signaled signal core => simp [Matches, failureReport, WaitStatus.isExited]
  · rw [if_neg hf, he.resolve_left hf]
    cases st with
    | exited code =>
      simp [Matches, stoppedEvent, Event.updateState, Event.updateExitCode, WaitStatus.isExited]
    | signaled signal core =>
      simp [Matches, stoppedEvent, Event.updateState, Stage.event, WaitStatus.isExited]

theorem exists_matches (st : WaitStatus) : ∃ v, Matches v st := by
  cases st with
  | exited code => exact ⟨code, by simp [Matches]⟩
  | signaled signal core => exact ⟨1, by simp [Matches]⟩

theorem tellsEnd_iff (hc : Conforming c) (hr : Registered c) (hs : system.step c a = some c') :
    TellsEnd id c a ↔ EndsByCode id c a := by
  refine forall₂_congr fun x hx => forall_congr' fun hstop => forall₂_congr fun th hi =>
    forall_congr' fun hk => forall₂_congr fun st hst => forall₂_congr fun e hen => ?_
  obtain ⟨k, ha, hq⟩ := delivery_some hx
  obtain ⟨th', sp, hi', hev⟩ := hr.sent x.1 x.2 (List.mem_of_getElem? hq)
  cases (show c.threads[x.1]? = some th from hi).symm.trans hi'
  obtain ⟨cp, s, hk'⟩ := Kind.reportsOn_some hk
  obtain ⟨hid, hrep⟩ := sent_of_ended (hc _ th hi') hk' hev hst
  have hexits (rx : Nat) (hrx : rx ∈ e.exitWaiter) :
      c'.world.daemon.exits rx = some (x.2.exitCode.getD 0) := by
    have hen' : c.world.daemon.entry x.2.id = some e := hid ▸ hen
    rw [delivery_step hx hs, Daemon.updateStatus_exits, if_pos ⟨hstop, e, hen', hrx⟩]
  rw [← matches_iff (hrep hstop)]
  constructor
  · intro h hne
    obtain ⟨v, hv, hm⟩ := h c' hs
    obtain ⟨rx, hrx⟩ := List.exists_mem_of_ne_nil _ hne
    have hval := (hv rx hrx).symm.trans (hexits rx hrx)
    cases hval
    exact hm
  · intro h c₁ hc₁
    cases hs.symm.trans hc₁
    by_cases hne : e.exitWaiter = []
    · obtain ⟨v, hv⟩ := exists_matches st
      refine ⟨v, fun rx hrx => ?_, hv⟩
      rw [hne] at hrx
      contradiction
    · exact ⟨_, hexits, h hne⟩

/-- From every reachable state on, the runs in which Wait is always told how the container ended are
those in which, if somebody waits, the child has exited by itself and the event processed is not the
report of a later failure. -/
theorem wait_told {id : String} {w : World} {c₁ c₂ : SysConf} (he : w.events = [])
    (hd : w.daemon = .new) (hrun : Steps system.step (fun _ _ => True) (fresh w) c₁) :
    Steps system.step (TellsEnd id) c₁ c₂ ↔ Steps system.step (EndsByCode id) c₁ c₂ := by
  have hfirst := run_invariant hrun (conforming_fresh w) (registered_fresh he hd)
    fun c a c' hc h _ hs => h.step hc hs
  exact Steps.congr (I := fun c => Conforming c ∧ Registered c)
    (fun c a c' h _ hs => ⟨h.1.step hs, h.2.step h.1 hs⟩)
    (fun c a c' h hs => tellsEnd_iff h.1 h.2 hs) hfirst

/-- The init of a container exits with 1 while a client waits. -/
theorem wait_told_sample : ∃ c₁ c₂ : SysConf,
    Steps system.step (fun _ _ => True) (fresh daemonHost) c₁ ∧
    Steps system.step (TellsEnd "c") c₁ c₂ ∧ c₂.world.daemon.exits 4 = some 1 := by
  have h : ∃ c₁ ∈ runActions system.step (fun _ _ => True) (fresh daemonHost)
      (runningContainer "c" ++ [.invoke (.rpc (.wait "c"))] ++ goes 2 4),
      ∃ c₂ ∈ runActions system.step (EndsByCode "c") c₁ containerEnds,
        c₂.world.daemon.exits 4 = some 1 := by
    decide +kernel
  obtain ⟨c₁, h₁, c₂, h₂, hex⟩ := h
  exact ⟨c₁, c₂, .of_runActions h₁, (wait_told rfl rfl (.of_runActions h₁)).mpr (.of_runActions h₂),
    hex⟩

/-- The init is killed by a signal while a client waits: the client is told 0. -/
theorem wait_told_zero : ∃ c : SysConf,
    Steps system.step (fun _ _ => True) (fresh daemonHost) c ∧
    (∃ th ∈ c.threads[1]?, endedAs th = some (.signaled 9 false)) ∧
    ∃ th ∈ c.threads[4]?, th.main = .rpc (.wait "c") ∧ reply th = some (.exit 0) := by
  have h : ∃ c ∈ runActions system.step (fun _ _ => True) (fresh daemonHost)
      (runningContainer "c" ++ [.invoke (.rpc (.wait "c"))] ++ goes 2 4 ++
        [.env (.exit 7 (.signaled 9 false))] ++ goes 7 1 ++ [.env (.deliver 0), go 4]),
      (∃ th ∈ c.threads[1]?, endedAs th = some (.signaled 9 false)) ∧
      ∃ th ∈ c.threads[4]?, th.main = .rpc (.wait "c") ∧ reply th = some (.exit 0) := by
    decide +kernel
  obtain ⟨c, hrun, hend, hreply⟩ := h
  exact ⟨c, .of_runActions hrun, hend, hreply⟩

end Clonebox
