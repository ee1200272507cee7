import Clonebox.Lifecycle.Supervisor

/-! # One creation for each id

`create` looks for the bundle, loads the configuration and then makes the bundle with a call that
also succeeds when it is there. The check is a guard as long as no other run of `create` is between
the two. -/

namespace Clonebox
open Conc

variable {id : String} {c c' : SysConf} {a : SysAction}

/-- The stages from the bundle on, in the process that made it. -/
def Stage.owns : Stage → Bool
  | .start | .refused | .passed | .unmade | .child => false
  | _ => true

def Stage.isPassed : Stage → Bool
  | .passed => true
  | _ => false

def Stage.isUnmade : Stage → Bool
  | .unmade => true
  | _ => false

/-- The run of `create` is past the check and has not made the bundle yet. -/
def InGap (id : String) (th : SysThread) : Prop :=
  Running th ∧ AtStage id Stage.isPassed (kindOf th) (phaseOf th)

instance {th : SysThread} : Decidable (InGap id th) := inferInstanceAs (Decidable (_ ∧ _))

/-! ### Conditions on a step -/

/-- The check of `create`. -/
def checks (id : String) : Sys.Ev → Bool
  | ⟨.exists p, _⟩ => p = .bundle id
  | _ => false

/-- The configuration loads, and the bundle can be made. -/
def proceeds : Sys.Ev → Bool
  | ⟨.read _, r⟩ => loads r
  | ⟨.createDirAll _, r⟩ => r.isOk
  | _ => true

/-- No run of `create` finds no bundle while another is in the gap, and none fails there. -/
structure Exclusive (id : String) (c : SysConf) (a : SysAction) : Prop where
  undeleted : Undeleted id c a
  check : ∀ e ∈ system.event c a, checks id e.2 = true → c.world.bundle id = none →
    ∀ th ∈ c.threads, ¬InGap id th
  proceed : ∀ e ∈ system.event c a, ∀ th ∈ c.threads[e.1]?, InGap id th → proceeds e.2 = true

instance : Decidable (Exclusive id c a) :=
  decidable_of_iff (Undeleted id c a ∧
    (∀ e ∈ system.event c a, checks id e.2 = true → c.world.bundle id = none →
      ∀ th ∈ c.threads, ¬InGap id th) ∧
    ∀ e ∈ system.event c a, ∀ th ∈ c.threads[e.1]?, InGap id th → proceeds e.2 = true)
    ⟨fun h => ⟨h.1, h.2.1, h.2.2⟩, fun h => ⟨h.1, h.2, h.3⟩⟩

/-! ### The invariant -/

/-- The run of `create` may go on to use the bundle as its own. -/
def Claims (id : String) (th : SysThread) : Prop :=
  AtStage id Stage.owns (kindOf th) (phaseOf th) ∨ InGap id th

structure Guarded (id : String) (c : SysConf) : Prop where
  one : ∀ (i j : Nat) th th', c.threads[i]? = some th → c.threads[j]? = some th' →
    Claims id th → Claims id th' → i = j
  there : ∀ (i : Nat) th, c.threads[i]? = some th → AtStage id Stage.owns (kindOf th) (phaseOf th) →
    (c.world.bundle id).isSome
  loaded : ∀ (i : Nat) th, c.threads[i]? = some th →
    ¬AtStage id Stage.isUnmade (kindOf th) (phaseOf th)

theorem guarded_fresh {w : World} : Guarded id (fresh w) where
  one := by intro i j th th' hi; simp at hi
  there := by intro i th hi; simp at hi
  loaded := by intro i th hi; simp at hi

/-- A run of `create` claims the bundle from the check on that does not find it. -/
theorem Claims.entry {i : Nat} {th' : SysThread} (hc : Conforming c)
    (hs : system.step c a = some c') (hi : c'.threads[i]? = some th') (h : Claims id th') :
    (∃ th, c.threads[i]? = some th ∧ Claims id th) ∨
      ∃ ev, system.event c a = some (i, ev) ∧ checks id ev = true ∧ c.world.bundle id = none := by
  cases step_change hc hs hi with
  | @kept th hi₀ hm hp hprog hst hph hr =>
    refine .inl ⟨th, hi₀, ?_⟩
    unfold Claims InGap at h ⊢
    rw [kindOf, hm, hph] at h
    exact h.imp_right fun hgap => ⟨hr hgap.1, hgap.2⟩
  | @answered th op k r ch ha hi₀ hst hop hx hd he hph =>
    have hkind : kindOf th' = kindOf th := by rw [he]; rfl
    have hrun : Running th := ⟨hst, op, k, hop⟩
    have hev : system.event c a = some (i, ⟨op, r⟩) := by
      rw [ha]
      exact event_call hi₀ hst hop hx
    rcases h with h | ⟨-, h⟩
    · rw [hkind, hph] at h
      rcases AtStage.entry hd h with h | ⟨cp, sp, st, st', hk, hg, -, hm, hst'⟩
      · exact .inl ⟨th, hi₀, .inl h⟩
      · refine .inl ⟨th, hi₀, ?_⟩
        cases hm <;> first
          | contradiction
          | exact .inr ⟨hrun, cp, sp, _, hk, hg, rfl⟩
          | exact .inl ⟨cp, sp, _, hk, hg, rfl⟩
    · rw [hkind, hph] at h
      rcases AtStage.entry hd h with h | ⟨cp, sp, st, st', hk, hg, -, hm, hst'⟩
      · exact .inl ⟨th, hi₀, .inr ⟨hrun, h⟩⟩
      · cases hm with
        | passed =>
          refine .inr ⟨_, hev, by simp [checks], ?_⟩
          obtain ⟨hfalse, -⟩ := World.exec_exists hx
          exact Option.isSome_eq_false_iff.mp hfalse.symm |> Option.isNone_iff_eq_none.mp
        | _ => contradiction
  | @started p m hi₀ he hph =>
    have hkind : kindOf th' = m.kind := by rw [he]; rfl
    unfold Claims InGap at h
    rw [hkind, hph] at h
    rcases h with h | ⟨-, h⟩
    · exact (AtStage.not_init rfl m h).elim
    · exact (AtStage.not_init rfl m h).elim
  | forked ht hi₀ hg hm hph =>
    unfold Claims InGap at h
    rw [hph] at h
    rcases h with h | ⟨-, h⟩
    · exact (AtStage.not_child rfl _ _ rfl h).elim
    · exact (AtStage.not_child rfl _ _ rfl h).elim
  | copied ht hi₀ hm hg hph =>
    unfold Claims InGap at h
    rw [hph] at h
    rcases h with h | ⟨-, h⟩
    · exact (AtStage.not_child rfl _ _ rfl h).elim
    · exact (AtStage.not_child rfl _ _ rfl h).elim

/-- The check that finds no bundle is made when nobody claims it. -/
theorem Guarded.unclaimed (h : Guarded id c) (hok : Exclusive id c a) {e : Nat × Sys.Ev}
    (hev : system.event c a = some e) (hcheck : checks id e.2 = true)
    (hnone : c.world.bundle id = none) {i : Nat} {th : SysThread} (hi : c.threads[i]? = some th) :
    ¬Claims id th := by
  intro hclaim
  rcases hclaim with howns | hgap
  · have hthere := h.there i th hi howns
    simp [hnone] at hthere
  · exact hok.check e hev hcheck hnone th (List.mem_of_getElem? hi) hgap

theorem Guarded.one_step (h : Guarded id c) (hc : Conforming c) (hok : Exclusive id c a)
    (hs : system.step c a = some c') (i j : Nat) (th th' : SysThread)
    (hi : c'.threads[i]? = some th) (hj : c'.threads[j]? = some th') (hth : Claims id th)
    (hth' : Claims id th') : i = j := by
  rcases hth.entry hc hs hi with ⟨th₀, hi₀, hold⟩ | ⟨ev, hev, hcheck, hnone⟩
  · rcases hth'.entry hc hs hj with ⟨th₁, hj₀, hold'⟩ | ⟨ev, hev, hcheck, hnone⟩
    · exact h.one i j th₀ th₁ hi₀ hj₀ hold hold'
    · exact (h.unclaimed hok hev hcheck hnone hi₀ hold).elim
  · rcases hth'.entry hc hs hj with ⟨th₁, hj₀, hold'⟩ | ⟨ev', hev', -, -⟩
    · exact (h.unclaimed hok hev hcheck hnone hj₀ hold').elim
    · cases hev.symm.trans hev'
      rfl

theorem Guarded.there_step (h : Guarded id c) (hc : Conforming c) (hok : Exclusive id c a)
    (hs : system.step c a = some c') (i : Nat) (th' : SysThread)
    (hi : c'.threads[i]? = some th') (howns : AtStage id Stage.owns (kindOf th') (phaseOf th')) :
    (c'.world.bundle id).isSome := by
  rcases step_enters (AtStage.not_init rfl) (AtStage.not_child rfl) hc hs hi howns with
    ⟨th, hi₀, howns⟩ | ⟨th, op, r, ch, hi₀, -, hx, hd, howns⟩
  · exact hok.undeleted.stays hs (h.there i th hi₀ howns)
  · rcases AtStage.entry hd howns with howns | ⟨cp, sp, st, st', hk, hg, -, hm, hst⟩
    · exact hok.undeleted.stays hs (h.there i th hi₀ howns)
    · have hmade (ho : st.owns = true) : (c'.world.bundle id).isSome :=
        hok.undeleted.stays hs (h.there i th hi₀ ⟨cp, sp, st, hk, hg, ho⟩)
      cases hm with
      | made =>
        rcases World.exec_createDirAll hx with ⟨-, hb⟩ | ⟨e, he, -⟩
        · exact hb
        · cases he
      | refused | passed | unloaded | unmade | child => contradiction
      | _ => exact hmade rfl

theorem Guarded.loaded_step (h : Guarded id c) (hc : Conforming c) (hok : Exclusive id c a)
    (hs : system.step c a = some c') (i : Nat) (th' : SysThread)
    (hi : c'.threads[i]? = some th') : ¬AtStage id Stage.isUnmade (kindOf th') (phaseOf th') := by
  intro hun
  cases step_change hc hs hi with
  | @kept th hi₀ hm hp hprog hst hph hr =>
    rw [kindOf, hm, hph] at hun
    exact h.loaded i th hi₀ hun
  | @answered th op k r ch ha hi₀ hst hop hx hd he hph =>
    have hkind : kindOf th' = kindOf th := by rw [he]; rfl
    have hev : system.event c a = some (i, ⟨op, r⟩) := by
      rw [ha]
      exact event_call hi₀ hst hop hx
    rw [hkind, hph] at hun
    rcases AtStage.entry hd hun with hun | ⟨cp, sp, st, st', hk, hg, -, hm, hst'⟩
    · exact h.loaded i th hi₀ hun
    · have hgap (hp : st = .passed) : InGap id th :=
        ⟨⟨hst, op, k, hop⟩, cp, sp, .passed, hk, hp ▸ hg, rfl⟩
      cases hm with
      | unloaded hl => simpa [proceeds, hl] using hok.proceed _ hev th hi₀ (hgap rfl)
      | unmade => simpa [proceeds, Except.isOk, Except.toBool] using
          hok.proceed _ hev th hi₀ (hgap rfl)
      | _ => contradiction
  | @started p m hi₀ he hph =>
    have hkind : kindOf th' = m.kind := by rw [he]; rfl
    rw [hkind, hph] at hun
    exact AtStage.not_init rfl m hun
  | forked ht hi₀ hg hm hph =>
    rw [hph] at hun
    exact AtStage.not_child rfl _ _ rfl hun
  | copied ht hi₀ hm hg hph =>
    rw [hph] at hun
    exact AtStage.not_child rfl _ _ rfl hun

theorem Guarded.step (h : Guarded id c) (hc : Conforming c) (hok : Exclusive id c a)
    (hs : system.step c a = some c') : Guarded id c' where
  one := h.one_step hc hok hs
  there := h.there_step hc hok hs
  loaded := h.loaded_step hc hok hs

/-! ### Every run but one -/

/-- The call leaves the bundle and the cgroup of the container as they are, and clones no child. -/
def Harmless (id : String) (op : Op) : Prop :=
  (∀ (w w' : World) t ch (r : op.Ret), w.exec t op ch = some (r, w') →
    w'.bundle id = w.bundle id ∧ w'.cgroup id = w.cgroup id) ∧ ∀ args, op ≠ .clone3 args

theorem harmless {op : Op} (hb : op.bundleOf ≠ some id) (hc : op.cgroupOf ≠ some id)
    (hclone : op.onProcs = false) : Harmless id op := by
  refine ⟨fun w w' t ch r hx => ⟨World.exec_bundle hx hb, World.exec_cgroup hx hc⟩, ?_⟩
  intro args e
  subst e
  contradiction

theorem harmless_quiet {op : Op} (h : op.quiet = true) : Harmless id op := by
  refine harmless (fun e => ?_) (fun e => ?_) ?_
  · simp [Op.not_quiet_of_bundleOf e] at h
  · simp [Op.not_quiet_of_cgroupOf e] at h
  · cases e : op.onProcs with
    | false => rfl
    | true => simp [Op.not_quiet_of_onProcs e] at h

/-- The stages after the attempt to make the bundle. -/
def Stage.acted : Stage → Bool
  | .start | .refused | .passed => false
  | _ => true

theorem acted_move {g g' : Stage} {op : Op} {r : op.Ret} (hm : Stage.Move id g op r g')
    (hg : g.acted = true) : g'.acted = true := by
  cases hm <;> first | rfl | contradiction

/-- Before it makes the bundle, `create` makes harmless calls only. -/
theorem Does.harmless_or_acted {configPath : String} {sp : Option String} {g : Stage} {op : Op}
    (hd : Does (.create id configPath sp) (.create g) op) (r : op.Ret) :
    Harmless id op ∨ AtStage id Stage.acted (.create id configPath sp)
      ((Kind.create id configPath sp).next (.create g) op r) := by
  have hnext (hg : g.acted = true) : AtStage id Stage.acted (.create id configPath sp)
      ((Kind.create id configPath sp).next (.create g) op r) :=
    AtStage.next hd ⟨_, _, g, rfl, rfl, hg⟩ fun _ _ hm hg => acted_move hm hg
  cases hd with
  | quiet hq => exact .inl (harmless_quiet hq)
  | failConnect h => exact .inl (harmless (by simp [Op.bundleOf]) (by simp [Op.cgroupOf]) rfl)
  | failEvent h => exact .inl (harmless (by simp [Op.bundleOf]) (by simp [Op.cgroupOf]) rfl)
  | probe => exact .inl (harmless (by simp [Op.bundleOf]) (by simp [Op.cgroupOf]) rfl)
  | load => exact .inl (harmless (by simp [Op.bundleOf]) (by simp [Op.cgroupOf]) rfl)
  | makeBundle => cases r <;> exact .inr ⟨_, _, _, rfl, rfl, rfl⟩
  | close h =>
    refine .inr (hnext ?_)
    cases g <;> first | rfl | contradiction
  | _ => exact .inr (hnext rfl)

theorem harmless_trace {th : SysThread} (h : contract.Conforms th) {configPath : String}
    {sp : Option String} (hk : kindOf th = .create id configPath sp)
    (hg : ¬AtStage id Stage.acted (kindOf th) (phaseOf th)) {ev : Sys.Ev} (hmem : ev ∈ th.trace) :
    Harmless id ev.1 := by
  by_contra hn
  refine hg (h.past.after (I := fun g => AtStage id Stage.acted (kindOf th) g) hmem ?_ ?_)
  · intro g hmay
    change (kindOf th).may g ev.1 at hmay
    show AtStage id Stage.acted (kindOf th) ((kindOf th).next g ev.1 ev.2)
    rw [hk] at hmay ⊢
    cases g with
    | create st => exact (Does.harmless_or_acted (Kind.may_does hmay) ev.2).resolve_left hn
    | turn | kill | delete | exec | handler | observer => exact hmay.elim
  · intro g op r hmay hg
    exact AtStage.next (Kind.may_does hmay) hg fun _ _ hm hg => acted_move hm hg

/-- A run of `create` for the container, the child it clones apart. -/
def Creates (id : String) (th : SysThread) : Prop :=
  (∃ configPath sp, kindOf th = .create id configPath sp) ∧ phaseOf th ≠ .create .child

/-- A run that does not claim the bundle has left everything as it was, and ends in a refusal. -/
theorem Guarded.idle (h : Guarded id c) (hc : Conforming c) {i : Nat} {th : SysThread}
    (hi : c.threads[i]? = some th) (hcreate : Creates id th) (hclaim : ¬Claims id th) :
    (∀ ev ∈ th.trace, Harmless id ev.1) ∧ (Ended th → Refusal id th) := by
  obtain ⟨⟨cp, sp, hk⟩, hchild⟩ := hcreate
  have hconf : contract.Conforms th := hc i th hi
  obtain ⟨st, hg⟩ := create_phase hconf hk
  have hearly : st = .start ∨ st = .refused ∨ st = .passed := by
    have howns : st.owns = false := by
      cases ho : st.owns with
      | false => rfl
      | true => exact (hclaim (.inl ⟨cp, sp, st, hk, hg, ho⟩)).elim
    cases st with
    | start => exact .inl rfl
    | refused => exact .inr (.inl rfl)
    | passed => exact .inr (.inr rfl)
    | unmade => exact (h.loaded i th hi ⟨cp, sp, _, hk, hg, rfl⟩).elim
    | child => exact (hchild hg).elim
    | _ => contradiction
  refine ⟨fun ev hev => harmless_trace hconf hk ?_ hev, fun hend => ?_⟩
  · intro hacted
    obtain ⟨_, _, st', -, hg', hst'⟩ := hacted
    cases hg.symm.trans hg'
    rcases hearly with rfl | rfl | rfl <;> contradiction
  · rcases hearly with rfl | rfl | rfl
    · rcases hend.stage hconf hk hg with ⟨pid, e⟩ | hfail <;> contradiction
    · exact hend.refusal hconf hk hg
    · rcases hend.stage hconf hk hg with ⟨pid, e⟩ | hfail <;> contradiction

/-- Of all runs of `create` for one id, however they are interleaved, every one but one makes
harmless calls only and returns `ContainerAlreadyExists`, provided none finds no bundle while
another is in the gap, none fails there, and nobody removes the bundle. -/
theorem one_creation {id : String} {w : World} {c : SysConf}
    (hrun : Steps system.step (Exclusive id) (fresh w) c) :
    ∃ owner : Nat, ∀ (i : Nat) (th : SysThread), c.threads[i]? = some th → Creates id th →
      i ≠ owner → (∀ ev ∈ th.trace, Harmless id ev.1) ∧ (Ended th → Refusal id th) := by
  obtain ⟨hc, hg⟩ := run_invariant hrun (conforming_fresh w) guarded_fresh
    fun c a c' hc h hok hs => h.step hc hok hs
  by_cases hex : ∃ (o : Nat) (th : SysThread), c.threads[o]? = some th ∧ Claims id th
  · obtain ⟨o, tho, ho, hclaim⟩ := hex
    refine ⟨o, fun i th hi hcreate hne => hg.idle hc hi hcreate fun hcl => ?_⟩
    exact hne (hg.one i o th tho hi ho hcl hclaim)
  · refine ⟨0, fun i th hi hcreate _ => hg.idle hc hi hcreate fun hcl => ?_⟩
    exact hex ⟨i, th, hi, hcl⟩

/-- Two runs one after the other: the second is refused. -/
theorem one_creation_sample : ∃ c : SysConf,
    Steps system.step (Exclusive "c") (fresh sampleHost) c ∧ (∃ th ∈ c.threads[2]?, Ended th) ∧
    ∃ owner : Nat, ∀ (i : Nat) (th : SysThread), c.threads[i]? = some th → Creates "c" th →
      i ≠ owner → (∀ ev ∈ th.trace, Harmless "c" ev.1) ∧ (Ended th → Refusal "c" th) := by
  have h : ∃ c ∈ runActions system.step (Exclusive "c") (fresh sampleHost)
      (supervise "c" ++ [.invoke (.create "c" "cfg" none)] ++ goes 1 2),
      ∃ th ∈ c.threads[2]?, Ended th := by
    decide +kernel
  obtain ⟨c, hrun, hth⟩ := h
  exact ⟨c, .of_runActions hrun, hth, one_creation (.of_runActions hrun)⟩

/-- The thread has written `state.json` and cloned a child. -/
def cloned (id : String) (th : SysThread) : Bool :=
  th.trace.any (fun ev => (wrote id ev).isSome) &&
    th.trace.any fun ev => match ev with
      | ⟨.clone3 _, .ok pid⟩ => pid ≠ 0
      | _ => false

/-- Two requests to the daemon: both shims pass the check, and both go on. -/
theorem two_creations : ∃ c : SysConf,
    Steps system.step (Undeleted "c") (fresh daemonHost) c ∧
    (∃ th ∈ c.threads[1]?, cloned "c" th = true) ∧ ∃ th ∈ c.threads[3]?, cloned "c" th = true := by
  have h : ∃ c ∈ runActions system.step (Undeleted "c") (fresh daemonHost)
      ([.invoke (.rpc (.create "c" "cfg"))] ++ goes 4 0 ++ [.invoke (.rpc (.create "c" "cfg"))] ++
        goes 4 2 ++ [go 1, go 3] ++ goes 19 1 ++ [.call 1 (.run 7)] ++ goes 19 3 ++
        [.call 3 (.run 8)]),
      (∃ th ∈ c.threads[1]?, cloned "c" th = true) ∧
        ∃ th ∈ c.threads[3]?, cloned "c" th = true := by
    decide +kernel
  obtain ⟨c, hrun, hths⟩ := h
  exact ⟨c, .of_runActions hrun, hths⟩

end Clonebox
