import Clonebox.Requests.WaitReply

/-! # An entry that was left behind

A request to create a container leaves its entry in the daemon's map when it fails, and the next one
does not replace it: `or_insert` drops the new entry, and with it the only sender of the channel the
handler waits on. -/

namespace Clonebox
open Conc Prog

variable {id : String} {c c' : SysConf} {a : SysAction} {i : Nat} {th : SysThread} {tr : List Sys.Ev}
  {w : World}

/-- The container whose entry a call may take out of the map. -/
def Op.removes : Op → Option String
  | .removeStopped id => some id
  | _ => none

def stops : SysAction → Bool
  | .env .daemonStop => true
  | _ => false

/-- The daemon goes down, or a Delete takes the entry of a container out that is said to have
stopped. -/
def Forgets (id : String) (c : SysConf) (a : SysAction) : Prop :=
  stops a = true ∨ ∃ x ∈ system.event c a, x.2.1.removes = some id ∧
    ∃ e ∈ c.world.entry id, e.state = .stopped

instance : Decidable (Forgets id c a) :=
  inferInstanceAs (Decidable (_ ∨ ∃ x ∈ system.event c a, x.2.1.removes = some id ∧
    ∃ e ∈ c.world.entry id, e.state = .stopped))

/-- A Create that is answered Ok has waited on its own channel and heard from it. -/
theorem createHandler_ret {configPath : String} {r : Reply}
    (h : Reaches (Main.rpc (.create id configPath)).prog tr (.ret r)) : ∃ tx,
      tr = [⟨.shimPath, .ok ()⟩, ⟨.channel, tx⟩, ⟨.insertEntry id ⟨.creating, some tx, []⟩, ()⟩,
        ⟨.spawnShim id configPath getEventSocketPath, .ok ()⟩, ⟨.awaitCreated id tx, true⟩] := by
  obtain ⟨p, hp, he⟩ := h.of_mapError
  cases p with
  | call | fail | halt => cases he
  | ret x =>
    cases he
    rcases Reaches.of_call hp with ⟨-, he⟩ | ⟨found, tr₁, rfl, h₁⟩
    · cases he
    cases found with
    | error e => cases (Reaches.of_fail h₁).2
    | ok u =>
      rcases Reaches.of_call h₁ with ⟨-, he⟩ | ⟨tx, tr₂, rfl, h₂⟩
      · cases he
      rcases Reaches.of_call h₂ with ⟨-, he⟩ | ⟨u', tr₃, rfl, h₃⟩
      · cases he
      rcases Reaches.of_call h₃ with ⟨-, he⟩ | ⟨spawned, tr₄, rfl, h₄⟩
      · cases he
      cases spawned with
      | error e => cases (Reaches.of_fail h₄).2
      | ok u'' =>
        rcases Reaches.of_call h₄ with ⟨-, he⟩ | ⟨b, tr₅, rfl, h₅⟩
        · cases he
        cases b with
        | false => cases (Reaches.of_fail h₅).2
        | true =>
          obtain ⟨rfl, -⟩ := Reaches.of_ret h₅
          exact ⟨tx, rfl⟩

/-- There is an entry, and no request issued since there were `n` threads is registered in it or was
released. -/
structure Blocked (id : String) (n : Nat) (c : SysConf) : Prop where
  entry : (c.world.entry id).isSome = true
  waiter : ∀ e tx, c.world.entry id = some e → e.createdWaiter = some tx → tx < n
  released : ∀ tx, c.world.daemon.created tx = true → tx < n ∨
    ∃ th, c.threads[tx]? = some th ∧ ∀ configPath, kindOf th ≠ .handler id configPath

/-- What a step that does not forget makes of the entry. -/
theorem kept_entry (hc : Conforming c) (hs : system.step c a = some c') (hok : ¬Forgets id c a)
    (hentry : (c.world.entry id).isSome = true) : ∃ e e', c.world.entry id = some e ∧
      c'.world.entry id = some e' ∧ (e'.createdWaiter = none ∨ e'.createdWaiter = e.createdWaiter) := by
  obtain ⟨e, he⟩ := Option.isSome_iff_exists.mp hentry
  have hch : EntryChange id c a (c'.world.entry id) := step_entry hc hs
  generalize c'.world.entry id = x at hch
  cases hch with
  | same => exact ⟨e, e, he, he, .inr rfl⟩
  | inserted hev hi hk hg hn => cases he.symm.trans hn
  | turned hev hi hk hg hen | killed hev hi hk hg hen | waits hev hen => exact ⟨_, _, hen, rfl, .inr rfl⟩
  | removed hev hi hk hg hen hst => exact (hok (.inr ⟨_, hev, rfl, _, hen, hst⟩)).elim
  | delivered ha hev hid hen =>
    refine ⟨_, _, hen, rfl, ?_⟩
    unfold ContainerEntry.update
    dsimp only
    split
    · exact .inr rfl
    · exact .inl rfl
  | stopped ha =>
    subst ha
    exact (hok (.inl rfl)).elim
  | recovered ha hw => exact ⟨e, _, he, rfl, .inl hw.1⟩

theorem Blocked.step {n : Nat} (h : Blocked id n c) (hc : Conforming c) (hr : Registered c)
    (hok : ¬Forgets id c a) (hs : system.step c a = some c') : Blocked id n c' := by
  obtain ⟨e, e', he, he', hw⟩ := kept_entry hc hs hok h.entry
  refine ⟨by rw [he']; rfl, ?_, ?_⟩
  · intro e₁ tx he₁ htx
    cases he'.symm.trans he₁
    rcases hw with hnone | hsame
    · cases hnone.symm.trans htx
    · exact h.waiter e tx he (hsame.symm.trans htx)
  · intro tx hcreated
    rcases step_created hc hs hcreated with hold | ⟨k, t, ev, e₁, ha, hev, hst, hen, hwait⟩
    · rcases h.released tx hold with hlt | ⟨th, hi, hother⟩
      · exact .inl hlt
      · obtain ⟨th₁, hi₁, hm, -⟩ := step_kept hs hi
        exact .inr ⟨th₁, hi₁, fun cp hk => hother cp (by rw [kindOf, ← hm]; exact hk)⟩
    · -- the handler that is released is registered in the entry of its own container
      obtain ⟨th, cp, hi, hk⟩ := hr.waiter ev.id e₁ tx hen hwait
      by_cases hid : ev.id = id
      · subst hid
        exact .inl (h.waiter e₁ tx hen hwait)
      · obtain ⟨th₁, hi₁, hm, -⟩ := step_kept hs hi
        refine .inr ⟨th₁, hi₁, fun cp' hk' => hid ?_⟩
        rw [kindOf, hm] at hk'
        cases hk.symm.trans hk'
        rfl

theorem conforming_run (hrun : Runs (fresh w) c) : Conforming c :=
  hrun.invariant (fun _ _ _ hc _ hs => hc.step hs) (conforming_fresh w)

/-- Whoever was released is a handler that has issued a request. -/
theorem released_run (he : w.events = []) (hd : w.daemon = .new) (hrun : Runs (fresh w) c) :
    Registered c ∧ ∀ tx, c.world.daemon.created tx = true → ∃ th, c.threads[tx]? = some th := by
  refine (run_invariant (I := fun c => Registered c ∧ ∀ tx, c.world.daemon.created tx = true →
    ∃ th, c.threads[tx]? = some th) hrun (conforming_fresh w) ⟨registered_fresh he hd, fun tx h => ?_⟩
      fun c a c' hc h _ hs => ⟨h.1.step hc hs, fun tx hcreated => ?_⟩).2
  · change w.daemon.created tx = true at h
    rw [hd] at h
    cases h
  · have hth : ∃ th, c.threads[tx]? = some th := by
      rcases step_created hc hs hcreated with hold | ⟨k, t, ev, e, ha, hev, hst, hen, hwait⟩
      · exact h.2 tx hold
      · obtain ⟨th, cp, hi, -⟩ := h.1.waiter ev.id e tx hen hwait
        exact ⟨th, hi⟩
    obtain ⟨th, hi⟩ := hth
    obtain ⟨th', hi', -⟩ := step_kept hs hi
    exact ⟨th', hi'⟩

theorem blocked_run (he : w.events = []) (hd : w.daemon = .new) (hrun : Runs (fresh w) c)
    (hentry : (c.world.entry id).isSome = true)
    (hkeep : Steps system.step (fun c a => ¬Forgets id c a) c c') : Blocked id c.threads.length c' := by
  obtain ⟨hreg, hreleased⟩ := released_run he hd hrun
  have hlt {tx : Nat} {th : SysThread} (hi : c.threads[tx]? = some th) : tx < c.threads.length :=
    (List.getElem?_eq_some_iff.mp hi).1
  have hblocked : Blocked id c.threads.length c := by
    refine ⟨hentry, fun e tx hen hwait => ?_, fun tx hcreated => ?_⟩
    · obtain ⟨th, cp, hi, -⟩ := hreg.waiter id e tx hen hwait
      exact hlt hi
    · obtain ⟨th, hi⟩ := hreleased tx hcreated
      exact .inl (hlt hi)
  exact (run_invariant (I := fun c₁ => Registered c₁ ∧ Blocked id c.threads.length c₁) hkeep
    (conforming_run hrun) ⟨hreg, hblocked⟩ fun c₁ a c₂ hc h hok hs =>
      ⟨h.1.step hc hs, h.2.step hc h.1 hok hs⟩).2.2

theorem awaited_created {tx : Nat} (hev : system.event c a = some (i, ⟨.awaitCreated id tx, true⟩)) :
    c.world.daemon.created tx = true := by
  obtain ⟨th, k, ch, w₁, rfl, -, -, -, hx, -⟩ := Machine.event_some hev
  cases ch with
  | err e | part e => cases hx
  | run n =>
    obtain ⟨b, hb, hpair⟩ := Option.map_eq_some_iff.mp hx
    obtain rfl : b = true := congrArg Prod.fst hpair
    unfold World.awaitCreated at hb
    split at hb
    · assumption
    · split at hb <;> cases hb

/-- As long as an entry for a container is not taken out, no request to create the container that
was issued after it was made is answered Ok. -/
theorem stale_entry {configPath : String} (he : w.events = []) (hd : w.daemon = .new)
    (hrun : Runs (fresh w) c) (hentry : (c.world.entry id).isSome = true)
    (hkeep : Steps system.step (fun c a => ¬Forgets id c a) c c') (hnew : c.threads.length ≤ i)
    (hi : c'.threads[i]? = some th) (hm : th.main = .rpc (.create id configPath)) :
    (c'.world.entry id).isSome = true ∧ reply th = none := by
  have hblocked := blocked_run he hd hrun hentry hkeep
  refine ⟨hblocked.entry, Option.eq_none_iff_forall_not_mem.mpr fun r hr => ?_⟩
  have hrun' : Runs (fresh w) c' := hrun.trans (hkeep.mono fun _ _ _ => trivial)
  have htraced : Reaches th.main.prog th.trace th.prog := traced_fresh hrun' i th hi
  rw [hm, reply_some hr] at htraced
  obtain ⟨tx, htr⟩ := createHandler_ret htraced
  have hfork : ∀ ev ∈ th.trace, ∀ r, system.fork ev.1 r = none := by
    rw [htr]
    simp [system, forkAnswer]
  obtain rfl : tx = i := own_channel hrun' hi (by rw [htr]; simp) hfork
  have hawait : (⟨.awaitCreated id tx, true⟩ : Sys.Ev) ∈ th.trace := by rw [htr]; simp
  obtain ⟨c₁, a, c₂, hbefore, -, hev, hs, hrest⟩ :=
    (Machine.answers_of_steps hrun' List.getElem?_nil hi hfork).given hawait
  -- the channel was sent on in the run, and by now still is
  have hcreated : c'.world.daemon.created tx = true :=
    (run_invariant (I := fun c => c.world.daemon.created tx = true)
      ((Steps.tail .refl trivial hs).trans hrest) (conforming_run hbefore) (awaited_created hev)
      fun _ _ _ hc h _ hs => created_step hc hs h).2
  rcases hblocked.released tx hcreated with hlt | ⟨th', hi', hother⟩
  · exact absurd hlt (Nat.not_lt.mpr hnew)
  · cases hi.symm.trans hi'
    exact hother configPath (by rw [kindOf, hm]; rfl)

/-- A request whose shim is not spawned. -/
def spawnFails : List SysAction :=
  [.invoke (.rpc (.create "c" "cfg"))] ++ goes 3 0 ++ [.call 0 (.err .enoent)]

/-- The next request, and all that its shim does up to the child's end. -/
def createAgain : List SysAction :=
  [.invoke (.rpc (.create "c" "cfg"))] ++ goes 5 1 ++ goes 20 2 ++ [.call 2 (.run 7)] ++ goes 40 2

/-- The first shim cannot be spawned, and the entry stays; the shim of the second request creates
the container, and the request fails all the same. -/
theorem stale_entry_sample : ∃ c c' : SysConf, Runs (fresh daemonHost) c ∧
    Steps system.step (fun c a => ¬Forgets "c" c a) c c' ∧ (c'.world.entry "c").isSome = true ∧
    ∃ th ∈ c'.threads[1]?, reply th = none ∧ (fault th).isSome = true ∧
      ((c'.world.bundle "c").bind (·.file)).map (·.status) = some .created := by
  have h : ∃ c ∈ runActions system.step (fun _ _ => True) (fresh daemonHost) spawnFails,
      (c.world.entry "c").isSome = true ∧ c.threads.length ≤ 1 ∧
      ∃ c' ∈ runActions system.step (fun c a => ¬Forgets "c" c a) c createAgain,
        ∃ th ∈ c'.threads[1]?, th.main = .rpc (.create "c" "cfg") ∧ (fault th).isSome = true ∧
          ((c'.world.bundle "c").bind (·.file)).map (·.status) = some .created := by
    decide +kernel
  obtain ⟨c, hrun, hentry, hnew, c', hkeep, th, hi, hm, hfault, hfile⟩ := h
  obtain ⟨hstays, hnone⟩ :=
    stale_entry rfl rfl (.of_runActions hrun) hentry (.of_runActions hkeep) hnew hi hm
  exact ⟨c, c', .of_runActions hrun, .of_runActions hkeep, hstays, th, hi, hnone, hfault, hfile⟩

end Clonebox
