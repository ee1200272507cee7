import Clonebox.Requests.Map
import Clonebox.Lifecycle.Supervisor

/-! # What the reply to Create says

The handler waits on a channel that carries no outcome: every event of the container other than
`creating` sends on it, the report of a shim whose `create` has failed included. -/

namespace Clonebox
open Conc

variable {id : String} {c c' : SysConf} {a : SysAction}

/-- The event `created` was sent. -/
def announces (id : String) : Sys.Ev → Bool
  | ⟨.writeEvent _ e, .ok ()⟩ => e = Stage.event id .created
  | _ => false

/-- Thread `t` is the shim that request `tx` has spawned. -/
def OwnShim (id : String) (tx t : Nat) (c : SysConf) : Prop :=
  ∃ th ∈ c.threads[t]?, th.parent = some tx ∧ ∃ configPath sp, th.main = .shim id configPath sp

/-- The shim of request `tx` has got as far as the event `created`. -/
def Announced (id : String) (tx : Nat) (c : SysConf) : Prop :=
  ∃ t, OwnShim id tx t c ∧ ∃ th ∈ c.threads[t]?, ∃ ev ∈ th.trace, announces id ev = true

def Main.shimOf (id : String) : Main → Bool
  | .shim i _ _ => i = id
  | _ => false

theorem Main.shimOf_iff {m : Main} :
    m.shimOf id = true ↔ ∃ configPath sp, m = .shim id configPath sp := by
  cases m with
  | shim i configPath sp => simp [shimOf, eq_comm]
  | create | turn | kill | delete | state | exec | rpc => simp [shimOf]

instance {tx t : Nat} : Decidable (OwnShim id tx t c) :=
  decidable_of_iff (∃ th ∈ c.threads[t]?, th.parent = some tx ∧ th.main.shimOf id = true) <| by
    simp only [OwnShim, Main.shimOf_iff]

/-- `Announced`, looked for among the threads there are. -/
theorem announced_iff {tx : Nat} : Announced id tx c ↔ ∃ t ∈ List.range c.threads.length,
    OwnShim id tx t c ∧ ∃ th ∈ c.threads[t]?, ∃ ev ∈ th.trace, announces id ev = true := by
  refine exists_congr fun t => ⟨fun h => ⟨List.mem_range.mpr ?_, h⟩, And.right⟩
  obtain ⟨th, hi, -⟩ := h.2
  exact (List.getElem?_eq_some_iff.mp hi).1

instance {tx : Nat} : Decidable (Announced id tx c) := decidable_of_iff _ announced_iff.symm

/-- An event that releases the handler is one that the shim of its request has sent, and not the
report of a failure, or that shim has sent `created` before. -/
def ReleasesAnnounced (id : String) (c : SysConf) (a : SysAction) : Prop :=
  ∀ x ∈ delivery c a, x.2.id = id → x.2.state ≠ .creating → ∀ e ∈ c.world.entry id,
    ∀ tx ∈ e.createdWaiter,
      OwnShim id tx x.1 c ∧ x.2 ≠ failureReport id ∨ Announced id tx c

instance : Decidable (ReleasesAnnounced id c a) :=
  inferInstanceAs (Decidable (∀ x ∈ delivery c a, x.2.id = id → x.2.state ≠ .creating →
    ∀ e ∈ c.world.entry id, ∀ tx ∈ e.createdWaiter,
      OwnShim id tx x.1 c ∧ x.2 ≠ failureReport id ∨ Announced id tx c))

/-! ### The stages from `created` on -/

/-- The stages from the event `created` on, if there is an event socket. -/
def Stage.told : Stage → Bool
  | .announced _ | .reread _ _ => true
  | g => g.past

theorem told_move {g g' : Stage} {op : Op} {r : op.Ret} (hm : Stage.Move id g op r g')
    (hg : g.told = true) : g'.told = true := by
  cases hm <;> first | rfl | contradiction

/-- An event other than the first one and the report of a failure is sent from such a stage. -/
theorem told_of_sent {configPath sp s : String} {g : Phase} {e : Event}
    (hd : Does (.create id configPath (some s)) g (.writeEvent sp e)) (hst : e.state ≠ .creating)
    (he : e ≠ failureReport id) : AtStage id Stage.told (.create id configPath (some s))
      ((Kind.create id configPath (some s)).next g (.writeEvent sp e) (.ok ())) := by
  cases hd with
  | quiet hq => contradiction
  | failEvent h => exact (he rfl).elim
  | creatingEvent => exact (hst rfl).elim
  | createdEvent => exact ⟨_, _, _, rfl, rfl, rfl⟩
  | stoppedEvent => exact ⟨_, _, _, rfl, rfl, rfl⟩

/-- With an event socket these stages are entered by sending `created`. -/
theorem told_entry {configPath s : String} {g : Phase} {op : Op} {r : op.Ret}
    (hd : Does (.create id configPath (some s)) g op)
    (h : AtStage id Stage.told (.create id configPath (some s))
      ((Kind.create id configPath (some s)).next g op r)) :
    AtStage id Stage.told (.create id configPath (some s)) g ∨ announces id ⟨op, r⟩ = true := by
  rcases AtStage.entry hd h with h | ⟨cp, sp, st, st', hk, rfl, -, hm, hst⟩
  · exact .inl h
  · cases hm with
    | announced => exact .inr (by simp [announces])
    | rereadCloned hp =>
      cases hd with
      | quiet hq => contradiction
    | rereadAnnounced hp => exact .inl ⟨_, _, _, rfl, rfl, rfl⟩
    | refused | passed | unloaded | unmade | made | initial | grouped | child | cloned =>
      contradiction
    | _ => exact .inl ⟨_, _, _, rfl, rfl, rfl⟩

/-- A shim that has sent such an event has sent `created`. -/
theorem announces_of_sent {th : SysThread} (h : contract.Conforms th) {configPath s sp : String}
    {e : Event} (hk : kindOf th = .create id configPath (some s))
    (hev : (⟨.writeEvent sp e, .ok ()⟩ : Sys.Ev) ∈ th.trace) (hst : e.state ≠ .creating)
    (he : e ≠ failureReport id) : ∃ ev ∈ th.trace, announces id ev = true := by
  have htold : AtStage id Stage.told (kindOf th) (phaseOf th) := by
    refine h.past.after (I := fun g => AtStage id Stage.told (kindOf th) g) hev ?_ ?_
    · intro g hmay
      change (kindOf th).may g _ at hmay
      show AtStage id Stage.told (kindOf th) ((kindOf th).next g _ _)
      rw [hk] at hmay ⊢
      exact told_of_sent (Kind.may_does hmay) hst he
    · intro g op r hmay hg
      exact AtStage.next (Kind.may_does hmay) hg fun _ _ hm hg => told_move hm hg
  obtain ⟨ev, hmem, g, hmay, hng, hg⟩ := h.past.cause
    (I := fun g => AtStage id Stage.told (kindOf th) g) (AtStage.not_init rfl th.main) htold
  change (kindOf th).may g ev.1 at hmay
  refine ⟨ev, hmem, ?_⟩
  change AtStage id Stage.told (kindOf th) ((kindOf th).next g ev.1 ev.2) at hg
  rw [hk] at hmay hng hg
  exact (told_entry (Kind.may_does hmay) hg).resolve_left hng

/-! ### The invariant -/

theorem OwnShim.step {tx t : Nat} (h : OwnShim id tx t c) (hs : system.step c a = some c') :
    OwnShim id tx t c' := by
  obtain ⟨th, hi, hp, hm⟩ := h
  obtain ⟨th', hi', hm', hp', -⟩ := step_kept hs hi
  exact ⟨th', hi', hp'.trans hp, by rw [hm']; exact hm⟩

theorem Announced.step {tx : Nat} (h : Announced id tx c) (hs : system.step c a = some c') :
    Announced id tx c' := by
  obtain ⟨t, hown, th, hi, ev, hev, ha⟩ := h
  obtain ⟨th', hi', -, -, htr⟩ := step_kept hs hi
  exact ⟨t, hown.step hs, th', hi', ev, htr hev, ha⟩

/-- Only the processing of an event sends on a `created` channel. -/
theorem step_created (hc : Conforming c) (hs : system.step c a = some c') {tx : Nat}
    (h : c'.world.daemon.created tx = true) : c.world.daemon.created tx = true ∨
      ∃ k t ev e, a = .env (.deliver k) ∧ c.world.events[k]? = some (t, ev) ∧
        ev.state ≠ .creating ∧ c.world.entry ev.id = some e ∧ e.createdWaiter = some tx := by
  have hm : MapChange c a c'.world.daemon := step_map hc hs
  generalize c'.world.daemon = d at hm h
  cases hm with
  | same => exact .inl h
  | inserted => exact .inl (by simpa using h)
  | turned => exact .inl (by simpa using h)
  | killed => exact .inl (by simpa using h)
  | removed => exact .inl (by simpa using h)
  | waits => exact .inl (by simpa using h)
  | delivered ha hev =>
    rcases (Daemon.updateStatus_created _ _ _).mp h with h | ⟨hst, e, he, hw⟩
    · exact .inl h
    · exact .inr ⟨_, _, _, e, ha, hev, hst, he, hw⟩
  | stopped => exact .inl h
  | started => exact .inl (by simpa using h)

structure Replies (id : String) (c : SysConf) : Prop where
  registered : Registered c
  /-- A handler of the container is released once its shim has sent `created`. -/
  fired : ∀ i : Nat, c.world.daemon.created i = true → ∃ th, c.threads[i]? = some th ∧
    ∀ configPath, kindOf th = .handler id configPath → Announced id i c
  answered : ∀ (i : Nat) th, c.threads[i]? = some th → phaseOf th = .handler (.answered true) →
    c.world.daemon.created i = true

theorem replies_fresh {w : World} (he : w.events = []) (hd : w.daemon = .new) :
    Replies id (fresh w) where
  registered := registered_fresh he hd
  fired := by intro i h; simp [hd, Daemon.new] at h
  answered := by intro i th hi; simp at hi

theorem Replies.fired_step (h : Replies id c) (hc : Conforming c)
    (hok : ReleasesAnnounced id c a) (hs : system.step c a = some c') (i : Nat)
    (hcr : c'.world.daemon.created i = true) : ∃ th, c'.threads[i]? = some th ∧
      ∀ configPath, kindOf th = .handler id configPath → Announced id i c' := by
  rcases step_created hc hs hcr with hcr | ⟨k, t, ev, e, rfl, hev, hst, hen, hw⟩
  · obtain ⟨th, hi, hann⟩ := h.fired i hcr
    obtain ⟨th', hi', hm, -, -⟩ := step_kept hs hi
    refine ⟨th', hi', fun cp hk => ?_⟩
    rw [kindOf, hm] at hk
    exact (hann cp hk).step hs
  · -- the waiter of the entry is this handler, so the event is about its container
    obtain ⟨th, cp₀, hi, hk₀⟩ := h.registered.waiter ev.id e i hen hw
    obtain ⟨th', hi', hm, -, -⟩ := step_kept hs hi
    refine ⟨th', hi', fun cp hk => ?_⟩
    have hid : ev.id = id := by
      rw [kindOf, hm] at hk
      cases hk₀.symm.trans hk
      rfl
    subst hid
    rcases hok (t, ev) hev rfl hst e hen i hw with ⟨hown, hne⟩ | hann
    · obtain ⟨tht, sp, hit, hmem⟩ := h.registered.sent t ev (List.mem_of_getElem? hev)
      obtain ⟨th₂, hi₂, hpar, cp', s, hm'⟩ := hown
      cases hit.symm.trans hi₂
      have hkt : kindOf tht = .create ev.id cp' (some s) := by rw [kindOf, hm']; rfl
      obtain ⟨ev', hev', hann⟩ := announces_of_sent (hc t tht hit) hkt hmem hst hne
      exact Announced.step ⟨t, ⟨tht, hit, hpar, cp', s, hm'⟩, tht, hit, ev', hev', hann⟩ hs
    · exact hann.step hs

/-- What was sent on a channel stays sent. -/
theorem created_step (hc : Conforming c) (hs : system.step c a = some c') {tx : Nat}
    (h : c.world.daemon.created tx = true) : c'.world.daemon.created tx = true := by
  have hm : MapChange c a c'.world.daemon := step_map hc hs
  generalize c'.world.daemon = d at hm
  cases hm with
  | delivered ha hev => exact (Daemon.updateStatus_created _ _ _).mpr (.inl h)
  | same | stopped => exact h
  | inserted | turned | killed | removed | waits | started => simpa using h

theorem Replies.answered_step (h : Replies id c) (hc : Conforming c)
    (hs : system.step c a = some c') (i : Nat) (th' : SysThread) (hi : c'.threads[i]? = some th')
    (hg : phaseOf th' = .handler (.answered true)) : c'.world.daemon.created i = true := by
  refine created_step hc hs ?_
  have hinit (m : Main) : m.kind.init ≠ .handler (.answered true) := by
    generalize m.kind = k
    cases k <;> nofun
  have hcopy (k : Kind) (g : Phase) (hc : g.copied = true) : g ≠ .handler (.answered true) := by
    rintro rfl
    contradiction
  rcases step_enters (P := fun _ g => g = .handler (.answered true)) hinit hcopy
    hc hs hi hg with ⟨th, hi₀, hg₀⟩ | ⟨th, op, r, ch, hi₀, -, hx, hd, hg'⟩
  · exact h.answered i th hi₀ hg₀
  · obtain ⟨g₀, hg₀⟩ := Kind.handler_of_next hg'
    rw [hg₀] at hd hg'
    generalize kindOf th = k at hd hg'
    cases hd with
    | quiet hq =>
      rw [Kind.next_quiet hq] at hg'
      exact h.answered i th hi₀ (hg₀.trans hg')
    | channel | insert => cases hg'
    | spawn => cases r <;> cases hg'
    | @await _ _ tx =>
      -- the handler waits on its own channel, and hears `true` only from a send
      cases hg'
      obtain rfl := h.registered.channel i th _ hi₀ hg₀ tx rfl
      cases ch with
      | err e => simp [World.exec, Op.failure] at hx
      | part e => simp [World.exec, World.runPart] at hx
      | run n =>
        simp only [World.exec, World.run, World.awaitCreated] at hx
        split at hx
        · assumption
        · split at hx <;> cases hx

theorem Replies.step (h : Replies id c) (hc : Conforming c) (hok : ReleasesAnnounced id c a)
    (hs : system.step c a = some c') : Replies id c' where
  registered := h.registered.step hc hs
  fired := h.fired_step hc hok hs
  answered := h.answered_step hc hs

/-- A request that has come to its end with a reply was answered. -/
theorem answered_of_ret {th : SysThread} (h : contract.Conforms th) {configPath : String}
    {r : Reply} (hm : th.main = .rpc (.create id configPath)) (hr : reply th = some r) :
    phaseOf th = .handler (.answered true) := by
  have hp : th.prog = .ret r := reply_some hr
  have hrest := h.rest
  have hk : kindOf th = .handler id configPath := by rw [kindOf, hm]; rfl
  have hhas := phase_has h
  rw [hp, hm] at hrest
  rw [hk] at hhas
  change (Main.rpc (.create id configPath)).post (phaseOf th) (.ok r) at hrest
  cases hg : phaseOf th with
  | handler g =>
    rw [hg] at hrest
    exact congrArg _ (hrest.1.mpr ⟨r, rfl⟩)
  | create | turn | kill | delete | exec | observer => simp [hg, Kind.has] at hhas

/-- If Create replies Ok, the shim of that request has sent `created`, provided the event that
releases the handler is not the report of its failure and comes from no other shim. -/
theorem create_reply {id : String} {w : World} {c : SysConf} (he : w.events = [])
    (hd : w.daemon = .new) (hrun : Steps system.step (ReleasesAnnounced id) (fresh w) c) {i : Nat}
    {th : SysThread} (hi : c.threads[i]? = some th) {configPath : String}
    (hm : th.main = .rpc (.create id configPath)) {r : Reply} (hr : reply th = some r) :
    Announced id i c := by
  obtain ⟨hc, hrep⟩ := run_invariant hrun (conforming_fresh w) (replies_fresh he hd)
    fun c a c' hc h hok hs => h.step hc hok hs
  have hcr := hrep.answered i th hi (answered_of_ret (hc i th hi) hm hr)
  obtain ⟨th₀, hi₀, hann⟩ := hrep.fired i hcr
  cases hi.symm.trans hi₀
  exact hann configPath (by rw [kindOf, hm]; rfl)

/-- A request up to the wait for the reply; its shim is thread 1. -/
def createRequest (id : String) : List SysAction :=
  [.invoke (.rpc (.create id "cfg"))] ++ goes 4 0

/-- A shim that supervises a child; its event `created` comes after the first one. -/
theorem create_reply_sample : ∃ c : SysConf,
    Steps system.step (ReleasesAnnounced "c") (fresh daemonHost) c ∧
    (∃ th ∈ c.threads[0]?, reply th = some .unit) ∧ Announced "c" 0 c := by
  have h : ∃ c ∈ runActions system.step (ReleasesAnnounced "c") (fresh daemonHost)
      (createRequest "c" ++ goes 20 1 ++ [.call 1 (.run 7)] ++ goes 40 1 ++
        [.env (.deliver 0), .env (.deliver 0), go 0]),
      ∃ th ∈ c.threads[0]?, th.main = .rpc (.create "c" "cfg") ∧ reply th = some .unit := by
    decide +kernel
  obtain ⟨c, hrun, th, hi, hm, hr⟩ := h
  exact ⟨c, .of_runActions hrun, ⟨th, hi, hr⟩,
    create_reply rfl rfl (.of_runActions hrun) hi hm hr⟩

/-- The configuration cannot be read: the shim reports `stopped` with code -1, and Create replies
Ok. -/
theorem create_reply_unsound : ∃ c : SysConf,
    Steps system.step (fun _ _ => True) (fresh daemonHost) c ∧
    (∃ th ∈ c.threads[0]?, th.main = .rpc (.create "c" "cfg") ∧ reply th = some .unit) ∧
    ¬Announced "c" 0 c := by
  have h : ∃ c ∈ runActions system.step (fun _ _ => True) (fresh daemonHost)
      (createRequest "c" ++ [go 1, .call 1 (.err .enoent)] ++ goes 2 1 ++
        [.env (.deliver 0), go 0]),
      (∃ th ∈ c.threads[0]?, th.main = .rpc (.create "c" "cfg") ∧ reply th = some .unit) ∧
        ¬Announced "c" 0 c := by
    decide +kernel
  obtain ⟨c, hrun, hth, hnot⟩ := h
  exact ⟨c, .of_runActions hrun, hth, hnot⟩

end Clonebox
