import Clonebox.System.Run

/-! # The daemon's map and the events on their way to it

The map is changed by the handlers, each in one critical section, and by the tasks that process
events. What is registered in it are channels of the requests that made them. -/

namespace Clonebox
open Conc

variable {c c' : SysConf} {a : SysAction} {i : Nat} {th th' : SysThread} {id : String}

/-- What a step makes of the daemon's memory. -/
inductive MapChange (c : SysConf) (a : SysAction) : Daemon → Prop
  | same : MapChange c a c.world.daemon
  | inserted {i : Nat} {th : SysThread} {id configPath : String} {tx : Nat}
    (he : system.event c a = some (i, ⟨.insertEntry id ⟨.creating, some tx, []⟩, ()⟩))
    (hi : c.threads[i]? = some th) (hk : kindOf th = .handler id configPath)
    (hg : phaseOf th = .handler (.holding tx)) :
    MapChange c a (c.world.daemon.orInsert id ⟨.creating, some tx, []⟩)
  | turned {i : Nat} {th : SysThread} {t : Turn} {id : String}
    (he : system.event c a = some (i, ⟨.setEntry id t.target, ()⟩))
    (hi : c.threads[i]? = some th) (hk : kindOf th = .turn t id) (hg : phaseOf th = .turn .wrote) :
    MapChange c a (c.world.daemon.modify id ({ · with state := t.target }))
  | killed {i : Nat} {th : SysThread} {id : String}
    (he : system.event c a = some (i, ⟨.setEntry id .stopped, ()⟩))
    (hi : c.threads[i]? = some th) (hk : kindOf th = .kill id) (hg : phaseOf th = .kill .wrote) :
    MapChange c a (c.world.daemon.modify id ({ · with state := .stopped }))
  | removed {i : Nat} {th : SysThread} {id : String} {force : Bool}
    (he : system.event c a = some (i, ⟨.removeStopped id, ()⟩))
    (hi : c.threads[i]? = some th) (hk : kindOf th = .delete id force)
    (hg : phaseOf th = .delete .cleared) : MapChange c a (c.world.daemon.removeStopped id)
  | waits {i : Nat} {id : String} {tx : Nat} {found : Bool}
    (he : system.event c a = some (i, ⟨.pushWaiter id tx, found⟩)) :
    MapChange c a (c.world.daemon.modify id fun e => { e with exitWaiter := e.exitWaiter ++ [tx] })
  | delivered {k t : Nat} {e : Event} (ha : a = .env (.deliver k))
    (he : c.world.events[k]? = some (t, e)) : MapChange c a (c.world.daemon.updateStatus e)
  | stopped (ha : a = .env .daemonStop) :
    MapChange c a { c.world.daemon with containers := ∅ }
  | started {dir : List String} (ha : a = .env (.daemonStart dir)) (hup : c.world.up = false) :
    MapChange c a (c.world.daemon.recover c.world.hasPid
      (dir.map fun name => (name, c.world.file name)))

theorem step_map (hc : Conforming c) (hs : system.step c a = some c') :
    MapChange c a c'.world.daemon := by
  rcases step_world hs with ⟨i, op, r, ch, he, hx⟩ | e | ⟨e, rfl, he⟩ | ⟨t, -, e⟩
  · cases hon : op.onDaemon with
    | false =>
      rw [World.exec_daemon hx hon]
      exact .same
    | true =>
      obtain ⟨th, k, -, hi, -, hd, -⟩ := event_thread hc he hs
      have hquiet := Op.not_quiet_of_onDaemon hon
      generalize hk : kindOf th = kind at hd
      generalize hg : phaseOf th = g at hd
      cases ch with
      | err e => cases op <;> contradiction
      | part e => cases op <;> contradiction
      | run n =>
        cases hd with
        | quiet hq => simp [hq] at hquiet
        | insert =>
          obtain ⟨-, hw⟩ : () = r ∧ _ = c'.world := by simpa [World.exec, World.run] using hx
          rw [← hw]
          exact .inserted he hi hk hg
        | settleTurn =>
          obtain ⟨-, hw⟩ : () = r ∧ _ = c'.world := by simpa [World.exec, World.run] using hx
          rw [← hw]
          exact .turned he hi hk hg
        | settleKill =>
          obtain ⟨-, hw⟩ : () = r ∧ _ = c'.world := by simpa [World.exec, World.run] using hx
          rw [← hw]
          exact .killed he hi hk hg
        | settleDelete =>
          obtain ⟨-, hw⟩ : () = r ∧ _ = c'.world := by simpa [World.exec, World.run] using hx
          rw [← hw]
          exact .removed he hi hk hg
        | looks hl =>
          cases op <;> try contradiction
          simp only [World.exec, World.run, Option.some.injEq, Prod.mk.injEq] at hx
          rw [← hx.2]
          exact .waits he
        | _ => contradiction
  · rw [e]
    exact .same
  · generalize c'.world = w at he ⊢
    cases e with
    | exit pid status =>
      cases he
      exact .same
    | reap pid =>
      cases he
      exact .same
    | deliver k =>
      simp only [World.env] at he
      split at he <;> cases he
      exact .delivered rfl ‹_›
    | daemonStop =>
      cases he
      exact .stopped rfl
    | daemonStart dir =>
      simp only [World.env] at he
      split at he <;> cases he
      exact .started rfl (eq_false_of_ne_true ‹_›)
  · rw [e]
    exact .same

/-- What a step makes of the entry of one container. -/
inductive EntryChange (id : String) (c : SysConf) (a : SysAction) : Option ContainerEntry → Prop
  | same : EntryChange id c a (c.world.entry id)
  | inserted {i : Nat} {th : SysThread} {configPath : String} {tx : Nat}
    (he : system.event c a = some (i, ⟨.insertEntry id ⟨.creating, some tx, []⟩, ()⟩))
    (hi : c.threads[i]? = some th) (hk : kindOf th = .handler id configPath)
    (hg : phaseOf th = .handler (.holding tx)) (hn : c.world.entry id = none) :
    EntryChange id c a (some ⟨.creating, some tx, []⟩)
  | turned {i : Nat} {th : SysThread} {t : Turn} {e : ContainerEntry}
    (he : system.event c a = some (i, ⟨.setEntry id t.target, ()⟩))
    (hi : c.threads[i]? = some th) (hk : kindOf th = .turn t id) (hg : phaseOf th = .turn .wrote)
    (hen : c.world.entry id = some e) : EntryChange id c a (some { e with state := t.target })
  | killed {i : Nat} {th : SysThread} {e : ContainerEntry}
    (he : system.event c a = some (i, ⟨.setEntry id .stopped, ()⟩))
    (hi : c.threads[i]? = some th) (hk : kindOf th = .kill id) (hg : phaseOf th = .kill .wrote)
    (hen : c.world.entry id = some e) : EntryChange id c a (some { e with state := .stopped })
  | removed {i : Nat} {th : SysThread} {force : Bool} {e : ContainerEntry}
    (he : system.event c a = some (i, ⟨.removeStopped id, ()⟩))
    (hi : c.threads[i]? = some th) (hk : kindOf th = .delete id force)
    (hg : phaseOf th = .delete .cleared) (hen : c.world.entry id = some e)
    (hst : e.state = .stopped) : EntryChange id c a none
  | waits {i : Nat} {tx : Nat} {found : Bool} {e : ContainerEntry}
    (he : system.event c a = some (i, ⟨.pushWaiter id tx, found⟩))
    (hen : c.world.entry id = some e) :
    EntryChange id c a (some { e with exitWaiter := e.exitWaiter ++ [tx] })
  | delivered {k t : Nat} {ev : Event} {e : ContainerEntry} (ha : a = .env (.deliver k))
    (hev : c.world.events[k]? = some (t, ev)) (hid : ev.id = id)
    (hen : c.world.entry id = some e) : EntryChange id c a (some (e.update ev))
  | stopped (ha : a = .env .daemonStop) : EntryChange id c a none
  | recovered {dir : List String} {e : ContainerEntry} (ha : a = .env (.daemonStart dir))
    (hw : e.createdWaiter = none ∧ e.exitWaiter = []) : EntryChange id c a (some e)

theorem step_entry (hc : Conforming c) (hs : system.step c a = some c') :
    EntryChange id c a (c'.world.entry id) := by
  have hm : MapChange c a c'.world.daemon := step_map hc hs
  unfold World.entry
  generalize c'.world.daemon = d at hm
  have hsame : d.entry id = c.world.daemon.entry id → EntryChange id c a (d.entry id) := by
    intro e
    rw [e]
    exact .same
  -- an operation on the entry of `i` does nothing if there is none, and nothing to other entries
  have hmodify {i : String} {f : ContainerEntry → ContainerEntry}
      (hd : d = c.world.daemon.modify i f)
      (hf : ∀ e, i = id → c.world.entry id = some e → EntryChange id c a (some (f e))) :
      EntryChange id c a (d.entry id) := by
    by_cases hid : id = i
    · subst hid
      cases hen : c.world.daemon.entry id with
      | none => exact hsame (by rw [hd, Daemon.entry_modify, hen]; rfl)
      | some e =>
        rw [hd, Daemon.entry_modify, hen]
        exact hf e rfl hen
    · exact hsame (by rw [hd, Daemon.entry_modify_ne _ _ _ _ hid])
  cases hm with
  | same => exact .same
  | @inserted i th id' cp tx he hi hk hg =>
    by_cases hid : id = id'
    · subst hid
      cases hen : c.world.daemon.entry id with
      | none =>
        rw [Daemon.entry_orInsert, hen]
        exact .inserted he hi hk hg hen
      | some e => exact hsame (by rw [Daemon.entry_orInsert, hen]; rfl)
    · exact hsame (Daemon.entry_orInsert_ne _ _ _ _ hid)
  | turned he hi hk hg =>
    refine hmodify rfl fun e hid hen => ?_
    subst hid
    exact .turned he hi hk hg hen
  | killed he hi hk hg =>
    refine hmodify rfl fun e hid hen => ?_
    subst hid
    exact .killed he hi hk hg hen
  | @removed i th id' force he hi hk hg =>
    by_cases hid : id = id'
    · subst hid
      cases hen : c.world.daemon.entry id with
      | none => exact hsame (by rw [Daemon.entry_removeStopped, hen]; rfl)
      | some e =>
        by_cases hst : e.state = .stopped
        · rw [Daemon.entry_removeStopped, hen]
          simp only [Option.filter, hst]
          exact .removed he hi hk hg hen hst
        · exact hsame (by rw [Daemon.entry_removeStopped, hen]; simp [Option.filter, hst])
    · exact hsame (Daemon.entry_removeStopped_ne _ _ _ hid)
  | waits he =>
    refine hmodify rfl fun e hid hen => ?_
    subst hid
    exact .waits he hen
  | @delivered k t ev ha he =>
    by_cases hid : id = ev.id
    · cases hen : c.world.daemon.entry id with
      | none => exact hsame (by rw [Daemon.updateStatus_of_none _ _ (hid ▸ hen)])
      | some e =>
        subst hid
        rw [Daemon.updateStatus_entry, hen]
        exact .delivered ha he rfl hen
    · exact hsame (Daemon.updateStatus_entry_ne _ _ hid)
  | stopped ha => exact .stopped ha
  | @started dir ha hup =>
    cases hen : (c.world.daemon.recover c.world.hasPid
        (dir.map fun name => (name, c.world.file name))).entry id with
    | none =>
      cases hold : c.world.daemon.entry id with
      | none =>
        rw [← hold]
        exact .same
      | some e => cases hen.symm.trans (Daemon.recover_keeps hold)
    | some e =>
      rcases Daemon.recover_entry hen with hold | ⟨s, -, rfl⟩
      · rw [← hold]
        exact .same
      · exact .recovered ha ⟨rfl, rfl⟩

/-- The event that a step processes, with its sender. -/
def delivery (c : SysConf) : SysAction → Option (Nat × Event)
  | .env (.deliver k) => c.world.events[k]?
  | _ => none

theorem delivery_some {x : Nat × Event} (h : delivery c a = some x) :
    ∃ k, a = .env (.deliver k) ∧ c.world.events[k]? = some x := by
  unfold delivery at h
  split at h
  · exact ⟨_, rfl, h⟩
  · contradiction

/-- What the step that processes an event makes of the daemon. -/
theorem delivery_step {x : Nat × Event} (h : delivery c a = some x)
    (hs : system.step c a = some c') : c'.world.daemon = c.world.daemon.updateStatus x.2 := by
  obtain ⟨k, rfl, hk⟩ := delivery_some h
  obtain ⟨w, hw, rfl⟩ := Machine.step_env hs
  simp only [system, World.env, hk, Option.some.injEq] at hw
  rw [← hw]

/-- What a step makes of the events on their way. -/
inductive QueueChange (c : SysConf) (a : SysAction) : List (Nat × Event) → Prop
  | same : QueueChange c a c.world.events
  | sent {i : Nat} {sp : String} {e : Event}
    (he : system.event c a = some (i, ⟨.writeEvent sp e, .ok ()⟩)) :
    QueueChange c a (c.world.events ++ [(i, e)])
  | taken {k : Nat} (ha : a = .env (.deliver k)) : QueueChange c a (c.world.events.eraseIdx k)
  | dropped (ha : a = .env .daemonStop) : QueueChange c a []

theorem World.exec_writeEvent {w w' : World} {t : Nat} {sp : String} {e : Event} {ch : Choice}
    {r : Io Unit} (h : w.exec t (.writeEvent sp e) ch = some (r, w')) :
    (r = .ok () ∧ w'.events = w.events ++ [(t, e)]) ∨ (∃ err, r = .error err) ∧ w' = w := by
  cases ch with
  | err e =>
    obtain ⟨rfl, rfl⟩ : Except.error e = r ∧ w = w' := by simpa [exec, Op.failure] using h
    exact .inr ⟨⟨e, rfl⟩, rfl⟩
  | part e => simp [exec, runPart] at h
  | run n =>
    simp only [exec, run, writeEvent] at h
    split at h <;> cases h
    · exact .inl ⟨rfl, rfl⟩
    · exact .inr ⟨⟨_, rfl⟩, rfl⟩

theorem step_queue (hs : system.step c a = some c') : QueueChange c a c'.world.events := by
  rcases step_world hs with ⟨i, op, r, ch, he, hx⟩ | e | ⟨e, rfl, he⟩ | ⟨t, -, e⟩
  · by_cases hop : ∃ sp e, op = .writeEvent sp e
    · obtain ⟨sp, e, rfl⟩ := hop
      rcases World.exec_writeEvent hx with ⟨rfl, hq⟩ | ⟨-, hw⟩
      · rw [hq]
        exact .sent he
      · rw [hw]
        exact .same
    · rw [World.exec_events hx fun sp e h => hop ⟨sp, e, h⟩]
      exact .same
  · rw [e]
    exact .same
  · generalize c'.world = w at he ⊢
    cases e with
    | exit pid status =>
      cases he
      exact .same
    | reap pid =>
      cases he
      exact .same
    | deliver k =>
      simp only [World.env] at he
      split at he <;> cases he
      exact .taken rfl
    | daemonStop =>
      cases he
      exact .dropped rfl
    | daemonStart dir =>
      simp only [World.env] at he
      split at he <;> cases he
      exact .same
  · rw [e]
    exact .same

/-! ### What is registered -/

/-- The channel a `create` handler has made. -/
def HandlerStage.channel : HandlerStage → Option Nat
  | .holding tx | .entered tx | .spawned tx => some tx
  | _ => none

structure Registered (c : SysConf) : Prop where
  /-- Every event on its way was written by its sender. -/
  sent : ∀ t e, (t, e) ∈ c.world.events → ∃ (th : SysThread) (sp : String),
    c.threads[t]? = some th ∧ ⟨.writeEvent sp e, .ok ()⟩ ∈ th.trace
  /-- A handler holds its own channel. -/
  channel : ∀ (i : Nat) th g, c.threads[i]? = some th → phaseOf th = .handler g →
    ∀ tx ∈ g.channel, tx = i
  /-- The waiter of an entry is a `create` handler for it. -/
  waiter : ∀ id e tx, c.world.daemon.entry id = some e → e.createdWaiter = some tx →
    ∃ (th : SysThread) (configPath : String),
      c.threads[tx]? = some th ∧ kindOf th = .handler id configPath

theorem registered_fresh {w : World} (hw : w.events = []) (hd : w.daemon = .new) :
    Registered (fresh w) where
  sent := by intro t e h; simp [hw] at h
  channel := by intro i th g hi; simp at hi
  waiter := by intro id e tx h; simp [hd] at h

theorem Registered.sent_step (h : Registered c) (hc : Conforming c) (hs : system.step c a = some c') (t : Nat)
    (e : Event) (hmem : (t, e) ∈ c'.world.events) : ∃ (th : SysThread) (sp : String),
      c'.threads[t]? = some th ∧ ⟨.writeEvent sp e, .ok ()⟩ ∈ th.trace := by
  have hold (hmem : (t, e) ∈ c.world.events) : ∃ (th : SysThread) (sp : String),
      c'.threads[t]? = some th ∧ ⟨.writeEvent sp e, .ok ()⟩ ∈ th.trace := by
    obtain ⟨th, sp, hi, hev⟩ := h.sent t e hmem
    obtain ⟨th', hi', -, -, htr⟩ := step_kept hs hi
    exact ⟨th', sp, hi', htr hev⟩
  have hq := step_queue hs
  generalize c'.world.events = q at hq hmem
  cases hq with
  | same => exact hold hmem
  | @sent i sp e' he =>
    rcases List.mem_append.mp hmem with hmem | hmem
    · exact hold hmem
    · cases List.mem_singleton.mp hmem
      obtain ⟨th, k, ch, w, rfl, hi, hst, hop, hx, hs'⟩ := Machine.event_some he
      obtain ⟨th', hi', -, -, -⟩ := step_kept hs hi
      obtain ⟨th₁, k₁, ch₁, -, -, -, -, hi₁, -⟩ := event_thread hc he hs
      exact ⟨_, sp, hi₁, List.mem_append_right _ List.mem_cons_self⟩
  | taken ha => exact hold (List.mem_of_mem_eraseIdx hmem)
  | dropped ha => contradiction

theorem HandlerStage.channel_advance {k : Kind} {g g' : HandlerStage} {op : Op} {r : op.Ret}
    (hd : Does k (.handler g) op) (h : k.next (.handler g) op r = .handler g') :
    g'.channel = none ∨ g'.channel = g.channel ∨
      g = .idle ∧ ∃ tx : Nat, (⟨op, r⟩ : Sys.Ev) = ⟨.channel, tx⟩ ∧ g' = .holding tx := by
  cases hd with
  | quiet hq =>
    cases (Kind.next_quiet hq r).symm.trans h
    exact .inr (.inl rfl)
  | channel => cases h; exact .inr (.inr ⟨rfl, r, rfl, rfl⟩)
  | insert => cases h; exact .inr (.inl rfl)
  | spawn => cases r <;> cases h; exacts [.inl rfl, .inr (.inl rfl)]
  | await => cases h; exact .inl rfl

theorem Kind.handler_of_next {k : Kind} {g : Phase} {op : Op} {r : op.Ret} {g' : HandlerStage}
    (h : k.next g op r = .handler g') : ∃ g₀, g = .handler g₀ := by
  cases g with
  | handler g₀ => exact ⟨g₀, rfl⟩
  | create | turn | kill | delete | exec | observer => cases k <;> cases h

theorem Registered.channel_step (h : Registered c) (hc : Conforming c)
    (hs : system.step c a = some c') (i : Nat) (th' : SysThread) (g : HandlerStage)
    (hi : c'.threads[i]? = some th') (hg : phaseOf th' = .handler g) (tx : Nat)
    (htx : tx ∈ g.channel) : tx = i := by
  have hinit (m : Main) : ¬∃ g, m.kind.init = .handler g ∧ tx ∈ g.channel := by
    intro hex
    obtain ⟨g, hg, htx⟩ := hex
    generalize m.kind = k at hg
    cases k <;> cases hg
    contradiction
  have hcopy (k : Kind) (g : Phase) (hc : g.copied = true) : ¬∃ g', g = .handler g' ∧ tx ∈ g'.channel := by
    rintro ⟨g', rfl, -⟩
    contradiction
  rcases step_enters (P := fun _ g => ∃ g', g = .handler g' ∧ tx ∈ g'.channel) hinit
    hcopy hc hs hi ⟨g, hg, htx⟩ with
    ⟨th, hi₀, g₀, hg₀, htx₀⟩ | ⟨th, op, r, ch, hi₀, -, hx, hd, g', hg', htx'⟩
  · exact h.channel i th g₀ hi₀ hg₀ tx htx₀
  · obtain ⟨g₀, hg₀⟩ := Kind.handler_of_next hg'
    rw [hg₀] at hd hg'
    rcases HandlerStage.channel_advance hd hg' with e | e | ⟨rfl, n, e, rfl⟩
    · simp [e] at htx'
    · exact h.channel i th g₀ hi₀ hg₀ tx (e ▸ htx')
    · cases e
      obtain rfl : n = tx := by simpa [HandlerStage.channel] using htx'
      cases ch <;> simp [World.exec, World.run, World.runPart, Op.failure] at hx
      exact hx.1.symm

theorem Registered.waiter_step (h : Registered c) (hc : Conforming c)
    (hs : system.step c a = some c') (id : String) (e : ContainerEntry) (tx : Nat)
    (he : c'.world.entry id = some e) (htx : e.createdWaiter = some tx) :
    ∃ (th : SysThread) (configPath : String),
      c'.threads[tx]? = some th ∧ kindOf th = .handler id configPath := by
  have hthread {i : Nat} {th : SysThread} {cp : String} (hi : c.threads[i]? = some th)
      (hk : kindOf th = .handler id cp) : ∃ (th : SysThread) (configPath : String),
      c'.threads[i]? = some th ∧ kindOf th = .handler id configPath := by
    obtain ⟨th', hi', hm, -, -⟩ := step_kept hs hi
    exact ⟨th', cp, hi', by rw [kindOf, hm]; exact hk⟩
  have hold {e : ContainerEntry} (he : c.world.entry id = some e)
      (htx : e.createdWaiter = some tx) : ∃ (th : SysThread) (configPath : String),
      c'.threads[tx]? = some th ∧ kindOf th = .handler id configPath := by
    obtain ⟨th, cp, hi, hk⟩ := h.waiter id e tx he htx
    exact hthread hi hk
  have hent : EntryChange id c a (c'.world.entry id) := step_entry hc hs
  generalize c'.world.entry id = o at hent he
  cases hent with
  | same => exact hold he htx
  | inserted hev hi hk hg hn =>
    cases he
    cases htx
    obtain rfl := h.channel _ _ _ hi hg tx rfl
    exact hthread hi hk
  | turned hev hi hk hg hen => cases he; exact hold hen htx
  | killed hev hi hk hg hen => cases he; exact hold hen htx
  | removed | stopped => contradiction
  | waits hev hen => cases he; exact hold hen htx
  | delivered ha hev hid hen =>
    cases he
    refine hold hen ?_
    unfold ContainerEntry.update at htx
    dsimp only at htx
    split at htx
    · exact htx
    · contradiction
  | recovered ha hw =>
    cases he
    rw [hw.1] at htx
    contradiction

theorem Registered.step (h : Registered c) (hc : Conforming c) (hs : system.step c a = some c') :
    Registered c' where
  sent := h.sent_step hc hs
  channel := h.channel_step hc hs
  waiter := h.waiter_step hc hs

end Clonebox
