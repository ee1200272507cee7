import Clonebox.Lib.Answers
import Clonebox.Lifecycle.Identity
import Clonebox.Requests.Duplicate

/-! # What State and List tell

The daemon answers both from the state files, which others write in the meantime. A state in an
answer is one that the file has held while the request was being served. -/

namespace Clonebox
open Conc Prog

variable {id : String} {c c' c₀ : SysConf} {i : Nat} {th : SysThread} {tr : List Sys.Ev} {w : World}

/-- A run of the system. -/
abbrev Runs (c c' : SysConf) : Prop := Steps system.step (fun _ _ => True) c c'

/-! ### The calls of the two requests -/

theorem readStateFile_read {s : State} (h : Reaches (readStateFile id) tr (.ret s)) :
    tr = [⟨.read (stateJson id), .ok (.state s)⟩] := by
  obtain ⟨_, _, r, rfl, hread, h⟩ := h.of_bind_ret
  rw [reaches_sys hread]
  rcases r with e | (s' | config | t)
  · dsimp only at h
    split at h
    · cases h.of_fail.2
    · cases h.of_fail.2
  · obtain ⟨rfl, he⟩ := h.of_ret
    cases he
    rfl
  · cases h.of_fail.2
  · cases h.of_fail.2

theorem stateHandler_ret {s : State} (h : Reaches (Main.rpc (.state id)).prog tr (.ret (.state s))) :
    tr = [⟨.read (stateJson id), .ok (.state s)⟩] := by
  obtain ⟨p, hp, he⟩ := h.of_mapError
  cases p with
  | ret r =>
    cases he
    obtain ⟨tr₁, tr₂, s', rfl, hread, hret⟩ := hp.of_bind_ret
    obtain ⟨rfl, he⟩ := hret.of_ret
    cases he
    obtain ⟨q, hq, he⟩ := hread.of_mapError
    cases q with
    | ret a =>
      cases he
      rw [List.append_nil, readStateFile_read hq]
    | fail | halt | call => cases he
  | fail | halt | call => cases he

/-- The reads of the files of the containers, one after the other, and the states that were
found. -/
inductive Reads : List String → List Sys.Ev → List State → Prop
  | nil : Reads [] [] []
  | found {id : String} {s : State} {ids : List String} {tr : List Sys.Ev} {l : List State}
    (h : Reads ids tr l) : Reads (id :: ids) (⟨.read (stateJson id), .ok (.state s)⟩ :: tr) (s :: l)
  | passed {id : String} {x : Io Content} {ids : List String} {tr : List Sys.Ev} {l : List State}
    (hx : parsed x = none) (h : Reads ids tr l) : Reads (id :: ids) (⟨.read (stateJson id), x⟩ :: tr) l

theorem readStateFile_unread {e : CoreError} (h : Reaches (readStateFile id) tr (.fail e)) :
    ∃ x, parsed x = none ∧ tr = [⟨.read (stateJson id), x⟩] := by
  rcases h.of_bind_fail with h | ⟨_, _, r, rfl, hread, h⟩
  · exact (sys_not_fail h).elim
  · rw [reaches_sys hread]
    rcases r with e | (s | config | t)
    · refine ⟨.error e, rfl, ?_⟩
      dsimp only at h
      split at h
      · rw [h.of_fail.1]; rfl
      · rw [h.of_fail.1]; rfl
    · cases h.of_ret.2
    · exact ⟨_, rfl, by rw [h.of_fail.1]; rfl⟩
    · exact ⟨_, rfl, by rw [h.of_fail.1]; rfl⟩

theorem readStates_ret {ids : List String} {l : List State}
    (h : Reaches (Cloneboxd.readStates ids) tr (.ret l)) : Reads ids tr l := by
  induction ids generalizing tr l with
  | nil =>
    obtain ⟨rfl, he⟩ := h.of_ret
    cases he
    exact .nil
  | cons id ids ih =>
    obtain ⟨tr₁, tr₂, r, rfl, hread, h⟩ := h.of_bind_ret
    obtain ⟨tr₃, tr₄, l', rfl, hrest, h⟩ := h.of_bind_ret
    obtain ⟨q, hq, he⟩ := hread.of_attempt
    cases q with
    | ret s =>
      cases he
      obtain ⟨rfl, he⟩ := h.of_ret
      cases he
      rw [readStateFile_read hq, List.append_nil]
      exact .found (ih hrest)
    | fail e =>
      cases he
      obtain ⟨rfl, he⟩ := h.of_ret
      cases he
      obtain ⟨x, hx, rfl⟩ := readStateFile_unread hq
      rw [List.append_nil]
      exact .passed hx (ih hrest)
    | halt | call => cases he

theorem listHandler_ret {l : List State} (h : Reaches (Main.rpc .list).prog tr (.ret (.states l))) :
    ∃ ids tr', tr = ⟨.keys, ids⟩ :: tr' ∧ Reads ids tr' l := by
  obtain ⟨p, hp, he⟩ := h.of_mapError
  cases p with
  | ret r =>
    cases he
    obtain ⟨_, _, ids, rfl, hkeys, h⟩ := hp.of_bind_ret
    obtain ⟨tr₁, tr₂, l', rfl, hread, h⟩ := h.of_bind_ret
    obtain ⟨rfl, he⟩ := h.of_ret
    cases he
    rw [reaches_sys hkeys, List.append_nil]
    exact ⟨ids, tr₁, rfl, readStates_ret hread⟩
  | fail | halt | call => cases he

theorem Reads.not_fork {ids : List String} {l : List State} (h : Reads ids tr l) :
    ∀ ev ∈ tr, ∀ r, system.fork ev.1 r = none := by
  induction h with
  | nil => exact fun ev hev => (List.not_mem_nil hev).elim
  | found h ih | passed hx h ih => exact List.forall_mem_cons.mpr ⟨fun r => rfl, ih⟩

/-! ### The answers -/

/-- Between two configurations thread `i` has looked at the files of the containers, one after the
other. `l` are the states they held then, without those of the files that held none or that could
not be read. -/
inductive Looked (i : Nat) : SysConf → List String → List State → SysConf → Prop
  | done {c c' : SysConf} (h : Runs c c') : Looked i c [] [] c'
  | found {c c₁ c' : SysConf} {id : String} {s : State} {ids : List String} {l : List State}
    (h : Runs c c₁) (hs : c₁.world.file id = some s) (hrest : Looked i c₁ ids l c') :
    Looked i c (id :: ids) (s :: l) c'
  | passed {c c₁ c' : SysConf} {id : String} {ids : List String} {l : List State} (h : Runs c c₁)
    (hn : c₁.world.file id = none ∨
      ∃ a e, system.event c₁ a = some (i, ⟨.read (stateJson id), .error e⟩))
    (hrest : Looked i c₁ ids l c') : Looked i c (id :: ids) l c'

theorem Looked.earlier {ids : List String} {l : List State} (hrun : Runs c c₀)
    (h : Looked i c₀ ids l c') : Looked i c ids l c' := by
  cases h with
  | done h => exact .done (hrun.trans h)
  | found h hs hrest => exact .found (hrun.trans h) hs hrest
  | passed h hn hrest => exact .passed (hrun.trans h) hn hrest

theorem event_read {a : SysAction} {x : Io Content}
    (he : system.event c a = some (i, ⟨.read (stateJson id), x⟩)) :
    (∀ s, parsed x = some s → c.world.file id = some s) ∧
      (parsed x = none → c.world.file id = none ∨ ∃ e, x = .error e) := by
  obtain ⟨th, k, ch, w, rfl, hi, hst, hp, hx, -⟩ := Machine.event_some he
  change c.world.exec i (.read (stateJson id)) ch = some (x, w) at hx
  refine ⟨(World.exec_read hx).2, fun hnone => ?_⟩
  cases hf : c.world.file id with
  | none => exact .inl rfl
  | some s =>
    cases x with
    | error e => exact .inr ⟨e, rfl⟩
    | ok content =>
      cases ch with
      | err e => simp [World.exec, Op.failure] at hx
      | part e => simp [World.exec, World.runPart] at hx
      | run n =>
        have hread : c.world.exec i (.read (stateJson id)) (.run n) = some (.ok (.state s), c.world) :=
          World.run_read hf i
        cases hread.symm.trans hx
        cases hnone

theorem looked_of_answers {ids : List String} {l : List State} (hr : Reads ids tr l)
    (h : Machine.Answers system (fun _ _ => True) i c tr c') : Looked i c ids l c' := by
  induction hr generalizing c with
  | nil => exact .done h.steps
  | found hr ih =>
    cases h with
    | cons hrun ha he hs hrest =>
      exact .found hrun ((event_read he).1 _ rfl) ((ih hrest).earlier (.tail .refl ha hs))
  | passed hx hr ih =>
    cases h with
    | cons hrun ha he hs hrest =>
      refine .passed hrun ?_ ((ih hrest).earlier (.tail .refl ha hs))
      rcases (event_read he).2 hx with hnone | ⟨e, rfl⟩
      · exact .inl hnone
      · exact .inr ⟨_, e, he⟩

theorem Looked.sublist {ids : List String} {l : List State} (h : Looked i c ids l c')
    (hnamed : ∀ (c₁ : SysConf) id s, Runs c c₁ → c₁.world.file id = some s → s.id = id) :
    (l.map (·.id)).Sublist ids := by
  induction h with
  | done h => exact .slnil
  | found h hs hrest ih =>
    rw [List.map_cons, hnamed _ _ _ h hs]
    exact (ih fun c₁ id s hrun => hnamed c₁ id s (h.trans hrun)).cons_cons _
  | passed h hn hrest ih => exact (ih fun c₁ id s hrun => hnamed c₁ id s (h.trans hrun)).cons _

theorem traced_fresh (h : Runs (fresh w) c) : Machine.Traced system c := by
  refine Steps.invariant h (fun c a c' ht _ hs => Machine.Traced.step ht hs) fun i th hi => ?_
  simp at hi

theorem event_keys {a : SysAction} {ids : List String}
    (he : system.event c a = some (i, ⟨.keys, ids⟩)) : ids = c.world.daemon.containers.keys := by
  obtain ⟨th, k, ch, w, rfl, hi, hst, hp, hx, -⟩ := Machine.event_some he
  change c.world.exec i .keys ch = some (ids, w) at hx
  cases ch with
  | run n => exact (Prod.mk.inj (Option.some.inj hx)).1.symm
  | err e | part e => cases hx

theorem runs_of_byName (h : Steps system.step ByName c c') : Runs c c' := h.mono fun _ _ _ => trivial

/-- The state that a client is told is one that the file of the container has held while the request
was being served, and it bears the container's name. -/
theorem state_reply {s : State} (hw : ∀ s, w.file id = some s → s.Names id)
    (h₀ : Steps system.step ByName (fresh w) c₀) (hrun : Steps system.step ByName c₀ c)
    (hnew : c₀.threads[i]? = none) (hi : c.threads[i]? = some th)
    (hm : th.main = .rpc (.state id)) (hr : reply th = some (.state s)) :
    s.Names id ∧ ∃ c₁, Runs c₀ c₁ ∧ Runs c₁ c ∧ c₁.world.file id = some s := by
  replace h₀ := runs_of_byName h₀
  replace hrun := runs_of_byName hrun
  have htraced : Reaches th.main.prog th.trace th.prog := traced_fresh (h₀.trans hrun) i th hi
  rw [hm, reply_some hr] at htraced
  have htr := stateHandler_ret htraced
  have hans := Machine.answers_of_steps hrun hnew hi fun ev hev r => by
    obtain rfl := List.mem_singleton.mp (htr ▸ hev)
    rfl
  rw [htr] at hans
  cases hans with
  | cons hbefore ha he hs hrest =>
    have hfile := (event_read he).1 s rfl
    have hrest := (Steps.tail .refl ha hs).trans hrest.steps
    exact ⟨(named_run hw (h₀.trans hbefore)).file s hfile, _, hbefore, hrest, hfile⟩

/-- A container that was created is asked for. -/
theorem state_reply_sample :
    ∃ (c₀ c₁ c : SysConf) (s : State), Runs (fresh daemonHost) c₀ ∧ Runs c₀ c₁ ∧
    Runs c₁ c ∧ c₁.world.file "c" = some s ∧ ∃ th ∈ c.threads[2]?, reply th = some (.state s) := by
  have h : ∃ c₀ ∈ runActions system.step ByName (fresh daemonHost) (superviseShim "c"),
      c₀.threads.length = 2 ∧
      ∃ c ∈ runActions system.step ByName c₀ [.invoke (.rpc (.state "c")), go 2],
        ∃ th ∈ c.threads[2]?, th.main = .rpc (.state "c") ∧
          ∃ s ∈ c.world.file "c", reply th = some (.state s) := by
    decide +kernel
  obtain ⟨c₀, hrun₀, hlen, c, hrun, th, hi, hm, s, -, hr⟩ := h
  have hrun₀ := Steps.of_runActions hrun₀
  have hnone : ∀ s, daemonHost.file "c" = some s → s.Names "c" := by
    intro s hs
    cases hs
  obtain ⟨-, c₁, hbefore, hafter, hfile⟩ := state_reply hnone hrun₀ (.of_runActions hrun)
    (List.getElem?_eq_none hlen.le) hi hm hr
  exact ⟨c₀, c₁, c, s, runs_of_byName hrun₀, hbefore, hafter, hfile, th, hi, hr⟩

/-- A client that asks for all containers is told of each in the daemon's map at most once, in the
order of the map, and of each the state that its file held when the daemon came to it. A container
is left out only if its file was missing or could not be read then. -/
theorem list_reply {l : List State} (hw : ∀ id s, w.file id = some s → s.Names id)
    (h₀ : Steps system.step ByName (fresh w) c₀) (hrun : Steps system.step ByName c₀ c)
    (hnew : c₀.threads[i]? = none) (hi : c.threads[i]? = some th) (hm : th.main = .rpc .list)
    (hr : reply th = some (.states l)) :
    ∃ c₁, Runs c₀ c₁ ∧ Looked i c₁ c₁.world.daemon.containers.keys l c ∧
      (l.map (·.id)).Sublist c₁.world.daemon.containers.keys ∧ (l.map (·.id)).Nodup := by
  replace h₀ := runs_of_byName h₀
  replace hrun := runs_of_byName hrun
  have htraced : Reaches th.main.prog th.trace th.prog := traced_fresh (h₀.trans hrun) i th hi
  rw [hm, reply_some hr] at htraced
  obtain ⟨ids, tr, htr, hreads⟩ := listHandler_ret htraced
  have hans := Machine.answers_of_steps hrun hnew hi fun ev hev r => by
    rw [htr] at hev
    rcases List.mem_cons.mp hev with rfl | hev
    · rfl
    · exact hreads.not_fork ev hev r
  rw [htr] at hans
  cases hans with
  | @cons _ c₁ _ _ _ _ _ hbefore ha he hs hrest =>
    obtain rfl := event_keys he
    have hlooked := (looked_of_answers hreads hrest).earlier (.tail .refl ha hs)
    have hsub := hlooked.sublist fun c₂ id s h₂ hfile =>
      ((named_run (hw id) ((h₀.trans hbefore).trans h₂)).file s hfile).own
    exact ⟨c₁, hbefore, hlooked, hsub, hsub.nodup c₁.world.daemon.containers.keys_nodup⟩

/-- A running container is listed. -/
theorem list_reply_sample : ∃ (c₁ c : SysConf) (l : List State), Runs (fresh daemonHost) c₁ ∧
    Looked 4 c₁ c₁.world.daemon.containers.keys l c ∧ l.map (·.id) = ["c"] := by
  have h : ∃ c₀ ∈ runActions system.step ByName (fresh daemonHost) (runningContainer "c"),
      c₀.threads.length = 4 ∧
      ∃ c ∈ runActions system.step ByName c₀ ([.invoke (.rpc .list)] ++ goes 2 4),
        ∃ th ∈ c.threads[4]?, th.main = .rpc .list ∧
          ∃ s ∈ c.world.file "c", s.id = "c" ∧ reply th = some (.states [s]) := by
    decide +kernel
  obtain ⟨c₀, hrun₀, hlen, c, hrun, th, hi, hm, s, -, hid, hr⟩ := h
  have hrun₀ := Steps.of_runActions hrun₀
  have hnone : ∀ id s, daemonHost.file id = some s → s.Names id := by
    intro id s hs
    cases hs
  obtain ⟨c₁, hbefore, hlooked, -⟩ := list_reply hnone hrun₀ (.of_runActions hrun)
    (List.getElem?_eq_none hlen.le) hi hm hr
  exact ⟨c₁, c, [s], (runs_of_byName hrun₀).trans hbefore, hlooked, by rw [List.map_singleton, hid]⟩

end Clonebox
