import Clonebox.Requests.Map
import Clonebox.System.Sockets

/-! # The start of the daemon as one step

The system takes the start of the daemon as one step in which it reads all state files at once and
listens for events. `main` reads one after the other, and others may act in between. If the files
that are there are left as they are while a daemon loads them, what becomes of the system is the
same. -/

namespace Clonebox
open Conc

variable {s s' : SysConf} {b : SysAction} {w w' : World} {c c' : HostConf} {h h' : Host} {i : Nat}
  {g : BootPhase} {d d' : Option (Nat × BootPhase)}

/-! ### What loads -/

namespace Daemon

variable {alive alive' : Int → Bool}

theorem recover_append {dir dir' : List (String × Option State)} {m : Daemon} :
    m.recover alive (dir ++ dir') = (m.recover alive dir).recover alive dir' := by
  induction dir generalizing m with
  | nil => rfl
  | cons x dir ih =>
    obtain ⟨fileName, parsed⟩ := x
    exact ih

/-- Recovery looks at the processes that the files name, and at no others. -/
theorem recover_congr {dir : List String} {file file' : String → Option State} {m : Daemon}
    (h : ∀ name ∈ dir, ∃ s,
      file name = some s ∧ file' name = some s ∧ ∀ p ∈ s.pid, alive' p = alive p) :
    m.recover alive' (dir.map fun name => (name, file' name)) =
      m.recover alive (dir.map fun name => (name, file name)) := by
  induction dir generalizing m with
  | nil => rfl
  | cons name dir ih =>
    obtain ⟨s, hf, hf', hp⟩ := h name List.mem_cons_self
    have hstate : recoveredState alive' s = recoveredState alive s := by
      unfold recoveredState
      split
      · rename_i p hpid
        rw [hp p hpid]
      · rfl
    simp only [List.map_cons, recover, hf, hf', recoverEntry, hstate]
    exact ih fun name hname => h name (List.mem_cons_of_mem _ hname)

end Daemon

/-! ### The system without a daemon -/

/-- No daemon is there: none of its requests runs, and its map is empty. -/
structure Down (s : SysConf) : Prop where
  up : s.world.up = false
  empty : s.world.daemon.containers = ∅
  halted : ∀ (i : Nat) th, s.threads[i]? = some th → th.main.isRpc = true → th.stopped = true

theorem Down.entry (hd : Down s) (id : String) : s.world.daemon.entry id = none := by
  rw [Daemon.entry, hd.empty]
  rfl

theorem Daemon.modify_of_none {m : Daemon} {id : String} {f : ContainerEntry → ContainerEntry}
    (h : m.entry id = none) : m.modify id f = m := by
  simp only [modify, h]

theorem Daemon.removeStopped_of_none {m : Daemon} {id : String} (h : m.entry id = none) :
    m.removeStopped id = m := by
  simp only [removeStopped, h]

theorem isRpc_of_handler {m : Main} {id configPath : String} (h : m.kind = .handler id configPath) :
    m.isRpc = true := by
  cases m with
  | rpc => rfl
  | _ => cases h

/-- Nothing but its start changes the map of a daemon that is not there. -/
theorem Down.map_step (hd : Down s) (hc : Conforming s) (hb : ∀ dir, b ≠ .env (.daemonStart dir))
    (hs : system.step s b = some s') : s'.world.daemon = s.world.daemon := by
  have hmap : MapChange s b s'.world.daemon := step_map hc hs
  generalize s'.world.daemon = m at hmap
  cases hmap with
  | same => rfl
  | inserted he hi hk hg =>
    obtain ⟨th, k, ch, w, -, hi', hst, -⟩ := Machine.event_some he
    cases hi.symm.trans hi'
    have hstopped := hd.halted _ _ hi (isRpc_of_handler hk)
    rw [hst] at hstopped
    cases hstopped
  | turned | killed | waits => exact Daemon.modify_of_none (hd.entry _)
  | removed => exact Daemon.removeStopped_of_none (hd.entry _)
  | delivered => exact Daemon.updateStatus_of_none _ _ (hd.entry _)
  | stopped =>
    rw [← hd.empty]
  | started ha => exact (hb _ ha).elim

theorem Down.step (hd : Down s) (hc : Conforming s) (hb : ∀ dir, b ≠ .env (.daemonStart dir))
    (hs : system.step s b = some s') : Down s' := by
  refine ⟨?_, by rw [hd.map_step hc hb hs, hd.empty], fun i th hi hrpc => ?_⟩
  · rcases step_world hs with ⟨i, op, r, ch, -, hx⟩ | e | ⟨e, rfl, he⟩ | ⟨t, -, e⟩
    · rw [World.exec_up hx, hd.up]
    · rw [e, hd.up]
    · generalize s'.world = w at he
      cases e with
      | exit pid status =>
        cases he
        exact hd.up
      | reap pid =>
        cases he
        exact hd.up
      | deliver k =>
        simp only [World.env] at he
        split at he <;> cases he
        exact hd.up
      | daemonStop =>
        cases he
        rfl
      | daemonStart dir => exact (hb dir rfl).elim
    · rw [e]
      exact hd.up
  · cases Machine.step_origin hs hi with
    | same h => exact hd.halted i th h hrpc
    | stopped h e => rw [e]; rfl
    | answered ha h hst hp hx e =>
      subst e
      rw [hd.halted i _ h hrpc] at hst
      cases hst
    | @invoked m ha h hm e =>
      subst e
      have hup : (!m.isRpc || s.world.up) = true := hm
      have hrpc : m.isRpc = true := hrpc
      rw [hd.up, hrpc] at hup
      cases hup
    | forked ha ht hst hp hx hf h e =>
      subst e
      rw [hd.halted _ _ ht hrpc] at hst
      cases hst
    | @spawned t th' op k r m ch ha ht hst hp hx hsp h e =>
      subst e
      cases op <;> simp only [system, spawned, reduceCtorEq] at hsp
      cases r <;> simp only [Option.some.injEq, reduceCtorEq] at hsp
      subst hsp
      cases hrpc

/-! ### A daemon that loads its map -/

/-- What the loop has found of a file is so. -/
def Scan.Holds (w : World) : Scan → Prop
  | .idle => True
  | .found name s => w.file name = some s
  | .checked name s alive => w.file name = some s ∧ ∀ p ∈ s.pid, w.hasPid p = alive

/-- The state files that are there stay as they are, and so do the processes they name. -/
def KeepsFiles (w w' : World) : Prop :=
  ∀ id s, w.file id = some s → w'.file id = some s ∧ ∀ p ∈ s.pid, w'.hasPid p = w.hasPid p

theorem KeepsFiles.refl : KeepsFiles w w := fun _ _ hf => ⟨hf, fun _ _ => rfl⟩

theorem Scan.Holds.keep {scan : Scan} (h : scan.Holds w) (hk : KeepsFiles w w') : scan.Holds w' := by
  cases scan with
  | idle => trivial
  | found name s => exact (hk name s h).1
  | checked name s alive =>
    obtain ⟨hf, hp⟩ := hk name s h.1
    exact ⟨hf, fun p hpid => (hp p hpid).trans (h.2 p hpid)⟩

/-- What is entered for a file is what `recover` enters for it now. -/
theorem Scan.Holds.entry {scan : Scan} {name : String} {e : ContainerEntry} (h : scan.Holds w)
    (he : scan.entry = some (name, e)) :
    ∃ s, w.file name = some s ∧ e = ⟨(recoveredState w.hasPid s).getState, none, []⟩ := by
  cases scan with
  | idle => cases he
  | found name' s =>
    simp only [Scan.entry] at he
    split at he
    · rename_i hpid
      cases he
      exact ⟨s, h, by simp [recoveredState, hpid]⟩
    · cases he
  | checked name' s alive =>
    cases he
    refine ⟨s, h.1, ?_⟩
    unfold recoveredState
    split
    · rename_i p hpid
      rw [h.2 p hpid]
    · rfl

/-- The map is what `recover` makes of some of the files at once. -/
structure Loading (h : Host) (scan : Scan) : Prop where
  down : Down h.sys
  map : ∃ (x : Instance) (dir : List String), h.inst = some x ∧ x.accepts = false ∧
    (∀ name ∈ dir, ∃ s, h.sys.world.file name = some s) ∧
    x.daemon = h.sys.world.daemon.recover h.sys.world.hasPid
      (dir.map fun name => (name, h.sys.world.file name))
  scan : scan.Holds h.sys.world

theorem Loading.keep {scan : Scan} (hl : Loading h scan) (hdown : Down h'.sys)
    (hinst : h'.inst = h.inst)
    (hsame : h'.sys.world.daemon = h.sys.world.daemon) (hk : KeepsFiles h.sys.world h'.sys.world) :
    Loading h' scan := by
  obtain ⟨x, dir, hx, hacc, hdir, hmap⟩ := hl.map
  refine ⟨hdown, ⟨x, dir, hinst.trans hx, hacc, fun name hname => ?_, ?_⟩, hl.scan.keep hk⟩
  · obtain ⟨s, hf⟩ := hdir name hname
    exact ⟨s, (hk name s hf).1⟩
  · rw [hmap, hsame]
    refine (Daemon.recover_congr fun name hname => ?_).symm
    obtain ⟨s, hf⟩ := hdir name hname
    exact ⟨s, hf, hk name s hf⟩

theorem Loading.enter {scan : Scan} {name : String} {e : ContainerEntry} (hl : Loading h scan)
    (he : scan.entry = some (name, e)) :
    Loading (h.setInst fun x => { x with daemon := x.daemon.orInsert name e }) .idle := by
  obtain ⟨x, dir, hx, hacc, hdir, hmap⟩ := hl.map
  obtain ⟨s, hf, hentry⟩ := hl.scan.entry he
  refine ⟨hl.down, ⟨{ x with daemon := x.daemon.orInsert name e }, dir ++ [name], ?_, hacc,
    fun name' hname => ?_, ?_⟩, trivial⟩
  · rw [Host.setInst_inst, hx]
    rfl
  · rcases List.mem_append.mp hname with hname | hname
    · exact hdir name' hname
    · rw [List.mem_singleton.mp hname]
      exact ⟨s, hf⟩
  · rw [List.map_append, Daemon.recover_append, Host.setInst_sys, ← hmap]
    simp [Daemon.recover, Daemon.recoverEntry, hf, hentry]

/-- While a daemon loads its map, the state files that are there are left as they are. -/
def LeavesFiles (c : HostConf) : HostAction → Prop
  | .env b => ∀ x ∈ c.world.inst, x.accepts = false → c.world.sys.world.up = false →
      ∀ s, system.step c.world.sys b = some s → KeepsFiles c.world.sys.world s.world
  | _ => True

theorem Host.down_step (h : Host) : system.step h.sys (.env .daemonStop) = some h.down.sys := rfl

theorem Host.down_down (h : Host) : Down h.down.sys := by
  refine ⟨rfl, rfl, fun i th hi hrpc => ?_⟩
  change (h.sys.threads.map fun th => if th.main.isRpc then th.stop else th)[i]? = some th at hi
  rw [List.getElem?_map] at hi
  obtain ⟨th', -, rfl⟩ := Option.map_eq_some_iff.mp hi
  split
  · rfl
  · rename_i hnot
    rw [if_neg hnot] at hrpc
    exact (hnot hrpc).elim

theorem Host.down_keeps (h : Host) : KeepsFiles h.sys.world h.down.sys.world :=
  fun _ _ hf => ⟨hf, fun _ _ => rfl⟩

/-- What a run of the system has made of the host, and of the map of a daemon that does not yet
listen. -/
structure Mirrored (w : World) (h : Host) (d : Option (Nat × BootPhase)) : Prop where
  run : Steps system.step (fun _ _ => True) (fresh w) h.sys
  vacant : d = none → Down h.sys
  launched : ∀ i g, d = some (i, g) → g.stage = .launched → Down h.sys ∧ g.scan = .idle
  loading : ∀ i g, d = some (i, g) → g.stage = .loading ∨ g.stage = .scanning → Loading h g.scan

namespace Mirrored

variable {g' : BootPhase}

theorem conforming (hm : Mirrored w h d) : Conforming h.sys :=
  (run_invariant (I := fun _ => True) hm.run (conforming_fresh w) trivial fun _ _ _ _ _ _ _ => trivial).1

/-- A call that changes neither the map nor what has been found. -/
theorem quiet (hm : Mirrored w h (some (i, g))) (hsys : h'.sys = h.sys ∨ h'.sys = h.down.sys)
    (hinst : h'.inst = h.inst) (hstage : g'.stage = g.stage) (hscan : g'.scan = g.scan) :
    Mirrored w h' (some (i, g')) := by
  have hrun : Steps system.step (fun _ _ => True) (fresh w) h'.sys := by
    rcases hsys with e | e
    · rw [e]
      exact hm.run
    · rw [e]
      exact hm.run.tail trivial h.down_step
  refine ⟨hrun, fun he => (by cases he), fun i' g'' he hst => ?_, fun i' g'' he hst => ?_⟩
  · cases he
    rw [hstage] at hst
    rw [hscan]
    obtain ⟨hdown, hidle⟩ := hm.launched i g rfl hst
    rcases hsys with e | e
    · rw [e]
      exact ⟨hdown, hidle⟩
    · rw [e]
      exact ⟨h.down_down, hidle⟩
  · cases he
    rw [hstage] at hst
    rw [hscan]
    have hl := hm.loading i g rfl hst
    rcases hsys with e | e
    · refine hl.keep (by rw [e]; exact hl.down) hinst (by rw [e]) ?_
      rw [e]
      exact .refl
    · refine hl.keep (by rw [e]; exact h.down_down) hinst ?_ (by rw [e]; exact h.down_keeps)
      rw [e]
      exact hl.down.map_step hm.conforming (fun _ he => by cases he) h.down_step

/-- A daemon that has begun to listen. -/
theorem of_later (hrun : Steps system.step (fun _ _ => True) (fresh w) h'.sys)
    (hstage : g'.stage ≠ .launched ∧ g'.stage ≠ .loading ∧ g'.stage ≠ .scanning) :
    Mirrored w h' (some (i, g')) := by
  refine ⟨hrun, fun he => (by cases he), fun i' g'' he hst => ?_, fun i' g'' he hst => ?_⟩
  · cases he
    exact (hstage.1 hst).elim
  · cases he
    rcases hst with hst | hst
    · exact (hstage.2.1 hst).elim
    · exact (hstage.2.2 hst).elim

/-- The system takes the start of the daemon as the one step in which it is reached. -/
theorem reached (hm : Mirrored w h (some (i, g))) (hst : g.stage = .scanning) :
    Steps system.step (fun _ _ => True) (fresh w) h.reachable.sys := by
  have hl := hm.loading i g rfl (.inr hst)
  obtain ⟨x, dir, hx, -, -, hmap⟩ := hl.map
  refine hm.run.tail (a := .env (.daemonStart dir)) trivial ?_
  have henv : h.sys.world.env (.daemonStart dir) = some h.reachable.sys.world := by
    simp only [World.env, hl.down.up, Bool.false_eq_true, if_false, Host.reachable, hx, hmap]
  have hthreads : h.reachable.sys.threads = h.sys.threads := by
    simp only [Host.reachable, hx]
  have hsame : (h.sys.threads.map fun th =>
      if system.halts (.daemonStart dir) th.main then th.stop else th) = h.sys.threads := List.map_id _
  have henv : system.env h.sys.world (.daemonStart dir) = some h.reachable.sys.world := henv
  simp only [Machine.step, henv]
  rw [hsame, ← hthreads]

theorem bound {p : String} {r : Io Unit} {ch : BootChoice} (hm : Mirrored w h (some (i, g)))
    (hmay : g.may (.bind p)) (hx : h.exec i (.bind p) ch = some (r, h')) :
    Mirrored w h' (some (i, g.next (.bind p) r)) := by
  have hne : Cloneboxd.clientSocket ≠ getEventSocketPath := by decide
  rcases Host.exec_bind hx with ⟨rfl, e, rfl⟩ | ⟨rfl, -, hinst, hsys⟩
  · exact hm.quiet (.inl rfl) rfl rfl rfl
  · rcases hmay.2 with ⟨rfl, -⟩ | ⟨rfl, hscanned⟩
    · rw [if_neg hne] at hsys
      exact hm.quiet (.inl hsys) hinst (by simp [BootPhase.next, hne]) rfl
    · rw [if_pos rfl] at hsys
      refine of_later ?_ (by simp [BootPhase.next])
      rw [hsys]
      exact hm.reached hscanned.stage

/-- A daemon that loads its map. -/
theorem of_loading (hrun : Steps system.step (fun _ _ => True) (fresh w) h'.sys)
    (hstage : g'.stage = .loading ∨ g'.stage = .scanning) (hl : Loading h' g'.scan) :
    Mirrored w h' (some (i, g')) := by
  refine ⟨hrun, fun he => (by cases he), fun i' g'' he hst => ?_, fun i' g'' he hst => ?_⟩
  · cases he
    rw [hst] at hstage
    rcases hstage with e | e <;> cases e
  · cases he
    exact hl

theorem call {op : MainOp} {r : op.Ret} {ch : BootChoice} (hm : Mirrored w h (some (i, g)))
    (hmay : g.may op) (hx : h.exec i op ch = some (r, h')) (hlive : (g.next op r).stage ≠ .ended) :
    Mirrored w h' (some (i, g.next op r)) := by
  cases op with
  | createDirAll | setPermissions =>
    obtain rfl := Host.exec_looks rfl hx
    exact hm.quiet (.inl rfl) rfl rfl rfl
  | new =>
    cases ch with
    | err e => cases hx
    | run l =>
      cases hx
      obtain ⟨hdown, hidle⟩ := hm.launched i g rfl hmay
      refine of_loading hm.run (.inl rfl) ⟨hdown, ⟨_, [], rfl, rfl, fun name hname => ?_, ?_⟩, ?_⟩
      · cases hname
      · simp only [List.map_nil, Daemon.recover, ← hdown.empty]
      · change g.scan.Holds _
        rw [hidle]
        trivial
  | removeFile p =>
    rcases Host.exec_removeFile hx with ⟨rfl, -⟩ | ⟨-, -, hinst, hsys⟩
    · exact hm.quiet (.inl rfl) rfl rfl rfl
    · exact hm.quiet hsys hinst rfl rfl
  | bind p => exact hm.bound hmay hx
  | readDir p =>
    obtain rfl := Host.exec_looks rfl hx
    cases r with
    | error e => exact hm.quiet (.inl rfl) rfl rfl rfl
    | ok listing => exact of_loading hm.run (.inr rfl) (hm.loading i g rfl (.inl hmay))
  | readToString p =>
    obtain ⟨hstage, hidle, name, hname, rfl⟩ := hmay
    obtain rfl := Host.exec_looks rfl hx
    have hfile := (Host.exec_readToString hx).1
    rcases r with e | (s | config | t)
    · exact hm.quiet (.inl rfl) rfl rfl rfl
    · have hhead : g.todo.head? = some name := hname
      have hl := hm.loading i g rfl (.inr hstage)
      refine of_loading hm.run (.inr hstage) ⟨hl.down, hl.map, ?_⟩
      simp only [BootPhase.next, hhead]
      exact hfile s rfl
    · exact hm.quiet (.inl rfl) rfl rfl rfl
    · exact hm.quiet (.inl rfl) rfl rfl rfl
  | procExists pid =>
    obtain ⟨hstage, name, s, hscan, hpid⟩ := hmay
    obtain rfl := Host.exec_looks rfl hx
    have halive := Host.exec_procExists hx
    have hl := hm.loading i g rfl (.inr hstage)
    have hfile := hl.scan
    rw [hscan] at hfile
    refine of_loading hm.run (.inr hstage) ⟨hl.down, hl.map, ?_⟩
    simp only [BootPhase.next, hscan]
    refine ⟨hfile, fun p hp => ?_⟩
    cases hpid.symm.trans hp
    exact halive
  | orInsert name e =>
    obtain ⟨hstage, hentry⟩ := hmay
    cases ch with
    | err e => cases hx
    | run l =>
      cases hx
      exact of_loading hm.run (.inr hstage) ((hm.loading i g rfl (.inr hstage)).enter hentry)
  | eventLoop =>
    have hstage : g.stage = .serving := BootPhase.Listens.stage hmay
    cases ch with
    | err e => cases hx
    | run l =>
      cases hx
      exact of_later hm.run (by simp [BootPhase.next, hstage])
  | serve =>
    have hstage : g.stage = .serving := BootPhase.Listens.stage hmay
    cases ch with
    | err e | run l =>
      cases hx
      exact of_later hm.run (by simp [BootPhase.next, hstage])
  | shutdown =>
    have hstage : g.stage = .serving := BootPhase.Listens.stage hmay
    obtain rfl := Host.exec_looks rfl hx
    cases r with
    | error e => exact of_later hm.run (by simp [BootPhase.next, hstage])
    | ok _ => exact of_later hm.run (by simp [BootPhase.next])
  | exit | panic => exact (hlive rfl).elim

theorem congr (hm : Mirrored w h d) (hsys : h'.sys = h.sys) (hinst : h'.inst = h.inst) :
    Mirrored w h' d := by
  refine ⟨?_, fun he => ?_, fun i g he hst => ?_, fun i g he hst => ?_⟩
  · rw [hsys]
    exact hm.run
  · rw [hsys]
    exact hm.vacant he
  · rw [hsys]
    exact hm.launched i g he hst
  · have hl := hm.loading i g he hst
    refine hl.keep ?_ hinst ?_ ?_
    · rw [hsys]
      exact hl.down
    · rw [hsys]
    · rw [hsys]
      exact .refl

theorem rest (hm : Mirrored w h d) (hb : h.allows b = true) (hs : system.step h.sys b = some s)
    (hk : ∀ x ∈ h.inst, x.accepts = false → h.sys.world.up = false → KeepsFiles h.sys.world s.world) :
    Mirrored w { h with sys := s } d := by
  have hstart : ∀ dir, b ≠ .env (.daemonStart dir) := by
    intro dir he
    rw [he] at hb
    cases hb
  refine ⟨hm.run.tail trivial hs, fun he => ?_, fun i g he hst => ?_, fun i g he hst => ?_⟩
  · exact (hm.vacant he).step hm.conforming hstart hs
  · obtain ⟨hdown, hidle⟩ := hm.launched i g he hst
    exact ⟨hdown.step hm.conforming hstart hs, hidle⟩
  · have hl := hm.loading i g he hst
    obtain ⟨x, dir, hx, hacc, -⟩ := hl.map
    exact hl.keep (hl.down.step hm.conforming hstart hs) rfl (hl.down.map_step hm.conforming hstart hs)
      (hk x hx hacc hl.down.up)

/-- The end of a daemon is the step of the system in which it goes down, unless it had not begun. -/
theorem ended (hm : Mirrored w h (some (i, g))) (ho : HasSockets i h g) :
    Mirrored w (h.finish i) none := by
  have hend : Steps system.step (fun _ _ => True) (fresh w) (h.finish i).sys ∧ Down (h.finish i).sys := by
    by_cases hst : g.stage = .launched
    · have hnone : h.inst.map (·.owner) ≠ some i := by
        rw [ho.owner, if_pos hst]
        simp
      rw [(Host.finish_other hnone).1]
      exact ⟨hm.run, (hm.launched i g rfl hst).1⟩
    · have howner : h.inst.map (·.owner) = some i := by
        rw [ho.owner, if_neg hst]
      have hsys : (h.finish i).sys = h.down.sys := by
        obtain ⟨x, hx, hxi⟩ := Option.map_eq_some_iff.mp howner
        simp [Host.finish, hx, hxi, Host.down]
      rw [hsys]
      exact ⟨hm.run.tail trivial h.down_step, h.down_down⟩
  refine ⟨hend.1, fun _ => hend.2, fun i g he => ?_, fun i g he => ?_⟩
  · cases he
  · cases he

theorem change {a : HostAction} (hm : Mirrored w c.world d) (ht : Tidy c.world d)
    (hok : LeavesFiles c a) (hch : HostChange c a d h' d') : Mirrored w h' d' := by
  cases hch with
  | call hmay he hx hlive => exact hm.call hmay hx hlive
  | ended => exact hm.ended ht
  | launched =>
    refine ⟨hm.run, fun he => (by cases he), fun i g he hst => ?_, fun i g he hst => ?_⟩
    · cases he
      exact ⟨hm.vacant rfl, rfl⟩
    · cases he
      rcases hst with hst | hst <;> cases hst
  | rest ha hb hs =>
    subst ha
    exact hm.rest hb hs fun x hx hacc hup => hok x hx hacc hup _ hs
  | @late _ t hne =>
    obtain ⟨hsys, hinst⟩ := Host.finish_other (ht.not_owner hne)
    exact hm.congr hsys hinst

end Mirrored

/-- Where daemons are started one at a time and the state files that are there are left alone while
one of them loads its map, what becomes of the system is what becomes of it when a daemon starts and
ends in one step: the calls of `main`, and its end at any of them, show nothing else to the
containers and clients. -/
theorem restart_refines (hsys : h.sys = fresh w) (hup : w.up = false) (hmap : w.daemon.containers = ∅)
    (hinst : h.inst = none) (hsock : ∀ p j q, h.socket p ≠ .listening j q)
    (hrun : Steps hosts.step (fun c a => OneAtATime c a ∧ LeavesFiles c a) ⟨h, []⟩ c) :
    Steps system.step (fun _ _ => True) (fresh w) c.world.sys := by
  have hfirst : Mirrored w h none := by
    refine ⟨?_, fun _ => ⟨?_, ?_, fun i th hi => ?_⟩, fun i g he => ?_, fun i g he => ?_⟩
    · rw [hsys]
      exact .refl
    · rw [hsys, hup]
    · rw [hsys, hmap]
    · rw [hsys] at hi
      simp at hi
    · cases he
    · cases he
  obtain ⟨-, d, -, hm, -⟩ := hosted_run (I := fun c d => Mirrored w c.world d ∧ Tidy c.world d)
    (fun _ _ h => h.1) hrun ⟨hfirst, ⟨hinst, hsock⟩⟩
    fun _ _ _ _ _ _ hok _ _ _ hch h => ⟨h.1.change h.2 hok.2 hch, h.2.change hch⟩
  exact hm.run

/-- The rest of the system acts while a daemon is there to be reached, and not else. -/
def WhileUp (c : HostConf) (a : HostAction) : Prop :=
  OneAtATime c a ∧ match a with
    | .env _ => c.world.sys.world.up = true
    | _ => True

instance {a : HostAction} : Decidable (WhileUp c a) :=
  match a with
  | .env _ => inferInstanceAs (Decidable (OneAtATime c _ ∧ c.world.sys.world.up = true))
  | .call _ _ | .invoke _ | .crash _ => inferInstanceAs (Decidable (OneAtATime c _ ∧ True))

theorem WhileUp.leaves {a : HostAction} (h : WhileUp c a) : OneAtATime c a ∧ LeavesFiles c a := by
  refine ⟨h.1, ?_⟩
  cases a with
  | env b =>
    intro x hx hacc hdown
    rw [h.2] at hdown
    cases hdown
  | call | invoke | crash => trivial

/-- The application directory with one container in it. -/
def oneListed : List DirEntry := [.item (.ok true) (some "c"), .item (.ok false) (some "clonebox.sk")]

/-- A daemon is killed when it has a running container, and another is started. -/
def crashAndStart : List HostAction :=
  [.invoke ()] ++ boots 10 0 [] ++ (superviseShim "c" ++ begin "c" 5).map .env ++ [.crash 0, .invoke ()]

/-- It finds the container. -/
theorem restart_refines_sample : ∃ c : HostConf,
    Steps hosts.step WhileUp ⟨leftHost sampleHost, []⟩ c ∧
    Steps system.step (fun _ _ => True) (fresh sampleHost) c.world.sys ∧
    (∃ th ∈ c.threads[1]?, serving th = true) ∧
    ∃ e ∈ c.world.sys.world.entry "c", e.state = .running := by
  have h : ∃ c ∈ runActions hosts.step WhileUp ⟨leftHost sampleHost, []⟩
        (crashAndStart ++ boots 13 1 oneListed),
      (∃ th ∈ c.threads[1]?, serving th = true) ∧
      ∃ e ∈ c.world.sys.world.entry "c", e.state = .running := by
    decide +kernel
  obtain ⟨c, hrun, hserving, hentry⟩ := h
  have hrun := Steps.of_runActions hrun
  have hnone : ∀ p j q, (leftHost sampleHost).socket p ≠ .listening j q := by
    intro p j q hl
    cases hl
  exact ⟨c, hrun, restart_refines rfl rfl rfl rfl hnone (hrun.mono fun _ _ h => h.leaves), hserving, hentry⟩

end Clonebox
