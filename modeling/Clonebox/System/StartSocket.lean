import Clonebox.Core.Calls
import Clonebox.System.Run

/-! # The start socket

What each call makes of the socket and of the connections queued at it; whose socket it is; and
which calls a `start` makes until it has connected. -/

namespace Clonebox
open Conc Prog

variable {id : String} {c c' : SysConf} {a : SysAction} {w w' : World} {t i : Nat} {op : Op} {ch : Choice}
  {r : op.Ret}

/-! ### The calls of `start` -/

/-- The calls that a `start` of the container makes. -/
def startCalls (id : String) : Op → Prop
  | .read p => p = stateJson id
  | .connect p => p = startSk id
  | .write p x => p = stateJson id ∧ ∃ s, x = .state s
  | .setEntry i _ => i = id
  | .socket => True
  | _ => False

/-- An answer that is not what `start` hopes for: an error, or a state other than `created`. -/
def mishap : Sys.Ev → Bool
  | ⟨.read _, r⟩ => !(parsed r).any (·.status = .created)
  | ⟨.socket, r⟩ | ⟨.connect _, r⟩ | ⟨.write _ _, r⟩ => !r.isOk
  | _ => false

/-- A step of `start` towards the supervisor. -/
def Op.approaches : Op → Bool
  | .socket | .connect _ => true
  | _ => false

/-- Whether a `start` has met with a mishap; if so, it does not go on to the supervisor. -/
def mishaps (id : String) : Proto Sys Bool where
  may b op := startCalls id op ∧ (b = true → op.approaches = false)
  next b op r := b || mishap ⟨op, r⟩
  halts _ := False

theorem phase_mishaps {b : Bool} {tr : List Sys.Ev} :
    (mishaps id).phase b tr = true ↔ b = true ∨ ∃ ev ∈ tr, mishap ev = true := by
  induction tr generalizing b with
  | nil => simp
  | cons ev tr ih =>
    refine ih.trans ?_
    simp [mishaps, or_assoc]

section
attribute [local simp] forall_except forall_content obeys_mapErr Prog.obeys_call Prog.ask
  Except.mapError Except.isOk Except.toBool mishaps startCalls mishap Op.approaches parsed transition
  connectCreateProcess
  getSocketFd unixAddr readStateFile updateState writeStateFile

theorem start_obeys (hfit : (getSocketPath id).str.utf8ByteSize < 108) :
    (start id).Obeys (mishaps id) (fun b r => b = true ∨ r = .ok ()) false := by
  have hfit : ¬108 ≤ (getSocketPath id).str.utf8ByteSize := Nat.not_le.mpr hfit
  simp +contextual [start, hfit]

/-- A `start` makes no other calls, and fails only if it has met with a mishap. -/
theorem startMain_obeys (hfit : (getSocketPath id).str.utf8ByteSize < 108) {m : Main}
    (hm : m.kind = .turn .start id) :
    m.prog.Obeys (mishaps id) (fun b r => b = true ∨ ∃ x, r = .ok x) false := by
  have hstart := start_obeys hfit
  cases m with
  | turn t i =>
    cases hm
    refine obeys_bind.mpr (obeys_mapError.mpr (hstart.mono fun b r hr => ?_))
    rcases hr with rfl | rfl
    · cases r <;> exact .inl rfl
    · exact .inr ⟨_, rfl⟩
  | rpc req =>
    cases req with
    | start i =>
      cases hm
      refine obeys_mapError.mpr (obeys_bind.mpr (obeys_mapError.mpr (hstart.mono fun b r hr => ?_)))
      rcases hr with rfl | rfl
      · cases r with
        | ok _ => exact ⟨⟨rfl, fun _ => rfl⟩, fun _ => .inl rfl⟩
        | error e => exact .inl rfl
      · exact ⟨⟨rfl, fun _ => rfl⟩, fun _ => .inr ⟨_, rfl⟩⟩
    | _ => cases hm
  | _ => cases hm
end

/-- A supervisor listens and waits for connections only at an address that a `start` can use too. -/
theorem listen_fits {m : Main} {cp : String} {sp : Option String} (hk : m.kind = .create id cp sp) :
    Prog.Calls (S := Sys) (fun op => op = .listen (startSk id) ∨ op = .accept4 (startSk id) →
      (getSocketPath id).str.utf8ByteSize < 108) m.prog := by
  have hcreate {cp : String} {sp : Option String} : Prog.Calls (S := Sys)
      (fun op => op = .listen (startSk id) ∨ op = .accept4 (startSk id) →
        (getSocketPath id).str.utf8ByteSize < 108) (create id cp sp) := by
    refine Prog.Calls.mono create_calls fun op h he => ?_
    rcases he with rfl | rfl
    · cases h with
      | prepares h => cases h
      | listen h => exact h
    · cases h with
      | prepares h => cases h
      | accept h => exact h
  have hsys {op : Op} (h : op.bundleOf = none) : Prog.Calls (S := Sys)
      (fun op => op = .listen (startSk id) ∨ op = .accept4 (startSk id) →
        (getSocketPath id).str.utf8ByteSize < 108) (sys op : Core _) := by
    refine ⟨fun he => ?_, fun _ => trivial⟩
    rcases he with rfl | rfl <;> cases h
  cases m with
  | create i cp' sp' =>
    cases hk
    exact (Prog.Calls.mapError hcreate).bind fun _ => trivial
  | shim i cp' s =>
    cases hk
    refine (Prog.Calls.mapError (.bind hcreate.attempt fun r => ?_)).bind fun _ => trivial
    cases r with
    | ok _ => trivial
    | error e =>
      refine .bind (Prog.Calls.attempt (.bind (Clonebox.Calls.mapErr (hsys rfl)) fun _ =>
        Clonebox.Calls.mapErr (hsys rfl))) fun r => ?_
      cases r with
      | ok _ => trivial
      | error e' => exact ⟨by simp, fun _ => trivial⟩
  | rpc req => cases req <;> cases hk
  | turn | kill | delete | state | exec => cases hk

/-! ### What a call does to the socket -/

/-- The thread that a socket goes with. -/
def Sock.maker : Sock → Option Nat
  | .bound o | .listening o _ => some o
  | .absent | .dead => none

theorem Sock.drop_of_ne {s : Sock} (h : s.maker ≠ some t) : s.drop t = s := by
  cases s with
  | bound o | listening o q => exact if_neg fun he => h (congrArg some he)
  | absent | dead => rfl

theorem Sock.maker_drop {s : Sock} {o : Nat} (h : (s.drop t).maker = some o) : s.maker = some o := by
  by_cases hs : s.maker = some t
  · cases s with
    | bound o' | listening o' q =>
      cases hs
      simp [Sock.drop, Sock.maker] at h
    | absent | dead => cases hs
  · rwa [Sock.drop_of_ne hs] at h

/-- The call fails without effect. -/
def Choice.fails : Choice → Bool
  | .err _ => true
  | _ => false

/-- What call `op` of thread `t` leaves of the start socket of the container, and of the queues
without a file. -/
inductive SockChange (w : World) (t : Nat) (id : String) (ch : Choice) : Op → Sock → (Nat → Nat) → Prop
  | same {op : Op} : SockChange w t id ch op (w.sock id) w.orphans
  | bound {f : BundleFile} (h : w.sock id = .absent) :
    SockChange w t id ch (.bind (.inBundle id f)) (.bound t) w.orphans
  | listens {f : BundleFile} (h : w.sock id = .bound t) :
    SockChange w t id ch (.listen (.inBundle id f)) (.listening t 0) w.orphans
  | connected {f : BundleFile} {o q : Nat} (h : w.sock id = .listening o q) :
    SockChange w t id ch (.connect (.inBundle id f)) (.listening o (q + 1)) w.orphans
  | taken {f : BundleFile} {q : Nat} (h : w.sock id = .listening t (q + 1)) :
    SockChange w t id ch (.accept4 (.inBundle id f)) (.listening t q) w.orphans
  | drained {p : Path} {q : Nat} :
    SockChange w t id ch (.accept4 p) (w.sock id) (Function.update w.orphans t q)
  | closed {f : BundleFile} :
    SockChange w t id ch (.close (.inBundle id f)) ((w.sock id).drop t) w.orphans
  | removed (h : ch.fails = false) :
    SockChange w t id ch (.removeDirAll (.bundle id)) .absent (w.orphaned id)
  | removedOther {id' : String} (h : id' ≠ id) :
    SockChange w t id ch (.removeDirAll (.bundle id')) (w.sock id) (w.orphaned id')

namespace World

/-- A write leaves the sockets alone. -/
theorem writeFile_sock (p : Path) (x : Content) : (w.writeFile p x).2.sock id = w.sock id := by
  unfold writeFile
  split
  · rename_i i
    split
    · rename_i b hb
      by_cases hid : id = i
      · subst hid
        simp [sock, hb]
      · rw [sock, setBundle_ne _ hid, sock]
    · rfl
  · rfl

theorem writeFile_orphans (p : Path) (x : Content) : (w.writeFile p x).2.orphans = w.orphans := by
  unfold writeFile
  split
  · split <;> rfl
  · rfl

theorem setSock_sock {b : Bundle} (hb : w.bundle id = some b) (s : Sock) :
    (w.setSock id s).sock id = s := by
  simp [setSock, sock, hb]

theorem bundle_of_maker {o : Nat} (h : (w.sock id).maker = some o) : ∃ b, w.bundle id = some b := by
  cases hb : w.bundle id with
  | none => simp [sock, hb, Sock.maker] at h
  | some b => exact ⟨b, rfl⟩

theorem unlink_sock {b : Option Bundle} (h : ∀ x ∈ b, x.startSk = .absent) :
    (w.unlink id b).sock id = .absent := by
  cases b with
  | none => simp [unlink, sock]
  | some x => simpa [unlink, sock] using h x rfl

theorem exec_orphans (h : w.exec t op ch = some (r, w')) (hop : op.bundleOf = none) :
    w'.orphans = w.orphans := by
  cases ch with
  | err e =>
    obtain ⟨_, -, he⟩ := Option.map_eq_some_iff.mp h
    cases he
    rfl
  | part e =>
    simp only [exec] at h
    unfold runPart at h
    split at h <;> cases h
    · exact writeFile_orphans _ _
    · cases hop
    · rfl
  | run n =>
    cases exec_effect h with
    | orphans he f =>
      subst he
      obtain ⟨w₁, hw, he⟩ := Option.map_eq_some_iff.mp h
      unfold accept at hw
      split at hw
      · cases hop
      · cases hw
    | bundle he => cases hop.symm.trans he
    | files | gate | cgroup | procs | event | daemon => rfl

theorem makeDirs_sock (p : Path) : (w.makeDirs p).sock id = w.sock id := by
  have hset (i : String) :
      (w.setBundle i (some ((w.bundle i).getD ⟨none, .absent⟩))).sock id = w.sock id := by
    by_cases hid : id = i
    · subst hid
      cases hb : w.bundle id <;> simp [sock, hb]
    · rw [sock, setBundle_ne _ hid, sock]
  unfold makeDirs
  split
  · exact hset _
  · exact hset _
  · rfl
  · rfl

/-- A socket is bound only where there is no file yet. -/
theorem bind_sock {f : BundleFile} {r : Io Unit} (h : w.bind t (.inBundle id f) = (r, w')) :
    SockChange w t id ch (.bind (.inBundle id f)) (w'.sock id) w'.orphans := by
  simp only [bind] at h
  split at h
  · cases h
    exact .same
  · rename_i b hb
    split at h <;> cases h
    · rename_i habs
      rw [setSock_sock hb]
      exact .bound (by simpa [sock, hb] using habs)
    · exact .same

theorem listen_sock {f : BundleFile} :
    SockChange w t id ch (.listen (.inBundle id f)) ((w.listen t (.inBundle id f)).sock id)
      (w.listen t (.inBundle id f)).orphans := by
  simp only [listen]
  split
  · rename_i hs
    obtain ⟨b, hb⟩ := bundle_of_maker (by rw [hs]; rfl)
    rw [setSock_sock hb]
    exact .listens hs
  · exact .same

/-- The connection comes from the queue of the socket at the path, or from one whose file is
gone. -/
theorem accept_sock {f : BundleFile} (h : w.accept t (.inBundle id f) = some w') :
    SockChange w t id ch (.accept4 (.inBundle id f)) (w'.sock id) w'.orphans := by
  simp only [accept] at h
  split at h <;> cases h
  rename_i q hq
  unfold setQueue
  split
  · rename_i o q' hs
    split
    · rename_i ho
      subst ho
      obtain ⟨b, hb⟩ := bundle_of_maker (by rw [hs]; rfl)
      have hq' : q' = q + 1 := by simpa [queue, hs] using hq
      rw [setSock_sock hb]
      exact .taken (hq' ▸ hs)
    · exact .drained
  · exact .drained

theorem connect_sock {f : BundleFile} {r : Io Unit}
    (h : w.connect (.inBundle id f) = some (r, w')) :
    SockChange w t id ch (.connect (.inBundle id f)) (w'.sock id) w'.orphans := by
  simp only [connect] at h
  split at h
  · cases h
    exact .same
  · rename_i o q hs
    split at h <;> cases h
    obtain ⟨b, hb⟩ := bundle_of_maker (by rw [hs]; rfl)
    rw [setSock_sock hb]
    exact .connected hs
  · cases h
    exact .same

theorem close_sock {f : BundleFile} :
    SockChange w t id ch (.close (.inBundle id f)) ((w.close t (.inBundle id f)).sock id)
      (w.close t (.inBundle id f)).orphans := by
  cases hb : w.bundle id with
  | none =>
    have hs : (w.close t (.inBundle id f)).sock id = w.sock id := by
      simp [close, setSock, sock, hb]
    rw [hs]
    exact .same
  | some b =>
    rw [close, setSock_sock hb]
    exact .closed

theorem run_sock {n : Int} (h : w.run t n op = some (r, w')) (hop : op.bundleOf = some id) :
    SockChange w t id (.run n) op (w'.sock id) w'.orphans := by
  unfold Op.bundleOf at hop
  split at hop <;> cases hop
  all_goals simp only [run, Option.some.injEq, Prod.mk.injEq, Option.map_eq_some_iff] at h
  · rw [← show (w.writeFile (stateJson id) _).2 = w' from congrArg Prod.snd h, writeFile_sock,
      writeFile_orphans]
    exact .same
  · obtain ⟨-, rfl⟩ := h
    rw [makeDirs_sock]
    exact .same
  · obtain ⟨-, rfl⟩ := h
    rw [makeDirs_sock]
    exact .same
  · simp only [removeDirAll] at h
    split at h <;> cases h
    · rw [unlink_sock (by simp)]
      exact .removed rfl
    · exact .same
  · exact bind_sock h
  · obtain ⟨-, rfl⟩ := h
    exact listen_sock
  · obtain ⟨w₁, hw, -, rfl⟩ := h
    exact accept_sock hw
  · exact connect_sock h
  · obtain ⟨-, rfl⟩ := h
    exact close_sock

/-- A call that concerns another bundle, or none, changes at most the queues without a file. -/
theorem exec_sock_other (h : w.exec t op ch = some (r, w')) (hop : op.bundleOf ≠ some id) :
    SockChange w t id ch op (w'.sock id) w'.orphans := by
  have hs : w'.sock id = w.sock id := by rw [sock, exec_bundle h hop, sock]
  rw [hs]
  cases hb : op.bundleOf with
  | none =>
    rw [exec_orphans h hb]
    exact .same
  | some id' =>
    have hne : id' ≠ id := fun he => hop (he ▸ hb)
    cases ch with
    | err e =>
      obtain ⟨_, -, he⟩ := Option.map_eq_some_iff.mp h
      cases he
      exact .same
    | part e =>
      simp only [exec] at h
      unfold runPart at h
      split at h <;> cases h
      · rw [writeFile_orphans]
        exact .same
      · cases hb
        exact .removedOther hne
      · exact .same
    | run n =>
      have hch : SockChange w t id' (.run n) op (w'.sock id') w'.orphans := run_sock h hb
      generalize w'.sock id' = s at hch
      generalize w'.orphans = f at hch ⊢
      cases hch with
      | same | bound | listens | connected | taken | closed => exact .same
      | drained => exact .drained
      | removed => exact .removedOther hne
      | removedOther => exact .removedOther (Option.some.inj hb ▸ hne)

theorem exec_sock (h : w.exec t op ch = some (r, w')) :
    SockChange w t id ch op (w'.sock id) w'.orphans := by
  by_cases hop : op.bundleOf = some id
  · cases ch with
    | err e =>
      obtain ⟨_, -, he⟩ := Option.map_eq_some_iff.mp h
      cases he
      exact .same
    | part e =>
      simp only [exec] at h
      unfold runPart at h
      split at h <;> cases h
      · rw [writeFile_sock, writeFile_orphans]
        exact .same
      · cases hop
        rw [unlink_sock (by cases w.bundle id <;> simp)]
        exact .removed rfl
      · exact .same
    | run n => exact run_sock h hop
  · exact exec_sock_other h hop

/-- A start socket is made by `bind`. -/
theorem exec_maker {o : Nat} (h : w.exec t op ch = some (r, w')) (ho : (w'.sock id).maker = some o) :
    (w.sock id).maker = some o ∨ o = t ∧ ∃ f, op = .bind (.inBundle id f) := by
  have hch : SockChange w t id ch op (w'.sock id) w'.orphans := exec_sock h
  generalize w'.sock id = s at hch ho
  generalize w'.orphans = f at hch
  cases hch with
  | same | drained | removedOther => exact .inl ho
  | bound => exact .inr ⟨(Option.some.inj ho).symm, _, rfl⟩
  | listens hs | connected hs | taken hs =>
    rw [hs]
    exact .inl ho
  | closed => exact .inl (Sock.maker_drop ho)
  | removed => cases ho

end World

/-! ### What is queued -/

/-- What is queued at the socket, if it listens for the thread. -/
def Sock.queueOf (i : Nat) : Sock → Option Nat
  | .listening o q => if o = i then some q else none
  | _ => none

theorem World.queue_eq : w.queue i id = ((w.sock id).queueOf i).getD (w.orphans i) := by
  unfold World.queue
  cases w.sock id with
  | listening o q =>
    simp only [Sock.queueOf]
    split <;> rfl
  | absent | bound | dead => rfl

theorem Sock.queueOf_drop {s : Sock} (hne : t ≠ i) : (s.drop t).queueOf i = s.queueOf i := by
  cases s with
  | bound o =>
    simp only [drop]
    split <;> rfl
  | listening o q =>
    by_cases ho : o = t
    · simp [drop, queueOf, ho, hne]
    · simp [drop, ho]
  | absent | dead => rfl

/-- A file that is removed leaves the queue to its thread. -/
theorem World.orphaned_eq : w.orphaned id i = w.queue i id := by
  unfold World.orphaned World.queue
  cases w.sock id with
  | listening o q =>
    by_cases ho : o = i
    · simp [ho]
    · simp [ho, Function.update_of_ne (Ne.symm ho)]
  | absent | bound | dead => rfl

theorem Sock.queueOf_maker {s : Sock} (h : s.maker ≠ some i) : s.queueOf i = none := by
  cases s with
  | listening o q => exact if_neg fun ho => h (congrArg some ho)
  | absent | bound | dead => rfl

/-- A thread lets go of the connections at its socket only by its own calls. -/
theorem SockChange.queue (h : SockChange w t id ch op (w'.sock id) w'.orphans) (hne : t ≠ i)
    (hothers : ∀ id', id' ≠ id → (w.sock id').maker ≠ some i) : w.queue i id ≤ w'.queue i id := by
  rw [World.queue_eq, World.queue_eq]
  generalize w'.sock id = s at h ⊢
  generalize w'.orphans = f at h ⊢
  cases h with
  | same => exact Nat.le_refl _
  | bound hs => simp [hs, Sock.queueOf]
  | listens hs | taken hs => simp [hs, Sock.queueOf, hne]
  | connected hs =>
    simp only [hs, Sock.queueOf]
    split <;> simp
  | drained => rw [Function.update_of_ne hne.symm]
  | closed => rw [Sock.queueOf_drop hne]
  | removed => exact (World.queue_eq.symm.trans World.orphaned_eq.symm).le
  | @removedOther id' hid =>
    rw [World.orphaned_eq, World.queue_eq, Sock.queueOf_maker (hothers id' hid)]
    rfl

/-- Nobody else closes a listening socket, but its file can be removed. -/
theorem SockChange.listening {q : Nat} (h : SockChange w t id ch op (w'.sock id) w'.orphans) (hne : t ≠ i)
    (hs : w.sock id = .listening i q) :
    (∃ q', q ≤ q' ∧ w'.sock id = .listening i q') ∨
      op = .removeDirAll (.bundle id) ∧ ch.fails = false := by
  generalize w'.sock id = s at h ⊢
  generalize w'.orphans = f at h
  cases h with
  | same | drained | removedOther => exact .inl ⟨q, Nat.le_refl _, hs⟩
  | bound h | listens h => cases hs.symm.trans h
  | connected h =>
    cases hs.symm.trans h
    exact .inl ⟨q + 1, Nat.le_succ _, rfl⟩
  | taken h =>
    cases hs.symm.trans h
    exact (hne rfl).elim
  | closed =>
    refine .inl ⟨q, Nat.le_refl _, ?_⟩
    rw [hs]
    exact if_neg hne.symm
  | removed h => exact .inr ⟨rfl, h⟩

namespace World

theorem exec_write_sock {p : Path} {x : Content} {r : Io Unit}
    (h : w.exec t (.write p x) ch = some (r, w')) : w'.sock id = w.sock id := by
  have hch : SockChange w t id ch (.write p x) (w'.sock id) w'.orphans := exec_sock h
  generalize w'.sock id = s at hch ⊢
  generalize w'.orphans = f at hch
  cases hch
  rfl

theorem exec_connect (h : w.exec t (.connect (startSk id)) ch = some (.ok (), w')) :
    ∃ o q, w.sock id = .listening o q ∧ w'.sock id = .listening o (q + 1) := by
  cases ch with
  | err e => simp [exec, Op.failure] at h
  | part e => simp [exec, runPart] at h
  | run n =>
    simp only [exec, run, connect] at h
    split at h
    · cases h
    · rename_i o q hs
      split at h <;> cases h
      obtain ⟨b, hb⟩ := bundle_of_maker (by rw [hs]; rfl)
      exact ⟨o, q, hs, setSock_sock hb _⟩
    · cases h

theorem exec_listen (h : w.exec t (.listen (startSk id)) ch = some (.ok (), w')) (hs : w.sock id = .bound t) :
    w'.sock id = .listening t 0 := by
  cases ch with
  | err e => simp [exec, Op.failure] at h
  | part e => simp [exec, runPart] at h
  | run n =>
    obtain rfl : w.listen t (startSk id) = w' := by simpa [exec, run] using h
    obtain ⟨b, hb⟩ := bundle_of_maker (by rw [hs]; rfl)
    simp only [listen, if_pos hs]
    exact setSock_sock hb _

theorem env_queue {e : Env} (h : w.env e = some w') : w'.queue i id = w.queue i id := by
  have ho : w'.orphans = w.orphans := by
    cases e <;> simp only [env] at h
    case deliver => split at h <;> cases h; rfl
    case daemonStart => split at h <;> cases h; rfl
    all_goals cases h; rfl
  simp only [queue, sock, env_bundle h, ho]

/-- The end of a thread leaves the sockets of others alone. -/
theorem crash_bundle (h : (w.sock id).maker ≠ some t) : (w.crash t).bundle id = w.bundle id := by
  cases hb : w.bundle id with
  | none => simp [crash, hb]
  | some b =>
    rw [sock, hb] at h
    have hdrop : b.startSk.drop t = b.startSk := Sock.drop_of_ne h
    simp [crash, hb, hdrop]

theorem crash_sock : (w.crash t).sock id = (w.sock id).drop t := by
  cases hb : w.bundle id <;> simp [crash, sock, hb, Sock.drop]

theorem crash_queue (hne : t ≠ i) : (w.crash t).queue i id = w.queue i id := by
  rw [queue_eq, queue_eq, crash_sock, Sock.queueOf_drop hne]
  rfl

end World

/-! ### Whose socket it is -/

/-- The thread that made a start socket runs `create` for its container. -/
def SocksPlaced (c : SysConf) : Prop :=
  ∀ (id : String) (t : Nat), (c.world.sock id).maker = some t →
    ∃ (th : SysThread) (configPath : String) (sp : Option String), c.threads[t]? = some th ∧
      kindOf th = .create id configPath sp

/-- Only `create` binds a start socket. -/
theorem Does.binds {k : Kind} {g : Phase} {f : BundleFile} (h : Does k g (.bind (.inBundle id f))) :
    ∃ configPath sp, k = .create id configPath sp := by
  cases h with
  | quiet hq => contradiction
  | bind => exact ⟨_, _, rfl⟩
  | looks hl => contradiction

theorem SocksPlaced.step (h : SocksPlaced c) (hc : Conforming c) (hs : system.step c a = some c') :
    SocksPlaced c' := by
  intro id t ht
  have hkept (hold : (c.world.sock id).maker = some t) : ∃ (th : SysThread) (configPath : String)
      (sp : Option String), c'.threads[t]? = some th ∧ kindOf th = .create id configPath sp := by
    obtain ⟨th, cp, sp, hi, hk⟩ := h id t hold
    obtain ⟨th', hi', hm, -⟩ := step_kept hs hi
    exact ⟨th', cp, sp, hi', by rw [kindOf, hm]; exact hk⟩
  rcases step_world hs with ⟨i, op, r, ch, he, hx⟩ | e | ⟨e, -, he⟩ | ⟨t', -, e⟩
  · rcases World.exec_maker hx ht with hold | ⟨rfl, f, rfl⟩
    · exact hkept hold
    · obtain ⟨th, k, ch', hi, -, hd, -, hi', -⟩ := event_thread hc he hs
      obtain ⟨cp, sp, hk⟩ := hd.binds
      exact ⟨_, cp, sp, hi', hk⟩
  · rw [e] at ht
    exact hkept ht
  · rw [World.sock, World.env_bundle he] at ht
    exact hkept ht
  · rw [e] at ht
    rw [World.crash_sock] at ht
    exact hkept (Sock.maker_drop ht)

end Clonebox
