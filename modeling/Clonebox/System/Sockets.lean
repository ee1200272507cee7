import Clonebox.System.Host

/-! # The sockets of the daemon

However daemons have ended before, with their sockets removed or left behind, the next one takes
over both paths, and what is found at a path is never the socket of a daemon that is gone. -/

namespace Clonebox
open Conc

variable {c c' : HostConf} {h h' : Host} {d d' : Option (Nat × BootPhase)} {i : Nat} {g : BootPhase}
  {th : HostThread}

/-- Every daemon of the configuration keeps its contract. -/
def Booted (c : HostConf) : Prop := ∀ (i : Nat) th, c.threads[i]? = some th → bootContract.Conforms th

theorem Booted.step {a : HostAction} (h : Booted c) (hs : hosts.step c a = some c') : Booted c' := by
  have hrun : Steps hosts.step (fun _ _ => True) c c' := .tail .refl trivial hs
  have hall : ∀ (i : Nat) th, c'.threads[i]? = some th →
      (fun _ : Unit => True) th.main ∧ bootContract.Conforms th :=
    Machine.conforms_steps (fun _ _ => process_obeys) (fun _ _ _ => trivial)
      (fun _ _ _ _ _ _ _ _ => trivial) hrun fun i th hi => ⟨trivial, h i th hi⟩
  exact fun i th hi => (hall i th hi).2

/-- What every step of the daemon that is there, or of the rest of the host, keeps, holds
throughout. -/
theorem hosted_run {ok : HostConf → HostAction → Prop} {I : HostConf → Option (Nat × BootPhase) → Prop}
    (hok : ∀ c a, ok c a → OneAtATime c a) (hrun : Steps hosts.step ok ⟨h, []⟩ c)
    (h₀ : I ⟨h, []⟩ none)
    (hstep : ∀ c a c' d d', Steps hosts.step ok ⟨h, []⟩ c → ok c a → hosts.step c a = some c' →
      Present c d → Present c' d' → HostChange c a d c'.world d' → I c d → I c' d') :
    Booted c ∧ ∃ d, Present c d ∧ I c d := by
  induction hrun with
  | refl =>
    refine ⟨fun i th hi => ?_, none, fun th hth => ?_, h₀⟩
    · simp at hi
    · cases hth
  | tail hrun hlast ih =>
    obtain ⟨a, ha, hs⟩ := hlast
    obtain ⟨hc, d, hd, hI⟩ := ih
    obtain ⟨d', hd', hchange⟩ := host_change hc hd (hok _ a ha) hs
    exact ⟨hc.step hs, d', hd', hstep _ a _ d d' hrun ha hs hd hd' hchange hI⟩

/-! ### Who listens -/

/-- What daemon `i` has done with the sockets and its map is so. -/
structure HasSockets (i : Nat) (h : Host) (g : BootPhase) : Prop where
  held : ∀ p, g.hold p = .held → h.socket p = .listening i 0
  freed : ∀ p, g.hold p = .freed → h.socket p = .absent
  only : ∀ p j q, h.socket p = .listening j q → j = i
  owner : h.inst.map (·.owner) = if g.stage = .launched then none else some i

/-- No daemon is there. -/
structure Vacant (h : Host) : Prop where
  inst : h.inst = none
  socket : ∀ p j q, h.socket p ≠ .listening j q

def Tidy (h : Host) : Option (Nat × BootPhase) → Prop
  | none => Vacant h
  | some (i, g) => HasSockets i h g

theorem Sock.drop_listening {s : Sock} {t j q : Nat} (h : s.drop t = .listening j q) :
    s = .listening j q ∧ j ≠ t := by
  cases s with
  | listening o q' =>
    simp only [drop] at h
    split at h
    · cases h
    · cases h
      exact ⟨rfl, ‹_›⟩
  | bound o =>
    simp only [drop] at h
    split at h <;> cases h
  | absent | dead => cases h

/-- Nothing of a daemon is left but files. -/
theorem HasSockets.vacant (ho : HasSockets i h g) : Vacant (h.finish i) := by
  refine ⟨?_, fun p j q hl => ?_⟩
  · cases hinst : h.inst with
    | none =>
      rw [(Host.finish_other (by simp [hinst])).2, hinst]
    | some x =>
      have howner := ho.owner
      rw [hinst] at howner
      split at howner
      · cases howner
      · have hx : x.owner = i := Option.some.inj howner
        simp [Host.finish, hinst, hx]
  · rw [Host.finish_socket] at hl
    obtain ⟨hl, hne⟩ := Sock.drop_listening hl
    exact hne (ho.only p j q hl)

theorem HasSockets.congr {g' : BootPhase} (ho : HasSockets i h g) (hs : h'.socket = h.socket)
    (hinst : h'.inst.map (·.owner) = h.inst.map (·.owner)) (hhold : g'.hold = g.hold)
    (hstage : g'.stage = .launched ↔ g.stage = .launched) : HasSockets i h' g' := by
  refine ⟨?_, ?_, ?_, ?_⟩
  · rw [hs, hhold]; exact ho.held
  · rw [hs, hhold]; exact ho.freed
  · rw [hs]; exact ho.only
  · rw [hinst, ho.owner]
    simp only [hstage]

theorem HasSockets.put {s : Sock} {x : Hold} {p : String} (ho : HasSockets i h g)
    (hs : h'.socket = Function.update h.socket p s)
    (hinst : h'.inst = h.inst) {g' : BootPhase} (hhold : g'.hold = Function.update g.hold p x)
    (hstage : g'.stage = .launched ↔ g.stage = .launched) (hheld : x = .held → s = .listening i 0)
    (hfreed : x = .freed → s = .absent) (honly : ∀ j q, s = .listening j q → j = i) :
    HasSockets i h' g' := by
  refine ⟨fun p' => ?_, fun p' => ?_, fun p' => ?_, ?_⟩
  · rw [hs, hhold]
    by_cases hp : p' = p
    · subst hp
      simpa using hheld
    · simpa [hp] using ho.held p'
  · rw [hs, hhold]
    by_cases hp : p' = p
    · subst hp
      simpa using hfreed
    · simpa [hp] using ho.freed p'
  · rw [hs]
    by_cases hp : p' = p
    · subst hp
      simpa using honly
    · simpa [hp] using ho.only p'
  · rw [hinst, ho.owner]
    simp only [hstage]

theorem HasSockets.removed {p : String} {r : Io Unit} {ch : BootChoice} (ho : HasSockets i h g)
    (hx : h.exec i (.removeFile p) ch = some (r, h')) : HasSockets i h' (g.next (.removeFile p) r) := by
  rcases Host.exec_removeFile hx with ⟨rfl, e, hne, rfl⟩ | ⟨hr, hsock, hinst, -⟩
  · refine ho.put (Function.update_eq_self p h'.socket).symm rfl rfl .rfl ?_ ?_ fun j q => ho.only p j q
    · simp [hne]
    · simp [hne]
  · refine ho.put hsock hinst rfl .rfl ?_ (fun _ => rfl) fun j q hl => by cases hl
    simp [hr]

theorem HasSockets.bound {p : String} {r : Io Unit} {ch : BootChoice} (ho : HasSockets i h g)
    (hmay : g.may (.bind p)) (hx : h.exec i (.bind p) ch = some (r, h')) :
    HasSockets i h' (g.next (.bind p) r) := by
  rcases Host.exec_bind hx with ⟨rfl, e, rfl⟩ | ⟨rfl, hsock, hinst, -⟩
  · exact ho.congr rfl rfl rfl .rfl
  · have hstage : g.stage ≠ .launched := by
      intro he
      simp [BootPhase.may, he, BootPhase.scanned_iff] at hmay
    refine ho.put hsock hinst rfl ?_ (fun _ => rfl) (by simp) fun j q hl => ?_
    · simp only [BootPhase.next, hstage, iff_false]
      split
      · decide
      · exact hstage
    · cases hl
      rfl

theorem HasSockets.call {op : MainOp} {r : op.Ret} {ch : BootChoice} (ho : HasSockets i h g)
    (hmay : g.may op) (hx : h.exec i op ch = some (r, h')) (hlive : (g.next op r).stage ≠ .ended) :
    HasSockets i h' (g.next op r) := by
  cases op with
  | removeFile p => exact ho.removed hx
  | bind p => exact ho.bound hmay hx
  | exit | panic => exact (hlive rfl).elim
  | new =>
    cases ch with
    | err e => cases hx
    | run l =>
      cases hx
      exact ⟨ho.held, ho.freed, ho.only, rfl⟩
  | orInsert | eventLoop =>
    cases ch with
    | err e => cases hx
    | run l =>
      cases hx
      exact ho.congr rfl (by simp [Function.comp_def]) rfl .rfl
  | serve =>
    cases ch with
    | err e =>
      cases hx
      exact ho.congr rfl rfl rfl .rfl
    | run l =>
      cases hx
      exact ho.congr rfl (by simp [Function.comp_def]) rfl .rfl
  | createDirAll | setPermissions | procExists =>
    obtain rfl := Host.exec_looks rfl hx
    exact ho.congr rfl rfl rfl .rfl
  | readDir =>
    obtain rfl := Host.exec_looks rfl hx
    have hstage : g.stage = .loading := hmay
    cases r with
    | error e => exact ho.congr rfl rfl rfl .rfl
    | ok listing => exact ho.congr rfl rfl rfl (by simp [BootPhase.next, hstage])
  | shutdown =>
    obtain rfl := Host.exec_looks rfl hx
    have hstage : g.stage = .serving := BootPhase.Listens.stage hmay
    cases r with
    | error e => exact ho.congr rfl rfl rfl .rfl
    | ok _ => exact ho.congr rfl rfl rfl (by simp [BootPhase.next, hstage])
  | readToString p =>
    obtain rfl := Host.exec_looks rfl hx
    rcases r with e | (s | config | t)
    all_goals exact ho.congr rfl rfl rfl .rfl

/-- Nothing of the daemon that is there belongs to another thread. -/
theorem Tidy.not_owner {t : Nat} (ht : Tidy h d) (hne : ∀ x ∈ d, x.1 ≠ t) :
    h.inst.map (·.owner) ≠ some t := by
  rcases d with _ | ⟨i, g⟩
  · simp [Vacant.inst ht]
  · have hit : i ≠ t := hne (i, g) rfl
    rw [HasSockets.owner ht]
    split
    · simp
    · simpa using hit

theorem Tidy.change {a : HostAction} (ht : Tidy c.world d) (hch : HostChange c a d h' d') :
    Tidy h' d' := by
  cases hch with
  | call hmay he hx hlive => exact HasSockets.call ht hmay hx hlive
  | ended => exact HasSockets.vacant ht
  | launched =>
    refine ⟨fun p hp => ?_, fun p hp => ?_, fun p j q hl => (Vacant.socket ht p j q hl).elim, ?_⟩
    · cases hp
    · cases hp
    · rw [Vacant.inst ht]
      rfl
  | rest ha hb hs =>
    rcases d with _ | ⟨i, g⟩
    · have hv : Vacant c.world := ht
      exact ⟨hv.inst, hv.socket⟩
    · exact HasSockets.congr ht rfl rfl rfl .rfl
  | @late _ t hne =>
    have hinst := (Host.finish_other (ht.not_owner hne)).2
    rcases d with _ | ⟨i, g⟩
    · refine ⟨?_, fun p j q hl => ?_⟩
      · rw [hinst, Vacant.inst ht]
      · rw [Host.finish_socket] at hl
        exact Vacant.socket ht p j q (Sock.drop_listening hl).1
    · have hit : i ≠ t := hne (i, g) rfl
      refine ⟨fun p hp => ?_, fun p hp => ?_, fun p j q hl => ?_, ?_⟩
      · rw [Host.finish_socket, HasSockets.held ht p hp]
        simp [Sock.drop, hit]
      · rw [Host.finish_socket, HasSockets.freed ht p hp]
        rfl
      · rw [Host.finish_socket] at hl
        exact HasSockets.only ht p j q (Sock.drop_listening hl).1
      · rw [hinst, HasSockets.owner ht]

theorem tidy_run {ok : HostConf → HostAction → Prop} (hok : ∀ c a, ok c a → OneAtATime c a)
    (hinst : h.inst = none) (hsock : ∀ p j q, h.socket p ≠ .listening j q)
    (hrun : Steps hosts.step ok ⟨h, []⟩ c) : Booted c ∧ ∃ d, Present c d ∧ Tidy c.world d :=
  hosted_run (I := fun c d => Tidy c.world d) hok hrun ⟨hinst, hsock⟩
    fun _ _ _ _ _ _ _ _ _ _ hch ht => ht.change hch

/-- A removal that has not freed a path has failed, and not because there was no file. -/
theorem stuck_cause {p : String} (hc : bootContract.Conforms th)
    (hp : (bootContract.phase th).hold p = .stuck) :
    ∃ e, e ≠ .enoent ∧ (⟨.removeFile p, .error e⟩ : Boot.Ev) ∈ th.trace := by
  obtain ⟨⟨op, r⟩, hev, g', hmay, hbefore, hafter⟩ :=
    hc.past.cause (I := fun g : BootPhase => g.hold p = .stuck) (by simp [bootContract, BootPhase.init]) hp
  change (BootPhase.next g' op r).hold p = .stuck at hafter
  cases op with
  | removeFile p' =>
    by_cases hpp : p = p'
    · subst hpp
      cases r with
      | ok _ => simp [BootPhase.next] at hafter
      | error e =>
        refine ⟨e, fun he => ?_, hev⟩
        simp [BootPhase.next, he] at hafter
    · exact (hbefore (by simpa [BootPhase.next, hpp] using hafter)).elim
  | bind p' =>
    cases r with
    | ok _ =>
      by_cases hpp : p = p'
      · simp [BootPhase.next, hpp] at hafter
      · exact (hbefore (by simpa [BootPhase.next, hpp] using hafter)).elim
    | error e => exact (hbefore hafter).elim
  | readDir => cases r <;> exact (hbefore hafter).elim
  | readToString =>
    rcases r with e | (s | config | t)
    all_goals exact (hbefore hafter).elim
  | shutdown => cases r <;> exact (hbefore hafter).elim
  | _ => exact (hbefore hafter).elim

/-- The daemon serves: `main` waits for the end of the server. -/
def serving (th : HostThread) : Bool :=
  match th.prog with
  | .call .shutdown _ => true
  | _ => false

theorem serving_call (h : serving th = true) : ∃ k, th.prog = .call .shutdown k := by
  unfold serving at h
  split at h
  · exact ⟨_, ‹_›⟩
  · cases h

/-- The bundle of no container asked for is a socket of the daemon, or has one in it. -/
def BesideSockets : HostAction → Prop
  | .env (.invoke m) => ∀ id ∈ m.container,
    IsName id ∧ getBundlePath id ≠ Cloneboxd.clientSocket ∧ getBundlePath id ≠ getEventSocketPath
  | _ => True

instance {a : HostAction} : Decidable (BesideSockets a) :=
  match a with
  | .env (.invoke m) => inferInstanceAs (Decidable (∀ id ∈ m.container,
      IsName id ∧ getBundlePath id ≠ Cloneboxd.clientSocket ∧ getBundlePath id ≠ getEventSocketPath))
  | .env (.call _ _) | .env (.env _) | .env (.crash _) | .call _ _ | .invoke _ | .crash _ =>
    inferInstanceAs (Decidable True)

/-- Whatever ends the daemons and however much of their sockets they leave, only one that is there
is listened to, one that serves is found at both paths, and none is kept from its socket by a file
that was left, unless the file cannot be removed. The containers go by names that are not those of
the sockets. -/
theorem daemon_sockets (hinst : h.inst = none) (hsock : ∀ p j q, h.socket p ≠ .listening j q)
    (hrun : Steps hosts.step (fun c a => OneAtATime c a ∧ BesideSockets a) ⟨h, []⟩ c) :
    (∀ p j q, c.world.socket p = .listening j q → ∃ th ∈ c.threads[j]?, Alive th) ∧
    ∀ i th, c.threads[i]? = some th → Alive th →
      (serving th = true → c.world.socket Cloneboxd.clientSocket = .listening i 0 ∧
        c.world.socket getEventSocketPath = .listening i 0) ∧
      ∀ p k, th.prog = .call (.bind p) k → c.world.socket p = .absent ∨
        ∃ e, e ≠ .enoent ∧ (⟨.removeFile p, .error e⟩ : Boot.Ev) ∈ th.trace := by
  obtain ⟨hc, d, hd, ht⟩ := tidy_run (fun _ _ h => h.1) hinst hsock hrun
  constructor
  · intro p j q hl
    rcases d with _ | ⟨i, g⟩
    · exact (Vacant.socket ht p j q hl).elim
    · obtain ⟨th, hi, hth, -⟩ := hd
      obtain rfl := HasSockets.only ht p j q hl
      exact ⟨th, hi, hth⟩
  · intro i th hi hth
    obtain rfl := hd.eq hi hth
    constructor
    · intro hserving
      obtain ⟨k, hp⟩ := serving_call hserving
      have hlistens : (bootContract.phase th).Listens := (hc i th hi).may hp
      exact ⟨HasSockets.held ht _ hlistens.client, HasSockets.held ht _ hlistens.event⟩
    · intro p k hp
      have hmay : (bootContract.phase th).may (.bind p) := (hc i th hi).may hp
      rcases hmay.1 with hfree | hstuck
      · exact .inl (HasSockets.freed ht p hfree)
      · exact .inr (stuck_cause (hc i th hi) hstuck)

/-- Thread `t` makes its next `n` calls, and a directory lists `listing`. -/
def boots (n t : Nat) (listing : List DirEntry) : List HostAction :=
  List.replicate n (.call t (.run listing))

/-- A host on which a daemon has left its sockets. -/
def leftHost (w : World) : Host := ⟨fresh w, fun _ => .dead, none⟩

/-- The next daemon is killed when it has bound the first of them, and the one after it serves. -/
theorem daemon_sockets_sample : ∃ c : HostConf,
    Steps hosts.step (fun c a => OneAtATime c a ∧ BesideSockets a) ⟨leftHost sampleHost, []⟩ c ∧
    c.world.socket Cloneboxd.clientSocket = .listening 1 0 ∧
    c.world.socket getEventSocketPath = .listening 1 0 := by
  have h : ∃ c ∈ runActions hosts.step (fun c a => OneAtATime c a ∧ BesideSockets a)
      ⟨leftHost sampleHost, []⟩
      ([.invoke ()] ++ boots 5 0 [] ++ [.crash 0, .invoke ()] ++ boots 10 1 []),
      ∃ th ∈ c.threads[1]?, Alive th ∧ serving th = true := by
    decide +kernel
  obtain ⟨c, hrun, th, hi, hth, hserving⟩ := h
  have hrun := Steps.of_runActions hrun
  have hnone : ∀ p j q, (leftHost sampleHost).socket p ≠ .listening j q := by
    intro p j q hl
    cases hl
  exact ⟨c, hrun, ((daemon_sockets rfl hnone hrun).2 1 th hi hth).1 hserving⟩

end Clonebox
