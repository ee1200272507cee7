import Clonebox.Netlink.Links
import Clonebox.Netlink.Replies

/-! # A network that is not finished

`create_network` makes the pair of links in the host, moves one end to the container and follows it
there. An error on the way returns at once. -/

namespace Clonebox
open Conc Prog

variable {α : Type} {id : String} {pid : Int} {done : Nat → Bool} {tr tr' : List Sys.Ev} {e : CoreError}

/-! ### The host's side -/

/-- Whether the calling thread is in the network namespace it began in, the number of requests it
has sent, and the links that are new in the host. -/
structure HostSide where
  home : Bool
  sent : Nat
  links : List String
  deriving DecidableEq

namespace HostSide

/-- The kernel carries out the requests whose number `done` says. -/
def next (id : String) (done : Nat → Bool) (s : HostSide) : (op : Op) → op.Ret → HostSide
  | .setns path, .ok () => { s with home := path = "/proc/self/ns/net" }
  | .send _ buf, .ok () =>
    let links :=
      if makesPair id buf then s.links ++ [hostEnd id, hostEnd id ++ "_peer"]
      else if movesLink buf then s.links.erase (hostEnd id ++ "_peer")
      else s.links
    { s with sent := s.sent + 1, links := if done s.sent then links else s.links }
  | _, _ => s

def after (id : String) (done : Nat → Bool) (s : HostSide) (tr : List Sys.Ev) : HostSide :=
  tr.foldl (fun s ev => s.next id done ev.1 ev.2) s

def start : HostSide := ⟨true, 0, []⟩

variable {s : HostSide}

theorem after_append : s.after id done (tr ++ tr') = (s.after id done tr).after id done tr' :=
  List.foldl_append

end HostSide

/-- A call that neither sends a request nor changes the namespace. -/
def Op.offline : Op → Bool
  | .send _ _ | .setns _ => false
  | _ => true

/-- A request that has reached the kernel. -/
def sendsRequest : Sys.Ev → Bool
  | ⟨.send _ _, .ok ()⟩ => true
  | _ => false

namespace HostSide

variable {s : HostSide}

theorem next_offline {op : Op} {r : op.Ret} (h : op.offline = true) : s.next id done op r = s := by
  unfold next
  split <;> first | rfl | contradiction

theorem after_offline (h : ∀ ev ∈ tr, ev.1.offline = true) : s.after id done tr = s := by
  induction tr with
  | nil => rfl
  | cons ev tr ih =>
    rw [after, List.foldl_cons, next_offline (h ev List.mem_cons_self)]
    exact ih fun ev hmem => h ev (List.mem_cons_of_mem _ hmem)

theorem hostEnd_next {op : Op} {r : op.Ret} (h : hostEnd id ∈ s.links) :
    hostEnd id ∈ (s.next id done op r).links := by
  unfold next
  split
  · exact h
  · dsimp only
    split
    · split
      · exact List.mem_append_left _ h
      · split
        · exact (List.mem_erase_of_ne host_ne_peer).mpr h
        · exact h
    · exact h
  · exact h

/-- The end that stays in the host is never removed. -/
theorem hostEnd_after (h : hostEnd id ∈ s.links) : hostEnd id ∈ (s.after id done tr).links := by
  induction tr generalizing s with
  | nil => exact h
  | cons ev tr ih => exact ih (hostEnd_next h)

end HostSide

/-! ### The pair -/

/-- If the reply to the first request is not an error, the request has been carried out. -/
def FirstReply (done : Nat → Bool) (tr : List Sys.Ev) : Prop :=
  ∀ pre post sk buf sk' reply, tr = pre ++ ⟨.send sk buf, .ok ()⟩ :: ⟨.recv sk', .ok reply⟩ :: post →
    (∀ ev ∈ pre, ev.1.offline = true) → (∀ e, reply ≠ .error e) → done 0 = true

/-- The pair of links has been made in the host. -/
def PairMade (done : Nat → Bool) (tr : List Sys.Ev) : Prop :=
  (∃ ev ∈ tr, sendsRequest ev = true) ∧ done 0 = true

theorem recvAck_fail {sk : Nat} (h : Reaches (recvAck sk) tr (.fail e)) :
    (∃ d, tr = [⟨.recv sk, .error d⟩]) ∨ ∃ d, tr = [⟨.recv sk, .ok (.error d)⟩] := by
  rcases h.of_bind_fail with h | ⟨_, _, reply, rfl, hrecv, hmatch⟩
  · rcases mapErr_fail h with h | ⟨d, h⟩
    · exact (sys_not_fail h).elim
    · exact .inl ⟨d, reaches_sys h⟩
  · cases reaches_sys (reaches_mapErr hrecv)
    cases reply with
    | error d =>
      rw [hmatch.of_fail.1]
      exact .inr ⟨d, rfl⟩
    | ack | link => cases hmatch.of_ret.2

/-- How a request can fail: it is not sent, its reply is not read, or the reply is an error. -/
theorem request_fail {sk : Nat} {w : Writer} (h : Reaches (orReturn (request sk w)) tr (.fail e)) :
    (∃ d, tr = [⟨.send sk w.buf, .error d⟩]) ∨
    (∃ d, tr = [⟨.send sk w.buf, .ok ()⟩, ⟨.recv sk, .error d⟩]) ∨
    ∃ d, tr = [⟨.send sk w.buf, .ok ()⟩, ⟨.recv sk, .ok (.error d)⟩] := by
  rcases h.of_bind_fail with h | ⟨_, tr₂, ⟨r, w'⟩, rfl, hreq, h⟩
  · -- `request` itself returns its errors
    rcases h.of_bind_fail with h | ⟨_, _, s, rfl, hsend, h⟩
    · exact (sys_not_fail h).elim
    · cases s with
      | error d => cases h.of_ret.2
      | ok _ =>
        rcases h.of_bind_fail with h | ⟨_, _, x, rfl, -, h⟩
        · obtain ⟨q, -, he⟩ := h.of_attempt
          cases q <;> cases he
        · cases h.of_ret.2
  · have hreturned : tr₂ = [] ∧ r = .error e := by
      cases r with
      | ok a => cases (Reaches.of_ret h).2
      | error e' =>
        obtain ⟨rfl, he⟩ := Reaches.of_fail h
        cases he
        exact ⟨rfl, rfl⟩
    obtain ⟨rfl, rfl⟩ := hreturned
    obtain ⟨_, _, s, rfl, hsend, hrest⟩ := hreq.of_bind_ret
    cases reaches_sys hsend
    cases s with
    | error d =>
      rw [hrest.of_ret.1]
      exact .inl ⟨d, rfl⟩
    | ok _ =>
      obtain ⟨_, _, x, rfl, hack, hret⟩ := hrest.of_bind_ret
      obtain ⟨rfl, he⟩ := hret.of_ret
      obtain ⟨q, hq, he'⟩ := hack.of_attempt
      cases he
      cases q <;> cases he'
      rcases recvAck_fail hq with ⟨d, rfl⟩ | ⟨d, rfl⟩
      · exact .inr (.inl ⟨d, rfl⟩)
      · exact .inr (.inr ⟨d, rfl⟩)

/-! ### A call that fails -/

/-- The thread is where it was, and there is no new link in the host. -/
def Undone (s : HostSide) : Prop := s.home = true ∧ s.links = []

theorem undone_of_offline (h : ∀ ev ∈ tr, ev.1.offline = true) :
    Undone (HostSide.start.after id done tr) ↔ ¬PairMade done tr := by
  rw [HostSide.after_offline h]
  refine iff_of_true ⟨rfl, rfl⟩ ?_
  rintro ⟨⟨⟨op, r⟩, hmem, hsends⟩, -⟩
  have hop : op.offline = true := h _ hmem
  cases op <;> contradiction

/-- What the first request leaves when it fails. -/
theorem undone_of_pair {sk : Nat} {w : Writer} (hw : makesPair id w.buf = true)
    (h : ∀ ev ∈ tr, ev.1.offline = true) (hpair : Reaches (orReturn (request sk w)) tr' (.fail e)) :
    Undone (HostSide.start.after id done (tr ++ tr')) ↔ ¬PairMade done (tr ++ tr') := by
  rw [HostSide.after_append, HostSide.after_offline h]
  have hsent {r : Io NetlinkReply} : Undone (HostSide.start.after id done
      [⟨.send sk w.buf, .ok ()⟩, ⟨.recv sk, r⟩]) ↔
        ¬PairMade done (tr ++ [⟨.send sk w.buf, .ok ()⟩, ⟨.recv sk, r⟩]) := by
    have hmade : PairMade done (tr ++ [⟨.send sk w.buf, .ok ()⟩, ⟨.recv sk, r⟩]) ↔ done 0 = true :=
      and_iff_right ⟨⟨.send sk w.buf, .ok ()⟩, by simp, rfl⟩
    rw [hmade]
    cases hdone : done 0 <;> simp [Undone, HostSide.after, HostSide.next, HostSide.start, hw, hdone]
  rcases request_fail hpair with ⟨d, rfl⟩ | ⟨d, rfl⟩ | ⟨d, rfl⟩
  · -- nothing has reached the kernel
    refine iff_of_true ⟨rfl, rfl⟩ ?_
    rintro ⟨⟨⟨op, r⟩, hmem, hsends⟩, -⟩
    rcases List.mem_append.mp hmem with hmem | hmem
    · have hop : op.offline = true := h _ hmem
      cases op <;> contradiction
    · cases List.mem_singleton.mp hmem
      contradiction
  · exact hsent
  · exact hsent

/-- A pair that has been made stays, whatever is done after it. -/
theorem not_undone_of_pair {sk : Nat} {w w' : Writer} {u : Unit} {tr₂ : List Sys.Ev}
    (hw : makesPair id w.buf = true) (h : ∀ ev ∈ tr, ev.1.offline = true)
    (hpair : Reaches (orReturn (request sk w)) tr' (.ret (u, w')))
    (hfirst : FirstReply done (tr ++ (tr' ++ tr₂))) :
    Undone (HostSide.start.after id done (tr ++ (tr' ++ tr₂))) ↔ ¬PairMade done (tr ++ (tr' ++ tr₂)) := by
  obtain ⟨-, reply, hreply, rfl⟩ := request_ret hpair
  have hdone : done 0 = true := hfirst tr tr₂ sk w.buf sk reply rfl h hreply
  have hmade : PairMade done (tr ++ ([⟨.send sk w.buf, .ok ()⟩, ⟨.recv sk, .ok reply⟩] ++ tr₂)) :=
    ⟨⟨⟨.send sk w.buf, .ok ()⟩, by simp, rfl⟩, hdone⟩
  refine iff_of_false ?_ (not_not.mpr hmade)
  rintro ⟨-, hlinks⟩
  rw [HostSide.after_append, HostSide.after_offline h, HostSide.after_append] at hlinks
  have hmem : hostEnd id ∈ ((HostSide.start.after id done
      [⟨.send sk w.buf, .ok ()⟩, ⟨.recv sk, .ok reply⟩]).after id done tr₂).links := by
    refine HostSide.hostEnd_after ?_
    simp [HostSide.after, HostSide.next, HostSide.start, hw, hdone]
  rw [hlinks] at hmem
  exact List.not_mem_nil hmem

/-- When `create_network` has failed, it has undone what it did if and only if the kernel has not
made the pair of links. -/
theorem network_undone (h : Reaches (createNetwork id pid) tr (.fail e)) (hfirst : FirstReply done tr) :
    Undone (HostSide.start.after id done tr) ↔ ¬PairMade done tr := by
  have hopen {path : String} {f : Errno → CoreError} :
      Calls (S := Sys) (fun op => op.offline = true) (mapErr (sys (.openFd path)) f) :=
    Clonebox.Calls.mapErr ⟨rfl, fun _ => trivial⟩
  have hsocket : Calls (S := Sys) (fun op => op.offline = true) createNetlinkSocket :=
    Calls.bind (Clonebox.Calls.mapErr ⟨rfl, fun _ => trivial⟩) fun _ =>
      Calls.bind (Clonebox.Calls.mapErr ⟨rfl, fun _ => trivial⟩) fun _ => trivial
  rcases h.of_bind_fail with h | ⟨tr₁, tr, _, rfl, h₁, h⟩
  · exact undone_of_offline (h.calls hopen).1
  rcases h.of_bind_fail with h | ⟨tr₂, tr, fd, rfl, h₂, h⟩
  · exact undone_of_offline (List.forall_mem_append.mpr ⟨(h₁.calls hopen).1, (h.calls hopen).1⟩)
  cases hsuffix : takeBytes 9 id.toList with
  | none =>
    simp only [hsuffix] at h
    rcases Reaches.of_call h with ⟨-, he⟩ | ⟨_, _, -, hhalt⟩
    · cases he
    · cases hhalt.of_halt.2
  | some suffix =>
    simp only [hsuffix] at h
    have hw : makesPair id
        (Writer.createVethPair (String.ofList suffix) (String.ofList suffix ++ "_peer") ⟨[]⟩).buf = true := by
      rw [makesPair, hostEnd, hsuffix]
      exact decide_eq_true rfl
    rw [← List.append_assoc] at hfirst ⊢
    have hoffline := List.forall_mem_append.mpr ⟨(h₁.calls hopen).1, (h₂.calls hopen).1⟩
    rcases h.of_bind_fail with h | ⟨tr₃, tr, sk, rfl, h₃, h⟩
    · exact undone_of_offline (List.forall_mem_append.mpr ⟨hoffline, (h.calls hsocket).1⟩)
    rw [← List.append_assoc] at hfirst ⊢
    have hoffline := List.forall_mem_append.mpr ⟨hoffline, (h₃.calls hsocket).1⟩
    rcases h.of_bind_fail with h | ⟨tr₄, tr₅, ⟨u, w'⟩, rfl, h₄, -⟩
    · exact undone_of_pair hw hoffline h
    · exact not_undone_of_pair hw hoffline h₄ hfirst

/-- The first request is not sent. -/
theorem network_undone_sample : ∃ (tr : List Sys.Ev) (e : CoreError),
    Reaches (createNetwork "c1" 7) tr (.fail e) ∧ Undone (HostSide.start.after "c1" (fun _ => true) tr) := by
  have hrun : ∃ (buf : List UInt8) (e : CoreError), Reaches (createNetwork "c1" 7)
      [⟨.openFd "/proc/self/ns/net", .ok 5⟩, ⟨.openFd "/proc/7/ns/net", .ok 6⟩, ⟨.netlinkSocket, .ok 1⟩,
        ⟨.netlinkBind 1, .ok ()⟩, ⟨.send 1 buf, .error .eaddrinuse⟩] (.fail e) :=
    ⟨_, _, .cons (.cons (.cons (.cons (.cons .nil))))⟩
  obtain ⟨buf, e, hrun⟩ := hrun
  refine ⟨_, e, hrun, (network_undone hrun fun _ _ _ _ _ _ _ _ _ => rfl).mpr ?_⟩
  simp [PairMade, sendsRequest]

/-- Every call succeeds, and the kernel answers each request, except that the thread cannot go back
to the host. -/
def lost (last : Option Sys.Ev) : (op : Op) → Option op.Ret
  | .openFd _ => some (.ok 5)
  | .netlinkSocket => some (.ok 1)
  | .netlinkBind _ | .send _ _ => some (.ok ())
  | .recv _ =>
    match last with
    | some ⟨.send _ buf, _⟩ => ((Verdict.reply (.ok 3) buf).head?).map .ok
    | _ => none
  | .setns path => some (if path = "/proc/self/ns/net" then .error .esrch else .ok ())
  | _ => none

/-- An error, and the thread is in the container's network namespace and the host has a new link. -/
theorem network_left : ∃ (tr : List Sys.Ev) (e : CoreError),
    Reaches (createNetwork "c1" 7) tr (.fail e) ∧ FirstReply (fun _ => true) tr ∧
    (HostSide.start.after "c1" (fun _ => true) tr).home = false ∧
    (HostSide.start.after "c1" (fun _ => true) tr).links = ["c1"] := by
  have hfail : (errorOf (followFrom lost 30 none (createNetwork "c1" 7)).2).isSome = true := by
    decide +kernel
  obtain ⟨e, he⟩ := Option.isSome_iff_exists.mp hfail
  have hrun : Reaches (createNetwork "c1" 7) (followFrom lost 30 none (createNetwork "c1" 7)).1
      (.fail e) := by
    rw [← errorOf_eq_some he]
    exact reaches_followFrom
  exact ⟨_, e, hrun, fun _ _ _ _ _ _ _ _ _ => rfl, by decide +kernel, by decide +kernel⟩

end Clonebox
