import Clonebox.Netlink.WellFormed

/-! # Each reply is read by its own request

The kernel answers on the socket a request came in on: one message to a request that asks for an
acknowledgement, and one to a query. -/

namespace Clonebox
open Tlv Conc Prog

/-- What the kernel makes of a request: an error, or the index of the link that is asked for. -/
abbrev Verdict := Except Errno UInt32

/-- What the kernel sends back. -/
def Verdict.reply (v : Verdict) (buf : List UInt8) : List NetlinkReply :=
  match readNlMsgHdr buf, v with
  | none, _ => []
  | some (hdr, _), .error e =>
    if hdr.nlmsgFlags &&& NLM_F_ACK ≠ 0 ∨ hdr.nlmsgType = RTM_GETLINK then [.error e] else []
  | some (hdr, _), .ok index =>
    if hdr.nlmsgFlags &&& NLM_F_ACK ≠ 0 then [.ack hdr.nlmsgLen]
    else if hdr.nlmsgType = RTM_GETLINK then [.link index]
    else []

/-- The kernel's side: what each socket has to receive, and the number of requests so far. -/
structure Rtnetlink where
  queue : Nat → List NetlinkReply
  served : Nat

namespace Rtnetlink

def fresh : Rtnetlink := ⟨fun _ => [], 0⟩

/-- Calls take effect at once and succeed; `recv` waits for a message. `verdict` is what the kernel
makes of each request, by its number. -/
def exec (verdict : Nat → List UInt8 → Verdict) (w : Rtnetlink) : (op : Op) → Option (op.Ret × Rtnetlink)
  | .send sk buf =>
    let reply := (verdict w.served buf).reply buf
    some (.ok (), ⟨Function.update w.queue sk (w.queue sk ++ reply), w.served + 1⟩)
  | .recv sk =>
    match w.queue sk with
    | [] => none
    | m :: ms => some (.ok m, { w with queue := Function.update w.queue sk ms })
  | _ => none

end Rtnetlink

/-- Call the function on a socket. Only a query has a value. -/
def NetlinkRequest.call (socket : Nat) (w : Writer) :
    NetlinkRequest → Core (Except CoreError (Option UInt32) × Writer)
  | .createVethPair host peer => noIndex (Clonebox.createVethPair socket w host peer)
  | .getInterfaceIndex iName => do
    let (r, w) ← Clonebox.getInterfaceIndex socket w iName
    pure (r.map some, w)
  | .setIpAddr ifaceId ip prefixLen => noIndex (Clonebox.setIpAddr socket w ifaceId ip prefixLen)
  | .setInterfaceUp ifaceId => noIndex (Clonebox.setInterfaceUp socket w ifaceId)
  | .moveToNetns iId childFd => noIndex (Clonebox.moveToNetns socket w iId childFd)
  | .addDefaultRoute ip => noIndex (Clonebox.addDefaultRoute socket w ip)
where
  noIndex (p : Core (Except CoreError Unit × Writer)) :
      Core (Except CoreError (Option UInt32) × Writer) := do
    let (r, w) ← p
    pure (r.map fun _ => none, w)

/-- Call one function after another, each with the writer the last one leaves. -/
def callAll (w : Writer) : List (Nat × NetlinkRequest) →
    Core (List (Except CoreError (Option UInt32)) × Writer)
  | [] => pure ([], w)
  | (socket, req) :: rest => do
    let (r, w) ← req.call socket w
    let (rs, w) ← callAll w rest
    pure (r :: rs, w)

/-! ### One call -/

/-- What the function should return, if `v` is what the kernel makes of its request. -/
def NetlinkRequest.result (v : Verdict) (req : NetlinkRequest) : Except CoreError (Option UInt32) :=
  match v with
  | .error e => .error ↑(NetworkError.netlinkFailure ("netlink error: " ++ e.ioDisplay))
  | .ok index => .ok (if req.nlmsgType = RTM_GETLINK then some index else none)

namespace Rtnetlink

variable {verdict : Nat → List UInt8 → Verdict} {w : Rtnetlink} {sk : Nat} {α β : Type}

/-- A message that was received is gone. -/
theorem exec_recv {m : NetlinkReply} {ms : List NetlinkReply} (h : w.queue sk = m :: ms) :
    w.exec verdict (.recv sk) = some (.ok m, ⟨Function.update w.queue sk ms, w.served⟩) := by
  simp only [exec, h]

/-- The socket of a request has what is sent back, and nothing else. -/
theorem exec_send (h : w.queue sk = []) (buf : List UInt8) :
    w.exec verdict (.send sk buf) = some (.ok (),
      ⟨Function.update w.queue sk ((verdict w.served buf).reply buf), w.served + 1⟩) := by
  simp only [exec, h, List.nil_append]

/-- Send and receive the one message that comes back. -/
theorem alone_exchange {buf : List UInt8} {m : NetlinkReply} (h : w.queue sk = [])
    (hm : (verdict w.served buf).reply buf = [m]) (ks : Io Unit → Core α)
    (kr : Io NetlinkReply → Core α) (hk : ks (.ok ()) = .call (.recv sk) kr) :
    alone (S := Sys) (exec verdict) w (.call (.send sk buf) ks) =
      alone (exec verdict) ⟨w.queue, w.served + 1⟩ (kr (.ok m)) := by
  have hback : Function.update (Function.update w.queue sk [m]) sk [] = w.queue := by
    rw [Function.update_idem, ← h, Function.update_eq_self]
  have hrecv : exec verdict ⟨Function.update w.queue sk [m], w.served + 1⟩ (.recv sk) =
      some (.ok m, ⟨w.queue, w.served + 1⟩) := by
    rw [exec_recv (Function.update_self ..)]
    exact congrArg (fun q => some (_, Rtnetlink.mk q _)) hback
  simp only [alone, exec_send h, hm, hk, hrecv]

end Rtnetlink

/-- The message that comes back. -/
def NetlinkRequest.answer (v : Verdict) (req : NetlinkRequest) : NetlinkReply :=
  match v with
  | .error e => .error e
  | .ok index => if req.nlmsgType = RTM_GETLINK then .link index else .ack (.ofNat req.bytes.length)

/-- A request asks for an acknowledgement, unless it is a query. -/
theorem NetlinkRequest.acks_iff (req : NetlinkRequest) :
    req.nlmsgFlags &&& NLM_F_ACK ≠ 0 ↔ req.nlmsgType ≠ RTM_GETLINK := by
  cases req <;> simp only [nlmsgFlags, nlmsgType] <;> decide

/-- Exactly one message comes back. -/
theorem NetlinkRequest.reply_write (v : Verdict) (req : NetlinkRequest) :
    v.reply (req.write ⟨[]⟩).buf = [req.answer v] := by
  have hacks := req.acks_iff
  have hflags : (req.head req.bytes.length).nlmsgFlags = req.nlmsgFlags := rfl
  have htype : (req.head req.bytes.length).nlmsgType = req.nlmsgType := rfl
  unfold Verdict.reply
  rw [req.write_eq, req.readNlMsgHdr_head]
  cases v with
  | error e =>
    dsimp only
    rw [hflags, htype, if_pos (by rw [hacks]; exact ne_or_eq _ _)]
    rfl
  | ok index =>
    by_cases hquery : req.nlmsgType = RTM_GETLINK
    · have hack : ¬(req.nlmsgFlags &&& NLM_F_ACK ≠ 0) := fun h => hacks.mp h hquery
      dsimp only
      rw [hflags, htype, if_neg hack, if_pos hquery, NetlinkRequest.answer, if_pos hquery]
    · dsimp only
      rw [hflags, if_pos (hacks.mpr hquery), NetlinkRequest.answer, if_neg hquery]
      rfl

namespace Rtnetlink

variable {verdict : Nat → List UInt8 → Verdict} {w : Rtnetlink} {sk : Nat} {α β : Type}

variable (verdict) in
/-- A call sends its request, reads the message that comes back, and leaves the writer empty. -/
theorem alone_call (req : NetlinkRequest) (h : w.queue sk = []) :
    alone (exec verdict) w (req.call sk ⟨[]⟩) =
      some (.ok (req.result (verdict w.served (req.write ⟨[]⟩).buf), ⟨[]⟩),
        ⟨w.queue, w.served + 1⟩) := by
  have hreply := req.reply_write (verdict w.served (req.write ⟨[]⟩).buf)
  have hcall {ks : Io Unit → Core (Except CoreError (Option UInt32) × Writer)}
      (kr : Io NetlinkReply → Core (Except CoreError (Option UInt32) × Writer))
      (hs : req.call sk ⟨[]⟩ = .call (.send sk (req.write ⟨[]⟩).buf) ks)
      (hk : ks (.ok ()) = .call (.recv sk) kr)
      (hr : ∀ v, kr (.ok (req.answer v)) = .ret (req.result v, ⟨[]⟩)) :
      alone (exec verdict) w (req.call sk ⟨[]⟩) =
        some (.ok (req.result (verdict w.served (req.write ⟨[]⟩).buf), ⟨[]⟩),
          ⟨w.queue, w.served + 1⟩) := by
    rw [hs, alone_exchange h hreply ks kr hk, hr]
    rfl
  cases req with
  | getInterfaceIndex iName =>
    refine hcall _ rfl rfl fun v => ?_
    cases v <;> rfl
  | createVethPair | setIpAddr | setInterfaceUp | moveToNetns | addDefaultRoute =>
    refine hcall _ rfl rfl fun v => ?_
    cases v <;> rfl

/-! ### A sequence of calls -/

variable (verdict) in
/-- Calls on sockets that have nothing to receive leave the queues as they are. -/
theorem alone_callAll {calls : List (Nat × NetlinkRequest)} (h : ∀ call ∈ calls, w.queue call.1 = []) :
    ∃ rs, alone (exec verdict) w (callAll ⟨[]⟩ calls) =
      some (.ok (rs, ⟨[]⟩), ⟨w.queue, w.served + calls.length⟩) := by
  induction calls generalizing w with
  | nil => exact ⟨[], rfl⟩
  | cons call calls ih =>
    obtain ⟨sk, req⟩ := call
    obtain ⟨hhead, htail⟩ := List.forall_mem_cons.mp h
    obtain ⟨rs, hrest⟩ := ih (w := ⟨w.queue, w.served + 1⟩) htail
    have hnum : w.served + 1 + calls.length = w.served + (calls.length + 1) := by omega
    refine ⟨req.result (verdict w.served (req.write ⟨[]⟩).buf) :: rs, ?_⟩
    rw [callAll, bind_def, alone_bind (alone_call verdict req hhead)]
    dsimp only
    rw [bind_def, alone_bind hrest, hnum]
    rfl

end Rtnetlink

/-- Whatever calls have been made, on any sockets, and whatever the kernel has made of them: the
next call returns, with nothing left to receive on its socket; it fails if and only if the kernel
has rejected its own request; and the index that a query returns is the one its own request was
answered with. -/
theorem each_reply_consumed (verdict : Nat → List UInt8 → Verdict)
    (calls : List (Nat × NetlinkRequest)) (socket : Nat) (req : NetlinkRequest) :
    ∃ rs w r w', alone (Rtnetlink.exec verdict) .fresh (callAll ⟨[]⟩ calls) = some (.ok (rs, ⟨[]⟩), w) ∧
      w.served = calls.length ∧
      alone (Rtnetlink.exec verdict) w (req.call socket ⟨[]⟩) = some (.ok (r, ⟨[]⟩), w') ∧
      w'.queue socket = [] ∧
      ((∃ e, r = .error e) ↔ ∃ e, verdict calls.length (req.write ⟨[]⟩).buf = .error e) ∧
      ∀ iName, req = .getInterfaceIndex iName → ∀ index, r = .ok index →
        ∃ i, index = some i ∧ verdict calls.length (req.write ⟨[]⟩).buf = .ok i := by
  have hempty : ∀ call ∈ calls, Rtnetlink.fresh.queue call.1 = [] := fun _ _ => rfl
  obtain ⟨rs, hcalls⟩ := Rtnetlink.alone_callAll verdict hempty
  have hserved : Rtnetlink.fresh.served + calls.length = calls.length := Nat.zero_add _
  rw [hserved] at hcalls
  have hqueue : (Rtnetlink.mk Rtnetlink.fresh.queue calls.length).queue socket = [] := rfl
  have hcall := Rtnetlink.alone_call verdict req hqueue
  refine ⟨rs, _, _, _, hcalls, rfl, hcall, rfl, ?_, ?_⟩
  · cases verdict calls.length (req.write ⟨[]⟩).buf with
    | error e => exact iff_of_true ⟨_, rfl⟩ ⟨e, rfl⟩
    | ok index => exact iff_of_false nofun nofun
  · intro iName hreq index hr
    subst hreq
    cases hv : verdict calls.length ((NetlinkRequest.getInterfaceIndex iName).write ⟨[]⟩).buf with
    | error e =>
      rw [hv] at hr
      cases hr
    | ok i =>
      rw [hv] at hr
      cases hr
      exact ⟨i, rfl, rfl⟩

end Clonebox
