import Clonebox.Core.Runs
import Clonebox.Netlink.WellFormed

/-! # The links that the requests are about

The pair is made by the first request of `create_network`, and its other end is moved by a later
one. -/

namespace Clonebox
open Conc Prog Tlv

variable {id : String} {tr : List Sys.Ev}

/-- The name of the link on the host. -/
def hostEnd (id : String) : String := String.ofList ((takeBytes 9 id.toList).getD [])

def makesPair (id : String) (buf : List UInt8) : Bool :=
  buf = ((NetlinkRequest.createVethPair (hostEnd id) (hostEnd id ++ "_peer")).write ⟨[]⟩).buf

/-- The request moves a link to another network namespace. -/
def movesLink (buf : List UInt8) : Bool :=
  match readMessage buf with
  | some m => m.attrs.any fun attr => match attr with
    | .data type _ => type = IFLA_NET_NS_FD.toNat
    | .nest _ _ _ => false
  | none => false

theorem host_ne_peer {host : String} : host ≠ host ++ "_peer" := by
  intro h
  have hsize : host.utf8ByteSize = host.utf8ByteSize + "_peer".utf8ByteSize := by
    rw [← String.utf8ByteSize_append, ← h]
  have hpeer : "_peer".utf8ByteSize = 5 := rfl
  omega

/-! ### Runs of the request functions -/

theorem recvAck_ret {sk : Nat} (h : Reaches (recvAck sk) tr (.ret ())) :
    ∃ reply, (∀ e, reply ≠ .error e) ∧ tr = [⟨.recv sk, .ok reply⟩] := by
  obtain ⟨_, _, reply, rfl, hrecv, hret⟩ := h.of_bind_ret
  cases reaches_sys (reaches_mapErr hrecv)
  cases reply with
  | error e => cases hret.of_fail.2
  | ack _ | link _ =>
    rw [hret.of_ret.1]
    exact ⟨_, by simp, rfl⟩

/-- A request that has returned has sent what was written, and nothing is left in the writer. -/
theorem request_ret {sk : Nat} {w w' : Writer} {u : Unit}
    (h : Reaches (orReturn (request sk w)) tr (.ret (u, w'))) :
    w' = ⟨[]⟩ ∧ ∃ reply, (∀ e, reply ≠ .error e) ∧
      tr = [⟨.send sk w.buf, .ok ()⟩, ⟨.recv sk, .ok reply⟩] := by
  obtain ⟨tr₁, tr₂, ⟨r, w₁⟩, rfl, hreq, h⟩ := h.of_bind_ret
  obtain ⟨_, _, s, rfl, hsend, hrest⟩ := hreq.of_bind_ret
  cases reaches_sys hsend
  cases s with
  | error e =>
    cases hrest.of_ret.2
    obtain ⟨_, _, _, rfl, hfail, -⟩ := h.of_bind_ret
    cases hfail.of_fail.2
  | ok _ =>
    obtain ⟨_, _, x, rfl, hack, hret⟩ := hrest.of_bind_ret
    obtain ⟨rfl, e⟩ := hret.of_ret
    cases e
    obtain ⟨q, hq, he⟩ := hack.of_attempt
    obtain ⟨_, _, _, rfl, hr, hpure⟩ := h.of_bind_ret
    cases q with
    | ret v =>
      cases he
      obtain ⟨reply, hreply, rfl⟩ := recvAck_ret hq
      obtain ⟨rfl, -⟩ := hr.of_ret
      obtain ⟨rfl, e⟩ := hpure.of_ret
      cases e
      exact ⟨rfl, reply, hreply, rfl⟩
    | fail e =>
      cases he
      cases hr.of_fail.2
    | halt | call => cases he

theorem query_ret {sk : Nat} {w w' : Writer} {iName : String} {index : UInt32}
    (h : Reaches (orReturn (getInterfaceIndex sk w iName)) tr (.ret (index, w'))) : w' = ⟨[]⟩ := by
  obtain ⟨tr₁, tr₂, ⟨r, w₁⟩, rfl, hreq, h⟩ := h.of_bind_ret
  obtain ⟨_, _, s, rfl, hsend, hrest⟩ := hreq.of_bind_ret
  cases s with
  | error e =>
    cases hrest.of_ret.2
    obtain ⟨_, _, _, rfl, hfail, -⟩ := h.of_bind_ret
    cases hfail.of_fail.2
  | ok _ =>
    obtain ⟨_, _, x, rfl, hack, hret⟩ := hrest.of_bind_ret
    cases hret.of_ret.2
    obtain ⟨_, _, _, rfl, -, hret⟩ := h.of_bind_ret
    cases hret.of_ret.2
    rfl

/-- The kernel reads the request as what it is. -/
theorem movesLink_write (iId : UInt32) (fd : Int32) :
    movesLink ((NetlinkRequest.moveToNetns iId fd).write ⟨[]⟩).buf = true := by
  have hlen : (NetlinkRequest.moveToNetns iId fd).bytes.length < 65536 := by
    rw [NetlinkRequest.length_bytes]
    simp [NetlinkRequest.records, NetlinkRequest.header, Header.bytes, IfInfoMsg.bytes, encode,
      Record.encode, Record.length, pad, align]
  rw [NetlinkRequest.write_eq]
  simp only [movesLink, NetlinkRequest.readMessage_bytes _ hlen, NetlinkRequest.message, NetlinkRequest.attrs]
  rfl

end Clonebox
