import Clonebox.Core.Netlink

/-! # Messages of rtnetlink

How the kernel reads a message: a head with the length of the whole, the fixed header that belongs
to the type, and attributes to the end, some of which are made of attributes again. -/

namespace Clonebox
open Tlv

/-! ### Reading -/

/-- An attribute: its bytes, or the header and the attributes nested in it. -/
inductive Attr where
  | data (type : Nat) (bytes : List UInt8)
  | nest (type : Nat) (header : List UInt8) (attrs : List Attr)

/-- Where an attribute stands. -/
inductive Place where
  | link
  | linkInfo
  /-- In `IFLA_INFO_DATA` of a `veth`. -/
  | vethData
  | other
  deriving DecidableEq

/-- The attributes that nest others: the length of the header before these, and where they stand. -/
def Place.nests : Place → Nat → Option (Nat × Place)
  | .link, type => if type = IFLA_LINKINFO.toNat then some (0, .linkInfo) else none
  | .linkInfo, type => if type = IFLA_INFO_DATA.toNat then some (0, .vethData) else none
  | .vethData, type => if type = VETH_INFO_PEER.toNat then some (16, .link) else none
  | .other, _ => none

def readAttrs : Nat → Place → List UInt8 → Option (List Attr)
  | 0, _, _ => none
  | depth + 1, place, bs => do
    let records ← parse bs
    records.mapM fun a =>
      match place.nests a.type with
      | none => some (.data a.type a.value)
      | some (n, inner) =>
        if n ≤ a.value.length then
          (readAttrs depth inner (a.value.drop n)).map (.nest a.type (a.value.take n))
        else none

def readNlMsgHdr (bs : List UInt8) : Option (NlMsgHdr × List UInt8) := do
  let (len, bs) ← number 4 bs
  let (type, bs) ← number 2 bs
  let (flags, bs) ← number 2 bs
  let (seq, bs) ← number 4 bs
  let (pid, bs) ← number 4 bs
  some (⟨.ofNat len, .ofNat type, .ofNat flags, .ofNat seq, .ofNat pid⟩, bs)

def readIfInfoMsg (bs : List UInt8) : Option (IfInfoMsg × List UInt8) := do
  let (family, bs) ← number 1 bs
  let (_, bs) ← number 1 bs
  let (type, bs) ← number 2 bs
  let (index, bs) ← number 4 bs
  let (flags, bs) ← number 4 bs
  let (change, bs) ← number 4 bs
  some (⟨.ofNat family, .ofNat type, Int32.ofUInt32 (.ofNat index), .ofNat flags, .ofNat change⟩, bs)

def readIfAddrMsg (bs : List UInt8) : Option (IfAddrMsg × List UInt8) := do
  let (family, bs) ← number 1 bs
  let (prefixlen, bs) ← number 1 bs
  let (flags, bs) ← number 1 bs
  let (scope, bs) ← number 1 bs
  let (index, bs) ← number 4 bs
  some (⟨.ofNat family, .ofNat prefixlen, .ofNat flags, .ofNat scope, .ofNat index⟩, bs)

def readRtMsg (bs : List UInt8) : Option (RtMsg × List UInt8) := do
  let (family, bs) ← number 1 bs
  let (dstLen, bs) ← number 1 bs
  let (srcLen, bs) ← number 1 bs
  let (tos, bs) ← number 1 bs
  let (table, bs) ← number 1 bs
  let (protocol, bs) ← number 1 bs
  let (scope, bs) ← number 1 bs
  let (type, bs) ← number 1 bs
  let (flags, bs) ← number 4 bs
  some (⟨.ofNat family, .ofNat dstLen, .ofNat srcLen, .ofNat tos, .ofNat table, .ofNat protocol,
    .ofNat scope, .ofNat type, .ofNat flags⟩, bs)

/-- The fixed header of a message. -/
inductive Header where
  | link (m : IfInfoMsg)
  | addr (m : IfAddrMsg)
  | route (m : RtMsg)
  deriving DecidableEq

def readHeader (type : UInt16) (bs : List UInt8) : Option ((Header × Place) × List UInt8) :=
  if type = RTM_NEWLINK ∨ type = RTM_GETLINK then
    (readIfInfoMsg bs).map fun (m, bs) => ((.link m, .link), bs)
  else if type = RTM_NEWADDR then (readIfAddrMsg bs).map fun (m, bs) => ((.addr m, .other), bs)
  else if type = RTM_NEWROUTE then (readRtMsg bs).map fun (m, bs) => ((.route m, .other), bs)
  else none

structure Message where
  hdr : NlMsgHdr
  header : Header
  attrs : List Attr

/-- Read the bytes as one message, to the last byte. -/
def readMessage (bs : List UInt8) : Option Message := do
  let (hdr, rest) ← readNlMsgHdr bs
  if hdr.nlmsgLen.toNat = bs.length then
    let ((header, place), rest) ← readHeader hdr.nlmsgType rest
    let attrs ← readAttrs bs.length place rest
    some ⟨hdr, header, attrs⟩
  else none

/-! ### What was written is read back -/

@[simp] theorem number_byte (b : UInt8) (bs : List UInt8) : number 1 (b :: bs) = some (b.toNat, bs) := by
  simp [number, ofLe]

@[simp] theorem number_ne16 (n : UInt16) (bs : List UInt8) :
    number 2 (neBytes16 n ++ bs) = some (n.toNat, bs) := number_le n.toNat_lt bs

@[simp] theorem number_ne32 (n : UInt32) (bs : List UInt8) :
    number 4 (neBytes32 n ++ bs) = some (n.toNat, bs) := number_le n.toNat_lt bs

@[simp] theorem length_neBytes16 (n : UInt16) : (neBytes16 n).length = 2 := length_le ..
@[simp] theorem length_neBytes32 (n : UInt32) : (neBytes32 n).length = 4 := length_le ..

theorem readNlMsgHdr_bytes (h : NlMsgHdr) (bs : List UInt8) :
    readNlMsgHdr (h.bytes ++ bs) = some (h, bs) := by
  simp [readNlMsgHdr, NlMsgHdr.bytes]

theorem readIfInfoMsg_bytes (m : IfInfoMsg) (bs : List UInt8) :
    readIfInfoMsg (m.bytes ++ bs) = some (m, bs) := by
  simp [readIfInfoMsg, IfInfoMsg.bytes]

theorem readIfAddrMsg_bytes (m : IfAddrMsg) (bs : List UInt8) :
    readIfAddrMsg (m.bytes ++ bs) = some (m, bs) := by
  simp [readIfAddrMsg, IfAddrMsg.bytes]

theorem readRtMsg_bytes (m : RtMsg) (bs : List UInt8) :
    readRtMsg (m.bytes ++ bs) = some (m, bs) := by
  simp [readRtMsg, RtMsg.bytes]

end Clonebox
