import Clonebox.Core.Error
import Clonebox.Lib.Tlv

/-! # Netlink messages (`network.rs`)

The writer, the reader, the kernel's structures as bytes, and what each request writes. The host is
little-endian (`to_ne_bytes`). -/

namespace Clonebox

/-! ### `Writer` -/

def neBytes16 (n : UInt16) : List UInt8 := Tlv.le 2 n.toNat
def neBytes32 (n : UInt32) : List UInt8 := Tlv.le 4 n.toNat
def neBytes64 (n : UInt64) : List UInt8 := Tlv.le 8 n.toNat

/-- `str::as_bytes` -/
def asBytes (s : String) : List UInt8 := s.toUTF8.data.toList

structure Writer where
  buf : List UInt8

namespace Writer

def flush (_w : Writer) : Writer := ⟨[]⟩

def pos (w : Writer) : Nat := w.buf.length

def writeBytes (bytes : List UInt8) (w : Writer) : Writer := ⟨w.buf ++ bytes⟩

def writeU8 (n : UInt8) (w : Writer) : Writer := w.writeBytes [n]
def writeU16 (n : UInt16) (w : Writer) : Writer := w.writeBytes (neBytes16 n)
def writeU32 (n : UInt32) (w : Writer) : Writer := w.writeBytes (neBytes32 n)
def writeI32 (n : Int32) (w : Writer) : Writer := w.writeBytes (neBytes32 n.toUInt32)
def writeU64 (n : UInt64) (w : Writer) : Writer := w.writeBytes (neBytes64 n)

def padToAlign (w : Writer) : Writer :=
  if w.buf.length % 4 = 0 then w else padToAlign (w.writeU8 0)
termination_by (4 - w.buf.length % 4) % 4
decreasing_by
  simp only [writeU8, writeBytes, List.length_append, List.length_singleton]
  omega

/-- `w.buf[at..at + n].copy_from_slice(bytes)` -/
def copyAt (start : Nat) (bytes : List UInt8) (w : Writer) : Writer :=
  ⟨w.buf.take start ++ bytes ++ w.buf.drop (start + bytes.length)⟩

def nestStart (rtaType : UInt16) (w : Writer) : Writer × Nat :=
  (w.writeU16 0 |>.writeU16 rtaType, w.pos)

def nestEnd (pos : Nat) (w : Writer) : Writer :=
  w.copyAt pos (neBytes16 (.ofNat (w.pos - pos))) |>.padToAlign

/-- The length of the message is written over its first four bytes. -/
def finish (w : Writer) : Writer := w.copyAt 0 (neBytes32 (.ofNat w.pos))

end Writer

/-! ### `Reader`

A function that borrows the reader returns what it leaves there. `none` is a panic. -/

structure Reader where
  buf : List UInt8
  cursor : Nat
  deriving DecidableEq

namespace Reader

variable {α : Type}

/-- `(n + cursor) < buf.len()` on `usize`. The sum panics when it overflows; where it is compiled to
wrap, the check passes and the loop of `_read_bytes` panics. -/
def checkBound (n : Nat) (r : Reader) : Option Bool :=
  if n + r.cursor < 2 ^ 64 then some (n + r.cursor < r.buf.length) else none

/-- The loop of `_read_bytes`. It takes the bytes from the start of the buffer, not from the
cursor. -/
def pushBytes : (left i : Nat) → List UInt8 → Reader → Option (List UInt8 × Reader)
  | 0, _, val, r => some (val, r)
  | left + 1, i, val, r =>
    match r.buf[i]? with
    | none => none
    | some b => pushBytes left (i + 1) (val ++ [b]) { r with cursor := r.cursor + 1 }

def readBytes (n : Nat) (r : Reader) : Option (Except CoreError (List UInt8) × Reader) := do
  if (← r.checkBound n) = false then
    return (.error ↑NetworkError.readOutOfRange, r)
  let (val, r) ← r.pushBytes n 0 []
  return (.ok val, r)

/-- `&buf[cursor..cursor + n]` -/
def slice (n : Nat) (r : Reader) : Option (List UInt8) :=
  if r.cursor + n ≤ r.buf.length then some ((r.buf.drop r.cursor).take n) else none

/-- The shape of the reads of a number. -/
def readSized (byteSize : Nat) (name : String) (fromNeBytes : List UInt8 → α) (r : Reader) :
    Option (Except CoreError α × Reader) := do
  if (← r.checkBound byteSize) = false then
    return (.error ↑NetworkError.readOutOfRange, r)
  let val ← r.slice byteSize
  if val.length ≠ byteSize then
    return (.error ↑(NetworkError.readFailure name), r)
  return (.ok (fromNeBytes val), { r with cursor := r.cursor + byteSize })

def readU8 : Reader → Option (Except CoreError UInt8 × Reader) :=
  readSized 1 "u8" fun bs => .ofNat (Tlv.ofLe bs)
def readU16 : Reader → Option (Except CoreError UInt16 × Reader) :=
  readSized 2 "u16" fun bs => .ofNat (Tlv.ofLe bs)
def readU32 : Reader → Option (Except CoreError UInt32 × Reader) :=
  readSized 4 "u32" fun bs => .ofNat (Tlv.ofLe bs)
def readU64 : Reader → Option (Except CoreError UInt64 × Reader) :=
  readSized 8 "u64" fun bs => .ofNat (Tlv.ofLe bs)

end Reader

/-! ### The kernel's structures -/

structure NlMsgHdr where
  nlmsgLen : UInt32
  nlmsgType : UInt16
  nlmsgFlags : UInt16
  nlmsgSeq : UInt32
  nlmsgPid : UInt32
  deriving DecidableEq

def NlMsgHdr.bytes (h : NlMsgHdr) : List UInt8 :=
  neBytes32 h.nlmsgLen ++ neBytes16 h.nlmsgType ++ neBytes16 h.nlmsgFlags ++ neBytes32 h.nlmsgSeq ++
    neBytes32 h.nlmsgPid

structure IfInfoMsg where
  ifiFamily : UInt8
  ifiType : UInt16
  ifiIndex : Int32
  ifiFlags : UInt32
  ifiChange : UInt32
  deriving DecidableEq

/-- The byte after the family is padding. -/
def IfInfoMsg.bytes (m : IfInfoMsg) : List UInt8 :=
  [m.ifiFamily, 0] ++ neBytes16 m.ifiType ++ neBytes32 m.ifiIndex.toUInt32 ++ neBytes32 m.ifiFlags ++
    neBytes32 m.ifiChange

structure IfAddrMsg where
  ifaFamily : UInt8
  ifaPrefixlen : UInt8
  ifaFlags : UInt8
  ifaScope : UInt8
  ifaIndex : UInt32
  deriving DecidableEq

def IfAddrMsg.bytes (m : IfAddrMsg) : List UInt8 :=
  [m.ifaFamily, m.ifaPrefixlen, m.ifaFlags, m.ifaScope] ++ neBytes32 m.ifaIndex

structure RtMsg where
  rtmFamily : UInt8
  rtmDstLen : UInt8
  rtmSrcLen : UInt8
  rtmTos : UInt8
  rtmTable : UInt8
  rtmProtocol : UInt8
  rtmScope : UInt8
  rtmType : UInt8
  rtmFlags : UInt32
  deriving DecidableEq

def RtMsg.bytes (m : RtMsg) : List UInt8 :=
  [m.rtmFamily, m.rtmDstLen, m.rtmSrcLen, m.rtmTos, m.rtmTable, m.rtmProtocol, m.rtmScope,
    m.rtmType] ++ neBytes32 m.rtmFlags

structure RtAttr where
  rtaLen : UInt16
  rtaType : UInt16
  deriving DecidableEq

def RtAttr.bytes (a : RtAttr) : List UInt8 := neBytes16 a.rtaLen ++ neBytes16 a.rtaType

/-! ### Constants -/

def AF_UNSPEC : UInt8 := 0
def AF_INET : UInt8 := 2

def RTM_NEWLINK : UInt16 := 16
def RTM_GETLINK : UInt16 := 18
def RTM_NEWADDR : UInt16 := 20
def RTM_NEWROUTE : UInt16 := 24

def NLM_F_REQUEST : UInt16 := 0x1
def NLM_F_ACK : UInt16 := 0x4
def NLM_F_EXCL : UInt16 := 0x200
def NLM_F_CREATE : UInt16 := 0x400

def IFLA_IFNAME : UInt16 := 3
def IFLA_LINKINFO : UInt16 := 18
def IFLA_NET_NS_FD : UInt16 := 28
def IFLA_EXT_MASK : UInt16 := 29
def IFLA_INFO_KIND : UInt16 := 1
def IFLA_INFO_DATA : UInt16 := 2
def VETH_INFO_PEER : UInt16 := 1
def IFA_ADDRESS : UInt16 := 1
def IFA_LOCAL : UInt16 := 2
def RTA_GATEWAY : UInt16 := 5

def IFF_UP : UInt32 := 1
def RTEXT_FILTER_VF : UInt32 := 0x1
def RTEXT_FILTER_SKIP_STATS : UInt32 := 0x8
def RT_SCOPE_UNIVERSE : UInt8 := 0
def RT_TABLE_MAIN : UInt8 := 254
def RTPROT_BOOT : UInt8 := 3
def RTN_UNICAST : UInt8 := 1

structure Ipv4Addr where
  a : UInt8
  b : UInt8
  c : UInt8
  d : UInt8
  deriving DecidableEq

def Ipv4Addr.octets (ip : Ipv4Addr) : List UInt8 := [ip.a, ip.b, ip.c, ip.d]

/-! ### What each request writes -/

namespace Writer

/-- The attribute of `create_veth_pair` that says what the link is and what its peer is called. -/
def vethLinkInfo (peer : String) (w : Writer) : Writer :=
  let kind := "veth"
  let infoKindRta : RtAttr := ⟨.ofNat (2 * 2 + (asBytes kind).length), IFLA_INFO_KIND⟩
  let peerNameRta : RtAttr := ⟨.ofNat (2 * 2 + (asBytes peer).length + 1), IFLA_IFNAME⟩
  let v1pIfInfo : IfInfoMsg := ⟨0, 0, 0, 0, 0⟩
  let (w, linkInfoPos) := w.nestStart IFLA_LINKINFO
  let w := w.writeBytes infoKindRta.bytes |>.writeBytes (asBytes kind) |>.padToAlign
  let (w, infoDataPos) := w.nestStart IFLA_INFO_DATA
  let (w, vethInfoPos) := w.nestStart VETH_INFO_PEER
  let w := w.writeBytes v1pIfInfo.bytes
  let w := w.writeBytes peerNameRta.bytes |>.writeBytes (asBytes peer) |>.writeU8 0 |>.padToAlign
  w.nestEnd vethInfoPos |>.nestEnd infoDataPos |>.nestEnd linkInfoPos

def createVethPair (host peer : String) (w : Writer) : Writer :=
  let hostNameRta : RtAttr := ⟨.ofNat (2 * 2 + (asBytes host).length + 1), IFLA_IFNAME⟩
  let v1IfInfo : IfInfoMsg := ⟨AF_UNSPEC, 0, 0, 0, 0⟩
  let nlmsg : NlMsgHdr :=
    ⟨0, RTM_NEWLINK, NLM_F_EXCL ||| NLM_F_CREATE ||| NLM_F_REQUEST ||| NLM_F_ACK, 0, 0⟩
  let w := w.writeBytes nlmsg.bytes |>.writeBytes v1IfInfo.bytes
  let w := w.writeBytes hostNameRta.bytes |>.writeBytes (asBytes host) |>.writeU8 0 |>.padToAlign
  w.vethLinkInfo peer |>.finish

def setInterfaceUp (ifaceId : UInt32) (w : Writer) : Writer :=
  let nlmsghdr : NlMsgHdr := ⟨0, RTM_NEWLINK, NLM_F_REQUEST ||| NLM_F_ACK, 0, 0⟩
  let ifi : IfInfoMsg := ⟨AF_UNSPEC, 0, ifaceId.toInt32, IFF_UP, 0x1⟩
  w.writeBytes nlmsghdr.bytes |>.writeBytes ifi.bytes |>.finish

def setIpAddr (ifaceId : UInt32) (ip : Ipv4Addr) (prefixLen : UInt8) (w : Writer) : Writer :=
  let nlmsghdr : NlMsgHdr :=
    ⟨0, RTM_NEWADDR, NLM_F_REQUEST ||| NLM_F_ACK ||| NLM_F_EXCL ||| NLM_F_CREATE, 0, 0⟩
  let ifaddr : IfAddrMsg := ⟨AF_INET, prefixLen, 0, RT_SCOPE_UNIVERSE, ifaceId⟩
  let localAttr : RtAttr := ⟨.ofNat (2 * 2 + 4), IFA_LOCAL⟩
  let addressAttr : RtAttr := ⟨.ofNat (2 * 2 + 4), IFA_ADDRESS⟩
  let w := w.writeBytes nlmsghdr.bytes |>.writeBytes ifaddr.bytes
  let w := w.writeBytes localAttr.bytes |>.writeBytes ip.octets
  let w := w.writeBytes addressAttr.bytes |>.writeBytes ip.octets
  w.finish

def moveToNetns (iId : UInt32) (childFd : Int32) (w : Writer) : Writer :=
  let nlmsg : NlMsgHdr := ⟨0, RTM_NEWLINK, NLM_F_REQUEST ||| NLM_F_ACK, 0, 0⟩
  let ifi : IfInfoMsg := ⟨AF_UNSPEC, 0, iId.toInt32, 0, 0⟩
  let netnsFdAttr : RtAttr := ⟨.ofNat (2 * 2 + 4), IFLA_NET_NS_FD⟩
  let w := w.writeBytes nlmsg.bytes |>.writeBytes ifi.bytes
  let w := w.writeBytes netnsFdAttr.bytes |>.writeI32 childFd |>.padToAlign
  w.finish

def getInterfaceIndex (iName : String) (w : Writer) : Writer :=
  let nlmsghdr : NlMsgHdr := ⟨0, RTM_GETLINK, NLM_F_REQUEST, 0, 0⟩
  let ifi : IfInfoMsg := ⟨AF_UNSPEC, 0, 0, 0, 0⟩
  let extMaskAttr : RtAttr := ⟨.ofNat (2 * 2 + 4), IFLA_EXT_MASK⟩
  let extMaskVal := RTEXT_FILTER_VF ||| RTEXT_FILTER_SKIP_STATS
  let ifnameAttr : RtAttr := ⟨.ofNat (2 * 2 + (asBytes iName).length + 1), IFLA_IFNAME⟩
  let w := w.writeBytes nlmsghdr.bytes |>.writeBytes ifi.bytes
  let w := w.writeBytes extMaskAttr.bytes |>.writeU32 extMaskVal |>.padToAlign
  let w := w.writeBytes ifnameAttr.bytes |>.writeBytes (asBytes iName) |>.writeU8 0 |>.padToAlign
  w.finish

def addDefaultRoute (ip : Ipv4Addr) (w : Writer) : Writer :=
  let nlmsg : NlMsgHdr :=
    ⟨0, RTM_NEWROUTE, NLM_F_REQUEST ||| NLM_F_ACK ||| NLM_F_EXCL ||| NLM_F_CREATE, 0, 0⟩
  let rtm : RtMsg :=
    ⟨AF_INET, 0, 0, 0, RT_TABLE_MAIN, RTPROT_BOOT, RT_SCOPE_UNIVERSE, RTN_UNICAST, 0⟩
  let rtattr : RtAttr := ⟨.ofNat (2 * 2 + 4), RTA_GATEWAY⟩
  let w := w.writeBytes nlmsg.bytes |>.writeBytes rtm.bytes
  let w := w.writeBytes rtattr.bytes |>.writeBytes ip.octets |>.padToAlign
  w.finish

end Writer
end Clonebox
