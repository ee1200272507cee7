import Clonebox.Core.Network
import Clonebox.Lib.Reaches
import Clonebox.Netlink.Message

/-! # The requests are well formed

Every request starts from an empty writer, so the padding, which counts from the start of the
buffer, is that of each attribute. -/

namespace Clonebox
open Tlv Conc Prog

/-- The functions that send a request, with their arguments. -/
inductive NetlinkRequest where
  | createVethPair (host peer : String)
  | getInterfaceIndex (iName : String)
  | setIpAddr (ifaceId : UInt32) (ip : Ipv4Addr) (prefixLen : UInt8)
  | setInterfaceUp (ifaceId : UInt32)
  | moveToNetns (iId : UInt32) (childFd : Int32)
  | addDefaultRoute (ip : Ipv4Addr)
  deriving DecidableEq

namespace NetlinkRequest

/-- What the function writes. -/
def write : NetlinkRequest → Writer → Writer
  | .createVethPair host peer => Writer.createVethPair host peer
  | .getInterfaceIndex iName => Writer.getInterfaceIndex iName
  | .setIpAddr ifaceId ip prefixLen => Writer.setIpAddr ifaceId ip prefixLen
  | .setInterfaceUp ifaceId => Writer.setInterfaceUp ifaceId
  | .moveToNetns iId childFd => Writer.moveToNetns iId childFd
  | .addDefaultRoute ip => Writer.addDefaultRoute ip

/-! ### What is meant -/

def nlmsgType : NetlinkRequest → UInt16
  | .createVethPair _ _ | .setInterfaceUp _ | .moveToNetns _ _ => RTM_NEWLINK
  | .getInterfaceIndex _ => RTM_GETLINK
  | .setIpAddr _ _ _ => RTM_NEWADDR
  | .addDefaultRoute _ => RTM_NEWROUTE

/-- A query is answered by what it asks for; the others ask for an acknowledgement. -/
def nlmsgFlags : NetlinkRequest → UInt16
  | .createVethPair _ _ => NLM_F_EXCL ||| NLM_F_CREATE ||| NLM_F_REQUEST ||| NLM_F_ACK
  | .getInterfaceIndex _ => NLM_F_REQUEST
  | .setIpAddr _ _ _ | .addDefaultRoute _ => NLM_F_REQUEST ||| NLM_F_ACK ||| NLM_F_EXCL ||| NLM_F_CREATE
  | .setInterfaceUp _ | .moveToNetns _ _ => NLM_F_REQUEST ||| NLM_F_ACK

def header : NetlinkRequest → Header
  | .createVethPair _ _ | .getInterfaceIndex _ => .link ⟨AF_UNSPEC, 0, 0, 0, 0⟩
  | .setIpAddr ifaceId _ prefixLen => .addr ⟨AF_INET, prefixLen, 0, RT_SCOPE_UNIVERSE, ifaceId⟩
  | .setInterfaceUp ifaceId => .link ⟨AF_UNSPEC, 0, ifaceId.toInt32, IFF_UP, 1⟩
  | .moveToNetns iId _ => .link ⟨AF_UNSPEC, 0, iId.toInt32, 0, 0⟩
  | .addDefaultRoute _ =>
    .route ⟨AF_INET, 0, 0, 0, RT_TABLE_MAIN, RTPROT_BOOT, RT_SCOPE_UNIVERSE, RTN_UNICAST, 0⟩

/-- A name with the NUL that ends it. -/
def nameAttr (name : String) : Attr := .data IFLA_IFNAME.toNat (asBytes name ++ [0])

def attrs : NetlinkRequest → List Attr
  | .createVethPair host peer =>
    [nameAttr host,
      .nest IFLA_LINKINFO.toNat [] [
        .data IFLA_INFO_KIND.toNat (asBytes "veth"),
        .nest IFLA_INFO_DATA.toNat [] [
          .nest VETH_INFO_PEER.toNat (IfInfoMsg.bytes ⟨0, 0, 0, 0, 0⟩) [nameAttr peer]]]]
  | .getInterfaceIndex iName =>
    [.data IFLA_EXT_MASK.toNat (neBytes32 (RTEXT_FILTER_VF ||| RTEXT_FILTER_SKIP_STATS)), nameAttr iName]
  | .setIpAddr _ ip _ => [.data IFA_LOCAL.toNat ip.octets, .data IFA_ADDRESS.toNat ip.octets]
  | .setInterfaceUp _ => []
  | .moveToNetns _ childFd => [.data IFLA_NET_NS_FD.toNat (neBytes32 childFd.toUInt32)]
  | .addDefaultRoute ip => [.data RTA_GATEWAY.toNat ip.octets]

/-- The message the function means to send, `len` bytes long. -/
def message (req : NetlinkRequest) (len : Nat) : Message :=
  ⟨⟨.ofNat len, req.nlmsgType, req.nlmsgFlags, 0, 0⟩, req.header, req.attrs⟩

end NetlinkRequest

/-! ### The writer -/

theorem pad_succ {n : Nat} (h : n % 4 ≠ 0) : pad n = 0 :: pad (n + 1) := by
  have hlen : align n - n = (align (n + 1) - (n + 1)) + 1 := by
    unfold align
    omega
  rw [pad, pad, hlen, List.replicate_succ]

theorem Writer.padToAlign_eq (w : Writer) : w.padToAlign = ⟨w.buf ++ pad w.buf.length⟩ := by
  fun_induction Writer.padToAlign w with
  | case1 w h => rw [pad_of_mod h, List.append_nil]
  | case2 w h ih =>
    rw [ih, pad_succ h]
    simp [writeU8, writeBytes]

/-- Where the buffer is aligned, a head, the value and the padding make a record. -/
theorem Writer.record_eq {b : List UInt8} (hb : b.length % 4 = 0) (t : UInt16) {n : Nat}
    {v : List UInt8} (hn : n = 4 + v.length) :
    Writer.padToAlign ⟨b ++ RtAttr.bytes ⟨.ofNat n, t⟩ ++ v⟩ = ⟨b ++ Record.encode ⟨t.toNat, v⟩⟩ := by
  have hbytes : RtAttr.bytes ⟨.ofNat n, t⟩ = le 2 n ++ le 2 t.toNat := by
    have hmod : le 2 (n % 256 ^ 2) = le 2 n := le_mod 2 n
    simpa [RtAttr.bytes, neBytes16] using hmod
  have hhead : (b ++ (le 2 n ++ le 2 t.toNat) ++ v).length = b.length + (4 + v.length) := by
    simp only [List.length_append, length_le]
    omega
  rw [padToAlign_eq, hbytes, hhead, pad_add hb, pad_add (by rfl)]
  simp [Record.encode, Record.length, hn]

/-- A nested attribute, when the attributes in it are written. -/
theorem Writer.nest_eq {b : List UInt8} (hb : b.length % 4 = 0) (t : UInt16) {v : List UInt8}
    (hv : v.length % 4 = 0) :
    Writer.nestEnd b.length ⟨b ++ neBytes16 0 ++ neBytes16 t ++ v⟩ =
      ⟨b ++ Record.encode ⟨t.toNat, v⟩⟩ := by
  have hpos : (b ++ neBytes16 0 ++ neBytes16 t ++ v).length - b.length = 4 + v.length := by
    simp only [List.length_append, length_neBytes16]
    omega
  have hlen : neBytes16 (.ofNat (4 + v.length)) = le 2 (4 + v.length) := by
    have hmod : le 2 ((4 + v.length) % 256 ^ 2) = le 2 (4 + v.length) := le_mod 2 _
    simpa [neBytes16] using hmod
  have hcopy : Writer.copyAt b.length (le 2 (4 + v.length)) ⟨b ++ neBytes16 0 ++ neBytes16 t ++ v⟩ =
      ⟨b ++ le 2 (4 + v.length) ++ (neBytes16 t ++ v)⟩ := by
    simp [copyAt]
  have haligned : (b ++ le 2 (4 + v.length) ++ (neBytes16 t ++ v)).length % 4 = 0 := by
    simp only [List.length_append, length_le, length_neBytes16]
    omega
  rw [nestEnd, pos, hpos, hlen, hcopy, padToAlign_eq, pad_of_mod haligned, List.append_nil]
  simp [Record.encode, Record.length, pad_of_mod hv, neBytes16]

theorem Writer.nest_append_eq {b : List UInt8} (hb : b.length % 4 = 0) (t : UInt16)
    {v₁ v₂ : List UInt8} (hv : (v₁ ++ v₂).length % 4 = 0) :
    Writer.nestEnd b.length ⟨b ++ neBytes16 0 ++ neBytes16 t ++ v₁ ++ v₂⟩ =
      ⟨b ++ Record.encode ⟨t.toNat, v₁ ++ v₂⟩⟩ := by
  rw [List.append_assoc _ v₁ v₂]
  exact nest_eq hb t hv

/-- The length of the message is written where the head has it. -/
theorem Writer.finish_eq (type flags : UInt16) (seq pid : UInt32) (bs : List UInt8) :
    Writer.finish ⟨NlMsgHdr.bytes ⟨0, type, flags, seq, pid⟩ ++ bs⟩ =
      ⟨NlMsgHdr.bytes ⟨.ofNat (16 + bs.length), type, flags, seq, pid⟩ ++ bs⟩ := by
  have hlen : (NlMsgHdr.bytes ⟨0, type, flags, seq, pid⟩ ++ bs).length = 16 + bs.length := by
    simp [NlMsgHdr.bytes]
    omega
  rw [finish, pos, hlen]
  simp [copyAt, NlMsgHdr.bytes]

/-! ### What is written -/

namespace Header

def bytes : Header → List UInt8
  | .link m => m.bytes
  | .addr m => m.bytes
  | .route m => m.bytes

theorem length_mod (h : Header) : h.bytes.length % 4 = 0 := by
  cases h <;> simp [bytes, IfInfoMsg.bytes, IfAddrMsg.bytes, RtMsg.bytes]

end Header

def nameRecord (name : String) : Record := ⟨IFLA_IFNAME.toNat, asBytes name ++ [0]⟩

theorem Writer.name_eq {b : List UInt8} (hb : b.length % 4 = 0) (name : String) :
    Writer.padToAlign ⟨b ++ RtAttr.bytes ⟨.ofNat (2 * 2 + (asBytes name).length + 1), IFLA_IFNAME⟩ ++
      asBytes name ++ [0]⟩ = ⟨b ++ (nameRecord name).encode⟩ := by
  rw [List.append_assoc _ (asBytes name)]
  refine record_eq hb IFLA_IFNAME ?_
  simp only [List.length_append, List.length_singleton]
  omega

/-- A value of four bytes needs no padding. -/
theorem Writer.word_eq {b : List UInt8} (hb : b.length % 4 = 0) (t : UInt16) {v : List UInt8}
    (hv : v.length = 4) :
    b ++ RtAttr.bytes ⟨.ofNat (2 * 2 + 4), t⟩ ++ v = b ++ Record.encode ⟨t.toNat, v⟩ := by
  have hmod : (b ++ RtAttr.bytes ⟨.ofNat (2 * 2 + 4), t⟩ ++ v).length % 4 = 0 := by
    simp only [List.length_append, RtAttr.bytes, length_neBytes16, hv]
    omega
  have hrec := record_eq hb t (n := 2 * 2 + 4) (v := v) (by rw [hv])
  rw [padToAlign_eq, pad_of_mod hmod, List.append_nil] at hrec
  exact congrArg Writer.buf hrec

/-- The peer of a `veth`, from the inside to the outside. -/
def peerRecord (peer : String) : Record :=
  ⟨VETH_INFO_PEER.toNat, IfInfoMsg.bytes ⟨0, 0, 0, 0, 0⟩ ++ encode [nameRecord peer]⟩

def dataRecord (peer : String) : Record := ⟨IFLA_INFO_DATA.toNat, encode [peerRecord peer]⟩

def kindRecord : Record := ⟨IFLA_INFO_KIND.toNat, asBytes "veth"⟩

def linkInfoRecord (peer : String) : Record :=
  ⟨IFLA_LINKINFO.toNat, encode [kindRecord, dataRecord peer]⟩

namespace NetlinkRequest

/-- The attributes as records, with the nested ones as their bytes. -/
def records : NetlinkRequest → List Record
  | .createVethPair host peer => [nameRecord host, linkInfoRecord peer]
  | .getInterfaceIndex iName =>
    [⟨IFLA_EXT_MASK.toNat, neBytes32 (RTEXT_FILTER_VF ||| RTEXT_FILTER_SKIP_STATS)⟩, nameRecord iName]
  | .setIpAddr _ ip _ => [⟨IFA_LOCAL.toNat, ip.octets⟩, ⟨IFA_ADDRESS.toNat, ip.octets⟩]
  | .setInterfaceUp _ => []
  | .moveToNetns _ childFd => [⟨IFLA_NET_NS_FD.toNat, neBytes32 childFd.toUInt32⟩]
  | .addDefaultRoute ip => [⟨RTA_GATEWAY.toNat, ip.octets⟩]

/-- The head of the message, `len` bytes long. -/
def head (req : NetlinkRequest) (len : Nat) : NlMsgHdr :=
  ⟨.ofNat len, req.nlmsgType, req.nlmsgFlags, 0, 0⟩

/-- The bytes of the request. -/
def bytes (req : NetlinkRequest) : List UInt8 :=
  let rest := req.header.bytes ++ encode req.records
  (req.head (16 + rest.length)).bytes ++ rest

/-- What is written when the head, the header and the records stand in the buffer. -/
theorem finish_bytes (req : NetlinkRequest) :
    Writer.finish ⟨NlMsgHdr.bytes ⟨0, req.nlmsgType, req.nlmsgFlags, 0, 0⟩ ++ (req.header.bytes ++
      encode req.records)⟩ = ⟨req.bytes⟩ := by
  rw [Writer.finish_eq]
  rfl

end NetlinkRequest

theorem base_mod (h : NlMsgHdr) (m : Header) : (h.bytes ++ m.bytes).length % 4 = 0 := by
  have hmod := m.length_mod
  simp only [List.length_append, NlMsgHdr.bytes, length_neBytes16, length_neBytes32]
  omega

theorem record_mod {b : List UInt8} (hb : b.length % 4 = 0) (a : Record) :
    (b ++ a.encode).length % 4 = 0 := by
  have ha := a.encode_mod
  rw [List.length_append]
  omega

theorem nest_mod {b : List UInt8} (hb : b.length % 4 = 0) (t : UInt16) :
    (b ++ neBytes16 0 ++ neBytes16 t).length % 4 = 0 := by
  simp only [List.length_append, length_neBytes16]
  omega

namespace Writer

theorem setInterfaceUp_eq (ifaceId : UInt32) :
    setInterfaceUp ifaceId ⟨[]⟩ = ⟨(NetlinkRequest.setInterfaceUp ifaceId).bytes⟩ := by
  rw [← NetlinkRequest.finish_bytes]
  simp only [setInterfaceUp, writeBytes, List.nil_append]
  congr 2

theorem setIpAddr_eq (ifaceId : UInt32) (ip : Ipv4Addr) (prefixLen : UInt8) :
    setIpAddr ifaceId ip prefixLen ⟨[]⟩ =
      ⟨(NetlinkRequest.setIpAddr ifaceId ip prefixLen).bytes⟩ := by
  have h₀ (h : NlMsgHdr) (m : IfAddrMsg) : (h.bytes ++ m.bytes).length % 4 = 0 := base_mod h (.addr m)
  rw [← NetlinkRequest.finish_bytes]
  simp only [setIpAddr, writeBytes, List.nil_append]
  rw [word_eq (h₀ ..) IFA_LOCAL (v := ip.octets) rfl,
    word_eq (record_mod (h₀ ..) _) IFA_ADDRESS (v := ip.octets) rfl]
  simp [NetlinkRequest.records, NetlinkRequest.header, NetlinkRequest.nlmsgType,
    NetlinkRequest.nlmsgFlags, Header.bytes]

theorem moveToNetns_eq (iId : UInt32) (childFd : Int32) :
    moveToNetns iId childFd ⟨[]⟩ = ⟨(NetlinkRequest.moveToNetns iId childFd).bytes⟩ := by
  have h₀ (h : NlMsgHdr) (m : IfInfoMsg) : (h.bytes ++ m.bytes).length % 4 = 0 := base_mod h (.link m)
  rw [← NetlinkRequest.finish_bytes]
  simp only [moveToNetns, writeBytes, writeI32, List.nil_append]
  rw [record_eq (h₀ ..) IFLA_NET_NS_FD (by simp)]
  simp [NetlinkRequest.records, NetlinkRequest.header, NetlinkRequest.nlmsgType,
    NetlinkRequest.nlmsgFlags, Header.bytes]

theorem addDefaultRoute_eq (ip : Ipv4Addr) :
    addDefaultRoute ip ⟨[]⟩ = ⟨(NetlinkRequest.addDefaultRoute ip).bytes⟩ := by
  have h₀ (h : NlMsgHdr) (m : RtMsg) : (h.bytes ++ m.bytes).length % 4 = 0 := base_mod h (.route m)
  rw [← NetlinkRequest.finish_bytes]
  simp only [addDefaultRoute, writeBytes, List.nil_append]
  rw [record_eq (h₀ ..) RTA_GATEWAY (by rfl)]
  simp [NetlinkRequest.records, NetlinkRequest.header, NetlinkRequest.nlmsgType,
    NetlinkRequest.nlmsgFlags, Header.bytes]

theorem getInterfaceIndex_eq (iName : String) :
    getInterfaceIndex iName ⟨[]⟩ = ⟨(NetlinkRequest.getInterfaceIndex iName).bytes⟩ := by
  have h₀ (h : NlMsgHdr) (m : IfInfoMsg) : (h.bytes ++ m.bytes).length % 4 = 0 := base_mod h (.link m)
  rw [← NetlinkRequest.finish_bytes]
  simp only [getInterfaceIndex, writeBytes, writeU8, writeU32, List.nil_append]
  rw [record_eq (h₀ ..) IFLA_EXT_MASK (by simp), name_eq (record_mod (h₀ ..) _)]
  simp [NetlinkRequest.records, NetlinkRequest.header, NetlinkRequest.nlmsgType,
    NetlinkRequest.nlmsgFlags, Header.bytes]

theorem vethLinkInfo_eq {b : List UInt8} (hb : b.length % 4 = 0) (peer : String) :
    vethLinkInfo peer ⟨b⟩ = ⟨b ++ (linkInfoRecord peer).encode⟩ := by
  have hkind := nest_mod hb IFLA_LINKINFO
  have hdata := nest_mod (record_mod hkind kindRecord) IFLA_INFO_DATA
  have hinfo : (IfInfoMsg.bytes ⟨0, 0, 0, 0, 0⟩).length % 4 = 0 := by simp [IfInfoMsg.bytes]
  have hpeer := nest_mod hdata VETH_INFO_PEER
  have hname : (b ++ neBytes16 0 ++ neBytes16 IFLA_LINKINFO ++ kindRecord.encode ++ neBytes16 0 ++
      neBytes16 IFLA_INFO_DATA ++ neBytes16 0 ++ neBytes16 VETH_INFO_PEER ++
      IfInfoMsg.bytes ⟨0, 0, 0, 0, 0⟩).length % 4 = 0 := by
    rw [List.length_append]
    omega
  have hveth : padToAlign ⟨b ++ neBytes16 0 ++ neBytes16 IFLA_LINKINFO ++
      RtAttr.bytes ⟨.ofNat (2 * 2 + (asBytes "veth").length), IFLA_INFO_KIND⟩ ++ asBytes "veth"⟩ =
      ⟨b ++ neBytes16 0 ++ neBytes16 IFLA_LINKINFO ++ kindRecord.encode⟩ :=
    record_eq hkind IFLA_INFO_KIND (by rfl)
  simp only [vethLinkInfo, writeBytes, writeU8, writeU16, nestStart, pos]
  rw [hveth]
  dsimp only
  rw [name_eq hname]
  -- the three ends, from the inside to the outside
  rw [nest_append_eq hdata VETH_INFO_PEER (record_mod hinfo _)]
  rw [nest_eq (record_mod hkind kindRecord) IFLA_INFO_DATA (Record.encode_mod _)]
  rw [nest_append_eq hb IFLA_LINKINFO (record_mod (Record.encode_mod kindRecord) _)]
  simp [linkInfoRecord, dataRecord, peerRecord]

theorem createVethPair_eq (host peer : String) :
    createVethPair host peer ⟨[]⟩ = ⟨(NetlinkRequest.createVethPair host peer).bytes⟩ := by
  have h₀ (h : NlMsgHdr) (m : IfInfoMsg) : (h.bytes ++ m.bytes).length % 4 = 0 := base_mod h (.link m)
  rw [← NetlinkRequest.finish_bytes]
  simp only [createVethPair, writeBytes, writeU8, List.nil_append]
  rw [name_eq (h₀ ..), vethLinkInfo_eq (record_mod (h₀ ..) _)]
  simp [NetlinkRequest.records, NetlinkRequest.header, NetlinkRequest.nlmsgType,
    NetlinkRequest.nlmsgFlags, Header.bytes]

end Writer

end Clonebox
