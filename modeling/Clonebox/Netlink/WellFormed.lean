import Clonebox.Netlink.Requests

/-! # What is sent is what is meant

Read by the rules of rtnetlink, each request is one message, with the header and the attributes it
was meant to have, and `create_network` sends nothing else. -/

namespace Clonebox
open Tlv Conc Prog

namespace NetlinkRequest

theorem write_eq (req : NetlinkRequest) : req.write ⟨[]⟩ = ⟨req.bytes⟩ := by
  cases req with
  | createVethPair host peer => exact Writer.createVethPair_eq host peer
  | getInterfaceIndex iName => exact Writer.getInterfaceIndex_eq iName
  | setIpAddr ifaceId ip prefixLen => exact Writer.setIpAddr_eq ifaceId ip prefixLen
  | setInterfaceUp ifaceId => exact Writer.setInterfaceUp_eq ifaceId
  | moveToNetns iId childFd => exact Writer.moveToNetns_eq iId childFd
  | addDefaultRoute ip => exact Writer.addDefaultRoute_eq ip

end NetlinkRequest

/-! ### Attributes -/

/-- Records that were written are read as attributes one by one. -/
theorem readAttrs_encode {as : List Record} (h : (encode as).length < 65536)
    (htype : ∀ a ∈ as, a.type < 65536) (depth : Nat) (place : Place) :
    readAttrs (depth + 1) place (encode as) = as.mapM fun a =>
      match place.nests a.type with
      | none => some (.data a.type a.value)
      | some (n, inner) =>
        if n ≤ a.value.length then
          (readAttrs depth inner (a.value.drop n)).map (.nest a.type (a.value.take n))
        else none := by
  have hfits : ∀ a ∈ as, a.Fits := fun a ha => fits_of_length h htype ha
  rw [readAttrs, parse_encode hfits]
  rfl

theorem readAttrs_name (name : String) (h : (encode [nameRecord name]).length < 65536) (depth : Nat) :
    readAttrs (depth + 1) .link (encode [nameRecord name]) = some [NetlinkRequest.nameAttr name] := by
  rw [readAttrs_encode h (by simp [nameRecord, IFLA_IFNAME])]
  rfl

/-- The value of a record is shorter than what the record is part of. -/
theorem value_lt {a : Record} {as : List Record} {n : Nat} (h : (encode as).length < n)
    (ha : a ∈ as) : a.value.length < n := by
  have hlen := length_le_of_mem ha
  have hval : a.length = 4 + a.value.length := rfl
  omega

theorem readAttrs_linkInfo (host peer : String)
    (h : (encode [nameRecord host, linkInfoRecord peer]).length < 65536) (depth : Nat) :
    readAttrs (depth + 4) .link (encode [nameRecord host, linkInfoRecord peer]) =
      some (NetlinkRequest.createVethPair host peer).attrs := by
  have hinfo : (encode [kindRecord, dataRecord peer]).length < 65536 :=
    value_lt h (a := linkInfoRecord peer) (by simp)
  have hdata : (encode [peerRecord peer]).length < 65536 :=
    value_lt hinfo (a := dataRecord peer) (by simp)
  have hlen : (IfInfoMsg.bytes ⟨0, 0, 0, 0, 0⟩).length = 16 := by simp [IfInfoMsg.bytes]
  have hname : (encode [nameRecord peer]).length < 65536 := by
    have hpeer := value_lt hdata (a := peerRecord peer) (by simp)
    rw [peerRecord, List.length_append] at hpeer
    omega
  have rpeer : readAttrs (depth + 2) .vethData (encode [peerRecord peer]) =
      some [.nest VETH_INFO_PEER.toNat (IfInfoMsg.bytes ⟨0, 0, 0, 0, 0⟩)
        [NetlinkRequest.nameAttr peer]] := by
    have hle : 16 ≤ (peerRecord peer).value.length := by
      rw [peerRecord, List.length_append]
      omega
    rw [readAttrs_encode hdata (by simp [peerRecord, VETH_INFO_PEER])]
    have hdrop : (peerRecord peer).value.drop 16 = encode [nameRecord peer] := List.drop_left' hlen
    have htake : (peerRecord peer).value.take 16 = IfInfoMsg.bytes ⟨0, 0, 0, 0, 0⟩ :=
      List.take_left' hlen
    have hnests : Place.nests .vethData (peerRecord peer).type = some (16, .link) := rfl
    simp only [List.mapM_cons, List.mapM_nil, hnests, if_pos hle, hdrop, htake,
      readAttrs_name peer hname]
    rfl
  have rdata : readAttrs (depth + 3) .linkInfo (encode [kindRecord, dataRecord peer]) =
      some [.data IFLA_INFO_KIND.toNat (asBytes "veth"),
        .nest IFLA_INFO_DATA.toNat [] [.nest VETH_INFO_PEER.toNat (IfInfoMsg.bytes ⟨0, 0, 0, 0, 0⟩)
          [NetlinkRequest.nameAttr peer]]] := by
    rw [readAttrs_encode hinfo
      (by simp [kindRecord, dataRecord, IFLA_INFO_KIND, IFLA_INFO_DATA])]
    have hnests : Place.nests .linkInfo (dataRecord peer).type = some (0, .vethData) := rfl
    have hkind : Place.nests .linkInfo kindRecord.type = none := rfl
    simp only [List.mapM_cons, List.mapM_nil, hnests, hkind, Nat.zero_le, if_true, List.drop_zero,
      List.take_zero]
    rw [show (dataRecord peer).value = encode [peerRecord peer] from rfl, rpeer]
    rfl
  rw [readAttrs_encode h
    (by simp [nameRecord, linkInfoRecord, IFLA_IFNAME, IFLA_LINKINFO])]
  have hnests : Place.nests .link (linkInfoRecord peer).type = some (0, .linkInfo) := rfl
  have hhost : Place.nests .link (nameRecord host).type = none := rfl
  simp only [List.mapM_cons, List.mapM_nil, hnests, hhost, Nat.zero_le, if_true, List.drop_zero,
    List.take_zero]
  rw [show (linkInfoRecord peer).value = encode [kindRecord, dataRecord peer] from rfl, rdata]
  rfl

namespace NetlinkRequest

/-- Where the attributes of the request stand. -/
def place : NetlinkRequest → Place
  | .createVethPair _ _ | .getInterfaceIndex _ | .setInterfaceUp _ | .moveToNetns _ _ => .link
  | .setIpAddr _ _ _ | .addDefaultRoute _ => .other

theorem readAttrs_records (req : NetlinkRequest) (h : (encode req.records).length < 65536)
    (depth : Nat) : readAttrs (depth + 4) req.place (encode req.records) = some req.attrs := by
  cases req with
  | createVethPair host peer => exact readAttrs_linkInfo host peer h depth
  | getInterfaceIndex iName =>
    rw [readAttrs_encode h (by simp [records, nameRecord, IFLA_IFNAME, IFLA_EXT_MASK])]
    rfl
  | setIpAddr ifaceId ip prefixLen =>
    rw [readAttrs_encode h (by simp [records, IFA_LOCAL, IFA_ADDRESS])]
    rfl
  | setInterfaceUp ifaceId =>
    rw [readAttrs_encode h (by simp [records])]
    rfl
  | moveToNetns iId childFd =>
    rw [readAttrs_encode h (by simp [records, IFLA_NET_NS_FD])]
    rfl
  | addDefaultRoute ip =>
    rw [readAttrs_encode h (by simp [records, RTA_GATEWAY])]
    rfl

theorem readHeader_bytes (req : NetlinkRequest) (bs : List UInt8) :
    readHeader req.nlmsgType (req.header.bytes ++ bs) = some ((req.header, req.place), bs) := by
  cases req with
  | createVethPair | getInterfaceIndex | setInterfaceUp | moveToNetns =>
    simp [readHeader, nlmsgType, header, Header.bytes, place, readIfInfoMsg_bytes]
  | setIpAddr =>
    simp [readHeader, nlmsgType, header, Header.bytes, place, readIfAddrMsg_bytes, RTM_NEWADDR,
      RTM_NEWLINK, RTM_GETLINK]
  | addDefaultRoute =>
    simp [readHeader, nlmsgType, header, Header.bytes, place, readRtMsg_bytes, RTM_NEWADDR,
      RTM_NEWLINK, RTM_GETLINK, RTM_NEWROUTE]

theorem length_bytes (req : NetlinkRequest) :
    req.bytes.length = 16 + (req.header.bytes ++ encode req.records).length := by
  simp [bytes, NlMsgHdr.bytes]
  omega

theorem readNlMsgHdr_head (req : NetlinkRequest) : readNlMsgHdr req.bytes =
    some (req.head req.bytes.length, req.header.bytes ++ encode req.records) := by
  rw [length_bytes]
  exact readNlMsgHdr_bytes _ _

/-- The bytes of a request are one message, the one that is meant. -/
theorem readMessage_bytes (req : NetlinkRequest) (h : req.bytes.length < 65536) :
    readMessage req.bytes = some (req.message req.bytes.length) := by
  have hlen := req.length_bytes
  have hrecords : (encode req.records).length < 65536 := by
    rw [hlen, List.length_append] at h
    omega
  obtain ⟨depth, hdepth⟩ : ∃ depth, req.bytes.length = depth + 4 := ⟨req.bytes.length - 4, by omega⟩
  have hnum : (req.head req.bytes.length).nlmsgLen.toNat = req.bytes.length := by
    show req.bytes.length % 2 ^ 32 = req.bytes.length
    omega
  have htype : (req.head req.bytes.length).nlmsgType = req.nlmsgType := rfl
  have hattrs : readAttrs req.bytes.length req.place (encode req.records) = some req.attrs := by
    rw [hdepth]
    exact readAttrs_records req hrecords depth
  simp only [readMessage, req.readNlMsgHdr_head, hnum, htype, readHeader_bytes, hattrs, Option.bind_eq_bind,
    Option.bind_some, if_true]
  rfl

end NetlinkRequest

/-! ### The run -/

def Op.sends : Op → Bool
  | .send _ _ => true
  | _ => false

/-- What a run of `create_network` has come to: the descriptor opened last, the number of requests
sent, and the index read from each reply. -/
structure Exchange where
  fd : Int32
  sent : Nat
  indices : List UInt32

namespace Exchange

def next (g : Exchange) : (op : Op) → op.Ret → Exchange
  | .openFd _, .ok fd => { g with fd }
  | .send _ _, _ => { g with sent := g.sent + 1 }
  | .recv _, .ok (.ack len) => { g with indices := g.indices ++ [len] }
  | .recv _, .ok (.link index) => { g with indices := g.indices ++ [index] }
  | _, _ => g

/-- The requests for the link `host`, in their order. The indices are those of the second and the
fifth reply. -/
def requestsOf (host : String) (g : Exchange) : List NetlinkRequest :=
  let peer := host ++ "_peer"
  let hostIId := g.indices.getD 1 0
  let childIId := g.indices.getD 4 0
  [.createVethPair host peer, .getInterfaceIndex host, .setIpAddr hostIId ⟨10, 0, 0, 1⟩ 24,
    .setInterfaceUp hostIId, .getInterfaceIndex peer, .moveToNetns childIId g.fd,
    .setIpAddr childIId ⟨10, 0, 0, 2⟩ 24, .setInterfaceUp childIId, .setInterfaceUp 1,
    .addDefaultRoute ⟨10, 0, 0, 1⟩]

def requests (id : String) (g : Exchange) : List NetlinkRequest :=
  g.requestsOf (String.ofList ((takeBytes 9 id.toList).getD []))

/-- The request whose turn it is. -/
def request (id : String) (g : Exchange) : Option NetlinkRequest := (g.requests id)[g.sent]?

/-- The protocol: a request is sent when it is its turn, from the empty writer. -/
def proto (id : String) : Proto Sys Exchange where
  may g op := ∀ sk buf, op = .send sk buf →
    ∃ req, g.request id = some req ∧ buf = (req.write ⟨[]⟩).buf
  next := next
  halts _ := True

end Exchange

variable {id : String} {g : Exchange} {α : Type}

/-- A call that sends nothing may be made at any time. -/
theorem obeys_unsent {Q : Exchange → Except CoreError α → Prop} {op : Op} {k : op.Ret → Core α}
    (hop : op.sends = false) (hQ : ∀ r, Obeys (Exchange.proto id) Q (g.next op r) (k r)) :
    Obeys (Exchange.proto id) Q g (.call op k) := by
  refine ⟨fun sk buf e => ?_, hQ⟩
  subst e
  cases hop

theorem obeys_socket {Q : Exchange → Except CoreError Nat → Prop} (hQ : ∀ sk, Q g (.ok sk))
    (herr : ∀ g' e, Q g' (.error e)) : Obeys (Exchange.proto id) Q g createNetlinkSocket := by
  refine obeys_bind.mpr (obeys_unsent rfl fun r => ?_)
  cases r with
  | error e => exact herr _ _
  | ok sk =>
    refine obeys_unsent rfl fun r => ?_
    cases r with
    | error e => exact herr _ _
    | ok => exact hQ sk

/-- A request whose turn it is leaves the writer empty and the next one its turn. -/
theorem obeys_request {Q : Exchange → Except CoreError (Unit × Writer) → Prop} {sk : Nat} {w : Writer}
    (req : NetlinkRequest) (hreq : g.request id = some req) (hw : w = req.write ⟨[]⟩)
    (hQ : ∀ n, Q ⟨g.fd, g.sent + 1, g.indices ++ [n]⟩ (.ok ((), ⟨[]⟩)))
    (herr : ∀ g' e, Q g' (.error e)) :
    Obeys (Exchange.proto id) Q g (orReturn (request sk w)) := by
  subst hw
  refine obeys_bind.mpr ⟨fun sk' buf' e => ?_, fun r => ?_⟩
  · cases e
    exact ⟨req, hreq, rfl⟩
  cases r with
  | error e => exact herr _ _
  | ok =>
    refine obeys_unsent rfl fun r => ?_
    cases r with
    | error e => exact herr _ _
    | ok reply =>
      cases reply with
      | error e => exact herr _ _
      | ack n => exact hQ n
      | link n => exact hQ n

theorem obeys_query {Q : Exchange → Except CoreError (UInt32 × Writer) → Prop} {iName : String}
    {sk : Nat} (hreq : g.request id = some (.getInterfaceIndex iName))
    (hQ : ∀ n, Q ⟨g.fd, g.sent + 1, g.indices ++ [n]⟩ (.ok (n, ⟨[]⟩)))
    (herr : ∀ g' e, Q g' (.error e)) :
    Obeys (Exchange.proto id) Q g (orReturn (getInterfaceIndex sk ⟨[]⟩ iName)) := by
  refine obeys_bind.mpr ⟨fun sk' buf' e => ?_, fun r => ?_⟩
  · cases e
    exact ⟨_, hreq, rfl⟩
  cases r with
  | error e => exact herr _ _
  | ok =>
    refine obeys_unsent rfl fun r => ?_
    cases r with
    | error e => exact herr _ _
    | ok reply =>
      cases reply with
      | error e => exact herr _ _
      | ack n => exact hQ n
      | link n => exact hQ n

theorem createPeerNetwork_obeys {fd : Int32} {a b c d e f : UInt32} :
    Obeys (Exchange.proto id) (fun _ _ => True) ⟨fd, 6, [a, b, c, d, e, f]⟩
      (createPeerNetwork ⟨[]⟩ e ⟨10, 0, 0, 1⟩ ⟨10, 0, 0, 2⟩) := by
  refine obeys_bind.mpr (obeys_socket (fun sk => ?_) fun _ _ => trivial)
  refine obeys_bind.mpr (obeys_request (.setIpAddr e ⟨10, 0, 0, 2⟩ 24) rfl rfl (fun _ => ?_)
    fun _ _ => trivial)
  refine obeys_bind.mpr (obeys_request (.setInterfaceUp e) rfl rfl (fun _ => ?_)
    fun _ _ => trivial)
  refine obeys_bind.mpr (obeys_request (.setInterfaceUp 1) rfl rfl (fun _ => ?_)
    fun _ _ => trivial)
  exact obeys_bind.mpr (obeys_request (.addDefaultRoute ⟨10, 0, 0, 1⟩) rfl rfl
    (fun _ => trivial) fun _ _ => trivial)

/-- What `create_network` does last, back in the namespace of the host, is no part of the
exchange. -/
theorem hostLines_obeys {fs fw fi : Errno → CoreError} : Obeys (Exchange.proto id) (fun _ _ => True) g
    (do
      mapErr (sys (.setns "/proc/self/ns/net")) fs
      mapErr (sys (.write (.host "/proc/sys/net/ipv4/ip_forward") (.text "1"))) fw
      mapErr (sys (.iptables iptablesArgs)) fi) := by
  refine obeys_bind.mpr (obeys_unsent rfl fun r => ?_)
  cases r with
  | error e => trivial
  | ok =>
  refine obeys_bind.mpr (obeys_unsent rfl fun r => ?_)
  cases r with
  | error e => trivial
  | ok =>
  refine obeys_bind.mpr (obeys_unsent rfl fun r => ?_)
  cases r <;> trivial

theorem createNetwork_obeys (id : String) (pid : Int) :
    Obeys (Exchange.proto id) (fun _ _ => True) ⟨0, 0, []⟩ (createNetwork id pid) := by
  unfold createNetwork
  cases hsuffix : takeBytes 9 id.toList with
  | none =>
    refine obeys_bind.mpr (obeys_unsent rfl fun r => ?_)
    cases r with
    | error e => trivial
    | ok fd₀ =>
    refine obeys_bind.mpr (obeys_unsent rfl fun r => ?_)
    cases r with
    | error e => trivial
    | ok fd => exact obeys_unsent rfl fun r => trivial
  | some suffix =>
    have hturn {g : Exchange} {req : NetlinkRequest}
        (h : (Exchange.requestsOf (String.ofList suffix) g)[g.sent]? = some req) :
        g.request id = some req := by
      rw [Exchange.request, Exchange.requests, hsuffix]
      exact h
    refine obeys_bind.mpr (obeys_unsent rfl fun r => ?_)
    cases r with
    | error e => trivial
    | ok fd₀ =>
    refine obeys_bind.mpr (obeys_unsent rfl fun r => ?_)
    cases r with
    | error e => trivial
    | ok fd =>
    change Obeys (Exchange.proto id) _ ⟨fd, 0, []⟩ (Prog.bind createNetlinkSocket _)
    refine obeys_bind.mpr (obeys_socket (fun sk => ?_) fun _ _ => trivial)
    refine obeys_bind.mpr (obeys_request (.createVethPair _ _) (hturn rfl) rfl (fun a => ?_) fun _ _ => trivial)
    refine obeys_bind.mpr (obeys_query (hturn rfl) (fun hostIId => ?_) fun _ _ => trivial)
    refine obeys_bind.mpr (obeys_request (.setIpAddr hostIId _ _) (hturn rfl) rfl
      (fun b => ?_) fun _ _ => trivial)
    refine obeys_bind.mpr (obeys_request (.setInterfaceUp hostIId) (hturn rfl) rfl
      (fun c => ?_) fun _ _ => trivial)
    refine obeys_bind.mpr (obeys_query (hturn rfl) (fun childIId => ?_) fun _ _ => trivial)
    refine obeys_bind.mpr (obeys_request (.moveToNetns childIId fd) (hturn rfl) rfl
      (fun d => ?_) fun _ _ => trivial)
    refine obeys_bind.mpr (obeys_unsent rfl fun r => ?_)
    cases r with
    | error e => trivial
    | ok =>
    change Obeys (Exchange.proto id) _ ⟨fd, 6, [a, hostIId, b, c, childIId, d]⟩
      (Prog.bind (createPeerNetwork _ _ _ _) _)
    refine obeys_bind.mpr (createPeerNetwork_obeys.mono fun g r _ => ?_)
    cases r with
    | error e => trivial
    | ok => exact hostLines_obeys

/-- Where a run of `create_network` has come to. -/
def exchanged (tr : List Sys.Ev) : Exchange :=
  tr.foldl (fun g ev => g.next ev.1 ev.2) ⟨0, 0, []⟩

theorem sent_in_turn {pid : Int} {pre post : List Sys.Ev} {sk : Nat} {buf : List UInt8}
    {r : Io Unit} {q : Core Unit}
    (h : Reaches (createNetwork id pid) (pre ++ ⟨.send sk buf, r⟩ :: post) q) :
    ∃ req, (exchanged pre).request id = some req ∧ buf = (req.write ⟨[]⟩).buf := by
  obtain ⟨hfollows, -⟩ := h.obeys (createNetwork_obeys id pid)
  exact hfollows.at_split sk buf rfl

/-- Each request function writes from the empty writer one message, the one that is meant; and in
every run of `create_network` what is handed to `send` is what these functions write, each in its
turn. -/
theorem requests_well_formed :
    (∀ req : NetlinkRequest, (req.write ⟨[]⟩).buf.length < 65536 →
      readMessage (req.write ⟨[]⟩).buf = some (req.message (req.write ⟨[]⟩).buf.length)) ∧
    ∀ (id : String) (pid : Int) (pre post : List Sys.Ev) (sk : Nat) (buf : List UInt8)
      (r : Io Unit) (q : Core Unit),
      Reaches (createNetwork id pid) (pre ++ ⟨.send sk buf, r⟩ :: post) q →
        ∃ req, (exchanged pre).request id = some req ∧ buf = (req.write ⟨[]⟩).buf ∧
          (buf.length < 65536 → readMessage buf = some (req.message buf.length)) := by
  have hread (req : NetlinkRequest) (h : (req.write ⟨[]⟩).buf.length < 65536) :
      readMessage (req.write ⟨[]⟩).buf = some (req.message (req.write ⟨[]⟩).buf.length) := by
    rw [req.write_eq] at h ⊢
    exact req.readMessage_bytes h
  refine ⟨hread, fun id pid pre post sk buf r q hrun => ?_⟩
  obtain ⟨req, hturn, rfl⟩ := sent_in_turn hrun
  exact ⟨req, hturn, rfl, hread req⟩

/-- Every call succeeds, and every reply is a link. -/
def answersAll : (op : Op) → Option op.Ret
  | .openFd _ => some (.ok 5)
  | .netlinkSocket => some (.ok 1)
  | .netlinkBind _ | .send _ _ => some (.ok ())
  | .recv _ => some (.ok (.link 3))
  | _ => none

/-- The first request for the container `c1`. -/
def firstRequest : NetlinkRequest := .createVethPair "c1" "c1_peer"

theorem requests_well_formed_sample : ∃ (pre : List Sys.Ev) (q : Core Unit),
    Reaches (createNetwork "c1" 7) (pre ++ [⟨.send 1 firstRequest.bytes, .ok ()⟩]) q ∧
      readMessage firstRequest.bytes = some (firstRequest.message 88) := by
  have hbuf : (firstRequest.write ⟨[]⟩).buf = firstRequest.bytes := by rw [firstRequest.write_eq]
  have hlen : firstRequest.bytes.length = 88 := by decide +kernel
  have hrun : Reaches (createNetwork "c1" 7) (follow answersAll 5 (createNetwork "c1" 7)).1
      (follow answersAll 5 (createNetwork "c1" 7)).2 := reaches_follow
  have htrace : (follow answersAll 5 (createNetwork "c1" 7)).1 =
      [⟨.openFd "/proc/self/ns/net", .ok 5⟩, ⟨.openFd "/proc/7/ns/net", .ok 5⟩,
        ⟨.netlinkSocket, .ok 1⟩, ⟨.netlinkBind 1, .ok ()⟩] ++
      [⟨.send 1 (firstRequest.write ⟨[]⟩).buf, .ok ()⟩] := by rfl
  rw [htrace, hbuf] at hrun
  obtain ⟨req, hturn, -, hread⟩ := requests_well_formed.2 "c1" 7 _ [] 1 _ _ _ hrun
  obtain rfl : firstRequest = req := Option.some.inj hturn
  rw [hlen] at hread
  exact ⟨_, _, hrun, hread (by decide)⟩

end Clonebox
