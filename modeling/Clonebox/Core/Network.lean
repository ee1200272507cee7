import Clonebox.Core.Sys

/-! # The network of a container (`network.rs`)

A function that borrows the writer returns what it leaves there, also when it fails. -/

namespace Clonebox
open Conc

variable {α : Type}

def createNetlinkSocket : Core Nat := do
  let socket ← mapErr (sys .netlinkSocket) fun e => ↑(NetworkError.createSocketFailure e)
  mapErr (sys (.netlinkBind socket)) fun e => ↑(NetworkError.bindFailure e)
  pure socket

def recvAck (socket : Nat) : Core Unit := do
  match ← mapErr (sys (.recv socket)) fun e => (↑(NetworkError.recvFailure e) : CoreError) with
  | .error e => .fail ↑(NetworkError.netlinkFailure ("netlink error: " ++ e.ioDisplay))
  | _ => pure ()

/-- Send what was written, flush the writer and read the acknowledgement. -/
def request (socket : Nat) (w : Writer) : Core (Except CoreError Unit × Writer) := do
  match ← sys (.send socket w.buf) with
  | .error e => pure (.error ↑(NetworkError.sendFailure e), w)
  | .ok () => do
    let r ← (recvAck socket).attempt
    pure (r, w.flush)

def createVethPair (socket : Nat) (w : Writer) (host peer : String) :
    Core (Except CoreError Unit × Writer) := request socket (w.createVethPair host peer)

def setInterfaceUp (socket : Nat) (w : Writer) (ifaceId : UInt32) :
    Core (Except CoreError Unit × Writer) := request socket (w.setInterfaceUp ifaceId)

def setIpAddr (socket : Nat) (w : Writer) (ifaceId : UInt32) (ip : Ipv4Addr) (prefixLen : UInt8) :
    Core (Except CoreError Unit × Writer) := request socket (w.setIpAddr ifaceId ip prefixLen)

def moveToNetns (socket : Nat) (w : Writer) (iId : UInt32) (childFd : Int32) :
    Core (Except CoreError Unit × Writer) := request socket (w.moveToNetns iId childFd)

def addDefaultRoute (socket : Nat) (w : Writer) (ip : Ipv4Addr) :
    Core (Except CoreError Unit × Writer) := request socket (w.addDefaultRoute ip)

/-- The reply is read as a link header whatever it is, unless it is an error. An acknowledgement
has the length of the request it answers where a link header has the index. -/
def recvIndex (socket : Nat) : Core UInt32 := do
  match ← mapErr (sys (.recv socket)) fun e => (↑(NetworkError.recvFailure e) : CoreError) with
  | .error e => .fail ↑(NetworkError.netlinkFailure ("netlink error: " ++ e.ioDisplay))
  | .ack len => pure len
  | .link index => pure index

def getInterfaceIndex (socket : Nat) (w : Writer) (iName : String) :
    Core (Except CoreError UInt32 × Writer) := do
  let w := w.getInterfaceIndex iName
  match ← sys (.send socket w.buf) with
  | .error e => pure (.error ↑(NetworkError.sendFailure e), w)
  | .ok () => do
    let r ← (recvIndex socket).attempt
    pure (r, w.flush)

/-- The `?` behind such a function. -/
def orReturn (p : Core (Except CoreError α × Writer)) : Core (α × Writer) := do
  let (r, w) ← p
  let a ← .ofExcept r
  pure (a, w)

/-- The first `n` bytes of a string, if they end between two characters. -/
def takeBytes : Nat → List Char → Option (List Char)
  | 0, _ => some []
  | _, [] => some []
  | n + 1, c :: cs =>
    if c.utf8Size ≤ n + 1 then (takeBytes (n + 1 - c.utf8Size) cs).map (c :: ·) else none

def iptablesArgs : List String :=
  ["-t", "nat", "-A", "POSTROUTING", "-s", "10.0.0.0/24", "-o", "ens2", "-j", "MASQUERADE"]

/-- The configuration of the container's side, in its network namespace. -/
def createPeerNetwork (w : Writer) (childIId : UInt32) (hostAddress peerAddress : Ipv4Addr) :
    Core Unit := do
  let childSk ← createNetlinkSocket
  let (_, w) ← orReturn (setIpAddr childSk w childIId peerAddress 24)
  let (_, w) ← orReturn (setInterfaceUp childSk w childIId)
  let (_, w) ← orReturn (setInterfaceUp childSk w 1)
  let _ ← orReturn (addDefaultRoute childSk w hostAddress)

def createNetwork (containerId : String) (childPid : Int) : Core Unit := do
  let hostNs := "/proc/self/ns/net"
  let peerNs := "/proc/" ++ toString childPid ++ "/ns/net"
  let _ ← mapErr (sys (.openFd hostNs)) fun e => ↑(NetworkError.openFailure e)
  let peerNsFd ← mapErr (sys (.openFd peerNs)) fun e => ↑(NetworkError.openFailure e)
  -- slicing a string inside a character panics
  match takeBytes 9 containerId.toList with
  | none => panic
  | some suffix => do
    let host := String.ofList suffix
    let peer := host ++ "_peer"
    let hostAddress : Ipv4Addr := ⟨10, 0, 0, 1⟩
    let peerAddress : Ipv4Addr := ⟨10, 0, 0, 2⟩
    let hostSk ← createNetlinkSocket
    let (_, w) ← orReturn (createVethPair hostSk ⟨[]⟩ host peer)
    let (hostIId, w) ← orReturn (getInterfaceIndex hostSk w host)
    let (_, w) ← orReturn (setIpAddr hostSk w hostIId hostAddress 24)
    let (_, w) ← orReturn (setInterfaceUp hostSk w hostIId)
    let (childIId, w) ← orReturn (getInterfaceIndex hostSk w peer)
    let (_, w) ← orReturn (moveToNetns hostSk w childIId peerNsFd)
    mapErr (sys (.setns peerNs)) fun _ => ↑(NamespaceError.failedToEnterNamespace "peer_ns_fd")
    createPeerNetwork w childIId hostAddress peerAddress
    mapErr (sys (.setns hostNs)) fun _ => ↑(NamespaceError.failedToEnterNamespace "host_ns_fd")
    mapErr (sys (.write (.host "/proc/sys/net/ipv4/ip_forward") (.text "1"))) fun e =>
      ↑(NetworkError.writeFailure e)
    mapErr (sys (.iptables iptablesArgs)) fun e => ↑(NetworkError.commandFailure e)

end Clonebox
