import HumbleNet.BidirectionalMap
import HumbleNet.Framing
import HumbleNet.Hello
import HumbleNet.Lib.Guarded
import HumbleNet.PeerServer.Server

/-! The state of the client library (`humblenet_p2p_internal.h`, the file-level variables of
`humblenet_p2p.cpp`, `humblenet_alias.cpp` and `humblenet_datagram.cpp`), the calls it makes
to the outside, and the accesses through its pointers. -/
namespace HumbleNet.Client

open Guarded

abbrev ConnPtr := Nat

abbrev SocketPtr := Nat

abbrev Wsi := Nat

inductive InOrOut where
  | incoming
  | outgoing
  deriving DecidableEq, Repr

inductive ConnectionStatus where
  | closed
  | connecting
  | connected
  deriving DecidableEq, Repr

structure Connection where
  inOrOut : InOrOut
  status : ConnectionStatus
  otherPeer : PeerId
  recvBuffer : Bytes
  writable : Bool
  socket : Option SocketPtr
  deriving DecidableEq, Repr

def Connection.new (inOrOut : InOrOut) : Connection where
  inOrOut := inOrOut
  status := .connecting
  otherPeer := 0
  recvBuffer := []
  writable := true
  socket := none

inductive WebrtcReason where
  | localDescription (offer : Bytes)
  | iceCandidate (candidate : Bytes)
  | established
  | disconnected
  | channelAccepted
  | channelConnected
  | channelReceive (data : Bytes)
  | channelClosed
  | destroy
  deriving DecidableEq, Repr

inductive Stage where
  | negotiating
  | established
  | opened
  | disconnected
  deriving DecidableEq, Repr

/-- `internal_socket_t`, as far as a WebRTC socket uses it. `stage` is a history that no
program reads. -/
structure InternalSocket where
  closing : Bool
  userData : Option ConnPtr
  webrtcChannel : Bool
  stage : Stage
  deriving DecidableEq, Repr

def InternalSocket.new : InternalSocket where
  closing := false
  userData := none
  webrtcChannel := false
  stage := .negotiating

/-- `serial` tells the objects apart that `p2pConn` has owned. -/
structure P2PSignalConnection where
  serial : Nat
  wsi : Option Wsi
  recvBuf : Bytes
  sendBuf : Bytes
  deriving DecidableEq, Repr

structure InternalContext where
  webrtc : Bool
  stunServerList : List Bytes
  deriving DecidableEq, Repr

structure DatagramConnection where
  conn : ConnPtr
  peer : PeerId
  bufIn : Bytes
  bufOut : Bytes
  queued : Nat
  seqOut : UInt32
  deriving DecidableEq, Repr

def DatagramConnection.new (conn : ConnPtr) (peer : PeerId) : DatagramConnection where
  conn := conn
  peer := peer
  bufIn := []
  bufOut := []
  queued := 0
  seqOut := 0

/-- What a connection was made for: the session, and the peer that a message went to. -/
structure Origin where
  session : Nat
  peer : Option PeerId
  deriving DecidableEq, Repr

structure Tables where
  heap : StdMap ConnPtr Connection
  sockets : StdMap SocketPtr InternalSocket
  -- HumbleNetState
  connections : StdMap SocketPtr ConnPtr
  pendingNewConnections : StdSet ConnPtr
  pendingDataConnections : StdSet ConnPtr
  remoteClosedConnections : StdSet ConnPtr
  pendingPeerConnectionsOut : StdMap PeerId ConnPtr
  pendingPeerConnectionsIn : StdMap PeerId ConnPtr
  pendingAliasConnectionsOut : StdMap Bytes ConnPtr
  -- humblenet_p2p.cpp
  p2pconnections : StdMap PeerId ConnPtr
  -- humblenet_alias.cpp
  virtualPeerConnections : BidirectionalMap PeerId ConnPtr
  -- humblenet_datagram.cpp, whose map is also called `connections`
  datagrams : StdMap ConnPtr DatagramConnection
  queuedPackets : Bool
  -- HumbleNetState
  myPeerId : PeerId
  -- a history that the library does not read: the sessions begun, the first hello in this one,
  -- every connection ever made and how many have had an address, the connection that the last
  -- result came from, and the peers that the application was told results came from
  session : Nat
  greeted : Option PeerId
  made : StdMap ConnPtr Origin
  lives : ConnPtr → Nat
  source : Option ConnPtr
  told : List (ConnPtr × PeerId)

structure State extends Tables where
  -- HumbleNetState
  peerBlacklist : StdMap PeerId UInt64
  p2pConn : Option P2PSignalConnection
  signalSerial : Nat
  signalingServerAddr : Bytes
  gameToken : Bytes
  gameSecret : Bytes
  authToken : Bytes
  reconnectToken : Bytes
  iceServers : List ICEServer
  webRTCSupported : Bool
  context : Option InternalContext
  -- humblenet_p2p.cpp
  initialized : Bool
  -- humblenet_alias.cpp
  virtualPeerNames : BidirectionalMap PeerId Bytes
  nextVirtualPeer : UInt32
  hints : StdMap Bytes Bytes
  errorString : Option String

def Tables.initial : Tables where
  heap := ∅
  sockets := ∅
  connections := ∅
  pendingNewConnections := []
  pendingDataConnections := []
  remoteClosedConnections := []
  pendingPeerConnectionsOut := ∅
  pendingPeerConnectionsIn := ∅
  pendingAliasConnectionsOut := ∅
  p2pconnections := ∅
  virtualPeerConnections := .empty
  datagrams := ∅
  queuedPackets := false
  myPeerId := 0
  session := 0
  greeted := none
  made := ∅
  lives _ := 0
  source := none
  told := []

def State.initial : State where
  toTables := .initial
  peerBlacklist := ∅
  p2pConn := none
  signalSerial := 0
  signalingServerAddr := []
  gameToken := []
  gameSecret := []
  authToken := []
  reconnectToken := []
  iceServers := []
  webRTCSupported := false
  context := none
  initialized := false
  virtualPeerNames := .empty
  nextVirtualPeer := 0
  hints := ∅
  errorString := none

/-- Points of the program that a run can be asked to pass only in some states. -/
inductive Point where
  | new (conn : ConnPtr)
  | setClosed (conn : ConnPtr) (recvBuffer : Bytes) (deleted : Bool)
  | delete (conn : ConnPtr)
  | arrive (conn : ConnPtr) (data : Bytes)
  | answer (peer : PeerId)
  | bufferedIn (conn : ConnPtr)
  | visit (conn : ConnPtr)
  | maxLength (conn : ConnPtr)
  | connected (conn : ConnPtr)
  | pend (inOrOut : InOrOut) (peer : PeerId)
  | beginSession
  | greet (peer : PeerId)
  | callback (socket : SocketPtr) (reason : WebrtcReason)
  | opening (conn : ConnPtr)
  | adopt (conn : ConnPtr)
  | read (conn : ConnPtr)
  deriving DecidableEq, Repr

/-- The calls to the outside. `order` is the order in which an unordered container is
walked, `pause` a release of the lock that calls nothing, `mark` a point passed. -/
inductive Query where
  | newConnection
  | newInternalSocket
  | order (elements : List ConnPtr)
  | malloc (size : Nat)
  | padding
  | sysMilliseconds
  | time
  | platform
  | pause
  | internalDeinit
  | libwebrtcCreateContext
  | libwebsocketClientConnect (serverAddr : Bytes)
  | libwebsocketWrite (wsi : Wsi) (buf : Bytes)
  | libwebrtcCreateConnection
  | libwebrtcCreateOffer (socket : SocketPtr)
  | libwebrtcSetOffer (socket : SocketPtr) (offer : Bytes)
  | libwebrtcSetAnswer (socket : SocketPtr) (offer : Bytes)
  | libwebrtcAddIceCandidate (socket : SocketPtr) (candidate : Bytes)
  | libwebrtcCreateChannel (socket : SocketPtr) (name : Bytes)
  | libwebrtcCloseConnection (socket : SocketPtr)
  | libwebrtcWrite (socket : SocketPtr) (buf : Bytes)
  | mark (point : Point)
  deriving DecidableEq, Repr

abbrev Query.Answer : Query → Type
  | .newConnection => ConnPtr
  | .newInternalSocket => SocketPtr
  | .order _ => List ConnPtr
  | .malloc _ => Bool
  | .padding => UInt8
  | .sysMilliseconds => UInt64
  | .time => Int
  | .platform => Bytes
  | .libwebrtcCreateContext => Bool
  | .libwebsocketClientConnect _ => Option Wsi
  | .libwebsocketWrite _ _ => Int
  | .libwebrtcCreateOffer _ => Bool
  | .libwebrtcSetOffer _ _ => Bool
  | .libwebrtcSetAnswer _ _ => Bool
  | .libwebrtcCreateChannel _ _ => Bool
  | .libwebrtcWrite _ _ => Int
  | _ => Unit

/-- What the outside may answer: an address that holds no live object, an order of all the
elements, a count of bytes up to the ones offered. -/
def Query.Allowed : (q : Query) → State → q.Answer → State → Prop
  | .newConnection, _, conn, t => conn ∉ t.heap
  | .newInternalSocket, _, socket, t => socket ∉ t.sockets
  | .order elements, _, walked, _ => List.Perm walked elements
  | .libwebsocketWrite _ buf, _, retval, _ => -1 ≤ retval ∧ retval ≤ buf.length
  | .libwebrtcWrite _ buf, _, retval, _ => -1 ≤ retval ∧ retval ≤ buf.length
  | _, _, _, _ => True

inductive Assertion where
  | connectionWrite
  | connectionRead
  | onSdp
  | onIceCandidate
  | onConnect
  | onAcceptChannel
  | onConnectChannel
  | onData
  | onDataPending
  | readAllEmpty
  | readAllPending
  | pollAll
  | offerSignal
  | answerPeer
  | answerSocket
  | answerStatus
  | helloServer
  | socketChannel
  deriving DecidableEq, Repr

/-- What stops the process, or keeps it in a loop. -/
inductive Fault where
  | null
  | dangling
  | assertion (a : Assertion)
  | overrun
  | hang
  deriving DecidableEq, Repr

abbrev ClientM := Guarded State Fault Query Query.Answer

def assert (condition : Prop) [Decidable condition] (a : Assertion) : ClientM Unit :=
  if condition then pure () else fault (.assertion a)

def mark (point : Point) : ClientM Unit := ask (Query.mark point)

def walk (elements : List ConnPtr) : ClientM (List ConnPtr) := ask (Query.order elements)

def through {α : Type} (e : Fault) : Option α → ClientM α
  | some a => pure a
  | none => fault e

def field {α : Type} : Option α → ClientM α := through .null

def deref (conn : ConnPtr) : ClientM Connection := do
  through .dangling ((← get).heap.lookup conn)

def derefSocket (socket : SocketPtr) : ClientM InternalSocket := do
  through .dangling ((← get).sockets.lookup socket)

def derefDatagram (conn : ConnPtr) : ClientM DatagramConnection := do
  through .dangling ((← get).datagrams.lookup conn)

def Tables.make (s : Tables) (conn : ConnPtr) (connection : Connection)
    (peer : Option PeerId) : Tables :=
  { s with
    heap := s.heap.insert conn connection
    made := s.made.insert conn ⟨s.session, peer⟩
    lives := Function.update s.lives conn (s.lives conn + 1) }

def Tables.updateConnection (s : Tables) (conn : ConnPtr) (f : Connection → Connection) :
    Tables :=
  { s with heap := StdMap.modify conn f s.heap }

def Tables.updateDatagram (s : Tables) (conn : ConnPtr)
    (f : DatagramConnection → DatagramConnection) : Tables :=
  { s with datagrams := StdMap.modify conn f s.datagrams }

def Tables.updateSocket (s : Tables) (socket : SocketPtr)
    (f : InternalSocket → InternalSocket) : Tables :=
  { s with sockets := StdMap.modify socket f s.sockets }

def modifyTables (f : Tables → Tables) : ClientM Unit :=
  modify fun s => { s with toTables := f s.toTables }

def humblenetSetError (error : String) : ClientM Unit :=
  modify fun s => { s with errorString := some error }

def humblenetClearError : ClientM Unit := modify fun s => { s with errorString := none }

def leastKey {K V : Type} [Min K] (after : K → Bool) (m : StdMap K V) : Option K :=
  (m.keys.filter after).min?

section leastKey

variable {K V : Type} [Min K] [LE K] [Std.IsLinearOrder K] [Std.LawfulOrderMin K] {after : K → Bool}
  {m : StdMap K V} {k : K}

theorem leastKey_some (h : leastKey after m = some k) :
    after k = true ∧ ∀ k' ∈ m, after k' = true → k ≤ k' := by
  obtain ⟨mem, least⟩ := List.min?_eq_some_iff.mp h
  refine ⟨(List.mem_filter.mp mem).2, fun k' there passed => ?_⟩
  exact least k' (List.mem_filter.mpr ⟨AList.mem_keys.mpr there, passed⟩)

theorem leastKey_mem (h : leastKey after m = some k) : k ∈ m := by
  have mem := (List.min?_eq_some_iff.mp h).1
  exact AList.mem_keys.mpr (List.mem_filter.mp mem).1

omit [LE K] [Std.IsLinearOrder K] [Std.LawfulOrderMin K] in
theorem leastKey_none (h : leastKey after m = none) : ∀ k ∈ m, after k = false := by
  intro k there
  by_contra passed
  have mem : k ∈ m.keys.filter after :=
    List.mem_filter.mpr ⟨AList.mem_keys.mpr there, Bool.not_eq_false _ ▸ passed⟩
  rw [List.min?_eq_none_iff.mp h] at mem
  exact absurd mem List.not_mem_nil

end leastKey

def asInt (n : Nat) : Int := Int.bmod n (2 ^ 32)

theorem asInt_of_small {n : Nat} (h : n < 2 ^ 31) : asInt n = (n : Int) := by
  unfold asInt
  exact Int.bmod_eq_of_le (by omega) (by omega)

theorem asInt_lt (n : Nat) : asInt n < 2 ^ 31 := Int.bmod_lt (by decide)

theorem asInt_eq_iff (n : Nat) : asInt n = (n : Int) ↔ n < 2 ^ 31 := by
  refine Iff.intro (fun h => ?_) asInt_of_small
  have := asInt_lt n
  omega

end HumbleNet.Client
