import HumbleNet.Client.P2P

/-! What can happen to a client: calls of the application, callbacks of the signaling
websocket and callbacks of the WebRTC sockets, which interleave wherever the lock is free. -/
namespace HumbleNet.Client

open Guarded

def reach (socket : SocketPtr) (stage : Stage) : ClientM Unit :=
  modifyTables fun s => s.updateSocket socket fun it => { it with stage := stage }

def webrtcProtocol (env : Externals) (socket : SocketPtr) (reason : WebrtcReason) :
    ClientM Int := do
  mark (.callback socket reason)
  let it ← derefSocket socket
  match reason with
  | .localDescription offer => onSdp env offer it.userData
  | .iceCandidate candidate => onIceCandidate env candidate it.userData
  | .established =>
    reach socket .established
    onConnect socket it.userData
  | .disconnected =>
    modifyTables fun s => s.updateSocket socket fun it => { it with closing := true }
    reach socket .disconnected
    onDisconnect socket it.userData
  | .channelAccepted =>
    modifyTables fun s => s.updateSocket socket fun it => { it with webrtcChannel := true }
    reach socket .opened
    onAcceptChannel it.userData
  | .channelConnected =>
    reach socket .opened
    onConnectChannel it.userData
  | .channelReceive data => onData data it.userData
  | .channelClosed =>
    modifyTables fun s => s.updateSocket socket fun it => { it with webrtcChannel := false }
    -- we are 1-1 DC -> channel: simply close the connection as well
    doWhen (it.closing = false) (unguarded (Query.libwebrtcCloseConnection socket))
    pure 0
  | .destroy =>
    -- no `on_destroy` is registered for these sockets
    modify fun s => { s with sockets := s.sockets.erase socket }
    pure 0

/-- The kinds of programs: libwebsockets calls back from its one service loop. -/
inductive Caller where
  | application
  | websocket
  | transport
  deriving DecidableEq, Repr

inductive Event where
  | init (server gameToken gameSecret authToken : Option Bytes)
  | shutdown (fuel : Nat)
  | registerAlias (name : Option Bytes)
  | unregisterAlias (name : Option Bytes)
  | virtualPeerForAlias (name : Bytes)
  | sendto (message : Bytes) (topeer : PeerId) (sendmode channel : UInt8)
  | peek (fuel : Nat) (channel : UInt8)
  | recvfrom (fuel : Nat) (length : UInt32) (channel : UInt8)
  | disconnect (fuel : Nat) (peer : PeerId)
  | setHint (name value : Bytes)
  -- the layers below, called on their own
  | connectionRead (conn : ConnPtr) (bufsize : UInt32)
  | datagramSend (message : Bytes) (flags : UInt8) (conn : ConnPtr) (channel : UInt8)
  | datagramRecv (fuel length : Nat) (flags channel : UInt8)
  | datagramFlush (fuel : Nat)
  | signalConnect (wsi : Wsi)
  | signalData (wsi : Wsi) (data : Bytes) (pastEnd : Bytes → Bytes) (fuel : Nat)
  | signalWritable (wsi : Wsi)
  | signalDisconnect (wsi : Wsi)
  | webrtc (socket : SocketPtr) (reason : WebrtcReason)

def Event.caller : Event → Caller
  | .signalConnect _ | .signalData _ _ _ _ | .signalWritable _ | .signalDisconnect _ => .websocket
  | .webrtc _ _ => .transport
  | _ => .application

/-- What `humblenet_p2p_recvfrom` has returned tells the application where a result came from. -/
def tell (frompeer : PeerId) : ClientM Unit :=
  modify fun s =>
    { s with told := (s.source.map fun conn => (conn, frompeer)).toList ++ s.told }

def handle (env : Externals) : Event → ClientM Unit
  | .init server gameToken gameSecret authToken => do
    let _ ← humblenetP2PInit server gameToken gameSecret authToken
  | .shutdown fuel => humblenetShutdown fuel
  | .registerAlias name => do let _ ← humblenetP2PRegisterAlias env name
  | .unregisterAlias name => do let _ ← humblenetP2PUnregisterAlias env name
  | .virtualPeerForAlias name => do let _ ← humblenetP2PVirtualPeerForAlias name
  | .sendto message topeer sendmode channel => do
    let _ ← humblenetP2PSendto env message topeer sendmode channel
  | .peek fuel channel => do let _ ← humblenetP2PPeek env fuel channel
  | .recvfrom fuel length channel => do
    modify fun s => { s with source := none }
    let (_, frompeer, _) ← humblenetP2PRecvfrom env fuel length channel
    tell frompeer
  | .disconnect fuel peer => do let _ ← humblenetP2PDisconnect fuel peer
  | .setHint name value => humblenetSetHint name value
  | .connectionRead conn bufsize => do let _ ← humblenetConnectionRead conn bufsize
  | .datagramSend message flags conn channel => do
    let _ ← humblenetDatagramSend env message flags conn channel
  | .datagramRecv fuel length flags channel => do
    let _ ← humblenetDatagramRecv env fuel length flags channel
  | .datagramFlush fuel => do let _ ← humblenetDatagramFlush env fuel
  | .signalConnect wsi => do let _ ← signalOnConnect env wsi
  | .signalData wsi data pastEnd fuel => do let _ ← signalOnData env wsi data pastEnd fuel
  | .signalWritable wsi => do let _ ← signalOnWritable wsi
  | .signalDisconnect wsi => do let _ ← signalOnDisconnect wsi
  | .webrtc socket reason => do let _ ← webrtcProtocol env socket reason

/-- The runs of a client whose points are passed only where `ok` lets them. -/
def setting (env : Externals) (ok : Point → Tables → Prop) :
    Setting Caller State Fault Query Query.Answer Unit where
  allowed q s a t := q.Allowed s a t ∧ ∀ point, q = .mark point → ok point s.toTables
  begins tag tags _ x :=
    ∃ event, event.caller = tag ∧ x = handle env event ∧ (tag = .websocket → tag ∉ tags)

abbrev Run (env : Externals) (ok : Point → Tables → Prop) :
    Config Caller State Fault Query Query.Answer Unit → Prop :=
  (setting env ok).Reach fun s => s = .initial

end HumbleNet.Client
