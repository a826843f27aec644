import HumbleNet.Client.Datagram
import HumbleNet.Client.Signaling

/-! The calls of the application (`humblenet_p2p.cpp`, `humblenet_core.cpp`). -/
namespace HumbleNet.Client

open Guarded

variable (env : Externals)

def initGuard {α : Type} (otherwise : α) (call : ClientM α) : ClientM α := do
  if (← get).initialized then call
  else
    humblenetSetError "humblenet_p2p_init has not been called"
    pure otherwise

/-- `internal_init`, of which only the context of WebRTC can be missing. -/
def internalP2PRegisterProtocol : ClientM Unit := do
  let webrtc ← ask Query.libwebrtcCreateContext
  modify fun s =>
    { s with context := some ⟨webrtc, []⟩, webRTCSupported := webrtc }

def humblenetP2PInit (server gameToken gameSecret authToken : Option Bytes) :
    ClientM Bool := do
  if (← get).initialized then pure true
  else
    match server, gameToken, gameSecret with
    | some server, some gameToken, some gameSecret =>
      mark .beginSession
      modify fun s => { s with session := s.session + 1, greeted := none }
      modify fun s =>
        { s with
          initialized := true
          signalingServerAddr := cStr server
          gameToken := cStr gameToken
          gameSecret := cStr gameSecret
          reconnectToken := []
          authToken := cStr (authToken.getD []) }
      internalP2PRegisterProtocol
      let _ ← humblenetSignalingConnect
      pure true
    | _, _, _ =>
      humblenetSetError "Must specify server, game_token, and game_secret"
      pure false

/-- `disconnect()` only asks for a callback on the websocket. -/
def humblenetP2PShutdown : ClientM Unit := do
  doWhen ((← get).initialized = true) do
    modify fun s => { s with initialized := false, p2pConn := none }
    unguarded Query.internalDeinit
    modify fun s => { s with context := none }

def closeAll : Nat → List SocketPtr → Option SocketPtr → ClientM Unit
  | _, _, none => pure ()
  | 0, _, some _ => fault .hang
  | fuel + 1, visited, some it => do
    match (← get).connections.lookup it with
    | none => fault .dangling
    | some conn =>
      let rest := (← get).connections.keys.filter fun key => decide (key ∉ it :: visited)
      let order ← walk rest
      humblenetConnectionClose conn
      closeAll fuel (it :: visited) order.head?

def humblenetShutdown (fuel : Nat) : ClientM Unit := do
  let order ← walk (← get).connections.keys
  closeAll fuel [] order.head?
  humblenetP2PShutdown

def humblenetP2PGetMyPeerId : ClientM PeerId :=
  initGuard 0 do pure (← get).myPeerId

def humblenetP2PRegisterAlias (name : Option Bytes) : ClientM Bool :=
  initGuard false (internalAliasRegister env name)

def humblenetP2PUnregisterAlias (name : Option Bytes) : ClientM Bool :=
  initGuard false (internalAliasUnregister env name)

def humblenetP2PVirtualPeerForAlias (name : Bytes) : ClientM PeerId :=
  initGuard 0 (internalAliasLookup name)

def sendReliableBuffered : UInt8 := 1

def connectionTo (topeer : PeerId) : ClientM (Option ConnPtr) := do
  match (← get).p2pconnections.lookup topeer with
  | some conn => pure (some conn)
  | none =>
    if internalAliasIsVirtualPeer topeer then
      match ← internalAliasFindConnection topeer with
      | some conn => pure (some conn)
      | none => internalAliasCreateConnection env topeer
    else humblenetConnectPeer topeer

def sendOver (conn : ConnPtr) (message : Bytes) (topeer : PeerId) (sendmode : UInt8)
    (channel : UInt8) : ClientM Int := do
  let c ← deref conn
  -- if were still connecting and reliable, treat it as a buffered request
  let flags :=
    if sendmode &&& sendReliableBuffered ≠ 0 ∨ c.status = .connecting then msgBuffered else 0
  let ret ← humblenetDatagramSend env message flags conn channel
  if ret < 0 then
    let c ← deref conn
    if c.status = .closed then
      modify fun s => { s with p2pconnections := s.p2pconnections.erase c.otherPeer }
      modify fun s => { s with p2pconnections := s.p2pconnections.erase topeer }
      humblenetConnectionClose conn
      humblenetSetError "Connection to peer was closed"
      pure (-1)
    else pure ret
  else pure ret

def humblenetP2PSendto (message : Bytes) (topeer : PeerId) (sendmode : UInt8)
    (channel : UInt8) : ClientM Int :=
  initGuard (-1) do
    let cit := (← get).p2pconnections.lookup topeer
    match ← connectionTo env topeer with
    | none =>
      humblenetSetError "Unable to get a connection for peer"
      pure (-1)
    | some conn =>
      doWhen (cit = none) (modify fun s =>
        { s with p2pconnections := StdMap.emplace topeer conn s.p2pconnections })
      sendOver env conn message topeer sendmode channel

def humblenetP2PPeek (fuel : Nat) (channel : UInt8) : ClientM Nat :=
  initGuard 0 do
    let (ret, _, _) ← humblenetDatagramRecv env fuel 0 msgPeek channel
    pure ret.toNat

def trackOrClose (ret : Int) (conn : ConnPtr) (frompeer peer : PeerId) : ClientM Unit :=
  if 0 < ret then
    modify fun s =>
      { s with p2pconnections := StdMap.emplace frompeer conn s.p2pconnections }
  else do
    modify fun s => { s with p2pconnections := s.p2pconnections.erase frompeer }
    modify fun s => { s with p2pconnections := s.p2pconnections.erase peer }
    humblenetConnectionClose conn

/-- What `humblenet_p2p_recvfrom` does with a result of the layer below; the peer it is
reported to come from. -/
def reportFrom (ret : Int) (conn : ConnPtr) : ClientM PeerId := do
  let vpeer ← internalAliasGetVirtualPeer conn
  let c ← deref conn
  let frompeer := if vpeer ≠ 0 then vpeer else c.otherPeer
  modify fun s => { s with source := some conn }
  trackOrClose ret conn frompeer c.otherPeer
  pure frompeer

def humblenetP2PRecvfrom (fuel : Nat) (length : UInt32) (channel : UInt8) :
    ClientM (Int × PeerId × Bytes) :=
  initGuard (0, 0, []) do
    let (ret, conn, data) ← humblenetDatagramRecv env fuel length.toNat 0 channel
    match conn with
    | none => pure (ret, 0, data)
    | some conn =>
      if ret = 0 then pure (ret, 0, data)
      else
        let frompeer ← reportFrom ret conn
        pure (ret, frompeer, data)

def disconnectFrom : Nat → Option PeerId → ClientM Unit
  | _, none => pure ()
  | 0, some _ => fault .hang
  | fuel + 1, some peer => do
    match (← get).p2pconnections.lookup peer with
    | none => fault .dangling
    | some conn =>
      humblenetConnectionSetClosed conn
      let s ← get
      if peer ∈ s.p2pconnections then
        disconnectFrom fuel (leastKey (fun key => decide (peer < key)) s.p2pconnections)
      else fault .dangling

def humblenetP2PDisconnect (fuel : Nat) (peer : PeerId) : ClientM Bool :=
  initGuard false do
    let s ← get
    if peer = 0 then
      disconnectFrom fuel (leastKey (fun _ => true) s.p2pconnections)
      pure true
    else
      match s.p2pconnections.lookup peer with
      | some conn =>
        humblenetConnectionSetClosed conn
        pure true
      | none => pure true

def humblenetSetHint (name value : Bytes) : ClientM Unit :=
  modify fun s => { s with hints := s.hints.insert (cStr name) (cStr value) }

end HumbleNet.Client
