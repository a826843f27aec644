import HumbleNet.Client.Alias

/-! The signaling connection of the client (`humblenet_p2p_signaling.cpp`):
`p2pSignalProcess`, one definition for each case of its switch, and the callbacks of the
websocket. -/
namespace HumbleNet.Client

open Guarded

variable (env : Externals)

def emulatedFlag : UInt8 := 0x1

def processP2POffer (msg : Option P2POffer) : ClientM Bool := do
  let p2p ← field msg
  let peer := p2p.peerId
  let s ← get
  if peer ∈ s.pendingPeerConnectionsIn then
    -- already a pending incoming connection to this peer
    pure true
  else
    doWhen (p2p.flags &&& emulatedFlag ≠ 0 ∨ s.webRTCSupported = false) do
      assert (s.p2pConn ≠ none) .offerSignal
      let _ ← sendPeerRefused (sendP2PMessage env) peer
    let socket ← internalCreateWebrtc
    let connection ← newConnection
      { Connection.new .incoming with otherPeer := peer, socket := socket } none
    mark (.pend .incoming peer)
    internalSetData socket (some connection)
    modify fun s =>
      { s with
        pendingPeerConnectionsIn :=
          StdMap.emplace peer connection s.pendingPeerConnectionsIn }
    let offer ← field p2p.offer
    let ret ← internalSetOffer socket (cStr offer)
    doWhen (ret = false) do
      humblenetConnectionClose connection
      let _ ← sendPeerRefused (sendP2PMessage env) peer
    pure true

def processP2PAnswer (msg : Option P2PAnswer) : ClientM Bool := do
  let p2p ← field msg
  let peer := p2p.peerId
  mark (.answer peer)
  match (← get).pendingPeerConnectionsOut.lookup peer with
  | none => pure true
  | some conn =>
    let c ← deref conn
    assert (c.otherPeer = peer) .answerPeer
    assert (c.socket ≠ none) .answerSocket
    -- TODO: deal with _CLOSED
    assert (c.status = .connecting) .answerStatus
    let offer ← field p2p.offer
    let ret ← internalSetAnswer c.socket (cStr offer)
    doWhen (ret = false) (humblenetConnectionSetClosed conn)
    pure true

def keepICEServer (it : ICEServer) : Option ICEServer :=
  if it.type = stunServer then some ⟨stunServer, it.server, none, none⟩
  else if it.type = turnServer ∧ it.username.isSome ∧ it.password.isSome then
    some ⟨turnServer, it.server, it.username, it.password⟩
  else none

def internalSetStunServers (servers : List Bytes) : ClientM Unit := do
  match (← get).context with
  | none => fault .null
  | some context =>
    modify fun s => { s with context := some { context with stunServerList := servers } }

def processHelloClient (msg : Option HelloClient) : ClientM Bool := do
  let hello ← field msg
  mark (.greet hello.peerId)
  modify fun s => { s with greeted := s.greeted <|> some hello.peerId }
  if (← get).myPeerId ≠ 0 then
    -- got HelloClient but we already have a peer id
    pure true
  else
    let iceServers := (hello.iceServers.getD []).filterMap keepICEServer
    modify fun s => { s with myPeerId := hello.peerId, iceServers := iceServers }
    internalSetStunServers
      ((iceServers.filter fun it => it.type = stunServer).map fun it => cStr it.server)
    pure true

def processICECandidate (msg : Option ICECandidate) : ClientM Bool := do
  let iceCandidate ← field msg
  let peer := iceCandidate.peerId
  let s ← get
  match s.pendingPeerConnectionsIn.lookup peer <|> s.pendingPeerConnectionsOut.lookup peer with
  | none => pure true
  | some conn =>
    let c ← deref conn
    match c.socket, c.status with
    | some socket, .connecting =>
      let offer ← field iceCandidate.offer
      internalAddIceCandidate socket (cStr offer)
      pure true
    | _, _ => pure true

def processP2PReject (msg : Option P2PReject) : ClientM Bool := do
  let reject ← field msg
  let peer := reject.peerId
  match (← get).pendingPeerConnectionsOut.lookup peer with
  | none => pure true
  | some conn =>
    blacklistPeer peer
    humblenetConnectionSetClosed conn
    pure true

def findOtherPeer (peer : PeerId) : List ConnPtr → ClientM (Option ConnPtr)
  | [] => pure none
  | conn :: rest => do
    let c ← deref conn
    if c.otherPeer = peer then pure (some conn)
    else findOtherPeer peer rest

def processP2PRelayData (msg : Option P2PRelayData) : ClientM Bool := do
  let relay ← field msg
  let data ← field relay.data
  let s ← get
  match ← findOtherPeer relay.peerId (← walk (s.connections.entries.map Sigma.snd)) with
  | none => pure true
  | some conn =>
    mark (.arrive conn data)
    modifyTables fun s => s.updateConnection conn fun c =>
      { c with recvBuffer := c.recvBuffer ++ data }
    modify fun s =>
      { s with pendingDataConnections := StdSet.insert conn s.pendingDataConnections }
    pure true

def processAliasResolved (msg : Option AliasResolved) : ClientM Bool := do
  let resolved ← field msg
  internalAliasResolvedTo (cStr resolved.aliasName) resolved.peerId
  pure true

/-- Through a pointer that is only read for the log. -/
def processLogged {α : Type} (msg : Option α) : ClientM Bool := do
  let _ ← field msg
  pure true

def p2pSignalProcess : Message → ClientM Bool
  | .p2pOffer msg => processP2POffer env msg
  | .p2pAnswer msg => processP2PAnswer msg
  | .helloClient msg => processHelloClient msg
  | .iceCandidate msg => processICECandidate msg
  | .p2pReject msg => processP2PReject msg
  | .p2pConnected msg => processLogged msg
  | .p2pDisconnect msg => processLogged msg
  | .p2pRelayData msg => processP2PRelayData msg
  | .aliasResolved msg => processAliasResolved msg
  | _ => pure true

/-- Access to the object that `p2pConn` owned when the callback began. -/
def derefSignal (serial : Nat) : ClientM P2PSignalConnection := do
  match (← get).p2pConn with
  | none => fault .dangling
  | some conn => if conn.serial = serial then pure conn else fault .dangling

def assignSignal (serial : Nat) (f : P2PSignalConnection → P2PSignalConnection) :
    ClientM Unit := do
  let conn ← derefSignal serial
  modify fun s => { s with p2pConn := some (f conn) }

def resetSignal : ClientM Unit := modify fun s => { s with p2pConn := none }

/-- `on_data`. The rounds of `parseMessage` are bounded by `fuel`. -/
def signalOnData (wsi : Wsi) (data : Bytes) (pastEnd : Bytes → Bytes) (fuel : Nat) :
    ClientM Int := do
  match (← get).p2pConn with
  | none => pure (-1)
  | some conn =>
    if conn.wsi ≠ some wsi then pure (-1)
    else
      assignSignal conn.serial fun c => { c with recvBuf := c.recvBuf ++ data }
      let retval ← parseMessage
        (fun recvBuf =>
          parseHeader env.sizeBits env.verifyMessageBuffer (pastEnd recvBuf) recvBuf)
        (do pure (← derefSignal conn.serial).recvBuf)
        (fun size => assignSignal conn.serial fun c =>
          { c with recvBuf := c.recvBuf.drop size })
        (fault .overrun)
        (fun buff => p2pSignalProcess env (env.getMessage buff))
        fuel
      if retval then pure 0
      else
        resetSignal
        pure (-1)

def platformKey : Bytes := ascii ['p', 'l', 'a', 't', 'f', 'o', 'r', 'm']

def signalOnConnect (wsi : Wsi) : ClientM Int := do
  let s ← get
  match s.p2pConn with
  | none => pure (-1)
  | some conn =>
    if conn.wsi ≠ some wsi then pure (-1)
    else
      let pinfo ← ask Query.platform
      let flags : UInt8 := if s.webRTCSupported then 0x1 ||| 0x2 else 0
      let now ← ask Query.time
      let helloSuccess ← sendHelloServer env.sha1 now (fault (.assertion .helloServer))
        (sendP2PMessage env) flags s.gameToken s.gameSecret s.authToken s.reconnectToken
        [(platformKey, pinfo)]
      if helloSuccess then pure 0
      else
        resetSignal
        pure (-1)

def signalOnWritable (wsi : Wsi) : ClientM Int := do
  match (← get).p2pConn with
  | none => pure (-1)
  | some conn =>
    if conn.wsi ≠ some wsi then pure (-1)
    else if conn.sendBuf.isEmpty then pure 0
    else
      let retval ← ask (Query.libwebsocketWrite wsi conn.sendBuf)
      if retval < 0 then
        resetSignal
        pure (-1)
      else
        assignSignal conn.serial fun c => { c with sendBuf := c.sendBuf.drop retval.toNat }
        pure 0

def signalOnDisconnect (wsi : Wsi) : ClientM Int := do
  match (← get).p2pConn with
  | none => pure 0
  | some conn =>
    doWhen (conn.wsi = some wsi) resetSignal
    pure 0

def humblenetSignalingConnect : ClientM Bool := do
  doWhen ((← get).p2pConn ≠ none) do
    -- `disconnect()` only asks for a callback on the websocket
    modify fun s => { s with p2pConn := none, myPeerId := 0 }
  let s ← get
  match ← ask (Query.libwebsocketClientConnect s.signalingServerAddr) with
  | none =>
    humblenetSetError "WebSocket connection to signaling server failed"
    pure false
  | some wsi =>
    modify fun s =>
      { s with
        p2pConn := some ⟨s.signalSerial, some wsi, [], []⟩
        signalSerial := s.signalSerial + 1 }
    pure true

end HumbleNet.Client
