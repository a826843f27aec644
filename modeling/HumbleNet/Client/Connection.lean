import HumbleNet.Client.State

/-! The connections of the client (`humblenet_core.cpp`), and the part of `libsocket.cpp`
they stand on. -/
namespace HumbleNet.Client

open Guarded

def Tables.unlist (conn : ConnPtr) (s : Tables) : Tables :=
  { s with
    connections := StdMap.eraseValue conn s.connections
    pendingNewConnections := StdSet.erase conn s.pendingNewConnections
    pendingDataConnections := StdSet.erase conn s.pendingDataConnections
    pendingPeerConnectionsOut := StdMap.eraseValue conn s.pendingPeerConnectionsOut
    pendingPeerConnectionsIn := StdMap.eraseValue conn s.pendingPeerConnectionsIn
    pendingAliasConnectionsOut := StdMap.eraseValue conn s.pendingAliasConnectionsOut
    remoteClosedConnections := StdSet.insert conn s.remoteClosedConnections }

def assign (conn : ConnPtr) (f : Connection → Connection) : ClientM Unit := do
  let _ ← deref conn
  modifyTables fun s => s.updateConnection conn f

/-! ### libsocket.cpp -/

def internalSetData (socket : Option SocketPtr) (userData : Option ConnPtr) : ClientM Unit :=
  match socket with
  | none => fault .null
  | some socket => do
    let _ ← derefSocket socket
    modifyTables fun s => s.updateSocket socket fun it => { it with userData := userData }

/-- Called with the lock released, like all that follow here. -/
def internalCloseSocket (socket : SocketPtr) : ClientM Unit := do
  let it ← derefSocket socket
  if it.closing then unguarded Query.pause
  else
    modifyTables fun s => s.updateSocket socket fun it => { it with closing := true }
    unguarded (Query.libwebrtcCloseConnection socket)

def internalCreateWebrtc : ClientM (Option SocketPtr) := do
  match (← get).context with
  | none => fault .null
  | some context =>
    if context.webrtc then
      unguarded Query.libwebrtcCreateConnection
      let socket ← ask Query.newInternalSocket
      modify fun s => { s with sockets := s.sockets.insert socket .new }
      pure (some socket)
    else
      unguarded Query.pause
      pure none

def derefUnopened (socket : Option SocketPtr) : ClientM SocketPtr :=
  match socket with
  | none => fault .null
  | some socket => do
    let it ← derefSocket socket
    assert (it.webrtcChannel = false) .socketChannel
    pure socket

def internalCreateOffer (socket : Option SocketPtr) : ClientM Bool := do
  let socket ← derefUnopened socket
  unguarded (Query.libwebrtcCreateOffer socket)

def internalSetOffer (socket : Option SocketPtr) (offer : Bytes) : ClientM Bool := do
  let socket ← derefUnopened socket
  unguarded (Query.libwebrtcSetOffer socket offer)

def internalSetAnswer (socket : Option SocketPtr) (offer : Bytes) : ClientM Bool := do
  let socket ← derefUnopened socket
  unguarded (Query.libwebrtcSetAnswer socket offer)

def internalAddIceCandidate (socket : SocketPtr) (candidate : Bytes) : ClientM Unit := do
  let _ ← derefSocket socket
  unguarded (Query.libwebrtcAddIceCandidate socket candidate)

def internalWriteSocket (socket : Option SocketPtr) (buf : Bytes) : ClientM Int :=
  match socket with
  | none => fault .null
  | some socket => do
    let it ← derefSocket socket
    if it.webrtcChannel then unguarded (Query.libwebrtcWrite socket buf)
    else
      -- bad/disconnected socket
      unguarded Query.pause
      pure (-1)

/-- Called under the lock. -/
def internalCreateChannel (socket : SocketPtr) (name : Bytes) : ClientM Bool := do
  let socket ← derefUnopened (some socket)
  let channel ← ask (Query.libwebrtcCreateChannel socket name)
  modifyTables fun s => s.updateSocket socket fun it => { it with webrtcChannel := channel }
  pure channel

/-! ### The signaling connection, as the senders of `humblepeer.cpp` see it -/

def sendP2PMessage (env : Externals) (msg : Message) : ClientM Bool := do
  match (← get).p2pConn with
  | none => pure false
  | some conn =>
    match conn.wsi with
    | none => pure false
    | some wsi =>
      let buff := p2pMessageFrame (env.finish msg).bytes
      let ret ← unguarded (Query.libwebsocketWrite wsi buff)
      pure (decide (ret = buff.length))

/-! ### humblenet_core.cpp -/

def blacklistPeer (peer : PeerId) : ClientM Unit := do
  let now ← ask Query.sysMilliseconds
  modify fun s => { s with peerBlacklist := StdMap.emplace peer (now + 5000) s.peerBlacklist }

/-- An expired entry is erased, and still counts this once. -/
def isPeerBlacklisted (peer : PeerId) : ClientM Bool := do
  match (← get).peerBlacklist.lookup peer with
  | none => pure false
  | some till =>
    let now ← ask Query.sysMilliseconds
    doWhen (till ≤ now) (modify fun s =>
      { s with peerBlacklist := s.peerBlacklist.erase peer })
    pure true

def canTryPeer (peer : PeerId) : ClientM Bool := do
  let s ← get
  if s.p2pConn.isNone then
    humblenetSetError "Signaling connection not established"
    pure false
  else if s.myPeerId = 0 then
    humblenetSetError "No peer ID from server"
    pure false
  else if peer ∈ s.pendingPeerConnectionsOut then
    humblenetSetError "already a pending connection to peer"
    pure false
  else if ← isPeerBlacklisted peer then
    humblenetSetError "peer blacklisted"
    pure false
  else pure true

def closeSocket (conn : ConnPtr) : ClientM Unit := do
  let c ← deref conn
  match c.socket with
  | none => pure ()
  | some socket =>
    -- clear our state first so callbacks dont work on us
    modify fun s => { s with connections := s.connections.erase socket }
    internalSetData (some socket) none
    internalCloseSocket socket
    assign conn fun c => { c with socket := none }

/-- `humblenet_connection_set_closed`; `deleted` tells its use by
`humblenet_connection_close` apart. -/
def setClosed (conn : ConnPtr) (deleted : Bool) : ClientM Unit := do
  closeSocket conn
  let c ← deref conn
  doWhen (c.inOrOut = .incoming) (blacklistPeer c.otherPeer)
  mark (.setClosed conn c.recvBuffer deleted)
  modifyTables fun s => s.updateConnection conn fun c => { c with status := .closed }
  modifyTables fun s => s.unlist conn

def humblenetConnectionSetClosed (conn : ConnPtr) : ClientM Unit := setClosed conn false

def internalAliasRemoveConnection (conn : ConnPtr) : ClientM Unit :=
  modify fun s =>
    { s with virtualPeerConnections := s.virtualPeerConnections.eraseB conn }

def humblenetConnectionClose (conn : ConnPtr) : ClientM Unit := do
  setClosed conn true
  internalAliasRemoveConnection conn
  modify fun s =>
    { s with remoteClosedConnections := StdSet.erase conn s.remoteClosedConnections }
  mark (.delete conn)
  modify fun s => { s with heap := s.heap.erase conn }

def humblenetConnectionIsWritable (conn : ConnPtr) : ClientM Bool := do
  let c ← deref conn
  if c.status = .connected then pure c.writable else pure false

def relayHint : Bytes :=
  ascii ['p', '2', 'p', '_', 'u', 's', 'e', '_', 'r', 'e', 'l', 'a', 'y']

def usesRelay (hints : StdMap Bytes Bytes) : Bool :=
  (hints.lookup relayHint).any fun value => decide (value.head? = some 0x31)

/-- The first `bufsize` bytes of `buf`. -/
def humblenetConnectionWrite (env : Externals) (conn : ConnPtr) (buf : Bytes)
    (bufsize : UInt32) : ClientM Int := do
  let c ← deref conn
  match c.status with
  | .closed =>
    assert (c.socket = none) .connectionWrite
    pure (-1)
  | .connecting =>
    assert (c.socket ≠ none) .connectionWrite
    pure 0
  | .connected =>
    assert (c.socket ≠ none) .connectionWrite
    if usesRelay (← get).hints then
      -- the parameter of `sendP2PRelayData` is a `uint16_t`
      if ← sendP2PRelayData (sendP2PMessage env) c.otherPeer buf bufsize.toUInt16 then
        pure (asInt bufsize.toNat)
      else pure (-1)
    else internalWriteSocket c.socket (buf.take bufsize.toNat)

def humblenetConnectionRead (conn : ConnPtr) (bufsize : UInt32) : ClientM (Int × Bytes) := do
  mark (.read conn)
  let c ← deref conn
  match c.status with
  | .closed =>
    assert (c.socket = none) .connectionRead
    pure (-1, [])
  | .connecting =>
    assert (c.socket ≠ none) .connectionRead
    pure (0, [])
  | .connected =>
    assert (c.socket ≠ none) .connectionRead
    if c.recvBuffer.isEmpty then pure (0, [])
    else
      let bufsize := min bufsize (UInt32.ofNat c.recvBuffer.length)
      let left := c.recvBuffer.drop bufsize.toNat
      modifyTables fun s => s.updateConnection conn fun c => { c with recvBuffer := left }
      modify fun s =>
        { s with
          pendingDataConnections :=
            if left.isEmpty then StdSet.erase conn s.pendingDataConnections
            else StdSet.insert conn s.pendingDataConnections }
      pure (asInt bufsize.toNat, c.recvBuffer.take bufsize.toNat)

/-- `new Connection`; its members are assigned before anybody else knows the address.
`peer` is the one that a message is sent to, when that is what it is for. -/
def newConnection (connection : Connection) (peer : Option PeerId) : ClientM ConnPtr := do
  let conn ← ask Query.newConnection
  mark (.new conn)
  modifyTables fun s => s.make conn connection peer
  pure conn

def humblenetConnectPeer (peer : PeerId) : ClientM (Option ConnPtr) := do
  if ← canTryPeer peer then
    let socket ← internalCreateWebrtc
    let conn ← newConnection
      { Connection.new .outgoing with otherPeer := peer, socket := socket } (some peer)
    mark (.pend .outgoing peer)
    internalSetData socket (some conn)
    modify fun s =>
      { s with
        pendingPeerConnectionsOut :=
          StdMap.emplace peer conn s.pendingPeerConnectionsOut }
    if ← internalCreateOffer socket then pure (some conn)
    else
      humblenetSetError "Unable to generate sdp offer"
      humblenetConnectionClose conn
      pure none
  else pure none

/-- `*retval` is what it was before while the connection is not open yet. -/
def humblenetConnectionReadAll (conn : ConnPtr) (retval : Int) : ClientM (Bytes × Int) := do
  let c ← deref conn
  if c.status = .connecting then pure ([], retval)
  else if c.recvBuffer.isEmpty then
    -- must not be in poll-returnable connections anymore
    assert (conn ∉ (← get).pendingDataConnections) .readAllEmpty
    if c.status = .closed then
      humblenetSetError "Connection closed"
      pure ([], -1)
    else pure ([], 0)
  else if ← ask (Query.malloc c.recvBuffer.length) then
    modifyTables fun s => s.updateConnection conn fun c => { c with recvBuffer := [] }
    assert (conn ∈ (← get).pendingDataConnections) .readAllPending
    modify fun s =>
      { s with pendingDataConnections := StdSet.erase conn s.pendingDataConnections }
    pure (c.recvBuffer, asInt c.recvBuffer.length)
  else
    humblenetSetError "Memory allocation failed"
    pure ([], -1)

def firstPendingData : ClientM (Option ConnPtr) := do
  match ← walk (← get).pendingDataConnections with
  | [] => pure none
  | conn :: _ =>
    let c ← deref conn
    assert (c.recvBuffer ≠ []) .pollAll
    pure (some conn)

/-- `internal_poll_io` delivers nothing here: the caller holds the lock. -/
def humblenetPollAll : ClientM (Option ConnPtr) := do
  -- check for connections closed by remote and notify user
  match ← walk (← get).remoteClosedConnections with
  | conn :: _ =>
    modify fun s =>
      { s with remoteClosedConnections := StdSet.erase conn s.remoteClosedConnections }
    pure (some conn)
  | [] =>
    match ← firstPendingData with
    | some conn => pure (some conn)
    | none => firstPendingData

def humblenetConnectionAccept : ClientM (Option ConnPtr) := do
  match ← walk (← get).pendingNewConnections with
  | conn :: _ =>
    modify fun s =>
      { s with pendingNewConnections := StdSet.erase conn s.pendingNewConnections }
    pure (some conn)
  | [] => pure none

/-! ### The callbacks of a WebRTC socket -/

def offerFlags : UInt8 := 0x2

def onSdp (env : Externals) (offer : Bytes) (userData : Option ConnPtr) : ClientM Int := do
  match userData with
  | none => pure (-1)
  | some conn =>
    let c ← deref conn
    assert (c.status = .connecting) .onSdp
    let sent ←
      match c.inOrOut with
      | .incoming => sendP2PResponse (sendP2PMessage env) c.otherPeer offer
      | .outgoing => sendP2PConnect (sendP2PMessage env) c.otherPeer offerFlags offer
    pure (if sent then 0 else -1)

def onIceCandidate (env : Externals) (offer : Bytes) (userData : Option ConnPtr) :
    ClientM Int := do
  match userData with
  | none => pure (-1)
  | some conn =>
    let c ← deref conn
    assert (c.status = .connecting) .onIceCandidate
    let sent ← sendICECandidate (sendP2PMessage env) c.otherPeer offer
    pure (if sent then 0 else -1)

def dataChannel : Bytes := ascii ['d', 'a', 't', 'a', 'C', 'h', 'a', 'n', 'n', 'e', 'l']

def onConnect (s : SocketPtr) (userData : Option ConnPtr) : ClientM Int := do
  match userData with
  | none => fault (.assertion .onConnect)
  | some conn =>
    -- track the connection, ALL connections will reside here
    modify fun st => { st with connections := StdMap.emplace s conn st.connections }
    let c ← deref conn
    assert (c.status = .connecting) .onConnect
    match c.inOrOut with
    | .outgoing => pure (if ← internalCreateChannel s dataChannel then 0 else -1)
    | .incoming => pure 0

def onChannel (a : Assertion) (userData : Option ConnPtr) : ClientM Int := do
  match userData with
  | none => fault (.assertion a)
  | some conn =>
    let c ← deref conn
    assert (c.status = .connecting) a
    mark (.connected conn)
    modifyTables fun s => s.updateConnection conn fun c => { c with status := .connected }
    pure 0

def onAcceptChannel : Option ConnPtr → ClientM Int := onChannel .onAcceptChannel

def onConnectChannel : Option ConnPtr → ClientM Int := onChannel .onConnectChannel

def onData (data : Bytes) (userData : Option ConnPtr) : ClientM Int := do
  match userData with
  | none => pure (-1)
  | some conn =>
    let c ← deref conn
    assert (c.status = .connected) .onData
    mark (.arrive conn data)
    doWhen (c.recvBuffer = []) do
      assert (conn ∉ (← get).pendingDataConnections) .onDataPending
      modify fun s =>
        { s with pendingDataConnections := StdSet.insert conn s.pendingDataConnections }
    modifyTables fun s => s.updateConnection conn fun c =>
      { c with recvBuffer := c.recvBuffer ++ data }
    pure 0

def onDisconnect (s : SocketPtr) (userData : Option ConnPtr) : ClientM Int := do
  match (← get).connections.lookup s with
  | some conn =>
    humblenetConnectionSetClosed conn
    pure 0
  | none =>
    match userData with
    | some conn =>
      humblenetConnectionSetClosed conn
      pure 0
    | none => pure 0

end HumbleNet.Client
