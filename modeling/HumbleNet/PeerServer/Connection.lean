import HumbleNet.PeerServer.Server

/-! `P2PSignalConnection::processMsg`, one definition for each case of its switch. `self`
is the connection the message came from. -/
namespace HumbleNet.PeerServer

open Program

variable (env : Externals) (self : ConnPtr)

def emulatedFlag : UInt8 := 0x1

def processP2POffer (msg : Option P2POffer) : ServerM Bool := do
  let p2p ← field msg
  let peer := p2p.peerId
  let this ← deref self
  if p2p.flags &&& emulatedFlag ≠ 0 then
    -- emulated connections not allowed
    sendNoSuchPeer (sendP2PMessage env self) peer
    pure true
  else
    let game ← derefGame this.game
    match game.peers.lookup peer with
    | none =>
      sendNoSuchPeer (sendP2PMessage env self) peer
      pure true
    | some otherPeer =>
      let other ← deref otherPeer
      if !other.webRTCsupport then
        sendPeerRefused (sendP2PMessage env self) peer
        pure true
      else
        modify fun s => s.updateConnection self fun c =>
          { c with connectedPeers := StdSet.insert otherPeer c.connectedPeers }
        let offer ← field p2p.offer
        sendP2PConnect (sendP2PMessage env otherPeer) this.peerId p2p.flags offer
        pure true

def processP2PAnswer (msg : Option P2PAnswer) : ServerM Bool := do
  let p2p ← field msg
  let peer := p2p.peerId
  let this ← deref self
  let game ← derefGame this.game
  match game.peers.lookup peer with
  | none =>
    sendNoSuchPeer (sendP2PMessage env self) peer
    pure true
  | some otherPeer =>
    let other ← deref otherPeer
    if other.peerId ≠ peer then fault .assertion
    else if self ∉ other.connectedPeers then
      -- there has been no offer from the peer we are supposed to respond to
      sendNoSuchPeer (sendP2PMessage env self) peer
      pure true
    else
      modify fun s => s.updateConnection self fun c =>
        { c with connectedPeers := StdSet.insert otherPeer c.connectedPeers }
      let offer ← field p2p.offer
      sendP2PResponse (sendP2PMessage env otherPeer) this.peerId offer
      pure true

def processICECandidate (msg : Option ICECandidate) : ServerM Bool := do
  let p2p ← field msg
  let peer := p2p.peerId
  let this ← deref self
  let game ← derefGame this.game
  match game.peers.lookup peer with
  | none =>
    sendNoSuchPeer (sendP2PMessage env self) peer
    pure true
  | some otherPeer =>
    let offer ← field p2p.offer
    sendICECandidate (sendP2PMessage env otherPeer) this.peerId offer
    pure true

def processP2PReject (msg : Option P2PReject) : ServerM Bool := do
  let p2p ← field msg
  let peer := p2p.peerId
  let this ← deref self
  let game ← derefGame this.game
  match game.peers.lookup peer with
  | none => pure true
  | some otherPeer =>
    if p2p.reason = rejectPeerRefused ∨ p2p.reason = rejectNotFound then
      sendPeerRefused (sendP2PMessage env otherPeer) this.peerId
      pure true
    else pure true

def noTrickleFlag : UInt8 := 0x2

def processHelloServer (msg : Option HelloServer) : ServerM Bool := do
  let this ← deref self
  if this.peerId ≠ 0 then pure true
  else
    let hello ← field msg
    if hello.flags &&& 0x01 = 0 then
      -- the client does not support WebRTC
      pure true
    else
      let found ← modifyGet (getVerifiedGame env hello)
      modify fun s => s.updateConnection self fun c => { c with game := found }
      match found with
      | none => pure false
      | some g =>
        let game ← derefGame found
        let peerId := game.generateNewPeerId.1
        modify fun s =>
          { s.updateGame g fun game => game.generateNewPeerId.2 with
            handedOut := (g, peerId) :: s.handedOut
            admitted := ⟨self, cStr hello.gameToken, g⟩ :: s.admitted }
        modify fun s => s.updateConnection self fun c => { c with peerId := peerId }
        modify fun s => s.updateGame g fun game =>
          { game with peers := StdMap.emplace peerId self game.peers }
        modify fun s => s.updateConnection self fun c =>
          { c with
            webRTCsupport := true
            trickleICE := decide (hello.flags &&& noTrickleFlag = 0) }
        let s ← get
        sendHelloClient (sendP2PMessage env self) peerId [] (populateStunServers s)
        pure true

def processP2PRelayData (msg : Option P2PRelayData) : ServerM Bool := do
  let relay ← field msg
  let peer := relay.peerId
  let data ← field relay.data
  let this ← deref self
  let game ← derefGame this.game
  match game.peers.lookup peer with
  | none =>
    sendNoSuchPeer (sendP2PMessage env self) peer
    pure true
  | some otherPeer =>
    sendP2PRelayData (sendP2PMessage env otherPeer) this.peerId data (UInt16.ofNat data.length)
    pure true

def updateAliases (game : Option GameId) (f : Game → Game) : ServerM Unit :=
  match game with
  | none => fault .nullGame
  | some g => modify fun s => s.updateGame g f

def processAliasRegister (msg : Option AliasRegister) : ServerM Bool := do
  let reg ← field msg
  let this ← deref self
  let game ← derefGame this.game
  match game.aliases.lookup (cStr reg.aliasName) with
  | some _ => pure true
  | none =>
    updateAliases this.game fun game =>
      { game with aliases := game.aliases.insert (cStr reg.aliasName) this.peerId }
    pure true

def processAliasUnregister (msg : Option AliasUnregister) : ServerM Bool := do
  let unreg ← field msg
  let this ← deref self
  let game ← derefGame this.game
  match unreg.aliasName with
  | some aliasName =>
    if game.aliases.lookup (cStr aliasName) = some this.peerId then
      updateAliases this.game fun game =>
        { game with aliases := game.aliases.erase (cStr aliasName) }
      pure true
    else pure true
  | none =>
    updateAliases this.game fun game => game.erasePeerAliases this.peerId
    pure true

def processAliasLookup (msg : Option AliasLookup) : ServerM Bool := do
  let lookup ← field msg
  let this ← deref self
  let game ← derefGame this.game
  match game.aliases.lookup (cStr lookup.aliasName) with
  | some existing =>
    sendAliasResolved (sendP2PMessage env self) (cStr lookup.aliasName) existing
    pure true
  | none =>
    sendAliasResolved (sendP2PMessage env self) (cStr lookup.aliasName) 0
    pure true

def dispatch : Message → ServerM Bool
  | .p2pOffer msg => processP2POffer env self msg
  | .p2pAnswer msg => processP2PAnswer env self msg
  | .iceCandidate msg => processICECandidate env self msg
  | .p2pReject msg => processP2PReject env self msg
  | .helloServer msg => processHelloServer env self msg
  | .p2pRelayData msg => processP2PRelayData env self msg
  | .aliasRegister msg => processAliasRegister self msg
  | .aliasUnregister msg => processAliasUnregister self msg
  | .aliasLookup msg => processAliasLookup env self msg
  | _ => pure true

/-- Nothing but a hello is taken from a peer that has not sent one yet. -/
def processMsg (msg : Message) : ServerM Bool := do
  let this ← deref self
  if this.peerId = 0 ∧ msg.messageType ≠ .HelloServer then pure false
  else dispatch env self msg

end HumbleNet.PeerServer
