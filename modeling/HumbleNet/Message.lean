import HumbleNet.Bytes

/-! The signaling messages (`humblepeer.fbs`) as a reader sees them after verification.
A field marked `required` is there by its type. Every other string, vector or table,
and the body of the union itself, may be absent. -/
namespace HumbleNet

abbrev PeerId := UInt32

structure Attribute where
  key : Bytes
  value : Bytes
  deriving DecidableEq, Repr

def stunServer : UInt8 := 1
def turnServer : UInt8 := 2

structure ICEServer where
  type : UInt8
  server : Bytes
  username : Option Bytes
  password : Option Bytes
  deriving DecidableEq, Repr

structure HelloServer where
  version : UInt32
  flags : UInt8
  gameToken : Bytes
  gameSignature : Bytes
  authToken : Option Bytes
  reconnectToken : Option Bytes
  attributes : Option (List Attribute)
  deriving DecidableEq, Repr

structure HelloClient where
  peerId : PeerId
  reconnectToken : Option Bytes
  iceServers : Option (List ICEServer)
  deriving DecidableEq, Repr

structure P2POffer where
  peerId : PeerId
  flags : UInt8
  offer : Option Bytes
  deriving DecidableEq, Repr

structure P2PAnswer where
  peerId : PeerId
  offer : Option Bytes
  deriving DecidableEq, Repr

structure P2PConnected where
  peerId : PeerId
  deriving DecidableEq, Repr

structure P2PDisconnect where
  peerId : PeerId
  deriving DecidableEq, Repr

/-- `P2PRejectReason` is an open `ubyte` on the wire. -/
def rejectNotFound : UInt8 := 1
def rejectPeerRefused : UInt8 := 2

structure P2PReject where
  peerId : PeerId
  reason : UInt8
  deriving DecidableEq, Repr

structure ICECandidate where
  peerId : PeerId
  offer : Option Bytes
  deriving DecidableEq, Repr

structure P2PRelayData where
  peerId : PeerId
  data : Option Bytes
  deriving DecidableEq, Repr

structure AliasRegister where
  aliasName : Bytes
  deriving DecidableEq, Repr

structure AliasUnregister where
  aliasName : Option Bytes
  deriving DecidableEq, Repr

structure AliasLookup where
  aliasName : Bytes
  deriving DecidableEq, Repr

structure AliasResolved where
  aliasName : Bytes
  peerId : PeerId
  deriving DecidableEq, Repr

/-- The members of the union; the last stands for a tag the schema does not name. -/
inductive MessageType where
  | NONE | HelloServer | HelloClient
  | P2PConnected | P2PDisconnect | P2POffer | P2PAnswer | P2PReject | ICECandidate | P2PRelayData
  | AliasRegister | AliasUnregister | AliasLookup | AliasResolved | unnamed
  deriving DecidableEq, Repr

def MessageType.forwarded : MessageType → Bool
  | .P2POffer | .P2PAnswer | .ICECandidate | .P2PRelayData | .P2PReject => true
  | _ => false

inductive Message where
  | none
  | helloServer (body : Option HelloServer)
  | helloClient (body : Option HelloClient)
  | p2pConnected (body : Option P2PConnected)
  | p2pDisconnect (body : Option P2PDisconnect)
  | p2pOffer (body : Option P2POffer)
  | p2pAnswer (body : Option P2PAnswer)
  | p2pReject (body : Option P2PReject)
  | iceCandidate (body : Option ICECandidate)
  | p2pRelayData (body : Option P2PRelayData)
  | aliasRegister (body : Option AliasRegister)
  | aliasUnregister (body : Option AliasUnregister)
  | aliasLookup (body : Option AliasLookup)
  | aliasResolved (body : Option AliasResolved)
  | unnamed
  deriving DecidableEq, Repr

def Message.messageType : Message → MessageType
  | .none => .NONE
  | .helloServer _ => .HelloServer
  | .helloClient _ => .HelloClient
  | .p2pConnected _ => .P2PConnected
  | .p2pDisconnect _ => .P2PDisconnect
  | .p2pOffer _ => .P2POffer
  | .p2pAnswer _ => .P2PAnswer
  | .p2pReject _ => .P2PReject
  | .iceCandidate _ => .ICECandidate
  | .p2pRelayData _ => .P2PRelayData
  | .aliasRegister _ => .AliasRegister
  | .aliasUnregister _ => .AliasUnregister
  | .aliasLookup _ => .AliasLookup
  | .aliasResolved _ => .AliasResolved
  | .unnamed => .unnamed

/-- The body is there, with every string and vector that a reader looks at. -/
def Message.filled : Message → Bool
  | .none => true
  | .helloServer body => body.isSome
  | .helloClient body => body.isSome
  | .p2pConnected body => body.isSome
  | .p2pDisconnect body => body.isSome
  | .p2pOffer body => body.any (·.offer.isSome)
  | .p2pAnswer body => body.any (·.offer.isSome)
  | .p2pReject body => body.isSome
  | .iceCandidate body => body.any (·.offer.isSome)
  | .p2pRelayData body => body.any (·.data.isSome)
  | .aliasRegister body => body.isSome
  | .aliasUnregister body => body.isSome
  | .aliasLookup body => body.isSome
  | .aliasResolved body => body.isSome
  | .unnamed => true

def Message.peerId : Message → Option PeerId
  | .p2pOffer body => body.map (·.peerId)
  | .p2pAnswer body => body.map (·.peerId)
  | .p2pReject body => body.map (·.peerId)
  | .iceCandidate body => body.map (·.peerId)
  | .p2pRelayData body => body.map (·.peerId)
  | _ => Option.none

/-! The senders both programs share. Each builds one message and passes it to the
`sendP2PMessage` of the program it is linked into; a `const char *` argument ends at
its first NUL. -/
section senders

variable {γ : Type} (sendP2PMessage : Message → γ)

def stringIfNotEmpty (str : Bytes) : Option Bytes := if str.isEmpty then none else some str

def sendHelloClient (peerId : PeerId) (reconnectToken : Bytes) (iceServers : List ICEServer) : γ :=
  sendP2PMessage (.helloClient (some
    { peerId := peerId
      reconnectToken := stringIfNotEmpty reconnectToken
      iceServers := if iceServers.isEmpty then none else some iceServers }))

def sendNoSuchPeer (peerId : PeerId) : γ :=
  sendP2PMessage (.p2pReject (some ⟨peerId, rejectNotFound⟩))

def sendPeerRefused (peerId : PeerId) : γ :=
  sendP2PMessage (.p2pReject (some ⟨peerId, rejectPeerRefused⟩))

def sendP2PConnect (peerId : PeerId) (flags : UInt8) (offer : Bytes) : γ :=
  sendP2PMessage (.p2pOffer (some ⟨peerId, flags, some (cStr offer)⟩))

def sendP2PResponse (peerId : PeerId) (offer : Bytes) : γ :=
  sendP2PMessage (.p2pAnswer (some ⟨peerId, some (cStr offer)⟩))

def sendICECandidate (peerId : PeerId) (offer : Bytes) : γ :=
  sendP2PMessage (.iceCandidate (some ⟨peerId, some (cStr offer)⟩))

/-- The length is a `uint16_t`: only that many bytes of the data are copied. -/
def sendP2PRelayData (peerId : PeerId) (data : Bytes) (length : UInt16) : γ :=
  sendP2PMessage (.p2pRelayData (some ⟨peerId, some (data.take length.toNat)⟩))

def sendAliasRegister (aliasName : Bytes) : γ := sendP2PMessage (.aliasRegister (some ⟨aliasName⟩))

def sendAliasUnregister (aliasName : Bytes) : γ :=
  sendP2PMessage (.aliasUnregister (some ⟨stringIfNotEmpty aliasName⟩))

def sendAliasLookup (aliasName : Bytes) : γ := sendP2PMessage (.aliasLookup (some ⟨aliasName⟩))

def sendAliasResolved (aliasName : Bytes) (peer : PeerId) : γ :=
  sendP2PMessage (.aliasResolved (some ⟨aliasName, peer⟩))

end senders

end HumbleNet
