import HumbleNet.Framing
import HumbleNet.Hello
import HumbleNet.Lib.Program
import HumbleNet.Lib.StdMap

/-! The state of the peer server and the functions that read and write it
(`server.cpp`, `game.h`, `game_db.cpp`, the sending half of `p2p_connection.cpp`). -/
namespace HumbleNet

/-- What is linked in or generated: the message schema and the hash. -/
structure Externals where
  sizeBits : Nat
  verifyMessageBuffer : Bytes → Bool
  getMessage : Bytes → Message
  finish : Message → Body
  sha1 : Bytes → Digest

end HumbleNet

namespace HumbleNet.PeerServer

open Program

abbrev GameId := UInt32

abbrev Wsi := Nat

abbrev ConnPtr := Nat

structure GameRecord where
  gameId : GameId
  secret : Bytes
  verify : Bool
  deriving DecidableEq

inductive GameDB where
  | anonymous (lastGameId : GameId) (games : StdMap Bytes GameRecord)
  | flatFile (games : StdMap Bytes GameRecord)

def anonymousSecret : Bytes := ascii ['a', 'n', 'o', 'n', 'y', 'm', 'o', 'u', 's']

def GameDB.findByToken (token : Bytes) : GameDB → Option GameRecord × GameDB
  | .anonymous lastGameId games =>
    match games.lookup token with
    | some record => (some record, .anonymous lastGameId games)
    | none =>
      let record := ⟨lastGameId + 1, anonymousSecret, false⟩
      (some record, .anonymous (lastGameId + 1) (games.emplace token record))
  | .flatFile games => (games.lookup token, .flatFile games)

structure Game where
  gameId : GameId
  nextPeerId : PeerId
  peers : StdMap PeerId ConnPtr
  aliases : StdMap Bytes PeerId

def Game.new (gameId : GameId) : Game := ⟨gameId, 1, ∅, ∅⟩

def Game.generateNewPeerId (game : Game) : PeerId × Game :=
  (game.nextPeerId, { game with nextPeerId := game.nextPeerId + 1 })

def Game.erasePeerAliases (p : PeerId) (game : Game) : Game :=
  { game with aliases := StdMap.eraseValue p game.aliases }

structure P2PSignalConnection where
  recvBuf : Bytes
  sendBuf : Bytes
  wsi : Wsi
  peerId : PeerId
  webRTCsupport : Bool
  trickleICE : Bool
  game : Option GameId
  connectedPeers : StdSet ConnPtr
  deriving DecidableEq

def P2PSignalConnection.new (wsi : Wsi) : P2PSignalConnection where
  recvBuf := []
  sendBuf := []
  wsi := wsi
  peerId := 0
  webRTCsupport := false
  trickleICE := true
  game := none
  connectedPeers := []

structure Admission where
  conn : ConnPtr
  gameToken : Bytes
  gameId : GameId

/-- `connections` are the objects that live on the heap, by address; a `Game *` is the
id under which the server owns the game. -/
structure Server where
  signalConnections : StdMap Wsi ConnPtr
  connections : StdMap ConnPtr P2PSignalConnection
  games : StdMap GameId Game
  gameDB : GameDB
  stunServerAddress : Bytes
  -- the websockets libwebsockets was asked to report as writable
  writable : StdSet Wsi
  -- history, read by nothing: the ids `generateNewPeerId` has returned, newest first
  handedOut : List (GameId × PeerId)
  -- history as well: who was given them
  admitted : List Admission

def Server.new (gameDB : GameDB) (stunServerAddress : Bytes) : Server where
  signalConnections := ∅
  connections := ∅
  games := ∅
  gameDB := gameDB
  stunServerAddress := stunServerAddress
  writable := []
  handedOut := []
  admitted := []

/-- What stops the process: a pointer that is null or whose object is gone, a failed
assertion, or a read past the receive buffer. -/
inductive Fault where
  | absent
  | nullGame
  | dangling
  | assertion
  | overrun
  deriving DecidableEq, Repr

abbrev ServerM := Program Server Fault

def field {α : Type} : Option α → ServerM α
  | some a => pure a
  | none => fault .absent

def deref (conn : ConnPtr) : ServerM P2PSignalConnection := do
  match (← get).connections.lookup conn with
  | some c => pure c
  | none => fault .dangling

def derefGame : Option GameId → ServerM Game
  | none => fault .nullGame
  | some g => do
    match (← get).games.lookup g with
    | some game => pure game
    | none => fault .dangling

def Server.updateConnection (s : Server) (conn : ConnPtr)
    (f : P2PSignalConnection → P2PSignalConnection) : Server :=
  { s with connections := StdMap.modify conn f s.connections }

def Server.updateGame (s : Server) (g : GameId) (f : Game → Game) : Server :=
  { s with games := StdMap.modify g f s.games }

def triggerWrite (wsi : Wsi) : ServerM Unit :=
  modify fun s => { s with writable := StdSet.insert wsi s.writable }

def sendMessage (conn : ConnPtr) (buff : Bytes) : ServerM Unit := do
  let c ← deref conn
  modify fun s => s.updateConnection conn fun c => { c with sendBuf := c.sendBuf ++ buff }
  if c.sendBuf.isEmpty then triggerWrite c.wsi else pure ()

def sendP2PMessage (env : Externals) (conn : ConnPtr) (msg : Message) : ServerM Unit :=
  sendMessage conn (p2pMessageFrame (env.finish msg).bytes)

def populateStunServers (s : Server) : List ICEServer :=
  if s.stunServerAddress.isEmpty then []
  else [⟨stunServer, s.stunServerAddress, none, none⟩]

def hmacInputIfPresent (ctx : HMACContext) : Option Bytes → HMACContext
  | some token => hmacInput ctx token
  | none => ctx

def signatureMatches (sha1 : Bytes → Digest) (secret : Bytes) (hello : HelloServer) : Bool :=
  let hmac := hmacInputIfPresent (hmacInit sha1 secret) hello.authToken
  -- `reconnect` is read from `authToken` once more
  let hmac := hmacInputIfPresent hmac hello.authToken
  let hmac := hmacAttributes hmac (hello.attributes.getD [])
  decide (hmacResultToHex (hmacResult sha1 hmac) = cStr hello.gameSignature)

def getVerifiedGame (env : Externals) (hello : HelloServer) (s : Server) :
    Option GameId × Server :=
  let found := s.gameDB.findByToken (cStr hello.gameToken)
  let s := { s with gameDB := found.2 }
  match found.1 with
  | none => (none, s)
  | some record =>
    if record.verify && !signatureMatches env.sha1 record.secret hello then (none, s)
    else
      match s.games.lookup record.gameId with
      | some _ => (some record.gameId, s)
      | none =>
        let games := StdMap.emplace record.gameId (Game.new record.gameId) s.games
        (some record.gameId, { s with games := games })

end HumbleNet.PeerServer
