import HumbleNet.PeerServer.Connection

/-! `callback_humblepeer`, and the states the server can reach through it. -/
namespace HumbleNet.PeerServer

open Program

/-- The callbacks of libwebsockets. A new connection is allocated at some address; the
receive buffer is followed in memory by something; a write accepts some bytes. -/
inductive LwsEvent where
  | established (wsi : Wsi) (conn : ConnPtr)
  | closed (wsi : Wsi)
  | receive (wsi : Wsi) (data : Bytes) (pastEnd : Bytes → Bytes)
  | writeable (wsi : Wsi) (retval : Int)

def established (wsi : Wsi) (conn : ConnPtr) : ServerM Int := do
  modify fun s =>
    -- `emplace` drops the new object when there is one under this `wsi`
    if wsi ∈ s.signalConnections then s
    else
      { s with
        signalConnections := StdMap.emplace wsi conn s.signalConnections
        connections := s.connections.insert conn (P2PSignalConnection.new wsi) }
  pure 0

def removePeer (c : P2PSignalConnection) : ServerM Unit :=
  match c.game with
  | none => fault .assertion
  | some g => do
    let game ← derefGame c.game
    if c.peerId ∈ game.peers then
      modify fun s => s.updateGame g fun game =>
        { game with peers := game.peers.erase c.peerId }
      modify fun s => s.updateGame g fun game => game.erasePeerAliases c.peerId
    else fault .assertion

def closed (wsi : Wsi) : ServerM Int := do
  match (← get).signalConnections.lookup wsi with
  | none => pure 0
  | some conn =>
    let c ← deref conn
    if c.peerId ≠ 0 then removePeer c else pure ()
    modify fun s =>
      { s with
        signalConnections := s.signalConnections.erase wsi
        connections := s.connections.erase conn }
    pure 0

def receive (env : Externals) (wsi : Wsi) (data : Bytes) (pastEnd : Bytes → Bytes) :
    ServerM Int := do
  match (← get).signalConnections.lookup wsi with
  | none => pure 0
  | some conn =>
    modify fun s => s.updateConnection conn fun c => { c with recvBuf := c.recvBuf ++ data }
    let it ← deref conn
    let retval ← parseMessage
      (fun recvBuf =>
        parseHeader env.sizeBits env.verifyMessageBuffer (pastEnd recvBuf) recvBuf)
      (do pure (← deref conn).recvBuf)
      (fun size => modify fun s => s.updateConnection conn fun c =>
        { c with recvBuf := c.recvBuf.drop size })
      (fault .overrun)
      (fun buff => processMsg env conn (env.getMessage buff))
      it.recvBuf.length
    pure (if retval then 0 else -1)

def writeable (wsi : Wsi) (retval : Int) : ServerM Int := do
  match (← get).signalConnections.lookup wsi with
  | none => pure (-1)
  | some conn =>
    let c ← deref conn
    if c.wsi ≠ wsi then pure (-1)
    else if c.sendBuf.isEmpty then pure 0
    else if retval < 0 then pure (-1)
    else if c.sendBuf.length < retval.toNat then fault .overrun
    else
      modify fun s => s.updateConnection conn fun c =>
        { c with sendBuf := c.sendBuf.drop retval.toNat }
      if c.sendBuf.length = retval.toNat then pure 0
      else
        triggerWrite c.wsi
        pure 0

def reported (wsi : Wsi) : ServerM Unit :=
  modify fun s => { s with writable := StdSet.erase wsi s.writable }

def callbackHumblepeer (env : Externals) : LwsEvent → ServerM Int
  | .established wsi conn => established wsi conn
  | .closed wsi => closed wsi
  | .receive wsi data pastEnd => receive env wsi data pastEnd
  | .writeable wsi retval => do
    reported wsi
    writeable wsi retval

theorem follows_parseMessage {σ ε : Type} {R : σ → σ → Prop} (refl : ∀ s, R s s)
    (trans : ∀ s t u, R s t → R t u → R s u) {look : Bytes → Look} {recvBuf : Program σ ε Bytes}
    {erase : Nat → Program σ ε Unit} {overrun : Program σ ε Bool}
    {processFunc : Bytes → Program σ ε Bool} (hrecv : Follows R recvBuf)
    (herase : ∀ n, Follows R (erase n)) (hover : Follows R overrun)
    (hprocess : ∀ buff, Follows R (processFunc buff)) (fuel : Nat) :
    Follows R (parseMessage look recvBuf erase overrun processFunc fuel) := by
  induction fuel with
  | zero => exact follows_pure refl true
  | succ fuel ih =>
    refine follows_bind trans hrecv fun bytes => ?_
    split
    · exact follows_pure refl true
    · exact follows_pure refl false
    · exact hover
    · refine follows_bind trans (hprocess _) fun ok => ?_
      split
      · exact follows_bind trans (herase _) fun _ => ih
      · exact follows_pure refl false

/-- libwebsockets reports a websocket as established once until it is closed, and the
allocator returns an address that holds no live object. -/
def Allowed (s : Server) : LwsEvent → Prop
  | .established wsi conn => wsi ∉ s.signalConnections ∧ conn ∉ s.connections
  | _ => True

def GameDB.Initial : GameDB → Prop
  | .anonymous lastGameId games => lastGameId = 0 ∧ games = ∅
  | .flatFile _ => True

inductive Reach (env : Externals) : Server → Prop where
  | start {gameDB : GameDB} (initial : gameDB.Initial) (stunServerAddress : Bytes) :
    Reach env (Server.new gameDB stunServerAddress)
  | callback {s s' : Server} {event : LwsEvent} {retval : Int} (reached : Reach env s)
    (allowed : Allowed s event) (returns : Returns (callbackHumblepeer env event) s retval s') :
    Reach env s'

/-- The states in which `processMsg` is called: between callbacks, or between the
messages of one arrival. -/
inductive Active (env : Externals) : Server → Prop where
  | idle {s : Server} (reached : Reach env s) : Active env s
  | arrived {s : Server} {conn : ConnPtr} {data : Bytes} (active : Active env s) :
    Active env (s.updateConnection conn fun c => { c with recvBuf := c.recvBuf ++ data })
  | processed {s t : Server} {conn : ConnPtr} {msg : Message} {size : Nat}
    (active : Active env s) (returns : Returns (processMsg env conn msg) s true t) :
    Active env (t.updateConnection conn fun c => { c with recvBuf := c.recvBuf.drop size })

end HumbleNet.PeerServer
