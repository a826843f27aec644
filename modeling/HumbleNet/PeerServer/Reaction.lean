import HumbleNet.PeerServer.Callback

/-! What one message can make the server do. `Reacts` has a rule for each way through
`processMsg` that returns; the effect it names is one change of the state. -/
namespace HumbleNet.PeerServer

open Program

/-! ### The primitives -/

section primitives

variable {s t : Server}

@[simp] theorem returns_field {α : Type} {o : Option α} {a : α} :
    Returns (field o) s a t ↔ o = some a ∧ t = s := by
  cases o with
  | none => simp [field]
  | some b =>
    simp only [field, returns_pure, Option.some.injEq]
    constructor
    · rintro ⟨rfl, rfl⟩
      exact ⟨rfl, rfl⟩
    · rintro ⟨rfl, rfl⟩
      exact ⟨rfl, rfl⟩

@[simp] theorem returns_deref {conn : ConnPtr} {c : P2PSignalConnection} :
    Returns (deref conn) s c t ↔ s.connections.lookup conn = some c ∧ t = s := by
  simp only [deref, returns_bind, returns_get]
  constructor
  · rintro ⟨a, u, ⟨ha, hu⟩, h⟩
    rw [ha, hu] at h
    cases hc : AList.lookup conn s.connections with
    | none => simp [hc] at h
    | some d =>
      simp only [hc, returns_pure] at h
      obtain ⟨rfl, rfl⟩ := h
      exact ⟨rfl, rfl⟩
  · rintro ⟨hc, rfl⟩
    exact ⟨t, t, ⟨rfl, rfl⟩, by simp [hc]⟩

def GameOf (s : Server) (c : P2PSignalConnection) (game : Game) : Prop :=
  ∃ g, c.game = some g ∧ s.games.lookup g = some game

theorem returns_derefGame {g : Option GameId} {game : Game} :
    Returns (derefGame g) s game t ↔
      (∃ k, g = some k ∧ s.games.lookup k = some game) ∧ t = s := by
  cases g with
  | none => simp [derefGame]
  | some k =>
    simp only [derefGame, returns_bind, returns_get, Option.some.injEq, exists_eq_left']
    constructor
    · rintro ⟨a, u, ⟨ha, hu⟩, h⟩
      rw [ha, hu] at h
      cases hc : AList.lookup k s.games with
      | none => simp [hc] at h
      | some d =>
        simp only [hc, returns_pure] at h
        obtain ⟨rfl, rfl⟩ := h
        exact ⟨rfl, rfl⟩
    · rintro ⟨hc, rfl⟩
      exact ⟨t, t, ⟨rfl, rfl⟩, by simp [hc]⟩

@[simp] theorem returns_derefGame_of {c : P2PSignalConnection} {game : Game} :
    Returns (derefGame c.game) s game t ↔ GameOf s c game ∧ t = s :=
  returns_derefGame

section binds

variable {α : Type} {b : α} {f : P2PSignalConnection → ServerM α}

theorem returns_field_bind {β : Type} {o : Option β} {f : β → ServerM α} :
    Returns (field o >>= f) s b t ↔ ∃ a, o = some a ∧ Returns (f a) s b t := by
  simp only [returns_bind, returns_field]
  constructor
  · rintro ⟨a, u, ⟨ha, rfl⟩, h⟩
    exact ⟨a, ha, h⟩
  · rintro ⟨a, ha, h⟩
    exact ⟨a, s, ⟨ha, rfl⟩, h⟩

theorem returns_deref_bind {conn : ConnPtr} : Returns (deref conn >>= f) s b t ↔
    ∃ c, s.connections.lookup conn = some c ∧ Returns (f c) s b t := by
  simp only [returns_bind, returns_deref]
  constructor
  · rintro ⟨a, u, ⟨ha, rfl⟩, h⟩
    exact ⟨a, ha, h⟩
  · rintro ⟨a, ha, h⟩
    exact ⟨a, s, ⟨ha, rfl⟩, h⟩

theorem returns_this_bind {self : ConnPtr} {this : P2PSignalConnection}
    (here : s.connections.lookup self = some this) :
    Returns (deref self >>= f) s b t ↔ Returns (f this) s b t := by
  rw [returns_deref_bind, here]
  simp only [Option.some.injEq, exists_eq_left']

theorem returns_game_bind {c : P2PSignalConnection} {f : Game → ServerM α} :
    Returns (derefGame c.game >>= f) s b t ↔ ∃ game, GameOf s c game ∧ Returns (f game) s b t := by
  simp only [returns_bind, returns_derefGame_of]
  constructor
  · rintro ⟨a, u, ⟨ha, rfl⟩, h⟩
    exact ⟨a, ha, h⟩
  · rintro ⟨a, ha, h⟩
    exact ⟨a, s, ⟨ha, rfl⟩, h⟩

end binds

def Server.queue (env : Externals) (dest : ConnPtr) (msg : Message) (s : Server) : Server :=
  let sent := s.updateConnection dest fun c =>
    { c with sendBuf := c.sendBuf ++ p2pMessageFrame (env.finish msg).bytes }
  match s.connections.lookup dest with
  | some c =>
    if c.sendBuf.isEmpty then { sent with writable := StdSet.insert c.wsi s.writable } else sent
  | none => s

section queue

variable (env : Externals) (dest : ConnPtr) (msg : Message) (s : Server)

theorem queue_connections : (s.queue env dest msg).connections =
    StdMap.modify dest (fun c =>
      { c with sendBuf := c.sendBuf ++ p2pMessageFrame (env.finish msg).bytes }) s.connections := by
  unfold Server.queue
  cases live : s.connections.lookup dest with
  | none => simp only [StdMap.modify, live]
  | some c =>
    dsimp only
    split
    · rfl
    · rfl

theorem queue_frame : (s.queue env dest msg).games = s.games ∧
    (s.queue env dest msg).signalConnections = s.signalConnections ∧
    (s.queue env dest msg).gameDB = s.gameDB ∧
    (s.queue env dest msg).stunServerAddress = s.stunServerAddress ∧
    (s.queue env dest msg).handedOut = s.handedOut ∧
    (s.queue env dest msg).admitted = s.admitted := by
  unfold Server.queue
  dsimp only
  split
  · split
    · exact ⟨rfl, rfl, rfl, rfl, rfl, rfl⟩
    · exact ⟨rfl, rfl, rfl, rfl, rfl, rfl⟩
  · exact ⟨rfl, rfl, rfl, rfl, rfl, rfl⟩

end queue

@[simp] theorem returns_sendP2PMessage {env : Externals} {dest : ConnPtr} {msg : Message}
    {u : Unit} : Returns (sendP2PMessage env dest msg) s u t ↔
      (∃ c, s.connections.lookup dest = some c) ∧ t = s.queue env dest msg := by
  simp only [sendP2PMessage, sendMessage, returns_bind, returns_deref, returns_modify]
  constructor
  · rintro ⟨c, _, ⟨hc, rfl⟩, _, _, rfl, h⟩
    refine ⟨⟨c, hc⟩, ?_⟩
    cases he : c.sendBuf.isEmpty with
    | true =>
      simp only [he, if_true, triggerWrite, returns_modify] at h
      simp only [h, Server.queue, hc, he, if_true]
      rfl
    | false =>
      simp only [he, Bool.false_eq_true, if_false, returns_pure] at h
      simp only [h, Server.queue, hc, he, Bool.false_eq_true, if_false]
  · rintro ⟨⟨c, hc⟩, rfl⟩
    refine ⟨c, s, ⟨hc, rfl⟩, (), _, rfl, ?_⟩
    cases he : c.sendBuf.isEmpty with
    | true =>
      simp only [if_true, triggerWrite, returns_modify, Server.queue, hc, he]
      rfl
    | false =>
      simp only [Bool.false_eq_true, if_false, returns_pure, Server.queue, hc, he, and_true]

end primitives

theorem returns_send {s t : Server} {env : Externals} {dest : ConnPtr} {msg : Message}
    {a b : Bool} : Returns (sendP2PMessage env dest msg >>= fun _ => pure a) s b t ↔
      b = a ∧ (∃ c, s.connections.lookup dest = some c) ∧ t = s.queue env dest msg := by
  simp only [returns_bind, returns_sendP2PMessage, returns_pure]
  constructor
  · rintro ⟨u, v, ⟨live, rfl⟩, rfl, rfl⟩
    exact ⟨rfl, live, rfl⟩
  · rintro ⟨rfl, live, rfl⟩
    exact ⟨(), _, ⟨live, rfl⟩, rfl, rfl⟩

/-! ### The rules -/

/-- One change of the state, made for the sender of a message. -/
inductive Effect where
  | idle
  | send (dest : ConnPtr) (msg : Message)
  | connect (dest : ConnPtr) (msg : Message)
  | register (aliasName : Bytes)
  | unregister (aliasName : Bytes)
  | unregisterAll
  | refuse (hello : HelloServer)
  | accept (hello : HelloServer) (g : GameId)

def Server.updateGameOf (s : Server) (this : P2PSignalConnection) (f : Game → Game) : Server :=
  match this.game with
  | some g => s.updateGame g f
  | none => s

def Server.enroll (s : Server) (self : ConnPtr) (hello : HelloServer) (g : GameId)
    (peerId : PeerId) : Server :=
  { (s.updateGame g fun game =>
      { game.generateNewPeerId.2 with
        peers := StdMap.emplace peerId self game.peers }).updateConnection self fun c =>
      { c with
        game := some g
        peerId := peerId
        webRTCsupport := true
        trickleICE := decide (hello.flags &&& noTrickleFlag = 0) } with
    handedOut := (g, peerId) :: s.handedOut
    admitted := ⟨self, cStr hello.gameToken, g⟩ :: s.admitted }

def Effect.apply (env : Externals) (self : ConnPtr) (this : P2PSignalConnection) (s : Server) :
    Effect → Server
  | .idle => s
  | .send dest msg => s.queue env dest msg
  | .connect dest msg =>
    (s.updateConnection self fun c =>
      { c with connectedPeers := StdSet.insert dest c.connectedPeers }).queue env dest msg
  | .register aliasName =>
    s.updateGameOf this fun game =>
      { game with aliases := game.aliases.insert aliasName this.peerId }
  | .unregister aliasName =>
    s.updateGameOf this fun game => { game with aliases := game.aliases.erase aliasName }
  | .unregisterAll => s.updateGameOf this fun game => game.erasePeerAliases this.peerId
  | .refuse hello =>
    (getVerifiedGame env hello s).2.updateConnection self fun c => { c with game := none }
  | .accept hello g =>
    let found := (getVerifiedGame env hello s).2
    let peerId := ((found.games.lookup g).map Game.nextPeerId).getD 0
    (found.enroll self hello g peerId).queue env self
      (sendHelloClient id peerId [] (populateStunServers found))

/-- `Reacts env s self this msg b e`: with `this` the sender, `dispatch` returns `b` after
the change `e`. -/
inductive Reacts (env : Externals) (s : Server) (self : ConnPtr) (this : P2PSignalConnection) :
    Message → Bool → Effect → Prop where
  | offerEmulated {p : P2POffer} (emulated : p.flags &&& emulatedFlag ≠ 0) :
    Reacts env s self this (.p2pOffer (some p)) true (.send self (sendNoSuchPeer id p.peerId))
  | offerMissing {p : P2POffer} {game : Game} (direct : p.flags &&& emulatedFlag = 0)
    (gameOf : GameOf s this game) (missing : game.peers.lookup p.peerId = none) :
    Reacts env s self this (.p2pOffer (some p)) true (.send self (sendNoSuchPeer id p.peerId))
  | offerRefused {p : P2POffer} {game : Game} {otherPeer : ConnPtr} {other : P2PSignalConnection}
    (direct : p.flags &&& emulatedFlag = 0) (gameOf : GameOf s this game)
    (found : game.peers.lookup p.peerId = some otherPeer)
    (live : s.connections.lookup otherPeer = some other) (without : other.webRTCsupport = false) :
    Reacts env s self this (.p2pOffer (some p)) true (.send self (sendPeerRefused id p.peerId))
  | offerForwarded {p : P2POffer} {game : Game} {otherPeer : ConnPtr}
    {other : P2PSignalConnection} {offer : Bytes}
    (direct : p.flags &&& emulatedFlag = 0) (gameOf : GameOf s this game)
    (found : game.peers.lookup p.peerId = some otherPeer)
    (live : s.connections.lookup otherPeer = some other) (able : other.webRTCsupport = true)
    (present : p.offer = some offer) :
    Reacts env s self this (.p2pOffer (some p)) true
      (.connect otherPeer (sendP2PConnect id this.peerId p.flags offer))
  | answerMissing {p : P2PAnswer} {game : Game} (gameOf : GameOf s this game)
    (missing : game.peers.lookup p.peerId = none) :
    Reacts env s self this (.p2pAnswer (some p)) true (.send self (sendNoSuchPeer id p.peerId))
  | answerUnasked {p : P2PAnswer} {game : Game} {otherPeer : ConnPtr}
    {other : P2PSignalConnection} (gameOf : GameOf s this game)
    (found : game.peers.lookup p.peerId = some otherPeer)
    (live : s.connections.lookup otherPeer = some other) (right : other.peerId = p.peerId)
    (unasked : self ∉ other.connectedPeers) :
    Reacts env s self this (.p2pAnswer (some p)) true (.send self (sendNoSuchPeer id p.peerId))
  | answerForwarded {p : P2PAnswer} {game : Game} {otherPeer : ConnPtr}
    {other : P2PSignalConnection} {offer : Bytes} (gameOf : GameOf s this game)
    (found : game.peers.lookup p.peerId = some otherPeer)
    (live : s.connections.lookup otherPeer = some other) (right : other.peerId = p.peerId)
    (asked : self ∈ other.connectedPeers) (present : p.offer = some offer) :
    Reacts env s self this (.p2pAnswer (some p)) true
      (.connect otherPeer (sendP2PResponse id this.peerId offer))
  | candidateMissing {p : ICECandidate} {game : Game} (gameOf : GameOf s this game)
    (missing : game.peers.lookup p.peerId = none) :
    Reacts env s self this (.iceCandidate (some p)) true (.send self (sendNoSuchPeer id p.peerId))
  | candidateForwarded {p : ICECandidate} {game : Game} {otherPeer : ConnPtr}
    {other : P2PSignalConnection} {offer : Bytes} (gameOf : GameOf s this game)
    (found : game.peers.lookup p.peerId = some otherPeer)
    (live : s.connections.lookup otherPeer = some other) (present : p.offer = some offer) :
    Reacts env s self this (.iceCandidate (some p)) true
      (.send otherPeer (sendICECandidate id this.peerId offer))
  | rejectMissing {p : P2PReject} {game : Game} (gameOf : GameOf s this game)
    (missing : game.peers.lookup p.peerId = none) :
    Reacts env s self this (.p2pReject (some p)) true .idle
  | rejectForwarded {p : P2PReject} {game : Game} {otherPeer : ConnPtr}
    {other : P2PSignalConnection} (gameOf : GameOf s this game)
    (found : game.peers.lookup p.peerId = some otherPeer)
    (live : s.connections.lookup otherPeer = some other)
    (reason : p.reason = rejectPeerRefused ∨ p.reason = rejectNotFound) :
    Reacts env s self this (.p2pReject (some p)) true
      (.send otherPeer (sendPeerRefused id this.peerId))
  | rejectUnknown {p : P2PReject} {game : Game} {otherPeer : ConnPtr} (gameOf : GameOf s this game)
    (found : game.peers.lookup p.peerId = some otherPeer)
    (reason : ¬ (p.reason = rejectPeerRefused ∨ p.reason = rejectNotFound)) :
    Reacts env s self this (.p2pReject (some p)) true .idle
  | helloAgain {msg : Option HelloServer} (seated : this.peerId ≠ 0) :
    Reacts env s self this (.helloServer msg) true .idle
  | helloWithoutWebRTC {hello : HelloServer} (unseated : this.peerId = 0)
    (without : hello.flags &&& 0x01 = 0) :
    Reacts env s self this (.helloServer (some hello)) true .idle
  | helloRefused {hello : HelloServer} (unseated : this.peerId = 0)
    (able : hello.flags &&& 0x01 ≠ 0) (game : (getVerifiedGame env hello s).1 = none) :
    Reacts env s self this (.helloServer (some hello)) false (.refuse hello)
  | helloAdmitted {hello : HelloServer} {g : GameId} (unseated : this.peerId = 0)
    (able : hello.flags &&& 0x01 ≠ 0) (game : (getVerifiedGame env hello s).1 = some g) :
    Reacts env s self this (.helloServer (some hello)) true (.accept hello g)
  | relayMissing {p : P2PRelayData} {game : Game} {data : Bytes} (present : p.data = some data)
    (gameOf : GameOf s this game) (missing : game.peers.lookup p.peerId = none) :
    Reacts env s self this (.p2pRelayData (some p)) true (.send self (sendNoSuchPeer id p.peerId))
  | relayForwarded {p : P2PRelayData} {game : Game} {data : Bytes} {otherPeer : ConnPtr}
    {other : P2PSignalConnection} (present : p.data = some data) (gameOf : GameOf s this game)
    (found : game.peers.lookup p.peerId = some otherPeer)
    (live : s.connections.lookup otherPeer = some other) :
    Reacts env s self this (.p2pRelayData (some p)) true
      (.send otherPeer (sendP2PRelayData id this.peerId data (UInt16.ofNat data.length)))
  | registerTaken {p : AliasRegister} {game : Game} {peer : PeerId} (gameOf : GameOf s this game)
    (taken : game.aliases.lookup (cStr p.aliasName) = some peer) :
    Reacts env s self this (.aliasRegister (some p)) true .idle
  | registered {p : AliasRegister} {game : Game} (gameOf : GameOf s this game)
    (free : game.aliases.lookup (cStr p.aliasName) = none) :
    Reacts env s self this (.aliasRegister (some p)) true (.register (cStr p.aliasName))
  | unregistered {p : AliasUnregister} {game : Game} {aliasName : Bytes}
    (gameOf : GameOf s this game) (one : p.aliasName = some aliasName)
    (own : game.aliases.lookup (cStr aliasName) = some this.peerId) :
    Reacts env s self this (.aliasUnregister (some p)) true (.unregister (cStr aliasName))
  | unregisterRejected {p : AliasUnregister} {game : Game} {aliasName : Bytes}
    (gameOf : GameOf s this game) (one : p.aliasName = some aliasName)
    (other : game.aliases.lookup (cStr aliasName) ≠ some this.peerId) :
    Reacts env s self this (.aliasUnregister (some p)) true .idle
  | unregisteredAll {p : AliasUnregister} {game : Game} (gameOf : GameOf s this game)
    (all : p.aliasName = none) :
    Reacts env s self this (.aliasUnregister (some p)) true .unregisterAll
  | lookedUp {p : AliasLookup} {game : Game} (gameOf : GameOf s this game) :
    Reacts env s self this (.aliasLookup (some p)) true
      (.send self (sendAliasResolved id (cStr p.aliasName)
        ((game.aliases.lookup (cStr p.aliasName)).getD 0)))
  | ignored {msg : Message}
    (kind : msg.messageType = .NONE ∨ msg.messageType = .HelloClient ∨
      msg.messageType = .P2PConnected ∨ msg.messageType = .P2PDisconnect ∨
      msg.messageType = .AliasResolved ∨ msg.messageType = .unnamed) :
    Reacts env s self this msg true .idle

/-! ### The rules describe the code -/

section rules

variable {env : Externals} {s t : Server} {self : ConnPtr} {this : P2PSignalConnection} {b : Bool}

theorem processP2POffer_reacts (here : s.connections.lookup self = some this)
    {msg : Option P2POffer} (h : Returns (processP2POffer env self msg) s b t) :
    ∃ e, Reacts env s self this (.p2pOffer msg) b e ∧ t = e.apply env self this s := by
  simp only [processP2POffer, returns_field_bind, returns_this_bind here] at h
  obtain ⟨p, rfl, h⟩ := h
  split at h
  · rename_i emulated
    obtain ⟨rfl, -, rfl⟩ := returns_send.mp h
    exact ⟨_, .offerEmulated emulated, rfl⟩
  · rename_i direct
    have direct := not_not.mp direct
    obtain ⟨game, gameOf, h⟩ := returns_game_bind.mp h
    cases found : AList.lookup p.peerId game.peers with
    | none =>
      simp only [found] at h
      obtain ⟨rfl, -, rfl⟩ := returns_send.mp h
      exact ⟨_, .offerMissing direct gameOf found, rfl⟩
    | some otherPeer =>
      simp only [found, returns_deref_bind] at h
      obtain ⟨other, live, h⟩ := h
      cases able : other.webRTCsupport with
      | false =>
        simp only [able, Bool.not_false, if_true] at h
        obtain ⟨rfl, -, rfl⟩ := returns_send.mp h
        exact ⟨_, .offerRefused direct gameOf found live able, rfl⟩
      | true =>
        simp only [able, Bool.not_true, Bool.false_eq_true, if_false, returns_bind,
          returns_modify, returns_field, returns_pure, sendP2PConnect,
          returns_sendP2PMessage] at h
        obtain ⟨u, s3, rfl, offer, s4, ⟨present, rfl⟩, u', s5, ⟨-, rfl⟩, rfl, rfl⟩ := h
        exact ⟨_, .offerForwarded direct gameOf found live able present, rfl⟩

theorem processP2PAnswer_reacts (here : s.connections.lookup self = some this)
    {msg : Option P2PAnswer} (h : Returns (processP2PAnswer env self msg) s b t) :
    ∃ e, Reacts env s self this (.p2pAnswer msg) b e ∧ t = e.apply env self this s := by
  simp only [processP2PAnswer, returns_field_bind, returns_this_bind here,
    returns_game_bind] at h
  obtain ⟨p, rfl, game, gameOf, h⟩ := h
  cases found : AList.lookup p.peerId game.peers with
  | none =>
    simp only [found] at h
    obtain ⟨rfl, -, rfl⟩ := returns_send.mp h
    exact ⟨_, .answerMissing gameOf found, rfl⟩
  | some otherPeer =>
    simp only [found, returns_deref_bind] at h
    obtain ⟨other, live, h⟩ := h
    split at h
    · exact absurd h returns_fault
    · rename_i right
      have right := not_not.mp right
      split at h
      · rename_i unasked
        obtain ⟨rfl, -, rfl⟩ := returns_send.mp h
        exact ⟨_, .answerUnasked gameOf found live right unasked, rfl⟩
      · rename_i asked
        simp only [returns_bind, returns_modify, returns_field, returns_pure, sendP2PResponse,
          returns_sendP2PMessage] at h
        obtain ⟨u, s3, rfl, offer, s4, ⟨present, rfl⟩, u', s5, ⟨-, rfl⟩, rfl, rfl⟩ := h
        exact ⟨_, .answerForwarded gameOf found live right (not_not.mp asked) present, rfl⟩

theorem processICECandidate_reacts (here : s.connections.lookup self = some this)
    {msg : Option ICECandidate} (h : Returns (processICECandidate env self msg) s b t) :
    ∃ e, Reacts env s self this (.iceCandidate msg) b e ∧ t = e.apply env self this s := by
  simp only [processICECandidate, returns_field_bind, returns_this_bind here,
    returns_game_bind] at h
  obtain ⟨p, rfl, game, gameOf, h⟩ := h
  cases found : AList.lookup p.peerId game.peers with
  | none =>
    simp only [found] at h
    obtain ⟨rfl, -, rfl⟩ := returns_send.mp h
    exact ⟨_, .candidateMissing gameOf found, rfl⟩
  | some otherPeer =>
    simp only [found, returns_field_bind] at h
    obtain ⟨offer, present, h⟩ := h
    obtain ⟨rfl, ⟨other, live⟩, rfl⟩ := returns_send.mp h
    exact ⟨_, .candidateForwarded gameOf found live present, rfl⟩

theorem processP2PReject_reacts (here : s.connections.lookup self = some this)
    {msg : Option P2PReject} (h : Returns (processP2PReject env self msg) s b t) :
    ∃ e, Reacts env s self this (.p2pReject msg) b e ∧ t = e.apply env self this s := by
  simp only [processP2PReject, returns_field_bind, returns_this_bind here,
    returns_game_bind] at h
  obtain ⟨p, rfl, game, gameOf, h⟩ := h
  cases found : AList.lookup p.peerId game.peers with
  | none =>
    simp only [found] at h
    obtain ⟨rfl, rfl⟩ := returns_pure.mp h
    exact ⟨_, .rejectMissing gameOf found, rfl⟩
  | some otherPeer =>
    simp only [found] at h
    split at h
    · rename_i reason
      obtain ⟨rfl, ⟨other, live⟩, rfl⟩ := returns_send.mp h
      exact ⟨_, .rejectForwarded gameOf found live reason, rfl⟩
    · rename_i reason
      obtain ⟨rfl, rfl⟩ := returns_pure.mp h
      exact ⟨_, .rejectUnknown gameOf found reason, rfl⟩

theorem processP2PRelayData_reacts (here : s.connections.lookup self = some this)
    {msg : Option P2PRelayData} (h : Returns (processP2PRelayData env self msg) s b t) :
    ∃ e, Reacts env s self this (.p2pRelayData msg) b e ∧ t = e.apply env self this s := by
  simp only [processP2PRelayData, returns_field_bind, returns_this_bind here,
    returns_game_bind] at h
  obtain ⟨p, rfl, data, present, game, gameOf, h⟩ := h
  cases found : AList.lookup p.peerId game.peers with
  | none =>
    simp only [found] at h
    obtain ⟨rfl, -, rfl⟩ := returns_send.mp h
    exact ⟨_, .relayMissing present gameOf found, rfl⟩
  | some otherPeer =>
    simp only [found] at h
    obtain ⟨rfl, ⟨other, live⟩, rfl⟩ := returns_send.mp h
    exact ⟨_, .relayForwarded present gameOf found live, rfl⟩

theorem returns_updateAliases {game : Game} (gameOf : GameOf s this game) {f : Game → Game}
    {a : Bool} : Returns (updateAliases this.game f >>= fun _ => pure a) s b t ↔
      b = a ∧ t = s.updateGameOf this f := by
  obtain ⟨g, hg, _⟩ := gameOf
  simp only [updateAliases, hg, returns_bind, returns_modify, returns_pure, Server.updateGameOf]
  constructor
  · rintro ⟨u, v, rfl, rfl, rfl⟩
    exact ⟨rfl, rfl⟩
  · rintro ⟨rfl, rfl⟩
    exact ⟨(), _, rfl, rfl, rfl⟩

theorem processAliasRegister_reacts (here : s.connections.lookup self = some this)
    {msg : Option AliasRegister} (h : Returns (processAliasRegister self msg) s b t) :
    ∃ e, Reacts env s self this (.aliasRegister msg) b e ∧ t = e.apply env self this s := by
  simp only [processAliasRegister, returns_field_bind, returns_this_bind here,
    returns_game_bind] at h
  obtain ⟨p, rfl, game, gameOf, h⟩ := h
  cases found : AList.lookup (cStr p.aliasName) game.aliases with
  | some peer =>
    simp only [found] at h
    obtain ⟨rfl, rfl⟩ := returns_pure.mp h
    exact ⟨_, .registerTaken gameOf found, rfl⟩
  | none =>
    simp only [found] at h
    obtain ⟨rfl, rfl⟩ := (returns_updateAliases gameOf).mp h
    exact ⟨_, .registered gameOf found, rfl⟩

theorem processAliasUnregister_reacts (here : s.connections.lookup self = some this)
    {msg : Option AliasUnregister} (h : Returns (processAliasUnregister self msg) s b t) :
    ∃ e, Reacts env s self this (.aliasUnregister msg) b e ∧ t = e.apply env self this s := by
  simp only [processAliasUnregister, returns_field_bind, returns_this_bind here,
    returns_game_bind] at h
  obtain ⟨p, rfl, game, gameOf, h⟩ := h
  cases which : p.aliasName with
  | some aliasName =>
    simp only [which] at h
    split at h
    · rename_i own
      obtain ⟨rfl, rfl⟩ := (returns_updateAliases gameOf).mp h
      exact ⟨_, .unregistered gameOf which own, rfl⟩
    · rename_i other
      obtain ⟨rfl, rfl⟩ := returns_pure.mp h
      exact ⟨_, .unregisterRejected gameOf which other, rfl⟩
  | none =>
    simp only [which] at h
    obtain ⟨rfl, rfl⟩ := (returns_updateAliases gameOf).mp h
    exact ⟨_, .unregisteredAll gameOf which, rfl⟩

theorem processAliasLookup_reacts (here : s.connections.lookup self = some this)
    {msg : Option AliasLookup} (h : Returns (processAliasLookup env self msg) s b t) :
    ∃ e, Reacts env s self this (.aliasLookup msg) b e ∧ t = e.apply env self this s := by
  simp only [processAliasLookup, returns_field_bind, returns_this_bind here,
    returns_game_bind] at h
  obtain ⟨p, rfl, game, gameOf, h⟩ := h
  have answer : b = true ∧ t = Effect.apply env self this s (.send self
      (sendAliasResolved id (cStr p.aliasName)
        ((game.aliases.lookup (cStr p.aliasName)).getD 0))) := by
    cases found : AList.lookup (cStr p.aliasName) game.aliases with
    | some existing =>
      simp only [found] at h
      obtain ⟨rfl, -, rfl⟩ := returns_send.mp h
      exact ⟨rfl, rfl⟩
    | none =>
      simp only [found] at h
      obtain ⟨rfl, -, rfl⟩ := returns_send.mp h
      exact ⟨rfl, rfl⟩
  obtain ⟨rfl, rfl⟩ := answer
  exact ⟨_, .lookedUp gameOf, rfl⟩

theorem enroll_eq (s : Server) (self : ConnPtr) (hello : HelloServer) (g : GameId)
    (peerId : PeerId) :
    (((({ (s.updateConnection self fun c => { c with game := some g }).updateGame g
            fun game => game.generateNewPeerId.2 with
          handedOut := (g, peerId) :: s.handedOut
          admitted := ⟨self, cStr hello.gameToken, g⟩ :: s.admitted } : Server).updateConnection self
        fun c => { c with peerId := peerId }).updateGame g
        fun game => { game with peers := StdMap.emplace peerId self game.peers }).updateConnection
        self fun c =>
          { c with
            webRTCsupport := true
            trickleICE := decide (hello.flags &&& noTrickleFlag = 0) }) =
      s.enroll self hello g peerId := by
  simp only [Server.enroll, Server.updateConnection, Server.updateGame, StdMap.modify_modify]
  rfl

theorem processHelloServer_reacts (here : s.connections.lookup self = some this)
    {msg : Option HelloServer} (h : Returns (processHelloServer env self msg) s b t) :
    ∃ e, Reacts env s self this (.helloServer msg) b e ∧ t = e.apply env self this s := by
  simp only [processHelloServer, returns_this_bind here] at h
  split at h
  · rename_i seated
    obtain ⟨rfl, rfl⟩ := returns_pure.mp h
    exact ⟨_, .helloAgain seated, rfl⟩
  · rename_i seated
    have unseated := not_not.mp seated
    rw [returns_field_bind] at h
    obtain ⟨hello, rfl, h⟩ := h
    split at h
    · rename_i without
      obtain ⟨rfl, rfl⟩ := returns_pure.mp h
      exact ⟨_, .helloWithoutWebRTC unseated without, rfl⟩
    · rename_i able
      simp only [returns_bind, returns_modifyGet, returns_modify] at h
      obtain ⟨found, s1, hfound, u, s2, rfl, h⟩ := h
      have game : (getVerifiedGame env hello s).1 = found := by rw [← hfound]
      have after : (getVerifiedGame env hello s).2 = s1 := by rw [← hfound]
      cases found with
      | none =>
        obtain ⟨rfl, rfl⟩ := returns_pure.mp h
        exact ⟨_, .helloRefused unseated able game, by rw [Effect.apply, after]⟩
      | some g =>
        simp only [returns_bind, returns_derefGame, returns_modify, returns_get,
          Option.some.injEq, exists_eq_left', sendHelloClient, returns_sendP2PMessage,
          returns_pure] at h
        obtain ⟨game', s2, ⟨hgame, rfl⟩, _, s3, rfl, _, s4, rfl, _, s5, rfl, _, s6, rfl, s7, _,
          ⟨rfl, rfl⟩, _, _, ⟨-, rfl⟩, rfl, rfl⟩ := h
        refine ⟨_, .helloAdmitted unseated able game, ?_⟩
        have id : ((s1.games.lookup g).map Game.nextPeerId).getD 0 = game'.nextPeerId := by
          rw [show AList.lookup g s1.games = some game' from hgame]
          rfl
        simp only [Effect.apply, after, id, ← enroll_eq]
        rfl

theorem dispatch_reacts (here : s.connections.lookup self = some this) {m : Message}
    (h : Returns (dispatch env self m) s b t) :
    ∃ e, Reacts env s self this m b e ∧ t = e.apply env self this s := by
  have idle : ∀ {m : Message}, Returns (pure true : ServerM Bool) s b t →
      (m.messageType = .NONE ∨ m.messageType = .HelloClient ∨ m.messageType = .P2PConnected ∨
        m.messageType = .P2PDisconnect ∨ m.messageType = .AliasResolved ∨
        m.messageType = .unnamed) →
      ∃ e, Reacts env s self this m b e ∧ t = e.apply env self this s := by
    intro m h kind
    obtain ⟨rfl, rfl⟩ := returns_pure.mp h
    exact ⟨_, .ignored kind, rfl⟩
  cases m with
  | p2pOffer msg => exact processP2POffer_reacts here h
  | p2pAnswer msg => exact processP2PAnswer_reacts here h
  | iceCandidate msg => exact processICECandidate_reacts here h
  | p2pReject msg => exact processP2PReject_reacts here h
  | helloServer msg => exact processHelloServer_reacts here h
  | p2pRelayData msg => exact processP2PRelayData_reacts here h
  | aliasRegister msg => exact processAliasRegister_reacts here h
  | aliasUnregister msg => exact processAliasUnregister_reacts here h
  | aliasLookup msg => exact processAliasLookup_reacts here h
  | none => exact idle h (by simp [Message.messageType])
  | helloClient msg => exact idle h (by simp [Message.messageType])
  | p2pConnected msg => exact idle h (by simp [Message.messageType])
  | p2pDisconnect msg => exact idle h (by simp [Message.messageType])
  | aliasResolved msg => exact idle h (by simp [Message.messageType])
  | unnamed => exact idle h (by simp [Message.messageType])

theorem processMsg_cases (here : s.connections.lookup self = some this) {m : Message}
    (h : Returns (processMsg env self m) s b t) :
    (this.peerId = 0 ∧ m.messageType ≠ .HelloServer ∧ b = false ∧ t = s) ∨
      (¬ (this.peerId = 0 ∧ m.messageType ≠ .HelloServer) ∧
        ∃ e, Reacts env s self this m b e ∧ t = e.apply env self this s) := by
  simp only [processMsg, returns_this_bind here] at h
  split at h
  · rename_i unauthenticated
    obtain ⟨rfl, rfl⟩ := returns_pure.mp h
    exact Or.inl ⟨unauthenticated.1, unauthenticated.2, rfl, rfl⟩
  · rename_i authenticated
    exact Or.inr ⟨authenticated, dispatch_reacts here h⟩

end rules

end HumbleNet.PeerServer
