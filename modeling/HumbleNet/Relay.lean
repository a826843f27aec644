import HumbleNet.Client.SignalStream
import HumbleNet.PeerServer.Forwarding

/-! The relay path: what one client writes to a connection goes through the signaling
server into the receive buffer of the other. -/
namespace HumbleNet.Relay

open Program Guarded

/-- Both ends of a connection between two peers of a game, and the server between them. -/
structure Path where
  sender : Client.State
  conn : Client.ConnPtr
  near : Client.Connection
  signal : Client.P2PSignalConnection
  wsi : Client.Wsi
  server : PeerServer.Server
  self : PeerServer.ConnPtr
  this : PeerServer.P2PSignalConnection
  game : PeerServer.Game
  dest : PeerServer.ConnPtr
  there : PeerServer.P2PSignalConnection
  receiver : Client.State
  other : Client.ConnPtr
  far : Client.Connection
  -- the sender's end is connected and uses the relay
  near_live : sender.heap.lookup conn = some near
  near_connected : near.status = .connected
  near_socket : near.socket ≠ none
  relays : Client.usesRelay sender.hints = true
  signaled : sender.p2pConn = some signal
  signal_wsi : signal.wsi = some wsi
  -- the server knows both peers
  self_live : server.connections.lookup self = some this
  seated : this.peerId ≠ 0
  gameOf : PeerServer.GameOf server this game
  listed : game.peers.lookup near.otherPeer = some dest
  dest_live : server.connections.lookup dest = some there
  -- the receiver's end is connected, and no registered connection is gone
  far_live : receiver.heap.lookup other = some far
  far_connected : far.status = .connected
  far_peer : far.otherPeer = this.peerId
  tracked : other ∈ receiver.connections.entries.map Sigma.snd
  live : ∀ conn ∈ receiver.connections.entries.map Sigma.snd,
    ∃ c, receiver.heap.lookup conn = some c

def relayMsg (peer : PeerId) (data : Bytes) : Message := .p2pRelayData (some ⟨peer, some data⟩)

/-- `humblenet_connection_write` returns the length of the buffer, and these bytes arrive
at the end of the other end's buffer: the frame that is written is decoded by the server,
and what the server queues in answer by the receiver. -/
def Arrives (env : Externals) (path : Path) (buf arrived : Bytes) : Prop :=
  ∃ (log log' : Client.ClientLog) (t receiver' : Client.State) (server' : PeerServer.Server)
    (body body' : Bytes) (there' : PeerServer.P2PSignalConnection) (far' : Client.Connection)
    (b : Bool),
    Client.Runs (Client.humblenetConnectionWrite env path.conn buf (UInt32.ofNat buf.length))
      path.sender log (buf.length : Int) t ∧
    log.flatMap Client.acceptedOf = p2pMessageFrame body ∧
    Returns (PeerServer.processMsg env path.self (env.getMessage body)) path.server true server' ∧
    server'.connections.lookup path.dest = some there' ∧
    there'.sendBuf = path.there.sendBuf ++ p2pMessageFrame body' ∧
    Client.Runs (Client.p2pSignalProcess env (env.getMessage body')) path.receiver log' b
      receiver' ∧
    receiver'.heap.lookup path.other = some far' ∧
    far'.recvBuffer = path.far.recvBuffer ++ arrived

/-- The other end is the receiver's only connection to that peer. -/
def Path.Only (path : Path) : Prop :=
  ∀ conn c, conn ∈ path.receiver.connections.entries.map Sigma.snd →
    path.receiver.heap.lookup conn = some c → c.otherPeer = path.this.peerId → conn = path.other

def Decodes (env : Externals) : Prop :=
  ∀ peer data, data.length < 2 ^ 16 →
    env.getMessage (env.finish (relayMsg peer data)).bytes = relayMsg peer data

section

variable {env : Externals} {path : Path} {buf : Bytes}

theorem frame_injective {a b : Bytes} (same : p2pMessageFrame a = p2pMessageFrame b) : a = b := by
  have body : ∀ c, (p2pMessageFrame c).drop 8 = c := by
    intro c
    rw [p2pMessageFrame]
    exact List.drop_left' (by simp only [List.length_append, writeScalar32_length])
  rw [← body a, same, body b]

/-! ### The sender -/

/-- The conversion of the length to `uint16_t` on the way out. -/
def sentPart (buf : Bytes) : Bytes := buf.take (buf.length % 2 ^ 16)

def Path.written (env : Externals) (path : Path) (buf : Bytes) : Bytes :=
  Client.frame env (relayMsg path.near.otherPeer (sentPart buf))

theorem write_ends (short : buf.length < 2 ^ 32) {log : Client.ClientLog} {r : Int}
    {t : Client.State} : Client.Runs (Client.humblenetConnectionWrite env path.conn buf
        (UInt32.ofNat buf.length)) path.sender log r t ↔
      ∃ retval : Int, (-1 ≤ retval ∧ retval ≤ (path.written env buf).length) ∧
        log = [⟨.libwebsocketWrite path.wsi (path.written env buf), retval⟩] ∧ t = path.sender ∧
        r = if retval = (path.written env buf).length then Client.asInt buf.length else -1 := by
  have size : (UInt32.ofNat buf.length).toNat = buf.length := UInt32.toNat_ofNat_of_lt' short
  have part : relayMsg path.near.otherPeer (buf.take (UInt32.ofNat buf.length).toUInt16.toNat) =
      relayMsg path.near.otherPeer (sentPart buf) := by
    rw [sentPart, UInt32.toNat_toUInt16, size]
  rw [Client.humblenetConnectionWrite, Client.runs_deref_bind]
  simp only [path.near_live, Option.some.injEq, exists_eq_left', path.near_connected,
    Client.runs_assert_bind, path.near_socket, ne_eq, not_false_eq_true, true_and, ends_get_bind,
    path.relays, if_true]
  change Client.Runs (Client.sendP2PMessage env (relayMsg path.near.otherPeer
    (buf.take (UInt32.ofNat buf.length).toUInt16.toNat)) >>= _) path.sender log r t ↔ _
  rw [part, Client.runs_sendP2PMessage_bind path.signaled path.signal_wsi]
  have last : ∀ (retval : Int) (l : Client.ClientLog), Client.Runs
      (if decide (retval = (path.written env buf).length) = true then
        pure (Client.asInt (UInt32.ofNat buf.length).toNat) else pure (-1)) path.sender l r t ↔
      l = [] ∧ t = path.sender ∧
        r = if retval = (path.written env buf).length then Client.asInt buf.length else -1 := by
    intro retval l
    simp only [decide_eq_true_eq, size]
    split
    · simp only [ends_pure, and_comm]
    · simp only [ends_pure, and_comm]
  constructor
  · rintro ⟨retval, l, answer, rest, rfl⟩
    obtain ⟨rfl, rfl, rfl⟩ := (last retval l).mp rest
    exact ⟨retval, answer, rfl, rfl, rfl⟩
  · rintro ⟨retval, answer, rfl, rfl, rfl⟩
    exact ⟨retval, [], answer, (last retval []).mpr ⟨rfl, rfl, rfl⟩, rfl⟩

theorem write_returns_length (short : buf.length < 2 ^ 32) {log : Client.ClientLog}
    {t : Client.State} : Client.Runs (Client.humblenetConnectionWrite env path.conn buf
        (UInt32.ofNat buf.length)) path.sender log (buf.length : Int) t ↔
      buf.length < 2 ^ 31 ∧ t = path.sender ∧
        log = [⟨.libwebsocketWrite path.wsi (path.written env buf),
          ((path.written env buf).length : Int)⟩] := by
  rw [write_ends short]
  constructor
  · rintro ⟨retval, answer, rfl, rfl, same⟩
    split at same
    · rename_i whole
      exact ⟨(Client.asInt_eq_iff _).mp same.symm, rfl, by rw [whole]⟩
    · omega
  · rintro ⟨small, rfl, rfl⟩
    exact ⟨_, ⟨by omega, le_refl _⟩, rfl, rfl, by rw [if_pos rfl, (Client.asInt_eq_iff _).mpr small]⟩

/-! ### The server -/

theorem sentPart_length (buf : Bytes) : (sentPart buf).length < 2 ^ 16 := by
  rw [sentPart, List.length_take]
  have := Nat.mod_lt buf.length (by decide : 0 < 2 ^ 16)
  omega

theorem server_relays {data : Bytes} (short : data.length < 2 ^ 16) {b : Bool}
    {server' : PeerServer.Server} : Returns (PeerServer.processMsg env path.self
        (relayMsg path.near.otherPeer data)) path.server b server' ↔
      b = true ∧ server' = path.server.queue env path.dest (relayMsg path.this.peerId data) := by
  have kept : data.take (UInt16.ofNat data.length).toNat = data := by
    rw [UInt16.toNat_ofNat_of_lt' short, List.take_length]
  have forward : ∀ b server', Returns (PeerServer.processMsg env path.self
      (relayMsg path.near.otherPeer data)) path.server b server' →
      b = true ∧ server' = path.server.queue env path.dest (relayMsg path.this.peerId data) := by
    intro b server' returns
    rcases PeerServer.processMsg_cases path.self_live returns with
      ⟨unseated, _⟩ | ⟨_, e, reacts, rfl⟩
    · exact absurd unseated path.seated
    · cases reacts with
      | relayMissing _ gameOf missing =>
        rw [gameOf.unique path.gameOf, path.listed] at missing
        cases missing
      | relayForwarded present gameOf found =>
        cases present
        rw [gameOf.unique path.gameOf, path.listed] at found
        cases found
        refine ⟨rfl, ?_⟩
        change path.server.queue env path.dest (sendP2PRelayData id path.this.peerId data _) = _
        rw [sendP2PRelayData, kept]
        rfl
      | ignored kind => simp [relayMsg, Message.messageType] at kind
  constructor
  · exact forward b server'
  · rintro ⟨rfl, rfl⟩
    have ready : PeerServer.MsgReady path.server path.self path.this
        (relayMsg path.near.otherPeer data) := by
      simp only [PeerServer.MsgReady, if_neg path.seated, relayMsg]
      refine ⟨_, rfl, Option.some_ne_none _, fun conn target => ?_⟩
      have same := path.gameOf.target_iff.mp target
      rw [path.listed] at same
      cases same
      exact StdMap.mem_iff_lookup.mpr ⟨_, path.dest_live⟩
    obtain ⟨b, t, returns⟩ := (PeerServer.processMsg_completes path.self_live
      (fun _ => ⟨path.game, path.gameOf⟩) _).mpr ready
    obtain ⟨rfl, rfl⟩ := forward b t returns
    exact returns

/-! ### The receiver -/

theorem findOtherPeer_ends {s t : Client.State} {peer : PeerId} {conns : List Client.ConnPtr}
    (live : ∀ conn ∈ conns, ∃ c, s.heap.lookup conn = some c) {log : Client.ClientLog}
    {o : Option Client.ConnPtr} : Client.Runs (Client.findOtherPeer peer conns) s log o t ↔
      log = [] ∧ t = s ∧ o = conns.find? fun conn =>
        (s.heap.lookup conn).any fun c => decide (c.otherPeer = peer) := by
  induction conns with
  | nil =>
    simp only [Client.findOtherPeer, ends_pure, List.find?_nil, and_comm]
  | cons conn rest ih =>
    obtain ⟨c, here⟩ := live conn List.mem_cons_self
    rw [Client.findOtherPeer, Client.runs_deref_bind]
    simp only [here, Option.some.injEq, exists_eq_left', List.find?_cons, Option.any_some]
    by_cases found : c.otherPeer = peer
    · simp only [found, if_true, decide_true, ends_pure, and_comm]
    · simp only [found, if_false, decide_false]
      exact ih fun conn' mem => live conn' (List.mem_cons_of_mem _ mem)

theorem receiver_ends {data : Bytes} {log : Client.ClientLog} {b : Bool} {t : Client.State} :
    Client.Runs (Client.p2pSignalProcess env (relayMsg path.this.peerId data)) path.receiver log
        b t ↔ ∃ walked conn,
      List.Perm walked (path.receiver.connections.entries.map Sigma.snd) ∧
      walked.find? (fun conn => (path.receiver.heap.lookup conn).any fun c =>
        decide (c.otherPeer = path.this.peerId)) = some conn ∧ b = true ∧
      log = [⟨.order (path.receiver.connections.entries.map Sigma.snd), walked⟩,
        ⟨.mark (.arrive conn data), ()⟩] ∧
      t = { path.receiver with
        toTables := { path.receiver.toTables.updateConnection conn fun c =>
            { c with recvBuffer := c.recvBuffer ++ data } with
          pendingDataConnections :=
            StdSet.insert conn path.receiver.pendingDataConnections } } := by
  have search : ∀ walked, List.Perm walked (path.receiver.connections.entries.map Sigma.snd) →
      ∀ l o u, Client.Runs (Client.findOtherPeer path.this.peerId walked) path.receiver l o u ↔
        l = [] ∧ u = path.receiver ∧ o = walked.find? fun conn =>
          (path.receiver.heap.lookup conn).any fun c => decide (c.otherPeer = path.this.peerId) := by
    intro walked perm l o u
    exact findOtherPeer_ends fun conn mem => path.live conn (perm.mem_iff.mp mem)
  have hits : ∀ walked, List.Perm walked (path.receiver.connections.entries.map Sigma.snd) →
      ∃ conn, walked.find? (fun conn => (path.receiver.heap.lookup conn).any fun c =>
        decide (c.otherPeer = path.this.peerId)) = some conn := by
    intro walked perm
    refine Option.isSome_iff_exists.mp (List.find?_isSome.mpr ⟨path.other, ?_, ?_⟩)
    · exact perm.mem_iff.mpr path.tracked
    · simp only [path.far_live, Option.any_some, path.far_peer, decide_true]
  simp only [relayMsg, Client.p2pSignalProcess, Client.processP2PRelayData,
    Client.runs_field_bind, Option.some.injEq, exists_eq_left', ends_get_bind,
    Client.runs_walk_bind]
  constructor
  · rintro ⟨walked, l, perm, rest, rfl⟩
    obtain ⟨l₁, o, u, l₂, found, rest, rfl⟩ := ends_bind.mp rest
    obtain ⟨rfl, rfl, rfl⟩ := (search walked perm _ _ _).mp found
    obtain ⟨conn, hit⟩ := hits walked perm
    rw [hit] at rest
    dsimp only at rest
    obtain ⟨l₃, last, rfl⟩ := Client.runs_mark_bind.mp rest
    simp only [Client.ends_modifyTables_bind, ends_modify_bind] at last
    obtain ⟨rfl, rfl, rfl⟩ := ends_pure.mp last
    exact ⟨walked, conn, perm, hit, rfl, rfl, rfl⟩
  · rintro ⟨walked, conn, perm, hit, rfl, rfl, rfl⟩
    refine ⟨walked, _, perm, ends_bind.mpr ⟨[], _, _, _, (search walked perm _ _ _).mpr
      ⟨rfl, rfl, rfl⟩, ?_, rfl⟩, rfl⟩
    rw [hit]
    dsimp only
    exact Client.runs_mark_bind.mpr ⟨[], ends_pure.mpr ⟨rfl, rfl, rfl⟩, rfl⟩

/-! ### End to end -/

theorem arrives_iff (decodes : Decodes env) (short : buf.length < 2 ^ 32) {arrived : Bytes} :
    Arrives env path buf arrived ↔ buf.length < 2 ^ 31 ∧ ∃ walked conn,
      List.Perm walked (path.receiver.connections.entries.map Sigma.snd) ∧
      walked.find? (fun conn => (path.receiver.heap.lookup conn).any fun c =>
        decide (c.otherPeer = path.this.peerId)) = some conn ∧
      arrived = if path.other = conn then sentPart buf else [] := by
  have decoded : ∀ peer, env.getMessage (env.finish (relayMsg peer (sentPart buf))).bytes =
      relayMsg peer (sentPart buf) := fun peer => decodes peer _ (sentPart_length buf)
  -- the bytes that the websocket accepts, and those that the server queues
  have onWire : ∀ wsi : Client.Wsi, List.flatMap Client.acceptedOf
      [⟨.libwebsocketWrite wsi (path.written env buf), ((path.written env buf).length : Int)⟩] =
        path.written env buf := by
    intro wsi
    simp only [List.flatMap_cons, List.flatMap_nil, Client.acceptedOf, Int.toNat_natCast,
      List.take_length, List.append_nil]
  have queued : (path.server.queue env path.dest
      (relayMsg path.this.peerId (sentPart buf))).connections.lookup path.dest =
        some { path.there with
          sendBuf := path.there.sendBuf ++
            p2pMessageFrame (env.finish (relayMsg path.this.peerId (sentPart buf))).bytes } := by
    rw [PeerServer.queue_connections, StdMap.lookup_modify, if_pos rfl, path.dest_live]
    rfl
  have buffer : ∀ (conn : Client.ConnPtr) (data : Bytes),
      (path.receiver.toTables.updateConnection conn fun c =>
        { c with recvBuffer := c.recvBuffer ++ data }).heap.lookup path.other =
      some { path.far with
        recvBuffer := path.far.recvBuffer ++ if path.other = conn then data else [] } := by
    intro conn data
    simp only [Client.Tables.updateConnection, StdMap.lookup_modify]
    split
    · rename_i same
      rw [← same, path.far_live]
      rfl
    · rw [path.far_live, List.append_nil]
  constructor
  · rintro ⟨log, log', t, receiver', server', body, body', there', far', b, write, wire, serve,
      dest, appended, receive, other, tail⟩
    obtain ⟨small, rfl, rfl⟩ := (write_returns_length short).mp write
    rw [onWire] at wire
    have same : (env.finish (relayMsg path.near.otherPeer (sentPart buf))).bytes = body :=
      frame_injective wire
    subst same
    rw [decoded] at serve
    obtain ⟨_, rfl⟩ := (server_relays (sentPart_length buf)).mp serve
    rw [queued] at dest
    cases dest
    have same' := frame_injective (List.append_cancel_left appended)
    subst same'
    rw [decoded] at receive
    obtain ⟨walked, conn, perm, hit, _, _, rfl⟩ := receiver_ends.mp receive
    have now := buffer conn (sentPart buf)
    refine ⟨small, walked, conn, perm, hit, ?_⟩
    rw [show AList.lookup path.other _ = some far' from other] at now
    cases now
    exact (List.append_cancel_left tail).symm
  · rintro ⟨small, walked, conn, perm, hit, rfl⟩
    have receive := (@receiver_ends env path (sentPart buf) _ true _).mpr
      ⟨walked, conn, perm, hit, rfl, rfl, rfl⟩
    have serve := (@server_relays env path _ (sentPart_length buf) true _).mpr ⟨rfl, rfl⟩
    rw [← decoded] at receive serve
    exact ⟨_, _, path.sender, _, _, _, _, _, _, true,
      (write_returns_length short).mpr ⟨small, rfl, rfl⟩, onWire _, serve, queued, rfl, receive,
      buffer conn (sentPart buf), rfl⟩

theorem sentPart_of_short (short : buf.length < 2 ^ 16) : sentPart buf = buf := by
  rw [sentPart, Nat.mod_eq_of_lt short, List.take_length]

theorem sentPart_ne (long : 2 ^ 16 ≤ buf.length) : sentPart buf ≠ buf := by
  intro same
  have part := sentPart_length buf
  rw [same] at part
  omega

theorem exists_walk {conn : Client.ConnPtr} {c : Client.Connection}
    (mem : conn ∈ path.receiver.connections.entries.map Sigma.snd)
    (here : path.receiver.heap.lookup conn = some c) (peer : c.otherPeer = path.this.peerId) :
    ∃ walked, List.Perm walked (path.receiver.connections.entries.map Sigma.snd) ∧
      walked.find? (fun conn => (path.receiver.heap.lookup conn).any fun c =>
        decide (c.otherPeer = path.this.peerId)) = some conn := by
  refine ⟨_, (List.perm_cons_erase mem).symm, List.find?_cons_of_pos ?_⟩
  simp only [here, Option.any_some, peer, decide_true]

/-- Whenever a write over the relay returns the length of its buffer, exactly the buffer
arrives: this holds for an empty buffer, for one whose length is no `int`, and for one of
less than 2^16 bytes whose receiver has one connection to the sender. -/
theorem relay_exact (decodes : Decodes env) (short : buf.length < 2 ^ 32) :
    (∀ arrived, Arrives env path buf arrived → arrived = buf) ↔
      buf = [] ∨ 2 ^ 31 ≤ buf.length ∨ (buf.length < 2 ^ 16 ∧ path.Only) := by
  constructor
  · intro exact_path
    by_contra fails
    obtain ⟨nonempty, small, fails⟩ := by
      rw [not_or, not_or] at fails
      exact fails
    have small := Nat.not_le.mp small
    by_cases only : path.Only
    · have long : 2 ^ 16 ≤ buf.length := Nat.not_lt.mp fun lt => fails ⟨lt, only⟩
      obtain ⟨walked, perm, hit⟩ := exists_walk path.tracked path.far_live path.far_peer
      have same := exact_path _ ((arrives_iff decodes short).mpr
        ⟨small, walked, path.other, perm, hit, rfl⟩)
      rw [if_pos rfl] at same
      exact sentPart_ne long same
    · simp only [Path.Only, not_forall] at only
      obtain ⟨conn, c, mem, here, peer, other⟩ := only
      obtain ⟨walked, perm, hit⟩ := exists_walk mem here peer
      have same := exact_path _ ((arrives_iff decodes short).mpr
        ⟨small, walked, conn, perm, hit, rfl⟩)
      rw [if_neg (Ne.symm other)] at same
      exact nonempty same.symm
  · intro holds arrived arrives
    obtain ⟨small, walked, conn, perm, hit, rfl⟩ := (arrives_iff decodes short).mp arrives
    rcases holds with rfl | long | ⟨short, only⟩
    · rw [sentPart, List.take_nil, ite_self]
    · omega
    · have mem := perm.mem_iff.mp (List.mem_of_find?_eq_some hit)
      have found := List.find?_some hit
      obtain ⟨c, here, peer⟩ := (Option.any_eq_true _ _).mp found
      rw [if_pos (only conn c mem here (of_decide_eq_true peer)).symm, sentPart_of_short short]

end

/-! ### A path -/

def encodeRelay : Message → Body
  | .p2pRelayData (some ⟨peer, some data⟩) =>
    if short : data.length < 2 ^ 16 then
      ⟨writeScalar32 peer ++ data, by
        rw [List.length_append, writeScalar32_length]
        omega⟩
    else Body.empty
  | _ => Body.empty

def relaying : Externals where
  sizeBits := 64
  verifyMessageBuffer _ := true
  getMessage bytes := relayMsg (readScalar32 bytes) (bytes.drop 4)
  finish := encodeRelay
  sha1 _ := Digest.zero

theorem relaying_decodes : Decodes relaying := by
  intro peer data short
  have encoded : (encodeRelay (relayMsg peer data)).bytes = writeScalar32 peer ++ data := by
    simp only [relayMsg, encodeRelay, dif_pos short]
  change relayMsg (readScalar32 (encodeRelay (relayMsg peer data)).bytes)
    ((encodeRelay (relayMsg peer data)).bytes.drop 4) = _
  rw [encoded, readScalar32_write, List.drop_left' (writeScalar32_length peer)]

def endTo (peer : PeerId) : Client.Connection :=
  { Client.Connection.new .outgoing with status := .connected, otherPeer := peer, socket := some 7 }

def seat (wsi : PeerServer.Wsi) (peerId : PeerId) : PeerServer.P2PSignalConnection :=
  { PeerServer.P2PSignalConnection.new wsi with
    peerId := peerId
    game := some 1
    webRTCsupport := true }

def samplePath : Path where
  sender :=
    { Client.State.initial with
      heap := StdMap.emplace 1 (endTo 2) ∅
      connections := StdMap.emplace 7 1 ∅
      hints := StdMap.emplace Client.relayHint [0x31] ∅
      p2pConn := some ⟨0, some 1, [], []⟩ }
  conn := 1
  near := endTo 2
  signal := ⟨0, some 1, [], []⟩
  wsi := 1
  server :=
    { PeerServer.Server.new (.anonymous 1 ∅) [] with
      signalConnections := StdMap.emplace 3 10 (StdMap.emplace 4 20 ∅)
      connections := StdMap.emplace 10 (seat 3 1) (StdMap.emplace 20 (seat 4 2) ∅)
      games := StdMap.emplace 1 ⟨1, 3, StdMap.emplace 1 10 (StdMap.emplace 2 20 ∅), ∅⟩ ∅ }
  self := 10
  this := seat 3 1
  game := ⟨1, 3, StdMap.emplace 1 10 (StdMap.emplace 2 20 ∅), ∅⟩
  dest := 20
  there := seat 4 2
  receiver :=
    { Client.State.initial with
      heap := StdMap.emplace 1 (endTo 1) ∅
      connections := StdMap.emplace 7 1 ∅ }
  other := 1
  far := endTo 1
  near_live := rfl
  near_connected := rfl
  near_socket := by decide
  relays := by decide
  signaled := rfl
  signal_wsi := rfl
  self_live := rfl
  seated := by decide
  gameOf := ⟨1, rfl, rfl⟩
  listed := rfl
  dest_live := rfl
  far_live := rfl
  far_connected := rfl
  far_peer := rfl
  tracked := List.mem_cons_self
  live := by
    intro conn mem
    rw [List.mem_singleton.mp mem]
    exact ⟨endTo 1, rfl⟩

theorem samplePath_only : samplePath.Only := by
  intro conn c mem _ _
  exact List.mem_singleton.mp mem

/-- Three bytes arrive as they were written. -/
theorem relay_three_bytes : ([1, 2, 3] : Bytes).length < 2 ^ 32 ∧
    ∀ arrived, Arrives relaying samplePath [1, 2, 3] arrived → arrived = [1, 2, 3] := by
  have short : ([1, 2, 3] : Bytes).length < 2 ^ 32 := by decide
  refine ⟨short, (relay_exact relaying_decodes short).mpr (Or.inr (Or.inr ⟨?_, samplePath_only⟩))⟩
  decide

/-- A write of 2^16 zeros is reported as done, and nothing arrives. -/
theorem relay_loses : Arrives relaying samplePath (List.replicate (2 ^ 16) 0) [] ∧
    List.replicate (2 ^ 16) (0 : UInt8) ≠ [] := by
  have length : (List.replicate (2 ^ 16) (0 : UInt8)).length = 2 ^ 16 := List.length_replicate
  have nothing : sentPart (List.replicate (2 ^ 16) 0) = [] := by
    rw [sentPart, length, Nat.mod_self, List.take_zero]
  constructor
  · refine (arrives_iff relaying_decodes (by rw [length]; decide)).mpr
      ⟨by rw [length]; decide, [1], 1, .refl _, rfl, ?_⟩
    rw [nothing, ite_self]
  · intro empty
    have length' := congrArg List.length empty
    rw [length] at length'
    cases length'

end HumbleNet.Relay
