import HumbleNet.PeerServer.Isolation

/-! Two runs of the server side by side. The connections of a game do the same in both:
then the game and its connections are the same in both. -/
namespace HumbleNet.PeerServer

open Program

/-- Two servers that are the same to the game, which has the ids `o` and `o'` in them. -/
structure Twins (k : GameKey) (mine : ConnPtr → Prop) (o o' : Option GameId) (s s' : Server) :
    Prop where
  settled : Settled k mine s
  settled' : Settled k mine s'
  same : Same k mine s s'
  found : k.find s.gameDB = o
  found' : k.find s'.gameDB = o'

structure ConnTwins (o o' : Option GameId) (c c' : P2PSignalConnection) : Prop where
  seen : c.seen = c'.seen
  game : ∀ h, c.game = some h → o = some h
  game' : ∀ h, c'.game = some h → o' = some h

structure GameTwins (mine : ConnPtr → Prop) (game game' : Game) : Prop where
  seen : game.seen = game'.seen
  lists : ∀ p conn, game.peers.lookup p = some conn → mine conn

section

variable {env : Externals} {k : GameKey} {mine : ConnPtr → Prop} {o o' : Option GameId}
  {s s' t t' : Server}

abbrev InStep (k : GameKey) (mine : ConnPtr → Prop) (o o' : Option GameId) {α β : Type}
    (V : α → β → Prop) (x : ServerM α) (y : ServerM β) : Prop :=
  Alike (fun _ => True) (Twins k mine o o') V x y

/-! ### The fields that twins share -/

theorem ConnTwins.fields {c c' : P2PSignalConnection} (twins : ConnTwins o o' c c') :
    c.recvBuf = c'.recvBuf ∧ c.sendBuf = c'.sendBuf ∧ c.wsi = c'.wsi ∧ c.peerId = c'.peerId ∧
      c.webRTCsupport = c'.webRTCsupport ∧ c.connectedPeers = c'.connectedPeers := by
  obtain ⟨recvBuf, sendBuf, wsi, peerId, support, _, _, peers⟩ :=
    P2PSignalConnection.mk.inj twins.seen
  exact ⟨recvBuf, sendBuf, wsi, peerId, support, peers⟩

theorem GameTwins.fields {game game' : Game} (twins : GameTwins mine game game') :
    game.nextPeerId = game'.nextPeerId ∧ game.peers = game'.peers ∧
      game.aliases = game'.aliases := by
  obtain ⟨_, next, peers, aliases⟩ := Game.mk.inj twins.seen
  exact ⟨next, peers, aliases⟩

theorem Twins.conn (twins : Twins k mine o o' s s') {conn : ConnPtr} (own : mine conn)
    {c : P2PSignalConnection} (live : s.connections.lookup conn = some c) :
    ∃ c', s'.connections.lookup conn = some c' ∧ ConnTwins o o' c c' := by
  have same := twins.same.conns conn own
  rw [live, Option.map_some, eq_comm, Option.map_eq_some_iff] at same
  obtain ⟨c', live', seen⟩ := same
  refine ⟨c', live', seen.symm, fun h points => ?_, fun h points => ?_⟩
  · rw [← twins.found]
    exact (twins.settled.pointing live points).mp own
  · rw [← twins.found']
    exact (twins.settled'.pointing live' points).mp own

/-! ### The primitives -/

theorem deref_inStep {conn : ConnPtr} (own : mine conn) :
    InStep k mine o o' (ConnTwins o o') (deref conn) (deref conn) := by
  intro s s' c c' t t' twins h h' _ _
  obtain ⟨live, rfl⟩ := returns_deref.mp h
  obtain ⟨live', rfl⟩ := returns_deref.mp h'
  obtain ⟨c'', live'', same⟩ := twins.conn own live
  rw [live'] at live''
  cases live''
  exact ⟨same, twins⟩

theorem field_inStep {α : Type} {a : Option α} :
    InStep k mine o o' Eq (field a) (field a) := by
  intro s s' b b' t t' twins h h' _ _
  obtain ⟨rfl, rfl⟩ := returns_field.mp h
  obtain ⟨same, rfl⟩ := returns_field.mp h'
  exact ⟨Option.some.inj same, twins⟩

theorem derefGame_inStep {c c' : P2PSignalConnection} (same : ConnTwins o o' c c') :
    InStep k mine o o' (GameTwins mine) (derefGame c.game) (derefGame c'.game) := by
  intro s s' game game' t t' twins h h' _ _
  obtain ⟨⟨g, points, known⟩, rfl⟩ := returns_derefGame.mp h
  obtain ⟨⟨g', points', known'⟩, rfl⟩ := returns_derefGame.mp h'
  have id := twins.found.trans (same.game g points)
  have id' := twins.found'.trans (same.game' g' points')
  have table := twins.same.table
  rw [Server.table, Server.table, id, id', Option.map_some, Option.map_some, known, known'] at table
  refine ⟨⟨Option.some.inj (Option.some.inj table), fun p conn listed => ?_⟩, twins⟩
  exact (twins.settled.listed ⟨game, known, listed⟩).mpr id

theorem Settled.of_same (settled : Settled k mine s) (admitted : t.admitted = s.admitted)
    (gameDB : t.gameDB = s.gameDB) (recorded : Recorded t) : Settled k mine t := by
  have divided : Divided k mine t :=
    ⟨admitted ▸ settled.divided.mine, gameDB ▸ settled.divided.few⟩
  exact settled.after (grows_of_eq admitted gameDB) recorded divided

theorem recorded_assign (recorded : Recorded s) (conn : ConnPtr)
    {f : P2PSignalConnection → P2PSignalConnection} (same : ∀ c, (f c).game = c.game) :
    Recorded (s.updateConnection conn f) := by
  refine recorded_of_same recorded rfl rfl ?_ (fun _ _ _ lists => lists) fun _ there => there
  intro conn' c' h live points
  rw [updateConnection_lookup, Option.map_eq_some_iff] at live
  obtain ⟨c, before, rfl⟩ := live
  refine ⟨c, before, ?_⟩
  split at points
  · rw [same] at points
    exact points
  · exact points

theorem conns_assign {conn : ConnPtr} {f : P2PSignalConnection → P2PSignalConnection}
    (blind : ∀ c, (f c).seen = f c.seen) (other : ConnPtr)
    (same : (s.connections.lookup other).map (·.seen) = (s'.connections.lookup other).map (·.seen)) :
    ((s.updateConnection conn f).connections.lookup other).map (·.seen) =
      ((s'.updateConnection conn f).connections.lookup other).map (·.seen) := by
  have through : ∀ u : Server, ((u.updateConnection conn f).connections.lookup other).map (·.seen) =
      ((u.connections.lookup other).map (·.seen)).map fun c => if other = conn then f c else c := by
    intro u
    rw [updateConnection_lookup, Option.map_map, Option.map_map]
    refine Option.map_congr fun c _ => ?_
    simp only [Function.comp]
    split
    · exact blind c
    · rfl
  rw [through, through, same]

theorem Twins.assign (twins : Twins k mine o o' s s') (conn : ConnPtr)
    {f : P2PSignalConnection → P2PSignalConnection} (same : ∀ c, (f c).game = c.game)
    (blind : ∀ c, (f c).seen = f c.seen) :
    Twins k mine o o' (s.updateConnection conn f) (s'.updateConnection conn f) where
  settled := twins.settled.of_same rfl rfl (recorded_assign twins.settled.recorded conn same)
  settled' := twins.settled'.of_same rfl rfl (recorded_assign twins.settled'.recorded conn same)
  same := ⟨twins.same.stun, twins.same.kind, twins.same.fixed, twins.same.owners,
    fun other own => conns_assign blind other (twins.same.conns other own), twins.same.table⟩
  found := twins.found
  found' := twins.found'

theorem assign_inStep (conn : ConnPtr) {f : P2PSignalConnection → P2PSignalConnection}
    (same : ∀ c, (f c).game = c.game) (blind : ∀ c, (f c).seen = f c.seen) :
    InStep k mine o o' (fun _ _ => True)
      (modify fun s => s.updateConnection conn f : ServerM Unit)
      (modify fun s => s.updateConnection conn f) :=
  alike_modify fun _ _ twins => twins.assign conn same blind

theorem recorded_queue (recorded : Recorded s) (dest : ConnPtr) (msg : Message) :
    Recorded (s.queue env dest msg) := by
  obtain ⟨games, _, gameDB, _, _, admitted⟩ := queue_frame env dest msg s
  refine recorded_of_same recorded admitted gameDB ?_ (fun _ _ _ => lists_of_games games)
    fun h there => games ▸ there
  intro conn c' h live points
  rw [queue_lookup, Option.map_eq_some_iff] at live
  obtain ⟨c, before, rfl⟩ := live
  exact ⟨c, before, points⟩

theorem Twins.queue (twins : Twins k mine o o' s s') (dest : ConnPtr) (msg : Message) :
    Twins k mine o o' (s.queue env dest msg) (s'.queue env dest msg) := by
  obtain ⟨games, signals, gameDB, stun, _, admitted⟩ := queue_frame env dest msg s
  obtain ⟨games', signals', gameDB', stun', _, admitted'⟩ := queue_frame env dest msg s'
  refine ⟨twins.settled.of_same admitted gameDB (recorded_queue twins.settled.recorded dest msg),
    twins.settled'.of_same admitted' gameDB' (recorded_queue twins.settled'.recorded dest msg),
    ⟨?_, ?_, ?_, ?_, ?_, ?_⟩, ?_, ?_⟩
  · rw [stun, stun', twins.same.stun]
  · rw [gameDB, gameDB', twins.same.kind]
  · rw [gameDB, gameDB']
    exact twins.same.fixed
  · rw [signals, signals']
    exact twins.same.owners
  · intro conn own
    have through : ∀ u : Server, ((u.queue env dest msg).connections.lookup conn).map (·.seen) =
        ((u.connections.lookup conn).map (·.seen)).map fun c =>
          { c with sendBuf := c.sendBuf ++ queuedOn env (some (dest, msg)) conn } := by
      intro u
      rw [queue_lookup, Option.map_map, Option.map_map]
      rfl
    rw [through, through, twins.same.conns conn own]
  · have still : (s.queue env dest msg).table k = s.table k :=
      table_of_same gameDB fun g _ => by rw [games]
    have still' : (s'.queue env dest msg).table k = s'.table k :=
      table_of_same gameDB' fun g _ => by rw [games']
    rw [still, still', twins.same.table]
  · rw [gameDB, twins.found]
  · rw [gameDB', twins.found']

theorem send_inStep (dest : ConnPtr) (msg : Message) :
    InStep k mine o o' (fun _ _ => True) (sendP2PMessage env dest msg)
      (sendP2PMessage env dest msg) := by
  intro s s' u u' t t' twins h h' _ _
  rw [(returns_sendP2PMessage.mp h).2, (returns_sendP2PMessage.mp h').2]
  exact ⟨trivial, twins.queue dest msg⟩

theorem reply_inStep {dest : ConnPtr} {msg : Message} {b : Bool} :
    InStep k mine o o' Eq (sendP2PMessage env dest msg >>= fun _ => pure b)
      (sendP2PMessage env dest msg >>= fun _ => pure b) :=
  alike_then (send_inStep dest msg) fun _ _ _ => alike_pure rfl

theorem recorded_aliases (recorded : Recorded s) (g : GameId) {f : Game → Game}
    (peers : ∀ game, (f game).peers = game.peers) : Recorded (s.updateGame g f) :=
  recorded_of_same recorded rfl rfl (fun _ c _ live points => ⟨c, live, points⟩)
    (fun _ _ _ => lists_updateGame fun game _ listed => peers game ▸ listed)
    fun _ there => StdMap.mem_modify.mp there

theorem updateGame_table {g : GameId} {f : Game → Game}
    (blind : ∀ game, (f game).seen = f game.seen)
    (found : k.find s.gameDB = some g) :
    (s.updateGame g f).table k = (s.table k).map fun game => game.map f := by
  have same : k.find (s.updateGame g f).gameDB = some g := found
  rw [Server.table, Server.table, same, found, Option.map_some, Option.map_some, Option.map_some]
  simp only [Server.updateGame, StdMap.lookup_modify, if_true, Option.map_map]
  refine congrArg some (Option.map_congr fun game _ => ?_)
  exact blind game

theorem updateAliases_inStep {c c' : P2PSignalConnection} (same : ConnTwins o o' c c')
    {f : Game → Game} (blind : ∀ game, (f game).seen = f game.seen)
    (peers : ∀ game, (f game).peers = game.peers) :
    InStep k mine o o' (fun _ _ => True) (updateAliases c.game f) (updateAliases c'.game f) := by
  intro s s' u u' t t' twins h h' _ _
  have named : ∀ {game : Option GameId} {s t : Server} {u : Unit},
      Returns (updateAliases game f) s u t → ∃ g, game = some g ∧ t = s.updateGame g f := by
    intro game s t u h
    cases game with
    | none => exact absurd h returns_fault
    | some g => exact ⟨g, rfl, returns_modify.mp h⟩
  obtain ⟨g, points, rfl⟩ := named h
  obtain ⟨g', points', rfl⟩ := named h'
  have id := twins.found.trans (same.game g points)
  have id' := twins.found'.trans (same.game' g' points')
  refine ⟨trivial, ⟨?_, ?_, ⟨twins.same.stun, twins.same.kind, twins.same.fixed,
    twins.same.owners, twins.same.conns, ?_⟩, twins.found, twins.found'⟩⟩
  · exact twins.settled.of_same rfl rfl (recorded_aliases twins.settled.recorded g peers)
  · exact twins.settled'.of_same rfl rfl (recorded_aliases twins.settled'.recorded g' peers)
  · rw [updateGame_table blind id, updateGame_table blind id', twins.same.table]

/-! ### The cases of the switch -/

section handlers

variable {self : ConnPtr} (own : mine self)

include own

theorem processP2POffer_inStep (msg : Option P2POffer) :
    InStep k mine o o' Eq (processP2POffer env self msg) (processP2POffer env self msg) := by
  refine alike_then field_inStep fun p _ same => ?_
  cases same
  refine alike_then (deref_inStep own) fun this this' twins => ?_
  obtain ⟨_, _, _, peerId, _⟩ := twins.fields
  by_cases emulated : p.flags &&& emulatedFlag ≠ 0
  · simp only [if_pos emulated]
    exact reply_inStep
  · simp only [if_neg emulated]
    refine alike_then (derefGame_inStep twins) fun game game' games => ?_
    rw [← games.fields.2.1, ← peerId]
    cases found : AList.lookup p.peerId game.peers with
    | none => exact reply_inStep
    | some otherPeer =>
      refine alike_then (deref_inStep (games.lists _ _ found)) fun other other' others => ?_
      rw [← others.fields.2.2.2.2.1]
      cases other.webRTCsupport with
      | false => exact reply_inStep
      | true =>
        refine alike_then (assign_inStep self (fun _ => rfl) fun _ => rfl) fun _ _ _ => ?_
        refine alike_then field_inStep fun offer _ same => ?_
        cases same
        exact reply_inStep

theorem processP2PAnswer_inStep (msg : Option P2PAnswer) :
    InStep k mine o o' Eq (processP2PAnswer env self msg) (processP2PAnswer env self msg) := by
  refine alike_then field_inStep fun p _ same => ?_
  cases same
  refine alike_then (deref_inStep own) fun this this' twins => ?_
  obtain ⟨_, _, _, peerId, _⟩ := twins.fields
  refine alike_then (derefGame_inStep twins) fun game game' games => ?_
  rw [← games.fields.2.1, ← peerId]
  cases found : AList.lookup p.peerId game.peers with
  | none => exact reply_inStep
  | some otherPeer =>
    refine alike_then (deref_inStep (games.lists _ _ found)) fun other other' others => ?_
    obtain ⟨_, _, _, otherId, _, peers⟩ := others.fields
    rw [← otherId, ← peers]
    by_cases wrong : other.peerId ≠ p.peerId
    · simp only [if_pos wrong]
      exact alike_fault
    · simp only [if_neg wrong]
      by_cases unasked : self ∉ other.connectedPeers
      · simp only [if_pos unasked]
        exact reply_inStep
      · simp only [if_neg unasked]
        refine alike_then (assign_inStep self (fun _ => rfl) fun _ => rfl) fun _ _ _ => ?_
        refine alike_then field_inStep fun offer _ same => ?_
        cases same
        exact reply_inStep

theorem processICECandidate_inStep (msg : Option ICECandidate) :
    InStep k mine o o' Eq (processICECandidate env self msg) (processICECandidate env self msg) := by
  refine alike_then field_inStep fun p _ same => ?_
  cases same
  refine alike_then (deref_inStep own) fun this this' twins => ?_
  obtain ⟨_, _, _, peerId, _⟩ := twins.fields
  refine alike_then (derefGame_inStep twins) fun game game' games => ?_
  rw [← games.fields.2.1, ← peerId]
  cases AList.lookup p.peerId game.peers with
  | none => exact reply_inStep
  | some otherPeer =>
    refine alike_then field_inStep fun offer _ same => ?_
    cases same
    exact reply_inStep

theorem processP2PReject_inStep (msg : Option P2PReject) :
    InStep k mine o o' Eq (processP2PReject env self msg) (processP2PReject env self msg) := by
  refine alike_then field_inStep fun p _ same => ?_
  cases same
  refine alike_then (deref_inStep own) fun this this' twins => ?_
  obtain ⟨_, _, _, peerId, _⟩ := twins.fields
  refine alike_then (derefGame_inStep twins) fun game game' games => ?_
  rw [← games.fields.2.1, ← peerId]
  cases AList.lookup p.peerId game.peers with
  | none => exact alike_pure rfl
  | some otherPeer =>
    by_cases reason : p.reason = rejectPeerRefused ∨ p.reason = rejectNotFound
    · simp only [if_pos reason]
      exact reply_inStep
    · simp only [if_neg reason]
      exact alike_pure rfl

theorem processP2PRelayData_inStep (msg : Option P2PRelayData) :
    InStep k mine o o' Eq (processP2PRelayData env self msg)
      (processP2PRelayData env self msg) := by
  refine alike_then field_inStep fun p _ same => ?_
  cases same
  refine alike_then field_inStep fun data _ same => ?_
  cases same
  refine alike_then (deref_inStep own) fun this this' twins => ?_
  obtain ⟨_, _, _, peerId, _⟩ := twins.fields
  refine alike_then (derefGame_inStep twins) fun game game' games => ?_
  rw [← games.fields.2.1, ← peerId]
  cases AList.lookup p.peerId game.peers with
  | none => exact reply_inStep
  | some otherPeer => exact reply_inStep

theorem processAliasRegister_inStep (msg : Option AliasRegister) :
    InStep k mine o o' Eq (processAliasRegister self msg) (processAliasRegister self msg) := by
  refine alike_then field_inStep fun p _ same => ?_
  cases same
  refine alike_then (deref_inStep own) fun this this' twins => ?_
  obtain ⟨_, _, _, peerId, _⟩ := twins.fields
  refine alike_then (derefGame_inStep twins) fun game game' games => ?_
  rw [← games.fields.2.2, ← peerId]
  cases AList.lookup (cStr p.aliasName) game.aliases with
  | some existing => exact alike_pure rfl
  | none =>
    exact alike_then (updateAliases_inStep twins (fun _ => rfl) fun _ => rfl)
      fun _ _ _ => alike_pure rfl

theorem processAliasUnregister_inStep (msg : Option AliasUnregister) :
    InStep k mine o o' Eq (processAliasUnregister self msg) (processAliasUnregister self msg) := by
  refine alike_then field_inStep fun p _ same => ?_
  cases same
  refine alike_then (deref_inStep own) fun this this' twins => ?_
  obtain ⟨_, _, _, peerId, _⟩ := twins.fields
  refine alike_then (derefGame_inStep twins) fun game game' games => ?_
  rw [← games.fields.2.2, ← peerId]
  cases p.aliasName with
  | none =>
    exact alike_then (updateAliases_inStep twins (fun _ => rfl) fun _ => rfl)
      fun _ _ _ => alike_pure rfl
  | some aliasName =>
    by_cases held : AList.lookup (cStr aliasName) game.aliases = some this.peerId
    · simp only [if_pos held]
      exact alike_then (updateAliases_inStep twins (fun _ => rfl) fun _ => rfl)
        fun _ _ _ => alike_pure rfl
    · simp only [if_neg held]
      exact alike_pure rfl

theorem processAliasLookup_inStep (msg : Option AliasLookup) :
    InStep k mine o o' Eq (processAliasLookup env self msg) (processAliasLookup env self msg) := by
  refine alike_then field_inStep fun p _ same => ?_
  cases same
  refine alike_then (deref_inStep own) fun this this' twins => ?_
  refine alike_then (derefGame_inStep twins) fun game game' games => ?_
  rw [← games.fields.2.2]
  cases AList.lookup (cStr p.aliasName) game.aliases with
  | some existing => exact reply_inStep
  | none => exact reply_inStep

theorem dispatch_inStep {msg : Message} (kind : msg.messageType ≠ .HelloServer) :
    InStep k mine o o' Eq (dispatch env self msg) (dispatch env self msg) := by
  cases msg with
  | p2pOffer body => exact processP2POffer_inStep own body
  | p2pAnswer body => exact processP2PAnswer_inStep own body
  | iceCandidate body => exact processICECandidate_inStep own body
  | p2pReject body => exact processP2PReject_inStep own body
  | p2pRelayData body => exact processP2PRelayData_inStep own body
  | aliasRegister body => exact processAliasRegister_inStep own body
  | aliasUnregister body => exact processAliasUnregister_inStep own body
  | aliasLookup body => exact processAliasLookup_inStep own body
  | helloServer body => exact absurd rfl kind
  | _ => exact alike_pure rfl

end handlers

end

end HumbleNet.PeerServer
