import HumbleNet.PeerServer.PeerTable

/-! When `processMsg` runs to completion. Every pointer a message may leave out is read
without a check somewhere, so a message is ready only if what its case reads is there. -/
namespace HumbleNet.PeerServer

open Program

section

variable {env : Externals} {s : Server} {self : ConnPtr} {this : P2PSignalConnection}

/-- The connection that a game lists under an id. -/
def Target (s : Server) (this : P2PSignalConnection) (peer : PeerId) (conn : ConnPtr) : Prop :=
  ∃ game, GameOf s this game ∧ game.peers.lookup peer = some conn

/-- What the case of a message reads is present, and the connection it looks up is open. -/
def MsgReady (s : Server) (self : ConnPtr) (this : P2PSignalConnection) (m : Message) : Prop :=
  if this.peerId = 0 then m ≠ .helloServer none
  else
    match m with
    | .p2pOffer body => ∃ p, body = some p ∧ (p.flags &&& emulatedFlag = 0 →
        ∀ conn, Target s this p.peerId conn → ∃ c, s.connections.lookup conn = some c ∧
          (c.webRTCsupport = true → p.offer ≠ none))
    | .p2pAnswer body => ∃ p, body = some p ∧
        ∀ conn, Target s this p.peerId conn → ∃ c, s.connections.lookup conn = some c ∧
          c.peerId = p.peerId ∧ (self ∈ c.connectedPeers → p.offer ≠ none)
    | .iceCandidate body => ∃ p, body = some p ∧
        ∀ conn, Target s this p.peerId conn → p.offer ≠ none ∧ conn ∈ s.connections
    | .p2pReject body => ∃ p, body = some p ∧
        ∀ conn, Target s this p.peerId conn →
          p.reason = rejectPeerRefused ∨ p.reason = rejectNotFound → conn ∈ s.connections
    | .p2pRelayData body => ∃ p, body = some p ∧ p.data ≠ none ∧
        ∀ conn, Target s this p.peerId conn → conn ∈ s.connections
    | .aliasRegister body => body ≠ none
    | .aliasUnregister body => body ≠ none
    | .aliasLookup body => body ≠ none
    | _ => True

theorem GameOf.unique {game game' : Game} (h : GameOf s this game) (h' : GameOf s this game') :
    game = game' := by
  obtain ⟨g, hg, known⟩ := h
  obtain ⟨g', hg', known'⟩ := h'
  rw [hg] at hg'
  cases hg'
  rw [known] at known'
  exact Option.some.inj known'

theorem GameOf.target_iff {game : Game} (h : GameOf s this game) {peer : PeerId}
    {conn : ConnPtr} : Target s this peer conn ↔ game.peers.lookup peer = some conn := by
  constructor
  · rintro ⟨game', h', found⟩
    rw [h.unique h']
    exact found
  · exact fun found => ⟨game, h, found⟩

/-! ### Completing, step by step -/

section completes

variable {α : Type}

theorem completes_field_bind {β : Type} {o : Option β} {f : β → ServerM α} :
    Completes (field o >>= f) s ↔ ∃ a, o = some a ∧ Completes (f a) s := by
  cases o with
  | none => simp [Completes]
  | some a => simp [Completes]

theorem completes_deref_bind {conn : ConnPtr} {f : P2PSignalConnection → ServerM α} :
    Completes (deref conn >>= f) s ↔
      ∃ c, s.connections.lookup conn = some c ∧ Completes (f c) s := by
  simp only [Completes, returns_deref_bind]
  constructor
  · rintro ⟨a, t, c, live, h⟩
    exact ⟨c, live, a, t, h⟩
  · rintro ⟨c, live, a, t, h⟩
    exact ⟨a, t, c, live, h⟩

theorem completes_this_bind (here : s.connections.lookup self = some this)
    {f : P2PSignalConnection → ServerM α} :
    Completes (deref self >>= f) s ↔ Completes (f this) s := by
  simp only [Completes, returns_this_bind here]

theorem completes_game_bind {game : Game} (gameOf : GameOf s this game)
    {f : Game → ServerM α} :
    Completes (derefGame this.game >>= f) s ↔ Completes (f game) s :=
  completes_bind (returns_derefGame_of.mpr ⟨gameOf, rfl⟩)

theorem completes_modify_bind {g : Server → Server} {f : PUnit → ServerM α} :
    Completes (modify g >>= f) s ↔ Completes (f ⟨⟩) (g s) :=
  completes_bind (returns_modify.mpr rfl)

theorem completes_modifyGet_bind {β : Type} {g : Server → β × Server} {f : β → ServerM α} :
    Completes (modifyGet g >>= f) s ↔ Completes (f (g s).1) (g s).2 :=
  completes_bind (returns_modifyGet.mpr rfl)

theorem completes_send {dest : ConnPtr} {msg : Message} {a : Bool} :
    Completes (sendP2PMessage env dest msg >>= fun _ => pure a) s ↔
      ∃ c, s.connections.lookup dest = some c := by
  simp only [Completes, returns_send]
  constructor
  · rintro ⟨_, _, _, live, _⟩
    exact live
  · exact fun live => ⟨_, _, rfl, live, rfl⟩

theorem completes_updateAliases {game : Game} (gameOf : GameOf s this game) {f : Game → Game}
    {a : Bool} : Completes (updateAliases this.game f >>= fun _ => pure a) s :=
  ⟨_, _, (returns_updateAliases gameOf).mpr ⟨rfl, rfl⟩⟩

theorem live_updateConnection {conn other : ConnPtr}
    {f : P2PSignalConnection → P2PSignalConnection} :
    (∃ c, (s.updateConnection conn f).connections.lookup other = some c) ↔
      ∃ c, s.connections.lookup other = some c := by
  simp only [Server.updateConnection, StdMap.lookup_modify]
  split
  · rename_i eq
    subst eq
    simp
  · rfl

end completes

/-! ### The cases of the switch -/

section handlers

variable {game : Game}

theorem offer_completes (here : s.connections.lookup self = some this)
    (gameOf : GameOf s this game) {msg : Option P2POffer} :
    Completes (processP2POffer env self msg) s ↔
      ∃ p, msg = some p ∧ (p.flags &&& emulatedFlag = 0 →
        ∀ conn, game.peers.lookup p.peerId = some conn →
          ∃ c, s.connections.lookup conn = some c ∧
            (c.webRTCsupport = true → p.offer ≠ none)) := by
  simp only [processP2POffer, completes_field_bind, completes_this_bind here]
  refine exists_congr fun p => and_congr_right fun _ => ?_
  split
  · rename_i emulated
    simp only [sendNoSuchPeer, completes_send, here, emulated, false_imp_iff, iff_true]
    exact ⟨this, rfl⟩
  · rename_i direct
    simp only [completes_game_bind gameOf, not_not.mp direct, forall_true_left]
    cases found : AList.lookup p.peerId game.peers with
    | none =>
      simp only [reduceCtorEq, false_imp_iff, implies_true, iff_true]
      exact completes_send.mpr ⟨this, here⟩
    | some conn =>
      simp only [completes_deref_bind, Option.some.injEq, forall_eq']
      refine exists_congr fun c => and_congr_right fun live => ?_
      cases able : c.webRTCsupport with
      | false =>
        simp only [Bool.false_eq_true, false_imp_iff, iff_true]
        exact completes_send.mpr ⟨this, here⟩
      | true =>
        simp only [Bool.not_true, Bool.false_eq_true, if_false, completes_modify_bind,
          completes_field_bind, sendP2PConnect, completes_send, live_updateConnection, live,
          Option.ne_none_iff_exists', forall_true_left]
        exact exists_congr fun _ => and_iff_left ⟨c, rfl⟩

theorem answer_completes (here : s.connections.lookup self = some this)
    (gameOf : GameOf s this game) {msg : Option P2PAnswer} :
    Completes (processP2PAnswer env self msg) s ↔
      ∃ p, msg = some p ∧ ∀ conn, game.peers.lookup p.peerId = some conn →
        ∃ c, s.connections.lookup conn = some c ∧ c.peerId = p.peerId ∧
          (self ∈ c.connectedPeers → p.offer ≠ none) := by
  simp only [processP2PAnswer, completes_field_bind, completes_this_bind here,
    completes_game_bind gameOf]
  refine exists_congr fun p => and_congr_right fun _ => ?_
  cases found : AList.lookup p.peerId game.peers with
  | none =>
    simp only [reduceCtorEq, false_imp_iff, implies_true, iff_true]
    exact completes_send.mpr ⟨this, here⟩
  | some conn =>
    simp only [completes_deref_bind, Option.some.injEq, forall_eq']
    refine exists_congr fun c => and_congr_right fun live => ?_
    split
    · rename_i wrong
      simp [wrong]
    · rename_i right
      simp only [not_not.mp right, true_and]
      split
      · rename_i unasked
        simp only [unasked, false_imp_iff, iff_true]
        exact completes_send.mpr ⟨this, here⟩
      · rename_i asked
        simp only [completes_modify_bind, completes_field_bind, sendP2PResponse, completes_send,
          live_updateConnection, live, Option.ne_none_iff_exists', not_not.mp asked,
          forall_true_left]
        exact exists_congr fun _ => and_iff_left ⟨c, rfl⟩

theorem candidate_completes (here : s.connections.lookup self = some this)
    (gameOf : GameOf s this game) {msg : Option ICECandidate} :
    Completes (processICECandidate env self msg) s ↔
      ∃ p, msg = some p ∧ ∀ conn, game.peers.lookup p.peerId = some conn →
        p.offer ≠ none ∧ conn ∈ s.connections := by
  simp only [processICECandidate, completes_field_bind, completes_this_bind here,
    completes_game_bind gameOf]
  refine exists_congr fun p => and_congr_right fun _ => ?_
  cases found : AList.lookup p.peerId game.peers with
  | none =>
    simp only [reduceCtorEq, false_imp_iff, implies_true, iff_true]
    exact completes_send.mpr ⟨this, here⟩
  | some conn =>
    simp only [completes_field_bind, sendICECandidate, completes_send, Option.some.injEq,
      forall_eq', Option.ne_none_iff_exists', StdMap.mem_iff_lookup, exists_and_right]

theorem reject_completes (here : s.connections.lookup self = some this)
    (gameOf : GameOf s this game) {msg : Option P2PReject} :
    Completes (processP2PReject env self msg) s ↔
      ∃ p, msg = some p ∧ ∀ conn, game.peers.lookup p.peerId = some conn →
        p.reason = rejectPeerRefused ∨ p.reason = rejectNotFound → conn ∈ s.connections := by
  simp only [processP2PReject, completes_field_bind, completes_this_bind here,
    completes_game_bind gameOf]
  refine exists_congr fun p => and_congr_right fun _ => ?_
  cases found : AList.lookup p.peerId game.peers with
  | none => simp
  | some conn =>
    simp only [Option.some.injEq, forall_eq']
    split
    · rename_i reason
      simp only [sendPeerRefused, completes_send, reason, forall_true_left,
        StdMap.mem_iff_lookup]
    · rename_i reason
      simp [reason]

theorem relay_completes (here : s.connections.lookup self = some this)
    (gameOf : GameOf s this game) {msg : Option P2PRelayData} :
    Completes (processP2PRelayData env self msg) s ↔
      ∃ p, msg = some p ∧ p.data ≠ none ∧
        ∀ conn, game.peers.lookup p.peerId = some conn → conn ∈ s.connections := by
  simp only [processP2PRelayData, completes_field_bind, completes_this_bind here,
    completes_game_bind gameOf]
  refine exists_congr fun p => and_congr_right fun _ => ?_
  cases found : AList.lookup p.peerId game.peers with
  | none =>
    simp only [reduceCtorEq, false_imp_iff, implies_true, and_true,
      Option.ne_none_iff_exists']
    exact exists_congr fun data => and_iff_left (completes_send.mpr ⟨this, here⟩)
  | some conn =>
    simp only [sendP2PRelayData, completes_send, Option.some.injEq, forall_eq',
      Option.ne_none_iff_exists', StdMap.mem_iff_lookup, exists_and_right]

theorem register_completes (here : s.connections.lookup self = some this)
    (gameOf : GameOf s this game) {msg : Option AliasRegister} :
    Completes (processAliasRegister self msg) s ↔ msg ≠ none := by
  simp only [processAliasRegister, completes_field_bind, completes_this_bind here,
    completes_game_bind gameOf, Option.ne_none_iff_exists']
  refine exists_congr fun p => and_iff_left ?_
  split
  · exact completes_pure
  · exact completes_updateAliases gameOf

theorem unregister_completes (here : s.connections.lookup self = some this)
    (gameOf : GameOf s this game) {msg : Option AliasUnregister} :
    Completes (processAliasUnregister self msg) s ↔ msg ≠ none := by
  simp only [processAliasUnregister, completes_field_bind, completes_this_bind here,
    completes_game_bind gameOf, Option.ne_none_iff_exists']
  refine exists_congr fun p => and_iff_left ?_
  split
  · split
    · exact completes_updateAliases gameOf
    · exact completes_pure
  · exact completes_updateAliases gameOf

theorem lookup_completes (here : s.connections.lookup self = some this)
    (gameOf : GameOf s this game) {msg : Option AliasLookup} :
    Completes (processAliasLookup env self msg) s ↔ msg ≠ none := by
  simp only [processAliasLookup, completes_field_bind, completes_this_bind here,
    completes_game_bind gameOf, Option.ne_none_iff_exists']
  refine exists_congr fun p => and_iff_left ?_
  split
  · exact completes_send.mpr ⟨this, here⟩
  · exact completes_send.mpr ⟨this, here⟩

theorem hello_completes (here : s.connections.lookup self = some this)
    {msg : Option HelloServer} :
    Completes (processHelloServer env self msg) s ↔ this.peerId ≠ 0 ∨ msg ≠ none := by
  simp only [processHelloServer, completes_this_bind here]
  split
  · rename_i seated
    simp [seated]
  · rename_i seated
    simp only [seated, completes_field_bind, false_or, Option.ne_none_iff_exists']
    refine exists_congr fun hello => and_iff_left ?_
    split
    · exact completes_pure
    · rw [completes_modifyGet_bind, completes_modify_bind]
      obtain ⟨_, conns, exist⟩ := getVerifiedGame_books env s hello
      cases found : (getVerifiedGame env hello s).1 with
      | none => exact completes_pure
      | some g =>
        obtain ⟨game, known⟩ := exist g found
        have game_there : Returns (derefGame (some g))
            ((getVerifiedGame env hello s).2.updateConnection self
              fun c => { c with game := some g }) game _ :=
          returns_derefGame.mpr ⟨⟨g, rfl, known⟩, rfl⟩
        simp only [completes_bind game_there, completes_modify_bind,
          completes_bind (returns_get.mpr ⟨rfl, rfl⟩), sendHelloClient, completes_send]
        simp only [live_updateConnection, Server.updateGame, conns]
        exact ⟨this, here⟩

end handlers

theorem processMsg_completes (here : s.connections.lookup self = some this)
    (seat : this.peerId ≠ 0 → ∃ game, GameOf s this game) (m : Message) :
    Completes (processMsg env self m) s ↔ MsgReady s self this m := by
  simp only [processMsg, completes_this_bind here]
  by_cases unseated : this.peerId = 0
  · simp only [MsgReady, unseated, true_and]
    cases m with
    | helloServer body =>
      simp only [Message.messageType, ne_eq, not_true, if_false, dispatch]
      rw [hello_completes here]
      simp [unseated]
    | _ => simp [Message.messageType]
  · obtain ⟨game, gameOf⟩ := seat unseated
    simp only [MsgReady, unseated, false_and, if_false, gameOf.target_iff]
    cases m with
    | p2pOffer body => exact offer_completes here gameOf
    | p2pAnswer body => exact answer_completes here gameOf
    | iceCandidate body => exact candidate_completes here gameOf
    | p2pReject body => exact reject_completes here gameOf
    | p2pRelayData body => exact relay_completes here gameOf
    | aliasRegister body => exact register_completes here gameOf
    | aliasUnregister body => exact unregister_completes here gameOf
    | aliasLookup body => exact lookup_completes here gameOf
    | helloServer body => exact iff_of_true ((hello_completes here).mpr (Or.inl unseated)) trivial
    | _ => exact iff_of_true completes_pure trivial

end

theorem active_books {env : Externals} {s : Server} (active : Active env s) :
    Registry.Run Registry.empty s.registry := by
  induction active with
  | idle reached => exact reach_books reached
  | arrived _ ih =>
    exact ih.trans (Books.of_eq (registry_updateConnection_same fun _ => ⟨rfl, rfl, rfl⟩))
  | processed _ returns ih =>
    exact (ih.trans (processMsg_books _ _ _ _ _ returns)).trans
      (Books.of_eq (registry_updateConnection_same fun _ => ⟨rfl, rfl, rfl⟩))

theorem Registry.Linked.seat {s : Server} (linked : s.registry.Linked) {self : ConnPtr}
    {this : P2PSignalConnection} (here : s.connections.lookup self = some this)
    (seated : this.peerId ≠ 0) : ∃ game, GameOf s this game := by
  obtain ⟨g, hg⟩ := Option.ne_none_iff_exists'.mp
    (linked.seated self _ (registry_member here) seated)
  obtain ⟨_, hro⟩ := Option.ne_none_iff_exists'.mp
    (linked.known self _ g (registry_member here) hg)
  obtain ⟨game, known, _⟩ := Option.map_eq_some_iff.mp hro
  exact ⟨game, g, hg, known⟩

theorem Registry.Linked.open_under {s : Server} (linked : s.registry.Linked)
    (exact_s : s.registry.Exact) {this : P2PSignalConnection} (peer : PeerId) (conn : ConnPtr)
    (target : Target s this peer conn) :
    ∃ c, s.connections.lookup conn = some c ∧ c.peerId = peer := by
  obtain ⟨game, ⟨g, _, known⟩, listed⟩ := target
  obtain ⟨_, _, c, _, live, _, id⟩ := (peers_iff_openAs linked exact_s known peer conn).mp listed
  exact ⟨c, live, id⟩

/-- In every state in which a message can be processed: the message runs to completion
exactly if it is ready, a peer with an id has a game, and until a game has handed out all
its ids, whoever the peer table names is open under that id. -/
theorem processMsg_completes_iff {env : Externals} {s : Server} (active : Active env s)
    (self : ConnPtr) {this : P2PSignalConnection} (here : s.connections.lookup self = some this)
    (m : Message) :
    (Completes (processMsg env self m) s ↔ MsgReady s self this m) ∧
    (this.peerId ≠ 0 → ∃ game, GameOf s this game) ∧
    ((∀ g, s.idsHandedOut g < 2 ^ 32 - 1) → ∀ peer conn, Target s this peer conn →
      ∃ c, s.connections.lookup conn = some c ∧ c.peerId = peer) := by
  have linked : s.registry.Linked := Registry.linked_empty.run (active_books active)
  have seat := linked.seat here
  refine ⟨processMsg_completes here seat m, seat, fun few => ?_⟩
  exact linked.open_under
    (Registry.exact_empty.run Registry.linked_empty (active_books active) few)

/-- A peer that has said hello relays nothing to nobody. -/
theorem relay_with_data_completes :
    ∃ env s, Active env s ∧
      Completes (processMsg env 10 (.p2pRelayData (some ⟨7, some []⟩))) s := by
  let env : Externals := ⟨64, fun _ => true,
    fun _ => .helloServer (some ⟨0, 1, [0x67], [], none, none, none⟩),
    fun _ => ⟨[], by decide⟩, fun _ => ⟨List.replicate 20 0, rfl⟩⟩
  have start : Reach env (Server.new (.anonymous 0 ∅) []) :=
    .start (show GameDB.Initial (.anonymous 0 ∅) from ⟨rfl, rfl⟩) []
  have opened : Reach env _ :=
    .callback start (show Allowed _ (.established 1 10) from ⟨by decide, by decide⟩) rfl
  have greeted : Reach env _ :=
    .callback opened
      (show Allowed _ (.receive 1 [0, 0, 0, 0, 0, 0, 0, 0] fun _ => []) from trivial) rfl
  have iff :=
    (processMsg_completes_iff (.idle greeted) 10 rfl (.p2pRelayData (some ⟨7, some []⟩))).1
  refine ⟨env, _, .idle greeted, iff.mpr ⟨_, rfl, by simp, ?_⟩⟩
  rintro conn ⟨game, ⟨g, hg, known⟩, listed⟩
  cases hg
  cases known
  cases listed

/-- A hello without a body stops the server at a connection that has sent nothing yet, and
relay data without its vector stops it at one that has said hello. -/
theorem absent_body_faults :
    ∃ env s t, Active env s ∧ s.connections.lookup 10 ≠ none ∧
      ¬ Completes (processMsg env 10 (.helloServer none)) s ∧
      Active env t ∧ t.connections.lookup 10 ≠ none ∧
      ¬ Completes (processMsg env 10 (.p2pRelayData (some ⟨7, none⟩))) t := by
  let env : Externals := ⟨64, fun _ => true,
    fun _ => .helloServer (some ⟨0, 1, [0x67], [], none, none, none⟩),
    fun _ => ⟨[], by decide⟩, fun _ => ⟨List.replicate 20 0, rfl⟩⟩
  have start : Reach env (Server.new (.anonymous 0 ∅) []) :=
    .start (show GameDB.Initial (.anonymous 0 ∅) from ⟨rfl, rfl⟩) []
  have opened : Reach env _ :=
    .callback start (show Allowed _ (.established 1 10) from ⟨by decide, by decide⟩) rfl
  have greeted : Reach env _ :=
    .callback opened
      (show Allowed _ (.receive 1 [0, 0, 0, 0, 0, 0, 0, 0] fun _ => []) from trivial) rfl
  refine ⟨env, _, _, .idle opened, by rintro ⟨⟩, ?_, .idle greeted, by rintro ⟨⟩, ?_⟩
  · rintro ⟨b, t, h⟩
    have stops : (Except.error Fault.absent : Except Fault (Bool × Server)) = .ok (b, t) := h
    cases stops
  · rintro ⟨b, t, h⟩
    have stops : (Except.error Fault.absent : Except Fault (Bool × Server)) = .ok (b, t) := h
    cases stops

end HumbleNet.PeerServer
