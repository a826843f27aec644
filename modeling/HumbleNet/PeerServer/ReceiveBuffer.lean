import HumbleNet.Lib.Mirror
import HumbleNet.PeerServer.Touched

/-! Processing a message never looks at a receive buffer: with another buffer the server stops
at the same fault, or does the same and keeps that buffer. -/
namespace HumbleNet.PeerServer

open Program

def Server.withBuf (conn : ConnPtr) (bytes : Bytes) (s : Server) : Server :=
  s.updateConnection conn fun c => { c with recvBuf := bytes }

def Rebuffered (c c' : P2PSignalConnection) : Prop := ∃ bytes, c' = { c with recvBuf := bytes }

/-- The state with another receive buffer. -/
abbrev Swapped (conn : ConnPtr) (bytes : Bytes) (s s' : Server) : Prop := s' = s.withBuf conn bytes

section

variable {env : Externals} {conn : ConnPtr} {bytes : Bytes}

theorem lookup_withBuf (other : ConnPtr) (s : Server) :
    (s.withBuf conn bytes).connections.lookup other =
      (s.connections.lookup other).map fun c =>
        if other = conn then { c with recvBuf := bytes } else c :=
  updateConnection_lookup s conn other _

theorem mirrors_deref (other : ConnPtr) :
    Mirrors (Swapped conn bytes) Rebuffered (deref other) (deref other) := by
  refine mirrors_bind mirrors_get ?_
  rintro s _ rfl
  rw [lookup_withBuf]
  cases s.connections.lookup other with
  | none => exact mirrors_fault _
  | some c =>
    refine mirrors_pure ?_
    by_cases same : other = conn
    · exact ⟨bytes, if_pos same⟩
    · exact ⟨c.recvBuf, if_neg same⟩

theorem mirrors_field {α : Type} (o : Option α) :
    Mirrors (Swapped conn bytes) Eq (field o) (field o) := by
  cases o with
  | none => exact mirrors_fault _
  | some a => exact mirrors_pure rfl

theorem mirrors_derefGame (game : Option GameId) :
    Mirrors (Swapped conn bytes) Eq (derefGame game) (derefGame game) := by
  cases game with
  | none => exact mirrors_fault _
  | some g =>
    refine mirrors_bind mirrors_get ?_
    intro s t swapped
    have same : t.games = s.games := by
      rw [swapped]
      rfl
    rw [same]
    cases s.games.lookup g with
    | none => exact mirrors_fault _
    | some game => exact mirrors_pure rfl

theorem mirrors_assign (other : ConnPtr) {f : P2PSignalConnection → P2PSignalConnection}
    (blind : ∀ c bytes, f { c with recvBuf := bytes } = { f c with recvBuf := bytes }) :
    Mirrors (Swapped conn bytes) (fun _ _ => True)
      (modify fun s => s.updateConnection other f : ServerM Unit)
      (modify fun s => s.updateConnection other f) := by
  refine mirrors_modify ?_
  rintro s _ rfl
  have both := StdMap.modify_comm (a := other) (b := conn) (fun c => blind c bytes) s.connections
  exact congrArg (fun connections => ({ s with connections := connections } : Server)) both

theorem mirrors_elsewhere {f : Server → Server}
    (blind : ∀ s, f (s.withBuf conn bytes) = (f s).withBuf conn bytes) :
    Mirrors (Swapped conn bytes) (fun _ _ => True) (modify f : ServerM Unit) (modify f) := by
  refine mirrors_modify ?_
  rintro s _ rfl
  exact blind s

theorem mirrors_sendP2PMessage (dest : ConnPtr) (msg : Message) :
    Mirrors (Swapped conn bytes) (fun _ _ => True) (sendP2PMessage env dest msg)
      (sendP2PMessage env dest msg) := by
  refine mirrors_bind (mirrors_deref dest) ?_
  rintro c _ ⟨other, rfl⟩
  refine mirrors_bind (mirrors_assign dest fun _ _ => rfl) fun _ _ _ => ?_
  dsimp only
  split
  · exact mirrors_elsewhere fun _ => rfl
  · exact mirrors_pure trivial

theorem mirrors_send (dest : ConnPtr) (msg : Message) (b : Bool) :
    Mirrors (Swapped conn bytes) Eq (sendP2PMessage env dest msg >>= fun _ => pure b)
      (sendP2PMessage env dest msg >>= fun _ => pure b) :=
  mirrors_bind (mirrors_sendP2PMessage dest msg) fun _ _ _ => mirrors_pure rfl

variable (self : ConnPtr)

theorem mirrors_offer (msg : Option P2POffer) :
    Mirrors (Swapped conn bytes) Eq (processP2POffer env self msg)
      (processP2POffer env self msg) := by
  refine mirrors_bind (mirrors_field msg) ?_
  rintro p2p _ rfl
  refine mirrors_bind (mirrors_deref self) ?_
  rintro this _ ⟨_, rfl⟩
  dsimp only
  split
  · exact mirrors_send _ _ _
  · refine mirrors_bind (mirrors_derefGame _) ?_
    rintro game _ rfl
    cases game.peers.lookup p2p.peerId with
    | none => exact mirrors_send _ _ _
    | some otherPeer =>
      refine mirrors_bind (mirrors_deref otherPeer) ?_
      rintro other _ ⟨_, rfl⟩
      dsimp only
      split
      · exact mirrors_send _ _ _
      · refine mirrors_bind (mirrors_assign self fun _ _ => rfl) fun _ _ _ => ?_
        refine mirrors_bind (mirrors_field _) ?_
        rintro offer _ rfl
        exact mirrors_send _ _ _

theorem mirrors_answer (msg : Option P2PAnswer) :
    Mirrors (Swapped conn bytes) Eq (processP2PAnswer env self msg)
      (processP2PAnswer env self msg) := by
  refine mirrors_bind (mirrors_field msg) ?_
  rintro p2p _ rfl
  refine mirrors_bind (mirrors_deref self) ?_
  rintro this _ ⟨_, rfl⟩
  refine mirrors_bind (mirrors_derefGame _) ?_
  rintro game _ rfl
  dsimp only
  cases game.peers.lookup p2p.peerId with
  | none => exact mirrors_send _ _ _
  | some otherPeer =>
    refine mirrors_bind (mirrors_deref otherPeer) ?_
    rintro other _ ⟨_, rfl⟩
    dsimp only
    split
    · exact mirrors_fault _
    · split
      · exact mirrors_send _ _ _
      · refine mirrors_bind (mirrors_assign self fun _ _ => rfl) fun _ _ _ => ?_
        refine mirrors_bind (mirrors_field _) ?_
        rintro offer _ rfl
        exact mirrors_send _ _ _

theorem mirrors_candidate (msg : Option ICECandidate) :
    Mirrors (Swapped conn bytes) Eq (processICECandidate env self msg)
      (processICECandidate env self msg) := by
  refine mirrors_bind (mirrors_field msg) ?_
  rintro p2p _ rfl
  refine mirrors_bind (mirrors_deref self) ?_
  rintro this _ ⟨_, rfl⟩
  refine mirrors_bind (mirrors_derefGame _) ?_
  rintro game _ rfl
  dsimp only
  cases game.peers.lookup p2p.peerId with
  | none => exact mirrors_send _ _ _
  | some otherPeer =>
    refine mirrors_bind (mirrors_field _) ?_
    rintro offer _ rfl
    exact mirrors_send _ _ _

theorem mirrors_reject (msg : Option P2PReject) :
    Mirrors (Swapped conn bytes) Eq (processP2PReject env self msg)
      (processP2PReject env self msg) := by
  refine mirrors_bind (mirrors_field msg) ?_
  rintro p2p _ rfl
  refine mirrors_bind (mirrors_deref self) ?_
  rintro this _ ⟨_, rfl⟩
  refine mirrors_bind (mirrors_derefGame _) ?_
  rintro game _ rfl
  dsimp only
  cases game.peers.lookup p2p.peerId with
  | none => exact mirrors_pure rfl
  | some otherPeer =>
    dsimp only
    split
    · exact mirrors_send _ _ _
    · exact mirrors_pure rfl

theorem mirrors_relay (msg : Option P2PRelayData) :
    Mirrors (Swapped conn bytes) Eq (processP2PRelayData env self msg)
      (processP2PRelayData env self msg) := by
  refine mirrors_bind (mirrors_field msg) ?_
  rintro relay _ rfl
  refine mirrors_bind (mirrors_field _) ?_
  rintro data _ rfl
  refine mirrors_bind (mirrors_deref self) ?_
  rintro this _ ⟨_, rfl⟩
  refine mirrors_bind (mirrors_derefGame _) ?_
  rintro game _ rfl
  dsimp only
  cases game.peers.lookup relay.peerId with
  | none => exact mirrors_send _ _ _
  | some otherPeer => exact mirrors_send _ _ _

theorem mirrors_updateAliases (game : Option GameId) (f : Game → Game) (b : Bool) :
    Mirrors (Swapped conn bytes) Eq (updateAliases game f >>= fun _ => pure b)
      (updateAliases game f >>= fun _ => pure b) := by
  cases game with
  | none => exact mirrors_fault _
  | some g =>
    exact mirrors_bind (mirrors_elsewhere fun _ => rfl) fun _ _ _ => mirrors_pure rfl

theorem mirrors_register (msg : Option AliasRegister) :
    Mirrors (Swapped conn bytes) Eq (processAliasRegister self msg)
      (processAliasRegister self msg) := by
  refine mirrors_bind (mirrors_field msg) ?_
  rintro reg _ rfl
  refine mirrors_bind (mirrors_deref self) ?_
  rintro this _ ⟨_, rfl⟩
  refine mirrors_bind (mirrors_derefGame _) ?_
  rintro game _ rfl
  dsimp only
  cases game.aliases.lookup (cStr reg.aliasName) with
  | some _ => exact mirrors_pure rfl
  | none => exact mirrors_updateAliases _ _ _

theorem mirrors_unregister (msg : Option AliasUnregister) :
    Mirrors (Swapped conn bytes) Eq (processAliasUnregister self msg)
      (processAliasUnregister self msg) := by
  refine mirrors_bind (mirrors_field msg) ?_
  rintro unreg _ rfl
  refine mirrors_bind (mirrors_deref self) ?_
  rintro this _ ⟨_, rfl⟩
  refine mirrors_bind (mirrors_derefGame _) ?_
  rintro game _ rfl
  dsimp only
  cases unreg.aliasName with
  | none => exact mirrors_updateAliases _ _ _
  | some aliasName =>
    dsimp only
    split
    · exact mirrors_updateAliases _ _ _
    · exact mirrors_pure rfl

theorem mirrors_lookup (msg : Option AliasLookup) :
    Mirrors (Swapped conn bytes) Eq (processAliasLookup env self msg)
      (processAliasLookup env self msg) := by
  refine mirrors_bind (mirrors_field msg) ?_
  rintro lookup _ rfl
  refine mirrors_bind (mirrors_deref self) ?_
  rintro this _ ⟨_, rfl⟩
  refine mirrors_bind (mirrors_derefGame _) ?_
  rintro game _ rfl
  cases game.aliases.lookup (cStr lookup.aliasName) with
  | some existing => exact mirrors_send _ _ _
  | none => exact mirrors_send _ _ _

theorem getVerifiedGame_withBuf (hello : HelloServer) (s : Server) :
    (getVerifiedGame env hello (s.withBuf conn bytes)).1 = (getVerifiedGame env hello s).1 ∧
      (getVerifiedGame env hello (s.withBuf conn bytes)).2 =
        (getVerifiedGame env hello s).2.withBuf conn bytes := by
  have games : (s.withBuf conn bytes).games = s.games := rfl
  have gameDB : (s.withBuf conn bytes).gameDB = s.gameDB := rfl
  simp only [getVerifiedGame, games, gameDB]
  cases (s.gameDB.findByToken (cStr hello.gameToken)).1 with
  | none => exact ⟨rfl, rfl⟩
  | some record =>
    dsimp only
    split
    · exact ⟨rfl, rfl⟩
    · cases s.games.lookup record.gameId with
      | none => exact ⟨rfl, rfl⟩
      | some game => exact ⟨rfl, rfl⟩

theorem mirrors_hello (msg : Option HelloServer) :
    Mirrors (Swapped conn bytes) Eq (processHelloServer env self msg)
      (processHelloServer env self msg) := by
  refine mirrors_bind (mirrors_deref self) ?_
  rintro this _ ⟨_, rfl⟩
  dsimp only
  split
  · exact mirrors_pure rfl
  · refine mirrors_bind (mirrors_field msg) ?_
    rintro hello _ rfl
    split
    · exact mirrors_pure rfl
    · refine mirrors_bind (V := Eq) (mirrors_modifyGet ?_) ?_
      · rintro s _ rfl
        exact ⟨(getVerifiedGame_withBuf hello s).1.symm, (getVerifiedGame_withBuf hello s).2⟩
      · rintro found _ rfl
        refine mirrors_bind (mirrors_assign self fun _ _ => rfl) fun _ _ _ => ?_
        cases found with
        | none => exact mirrors_pure rfl
        | some g =>
          refine mirrors_bind (mirrors_derefGame _) ?_
          rintro game _ rfl
          refine mirrors_bind (mirrors_elsewhere fun _ => rfl) fun _ _ _ => ?_
          refine mirrors_bind (mirrors_assign self fun _ _ => rfl) fun _ _ _ => ?_
          refine mirrors_bind (mirrors_elsewhere fun _ => rfl) fun _ _ _ => ?_
          refine mirrors_bind (mirrors_assign self fun _ _ => rfl) fun _ _ _ => ?_
          refine mirrors_bind mirrors_get ?_
          rintro s _ rfl
          exact mirrors_send _ _ _

theorem mirrors_dispatch (msg : Message) :
    Mirrors (Swapped conn bytes) Eq (dispatch env self msg) (dispatch env self msg) := by
  cases msg with
  | p2pOffer msg => exact mirrors_offer self msg
  | p2pAnswer msg => exact mirrors_answer self msg
  | iceCandidate msg => exact mirrors_candidate self msg
  | p2pReject msg => exact mirrors_reject self msg
  | helloServer msg => exact mirrors_hello self msg
  | p2pRelayData msg => exact mirrors_relay self msg
  | aliasRegister msg => exact mirrors_register self msg
  | aliasUnregister msg => exact mirrors_unregister self msg
  | aliasLookup msg => exact mirrors_lookup self msg
  | _ => exact mirrors_pure rfl

theorem mirrors_processMsg (msg : Message) :
    Mirrors (Swapped conn bytes) Eq (processMsg env self msg) (processMsg env self msg) := by
  refine mirrors_bind (mirrors_deref self) ?_
  rintro this _ ⟨_, rfl⟩
  dsimp only
  split
  · exact mirrors_pure rfl
  · exact mirrors_dispatch self msg

end

end HumbleNet.PeerServer
