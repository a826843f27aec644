import HumbleNet.Client.Runs
import HumbleNet.Client.Signaling
import HumbleNet.Lib.Blind

/-! What a client does with a message does not depend on what else has arrived: while a message
is processed nobody looks at the receive buffer of the signaling connection, and the connection
stays what it is. -/
namespace HumbleNet.Client

open Guarded

def State.withRecv (bytes : Bytes) (s : State) : State :=
  { s with p2pConn := s.p2pConn.map fun conn => { conn with recvBuf := bytes } }

theorem withRecv_withRecv (bytes more : Bytes) (s : State) :
    (s.withRecv bytes).withRecv more = s.withRecv more := by
  cases h : s.p2pConn <;> simp [State.withRecv, h]

theorem withRecv_self {s : State} {conn : P2PSignalConnection} (here : s.p2pConn = some conn) :
    s.withRecv conn.recvBuf = s := by
  have same : s.p2pConn.map (fun c => { c with recvBuf := conn.recvBuf }) = s.p2pConn := by
    rw [here]
    rfl
  exact congrArg (fun p2pConn => ({ s with p2pConn := p2pConn } : State)) same

/-- The receive buffer goes unnoticed. -/
abbrev Unseen {α : Type} (x : ClientM α) : Prop :=
  ∀ bytes, Blind Query.Allowed (State.withRecv bytes) State.p2pConn x

section

variable {α : Type} {env : Externals}

theorem allowed_withRecv (bytes : Bytes) (q : Query) (s : State) (a : q.Answer)
    (allowed : q.Allowed s a s) : q.Allowed (s.withRecv bytes) a (s.withRecv bytes) := by
  cases q <;> exact allowed

theorem unseen_ask (q : Query) : Unseen (ask q) :=
  fun bytes => blind_ask (allowed_withRecv bytes q)

theorem unseen_unguarded (q : Query) : Unseen (unguarded q) :=
  fun bytes => blind_unguarded (allowed_withRecv bytes q)

theorem unseen_pure (a : α) : Unseen (pure a) := fun _ => blind_pure a

theorem unseen_fault (e : Fault) : Unseen (fault e : ClientM α) := fun _ => blind_fault e

theorem unseen_bind {β : Type} {x : ClientM α} {f : α → ClientM β} (hx : Unseen x)
    (hf : ∀ a, Unseen (f a)) : Unseen (x >>= f) :=
  fun bytes => blind_bind (hx bytes) fun a => hf a bytes

theorem unseen_get {β : Type} {f : State → ClientM β} (hf : ∀ s, Unseen (f s))
    (same : ∀ bytes s, f (s.withRecv bytes) = f s) : Unseen (get >>= f) :=
  fun bytes => blind_get (fun s => hf s bytes) (same bytes)

theorem unseen_modify {g : State → State}
    (commute : ∀ bytes s, g (s.withRecv bytes) = (g s).withRecv bytes)
    (keeps : ∀ s, (g s).p2pConn = s.p2pConn) : Unseen (modify g) :=
  fun bytes => blind_modify (commute bytes) keeps

theorem unseen_modifyTables (f : Tables → Tables) : Unseen (modifyTables f) :=
  unseen_modify (fun _ _ => rfl) fun _ => rfl

theorem unseen_doWhen {c : Prop} [Decidable c] {x : ClientM Unit} (hx : Unseen x) :
    Unseen (doWhen c x) :=
  fun bytes => blind_doWhen (hx bytes)

theorem unseen_through (e : Fault) (o : Option α) : Unseen (through e o) := by
  cases o with
  | none => exact unseen_fault e
  | some a => exact unseen_pure a

theorem unseen_field (o : Option α) : Unseen (field o) := unseen_through _ o

theorem unseen_assert (c : Prop) [Decidable c] (a : Assertion) : Unseen (assert c a) := by
  unfold assert
  split
  · exact unseen_pure ()
  · exact unseen_fault _

theorem unseen_deref (conn : ConnPtr) : Unseen (deref conn) :=
  unseen_get (fun _ => unseen_through _ _) fun _ _ => rfl

theorem unseen_derefSocket (socket : SocketPtr) : Unseen (derefSocket socket) :=
  unseen_get (fun _ => unseen_through _ _) fun _ _ => rfl

/-! ### Connections -/

theorem unseen_assign (conn : ConnPtr) (f : Connection → Connection) : Unseen (assign conn f) :=
  unseen_bind (unseen_deref conn) fun _ => unseen_modifyTables _

theorem unseen_internalSetData (socket : Option SocketPtr) (userData : Option ConnPtr) :
    Unseen (internalSetData socket userData) := by
  cases socket with
  | none => exact unseen_fault _
  | some socket => exact unseen_bind (unseen_derefSocket socket) fun _ => unseen_modifyTables _

theorem unseen_internalCloseSocket (socket : SocketPtr) : Unseen (internalCloseSocket socket) := by
  refine unseen_bind (unseen_derefSocket socket) fun it => ?_
  split
  · exact unseen_unguarded _
  · exact unseen_bind (unseen_modifyTables _) fun _ => unseen_unguarded _

theorem unseen_internalCreateWebrtc : Unseen internalCreateWebrtc := by
  refine unseen_get (fun s => ?_) fun _ _ => rfl
  cases s.context with
  | none => exact unseen_fault _
  | some context =>
    dsimp only
    split
    · refine unseen_bind (unseen_unguarded _) fun _ => unseen_bind (unseen_ask _) fun _ => ?_
      exact unseen_bind (unseen_modify (fun _ _ => rfl) fun _ => rfl) fun _ => unseen_pure _
    · exact unseen_bind (unseen_unguarded _) fun _ => unseen_pure _

theorem unseen_derefUnopened (socket : Option SocketPtr) : Unseen (derefUnopened socket) := by
  cases socket with
  | none => exact unseen_fault _
  | some socket =>
    exact unseen_bind (unseen_derefSocket socket) fun _ =>
      unseen_bind (unseen_assert _ _) fun _ => unseen_pure _

theorem unseen_sendP2PMessage (msg : Message) : Unseen (sendP2PMessage env msg) := by
  refine unseen_get (fun s => ?_) fun bytes s => ?_
  · cases s.p2pConn with
    | none => exact unseen_pure _
    | some conn =>
      dsimp only
      cases conn.wsi with
      | none => exact unseen_pure _
      | some wsi => exact unseen_bind (unseen_unguarded _) fun _ => unseen_pure _
  · cases here : s.p2pConn with
    | none => simp only [State.withRecv, here, Option.map_none]
    | some conn => simp only [State.withRecv, here, Option.map_some]

theorem unseen_blacklistPeer (peer : PeerId) : Unseen (blacklistPeer peer) :=
  unseen_bind (unseen_ask _) fun _ => unseen_modify (fun _ _ => rfl) fun _ => rfl

theorem unseen_isPeerBlacklisted (peer : PeerId) : Unseen (isPeerBlacklisted peer) := by
  refine unseen_get (fun s => ?_) fun _ _ => rfl
  cases s.peerBlacklist.lookup peer with
  | none => exact unseen_pure _
  | some till =>
    exact unseen_bind (unseen_ask _) fun now =>
      unseen_bind (unseen_doWhen (unseen_modify (fun _ _ => rfl) fun _ => rfl)) fun _ =>
        unseen_pure _

theorem unseen_closeSocket (conn : ConnPtr) : Unseen (closeSocket conn) := by
  refine unseen_bind (unseen_deref conn) fun c => ?_
  cases c.socket with
  | none => exact unseen_pure _
  | some socket =>
    exact unseen_bind (unseen_modify (fun _ _ => rfl) fun _ => rfl) fun _ =>
      unseen_bind (unseen_internalSetData _ _) fun _ =>
        unseen_bind (unseen_internalCloseSocket socket) fun _ => unseen_assign conn _

theorem unseen_setClosed (conn : ConnPtr) (deleted : Bool) : Unseen (setClosed conn deleted) := by
  refine unseen_bind (unseen_closeSocket conn) fun _ => unseen_bind (unseen_deref conn) fun c => ?_
  refine unseen_bind (unseen_doWhen (unseen_blacklistPeer _)) fun _ => ?_
  exact unseen_bind (unseen_ask _) fun _ => unseen_bind (unseen_modifyTables _) fun _ =>
    unseen_modifyTables _

theorem unseen_connectionClose (conn : ConnPtr) : Unseen (humblenetConnectionClose conn) := by
  refine unseen_bind (unseen_setClosed conn true) fun _ => ?_
  refine unseen_bind (unseen_modify (fun _ _ => rfl) fun _ => rfl) fun _ => ?_
  refine unseen_bind (unseen_modify (fun _ _ => rfl) fun _ => rfl) fun _ => ?_
  exact unseen_bind (unseen_ask _) fun _ => unseen_modify (fun _ _ => rfl) fun _ => rfl

theorem unseen_newConnection (connection : Connection) (peer : Option PeerId) :
    Unseen (newConnection connection peer) :=
  unseen_bind (unseen_ask _) fun _ => unseen_bind (unseen_ask _) fun _ =>
    unseen_bind (unseen_modifyTables _) fun _ => unseen_pure _

/-! ### Messages -/

theorem unseen_offer (msg : Option P2POffer) : Unseen (processP2POffer env msg) := by
  refine unseen_bind (unseen_field msg) fun p2p => ?_
  refine unseen_get (fun s => ?_) fun bytes s => ?_
  · dsimp only
    split
    · exact unseen_pure _
    · refine unseen_bind (unseen_doWhen ?_) fun _ => ?_
      · exact unseen_bind (unseen_assert _ _) fun _ =>
          unseen_bind (unseen_sendP2PMessage _) fun _ => unseen_pure _
      refine unseen_bind unseen_internalCreateWebrtc fun socket => ?_
      refine unseen_bind (unseen_newConnection _ _) fun connection => ?_
      refine unseen_bind (unseen_ask _) fun _ => unseen_bind (unseen_internalSetData _ _) fun _ => ?_
      refine unseen_bind (unseen_modify (fun _ _ => rfl) fun _ => rfl) fun _ => ?_
      refine unseen_bind (unseen_field _) fun offer => unseen_bind ?_ fun ret => ?_
      · exact unseen_bind (unseen_derefUnopened _) fun _ => unseen_unguarded _
      refine unseen_bind (unseen_doWhen ?_) fun _ => unseen_pure _
      exact unseen_bind (unseen_connectionClose _) fun _ =>
        unseen_bind (unseen_sendP2PMessage _) fun _ => unseen_pure _
  · have known : assert ((s.withRecv bytes).p2pConn ≠ none) .offerSignal =
        assert (s.p2pConn ≠ none) .offerSignal := by
      cases here : s.p2pConn <;> simp [assert, State.withRecv, here]
    dsimp only
    rw [known]
    rfl

theorem unseen_answer (msg : Option P2PAnswer) : Unseen (processP2PAnswer msg) := by
  refine unseen_bind (unseen_field msg) fun p2p => unseen_bind (unseen_ask _) fun _ => ?_
  refine unseen_get (fun s => ?_) fun _ _ => rfl
  cases s.pendingPeerConnectionsOut.lookup p2p.peerId with
  | none => exact unseen_pure _
  | some conn =>
    refine unseen_bind (unseen_deref conn) fun c => unseen_bind (unseen_assert _ _) fun _ => ?_
    refine unseen_bind (unseen_assert _ _) fun _ => unseen_bind (unseen_assert _ _) fun _ => ?_
    refine unseen_bind (unseen_field _) fun offer => unseen_bind ?_ fun ret => ?_
    · exact unseen_bind (unseen_derefUnopened _) fun _ => unseen_unguarded _
    · exact unseen_bind (unseen_doWhen (unseen_setClosed conn false)) fun _ => unseen_pure _

theorem unseen_helloClient (msg : Option HelloClient) : Unseen (processHelloClient msg) := by
  refine unseen_bind (unseen_field msg) fun hello => unseen_bind (unseen_ask _) fun _ => ?_
  refine unseen_bind (unseen_modify (fun _ _ => rfl) fun _ => rfl) fun _ => ?_
  refine unseen_get (fun s => ?_) fun _ _ => rfl
  dsimp only
  split
  · exact unseen_pure _
  · refine unseen_bind (unseen_modify (fun _ _ => rfl) fun _ => rfl) fun _ => ?_
    refine unseen_bind (unseen_get (fun s => ?_) fun _ _ => rfl) fun _ => unseen_pure _
    cases s.context with
    | none => exact unseen_fault _
    | some context => exact unseen_modify (fun _ _ => rfl) fun _ => rfl

theorem unseen_candidate (msg : Option ICECandidate) : Unseen (processICECandidate msg) := by
  refine unseen_bind (unseen_field msg) fun candidate => ?_
  refine unseen_get (fun s => ?_) fun _ _ => rfl
  split
  · exact unseen_pure _
  · refine unseen_bind (unseen_deref _) fun c => ?_
    split
    · refine unseen_bind (unseen_field _) fun offer => unseen_bind ?_ fun _ => unseen_pure _
      exact unseen_bind (unseen_derefSocket _) fun _ => unseen_unguarded _
    · exact unseen_pure _

theorem unseen_reject (msg : Option P2PReject) : Unseen (processP2PReject msg) := by
  refine unseen_bind (unseen_field msg) fun reject => ?_
  refine unseen_get (fun s => ?_) fun _ _ => rfl
  cases s.pendingPeerConnectionsOut.lookup reject.peerId with
  | none => exact unseen_pure _
  | some conn =>
    exact unseen_bind (unseen_blacklistPeer _) fun _ =>
      unseen_bind (unseen_setClosed conn false) fun _ => unseen_pure _

theorem unseen_findOtherPeer (peer : PeerId) (conns : List ConnPtr) :
    Unseen (findOtherPeer peer conns) := by
  induction conns with
  | nil => exact unseen_pure _
  | cons conn rest ih =>
    refine unseen_bind (unseen_deref conn) fun c => ?_
    split
    · exact unseen_pure _
    · exact ih

theorem unseen_relay (msg : Option P2PRelayData) : Unseen (processP2PRelayData msg) := by
  refine unseen_bind (unseen_field msg) fun relay => unseen_bind (unseen_field _) fun data => ?_
  refine unseen_get (fun s => ?_) fun _ _ => rfl
  refine unseen_bind (unseen_ask _) fun walked =>
    unseen_bind (unseen_findOtherPeer _ _) fun found => ?_
  cases found with
  | none => exact unseen_pure _
  | some conn =>
    refine unseen_bind (unseen_ask _) fun _ => unseen_bind (unseen_modifyTables _) fun _ => ?_
    exact unseen_bind (unseen_modify (fun _ _ => rfl) fun _ => rfl) fun _ => unseen_pure _

theorem unseen_aliasResolvedTo (aliasName : Bytes) (peer : PeerId) :
    Unseen (internalAliasResolvedTo aliasName peer) := by
  refine unseen_get (fun s => ?_) fun _ _ => rfl
  cases s.pendingAliasConnectionsOut.lookup aliasName with
  | none => exact unseen_pure _
  | some connection =>
    refine unseen_bind (unseen_modify (fun _ _ => rfl) fun _ => rfl) fun _ => ?_
    split
    · exact unseen_setClosed connection false
    · refine unseen_bind (unseen_assign _ _) fun _ => unseen_bind (unseen_ask _) fun _ => ?_
      refine unseen_bind (unseen_modify (fun _ _ => rfl) fun _ => rfl) fun _ => ?_
      refine unseen_bind (unseen_isPeerBlacklisted peer) fun listed => ?_
      split
      · exact unseen_bind (unseen_modify (fun _ _ => rfl) fun _ => rfl) fun _ =>
          unseen_setClosed connection false
      · refine unseen_bind unseen_internalCreateWebrtc fun socket => ?_
        refine unseen_bind (unseen_ask _) fun _ => unseen_bind (unseen_assign _ _) fun _ => ?_
        refine unseen_bind (unseen_unguarded _) fun _ => unseen_bind (unseen_deref _) fun c => ?_
        refine unseen_bind (unseen_ask _) fun _ =>
          unseen_bind (unseen_internalSetData _ _) fun _ => unseen_bind ?_ fun ret => ?_
        · exact unseen_bind (unseen_derefUnopened _) fun _ => unseen_unguarded _
        · exact unseen_doWhen (unseen_setClosed connection false)

theorem unseen_logged {β : Type} (msg : Option β) : Unseen (processLogged msg) :=
  unseen_bind (unseen_field msg) fun _ => unseen_pure _

theorem unseen_process (msg : Message) : Unseen (p2pSignalProcess env msg) := by
  cases msg with
  | p2pOffer msg => exact unseen_offer msg
  | p2pAnswer msg => exact unseen_answer msg
  | helloClient msg => exact unseen_helloClient msg
  | iceCandidate msg => exact unseen_candidate msg
  | p2pReject msg => exact unseen_reject msg
  | p2pConnected msg => exact unseen_logged msg
  | p2pDisconnect msg => exact unseen_logged msg
  | p2pRelayData msg => exact unseen_relay msg
  | aliasResolved msg =>
    exact unseen_bind (unseen_field msg) fun _ => unseen_bind (unseen_aliasResolvedTo _ _) fun _ =>
      unseen_pure _
  | _ => exact unseen_pure _

end

end HumbleNet.Client
