import HumbleNet.PeerServer.Reaction
import HumbleNet.PeerServer.Registry

/-! The server keeps the registry's books: each callback is a run of its steps, so the
peer table of each game is exact in every state the server reaches. -/
namespace HumbleNet.PeerServer

open Program Function

def Server.registry (s : Server) : Registry Wsi ConnPtr GameId where
  owner wsi := s.signalConnections.lookup wsi
  member conn := (s.connections.lookup conn).map fun c => ⟨c.wsi, c.peerId, c.game⟩
  roster g := (s.games.lookup g).map fun game =>
    ⟨game.nextPeerId, fun peerId => game.peers.lookup peerId⟩
  issued g := s.handedOut.countP (·.1 = g)

/-- How many ids a game has handed out. -/
def Server.idsHandedOut (s : Server) (g : GameId) : Nat := s.handedOut.countP (·.1 = g)

section books

variable {env : Externals} {s t : Server} {self : ConnPtr} {this : P2PSignalConnection}

theorem registry_member {conn : ConnPtr} {c : P2PSignalConnection}
    (h : s.connections.lookup conn = some c) :
    s.registry.member conn = some ⟨c.wsi, c.peerId, c.game⟩ := by
  simp only [Server.registry, h, Option.map_some]

theorem registry_roster {g : GameId} {game : Game} (h : s.games.lookup g = some game) :
    s.registry.roster g = some ⟨game.nextPeerId, fun peerId => game.peers.lookup peerId⟩ := by
  simp only [Server.registry, h, Option.map_some]

theorem registry_updateConnection_same {conn : ConnPtr}
    {f : P2PSignalConnection → P2PSignalConnection}
    (same : ∀ c, (f c).wsi = c.wsi ∧ (f c).peerId = c.peerId ∧ (f c).game = c.game) :
    (s.updateConnection conn f).registry = s.registry := by
  ext x
  · rfl
  · simp only [Server.registry, Server.updateConnection, StdMap.lookup_modify]
    split
    · rename_i eq
      subst eq
      cases s.connections.lookup x with
      | none => rfl
      | some c =>
        obtain ⟨h1, h2, h3⟩ := same c
        simp only [Option.map_some, h1, h2, h3]
    · rfl
  · rfl
  · rfl

theorem registry_updateGame_same {g : GameId} {f : Game → Game}
    (same : ∀ game, (f game).nextPeerId = game.nextPeerId ∧ (f game).peers = game.peers) :
    (s.updateGame g f).registry = s.registry := by
  ext x
  · rfl
  · rfl
  · simp only [Server.registry, Server.updateGame, StdMap.lookup_modify]
    split
    · rename_i eq
      subst eq
      cases s.games.lookup x with
      | none => rfl
      | some game =>
        obtain ⟨h1, h2⟩ := same game
        simp only [Option.map_some, h1, h2]
    · rfl
  · rfl

theorem registry_queue (dest : ConnPtr) (msg : Message) :
    (s.queue env dest msg).registry = s.registry := by
  have sent : (s.updateConnection dest fun c =>
      { c with sendBuf := c.sendBuf ++ p2pMessageFrame (env.finish msg).bytes }).registry =
      s.registry :=
    registry_updateConnection_same fun _ => ⟨rfl, rfl, rfl⟩
  unfold Server.queue
  dsimp only
  split
  · split
    · exact sent
    · exact sent
  · rfl

theorem registry_updateGameOf {f : Game → Game}
    (same : ∀ game, (f game).nextPeerId = game.nextPeerId ∧ (f game).peers = game.peers) :
    (s.updateGameOf this f).registry = s.registry := by
  unfold Server.updateGameOf
  split
  · exact registry_updateGame_same same
  · rfl

theorem getVerifiedGame_books (env : Externals) (s : Server) (hello : HelloServer) :
    Registry.Run s.registry (getVerifiedGame env hello s).2.registry ∧
      (getVerifiedGame env hello s).2.connections = s.connections ∧
      ∀ g, (getVerifiedGame env hello s).1 = some g →
        ∃ game, (getVerifiedGame env hello s).2.games.lookup g = some game := by
  unfold getVerifiedGame
  dsimp only
  split
  · exact ⟨.refl, rfl, by simp⟩
  · rename_i record _
    split
    · exact ⟨.refl, rfl, by simp⟩
    · split
      · rename_i game known
        refine ⟨.refl, rfl, ?_⟩
        rintro g ⟨⟩
        exact ⟨game, known⟩
      · rename_i fresh
        refine ⟨.single ?_, rfl, ?_⟩
        · have created : Registry.Step s.registry _ :=
            .created (r := s.registry) (g := record.gameId)
              (by simp only [Server.registry, fresh, Option.map_none])
          convert created using 1
          ext g : 2
          · rfl
          · rfl
          · simp only [Server.registry, StdMap.lookup_emplace_new _ _ _ _ fresh, update_apply]
            split
            · rfl
            · rfl
          · rfl
        · rintro g ⟨⟩
          exact ⟨_, by rw [StdMap.lookup_emplace_new _ _ _ _ fresh, if_pos rfl]⟩

theorem named_books (here : s.connections.lookup self = some this) (unseated : this.peerId = 0)
    (game : Option GameId) (known : ∀ g, game = some g → ∃ x, s.games.lookup g = some x) :
    Registry.Step s.registry
      (s.updateConnection self fun c => { c with game := game }).registry := by
  have exist : ∀ g, game = some g → ∃ ro, s.registry.roster g = some ro := by
    intro g hg
    obtain ⟨x, hx⟩ := known g hg
    exact ⟨_, registry_roster hx⟩
  have named := Registry.Step.named (registry_member here) unseated exist
  convert named using 1
  ext c : 2
  · rfl
  · simp only [Server.registry, Server.updateConnection, StdMap.lookup_modify, update_apply]
    split
    · rename_i eq
      subst eq
      simp only [here, Option.map_some]
    · rfl
  · rfl
  · rfl

theorem enroll_books (here : s.connections.lookup self = some this) (unseated : this.peerId = 0)
    {g : GameId} {game : Game} (known : s.games.lookup g = some game) (hello : HelloServer) :
    Registry.Run s.registry (s.enroll self hello g game.nextPeerId).registry := by
  have named := named_books here unseated (some g) (by
    rintro _ ⟨⟩
    exact ⟨game, known⟩)
  have there : (s.updateConnection self fun c => { c with game := some g }).connections.lookup
      self = some { this with game := some g } := by
    simp only [Server.updateConnection, StdMap.lookup_modify, if_true, here, Option.map_some]
  have joined := Registry.Step.joined (registry_member there) unseated rfl
    (registry_roster (s := s.updateConnection self fun c => { c with game := some g }) known)
  refine .tail (.single named) ?_
  convert joined using 1
  ext x : 2
  · rfl
  · simp only [Server.registry, Server.enroll, Server.updateConnection, Server.updateGame,
      StdMap.lookup_modify, update_apply]
    split
    · rename_i eq
      subst eq
      simp only [here, Option.map_some]
    · rfl
  · simp only [Server.registry, Server.enroll, Server.updateConnection, Server.updateGame,
      StdMap.lookup_modify, update_apply]
    split
    · rename_i eq
      subst eq
      simp only [known, Option.map_some, Registry.Roster.join, Game.generateNewPeerId,
        Option.some.injEq, Roster.mk.injEq, true_and]
      funext peerId
      rw [StdMap.lookup_emplace, update_apply]
    · rfl
  · simp only [Server.registry, Server.enroll, Server.updateConnection, Server.updateGame,
      List.countP_cons, update_apply]
    by_cases eq : x = g
    · subst eq
      simp only [decide_true, if_true]
    · simp only [Ne.symm eq, eq, decide_false, Bool.false_eq_true, if_false, Nat.add_zero]

theorem reacts_books (here : s.connections.lookup self = some this) {m : Message} {b : Bool}
    {e : Effect} (reacts : Reacts env s self this m b e) :
    Registry.Run s.registry (e.apply env self this s).registry := by
  have same : ∀ {t : Server}, t.registry = s.registry → Registry.Run s.registry t.registry := by
    intro t h
    rw [h]
  have connected : ∀ dest msg, (Effect.apply env self this s (.connect dest msg)).registry =
      s.registry := by
    intro dest msg
    rw [Effect.apply, registry_queue]
    exact registry_updateConnection_same fun _ => ⟨rfl, rfl, rfl⟩
  cases reacts with
  | helloRefused unseated able game =>
    obtain ⟨run, conns, -⟩ := getVerifiedGame_books env s _
    exact .tail run (named_books (by rw [conns]; exact here) unseated none (by simp))
  | @helloAdmitted hello g unseated able game =>
    obtain ⟨run, conns, exist⟩ := getVerifiedGame_books env s hello
    obtain ⟨x, hx⟩ := exist g game
    have enrolled := enroll_books (by rw [conns]; exact here) unseated hx hello
    refine run.trans ?_
    simp only [Effect.apply, hx, Option.map_some, Option.getD_some, registry_queue]
    exact enrolled
  | offerForwarded => exact same (connected _ _)
  | answerForwarded => exact same (connected _ _)
  | registered => exact same (registry_updateGameOf fun _ => ⟨rfl, rfl⟩)
  | unregistered => exact same (registry_updateGameOf fun _ => ⟨rfl, rfl⟩)
  | unregisteredAll => exact same (registry_updateGameOf fun _ => ⟨rfl, rfl⟩)
  | offerEmulated => exact same (registry_queue _ _)
  | offerMissing => exact same (registry_queue _ _)
  | offerRefused => exact same (registry_queue _ _)
  | answerMissing => exact same (registry_queue _ _)
  | answerUnasked => exact same (registry_queue _ _)
  | candidateMissing => exact same (registry_queue _ _)
  | candidateForwarded => exact same (registry_queue _ _)
  | rejectForwarded => exact same (registry_queue _ _)
  | relayMissing => exact same (registry_queue _ _)
  | relayForwarded => exact same (registry_queue _ _)
  | lookedUp => exact same (registry_queue _ _)
  | rejectMissing => exact .refl
  | rejectUnknown => exact .refl
  | helloAgain => exact .refl
  | helloWithoutWebRTC => exact .refl
  | registerTaken => exact .refl
  | unregisterRejected => exact .refl
  | ignored => exact .refl

end books

/-- The relation every callback follows. -/
def Books (s t : Server) : Prop := Registry.Run s.registry t.registry

theorem Books.refl (s : Server) : Books s s := Relation.ReflTransGen.refl

theorem Books.trans (s t u : Server) (h : Books s t) (k : Books t u) : Books s u :=
  Relation.ReflTransGen.trans h k

theorem Books.of_eq {s t : Server} (h : t.registry = s.registry) : Books s t := by
  rw [Books, h]

section callbacks

variable {env : Externals}

theorem processMsg_books (self : ConnPtr) (m : Message) :
    Follows Books (processMsg env self m) := by
  intro s b t h
  have live : ∃ this, s.connections.lookup self = some this := by
    rw [processMsg, returns_deref_bind] at h
    obtain ⟨this, here, _⟩ := h
    exact ⟨this, here⟩
  obtain ⟨this, here⟩ := live
  rcases processMsg_cases here h with ⟨_, _, _, rfl⟩ | ⟨_, e, reacts, rfl⟩
  · exact Books.refl _
  · exact reacts_books here reacts

theorem modifyConnection_books {conn : ConnPtr} {f : P2PSignalConnection → P2PSignalConnection}
    (same : ∀ c, (f c).wsi = c.wsi ∧ (f c).peerId = c.peerId ∧ (f c).game = c.game) :
    Follows Books (modify fun s => s.updateConnection conn f : ServerM Unit) := by
  intro s _ t h
  rw [returns_modify.mp h]
  exact Books.of_eq (registry_updateConnection_same same)

theorem deref_books (conn : ConnPtr) : Follows Books (deref conn) := by
  intro s c t h
  rw [(returns_deref.mp h).2]
  exact Books.refl s

theorem receive_follows {R : Server → Server → Prop} (refl : ∀ s, R s s)
    (trans : ∀ s t u, R s t → R t u → R s u) {wsi : Wsi} {data : Bytes} {pastEnd : Bytes → Bytes}
    {s t : Server} {retval : Int} (returns : Returns (receive env wsi data pastEnd) s retval t)
    (arrived : ∀ conn u, s.signalConnections.lookup wsi = some conn →
      R u (u.updateConnection conn fun c => { c with recvBuf := c.recvBuf ++ data }))
    (erased : ∀ conn size u, s.signalConnections.lookup wsi = some conn →
      R u (u.updateConnection conn fun c => { c with recvBuf := c.recvBuf.drop size }))
    (message : ∀ conn msg u b v, s.signalConnections.lookup wsi = some conn →
      Returns (processMsg env conn msg) u b v → R u v) : R s t := by
  rw [receive, returns_bind] at returns
  obtain ⟨_, _, got, returns⟩ := returns
  obtain ⟨rfl, rfl⟩ := returns_get.mp got
  have looks : ∀ conn, Follows R (deref conn) := by
    intro conn u _ v h
    rw [(returns_deref.mp h).2]
    exact refl u
  split at returns
  · obtain ⟨_, rfl⟩ := returns_pure.mp returns
    exact refl _
  · rename_i conn owned
    have assigns : ∀ f : P2PSignalConnection → P2PSignalConnection,
        (∀ u : Server, R u (u.updateConnection conn f)) →
        Follows R (modify fun s => s.updateConnection conn f : ServerM Unit) := by
      intro f all u _ v h
      rw [returns_modify.mp h]
      exact all u
    refine follows_bind trans (assigns _ fun u => arrived conn u owned)
      (fun _ => follows_bind trans (looks conn) fun it =>
        follows_bind trans ?_ fun retval => follows_pure refl _) _ _ _ returns
    refine follows_parseMessage refl trans ?_ ?_ (follows_fault _) ?_ _
    · exact follows_bind trans (looks conn) fun _ => follows_pure refl _
    · exact fun size => assigns _ fun u => erased conn size u owned
    · exact fun buff u b v h => message conn _ u b v owned h

theorem receive_books (wsi : Wsi) (data : Bytes) (pastEnd : Bytes → Bytes) :
    Follows Books (receive env wsi data pastEnd) := by
  intro s retval t returns
  apply receive_follows Books.refl Books.trans returns
  · exact fun conn u _ => Books.of_eq (registry_updateConnection_same fun _ => ⟨rfl, rfl, rfl⟩)
  · exact fun conn size u _ => Books.of_eq (registry_updateConnection_same fun _ => ⟨rfl, rfl, rfl⟩)
  · exact fun conn msg u b v _ h => processMsg_books conn msg u b v h

theorem writeable_books (wsi : Wsi) (retval : Int) : Follows Books (writeable wsi retval) := by
  have trigger : ∀ w, Follows Books (triggerWrite w) := by
    intro w s _ t h
    rw [returns_modify.mp h]
    exact Books.of_eq rfl
  refine follows_bind Books.trans ?_ fun s => ?_
  · intro s _ t h
    rw [(returns_get.mp h).2]
    exact Books.refl s
  · split
    · exact follows_pure Books.refl _
    · refine follows_bind Books.trans (deref_books _) fun c => ?_
      split
      · exact follows_pure Books.refl _
      split
      · exact follows_pure Books.refl _
      split
      · exact follows_pure Books.refl _
      split
      · exact follows_fault _
      refine follows_bind Books.trans (modifyConnection_books fun _ => ⟨rfl, rfl, rfl⟩)
        fun _ => ?_
      split
      · exact follows_pure Books.refl _
      · exact follows_bind Books.trans (trigger _) fun _ => follows_pure Books.refl _

theorem established_books {wsi : Wsi} {conn : ConnPtr} {s t : Server} {retval : Int}
    (allowed : Allowed s (.established wsi conn))
    (h : Returns (established wsi conn) s retval t) : Books s t := by
  simp only [established, returns_bind, returns_modify, returns_pure, if_neg allowed.1] at h
  obtain ⟨_, _, rfl, _, rfl⟩ := h
  have newWsi : s.signalConnections.lookup wsi = none := AList.lookup_eq_none.mpr allowed.1
  have newConn : s.connections.lookup conn = none := AList.lookup_eq_none.mpr allowed.2
  have opened : Registry.Step s.registry _ :=
    .opened (r := s.registry) (w := wsi) (c := conn) newWsi
      (by simp only [Server.registry, newConn, Option.map_none])
  refine .single ?_
  convert opened using 1
  ext x : 2
  · simp only [Server.registry, StdMap.lookup_emplace_new _ _ _ _ newWsi, update_apply]
  · simp only [Server.registry, StdMap.lookup_insert_if, update_apply]
    split
    · rfl
    · rfl
  · rfl
  · rfl

def Server.drop (s : Server) (wsi : Wsi) (conn : ConnPtr) : Server :=
  { s with
    signalConnections := s.signalConnections.erase wsi
    connections := s.connections.erase conn }

theorem closed_cases {wsi : Wsi} {s t : Server} {retval : Int}
    (h : Returns (closed wsi) s retval t) :
    (s.signalConnections.lookup wsi = none ∧ t = s) ∨
      ∃ conn c, s.signalConnections.lookup wsi = some conn ∧
        s.connections.lookup conn = some c ∧
        ((c.peerId = 0 ∧ t = s.drop wsi conn) ∨
          ∃ g game, c.peerId ≠ 0 ∧ c.game = some g ∧ s.games.lookup g = some game ∧
            t = (s.updateGame g fun game => Game.erasePeerAliases c.peerId
              { game with peers := game.peers.erase c.peerId }).drop wsi conn) := by
  simp only [closed, returns_bind, returns_get] at h
  obtain ⟨_, _, ⟨rfl, rfl⟩, h⟩ := h
  split at h
  · rename_i missing
    obtain ⟨_, rfl⟩ := returns_pure.mp h
    exact Or.inl ⟨missing, rfl⟩
  · rename_i conn owned
    rw [returns_deref_bind] at h
    obtain ⟨c, live, h⟩ := h
    refine Or.inr ⟨conn, c, owned, live, ?_⟩
    split at h
    · rename_i seated
      obtain ⟨_, s1, removed, h⟩ := returns_bind.mp h
      simp only [returns_bind, returns_modify, returns_pure] at h
      obtain ⟨_, s2, rfl, _, rfl⟩ := h
      refine Or.inr ?_
      unfold removePeer at removed
      split at removed
      · exact absurd removed returns_fault
      · rename_i g game
        rw [game, returns_bind] at removed
        obtain ⟨x, s2, hx, removed⟩ := removed
        obtain ⟨⟨_, ⟨⟩, known⟩, rfl⟩ := returns_derefGame.mp hx
        split at removed
        · simp only [returns_bind, returns_modify] at removed
          obtain ⟨_, s3, rfl, rfl⟩ := removed
          refine ⟨g, x, seated, game, known, ?_⟩
          simp only [Server.updateGame, StdMap.modify_modify, Server.drop]
        · exact absurd removed returns_fault
    · rename_i unseated
      simp only [returns_bind, returns_modify, returns_pure] at h
      obtain ⟨_, s2, rfl, _, rfl⟩ := h
      exact Or.inl ⟨not_not.mp unseated, rfl⟩

theorem closed_books (wsi : Wsi) : Follows Books (closed wsi) := by
  intro s retval t h
  rcases closed_cases h with ⟨_, rfl⟩ | ⟨conn, c, owned, live, unseated | seated⟩
  · exact Books.refl _
  · obtain ⟨unseated, rfl⟩ := unseated
    refine .single ?_
    convert Registry.Step.dropped (r := s.registry) owned (registry_member live) unseated using 1
    ext x : 2
    · simp only [Server.registry, Server.drop, StdMap.lookup_erase_if, update_apply]
    · simp only [Server.registry, Server.drop, StdMap.lookup_erase_if, update_apply]
      split
      · rfl
      · rfl
    · rfl
    · rfl
  · obtain ⟨g, game, seated, hg, known, rfl⟩ := seated
    refine .single ?_
    convert Registry.Step.left (r := s.registry) owned (registry_member live) seated hg
      (registry_roster known) using 1
    ext x : 2
    · simp only [Server.registry, Server.drop, Server.updateGame, StdMap.lookup_erase_if,
        update_apply]
    · simp only [Server.registry, Server.drop, Server.updateGame, StdMap.lookup_erase_if,
        update_apply]
      split
      · rfl
      · rfl
    · simp only [Server.registry, Server.drop, Server.updateGame, StdMap.lookup_modify,
        update_apply]
      split
      · rename_i eq
        subst eq
        simp only [known, Option.map_some, Game.erasePeerAliases, Registry.Roster.leave,
          Option.some.injEq, Roster.mk.injEq, true_and]
        funext peerId
        rw [StdMap.lookup_erase_if, update_apply]
      · rfl
    · rfl

theorem callback_books {s t : Server} {event : LwsEvent} {retval : Int}
    (allowed : Allowed s event) (h : Returns (callbackHumblepeer env event) s retval t) :
    Books s t := by
  cases event with
  | established wsi conn => exact established_books allowed h
  | closed wsi => exact closed_books wsi s retval t h
  | receive wsi data pastEnd => exact receive_books wsi data pastEnd s retval t h
  | writeable wsi written =>
    obtain ⟨_, u, asked, h⟩ := returns_bind.mp h
    have same : u.registry = s.registry := by
      rw [returns_modify.mp asked]
      rfl
    exact Books.trans s u t (Books.of_eq same) (writeable_books wsi written u retval t h)

end callbacks

theorem reach_books {env : Externals} {s : Server} (reached : Reach env s) :
    Registry.Run Registry.empty s.registry := by
  induction reached with
  | start _ _ => exact Relation.ReflTransGen.refl
  | callback _ allowed returns ih => exact ih.trans (callback_books allowed returns)

theorem reach_linked {env : Externals} {s : Server} (reached : Reach env s) :
    s.registry.Linked :=
  Registry.linked_empty.run (reach_books reached)

theorem reach_exact {env : Externals} {s : Server} (reached : Reach env s)
    (few : ∀ g, s.idsHandedOut g < 2 ^ 32 - 1) : s.registry.Exact :=
  Registry.exact_empty.run Registry.linked_empty (reach_books reached) few

def OpenAs (s : Server) (conn : ConnPtr) (g : GameId) (peerId : PeerId) : Prop :=
  ∃ wsi c, s.signalConnections.lookup wsi = some conn ∧ s.connections.lookup conn = some c ∧
    c.game = some g ∧ c.peerId = peerId

theorem openAs_of_live {s : Server} (linked : s.registry.Linked) {conn : ConnPtr}
    {c : P2PSignalConnection} (live : s.connections.lookup conn = some c) {g : GameId}
    (game : c.game = some g) : OpenAs s conn g c.peerId :=
  ⟨c.wsi, c, linked.owns conn _ (registry_member live), live, game, rfl⟩

theorem peers_iff_openAs {s : Server} (linked : s.registry.Linked) (exact_s : s.registry.Exact)
    {g : GameId} {game : Game} (known : s.games.lookup g = some game) (peerId : PeerId)
    (conn : ConnPtr) : game.peers.lookup peerId = some conn ↔
      peerId ≠ 0 ∧ OpenAs s conn g peerId := by
  have roster := registry_roster known
  constructor
  · intro listed
    have nonzero := exact_s.nonzero g _ peerId conn roster listed
    obtain ⟨m, hm⟩ := Option.ne_none_iff_exists'.mp
      (exact_s.open_conn g _ peerId conn roster listed)
    obtain ⟨hg, hid⟩ := exact_s.listed g _ peerId conn m roster listed hm
    obtain ⟨c, live, rfl⟩ := Option.map_eq_some_iff.mp hm
    exact ⟨nonzero, hid ▸ openAs_of_live linked live hg⟩
  · rintro ⟨nonzero, wsi, c, _, live, hg, rfl⟩
    exact exact_s.present conn _ g _ (registry_member live) hg nonzero roster

theorem openAs_unique {s : Server} (linked : s.registry.Linked) (exact_s : s.registry.Exact)
    {g : GameId} {peerId : PeerId} {conn conn' : ConnPtr} (nonzero : peerId ≠ 0)
    (h : OpenAs s conn g peerId) (h' : OpenAs s conn' g peerId) : conn = conn' := by
  obtain ⟨wsi, c, _, live, game, _⟩ := id h
  obtain ⟨_, hro⟩ := Option.ne_none_iff_exists'.mp
    (linked.known conn _ g (registry_member live) game)
  obtain ⟨x, known, _⟩ := Option.map_eq_some_iff.mp hro
  have one := (peers_iff_openAs linked exact_s known peerId conn).mpr ⟨nonzero, h⟩
  have two := (peers_iff_openAs linked exact_s known peerId conn').mpr ⟨nonzero, h'⟩
  rw [one] at two
  exact Option.some.inj two

theorem removePeer_returns {s : Server} {c : P2PSignalConnection} {g : GameId} {game : Game}
    (hg : c.game = some g) (known : s.games.lookup g = some game)
    (listed : c.peerId ∈ game.peers) :
    ∃ t, Returns (removePeer c) s () t := by
  have found : Returns (derefGame (some g)) s game s :=
    returns_derefGame.mpr ⟨⟨g, rfl, known⟩, rfl⟩
  refine ⟨(s.updateGame g fun game => { game with peers := game.peers.erase c.peerId }).updateGame
    g fun game => game.erasePeerAliases c.peerId, ?_⟩
  simp only [removePeer, hg]
  refine returns_bind.mpr ⟨game, s, found, ?_⟩
  rw [if_pos listed]
  exact returns_bind.mpr ⟨(), _, returns_modify.mpr rfl, returns_modify.mpr rfl⟩

theorem closed_completes {s : Server} (linked : s.registry.Linked)
    (exact_s : s.registry.Exact) (wsi : Wsi) : Completes (closed wsi) s := by
  unfold closed
  rw [completes_bind (returns_get.mpr ⟨rfl, rfl⟩)]
  cases owned : s.signalConnections.lookup wsi with
  | none => exact completes_pure
  | some conn =>
    obtain ⟨m, hm⟩ := Option.ne_none_iff_exists'.mp (linked.live wsi conn owned)
    obtain ⟨c, live, rfl⟩ := Option.map_eq_some_iff.mp hm
    dsimp only
    rw [completes_bind (returns_deref.mpr ⟨live, rfl⟩)]
    split
    · rename_i seated
      obtain ⟨g, game⟩ := Option.ne_none_iff_exists'.mp (linked.seated conn _ hm seated)
      obtain ⟨_, hro⟩ := Option.ne_none_iff_exists'.mp (linked.known conn _ g hm game)
      obtain ⟨x, known, rfl⟩ := Option.map_eq_some_iff.mp hro
      have listed : c.peerId ∈ x.peers :=
        StdMap.mem_iff_lookup.mpr ⟨conn, exact_s.present conn _ g _ hm game seated hro⟩
      obtain ⟨t, removed⟩ := removePeer_returns game known listed
      rw [completes_bind removed]
      exact ⟨0, _, returns_bind.mpr ⟨(), _, returns_modify.mpr rfl, returns_pure.mpr ⟨rfl, rfl⟩⟩⟩
    · exact ⟨0, _, returns_bind.mpr ⟨(), _, returns_modify.mpr rfl, returns_pure.mpr ⟨rfl, rfl⟩⟩⟩

/-- In every reachable state the peer table of a game lists its open connections under
their ids, and nothing else; so ids are distinct, no entry dangles, and no close fails. -/
theorem peer_table_exact {env : Externals} {s : Server} (reached : Reach env s)
    (few : ∀ g, s.idsHandedOut g < 2 ^ 32 - 1) :
    (∀ g game, s.games.lookup g = some game → ∀ peerId conn,
      game.peers.lookup peerId = some conn ↔ peerId ≠ 0 ∧ OpenAs s conn g peerId) ∧
    (∀ g peerId conn conn', peerId ≠ 0 → OpenAs s conn g peerId → OpenAs s conn' g peerId →
      conn = conn') ∧
    ∀ wsi, Completes (callbackHumblepeer env (.closed wsi)) s := by
  have linked := reach_linked reached
  have exact_s := reach_exact reached few
  exact ⟨fun g game known => peers_iff_openAs linked exact_s known,
    fun g peerId conn conn' => openAs_unique linked exact_s,
    closed_completes linked exact_s⟩

/-- A server that hears of one websocket and takes the hello that arrives on it. -/
theorem peer_table_after_hello :
    ∃ s, (∃ game, s.games.lookup 1 = some game ∧ (game.peers.lookup 1 = some 10 ↔
        (1 : PeerId) ≠ 0 ∧ OpenAs s 10 1 1)) ∧ Completes (closed 1) s := by
  let env : Externals := ⟨64, fun _ => true,
    fun _ => .helloServer (some ⟨0, 1, [0x67], [], none, none, none⟩),
    fun _ => ⟨[], by decide⟩, fun _ => ⟨List.replicate 20 0, rfl⟩⟩
  have start : Reach env (Server.new (.anonymous 0 ∅) []) :=
    .start (show GameDB.Initial (.anonymous 0 ∅) from ⟨rfl, rfl⟩) []
  have opened : Reach env _ :=
    .callback start (show Allowed _ (.established 1 10) from ⟨by decide, by decide⟩) rfl
  have greeted : Reach env _ :=
    .callback opened
      (show Allowed _ (.receive 1 [0, 0, 0, 0, 0, 0, 0, 0] fun _ => []) from trivial) rfl
  obtain ⟨exact_s, _, closes⟩ := peer_table_exact greeted fun g =>
    Nat.lt_of_le_of_lt List.countP_le_length (show 1 < 2 ^ 32 - 1 by decide)
  exact ⟨_, ⟨_, rfl, exact_s 1 _ rfl 1 10⟩, closes 1⟩

end HumbleNet.PeerServer
