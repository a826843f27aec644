import HumbleNet.PeerServer.History

/-! A step of the server, seen from the connections: one is opened, one is closed, or some
are touched. -/
namespace HumbleNet.PeerServer

open Program

/-! ### An effect, seen from the connections -/

section effects

variable (env : Externals) (self : ConnPtr) (s : Server)

def Server.admits (s : Server) (hello : HelloServer) (g : GameId) : PeerId :=
  (((getVerifiedGame env hello s).2.games.lookup g).map Game.nextPeerId).getD 0

def Effect.output : Effect → Option (ConnPtr × Message)
  | .send dest msg => some (dest, msg)
  | .connect dest msg => some (dest, msg)
  | .accept hello g =>
    some (self, sendHelloClient id (s.admits env hello g) [] (populateStunServers s))
  | _ => none

def Effect.assigned : Effect → P2PSignalConnection → P2PSignalConnection
  | .connect dest _, c => { c with connectedPeers := StdSet.insert dest c.connectedPeers }
  | .refuse _, c => { c with game := none }
  | .accept hello g, c =>
    { c with
      game := some g
      peerId := s.admits env hello g
      webRTCsupport := true
      trickleICE := decide (hello.flags &&& noTrickleFlag = 0) }
  | _, c => c

def queuedOn (out : Option (ConnPtr × Message)) (conn : ConnPtr) : Bytes :=
  match out with
  | some (dest, msg) => if conn = dest then p2pMessageFrame (env.finish msg).bytes else []
  | none => []

theorem getVerifiedGame_frame (hello : HelloServer) :
    ∃ gameDB games,
      (getVerifiedGame env hello s).2 = { s with gameDB := gameDB, games := games } := by
  unfold getVerifiedGame
  dsimp only
  split
  · exact ⟨_, _, rfl⟩
  · split
    · exact ⟨_, _, rfl⟩
    · split
      · exact ⟨_, _, rfl⟩
      · exact ⟨_, _, rfl⟩

def Effect.leaves (e : Effect) (conn : ConnPtr) (c : P2PSignalConnection) : P2PSignalConnection :=
  let c' := if conn = self then e.assigned env s c else c
  { c' with sendBuf := c'.sendBuf ++ queuedOn env (e.output env self s) conn }

theorem queue_lookup (dest conn : ConnPtr) (msg : Message) :
    (s.queue env dest msg).connections.lookup conn = (s.connections.lookup conn).map fun c =>
      { c with sendBuf := c.sendBuf ++ queuedOn env (some (dest, msg)) conn } := by
  rw [queue_connections, StdMap.lookup_modify, queuedOn]
  split
  · rename_i same
    rw [same]
  · simp only [List.append_nil, Option.map_id']

theorem updateConnection_lookup (conn other : ConnPtr)
    (f : P2PSignalConnection → P2PSignalConnection) :
    (s.updateConnection conn f).connections.lookup other =
      (s.connections.lookup other).map fun c => if other = conn then f c else c := by
  simp only [Server.updateConnection, StdMap.lookup_modify]
  split
  · rename_i same
    rw [same]
  · simp only [Option.map_id']

theorem apply_lookup (this : P2PSignalConnection) (e : Effect) (conn : ConnPtr) :
    (e.apply env self this s).connections.lookup conn =
      (s.connections.lookup conn).map (e.leaves env self s conn) := by
  have still : ∀ f : Game → Game, (s.updateGameOf this f).connections = s.connections := by
    intro f
    unfold Server.updateGameOf
    split
    · rfl
    · rfl
  -- an effect that touches no connection leaves each as it was
  have idle : ∀ {t : Server} {e : Effect}, t.connections = s.connections →
      e.output env self s = none → (∀ c, e.assigned env s c = c) → t.connections.lookup conn =
        (s.connections.lookup conn).map (e.leaves env self s conn) := by
    intro t e same quiet untouched
    have leaves : ∀ c, e.leaves env self s conn c = c := by
      intro c
      simp only [Effect.leaves, untouched, quiet, queuedOn, ite_self, List.append_nil]
    rw [same, Option.map_congr fun c _ => leaves c, Option.map_id']
  cases e with
  | idle => exact idle rfl rfl fun _ => rfl
  | send dest msg =>
    rw [Effect.apply, queue_lookup]
    refine Option.map_congr fun c _ => ?_
    simp only [Effect.leaves, Effect.assigned, Effect.output, ite_self]
  | connect dest msg =>
    rw [Effect.apply, queue_lookup, updateConnection_lookup, Option.map_map]
    rfl
  | register aliasName => exact idle (still _) rfl fun _ => rfl
  | unregister aliasName => exact idle (still _) rfl fun _ => rfl
  | unregisterAll => exact idle (still _) rfl fun _ => rfl
  | refuse hello =>
    obtain ⟨gameDB, games, found⟩ := getVerifiedGame_frame env s hello
    rw [Effect.apply, found, updateConnection_lookup]
    refine Option.map_congr fun c _ => ?_
    simp only [Effect.leaves, Effect.assigned, Effect.output, queuedOn, List.append_nil]
  | accept hello g =>
    obtain ⟨gameDB, games, found⟩ := getVerifiedGame_frame env s hello
    have seated : ∀ peerId,
        ((getVerifiedGame env hello s).2.enroll self hello g peerId).connections.lookup conn =
          (s.connections.lookup conn).map fun c => if conn = self then
            { c with
              game := some g
              peerId := peerId
              webRTCsupport := true
              trickleICE := decide (hello.flags &&& noTrickleFlag = 0) } else c := by
      intro peerId
      rw [found]
      exact updateConnection_lookup s self conn _
    have stuns : populateStunServers (getVerifiedGame env hello s).2 = populateStunServers s := by
      rw [found]
      rfl
    simp only [Effect.apply, queue_lookup, seated, stuns, Option.map_map]
    rfl

end effects

/-! ### A step, seen from one connection -/

/-- What a step does to a connection that is open before and after it. -/
inductive Touched (env : Externals) (s : Server) (d : Deed) (conn : ConnPtr)
    (c : P2PSignalConnection) : P2PSignalConnection → Prop where
  | buffers {c' : P2PSignalConnection} (wsi : c'.wsi = c.wsi) (peerId : c'.peerId = c.peerId)
    (game : c'.game = c.game) (peers : c'.connectedPeers = c.connectedPeers) :
    Touched env s d conn c c'
  | sender {msg : Message} {b : Bool} {e : Effect} (deed : d = .message conn msg)
    (heard : ¬ (c.peerId = 0 ∧ msg.messageType ≠ .HelloServer))
    (reacts : Reacts env s conn c msg b e) : Touched env s d conn c (e.leaves env conn s conn c)

def Touches (env : Externals) (s : Server) (d : Deed) (t : Server) : Prop :=
  ∀ conn, (s.connections.lookup conn = none ∧ t.connections.lookup conn = none) ∨
    ∃ c c', s.connections.lookup conn = some c ∧ t.connections.lookup conn = some c' ∧
      Touched env s d conn c c'

section steps

variable {env : Externals} {s t : Server} {d : Deed}

theorem touched_refl {conn : ConnPtr} (c : P2PSignalConnection) : Touched env s d conn c c :=
  .buffers rfl rfl rfl rfl

theorem touches_map {f : ConnPtr → P2PSignalConnection → P2PSignalConnection}
    (mapped : ∀ conn, t.connections.lookup conn = (s.connections.lookup conn).map (f conn))
    (touched : ∀ conn c, s.connections.lookup conn = some c → Touched env s d conn c (f conn c)) :
    Touches env s d t := by
  intro conn
  cases live : s.connections.lookup conn with
  | none =>
    rw [mapped, live]
    exact Or.inl ⟨rfl, rfl⟩
  | some c =>
    rw [mapped, live]
    exact Or.inr ⟨c, _, rfl, rfl, touched conn c live⟩

theorem touches_same (same : t.connections = s.connections) : Touches env s d t := by
  refine touches_map (f := fun _ c => c) (fun conn => ?_) fun conn c _ => touched_refl c
  rw [same, Option.map_id']

theorem touches_update {self : ConnPtr} {f : P2PSignalConnection → P2PSignalConnection}
    (same : ∀ c, (f c).wsi = c.wsi ∧ (f c).peerId = c.peerId ∧ (f c).game = c.game ∧
      (f c).connectedPeers = c.connectedPeers) : Touches env s d (s.updateConnection self f) := by
  refine touches_map (fun conn => updateConnection_lookup s self conn f) fun conn c _ => ?_
  split
  · obtain ⟨wsi, peerId, game, peers⟩ := same c
    exact .buffers wsi peerId game peers
  · exact touched_refl c

theorem message_touches {self : ConnPtr} {msg : Message} {b : Bool}
    (returns : Returns (processMsg env self msg) s b t) : Touches env s (.message self msg) t := by
  obtain ⟨this, here, _⟩ := returns_deref_bind.mp returns
  rcases processMsg_cases here returns with ⟨_, _, _, rfl⟩ | ⟨heard, e, reacts, rfl⟩
  · exact touches_same rfl
  · refine touches_map (fun conn => apply_lookup env self s this e conn) fun conn c live => ?_
    by_cases own : conn = self
    · subst own
      rw [here] at live
      cases live
      exact .sender rfl heard reacts
    · simp only [Effect.leaves, if_neg own]
      exact .buffers rfl rfl rfl rfl

theorem returns_established {wsi : Wsi} {conn : ConnPtr} {retval : Int}
    (allowed : Allowed s (.established wsi conn))
    (returns : Returns (established wsi conn) s retval t) :
    t = { s with
      signalConnections := StdMap.emplace wsi conn s.signalConnections
      connections := s.connections.insert conn (P2PSignalConnection.new wsi) } := by
  simp only [established, returns_bind, returns_modify, returns_pure, if_neg allowed.1] at returns
  obtain ⟨_, _, rfl, _, rfl⟩ := returns
  rfl

theorem step_connections (step : Step env s d t) :
    (∃ wsi conn, d = .opened wsi conn ∧ wsi ∉ s.signalConnections ∧ conn ∉ s.connections ∧
      ∀ other, t.connections.lookup other =
        if other = conn then some (P2PSignalConnection.new wsi) else s.connections.lookup other) ∨
    (∃ wsi conn, d = .closed wsi ∧ s.signalConnections.lookup wsi = some conn ∧
      ∀ other, t.connections.lookup other =
        if other = conn then none else s.connections.lookup other) ∨
    Touches env s d t := by
  cases step with
  | opened allowed returns =>
    refine Or.inl ⟨_, _, rfl, allowed.1, allowed.2, fun other => ?_⟩
    rw [returns_established allowed returns, StdMap.lookup_insert_if]
  | closed returns =>
    refine Or.inr ?_
    rcases closed_cases returns with
      ⟨_, rfl⟩ | ⟨conn, _, owned, _, ⟨_, rfl⟩ | ⟨g, game, _, _, _, rfl⟩⟩
    · exact Or.inr (touches_same rfl)
    · exact Or.inl ⟨_, conn, rfl, owned, fun other => StdMap.lookup_erase_if _ _ _⟩
    · exact Or.inl ⟨_, conn, rfl, owned, fun other => StdMap.lookup_erase_if _ _ _⟩
  | arrived conn data => exact Or.inr (Or.inr (touches_update fun _ => ⟨rfl, rfl, rfl, rfl⟩))
  | erased conn size => exact Or.inr (Or.inr (touches_update fun _ => ⟨rfl, rfl, rfl, rfl⟩))
  | message returns => exact Or.inr (Or.inr (message_touches returns))
  | writeable returns =>
    refine Or.inr (Or.inr ?_)
    rcases writeable_cases returns with ⟨rfl, _⟩ | ⟨conn, _, _, _, _, _, _, rfl⟩
    · exact touches_same rfl
    · exact touches_update (s := s) fun _ => ⟨rfl, rfl, rfl, rfl⟩

theorem step_connection (step : Step env s d t) {conn : ConnPtr} {c : P2PSignalConnection}
    (live : s.connections.lookup conn = some c) :
    (∃ wsi, d = .closed wsi ∧ s.signalConnections.lookup wsi = some conn) ∨
    ∃ c', t.connections.lookup conn = some c' ∧ Touched env s d conn c c' := by
  rcases step_connections step with
    ⟨wsi, other, rfl, _, fresh, after⟩ | ⟨wsi, other, rfl, owned, after⟩ | touches
  · refine Or.inr ⟨c, ?_, touched_refl c⟩
    rw [after, if_neg, live]
    rintro rfl
    exact fresh (StdMap.mem_iff_lookup.mpr ⟨c, live⟩)
  · by_cases own : conn = other
    · subst own
      exact Or.inl ⟨wsi, rfl, owned⟩
    · refine Or.inr ⟨c, ?_, touched_refl c⟩
      rw [after, if_neg own, live]
  · rcases touches conn with ⟨absent, _⟩ | ⟨c₀, c', before, live', touched⟩
    · rw [live] at absent
      cases absent
    · rw [live] at before
      cases before
      exact Or.inr ⟨c', live', touched⟩

theorem step_origin (step : Step env s d t) {conn : ConnPtr} {c' : P2PSignalConnection}
    (live : t.connections.lookup conn = some c') :
    (∃ wsi, d = .opened wsi conn ∧ conn ∉ s.connections ∧ c' = P2PSignalConnection.new wsi) ∨
    ∃ c, s.connections.lookup conn = some c ∧ Touched env s d conn c c' := by
  rcases step_connections step with
    ⟨wsi, other, rfl, _, fresh, after⟩ | ⟨wsi, other, rfl, owned, after⟩ | touches
  · rw [after] at live
    split at live
    · rename_i own
      subst own
      cases live
      exact Or.inl ⟨wsi, rfl, fresh, rfl⟩
    · exact Or.inr ⟨c', live, touched_refl c'⟩
  · rw [after] at live
    split at live
    · cases live
    · exact Or.inr ⟨c', live, touched_refl c'⟩
  · rcases touches conn with ⟨_, absent⟩ | ⟨c, c'', before, live', touched⟩
    · rw [live] at absent
      cases absent
    · rw [live] at live'
      cases live'
      exact Or.inr ⟨c, before, touched⟩

theorem step_opened_fresh {wsi : Wsi} {conn : ConnPtr} (step : Step env s (.opened wsi conn) t) :
    conn ∉ s.connections := by
  cases step with
  | opened allowed _ => exact allowed.2

theorem step_closes {wsi : Wsi} {conn : ConnPtr} (step : Step env s (.closed wsi) t)
    (owned : s.signalConnections.lookup wsi = some conn) : t.connections.lookup conn = none := by
  cases step with
  | closed returns =>
    rcases closed_cases returns with
      ⟨missing, _⟩ | ⟨conn', _, owned', _, ⟨_, rfl⟩ | ⟨g, game, _, _, _, rfl⟩⟩
    · rw [owned] at missing
      cases missing
    · rw [owned] at owned'
      cases owned'
      exact AList.lookup_erase _ _
    · rw [owned] at owned'
      cases owned'
      exact AList.lookup_erase _ _

end steps

/-! ### Seats -/

section seats

variable {env : Externals} {s t : Server} {d : Deed} {conn : ConnPtr}
  {c c' : P2PSignalConnection}

theorem reacts_seat {msg : Message} {b : Bool} {e : Effect} (seated : c.peerId ≠ 0)
    (reacts : Reacts env s conn c msg b e) :
    (e.assigned env s c).peerId = c.peerId ∧ (e.assigned env s c).game = c.game := by
  cases reacts with
  | helloRefused unseated => exact absurd unseated seated
  | helloAdmitted unseated => exact absurd unseated seated
  | _ => exact ⟨rfl, rfl⟩

theorem Touched.seat (touched : Touched env s d conn c c') (seated : c.peerId ≠ 0) :
    c'.peerId = c.peerId ∧ c'.game = c.game := by
  cases touched with
  | buffers wsi peerId game peers => exact ⟨peerId, game⟩
  | sender deed heard reacts =>
    simp only [Effect.leaves, if_true]
    exact reacts_seat seated reacts

theorem step_openAs (linked : t.registry.Linked) (step : Step env s d t) {g : GameId}
    {peerId : PeerId} (nonzero : peerId ≠ 0) (openAs : OpenAs s conn g peerId) :
    OpenAs t conn g peerId ∨
      ∃ wsi, d = .closed wsi ∧ s.signalConnections.lookup wsi = some conn := by
  obtain ⟨_, c, _, live, game, rfl⟩ := openAs
  rcases step_connection step live with closed | ⟨c', live', touched⟩
  · exact Or.inr closed
  · obtain ⟨same, stays⟩ := touched.seat nonzero
    rw [← same]
    exact Or.inl (openAs_of_live linked live' (stays.trans game))

end seats

end HumbleNet.PeerServer
