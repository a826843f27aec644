import HumbleNet.Lib.Ownership
import HumbleNet.PeerServer.Forwarding

/-! The aliases of a game as names with owners. Each step of the server serves at most
one request in each game, made by a peer that is open there. -/
namespace HumbleNet.PeerServer

open Program Ownership Function

def Server.aliasOwner (s : Server) (g : GameId) (aliasName : Bytes) : Option PeerId :=
  (s.games.lookup g).bind fun game => game.aliases.lookup aliasName

/-- An open connection of a game that has said hello. -/
def Seat (s : Server) (conn : ConnPtr) (g : GameId) (peerId : PeerId) : Prop :=
  peerId ≠ 0 ∧ OpenAs s conn g peerId

/-- The deeds that are requests for an alias, by a peer of a game. -/
def Asks (s : Server) (d : Deed) (g : GameId) : Request Bytes PeerId → Prop
  | .register p aliasName => ∃ conn reg, Seat s conn g p ∧
      d = .message conn (.aliasRegister (some reg)) ∧ cStr reg.aliasName = aliasName
  | .unregister p aliasName => ∃ conn unreg given, Seat s conn g p ∧
      d = .message conn (.aliasUnregister (some unreg)) ∧ unreg.aliasName = some given ∧
      cStr given = aliasName
  | .leave p => ∃ conn, Seat s conn g p ∧
      ((∃ unreg, d = .message conn (.aliasUnregister (some unreg)) ∧ unreg.aliasName = none) ∨
        ∃ wsi, d = .closed wsi ∧ s.signalConnections.lookup wsi = some conn)

/-- In every game the aliases stay, or one request for them is served. -/
def Serves (s : Server) (d : Deed) (t : Server) : Prop :=
  ∀ g, t.aliasOwner g = s.aliasOwner g ∨
    ∃ r, Asks s d g r ∧ t.aliasOwner g = serve (s.aliasOwner g) r

section

variable {env : Externals} {s t : Server} {d : Deed}

theorem aliasOwner_updateGame {g : GameId} {game : Game} {f : Game → Game}
    (known : s.games.lookup g = some game) (other : GameId) :
    (s.updateGame g f).aliasOwner other =
      if other = g then fun aliasName => (f game).aliases.lookup aliasName
      else s.aliasOwner other := by
  funext aliasName
  simp only [Server.aliasOwner, Server.updateGame, StdMap.lookup_modify]
  split
  · rw [known]
    rfl
  · rfl

theorem aliasOwner_known {g : GameId} {game : Game} (known : s.games.lookup g = some game) :
    s.aliasOwner g = fun aliasName => game.aliases.lookup aliasName := by
  funext aliasName
  rw [Server.aliasOwner, known, Option.bind_some]

theorem serves_same (same : t.games = s.games) : Serves s d t := by
  intro g
  refine Or.inl ?_
  funext aliasName
  rw [Server.aliasOwner, Server.aliasOwner, same]

theorem serves_updateGame {g : GameId} {game : Game} {f : Game → Game}
    {r : Request Bytes PeerId} (known : s.games.lookup g = some game) (asks : Asks s d g r)
    (served : (fun aliasName => (f game).aliases.lookup aliasName) = serve (s.aliasOwner g) r) :
    Serves s d (s.updateGame g f) := by
  intro other
  rw [aliasOwner_updateGame known]
  split
  · rename_i same
    subst same
    exact Or.inr ⟨r, asks, served⟩
  · exact Or.inl rfl

theorem aliasOwner_getVerifiedGame (hello : HelloServer) (g : GameId) :
    (getVerifiedGame env hello s).2.aliasOwner g = s.aliasOwner g := by
  unfold getVerifiedGame
  dsimp only
  split
  · rfl
  · split
    · rfl
    · split
      · rfl
      · rename_i fresh
        funext aliasName
        simp only [Server.aliasOwner, StdMap.lookup_emplace_new _ _ _ _ fresh]
        split
        · rename_i same
          subst same
          rw [fresh]
          rfl
        · rfl

theorem aliasOwner_enroll (self : ConnPtr) (hello : HelloServer) (g : GameId) (peerId : PeerId)
    (other : GameId) : (s.enroll self hello g peerId).aliasOwner other = s.aliasOwner other := by
  change (s.updateGame g _).aliasOwner other = _
  cases known : s.games.lookup g with
  | none =>
    funext aliasName
    simp only [Server.aliasOwner, Server.updateGame, StdMap.modify, known]
  | some game =>
    rw [aliasOwner_updateGame known]
    split
    · rename_i same
      subst same
      rw [aliasOwner_known known]
      rfl
    · rfl

theorem aliasOwner_register {game : Game} {aliasName : Bytes} {p : PeerId}
    (free : game.aliases.lookup aliasName = none) {owner : Bytes → Option PeerId}
    (owns : owner = fun a => game.aliases.lookup a) :
    (fun a => AList.lookup a (game.aliases.insert aliasName p)) =
      serve owner (.register p aliasName) := by
  subst owns
  funext a
  simp only [serve, free, if_true, update_apply, StdMap.lookup_insert_if]

theorem aliasOwner_unregister {game : Game} {aliasName : Bytes} {p : PeerId}
    (own : game.aliases.lookup aliasName = some p) {owner : Bytes → Option PeerId}
    (owns : owner = fun a => game.aliases.lookup a) :
    (fun a => AList.lookup a (game.aliases.erase aliasName)) =
      serve owner (.unregister p aliasName) := by
  subst owns
  funext a
  simp only [serve, own, if_true, update_apply, StdMap.lookup_erase_if]

theorem aliasOwner_erasePeerAliases {game : Game} {p : PeerId} {owner : Bytes → Option PeerId}
    (owns : owner = fun a => game.aliases.lookup a) :
    (fun a => (game.erasePeerAliases p).aliases.lookup a) = serve owner (.leave p) := by
  subst owns
  funext a
  simp only [serve, Game.erasePeerAliases, StdMap.lookup_eraseValue]
  cases held : AList.lookup a game.aliases with
  | none => simp
  | some q => simp [Option.filter]

theorem serves_updateGameOf {this : P2PSignalConnection} {f : Game → Game}
    {r : Request Bytes PeerId} {game : Game} (gameOf : GameOf s this game)
    (asks : ∀ g, this.game = some g → Asks s d g r)
    (served : ∀ g, s.aliasOwner g = (fun a => game.aliases.lookup a) →
      (fun a => (f game).aliases.lookup a) = serve (s.aliasOwner g) r) :
    Serves s d (s.updateGameOf this f) := by
  obtain ⟨g, hg, known⟩ := gameOf
  simp only [Server.updateGameOf, hg]
  exact serves_updateGame known (asks g hg) (served g (aliasOwner_known known))

theorem reacts_serves (linked : s.registry.Linked) {self : ConnPtr} {this : P2PSignalConnection}
    (here : s.connections.lookup self = some this) {msg : Message} {b : Bool} {e : Effect}
    (heard : ¬ (this.peerId = 0 ∧ msg.messageType ≠ .HelloServer))
    (reacts : Reacts env s self this msg b e) :
    Serves s (.message self msg) (e.apply env self this s) := by
  have seat : msg.messageType ≠ .HelloServer → ∀ g, this.game = some g →
      Seat s self g this.peerId := by
    intro kind g hg
    exact ⟨fun unseated => heard ⟨unseated, kind⟩, openAs_of_live linked here hg⟩
  have queued : ∀ dest out, (s.queue env dest out).games = s.games :=
    fun dest out => (queue_frame env dest out s).1
  have connected : ∀ dest out, (Effect.apply env self this s (.connect dest out)).games = s.games :=
    fun dest out => (queue_frame env dest out _).1
  cases reacts with
  | registered gameOf free =>
    exact serves_updateGameOf (r := .register this.peerId _) gameOf
      (fun g hg => ⟨self, _, seat (by simp [Message.messageType]) g hg, rfl, rfl⟩)
      fun g owns => aliasOwner_register free owns
  | unregistered gameOf one own =>
    exact serves_updateGameOf (r := .unregister this.peerId _) gameOf
      (fun g hg => ⟨self, _, _, seat (by simp [Message.messageType]) g hg, rfl, one, rfl⟩)
      fun g owns => aliasOwner_unregister own owns
  | unregisteredAll gameOf all =>
    exact serves_updateGameOf (r := .leave this.peerId) gameOf
      (fun g hg => ⟨self, seat (by simp [Message.messageType]) g hg, Or.inl ⟨_, rfl, all⟩⟩)
      fun g owns => aliasOwner_erasePeerAliases owns
  | @helloRefused hello unseated able game =>
    intro g
    exact Or.inl (aliasOwner_getVerifiedGame hello g)
  | @helloAdmitted hello g unseated able game =>
    intro other
    have enrolled := aliasOwner_enroll (s := (getVerifiedGame env hello s).2) self hello g
      (s.admits env hello g) other
    refine Or.inl (Eq.trans ?_ (enrolled.trans (aliasOwner_getVerifiedGame hello other)))
    funext aliasName
    simp only [Server.aliasOwner, Effect.apply, (queue_frame env _ _ _).1]
    rfl
  | offerForwarded => exact serves_same (connected _ _)
  | answerForwarded => exact serves_same (connected _ _)
  | offerEmulated | offerMissing | offerRefused | answerMissing | answerUnasked
  | candidateMissing | candidateForwarded | rejectForwarded | relayMissing | relayForwarded
  | lookedUp => exact serves_same (queued _ _)
  | rejectMissing | rejectUnknown | helloAgain | helloWithoutWebRTC | registerTaken
  | unregisterRejected | ignored => exact serves_same rfl

theorem closed_serves (linked : s.registry.Linked) {wsi : Wsi} {retval : Int}
    (returns : Returns (closed wsi) s retval t) : Serves s (.closed wsi) t := by
  rcases closed_cases returns with ⟨_, rfl⟩ | ⟨conn, c, owned, live, ⟨_, rfl⟩ | seated⟩
  · exact serves_same rfl
  · exact serves_same rfl
  · obtain ⟨g, game, nonzero, hg, known, rfl⟩ := seated
    have asks : Asks s (.closed wsi) g (.leave c.peerId) :=
      ⟨conn, ⟨nonzero, openAs_of_live linked live hg⟩, Or.inr ⟨wsi, rfl, owned⟩⟩
    have owns : s.aliasOwner g = fun a => game.aliases.lookup a := aliasOwner_known known
    exact serves_updateGame known asks (aliasOwner_erasePeerAliases owns)

/-- The server's tables of aliases refine the names of `Ownership`. -/
theorem step_serves (linked : s.registry.Linked) (step : Step env s d t) : Serves s d t := by
  cases step with
  | opened allowed returns =>
    rw [returns_established allowed returns]
    exact serves_same rfl
  | closed returns => exact closed_serves linked returns
  | arrived conn data => exact serves_same rfl
  | erased conn size => exact serves_same rfl
  | message returns =>
    obtain ⟨this, here, _⟩ := returns_deref_bind.mp returns
    rcases processMsg_cases here returns with ⟨_, _, _, rfl⟩ | ⟨heard, e, reacts, rfl⟩
    · exact serves_same rfl
    · exact reacts_serves linked here heard reacts
  | writeable returns =>
    rcases writeable_cases returns with ⟨rfl, _⟩ | ⟨_, _, _, _, _, _, _, rfl⟩
    · exact serves_same rfl
    · exact serves_same rfl

def AliasesHeld (s : Server) : Prop :=
  ∀ g aliasName p, s.aliasOwner g aliasName = some p → ∃ conn, Seat s conn g p

theorem step_aliasesHeld (linked : s.registry.Linked) (linked' : t.registry.Linked)
    (step : Step env s d t) (held : AliasesHeld s) : AliasesHeld t := by
  intro g aliasName p owned
  -- a peer that was open still is, unless this step closes it and takes its aliases away
  have stays : ∀ conn, Seat s conn g p → (∀ wsi, d = .closed wsi →
      s.signalConnections.lookup wsi ≠ some conn) → ∃ conn, Seat t conn g p := by
    rintro conn ⟨nonzero, openAs⟩ kept
    rcases step_openAs linked' step nonzero openAs with still | ⟨wsi, deed, closes⟩
    · exact ⟨conn, nonzero, still⟩
    · exact absurd closes (kept wsi deed)
  have closes_leave : ∀ conn wsi, Seat s conn g p → d = .closed wsi →
      s.signalConnections.lookup wsi = some conn →
      t.aliasOwner g = serve (s.aliasOwner g) (.leave p) := by
    rintro conn wsi ⟨nonzero, _, c, _, live, hg, rfl⟩ rfl closes
    cases step with
    | closed returns =>
      rcases closed_cases returns with ⟨missing, rfl⟩ | ⟨conn', c', owned', live', ends⟩
      · rw [closes] at missing
        cases missing
      · rw [closes] at owned'
        cases owned'
        rw [live] at live'
        cases live'
        rcases ends with ⟨unseated, _⟩ | ⟨g', game, _, hg', known, rfl⟩
        · exact absurd unseated nonzero
        · rw [hg] at hg'
          cases hg'
          have after := aliasOwner_updateGame (f := fun game => Game.erasePeerAliases c.peerId
            { game with peers := game.peers.erase c.peerId }) known g
          rw [if_pos rfl] at after
          have owns : s.aliasOwner g = fun a => game.aliases.lookup a := aliasOwner_known known
          exact after.trans (aliasOwner_erasePeerAliases owns)
  have owner_stays : ∀ conn, Seat s conn g p → ∀ wsi, d = .closed wsi →
      s.signalConnections.lookup wsi ≠ some conn := by
    intro conn seat wsi deed closes
    rw [closes_leave conn wsi seat deed closes] at owned
    rcases owner_after owned with ⟨_, leaves⟩ | registers
    · exact leaves rfl
    · cases registers
  have before : ∃ conn, Seat s conn g p := by
    rcases step_serves linked step g with same | ⟨r, asks, served⟩
    · rw [same] at owned
      exact held g aliasName p owned
    · rw [served] at owned
      rcases owner_after owned with ⟨owned_before, _⟩ | rfl
      · exact held g aliasName p owned_before
      · obtain ⟨conn, _, seat, _⟩ := asks
        exact ⟨conn, seat⟩
  obtain ⟨conn, seat⟩ := before
  exact stays conn seat (owner_stays conn seat)

theorem history_aliasesHeld {past : List (Server × Deed)} (history : History env past s) :
    AliasesHeld s := by
  refine history.invariant (I := fun _ s => AliasesHeld s) ?_ ?_
  · rintro _ ⟨gameDB, stunServerAddress, _, rfl⟩ g aliasName p owned
    cases owned
  · intro past s d t before held step
    exact step_aliasesHeld (history_linked before) (history_linked (before.next step)) step held

theorem lookup_answered {self : ConnPtr} {this : P2PSignalConnection} {g : GameId}
    (linked : s.registry.Linked) (here : s.connections.lookup self = some this)
    (seated : this.peerId ≠ 0) (hg : this.game = some g) (p : AliasLookup) :
    ∃ t, Returns (processMsg env self (.aliasLookup (some p))) s true t ∧
      Queues env s t (some (self, sendAliasResolved id (cStr p.aliasName)
        ((s.aliasOwner g (cStr p.aliasName)).getD 0))) := by
  have ready : MsgReady s self this (.aliasLookup (some p)) := by
    simp only [MsgReady, if_neg seated, ne_eq, reduceCtorEq, not_false_eq_true]
  have completes : Completes (processMsg env self (.aliasLookup (some p))) s :=
    (processMsg_completes here (linked.seat here) _).mpr ready
  obtain ⟨b, t, returns⟩ := completes
  rcases processMsg_cases here returns with ⟨unseated, _⟩ | ⟨_, e, reacts, rfl⟩
  · exact absurd unseated seated
  · cases reacts with
    | @lookedUp _ game gameOf =>
      obtain ⟨_, hg', known⟩ := id gameOf
      rw [hg] at hg'
      cases hg'
      refine ⟨_, returns, ?_⟩
      rw [aliasOwner_known known]
      exact Effect.queues _
    | ignored kind => simp [Message.messageType] at kind

/-- In every run in which no game hands out all its ids: an alias belongs to one open peer
of its game. It is gained by a request of the peer that gains it, when it is free, and lost
by a request or the close of the peer that loses it. A lookup is answered with the owner. -/
theorem aliases_are_owned {past : List (Server × Deed)} (history : History env past s)
    (few : ∀ g, s.idsHandedOut g < 2 ^ 32 - 1) :
    (∀ g aliasName p, s.aliasOwner g aliasName = some p →
      p ≠ 0 ∧ ∃! conn, OpenAs s conn g p) ∧
    (∀ d t, Step env s d t → ∀ g aliasName p, s.aliasOwner g aliasName = none →
      t.aliasOwner g aliasName = some p → Asks s d g (.register p aliasName)) ∧
    (∀ d t, Step env s d t → ∀ g aliasName p, s.aliasOwner g aliasName = some p →
      t.aliasOwner g aliasName ≠ some p → t.aliasOwner g aliasName = none ∧
        (Asks s d g (.unregister p aliasName) ∨ Asks s d g (.leave p))) ∧
    ∀ self this g (p : AliasLookup), s.connections.lookup self = some this → this.peerId ≠ 0 →
      this.game = some g → ∃ t, Returns (processMsg env self (.aliasLookup (some p))) s true t ∧
        Queues env s t (some (self, sendAliasResolved id (cStr p.aliasName)
          ((s.aliasOwner g (cStr p.aliasName)).getD 0))) := by
  have linked := history_linked history
  refine ⟨?_, ?_, ?_, fun self this g p here seated hg =>
    lookup_answered linked here seated hg p⟩
  · intro g aliasName p owned
    obtain ⟨conn, nonzero, openAs⟩ := history_aliasesHeld history g aliasName p owned
    exact ⟨nonzero, conn, openAs, fun other openAs' =>
      openAs_unique linked (history_exact history few) nonzero openAs' openAs⟩
  · intro d t step g aliasName p free owned
    rcases step_serves linked step g with same | ⟨r, asks, served⟩
    · rw [same, free] at owned
      cases owned
    · rw [served] at owned
      rw [← gained free owned]
      exact asks
  · intro d t step g aliasName p owned changed
    rcases step_serves linked step g with same | ⟨r, asks, served⟩
    · rw [same] at changed
      exact absurd owned changed
    · rw [served] at changed ⊢
      obtain ⟨free, unregisters | leaves⟩ := lost owned changed
      · exact ⟨free, Or.inl (unregisters ▸ asks)⟩
      · exact ⟨free, Or.inr (leaves ▸ asks)⟩

end

/-- A peer registers an alias: it is the one owner. -/
theorem alias_of_a_peer : ∃ past s, History plain past s ∧ s.aliasOwner 1 [0x61] = some 1 ∧
    ∃! conn, OpenAs s conn 1 1 := by
  have run : (play plain (meeting ++ [.message 10 (.aliasRegister (some ⟨[0x61]⟩))])).any
      (fun r => decide (r.2.aliasOwner 1 [0x61] = some 1) &&
        decide (r.2.handedOut.length < 2 ^ 32 - 1)) = true := by
    decide +kernel
  obtain ⟨past, s, history, seen⟩ := played run
  rw [Bool.and_eq_true, decide_eq_true_eq, decide_eq_true_eq] at seen
  obtain ⟨owned, _⟩ := aliases_are_owned history (few_of_length seen.2)
  exact ⟨past, s, history, seen.1, (owned 1 [0x61] 1 seen.1).2⟩

end HumbleNet.PeerServer
