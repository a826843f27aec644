import HumbleNet.Lib.Alike
import HumbleNet.PeerServer.Admission

/-! Games do not interfere. What a game and its connections look like changes only with
what its own connections do, and then in the same way whatever else the server holds. -/
namespace HumbleNet.PeerServer

open Program

/-- What tells a game apart: its token, or in a flat file its id. -/
inductive GameKey where
  | token (gameToken : Bytes)
  | id (gameId : GameId)

def GameKey.fits : GameKey → GameDB → Prop
  | .token _, .anonymous _ _ => True
  | .id _, .flatFile _ => True
  | _, _ => False

def GameKey.find : GameKey → GameDB → Option GameId
  | .token gameToken, db => (db.lookup gameToken).map (·.gameId)
  | .id gameId, _ => some gameId

def GameKey.names : GameKey → Admission → Prop
  | .token gameToken, a => a.gameToken = gameToken
  | .id gameId, a => a.gameId = gameId

/-- A connection without the number of its game, which depends on the games before it. -/
def P2PSignalConnection.seen (c : P2PSignalConnection) : P2PSignalConnection :=
  { c with game := c.game.map fun _ => 0 }

def Game.seen (game : Game) : Game := { game with gameId := 0 }

def Server.table (s : Server) (k : GameKey) : Option (Option Game) :=
  (k.find s.gameDB).map fun g => (s.games.lookup g).map Game.seen

/-- Two servers that are the same to the game and its connections. -/
structure Same (k : GameKey) (mine : ConnPtr → Prop) (s s' : Server) : Prop where
  stun : s.stunServerAddress = s'.stunServerAddress
  kind : s.gameDB.isAnonymous = s'.gameDB.isAnonymous
  fixed : s.gameDB.isAnonymous = false → s.gameDB = s'.gameDB
  owners : ∀ conn, mine conn → ∀ wsi,
    s.signalConnections.lookup wsi = some conn ↔ s'.signalConnections.lookup wsi = some conn
  conns : ∀ conn, mine conn →
    (s.connections.lookup conn).map (·.seen) = (s'.connections.lookup conn).map (·.seen)
  table : s.table k = s'.table k

/-- Exactly the connections of the game were admitted to it, and the numbers of the games
have not run out. -/
structure Divided (k : GameKey) (mine : ConnPtr → Prop) (s : Server) : Prop where
  mine : ∀ a ∈ s.admitted, mine a.conn ↔ k.names a
  few : s.gameDB.tokens < 2 ^ 32

structure Settled (k : GameKey) (mine : ConnPtr → Prop) (s : Server) : Prop where
  fits : k.fits s.gameDB
  recorded : Recorded s
  numbered : s.gameDB.Numbered
  divided : Divided k mine s

section

variable {env : Externals} {k : GameKey} {mine : ConnPtr → Prop} {s s' t : Server}

theorem Same.refl (s : Server) : Same k mine s s :=
  ⟨rfl, rfl, fun _ => rfl, fun _ _ _ => Iff.rfl, fun _ _ => rfl, rfl⟩

theorem Same.symm (h : Same k mine s s') : Same k mine s' s where
  stun := h.stun.symm
  kind := h.kind.symm
  fixed flat := (h.fixed (h.kind.trans flat)).symm
  owners conn own wsi := (h.owners conn own wsi).symm
  conns conn own := (h.conns conn own).symm
  table := h.table.symm

theorem Same.trans (h : Same k mine s s') (h' : Same k mine s' t) : Same k mine s t where
  stun := h.stun.trans h'.stun
  kind := h.kind.trans h'.kind
  fixed flat := (h.fixed flat).trans (h'.fixed (h.kind.symm.trans flat))
  owners conn own wsi := (h.owners conn own wsi).trans (h'.owners conn own wsi)
  conns conn own := (h.conns conn own).trans (h'.conns conn own)
  table := h.table.trans h'.table

theorem Divided.before (grows : Grows s t) (divided : Divided k mine t) : Divided k mine s :=
  ⟨fun a ha => divided.mine a (grows.admitted a ha),
    Nat.lt_of_le_of_lt grows.tokens divided.few⟩

theorem Settled.after (grows : Grows s t) (recorded : Recorded t) (divided : Divided k mine t)
    (settled : Settled k mine s) : Settled k mine t where
  fits := by
    have kind := grows.kind
    have fits := settled.fits
    cases k with
    | token gameToken =>
      cases hs : s.gameDB with
      | anonymous _ _ =>
        cases ht : t.gameDB with
        | anonymous _ _ => trivial
        | flatFile _ => simp [hs, ht, GameDB.isAnonymous] at kind
      | flatFile _ => simp [hs, GameKey.fits] at fits
    | id gameId =>
      cases hs : s.gameDB with
      | anonymous _ _ => simp [hs, GameKey.fits] at fits
      | flatFile _ =>
        cases ht : t.gameDB with
        | anonymous _ _ => simp [hs, ht, GameDB.isAnonymous] at kind
        | flatFile _ => trivial
  recorded := recorded
  numbered := grows.numbered settled.numbered divided.few
  divided := divided

theorem Settled.anonymous {gameToken : Bytes} (settled : Settled (.token gameToken) mine s) :
    s.gameDB.isAnonymous = true := by
  have fits := settled.fits
  cases hs : s.gameDB with
  | anonymous _ _ => rfl
  | flatFile _ => simp [hs, GameKey.fits] at fits

theorem Settled.names_iff (settled : Settled k mine s) {a : Admission} (admitted : a ∈ s.admitted) :
    k.names a ↔ k.find s.gameDB = some a.gameId := by
  obtain ⟨record, known, same⟩ := settled.recorded.known a admitted
  cases k with
  | id gameId =>
    simp only [GameKey.names, GameKey.find, Option.some.injEq]
    exact eq_comm
  | token gameToken =>
    simp only [GameKey.names, GameKey.find]
    constructor
    · rintro rfl
      rw [known, Option.map_some, same]
    · intro found
      obtain ⟨record', known', same'⟩ := Option.map_eq_some_iff.mp found
      exact settled.numbered.only settled.anonymous known' known (same.trans same'.symm)

theorem Settled.pointing (settled : Settled k mine s) {conn : ConnPtr} {c : P2PSignalConnection}
    {h : GameId} (live : s.connections.lookup conn = some c) (points : c.game = some h) :
    mine conn ↔ k.find s.gameDB = some h := by
  obtain ⟨a, ha, rfl, rfl⟩ := settled.recorded.pointing conn c h live points
  rw [settled.divided.mine a ha, settled.names_iff ha]

theorem Settled.listed (settled : Settled k mine s) {conn : ConnPtr} {h : GameId} {p : PeerId}
    (lists : Lists s h p conn) : mine conn ↔ k.find s.gameDB = some h := by
  obtain ⟨game, there, listed⟩ := lists
  obtain ⟨a, ha, rfl, rfl⟩ := settled.recorded.listed h game p conn there listed
  rw [settled.divided.mine a ha, settled.names_iff ha]

/-! ### What others do -/

theorem reacts_dest {self dest : ConnPtr} {this : P2PSignalConnection} {msg out : Message}
    {b : Bool} {e : Effect} (reacts : Reacts env s self this msg b e)
    (queued : e.output env self s = some (dest, out)) :
    dest = self ∨ ∃ h p, this.game = some h ∧ Lists s h p dest := by
  cases reacts with
  | offerForwarded _ gameOf found | answerForwarded gameOf found
  | candidateForwarded gameOf found | rejectForwarded gameOf found
  | relayForwarded _ gameOf found =>
    cases queued
    obtain ⟨h, points, known⟩ := gameOf
    exact Or.inr ⟨h, _, points, _, known, found⟩
  | helloAdmitted | lookedUp | offerEmulated | offerMissing | offerRefused | answerMissing
  | answerUnasked | candidateMissing | relayMissing =>
    cases queued
    exact Or.inl rfl
  | _ => cases queued

theorem effect_signals (self : ConnPtr) (this : P2PSignalConnection) (e : Effect) :
    (e.apply env self this s).signalConnections = s.signalConnections ∧
      (e.apply env self this s).stunServerAddress = s.stunServerAddress := by
  have aliases : ∀ f, (s.updateGameOf this f).signalConnections = s.signalConnections ∧
      (s.updateGameOf this f).stunServerAddress = s.stunServerAddress := by
    intro f
    unfold Server.updateGameOf
    split
    · exact ⟨rfl, rfl⟩
    · exact ⟨rfl, rfl⟩
  cases e with
  | idle => exact ⟨rfl, rfl⟩
  | send dest msg =>
    obtain ⟨_, signals, _, stun, _⟩ := queue_frame env dest msg s
    exact ⟨signals, stun⟩
  | connect dest msg =>
    rw [Effect.apply]
    obtain ⟨_, signals, _, stun, _⟩ := queue_frame env dest msg (s.updateConnection self fun c =>
      { c with connectedPeers := StdSet.insert dest c.connectedPeers })
    exact ⟨signals, stun⟩
  | register aliasName => exact aliases _
  | unregister aliasName => exact aliases _
  | unregisterAll => exact aliases _
  | refuse hello =>
    obtain ⟨gameDB, games, found⟩ := getVerifiedGame_frame env s hello
    rw [Effect.apply, found]
    exact ⟨rfl, rfl⟩
  | accept hello g =>
    obtain ⟨gameDB, games, found⟩ := getVerifiedGame_frame env s hello
    simp only [Effect.apply, (queue_frame env _ _ _).2.1, (queue_frame env _ _ _).2.2.2.1, found]
    exact ⟨rfl, rfl⟩

theorem table_of_same (gameDB : t.gameDB = s.gameDB)
    (games : ∀ g, k.find s.gameDB = some g → t.games.lookup g = s.games.lookup g) :
    t.table k = s.table k := by
  rw [Server.table, Server.table, gameDB]
  cases found : k.find s.gameDB with
  | none => rfl
  | some g => rw [Option.map_some, Option.map_some, games g found]

theorem updateGame_other {h g : GameId} {f : Game → Game} (differ : g ≠ h) :
    (s.updateGame h f).games.lookup g = s.games.lookup g := by
  simp only [Server.updateGame, StdMap.lookup_modify, if_neg differ]

theorem getVerifiedGame_anonymous (env : Externals) (numbered : s.gameDB.Numbered)
    (anonymous : s.gameDB.isAnonymous = true) (hello : HelloServer) :
    (getVerifiedGame env hello s).1 ≠ none := by
  cases hs : s.gameDB with
  | flatFile games => simp [hs, GameDB.isAnonymous] at anonymous
  | anonymous lastGameId games =>
    rw [hs] at numbered
    have open_to_all : ∃ record, (s.gameDB.findByToken (cStr hello.gameToken)).1 = some record ∧
        record.verify = false := by
      simp only [hs, GameDB.findByToken]
      cases known : games.lookup (cStr hello.gameToken) with
      | some record => exact ⟨record, rfl, (numbered.2 _ record known).1⟩
      | none => exact ⟨_, rfl, rfl⟩
    obtain ⟨record, found, verify⟩ := open_to_all
    unfold getVerifiedGame
    dsimp only
    rw [found]
    simp only [verify, Bool.false_and, Bool.false_eq_true, if_false]
    split
    · simp
    · simp

theorem search_table (settled : Settled k mine s) {hello : HelloServer} (self : ConnPtr)
    (apart : ∀ g, (getVerifiedGame env hello s).1 = some g →
      ¬ k.names ⟨self, cStr hello.gameToken, g⟩)
    (differ : ∀ g, (getVerifiedGame env hello s).1 = some g → k.find s.gameDB ≠ some g) :
    k.find (getVerifiedGame env hello s).2.gameDB = k.find s.gameDB ∧
      (getVerifiedGame env hello s).2.table k = s.table k := by
  have find : k.find (getVerifiedGame env hello s).2.gameDB = k.find s.gameDB := by
    cases k with
    | id gameId => rfl
    | token gameToken =>
      obtain ⟨g, found⟩ := Option.ne_none_iff_exists'.mp
        (getVerifiedGame_anonymous env settled.numbered settled.anonymous hello)
      have other : gameToken ≠ cStr hello.gameToken := fun same => apart g found same.symm
      simp only [GameKey.find, getVerifiedGame_gameDB, findByToken_other other]
  refine ⟨find, ?_⟩
  rw [Server.table, Server.table, find]
  cases known : k.find s.gameDB with
  | none => rfl
  | some g =>
    rcases getVerifiedGame_games env s hello g with same | ⟨_, found, _⟩
    · rw [Option.map_some, Option.map_some, same]
    · exact absurd known (differ g found)

theorem find_grows (grows : Grows s t) {g : GameId} (found : k.find s.gameDB = some g) :
    k.find t.gameDB = some g := by
  cases k with
  | id gameId => exact found
  | token gameToken =>
    obtain ⟨record, known, same⟩ := Option.map_eq_some_iff.mp found
    exact Option.map_eq_some_iff.mpr ⟨record, grows.known gameToken record known, same⟩

theorem aliases_table (settled : Settled k mine s) {self : ConnPtr} {this : P2PSignalConnection}
    (here : s.connections.lookup self = some this) (other : ¬ mine self) (f : Game → Game) :
    (s.updateGameOf this f).table k = s.table k := by
  unfold Server.updateGameOf
  split
  · rename_i h points
    refine table_of_same rfl fun g found => updateGame_other ?_
    rintro rfl
    exact other ((settled.pointing here points).mpr found)
  · rfl

theorem effect_table (settled : Settled k mine s) {self : ConnPtr} {this : P2PSignalConnection}
    (here : s.connections.lookup self = some this) (other : ¬ mine self) {e : Effect}
    {msg : Message} {b : Bool} (reacts : Reacts env s self this msg b e)
    (settled' : Settled k mine (e.apply env self this s)) :
    (e.apply env self this s).table k = s.table k := by
  have queued : ∀ {u : Server} {dest : ConnPtr} {out : Message},
      (u.queue env dest out).table k = u.table k := by
    intro u dest out
    obtain ⟨games, _, gameDB, _⟩ := queue_frame env dest out u
    exact table_of_same gameDB fun g _ => by rw [games]
  cases e with
  | idle => rfl
  | send dest out => exact queued
  | connect dest out => exact queued
  | register aliasName => exact aliases_table settled here other _
  | unregister aliasName => exact aliases_table settled here other _
  | unregisterAll => exact aliases_table settled here other _
  | refuse hello =>
    cases reacts with
    | helloRefused unseated able refused =>
      have nobody : ∀ g, (getVerifiedGame env hello s).1 ≠ some g := by
        rw [refused]
        exact fun g => nofun
      have searched := search_table settled self (fun g found => absurd found (nobody g))
        fun g found => absurd found (nobody g)
      exact searched.2
  | accept hello g =>
    cases reacts with
    | helloAdmitted unseated able admitted =>
      have entry : (⟨self, cStr hello.gameToken, g⟩ : Admission) ∈
          (Effect.apply env self this s (.accept hello g)).admitted := by
        rw [effect_admits]
        exact List.mem_cons_self
      have unnamed : ¬ k.names ⟨self, cStr hello.gameToken, g⟩ := fun names =>
        other ((settled'.divided.mine _ entry).mpr names)
      have differ : k.find s.gameDB ≠ some g := fun found =>
        unnamed ((settled'.names_iff entry).mpr (find_grows (effect_grows _) found))
      have only : ∀ g', (getVerifiedGame env hello s).1 = some g' → g' = g := by
        intro g' found
        rw [admitted] at found
        exact (Option.some.inj found).symm
      obtain ⟨find, searched⟩ := search_table settled self
        (fun g' found => only g' found ▸ unnamed) fun g' found => only g' found ▸ differ
      rw [Effect.apply, queued]
      refine Eq.trans ?_ searched
      refine table_of_same rfl fun g' found => ?_
      have apart : g' ≠ g := by
        rintro rfl
        exact differ (find.symm.trans found)
      exact updateGame_other apart

theorem effect_same (settled : Settled k mine s) {self : ConnPtr} {this : P2PSignalConnection}
    (here : s.connections.lookup self = some this) (other : ¬ mine self) {e : Effect}
    {msg : Message} {b : Bool} (reacts : Reacts env s self this msg b e)
    (settled' : Settled k mine (e.apply env self this s)) :
    Same k mine s (e.apply env self this s) where
  stun := (effect_signals self this e).2.symm
  kind := (effect_grows e).kind.symm
  fixed flat := ((effect_grows e).fixed flat).symm
  owners conn own wsi := by rw [(effect_signals self this e).1]
  conns conn own := by
    have apart : conn ≠ self := by
      rintro rfl
      exact other own
    have quiet : queuedOn env (e.output env self s) conn = [] := by
      cases queued : e.output env self s with
      | none => rfl
      | some o =>
        obtain ⟨dest, out⟩ := o
        refine if_neg ?_
        rintro rfl
        rcases reacts_dest reacts queued with rfl | ⟨h, p, points, lists⟩
        · exact apart rfl
        · exact other ((settled.pointing here points).mpr ((settled.listed lists).mp own))
    rw [apply_lookup, Option.map_map]
    refine Option.map_congr fun c _ => ?_
    simp only [Function.comp, Effect.leaves, if_neg apart, quiet, List.append_nil]
  table := (effect_table settled here other reacts settled').symm

theorem updateConnection_same {conn : ConnPtr} (other : ¬ mine conn)
    (f : P2PSignalConnection → P2PSignalConnection) :
    Same k mine s (s.updateConnection conn f) where
  stun := rfl
  kind := rfl
  fixed _ := rfl
  owners _ _ _ := Iff.rfl
  conns conn' own := by
    have apart : conn' ≠ conn := by
      rintro rfl
      exact other own
    rw [updateConnection_lookup]
    simp only [if_neg apart, Option.map_id']
  table := rfl

theorem closed_same (settled : Settled k mine s) {wsi : Wsi} {retval : Int}
    (returns : Returns (closed wsi) s retval t)
    (other : ∀ conn, s.signalConnections.lookup wsi = some conn → ¬ mine conn) :
    Same k mine s t := by
  have dropped : ∀ conn, s.signalConnections.lookup wsi = some conn → ∀ u : Server,
      Same k mine s u → u.signalConnections = s.signalConnections →
      u.connections = s.connections → Same k mine s (u.drop wsi conn) := by
    intro conn owned u same signals conns
    refine ⟨same.stun, same.kind, same.fixed, ?_, ?_, same.table⟩
    · intro conn' own wsi'
      simp only [Server.drop, signals, StdMap.lookup_erase_if]
      split
      · rename_i closes
        subst closes
        simp only [reduceCtorEq, iff_false]
        exact fun owned' => other conn' owned' own
      · rfl
    · intro conn' own
      have apart : conn' ≠ conn := by
        rintro rfl
        exact other conn' owned own
      simp only [Server.drop, conns, StdMap.lookup_erase_if, if_neg apart]
  rcases closed_cases returns with
    ⟨_, rfl⟩ | ⟨conn, c, owned, live, ⟨_, rfl⟩ | ⟨h, game, _, points, _, rfl⟩⟩
  · exact .refl _
  · exact dropped conn owned s (.refl s) rfl rfl
  · refine dropped conn owned _ ⟨rfl, rfl, fun _ => rfl, fun _ _ _ => Iff.rfl, fun _ _ => rfl, ?_⟩
      rfl rfl
    refine Eq.symm (table_of_same rfl fun g found => updateGame_other ?_)
    rintro rfl
    exact other conn owned ((settled.pointing live points).mpr found)

theorem established_same {wsi : Wsi} {conn : ConnPtr} {retval : Int}
    (allowed : Allowed s (.established wsi conn))
    (returns : Returns (established wsi conn) s retval t) (other : ¬ mine conn) :
    Same k mine s t := by
  rw [returns_established allowed returns]
  refine ⟨rfl, rfl, fun _ => rfl, ?_, ?_, rfl⟩
  · intro conn' own wsi'
    have newWsi : s.signalConnections.lookup wsi = none := AList.lookup_eq_none.mpr allowed.1
    simp only [StdMap.lookup_emplace_new _ _ _ _ newWsi]
    split
    · rename_i same
      subst same
      rw [newWsi]
      simp only [reduceCtorEq, false_iff, Option.some.injEq]
      rintro rfl
      exact other own
    · rfl
  · intro conn' own
    have apart : conn' ≠ conn := by
      rintro rfl
      exact other own
    simp only [StdMap.lookup_insert_if, if_neg apart]

/-- What a step of another connection does, as far as the game can tell. -/
def Unnoticed (k : GameKey) (mine : ConnPtr → Prop) (s t : Server) : Prop :=
  Grows s t ∧ (Settled k mine s → Divided k mine t → Settled k mine t ∧ Same k mine s t)

theorem Unnoticed.refl (s : Server) : Unnoticed k mine s s :=
  ⟨.refl s, fun settled _ => ⟨settled, .refl s⟩⟩

theorem Unnoticed.trans (s t u : Server) (h : Unnoticed k mine s t) (h' : Unnoticed k mine t u) :
    Unnoticed k mine s u := by
  refine ⟨h.1.trans _ _ _ h'.1, fun settled divided => ?_⟩
  obtain ⟨settled', same⟩ := h.2 settled (divided.before h'.1)
  obtain ⟨settled'', same'⟩ := h'.2 settled' divided
  exact ⟨settled'', same.trans same'⟩

theorem unnoticed_step {d : Deed} (step : Step env s d t)
    (same : Settled k mine s → Settled k mine t → Same k mine s t) : Unnoticed k mine s t := by
  refine ⟨step_grows step, fun settled divided => ?_⟩
  have settled' := settled.after (step_grows step) (step_recorded step settled.recorded) divided
  exact ⟨settled', same settled settled'⟩

theorem processMsg_unnoticed {self : ConnPtr} (other : ¬ mine self) (msg : Message) :
    Follows (Unnoticed k mine) (processMsg env self msg) := by
  intro s b t returns
  refine unnoticed_step (.message returns) fun settled settled' => ?_
  obtain ⟨this, here, _⟩ := returns_deref_bind.mp returns
  rcases processMsg_cases here returns with ⟨_, _, _, rfl⟩ | ⟨_, e, reacts, rfl⟩
  · exact .refl _
  · exact effect_same settled here other reacts settled'

theorem receive_unnoticed {wsi : Wsi} {data : Bytes} {pastEnd : Bytes → Bytes} {retval : Int}
    (returns : Returns (receive env wsi data pastEnd) s retval t)
    (other : ∀ conn, s.signalConnections.lookup wsi = some conn → ¬ mine conn) :
    Unnoticed k mine s t := by
  apply receive_follows Unnoticed.refl Unnoticed.trans returns
  · exact fun conn u owned => unnoticed_step (.arrived u conn data : Step env u _ _) fun _ _ =>
      updateConnection_same (other conn owned) _
  · exact fun conn size u owned => unnoticed_step (.erased u conn size : Step env u _ _) fun _ _ =>
      updateConnection_same (other conn owned) _
  · exact fun conn msg u b v owned h => processMsg_unnoticed (other conn owned) msg u b v h

def LwsEvent.conn (s : Server) : LwsEvent → Option ConnPtr
  | .established _ conn => some conn
  | .closed wsi => s.signalConnections.lookup wsi
  | .receive wsi _ _ => s.signalConnections.lookup wsi
  | .writeable wsi _ => s.signalConnections.lookup wsi

theorem callback_unnoticed {event : LwsEvent} {retval : Int} (allowed : Allowed s event)
    (returns : Returns (callbackHumblepeer env event) s retval t)
    (other : ∀ conn, event.conn s = some conn → ¬ mine conn) : Unnoticed k mine s t := by
  cases event with
  | established wsi conn =>
    exact unnoticed_step (.opened allowed returns : Step env s _ t) fun _ _ =>
      established_same allowed returns (other conn rfl)
  | closed wsi =>
    exact unnoticed_step (.closed returns : Step env s _ t) fun settled _ =>
      closed_same settled returns other
  | receive wsi data pastEnd => exact receive_unnoticed returns other
  | writeable wsi written =>
    refine unnoticed_step (.writeable returns) fun _ _ => ?_
    rcases writeable_cases returns with ⟨rfl, _⟩ | ⟨conn, _, owned, _, _, _, _, rfl⟩
    · exact ⟨rfl, rfl, fun _ => rfl, fun _ _ _ => Iff.rfl, fun _ _ => rfl, rfl⟩
    · obtain ⟨stun, kind, fixed, owners, conns, table⟩ :=
        updateConnection_same (k := k) (s := s) (other conn owned)
          fun c => { c with sendBuf := c.sendBuf.drop written.toNat }
      exact ⟨stun, kind, fixed, owners, conns, table⟩

end

end HumbleNet.PeerServer
