import HumbleNet.PeerServer.Lockstep

/-! A message in two servers that are the same to a game. A hello of one of its
connections leads to the same game and the same id; any message leaves both the same. -/
namespace HumbleNet.PeerServer

open Program

/-- Two settled servers that are the same to the game. -/
structure Pair (k : GameKey) (mine : ConnPtr → Prop) (s s' : Server) : Prop where
  settled : Settled k mine s
  settled' : Settled k mine s'
  same : Same k mine s s'

section

variable {env : Externals} {k : GameKey} {mine : ConnPtr → Prop} {s s' t t' : Server}

/-! ### A hello -/

theorem getVerifiedGame_fst (hello : HelloServer) : (getVerifiedGame env hello s).1 =
    (s.gameDB.findByToken (cStr hello.gameToken)).1.bind fun record =>
      if record.verify && !signatureMatches env.sha1 record.secret hello then none
      else some record.gameId := by
  unfold getVerifiedGame
  dsimp only
  split
  · rename_i missing
    rw [missing, Option.bind_none]
  · rename_i record found
    rw [found, Option.bind_some]
    split
    · rfl
    · split
      · rfl
      · rfl

theorem Pair.refuses (pair : Pair k mine s s') {hello : HelloServer}
    (refused : (getVerifiedGame env hello s).1 = none) :
    (getVerifiedGame env hello s').1 = none := by
  cases kind : s.gameDB.isAnonymous with
  | true =>
    exact absurd refused (getVerifiedGame_anonymous env pair.settled.numbered kind hello)
  | false =>
    rw [getVerifiedGame_fst] at refused ⊢
    rw [← pair.same.fixed kind]
    exact refused

theorem find_search {hello : HelloServer} {g : GameId} {self : ConnPtr}
    (found : (getVerifiedGame env hello s).1 = some g)
    (names : k.names ⟨self, cStr hello.gameToken, g⟩) :
    k.find (getVerifiedGame env hello s).2.gameDB = some g := by
  cases k with
  | id gameId => exact congrArg some (Eq.symm names)
  | token gameToken =>
    cases names
    obtain ⟨record, known, rfl⟩ := getVerifiedGame_record found
    simp only [GameKey.find, getVerifiedGame_gameDB, findByToken_lookup, known, Option.map_some]

theorem search_game (settled : Settled k mine s) {hello : HelloServer} {g : GameId}
    {self : ConnPtr} (found : (getVerifiedGame env hello s).1 = some g)
    (names : k.names ⟨self, cStr hello.gameToken, g⟩)
    (numbered : (getVerifiedGame env hello s).2.gameDB.Numbered) :
    ∃ game, (getVerifiedGame env hello s).2.games.lookup g = some game ∧
      game.seen = (s.table k).join.getD (Game.new 0) := by
  obtain ⟨game, there⟩ := (getVerifiedGame_books env s hello).2.2 g found
  have grows : Grows s (getVerifiedGame env hello s).2 := by
    refine search_grows hello (getVerifiedGame_gameDB hello) ?_
    obtain ⟨_, _, same⟩ := getVerifiedGame_frame env s hello
    rw [same]
    exact fun _ h => h
  have after : k.find (getVerifiedGame env hello s).2.gameDB = some g := find_search found names
  have table : (s.table k).join = (s.games.lookup g).map Game.seen := by
    cases before : k.find s.gameDB with
    | some h =>
      have same := find_grows grows before
      rw [after] at same
      cases same
      rw [Server.table, before, Option.map_some, Option.join_some]
    | none =>
      -- a token that is new to the database has no game
      have absent : s.games.lookup g = none := by
        by_contra known
        obtain ⟨game', known⟩ := Option.ne_none_iff_exists'.mp known
        obtain ⟨token, record, listed, same⟩ :=
          settled.recorded.founded g (StdMap.mem_iff_lookup.mpr ⟨game', known⟩)
        cases k with
        | id gameId => cases before
        | token gameToken =>
          obtain ⟨record', listed', same'⟩ := Option.map_eq_some_iff.mp after
          have anonymous := grows.kind.trans (Settled.anonymous settled)
          have one := numbered.only anonymous listed' (grows.known token record listed)
            (same.trans same'.symm)
          subst one
          rw [GameKey.find, listed] at before
          cases before
      rw [Server.table, before, absent]
      rfl
  refine ⟨game, there, ?_⟩
  rw [table]
  rcases getVerifiedGame_games env s hello g with same | ⟨fresh, _, new⟩
  · rw [← same, there]
    rfl
  · rw [there] at new
    cases new
    rw [fresh]
    rfl

def Server.shown (s : Server) (k : GameKey) : Game := (s.table k).join.getD (Game.new 0)

theorem accept_table (settled : Settled k mine s) {hello : HelloServer} {g : GameId}
    {self : ConnPtr} (this : P2PSignalConnection)
    (found : (getVerifiedGame env hello s).1 = some g)
    (names : k.names ⟨self, cStr hello.gameToken, g⟩)
    (numbered : (getVerifiedGame env hello s).2.gameDB.Numbered) :
    s.admits env hello g = (s.shown k).nextPeerId ∧
      (Effect.apply env self this s (.accept hello g)).table k =
        some (some { (s.shown k).generateNewPeerId.2 with
          peers := StdMap.emplace (s.shown k).nextPeerId self (s.shown k).peers }) := by
  obtain ⟨game, there, seen⟩ := search_game settled found names numbered
  have shown : s.shown k = game.seen := seen.symm
  have admits : s.admits env hello g = game.nextPeerId := by
    rw [Server.admits, there]
    rfl
  refine ⟨by rw [admits, shown]; rfl, ?_⟩
  have find := find_search found names
  obtain ⟨games, _, gameDB, _⟩ := queue_frame env self
    (sendHelloClient id (s.admits env hello g) []
      (populateStunServers (getVerifiedGame env hello s).2))
    ((getVerifiedGame env hello s).2.enroll self hello g (s.admits env hello g))
  have enrolled : (Effect.apply env self this s (.accept hello g)).table k =
      ((getVerifiedGame env hello s).2.enroll self hello g (s.admits env hello g)).table k :=
    table_of_same gameDB fun g _ => by rw [← games]; rfl
  have same : k.find ((getVerifiedGame env hello s).2.enroll self hello g
      (s.admits env hello g)).gameDB = some g := find
  rw [enrolled, Server.table, same, shown, admits]
  simp only [Server.enroll, Server.updateConnection, Server.updateGame, StdMap.lookup_modify,
    if_true, there, Option.map_some]
  rfl

theorem effects_same (pair : Pair k mine s s') {self : ConnPtr} (this this' : P2PSignalConnection)
    {e e' : Effect}
    (leaves : ∀ conn c c', c.seen = c'.seen →
      (e.leaves env self s conn c).seen = (e'.leaves env self s' conn c').seen)
    (table : (e.apply env self this s).table k = (e'.apply env self this' s').table k) :
    Same k mine (e.apply env self this s) (e'.apply env self this' s') where
  stun := by
    rw [(effect_signals self this e).2, (effect_signals self this' e').2, pair.same.stun]
  kind := by
    rw [(effect_grows e).kind, (effect_grows e').kind, pair.same.kind]
  fixed flat := by
    have flat := (effect_grows e).kind.symm.trans flat
    rw [(effect_grows e).fixed flat, (effect_grows e').fixed (pair.same.kind.symm.trans flat),
      pair.same.fixed flat]
  owners := by
    rw [(effect_signals self this e).1, (effect_signals self this' e').1]
    exact pair.same.owners
  conns conn own := by
    have same := pair.same.conns conn own
    rw [apply_lookup, apply_lookup]
    cases live : s.connections.lookup conn with
    | none =>
      rw [live, Option.map_none, eq_comm, Option.map_eq_none_iff] at same
      rw [same]
      rfl
    | some c =>
      rw [live, Option.map_some, eq_comm, Option.map_eq_some_iff] at same
      obtain ⟨c', live', seen⟩ := same
      rw [live']
      exact congrArg some (leaves conn c c' seen.symm)
  table := table

theorem refuse_same (pair : Pair k mine s s') {self : ConnPtr} (this this' : P2PSignalConnection)
    {hello : HelloServer} (refused : (getVerifiedGame env hello s).1 = none) :
    Same k mine (Effect.apply env self this s (.refuse hello))
      (Effect.apply env self this' s' (.refuse hello)) := by
  have still : ∀ u : Server, Settled k mine u → (getVerifiedGame env hello u).1 = none →
      ∀ this, (Effect.apply env self this u (.refuse hello)).table k = u.table k := by
    intro u settled refused this
    have nobody : ∀ g, (getVerifiedGame env hello u).1 ≠ some g := by
      rw [refused]
      exact fun g => nofun
    have searched := search_table settled self (fun g found => absurd found (nobody g))
      fun g found => absurd found (nobody g)
    exact searched.2
  apply effects_same pair this this'
  · intro conn c c' seen
    have through : ∀ (u : Server) (d : P2PSignalConnection),
        (Effect.leaves env self u (.refuse hello) conn d).seen =
          if conn = self then { d.seen with game := none } else d.seen := by
      intro u d
      simp only [Effect.leaves, Effect.assigned, Effect.output, queuedOn, List.append_nil]
      split
      · rfl
      · rfl
    rw [through, through, seen]
  · rw [still s pair.settled refused, still s' pair.settled' (pair.refuses refused),
      pair.same.table]

theorem accept_same (pair : Pair k mine s s') {self : ConnPtr}
    (this this' : P2PSignalConnection) {hello : HelloServer} {g g' : GameId}
    (found : (getVerifiedGame env hello s).1 = some g)
    (found' : (getVerifiedGame env hello s').1 = some g')
    (names : k.names ⟨self, cStr hello.gameToken, g⟩)
    (names' : k.names ⟨self, cStr hello.gameToken, g'⟩)
    (numbered : (getVerifiedGame env hello s).2.gameDB.Numbered)
    (numbered' : (getVerifiedGame env hello s').2.gameDB.Numbered) :
    Same k mine (Effect.apply env self this s (.accept hello g))
      (Effect.apply env self this' s' (.accept hello g')) := by
  obtain ⟨admits, table⟩ := accept_table pair.settled this found names numbered
  obtain ⟨admits', table'⟩ := accept_table pair.settled' this' found' names' numbered'
  have shown : s.shown k = s'.shown k := by
    rw [Server.shown, Server.shown, pair.same.table]
  have given : s.admits env hello g = s'.admits env hello g' := by rw [admits, admits', shown]
  have stun : populateStunServers s = populateStunServers s' := by
    rw [populateStunServers, populateStunServers, pair.same.stun]
  apply effects_same pair this this'
  · intro conn c c' seen
    have through : ∀ (u : Server) (g : GameId) (d : P2PSignalConnection),
        (Effect.leaves env self u (.accept hello g) conn d).seen =
          let answered := { d.seen with
            sendBuf := d.seen.sendBuf ++ queuedOn env (some (self,
              sendHelloClient id (u.admits env hello g) [] (populateStunServers u))) conn }
          if conn = self then
            { answered with
              game := some 0
              peerId := u.admits env hello g
              webRTCsupport := true
              trickleICE := decide (hello.flags &&& noTrickleFlag = 0) }
          else answered := by
      intro u g d
      simp only [Effect.leaves, Effect.assigned, Effect.output]
      split
      · rfl
      · rfl
    rw [through, through, seen, given, stun]
  · rw [table, table', shown]

theorem Pair.conn (pair : Pair k mine s s') {conn : ConnPtr} (own : mine conn)
    {c : P2PSignalConnection} (live : s.connections.lookup conn = some c) :
    ∃ c', s'.connections.lookup conn = some c' ∧ c.seen = c'.seen := by
  have same := pair.same.conns conn own
  rw [live, Option.map_some, eq_comm, Option.map_eq_some_iff] at same
  obtain ⟨c', live', seen⟩ := same
  exact ⟨c', live', seen.symm⟩

theorem accept_names {self : ConnPtr} (own : mine self) {this : P2PSignalConnection}
    {hello : HelloServer} {g : GameId}
    (settled : Settled k mine (Effect.apply env self this s (.accept hello g))) :
    k.names ⟨self, cStr hello.gameToken, g⟩ ∧ (getVerifiedGame env hello s).2.gameDB.Numbered := by
  have entry : (⟨self, cStr hello.gameToken, g⟩ : Admission) ∈
      (Effect.apply env self this s (.accept hello g)).admitted := by
    rw [effect_admits]
    exact List.mem_cons_self
  refine ⟨(settled.divided.mine _ entry).mp own, ?_⟩
  have gameDB : (Effect.apply env self this s (.accept hello g)).gameDB =
      (getVerifiedGame env hello s).2.gameDB := by
    simp only [Effect.apply, (queue_frame env _ _ _).2.2.1]
    rfl
  rw [← gameDB]
  exact settled.numbered

theorem hello_same (pair : Pair k mine s s') {self : ConnPtr} (own : mine self)
    {this this' : P2PSignalConnection} (seen : this.seen = this'.seen)
    {hello : Option HelloServer} {b b' : Bool} {e e' : Effect}
    (reacts : Reacts env s self this (.helloServer hello) b e)
    (reacts' : Reacts env s' self this' (.helloServer hello) b' e')
    (settled : Settled k mine (e.apply env self this s))
    (settled' : Settled k mine (e'.apply env self this' s')) :
    b = b' ∧ Same k mine (e.apply env self this s) (e'.apply env self this' s') := by
  have id : this.peerId = this'.peerId := congrArg (·.peerId) seen
  cases reacts with
  | helloAgain seated =>
    cases reacts' with
    | helloAgain => exact ⟨rfl, pair.same⟩
    | helloWithoutWebRTC unseated | helloRefused unseated | helloAdmitted unseated =>
      exact absurd (id.trans unseated) seated
    | ignored kind => simp [Message.messageType] at kind
  | helloWithoutWebRTC unseated without =>
    cases reacts' with
    | helloAgain seated => exact absurd (id.symm.trans unseated) seated
    | helloWithoutWebRTC => exact ⟨rfl, pair.same⟩
    | helloRefused _ able | helloAdmitted _ able => exact absurd without able
    | ignored kind => simp [Message.messageType] at kind
  | helloRefused unseated able refused =>
    cases reacts' with
    | helloAgain seated => exact absurd (id.symm.trans unseated) seated
    | helloWithoutWebRTC _ without => exact absurd without able
    | helloRefused => exact ⟨rfl, refuse_same pair this this' refused⟩
    | helloAdmitted _ _ found => simp [pair.refuses refused] at found
    | ignored kind => simp [Message.messageType] at kind
  | helloAdmitted unseated able found =>
    cases reacts' with
    | helloAgain seated => exact absurd (id.symm.trans unseated) seated
    | helloWithoutWebRTC _ without => exact absurd without able
    | helloRefused _ _ refused =>
      have other : Pair k mine s' s := ⟨pair.settled', pair.settled, pair.same.symm⟩
      simp [other.refuses refused] at found
    | helloAdmitted _ _ found' =>
      obtain ⟨names, numbered⟩ := accept_names own settled
      obtain ⟨names', numbered'⟩ := accept_names own settled'
      exact ⟨rfl, accept_same pair this this' found found' names names' numbered numbered'⟩
    | ignored kind => simp [Message.messageType] at kind
  | ignored kind => simp [Message.messageType] at kind

/-! ### A message -/

theorem Settled.step {d : Deed} (settled : Settled k mine s) (step : Step env s d t)
    (divided : Divided k mine t) : Settled k mine t :=
  settled.after (step_grows step) (step_recorded step settled.recorded) divided

theorem processMsg_alike {self : ConnPtr} (own : mine self) (msg : Message) :
    Alike (Divided k mine) (Pair k mine) Eq (processMsg env self msg)
      (processMsg env self msg) := by
  intro s s' b b' t t' pair returns returns' divided divided'
  have settled := pair.settled.step (.message returns) divided
  have settled' := pair.settled'.step (.message returns') divided'
  obtain ⟨this, here, _⟩ := returns_deref_bind.mp returns
  obtain ⟨this', here', seen⟩ := pair.conn own here
  by_cases kind : msg.messageType = .HelloServer
  · rcases processMsg_cases here returns with ⟨_, other, _⟩ | ⟨_, e, reacts, rfl⟩
    · exact absurd kind other
    rcases processMsg_cases here' returns' with ⟨_, other, _⟩ | ⟨_, e', reacts', rfl⟩
    · exact absurd kind other
    cases msg with
    | helloServer hello =>
      obtain ⟨same, still⟩ := hello_same pair own seen reacts reacts' settled settled'
      exact ⟨same, settled, settled', still⟩
    | _ => cases kind
  · have id : this.peerId = this'.peerId := congrArg (·.peerId) seen
    simp only [processMsg, returns_this_bind here, returns_this_bind here', ← id] at returns returns'
    by_cases unseated : this.peerId = 0
    · rw [if_pos ⟨unseated, kind⟩] at returns returns'
      obtain ⟨rfl, rfl⟩ := returns_pure.mp returns
      obtain ⟨rfl, rfl⟩ := returns_pure.mp returns'
      exact ⟨rfl, pair⟩
    · rw [if_neg fun both => unseated both.1] at returns returns'
      have twins : Twins k mine (k.find s.gameDB) (k.find s'.gameDB) s s' :=
        ⟨pair.settled, pair.settled', pair.same, rfl, rfl⟩
      obtain ⟨same, after⟩ :=
        dispatch_inStep own kind s s' b b' t t' twins returns returns' trivial trivial
      exact ⟨same, after.settled, after.settled', after.same⟩

end

end HumbleNet.PeerServer
