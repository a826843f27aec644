import HumbleNet.PeerServer.Touched

/-! Who was admitted to which game. Whoever points to a game, or is listed by one, was
admitted to it; and as long as a database knows fewer than 2^32 tokens, two tokens do not
share a game. -/
namespace HumbleNet.PeerServer

open Program

/-! ### Databases -/

def GameDB.lookup (token : Bytes) : GameDB → Option GameRecord
  | .anonymous _ games => games.lookup token
  | .flatFile games => games.lookup token

def GameDB.isAnonymous : GameDB → Bool
  | .anonymous _ _ => true
  | .flatFile _ => false

def GameDB.tokens : GameDB → Nat
  | .anonymous _ games => games.entries.length
  | .flatFile _ => 0

/-- An anonymous database numbers its tokens. -/
def GameDB.Numbered : GameDB → Prop
  | .anonymous lastGameId games =>
    lastGameId.toNat = games.entries.length ∧ ∀ token record, games.lookup token = some record →
      record.verify = false ∧ record.gameId.toNat ≤ lastGameId.toNat ∧
        ∀ token' record', games.lookup token' = some record' → record'.gameId = record.gameId →
          token' = token
  | .flatFile _ => True

theorem GameDB.Numbered.only {db : GameDB} (numbered : db.Numbered)
    (anonymous : db.isAnonymous = true) {token token' : Bytes} {record record' : GameRecord}
    (known : db.lookup token = some record) (known' : db.lookup token' = some record')
    (same : record'.gameId = record.gameId) : token' = token := by
  cases db with
  | anonymous lastGameId games =>
    obtain ⟨_, _, only⟩ := numbered.2 token record known
    exact only token' record' known' same
  | flatFile games => cases anonymous

section databases

variable {db : GameDB} {token : Bytes} {record : GameRecord}

theorem findByToken_lookup (db : GameDB) (token : Bytes) :
    (db.findByToken token).2.lookup token = (db.findByToken token).1 := by
  cases db with
  | anonymous lastGameId games =>
    simp only [GameDB.findByToken]
    cases known : games.lookup token with
    | some record => exact known
    | none => simp only [GameDB.lookup, StdMap.lookup_emplace_new _ _ _ _ known, if_true]
  | flatFile games => rfl

theorem findByToken_other {other : Bytes} (differ : other ≠ token) :
    (db.findByToken token).2.lookup other = db.lookup other := by
  cases db with
  | anonymous lastGameId games =>
    simp only [GameDB.findByToken]
    cases known : games.lookup token with
    | some record => rfl
    | none => simp only [GameDB.lookup, StdMap.lookup_emplace_new _ _ _ _ known, if_neg differ]
  | flatFile games => rfl

theorem findByToken_known {other : Bytes} (known : db.lookup other = some record) :
    (db.findByToken token).2.lookup other = some record := by
  by_cases same : other = token
  · subst same
    rw [findByToken_lookup]
    cases db with
    | anonymous lastGameId games =>
      have found : games.lookup other = some record := known
      simp only [GameDB.findByToken, found]
    | flatFile games => exact known
  · rw [findByToken_other same]
    exact known

theorem findByToken_kind (db : GameDB) (token : Bytes) :
    (db.findByToken token).2.isAnonymous = db.isAnonymous ∧
      (db.isAnonymous = false → (db.findByToken token).2 = db) := by
  cases db with
  | anonymous lastGameId games =>
    simp only [GameDB.findByToken]
    split
    · exact ⟨rfl, nofun⟩
    · exact ⟨rfl, nofun⟩
  | flatFile games => exact ⟨rfl, fun _ => rfl⟩

theorem tokens_le_findByToken (db : GameDB) (token : Bytes) :
    db.tokens ≤ (db.findByToken token).2.tokens := by
  cases db with
  | anonymous lastGameId games =>
    simp only [GameDB.findByToken]
    cases known : games.lookup token with
    | some record => exact Nat.le_refl _
    | none =>
      have fresh : token ∉ games := AList.lookup_eq_none.mp known
      simp only [GameDB.tokens, StdMap.emplace, if_neg fresh, AList.entries_insert_of_notMem fresh,
        List.length_cons]
      exact Nat.le_succ _
  | flatFile games => exact Nat.le_refl _

theorem findByToken_numbered (numbered : db.Numbered)
    (few : (db.findByToken token).2.tokens < 2 ^ 32) : (db.findByToken token).2.Numbered := by
  cases db with
  | flatFile games => trivial
  | anonymous lastGameId games =>
    cases known : games.lookup token with
    | some record =>
      simp only [GameDB.findByToken, known]
      exact numbered
    | none =>
      obtain ⟨count, each⟩ := numbered
      have fresh : token ∉ games := AList.lookup_eq_none.mp known
      simp only [GameDB.findByToken, known, GameDB.tokens, StdMap.emplace, if_neg fresh,
        AList.entries_insert_of_notMem fresh, List.length_cons] at few
      have next : (lastGameId + 1).toNat = lastGameId.toNat + 1 := by
        rw [UInt32.toNat_add]
        exact Nat.mod_eq_of_lt (by change lastGameId.toNat + 1 < 2 ^ 32; omega)
      have apart : ∀ token' record', games.lookup token' = some record' →
          record'.gameId ≠ lastGameId + 1 := by
        intro token' record' found eq
        have le := (each token' record' found).2.1
        rw [eq, next] at le
        omega
      simp only [GameDB.findByToken, known]
      refine ⟨?_, ?_⟩
      · simp only [StdMap.emplace, if_neg fresh, AList.entries_insert_of_notMem fresh,
          List.length_cons, next, count]
      · intro token' record' found
        simp only [StdMap.lookup_emplace_new _ _ _ _ known] at found ⊢
        split at found
        · rename_i same
          cases found
          refine ⟨rfl, Nat.le_refl _, fun token'' record'' found' eq => ?_⟩
          split at found'
          · rename_i same'
            rw [same, same']
          · exact absurd eq (apart token'' record'' found')
        · obtain ⟨verify, le, only⟩ := each token' record' found
          refine ⟨verify, by omega, fun token'' record'' found' eq => ?_⟩
          split at found'
          · cases found'
            exact absurd eq.symm (apart token' record' found)
          · exact only token'' record'' found' eq

end databases

/-! ### Admissions -/

/-- Whoever points to a game or is listed by it was admitted to it, with a token that the
database has for that game; there is a token for every game. -/
structure Recorded (s : Server) : Prop where
  pointing : ∀ conn c h, s.connections.lookup conn = some c → c.game = some h →
    ∃ a ∈ s.admitted, a.conn = conn ∧ a.gameId = h
  listed : ∀ h game p conn, s.games.lookup h = some game → game.peers.lookup p = some conn →
    ∃ a ∈ s.admitted, a.conn = conn ∧ a.gameId = h
  known : ∀ a ∈ s.admitted, ∃ record, s.gameDB.lookup a.gameToken = some record ∧
    record.gameId = a.gameId
  founded : ∀ h ∈ s.games, ∃ token record, s.gameDB.lookup token = some record ∧
    record.gameId = h

/-- What only grows: who was admitted, and what the database knows. -/
structure Grows (s t : Server) : Prop where
  admitted : ∀ a ∈ s.admitted, a ∈ t.admitted
  tokens : s.gameDB.tokens ≤ t.gameDB.tokens
  known : ∀ token record, s.gameDB.lookup token = some record →
    t.gameDB.lookup token = some record
  numbered : s.gameDB.Numbered → t.gameDB.tokens < 2 ^ 32 → t.gameDB.Numbered
  kind : t.gameDB.isAnonymous = s.gameDB.isAnonymous
  fixed : s.gameDB.isAnonymous = false → t.gameDB = s.gameDB

theorem Grows.refl (s : Server) : Grows s s :=
  ⟨fun _ h => h, Nat.le_refl _, fun _ _ h => h, fun h _ => h, rfl, fun _ => rfl⟩

theorem Grows.trans (s t u : Server) (h : Grows s t) (k : Grows t u) : Grows s u where
  admitted a ha := k.admitted a (h.admitted a ha)
  tokens := Nat.le_trans h.tokens k.tokens
  known token record found := k.known token record (h.known token record found)
  numbered numbered few := k.numbered (h.numbered numbered (Nat.lt_of_le_of_lt k.tokens few)) few
  kind := k.kind.trans h.kind
  fixed flat := (k.fixed (h.kind.trans flat)).trans (h.fixed flat)

theorem grows_of_eq {s t : Server} (admitted : t.admitted = s.admitted)
    (gameDB : t.gameDB = s.gameDB) : Grows s t := by
  refine ⟨?_, ?_, ?_, ?_, ?_, ?_⟩
  · rw [admitted]
    exact fun _ h => h
  · rw [gameDB]
  · rw [gameDB]
    exact fun _ _ h => h
  · rw [gameDB]
    exact fun h _ => h
  · rw [gameDB]
  · exact fun _ => gameDB

section steps

variable {env : Externals} {s t : Server} {self : ConnPtr} {this : P2PSignalConnection}

theorem getVerifiedGame_gameDB (hello : HelloServer) : (getVerifiedGame env hello s).2.gameDB =
    (s.gameDB.findByToken (cStr hello.gameToken)).2 := by
  unfold getVerifiedGame
  dsimp only
  split
  · rfl
  · split
    · rfl
    · split
      · rfl
      · rfl

theorem getVerifiedGame_record {hello : HelloServer} {g : GameId}
    (found : (getVerifiedGame env hello s).1 = some g) :
    ∃ record, (s.gameDB.findByToken (cStr hello.gameToken)).1 = some record ∧
      record.gameId = g := by
  unfold getVerifiedGame at found
  dsimp only at found
  split at found
  · cases found
  · rename_i record known
    refine ⟨record, known, ?_⟩
    split at found
    · cases found
    · split at found
      · cases found
        rfl
      · cases found
        rfl

theorem getVerifiedGame_games (env : Externals) (s : Server) (hello : HelloServer)
    (h : GameId) :
    (getVerifiedGame env hello s).2.games.lookup h = s.games.lookup h ∨
      s.games.lookup h = none ∧ (getVerifiedGame env hello s).1 = some h ∧
        (getVerifiedGame env hello s).2.games.lookup h = some (Game.new h) := by
  unfold getVerifiedGame
  dsimp only
  split
  · exact Or.inl rfl
  · split
    · exact Or.inl rfl
    · split
      · exact Or.inl rfl
      · rename_i fresh
        simp only [StdMap.lookup_emplace_new _ _ _ _ fresh]
        split
        · rename_i same
          subst same
          exact Or.inr ⟨fresh, rfl, rfl⟩
        · exact Or.inl rfl

theorem queue_grows (dest : ConnPtr) (msg : Message) : Grows s (s.queue env dest msg) := by
  obtain ⟨_, _, gameDB, _, _, admitted⟩ := queue_frame env dest msg s
  exact grows_of_eq admitted gameDB

theorem search_grows (hello : HelloServer) (gameDB : t.gameDB =
      (s.gameDB.findByToken (cStr hello.gameToken)).2)
    (admitted : ∀ a ∈ s.admitted, a ∈ t.admitted) : Grows s t where
  admitted := admitted
  tokens := by
    rw [gameDB]
    exact tokens_le_findByToken _ _
  known token record known := by
    rw [gameDB]
    exact findByToken_known known
  numbered numbered few := by
    rw [gameDB] at few ⊢
    exact findByToken_numbered numbered few
  kind := by
    rw [gameDB]
    exact (findByToken_kind _ _).1
  fixed flat := gameDB.trans ((findByToken_kind _ _).2 flat)

theorem effect_grows (e : Effect) : Grows s (e.apply env self this s) := by
  have aliases : ∀ f, Grows s (s.updateGameOf this f) := by
    intro f
    unfold Server.updateGameOf
    split
    · exact grows_of_eq rfl rfl
    · exact .refl s
  cases e with
  | idle => exact .refl s
  | send dest msg => exact queue_grows dest msg
  | connect dest msg =>
    exact .trans _ (s.updateConnection self _) _ (grows_of_eq rfl rfl) (queue_grows dest msg)
  | register aliasName => exact aliases _
  | unregister aliasName => exact aliases _
  | unregisterAll => exact aliases _
  | refuse hello =>
    obtain ⟨gameDB, games, found⟩ := getVerifiedGame_frame env s hello
    refine search_grows hello (getVerifiedGame_gameDB hello) ?_
    rw [Effect.apply, found]
    exact fun _ h => h
  | accept hello g =>
    refine .trans _ _ _ (search_grows hello ?_ ?_) (queue_grows self _)
    · exact getVerifiedGame_gameDB hello
    · obtain ⟨gameDB, games, found⟩ := getVerifiedGame_frame env s hello
      rw [found]
      exact fun _ h => List.mem_cons_of_mem _ h

theorem step_grows {d : Deed} (step : Step env s d t) : Grows s t := by
  cases step with
  | opened allowed returns =>
    rw [returns_established allowed returns]
    exact grows_of_eq rfl rfl
  | closed returns =>
    rcases closed_cases returns with ⟨_, rfl⟩ | ⟨_, _, _, _, ⟨_, rfl⟩ | ⟨_, _, _, _, _, rfl⟩⟩
    · exact .refl _
    · exact grows_of_eq rfl rfl
    · exact grows_of_eq rfl rfl
  | arrived conn data => exact grows_of_eq rfl rfl
  | erased conn size => exact grows_of_eq rfl rfl
  | message returns =>
    obtain ⟨this, here, _⟩ := returns_deref_bind.mp returns
    rcases processMsg_cases here returns with ⟨_, _, _, rfl⟩ | ⟨_, e, _, rfl⟩
    · exact .refl _
    · exact effect_grows e
  | writeable returns =>
    rcases writeable_cases returns with ⟨rfl, _⟩ | ⟨_, _, _, _, _, _, _, rfl⟩
    · exact grows_of_eq rfl rfl
    · exact grows_of_eq rfl rfl

def Lists (s : Server) (h : GameId) (p : PeerId) (conn : ConnPtr) : Prop :=
  ∃ game, s.games.lookup h = some game ∧ game.peers.lookup p = some conn

theorem lists_updateGame {h k : GameId} {f : Game → Game} {p : PeerId} {conn : ConnPtr}
    (fewer : ∀ game, s.games.lookup k = some game → (f game).peers.lookup p = some conn →
      game.peers.lookup p = some conn) (lists : Lists (s.updateGame k f) h p conn) :
    Lists s h p conn := by
  obtain ⟨game, there, listed⟩ := lists
  obtain ⟨before, known, rfl⟩ := StdMap.lookup_modify_some.mp there
  refine ⟨before, known, ?_⟩
  split at listed
  · rename_i same
    subst same
    exact fewer before known listed
  · exact listed

theorem lists_of_games {h : GameId} {p : PeerId} {conn : ConnPtr} (same : t.games = s.games)
    (lists : Lists t h p conn) : Lists s h p conn := by
  rw [Lists, same] at lists
  exact lists

theorem lists_search (env : Externals) (hello : HelloServer) {h : GameId} {p : PeerId}
    {conn : ConnPtr}
    (lists : Lists (getVerifiedGame env hello s).2 h p conn) : Lists s h p conn := by
  obtain ⟨game, there, listed⟩ := lists
  rcases getVerifiedGame_games env s hello h with same | ⟨_, _, new⟩
  · exact ⟨game, same ▸ there, listed⟩
  · rw [new] at there
    cases there
    cases listed

theorem effect_lists {e : Effect} {h : GameId} {p : PeerId} {conn : ConnPtr}
    (lists : Lists (e.apply env self this s) h p conn) :
    Lists s h p conn ∨ ∃ hello, e = .accept hello h ∧ conn = self := by
  have aliases : ∀ f : Game → Game, (∀ game, (f game).peers = game.peers) →
      Lists (s.updateGameOf this f) h p conn → Lists s h p conn := by
    intro f same
    unfold Server.updateGameOf
    split
    · exact lists_updateGame fun game _ listed => same game ▸ listed
    · exact id
  cases e with
  | idle => exact Or.inl lists
  | send dest msg => exact Or.inl (lists_of_games (queue_frame env dest msg s).1 lists)
  | connect dest msg =>
    rw [Effect.apply] at lists
    have queued := lists_of_games (queue_frame env dest msg _).1 lists
    exact Or.inl queued
  | register aliasName | unregister aliasName | unregisterAll =>
    refine Or.inl (aliases _ ?_ lists)
    exact fun _ => rfl
  | refuse hello => exact Or.inl (lists_search env hello lists)
  | accept hello g =>
    have enrolled := lists_of_games (queue_frame env self _ _).1 lists
    obtain ⟨game, there, listed⟩ := enrolled
    obtain ⟨before, known, rfl⟩ := StdMap.lookup_modify_some.mp there
    split at listed
    · rename_i same
      subst same
      rcases StdMap.lookup_emplace_some listed with own | old
      · exact Or.inr ⟨hello, rfl, own⟩
      · exact Or.inl (lists_search env hello ⟨before, known, old⟩)
    · exact Or.inl (lists_search env hello ⟨before, known, listed⟩)

theorem effect_admits (hello : HelloServer) (g : GameId) :
    (Effect.apply env self this s (.accept hello g)).admitted =
      ⟨self, cStr hello.gameToken, g⟩ :: s.admitted := by
  obtain ⟨gameDB, games, found⟩ := getVerifiedGame_frame env s hello
  simp only [Effect.apply, (queue_frame env _ _ _).2.2.2.2.2, found]
  rfl

theorem effect_admitted {e : Effect} {a : Admission}
    (admitted : a ∈ (e.apply env self this s).admitted) :
    a ∈ s.admitted ∨ ∃ hello g, e = .accept hello g ∧ a = ⟨self, cStr hello.gameToken, g⟩ := by
  have aliases : ∀ f : Game → Game, (s.updateGameOf this f).admitted = s.admitted := by
    intro f
    unfold Server.updateGameOf
    split
    · rfl
    · rfl
  cases e with
  | idle => exact Or.inl admitted
  | send dest msg =>
    rw [Effect.apply, (queue_frame env dest msg s).2.2.2.2.2] at admitted
    exact Or.inl admitted
  | connect dest msg =>
    rw [Effect.apply, (queue_frame env dest msg _).2.2.2.2.2] at admitted
    exact Or.inl admitted
  | register aliasName => exact Or.inl (aliases _ ▸ admitted)
  | unregister aliasName => exact Or.inl (aliases _ ▸ admitted)
  | unregisterAll => exact Or.inl (aliases _ ▸ admitted)
  | refuse hello =>
    obtain ⟨gameDB, games, found⟩ := getVerifiedGame_frame env s hello
    rw [Effect.apply, found] at admitted
    exact Or.inl admitted
  | accept hello g =>
    rw [effect_admits] at admitted
    rcases List.mem_cons.mp admitted with new | old
    · exact Or.inr ⟨hello, g, rfl, new⟩
    · exact Or.inl old

theorem recorded_step (recorded : Recorded s) (grows : Grows s t)
    (pointing : ∀ conn c' h, t.connections.lookup conn = some c' → c'.game = some h →
      (∃ c, s.connections.lookup conn = some c ∧ c.game = some h) ∨
        ∃ a ∈ t.admitted, a.conn = conn ∧ a.gameId = h)
    (listed : ∀ h p conn, Lists t h p conn → Lists s h p conn ∨
      ∃ a ∈ t.admitted, a.conn = conn ∧ a.gameId = h)
    (known : ∀ a ∈ t.admitted, a ∈ s.admitted ∨
      ∃ record, t.gameDB.lookup a.gameToken = some record ∧ record.gameId = a.gameId)
    (founded : ∀ h ∈ t.games, h ∈ s.games ∨
      ∃ token record, t.gameDB.lookup token = some record ∧ record.gameId = h) : Recorded t where
  pointing conn c' h live points := by
    rcases pointing conn c' h live points with ⟨c, before, same⟩ | new
    · obtain ⟨a, ha, own⟩ := recorded.pointing conn c h before same
      exact ⟨a, grows.admitted a ha, own⟩
    · exact new
  listed h game p conn there lists := by
    rcases listed h p conn ⟨game, there, lists⟩ with ⟨game', before, lists'⟩ | new
    · obtain ⟨a, ha, own⟩ := recorded.listed h game' p conn before lists'
      exact ⟨a, grows.admitted a ha, own⟩
    · exact new
  known a ha := by
    rcases known a ha with old | new
    · obtain ⟨record, found, same⟩ := recorded.known a old
      exact ⟨record, grows.known _ record found, same⟩
    · exact new
  founded h there := by
    rcases founded h there with old | new
    · obtain ⟨token, record, found, same⟩ := recorded.founded h old
      exact ⟨token, record, grows.known token record found, same⟩
    · exact new

theorem recorded_of_same (recorded : Recorded s) (admitted : t.admitted = s.admitted)
    (gameDB : t.gameDB = s.gameDB)
    (pointing : ∀ conn c' h, t.connections.lookup conn = some c' → c'.game = some h →
      ∃ c, s.connections.lookup conn = some c ∧ c.game = some h)
    (listed : ∀ h p conn, Lists t h p conn → Lists s h p conn)
    (founded : ∀ h ∈ t.games, h ∈ s.games) : Recorded t :=
  recorded_step recorded (grows_of_eq admitted gameDB)
    (fun conn c' h live points => Or.inl (pointing conn c' h live points))
    (fun h p conn lists => Or.inl (listed h p conn lists))
    (fun _ ha => Or.inl (admitted ▸ ha)) (fun h there => Or.inl (founded h there))

theorem search_founded (env : Externals) (hello : HelloServer) {h : GameId}
    (there : h ∈ (getVerifiedGame env hello s).2.games) : h ∈ s.games ∨
      ∃ token record, (getVerifiedGame env hello s).2.gameDB.lookup token = some record ∧
        record.gameId = h := by
  obtain ⟨game, known⟩ := StdMap.mem_iff_lookup.mp there
  rcases getVerifiedGame_games env s hello h with same | ⟨_, found, _⟩
  · exact Or.inl (StdMap.mem_iff_lookup.mpr ⟨game, same ▸ known⟩)
  · obtain ⟨record, searched, same⟩ := getVerifiedGame_record found
    refine Or.inr ⟨cStr hello.gameToken, record, ?_, same⟩
    rw [getVerifiedGame_gameDB, findByToken_lookup, searched]

theorem effect_founded {e : Effect} {h : GameId} (there : h ∈ (e.apply env self this s).games) :
    h ∈ s.games ∨ ∃ token record,
      (e.apply env self this s).gameDB.lookup token = some record ∧ record.gameId = h := by
  have aliases : ∀ f, h ∈ (s.updateGameOf this f).games → h ∈ s.games := by
    intro f there
    unfold Server.updateGameOf at there
    split at there
    · exact StdMap.mem_modify.mp there
    · exact there
  cases e with
  | idle => exact Or.inl there
  | send dest msg =>
    rw [Effect.apply, (queue_frame env dest msg s).1] at there
    exact Or.inl there
  | connect dest msg =>
    rw [Effect.apply, (queue_frame env dest msg _).1] at there
    exact Or.inl there
  | register aliasName => exact Or.inl (aliases _ there)
  | unregister aliasName => exact Or.inl (aliases _ there)
  | unregisterAll => exact Or.inl (aliases _ there)
  | refuse hello => exact search_founded env hello there
  | accept hello g =>
    simp only [Effect.apply, (queue_frame env _ _ _).1] at there
    simp only [Effect.apply, (queue_frame env _ _ _).2.2.1]
    exact search_founded env hello (StdMap.mem_modify.mp there)

theorem effect_recorded (recorded : Recorded s) (e : Effect)
    (leads : ∀ hello g, e = .accept hello g → (getVerifiedGame env hello s).1 = some g) :
    Recorded (e.apply env self this s) := by
  have admits : ∀ hello g, e = .accept hello g →
      (⟨self, cStr hello.gameToken, g⟩ : Admission) ∈ (e.apply env self this s).admitted := by
    rintro hello g rfl
    rw [effect_admits]
    exact List.mem_cons_self
  refine recorded_step recorded (effect_grows e) ?_ ?_ ?_ fun h => effect_founded
  · intro conn c' h live points
    rw [apply_lookup, Option.map_eq_some_iff] at live
    obtain ⟨c, before, rfl⟩ := live
    by_cases own : conn = self
    · subst own
      simp only [Effect.leaves, if_true] at points
      cases e with
      | accept hello g =>
        cases points
        exact Or.inr ⟨_, admits hello _ rfl, rfl, rfl⟩
      | refuse hello => cases points
      | _ => exact Or.inl ⟨c, before, points⟩
    · simp only [Effect.leaves, if_neg own] at points
      exact Or.inl ⟨c, before, points⟩
  · intro h p conn lists
    rcases effect_lists lists with before | ⟨hello, rfl, rfl⟩
    · exact Or.inl before
    · exact Or.inr ⟨_, admits hello h rfl, rfl, rfl⟩
  · intro a ha
    rcases effect_admitted ha with old | ⟨hello, g, rfl, rfl⟩
    · exact Or.inl old
    · have lead := leads hello g rfl
      obtain ⟨record, found, same⟩ := getVerifiedGame_record lead
      refine Or.inr ⟨record, ?_, same⟩
      simp only [Effect.apply, (queue_frame env _ _ _).2.2.1]
      change (getVerifiedGame env hello s).2.gameDB.lookup _ = _
      rw [getVerifiedGame_gameDB, findByToken_lookup, found]

theorem step_recorded {d : Deed} (step : Step env s d t) (recorded : Recorded s) : Recorded t := by
  have untouched : ∀ conn (f : P2PSignalConnection → P2PSignalConnection),
      (∀ c, (f c).game = c.game) → Recorded (s.updateConnection conn f) := by
    intro conn f same
    refine recorded_of_same recorded rfl rfl ?_ (fun _ _ _ lists => lists) fun _ there => there
    intro conn' c' h live points
    rw [updateConnection_lookup, Option.map_eq_some_iff] at live
    obtain ⟨c, before, rfl⟩ := live
    refine ⟨c, before, ?_⟩
    split at points
    · rw [same] at points
      exact points
    · exact points
  cases step with
  | opened allowed returns =>
    rw [returns_established allowed returns]
    refine recorded_of_same recorded rfl rfl ?_ (fun _ _ _ lists => lists) fun _ there => there
    intro conn' c' h live points
    rcases StdMap.lookup_insert_some live with rfl | before
    · cases points
    · exact ⟨c', before, points⟩
  | closed returns =>
    have rest : ∀ wsi conn, ∀ u : Server, u.connections = s.connections →
        u.admitted = s.admitted → u.gameDB = s.gameDB →
        (∀ h p conn, Lists u h p conn → Lists s h p conn) → (∀ h ∈ u.games, h ∈ s.games) →
        Recorded (u.drop wsi conn) := by
      intro wsi conn u conns admitted gameDB lists founded
      refine recorded_of_same recorded admitted gameDB ?_ lists founded
      intro conn' c' h live points
      simp only [Server.drop, conns] at live
      exact ⟨c', (StdMap.lookup_erase_some live).2, points⟩
    rcases closed_cases returns with
      ⟨_, rfl⟩ | ⟨conn, c, _, _, ⟨_, rfl⟩ | ⟨g, game, _, _, known, rfl⟩⟩
    · exact recorded
    · exact rest _ conn s rfl rfl rfl (fun _ _ _ lists => lists) fun _ there => there
    · refine rest _ conn _ rfl rfl rfl (fun h p conn' lists => lists_updateGame ?_ lists)
        fun _ there => StdMap.mem_modify.mp there
      exact fun game _ listed => (StdMap.lookup_erase_some listed).2
  | arrived conn data => exact untouched conn _ fun _ => rfl
  | erased conn size => exact untouched conn _ fun _ => rfl
  | message returns =>
    obtain ⟨this, here, _⟩ := returns_deref_bind.mp returns
    rcases processMsg_cases here returns with ⟨_, _, _, rfl⟩ | ⟨_, e, reacts, rfl⟩
    · exact recorded
    · refine effect_recorded recorded e ?_
      rintro hello g rfl
      cases reacts with
      | helloAdmitted unseated able game => exact game
  | writeable returns =>
    rcases writeable_cases returns with ⟨rfl, _⟩ | ⟨conn, _, _, _, _, _, _, rfl⟩
    · exact recorded_of_same recorded rfl rfl (fun _ c _ live points => ⟨c, live, points⟩)
        (fun _ _ _ lists => lists) fun _ there => there
    · refine recorded_of_same (s := s.updateConnection conn _) (untouched conn _ ?_) rfl rfl
        (fun _ c _ live points => ⟨c, live, points⟩) (fun _ _ _ lists => lists)
        fun _ there => there
      exact fun _ => rfl

end steps

end HumbleNet.PeerServer
