import HumbleNet.PeerServer.Hellos

/-! Games do not interfere: in two runs of the server in which the connections of a game
hear the same, the game and its connections are the same. -/
namespace HumbleNet.PeerServer

open Program

section

variable {env : Externals} {k : GameKey} {mine : ConnPtr → Prop} {s s' t t' : Server}

/-! ### A callback -/

theorem Pair.twins (pair : Pair k mine s s') :
    Twins k mine (k.find s.gameDB) (k.find s'.gameDB) s s' :=
  ⟨pair.settled, pair.settled', pair.same, rfl, rfl⟩

theorem Twins.pair {o o' : Option GameId} (twins : Twins k mine o o' s s') : Pair k mine s s' :=
  ⟨twins.settled, twins.settled', twins.same⟩

theorem Pair.assign (pair : Pair k mine s s') (conn : ConnPtr)
    {f : P2PSignalConnection → P2PSignalConnection} (same : ∀ c, (f c).game = c.game)
    (blind : ∀ c, (f c).seen = f c.seen) :
    Pair k mine (s.updateConnection conn f) (s'.updateConnection conn f) :=
  (pair.twins.assign conn same blind).pair

theorem reflects_divided {α : Type} {x : ServerM α} (grows : Follows Grows x) :
    Reflects (Divided k mine) x :=
  fun s a t h divided => divided.before (grows s a t h)

theorem header_agrees (sizeBits : Nat) (verify : Bytes → Bool) (pastEnd pastEnd' recvBuf : Bytes) :
    parseHeader sizeBits verify pastEnd recvBuf = parseHeader sizeBits verify pastEnd' recvBuf ∨
      parseHeader sizeBits verify pastEnd recvBuf = .overrun ∨
      parseHeader sizeBits verify pastEnd' recvBuf = .overrun := by
  by_cases long : 4 ≤ recvBuf.length
  · left
    simp only [parseHeader, readScalar32_append recvBuf _ long]
  · have short : ∀ pastEnd, parseHeader sizeBits verify pastEnd recvBuf = .wait ∨
        parseHeader sizeBits verify pastEnd recvBuf = .overrun := by
      intro pastEnd
      have missing : recvBuf.length <
          (readScalar32 (recvBuf ++ pastEnd)).toNat + peerOffsetSize := by
        unfold peerOffsetSize
        omega
      simp only [parseHeader, if_pos missing]
      split
      · exact Or.inl rfl
      · split
        · exact Or.inl rfl
        · exact Or.inr rfl
    rcases short pastEnd with wait | overrun
    · rcases short pastEnd' with wait' | overrun'
      · exact Or.inl (wait.trans wait'.symm)
      · exact Or.inr (Or.inr overrun')
    · exact Or.inr (Or.inl overrun)

theorem alike_parseMessage {good : Server → Prop} {R : Server → Server → Prop}
    {look look' : Bytes → Look}
    (agree : ∀ bytes, look bytes = look' bytes ∨ look bytes = .overrun ∨ look' bytes = .overrun)
    {recvBuf : ServerM Bytes} {erase : Nat → ServerM Unit} {processFunc : Bytes → ServerM Bool}
    (hrecv : Alike good R Eq recvBuf recvBuf)
    (herase : ∀ n, Alike good R (fun _ _ => True) (erase n) (erase n))
    (hprocess : ∀ buff, Alike good R Eq (processFunc buff) (processFunc buff))
    (backErase : ∀ n, Reflects good (erase n)) (backRecv : Reflects good recvBuf)
    (backProcess : ∀ buff, Reflects good (processFunc buff)) (fuel : Nat) :
    Alike good R Eq (parseMessage look recvBuf erase (fault .overrun) processFunc fuel)
      (parseMessage look' recvBuf erase (fault .overrun) processFunc fuel) := by
  have back : ∀ (look : Bytes → Look) (fuel : Nat),
      Reflects good (parseMessage look recvBuf erase (fault .overrun) processFunc fuel) :=
    fun look fuel => follows_parseMessage (fun _ h => h) (fun _ _ _ h k last => h (k last))
      backRecv backErase (follows_fault _) backProcess fuel
  induction fuel with
  | zero => exact alike_pure rfl
  | succ fuel ih =>
    have backRest : ∀ (look : Bytes → Look) (size : Nat) (ok : Bool), Reflects good (do
        if ok then
          erase size
          parseMessage look recvBuf erase (fault .overrun) processFunc fuel
        else pure false : ServerM Bool) := by
      intro look size ok
      cases ok with
      | true => exact reflects_bind (backErase size) fun _ => back look fuel
      | false => exact reflects_pure false
    refine alike_bind hrecv ?_ ?_ ?_
    case refine_2 | refine_3 =>
      intro bytes
      split
      · exact reflects_pure true
      · exact reflects_pure false
      · exact follows_fault _
      · exact reflects_bind (backProcess _) (backRest _ _)
    rintro bytes _ rfl
    rcases agree bytes with same | overran | overran
    · rw [same]
      cases look' bytes with
      | wait => exact alike_pure rfl
      | refuse => exact alike_pure rfl
      | overrun => exact alike_fault
      | message buff size =>
        refine alike_bind (hprocess buff) ?_ (backRest look size) (backRest look' size)
        rintro ok _ rfl
        cases ok with
        | true =>
          exact alike_bind (herase size) (fun _ _ _ => ih) (fun _ => back look fuel)
            fun _ => back look' fuel
        | false => exact alike_pure rfl
    · rw [overran]
      exact fun _ _ _ _ _ _ _ h => absurd h returns_fault
    · rw [overran]
      exact fun _ _ _ _ _ _ _ _ h => absurd h returns_fault

theorem deref_alike {conn : ConnPtr} (own : mine conn) :
    Alike (Divided k mine) (Pair k mine) (fun c c' => c.seen = c'.seen) (deref conn)
      (deref conn) := by
  intro s s' c c' t t' pair h h' _ _
  obtain ⟨live, rfl⟩ := returns_deref.mp h
  obtain ⟨live', rfl⟩ := returns_deref.mp h'
  obtain ⟨c'', live'', seen⟩ := pair.conn own live
  rw [live'] at live''
  cases live''
  exact ⟨seen, pair⟩

theorem assign_alike (conn : ConnPtr) {f : P2PSignalConnection → P2PSignalConnection}
    (same : ∀ c, (f c).game = c.game) (blind : ∀ c, (f c).seen = f c.seen) :
    Alike (Divided k mine) (Pair k mine) (fun _ _ => True)
      (modify fun s => s.updateConnection conn f : ServerM Unit)
      (modify fun s => s.updateConnection conn f) :=
  alike_modify fun _ _ pair => pair.assign conn same blind

theorem assign_grows (conn : ConnPtr) (f : P2PSignalConnection → P2PSignalConnection) :
    Follows Grows (modify fun s => s.updateConnection conn f : ServerM Unit) := by
  intro s _ t h
  rw [returns_modify.mp h]
  exact grows_of_eq rfl rfl

theorem deref_grows (conn : ConnPtr) : Follows Grows (deref conn) := by
  intro s _ t h
  rw [(returns_deref.mp h).2]
  exact .refl s

theorem parse_alike {conn : ConnPtr} (own : mine conn) (pastEnd pastEnd' : Bytes → Bytes)
    (fuel : Nat) :
    Alike (Divided k mine) (Pair k mine) Eq
      (parseMessage
        (fun recvBuf => parseHeader env.sizeBits env.verifyMessageBuffer (pastEnd recvBuf) recvBuf)
        (do pure (← deref conn).recvBuf)
        (fun size => modify fun s => s.updateConnection conn fun c =>
          { c with recvBuf := c.recvBuf.drop size })
        (fault .overrun) (fun buff => processMsg env conn (env.getMessage buff)) fuel)
      (parseMessage
        (fun recvBuf => parseHeader env.sizeBits env.verifyMessageBuffer (pastEnd' recvBuf) recvBuf)
        (do pure (← deref conn).recvBuf)
        (fun size => modify fun s => s.updateConnection conn fun c =>
          { c with recvBuf := c.recvBuf.drop size })
        (fault .overrun) (fun buff => processMsg env conn (env.getMessage buff)) fuel) := by
  apply alike_parseMessage
  · exact fun bytes => header_agrees _ _ _ _ _
  · refine alike_bind (deref_alike own) ?_ (fun c => reflects_pure _) fun c => reflects_pure _
    exact fun c c' seen => alike_pure (congrArg (·.recvBuf) seen)
  · exact fun n => assign_alike conn (fun _ => rfl) fun _ => rfl
  · exact fun buff => processMsg_alike own _
  · exact fun n => reflects_divided (assign_grows conn _)
  · exact reflects_bind (reflects_divided (deref_grows conn)) fun c => reflects_pure _
  · exact fun buff => reflects_divided fun s b t h => step_grows (.message h)

theorem receive_pair (pair : Pair k mine s s') {wsi : Wsi} {conn : ConnPtr} (own : mine conn)
    (owned : s.signalConnections.lookup wsi = some conn) {data : Bytes}
    {pastEnd pastEnd' : Bytes → Bytes} {retval retval' : Int}
    (returns : Returns (receive env wsi data pastEnd) s retval t)
    (returns' : Returns (receive env wsi data pastEnd') s' retval' t')
    (divided : Divided k mine t) (divided' : Divided k mine t') : Pair k mine t t' := by
  have owned' := (pair.same.owners conn own wsi).mp owned
  rw [receive, returns_bind] at returns returns'
  obtain ⟨_, _, got, returns⟩ := returns
  obtain ⟨_, _, got', returns'⟩ := returns'
  obtain ⟨rfl, rfl⟩ := returns_get.mp got
  obtain ⟨rfl, rfl⟩ := returns_get.mp got'
  simp only [owned] at returns
  simp only [owned'] at returns'
  obtain ⟨_, u, arrived, returns⟩ := returns_bind.mp returns
  obtain ⟨_, u', arrived', returns'⟩ := returns_bind.mp returns'
  have now : Pair k mine u u' := by
    rw [returns_modify.mp arrived, returns_modify.mp arrived']
    exact pair.assign conn (fun _ => rfl) fun _ => rfl
  obtain ⟨it, live, returns⟩ := returns_deref_bind.mp returns
  obtain ⟨it', live', returns'⟩ := returns_deref_bind.mp returns'
  obtain ⟨it'', live'', seen⟩ := now.conn own live
  rw [live'] at live''
  cases live''
  have same : it.recvBuf = it'.recvBuf := congrArg (·.recvBuf) seen
  obtain ⟨b, v, parsed, last⟩ := returns_bind.mp returns
  obtain ⟨b', v', parsed', last'⟩ := returns_bind.mp returns'
  obtain ⟨_, rfl⟩ := returns_pure.mp last
  obtain ⟨_, rfl⟩ := returns_pure.mp last'
  rw [← same] at parsed'
  obtain ⟨_, after⟩ := parse_alike own pastEnd pastEnd' it.recvBuf.length u u' b b' t t' now
    parsed parsed' divided divided'
  exact after

theorem established_pair (pair : Pair k mine s s') {wsi : Wsi} {conn : ConnPtr}
    {retval retval' : Int} (allowed : Allowed s (.established wsi conn))
    (allowed' : Allowed s' (.established wsi conn))
    (returns : Returns (callbackHumblepeer env (.established wsi conn)) s retval t)
    (returns' : Returns (callbackHumblepeer env (.established wsi conn)) s' retval' t')
    (divided : Divided k mine t) (divided' : Divided k mine t') : Pair k mine t t' := by
  refine ⟨pair.settled.step (.opened allowed returns : Step env s _ t) divided,
    pair.settled'.step (.opened allowed' returns' : Step env s' _ t') divided', ?_⟩
  rw [returns_established allowed returns, returns_established allowed' returns']
  have new : s.signalConnections.lookup wsi = none := AList.lookup_eq_none.mpr allowed.1
  have new' : s'.signalConnections.lookup wsi = none := AList.lookup_eq_none.mpr allowed'.1
  refine ⟨pair.same.stun, pair.same.kind, pair.same.fixed, ?_, ?_, pair.same.table⟩
  · intro conn' own' wsi'
    simp only [StdMap.lookup_emplace_new _ _ _ _ new, StdMap.lookup_emplace_new _ _ _ _ new']
    split
    · rfl
    · exact pair.same.owners conn' own' wsi'
  · intro conn' own'
    simp only [StdMap.lookup_insert_if]
    split
    · rfl
    · exact pair.same.conns conn' own'

theorem Same.drop (same : Same k mine s s') (wsi : Wsi) (conn : ConnPtr) :
    Same k mine (s.drop wsi conn) (s'.drop wsi conn) := by
  refine ⟨same.stun, same.kind, same.fixed, ?_, ?_, same.table⟩
  · intro conn' own wsi'
    simp only [Server.drop, StdMap.lookup_erase_if]
    split
    · rfl
    · exact same.owners conn' own wsi'
  · intro conn' own
    simp only [Server.drop, StdMap.lookup_erase_if]
    split
    · rfl
    · exact same.conns conn' own

theorem closed_pair (pair : Pair k mine s s') {wsi : Wsi} {conn : ConnPtr} (own : mine conn)
    (owned : s.signalConnections.lookup wsi = some conn) {retval retval' : Int}
    (returns : Returns (callbackHumblepeer env (.closed wsi)) s retval t)
    (returns' : Returns (callbackHumblepeer env (.closed wsi)) s' retval' t')
    (divided : Divided k mine t) (divided' : Divided k mine t') : Pair k mine t t' := by
  refine ⟨pair.settled.step (.closed returns : Step env s _ t) divided,
    pair.settled'.step (.closed returns' : Step env s' _ t') divided', ?_⟩
  have owned' := (pair.same.owners conn own wsi).mp owned
  rcases closed_cases returns with ⟨missing, _⟩ | ⟨conn₁, c, at₁, live, cases₁⟩
  · rw [owned] at missing
    cases missing
  rcases closed_cases returns' with ⟨missing, _⟩ | ⟨conn₂, c', at₂, live', cases₂⟩
  · rw [owned'] at missing
    cases missing
  rw [owned] at at₁
  rw [owned'] at at₂
  cases at₁
  cases at₂
  obtain ⟨c'', live'', seen⟩ := pair.conn own live
  rw [live'] at live''
  cases live''
  have id : c.peerId = c'.peerId := congrArg (·.peerId) seen
  rcases cases₁ with ⟨unseated, rfl⟩ | ⟨g, game, seated, points, _, rfl⟩
  · rcases cases₂ with ⟨_, rfl⟩ | ⟨_, _, seated, _⟩
    · exact pair.same.drop wsi conn
    · exact absurd (id.symm.trans unseated) seated
  · rcases cases₂ with ⟨unseated, _⟩ | ⟨g', game', _, points', _, rfl⟩
    · exact absurd (id.trans unseated) seated
    · refine Same.drop ?_ wsi conn
      have found := (pair.settled.pointing live points).mp own
      have found' := (pair.settled'.pointing live' points').mp own
      refine ⟨pair.same.stun, pair.same.kind, pair.same.fixed, pair.same.owners,
        pair.same.conns, ?_⟩
      rw [← id]
      have blind : ∀ game : Game, (Game.erasePeerAliases c.peerId
          { game with peers := game.peers.erase c.peerId }).seen =
            Game.erasePeerAliases c.peerId
              { game.seen with peers := game.seen.peers.erase c.peerId } := fun _ => rfl
      rw [updateGame_table blind found, updateGame_table blind found', pair.same.table]

theorem writeable_seen {wsi : Wsi} {written retval : Int} {conn : ConnPtr}
    {c : P2PSignalConnection} (owned : s.signalConnections.lookup wsi = some conn)
    (live : s.connections.lookup conn = some c)
    (returns : Returns (callbackHumblepeer env (.writeable wsi written)) s retval t)
    (other : ConnPtr) : (t.connections.lookup other).map (·.seen) =
      ((s.connections.lookup other).map (·.seen)).map fun d =>
        if other = conn ∧ c.wsi = wsi ∧ 0 ≤ written then
          { d with sendBuf := d.sendBuf.drop written.toNat }
        else d := by
  rcases writeable_cases returns with ⟨rfl, idle⟩ | ⟨conn', c', owned', live', own, taken, _, rfl⟩
  · rw [Option.map_map]
    refine Option.map_congr fun d here => ?_
    simp only [Function.comp]
    split
    · rename_i both
      obtain ⟨rfl, own, taken⟩ := both
      rw [live] at here
      cases here
      rcases idle other c owned live with foreign | empty | failed
      · exact absurd own foreign
      · simp only [P2PSignalConnection.seen, empty, List.drop_nil]
      · omega
    · rfl
  · rw [owned] at owned'
    cases owned'
    rw [live] at live'
    cases live'
    simp only [Server.updateConnection, StdMap.lookup_modify, own, taken, and_self, and_true]
    split
    · rename_i same
      rw [same, live]
      rfl
    · simp only [Option.map_id']

theorem writeable_frame {wsi : Wsi} {written retval : Int}
    (returns : Returns (callbackHumblepeer env (.writeable wsi written)) s retval t) :
    t.stunServerAddress = s.stunServerAddress ∧ t.gameDB = s.gameDB ∧
      t.signalConnections = s.signalConnections ∧ t.games = s.games := by
  rcases writeable_cases returns with ⟨rfl, _⟩ | ⟨_, _, _, _, _, _, _, rfl⟩
  · exact ⟨rfl, rfl, rfl, rfl⟩
  · exact ⟨rfl, rfl, rfl, rfl⟩

theorem writeable_pair (pair : Pair k mine s s') {wsi : Wsi} {conn : ConnPtr} (own : mine conn)
    (owned : s.signalConnections.lookup wsi = some conn) {written retval retval' : Int}
    (returns : Returns (callbackHumblepeer env (.writeable wsi written)) s retval t)
    (returns' : Returns (callbackHumblepeer env (.writeable wsi written)) s' retval' t')
    (divided : Divided k mine t) (divided' : Divided k mine t') : Pair k mine t t' := by
  refine ⟨pair.settled.step (.writeable returns) divided,
    pair.settled'.step (.writeable returns') divided', ?_⟩
  obtain ⟨stun, gameDB, signals, games⟩ := writeable_frame returns
  obtain ⟨stun', gameDB', signals', games'⟩ := writeable_frame returns'
  refine ⟨?_, ?_, ?_, ?_, ?_, ?_⟩
  · rw [stun, stun', pair.same.stun]
  · rw [gameDB, gameDB', pair.same.kind]
  · rw [gameDB, gameDB']
    exact pair.same.fixed
  · rw [signals, signals']
    exact pair.same.owners
  · intro other mine
    cases live : s.connections.lookup conn with
    | none =>
      have gone : ∀ {u v : Server} {retval : Int}, u.signalConnections.lookup wsi = some conn →
          u.connections.lookup conn = none →
          Returns (callbackHumblepeer env (.writeable wsi written)) u retval v →
          v.connections = u.connections := by
        intro u v retval owned gone returns
        rcases writeable_cases returns with ⟨rfl, _⟩ | ⟨conn', c', owned', live', _⟩
        · rfl
        · rw [owned] at owned'
          cases owned'
          rw [gone] at live'
          cases live'
      have live' : s'.connections.lookup conn = none := by
        have same := pair.same.conns conn own
        rw [live, Option.map_none, eq_comm, Option.map_eq_none_iff] at same
        exact same
      rw [gone owned live returns, gone ((pair.same.owners conn own _).mp owned) live' returns',
        pair.same.conns other mine]
    | some c =>
      obtain ⟨c', live', seen⟩ := pair.conn own live
      have wsi : c.wsi = c'.wsi := congrArg (·.wsi) seen
      rw [writeable_seen owned live returns other,
        writeable_seen ((pair.same.owners conn own _).mp owned) live' returns' other, ← wsi,
        pair.same.conns other mine]
  · rw [table_of_same gameDB fun g _ => by rw [games],
      table_of_same gameDB' fun g _ => by rw [games'], pair.same.table]

/-- A callback as libwebsockets makes it: what lies behind the receive buffer is no part
of it. -/
inductive Heard where
  | established (wsi : Wsi) (conn : ConnPtr)
  | closed (wsi : Wsi)
  | receive (wsi : Wsi) (data : Bytes)
  | writeable (wsi : Wsi) (retval : Int)
  deriving DecidableEq

def LwsEvent.called : LwsEvent → Heard
  | .established wsi conn => .established wsi conn
  | .closed wsi => .closed wsi
  | .receive wsi data _ => .receive wsi data
  | .writeable wsi retval => .writeable wsi retval

theorem callback_pair (pair : Pair k mine s s') {event event' : LwsEvent} {retval retval' : Int}
    (allowed : Allowed s event) (allowed' : Allowed s' event')
    (returns : Returns (callbackHumblepeer env event) s retval t)
    (returns' : Returns (callbackHumblepeer env event') s' retval' t') {conn : ConnPtr}
    (here : event.conn s = some conn) (own : mine conn) (called : event.called = event'.called)
    (divided : Divided k mine t) (divided' : Divided k mine t') : Pair k mine t t' := by
  cases event with
  | established wsi conn =>
    cases event' with
    | established =>
      cases called
      exact established_pair pair allowed allowed' returns returns' divided divided'
    | _ => cases called
  | closed wsi =>
    cases event' with
    | closed =>
      cases called
      exact closed_pair pair own here returns returns' divided divided'
    | _ => cases called
  | receive wsi data pastEnd =>
    cases event' with
    | receive =>
      cases called
      exact receive_pair pair own here returns returns' divided divided'
    | _ => cases called
  | writeable wsi written =>
    cases event' with
    | writeable =>
      cases called
      exact writeable_pair pair own here returns returns' divided divided'
    | _ => cases called

theorem callback_grows {event : LwsEvent} {retval : Int} (allowed : Allowed s event)
    (returns : Returns (callbackHumblepeer env event) s retval t) : Grows s t := by
  obtain ⟨later, steps⟩ := callback_steps allowed returns
  refine steps.invariant (I := fun _ u => Grows s u) ?_ ?_
  · rintro u rfl
    exact .refl u
  · intro _ u d v _ before step
    exact before.trans _ _ _ (step_grows step)

/-! ### A run -/

def Call (env : Externals) (s : Server) (event : LwsEvent) (t : Server) : Prop :=
  Allowed s event ∧ ∃ retval, Returns (callbackHumblepeer env event) s retval t

abbrev Calls (env : Externals) (gameDB : GameDB) (stunServerAddress : Bytes) :
    List (Server × LwsEvent) → Server → Prop :=
  Trace (· = Server.new gameDB stunServerAddress) (Call env)

/-- The callbacks for the connections of a game, newest first. -/
def heard (mine : ConnPtr → Bool) (past : List (Server × LwsEvent)) : List Heard :=
  (past.filter fun m => (m.2.conn m.1).any mine).map fun m => m.2.called

end

section runs

variable {env : Externals} {k : GameKey} {mine : ConnPtr → Bool} {gameDB : GameDB} {stun : Bytes}

theorem start_settled (initial : gameDB.Initial) (fits : k.fits gameDB) :
    Settled k (mine ·) (Server.new gameDB stun) where
  fits := fits
  recorded := ⟨nofun, nofun, nofun, nofun⟩
  numbered := by
    cases gameDB with
    | anonymous lastGameId games =>
      obtain ⟨rfl, rfl⟩ := initial
      exact ⟨rfl, nofun⟩
    | flatFile games => trivial
  divided := by
    refine ⟨nofun, ?_⟩
    cases gameDB with
    | anonymous lastGameId games =>
      obtain ⟨rfl, rfl⟩ := initial
      exact Nat.zero_lt_succ _
    | flatFile games => exact Nat.zero_lt_succ _

theorem heard_own {past : List (Server × LwsEvent)} {s : Server} {event : LwsEvent}
    (own : (event.conn s).any mine = true) :
    heard mine ((s, event) :: past) = event.called :: heard mine past := by
  simp only [heard, List.filter_cons, own, if_true, List.map_cons]

theorem heard_foreign {past : List (Server × LwsEvent)} {s : Server} {event : LwsEvent}
    (foreign : (event.conn s).any mine = false) :
    heard mine ((s, event) :: past) = heard mine past := by
  simp only [heard, List.filter_cons, foreign, Bool.false_eq_true, if_false]

theorem Pair.passes {s s' t' : Server} {event : LwsEvent} (pair : Pair k (mine ·) s s')
    (taken : Call env s' event t') (foreign : (event.conn s').any mine = false)
    (divided : Divided k (mine ·) t') : Pair k (mine ·) s t' := by
  obtain ⟨allowed, retval, returns⟩ := taken
  have others : ∀ conn, event.conn s' = some conn → ¬ mine conn := by
    intro conn named
    simpa [named] using foreign
  obtain ⟨settled, same⟩ := (callback_unnoticed allowed returns others).2 pair.settled' divided
  exact ⟨pair.settled, settled, pair.same.trans same⟩

theorem Pair.symm {s s' : Server} (pair : Pair k (mine ·) s s') : Pair k (mine ·) s' s :=
  ⟨pair.settled', pair.settled, pair.same.symm⟩

theorem Divided.call {s t : Server} {event : LwsEvent} (taken : Call env s event t)
    (divided : Divided k (mine ·) t) : Divided k (mine ·) s := by
  obtain ⟨allowed, retval, returns⟩ := taken
  exact divided.before (callback_grows allowed returns)

theorem calls_pair (initial : gameDB.Initial) (fits : k.fits gameDB)
    {past past' : List (Server × LwsEvent)} {t t' : Server} (run : Calls env gameDB stun past t)
    (run' : Calls env gameDB stun past' t') (divided : Divided k (mine ·) t)
    (divided' : Divided k (mine ·) t') (same : heard mine past = heard mine past') :
    Pair k (mine ·) t t' := by
  -- through the run on the left, and for each of its callbacks through the one on the right
  induction run generalizing past' t' with
  | start here =>
    subst here
    induction run' with
    | start here' =>
      subst here'
      have settled : Settled k (mine ·) (Server.new gameDB stun) := start_settled initial fits
      exact ⟨settled, settled, .refl _⟩
    | @next past' s' t' event' _ taken' ih' =>
      cases own' : (event'.conn s').any mine with
      | true =>
        rw [heard_own own'] at same
        cases same
      | false =>
        rw [heard_foreign own'] at same
        exact (ih' (divided'.call taken') same).passes taken' own' divided'
  | @next past s t event before taken ih =>
    cases own : (event.conn s).any mine with
    | false =>
      rw [heard_foreign own] at same
      have pair := ih run' (divided.call taken) divided' same
      exact (pair.symm.passes taken own divided).symm
    | true =>
      rw [heard_own own] at same
      induction run' with
      | start here' => cases same
      | @next past' s' t' event' before' taken' ih' =>
        cases own' : (event'.conn s').any mine with
        | false =>
          rw [heard_foreign own'] at same
          exact (ih' (divided'.call taken') same).passes taken' own' divided'
        | true =>
          rw [heard_own own'] at same
          obtain ⟨called, rest⟩ := List.cons.inj same
          have pair := ih before' (divided.call taken) (divided'.call taken') rest
          obtain ⟨conn, here, owned⟩ := (Option.any_eq_true _ _).mp own
          obtain ⟨allowed, retval, returns⟩ := taken
          obtain ⟨allowed', retval', returns'⟩ := taken'
          exact callback_pair pair allowed allowed' returns returns' here owned called divided
            divided'

/-! ### The connections that authenticate into a game -/

instance GameKey.namesDecidable (k : GameKey) (a : Admission) : Decidable (k.names a) :=
  match k with
  | .token gameToken => inferInstanceAs (Decidable (a.gameToken = gameToken))
  | .id gameId => inferInstanceAs (Decidable (a.gameId = gameId))

/-- Admitted to the game, at some time. -/
def Server.authenticated (s : Server) (k : GameKey) (conn : ConnPtr) : Bool :=
  s.admitted.any fun a => decide (a.conn = conn ∧ k.names a)

/-- No connection of the game is one of another game. -/
def Apart (k : GameKey) (s : Server) : Prop :=
  ∀ a ∈ s.admitted, ∀ b ∈ s.admitted, a.conn = b.conn → k.names a → k.names b

theorem divided_of_apart {s : Server} (apart : Apart k s) (few : s.gameDB.tokens < 2 ^ 32) :
    Divided k (s.authenticated k ·) s := by
  refine ⟨fun a ha => ?_, few⟩
  simp only [Server.authenticated, List.any_eq_true, decide_eq_true_eq]
  constructor
  · rintro ⟨b, hb, same, names⟩
    exact apart b hb a ha same names
  · exact fun names => ⟨a, ha, rfl, names⟩

/-- No connection comes from nowhere, and only one that is there is admitted. -/
def NoneNew (s t : Server) : Prop :=
  (∀ conn ∈ t.connections, conn ∈ s.connections) ∧
    ∀ a ∈ t.admitted, a ∈ s.admitted ∨ a.conn ∈ s.connections

theorem NoneNew.refl (s : Server) : NoneNew s s := ⟨fun _ h => h, fun _ h => Or.inl h⟩

theorem NoneNew.trans (s t u : Server) (h : NoneNew s t) (l : NoneNew t u) : NoneNew s u := by
  refine ⟨fun conn there => h.1 conn (l.1 conn there), fun a ha => ?_⟩
  rcases l.2 a ha with before | live
  · exact h.2 a before
  · exact Or.inr (h.1 _ live)

theorem updateConnection_noneNew (s : Server) (conn : ConnPtr)
    (f : P2PSignalConnection → P2PSignalConnection) : NoneNew s (s.updateConnection conn f) :=
  ⟨fun _ there => StdMap.mem_modify.mp there, fun _ ha => Or.inl ha⟩

theorem processMsg_noneNew (self : ConnPtr) (msg : Message) :
    Follows NoneNew (processMsg env self msg) := by
  intro s b t returns
  obtain ⟨this, here, _⟩ := returns_deref_bind.mp returns
  rcases processMsg_cases here returns with ⟨_, _, _, rfl⟩ | ⟨_, e, _, rfl⟩
  · exact .refl _
  · refine ⟨fun conn there => ?_, fun a ha => ?_⟩
    · obtain ⟨c, live⟩ := StdMap.mem_iff_lookup.mp there
      rw [apply_lookup, Option.map_eq_some_iff] at live
      obtain ⟨c', before, _⟩ := live
      exact StdMap.mem_iff_lookup.mpr ⟨c', before⟩
    · rcases effect_admitted ha with before | ⟨hello, g, _, rfl⟩
      · exact Or.inl before
      · exact Or.inr (StdMap.mem_iff_lookup.mpr ⟨this, here⟩)

theorem callback_noneNew {s t : Server} {event : LwsEvent} {retval : Int}
    (allowed : Allowed s event)
    (returns : Returns (callbackHumblepeer env event) s retval t) :
    (∀ conn ∈ t.connections, conn ∈ s.connections ∨ ∃ wsi, event = .established wsi conn) ∧
      ∀ a ∈ t.admitted, a ∈ s.admitted ∨ a.conn ∈ s.connections := by
  have weaken : NoneNew s t →
      (∀ conn ∈ t.connections, conn ∈ s.connections ∨ ∃ wsi, event = .established wsi conn) ∧
        ∀ a ∈ t.admitted, a ∈ s.admitted ∨ a.conn ∈ s.connections :=
    fun stays => ⟨fun conn there => Or.inl (stays.1 conn there), stays.2⟩
  cases event with
  | established wsi conn =>
    rw [returns_established allowed returns]
    refine ⟨fun conn' there => ?_, fun a ha => Or.inl ha⟩
    obtain ⟨c, live⟩ := StdMap.mem_iff_lookup.mp there
    simp only [StdMap.lookup_insert_if] at live
    split at live
    · rename_i new
      exact Or.inr ⟨wsi, by rw [new]⟩
    · exact Or.inl (StdMap.mem_iff_lookup.mpr ⟨c, live⟩)
  | closed wsi =>
    apply weaken
    have dropped : ∀ (u : Server) (conn : ConnPtr), NoneNew u (u.drop wsi conn) :=
      fun u conn => ⟨fun _ there => (AList.mem_erase.mp there).2, fun _ ha => Or.inl ha⟩
    rcases closed_cases returns with ⟨_, rfl⟩ | ⟨conn, _, _, _, ⟨_, rfl⟩ | ⟨_, _, _, _, _, rfl⟩⟩
    · exact .refl _
    · exact dropped s conn
    · exact dropped _ conn
  | receive wsi data pastEnd =>
    apply weaken
    apply receive_follows NoneNew.refl NoneNew.trans returns
    · exact fun conn u _ => updateConnection_noneNew u conn _
    · exact fun conn size u _ => updateConnection_noneNew u conn _
    · exact fun conn msg u b v _ h => processMsg_noneNew conn msg u b v h
  | writeable wsi written =>
    apply weaken
    rcases writeable_cases returns with ⟨rfl, _⟩ | ⟨conn, _, _, _, _, _, _, rfl⟩
    · exact .refl _
    · exact updateConnection_noneNew s conn _

def Opened (past : List (Server × LwsEvent)) (conn : ConnPtr) : Prop :=
  ∃ s wsi, (s, LwsEvent.established wsi conn) ∈ past

theorem calls_opened {past : List (Server × LwsEvent)} {t : Server}
    (run : Calls env gameDB stun past t) :
    (∀ conn ∈ t.connections, Opened past conn) ∧ ∀ a ∈ t.admitted, Opened past a.conn := by
  refine run.invariant (I := fun past t => (∀ conn ∈ t.connections, Opened past conn) ∧
    ∀ a ∈ t.admitted, Opened past a.conn) ?_ ?_
  · rintro _ rfl
    exact ⟨nofun, nofun⟩
  · rintro past s event t _ ⟨conns, admitted⟩ ⟨allowed, retval, returns⟩
    obtain ⟨live, entered⟩ := callback_noneNew allowed returns
    have older : ∀ {conn}, Opened past conn → Opened ((s, event) :: past) conn := by
      rintro conn ⟨u, wsi, there⟩
      exact ⟨u, wsi, List.mem_cons_of_mem _ there⟩
    refine ⟨fun conn there => ?_, fun a ha => ?_⟩
    · rcases live conn there with before | ⟨wsi, rfl⟩
      · exact older (conns conn before)
      · exact ⟨s, wsi, List.mem_cons_self⟩
    · rcases entered a ha with before | open_before
      · exact older (admitted a before)
      · exact older (conns a.conn open_before)

theorem heard_established {past : List (Server × LwsEvent)} {conn : ConnPtr} :
    (∃ wsi, Heard.established wsi conn ∈ heard mine past) ↔ Opened past conn ∧ mine conn := by
  simp only [heard, List.mem_map, List.mem_filter]
  constructor
  · rintro ⟨wsi, ⟨s, event⟩, ⟨there, own⟩, called⟩
    cases event with
    | established wsi' conn' =>
      cases called
      exact ⟨⟨s, wsi, there⟩, own⟩
    | _ => cases called
  · rintro ⟨⟨s, wsi, there⟩, own⟩
    exact ⟨wsi, (s, .established wsi conn), ⟨there, own⟩, rfl⟩

theorem authenticated_opened {past : List (Server × LwsEvent)} {t : Server}
    (run : Calls env gameDB stun past t) {conn : ConnPtr} (own : t.authenticated k conn = true) :
    Opened past conn := by
  obtain ⟨a, ha, same⟩ := List.any_eq_true.mp own
  obtain ⟨rfl, _⟩ := of_decide_eq_true same
  exact (calls_opened run).2 a ha

/-- Games do not interfere. In two runs over the same database the connections that
authenticate into a game hear the same, in the same order; nothing else is said of the
runs. Then its peers, its aliases and the next id are the same, and so is each of its
connections: the id it has and the bytes queued on it. -/
theorem games_do_not_interfere (initial : gameDB.Initial) (fits : k.fits gameDB)
    {past past' : List (Server × LwsEvent)} {t t' : Server} (run : Calls env gameDB stun past t)
    (run' : Calls env gameDB stun past' t') (few : t.gameDB.tokens < 2 ^ 32)
    (few' : t'.gameDB.tokens < 2 ^ 32) (apart : Apart k t) (apart' : Apart k t')
    (same : heard (t.authenticated k) past = heard (t'.authenticated k) past') :
    t.table k = t'.table k ∧ t.authenticated k = t'.authenticated k ∧
      ∀ conn, t.authenticated k conn →
        (t.connections.lookup conn).map (·.seen) = (t'.connections.lookup conn).map (·.seen) := by
  have agree : t.authenticated k = t'.authenticated k := by
    funext conn
    apply Bool.eq_iff_iff.mpr
    constructor
    · intro own
      have listed := heard_established.mpr ⟨authenticated_opened run own, own⟩
      rw [same] at listed
      exact (heard_established.mp listed).2
    · intro own
      have listed := heard_established.mpr ⟨authenticated_opened run' own, own⟩
      rw [← same] at listed
      exact (heard_established.mp listed).2
  have divided := divided_of_apart apart few
  have divided' := divided_of_apart apart' few'
  rw [← agree] at divided' same
  have pair := calls_pair initial fits run run' divided divided' same
  exact ⟨pair.same.table, agree, pair.same.conns⟩

def greeters : Externals :=
  { plain with getMessage := fun buff => .helloServer (some ⟨0, 1, buff, [], none, none, none⟩) }

instance allowedDecidable (s : Server) (event : LwsEvent) : Decidable (Allowed s event) :=
  match event with
  | .established wsi conn =>
    inferInstanceAs (Decidable (wsi ∉ s.signalConnections ∧ conn ∉ s.connections))
  | .closed _ | .receive _ _ _ | .writeable _ _ => inferInstanceAs (Decidable True)

def callNext (env : Externals) (s : Server) (event : LwsEvent) : Option Server :=
  if Allowed s event then
    match callbackHumblepeer env event s with
    | .ok (_, t) => some t
    | .error _ => none
  else none

theorem callNext_call {s t : Server} {event : LwsEvent} (h : callNext env s event = some t) :
    Call env s event t := by
  unfold callNext at h
  split at h
  · rename_i allowed
    split at h
    · rename_i retval t' ran
      cases h
      exact ⟨allowed, retval, ran⟩
    · cases h
  · cases h

theorem calls_play {events : List LwsEvent} {r : List (Server × LwsEvent) × Server}
    (played : Trace.play (callNext env) (Server.new gameDB stun) events = some r) :
    Calls env gameDB stun r.1 r.2 :=
  @Trace.of_play _ _ (· = Server.new gameDB stun) (Call env) (callNext env)
    (fun _ _ _ h => callNext_call h) _ rfl _ _ played

def greets (wsi : Wsi) (gameToken : Bytes) : LwsEvent :=
  .receive wsi (p2pMessageFrame gameToken) fun _ => []

instance apartDecidable (k : GameKey) (s : Server) : Decidable (Apart k s) :=
  inferInstanceAs (Decidable (∀ a ∈ s.admitted, ∀ b ∈ s.admitted, _))

end runs

/-- Alone in its game, a connection is the same whether another game is played before or
not; in the second run its game has another number. -/
theorem two_games : ∃ t t' : Server, t.games.entries.length ≠ t'.games.entries.length ∧
    t.table (.token [0x67]) = t'.table (.token [0x67]) ∧
      t.authenticated (.token [0x67]) = t'.authenticated (.token [0x67]) ∧
      ∀ conn, t.authenticated (.token [0x67]) conn →
        (t.connections.lookup conn).map (·.seen) = (t'.connections.lookup conn).map (·.seen) := by
  let play := Trace.play (callNext greeters) (Server.new (.anonymous 0 ∅) [])
  let k : GameKey := .token [0x67]
  have ran : (play [.established 1 10, greets 1 [0x67]]).any (fun r =>
      (play [.established 2 20, greets 2 [0x68], .established 1 10, greets 1 [0x67]]).any fun r' =>
        decide (r.2.gameDB.tokens < 2 ^ 32 ∧ r'.2.gameDB.tokens < 2 ^ 32 ∧ Apart k r.2 ∧
          Apart k r'.2 ∧
          heard (r.2.authenticated k) r.1 = heard (r'.2.authenticated k) r'.1 ∧
          r.2.games.entries.length ≠ r'.2.games.entries.length)) = true := by decide +kernel
  obtain ⟨r, run, ran⟩ := (Option.any_eq_true _ _).mp ran
  obtain ⟨r', run', now⟩ := (Option.any_eq_true _ _).mp ran
  obtain ⟨few, few', apart, apart', same, differ⟩ := of_decide_eq_true now
  have calls : Calls greeters (.anonymous 0 ∅) [] r.1 r.2 := calls_play run
  have calls' : Calls greeters (.anonymous 0 ∅) [] r'.1 r'.2 := calls_play run'
  have initial : (GameDB.anonymous 0 ∅).Initial := ⟨rfl, rfl⟩
  have fits : k.fits (.anonymous 0 ∅) := trivial
  exact ⟨r.2, r'.2, differ, games_do_not_interfere initial fits calls calls' few few'
    apart apart' same⟩

end HumbleNet.PeerServer
