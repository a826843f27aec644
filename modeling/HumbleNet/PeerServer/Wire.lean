import HumbleNet.PeerServer.Arrivals
import HumbleNet.PeerServer.Parcels

/-! Runs of callbacks, with the bytes that pass over the websockets. Each is a history: the
messages processed for a connection are those in the bytes that arrived for it. -/
namespace HumbleNet.PeerServer

open Program Incremental Fragmentation

def CallStep (env : Externals) (s : Server) (call : LwsEvent × Int) (t : Server) : Prop :=
  Allowed s call.1 ∧ Returns (callbackHumblepeer env call.1) s call.2 t

abbrev CallRun (env : Externals) : List (Server × LwsEvent × Int) → Server → Prop :=
  Trace Started (CallStep env)

def arrivedOn (conn : ConnPtr) : List (Server × LwsEvent × Int) → Bytes
  | [] => []
  | (_, .established _ other, _) :: calls => if other = conn then [] else arrivedOn conn calls
  | (s, .receive wsi data _, _) :: calls =>
    arrivedOn conn calls ++ if s.signalConnections.lookup wsi = some conn then data else []
  | _ :: calls => arrivedOn conn calls

def acceptedOn (conn : ConnPtr) : List (Server × LwsEvent × Int) → Bytes
  | [] => []
  | (_, .established _ other, _) :: calls => if other = conn then [] else acceptedOn conn calls
  | (s, .writeable wsi written, _) :: calls =>
    acceptedOn conn calls ++ acceptedFrom conn s wsi written.toNat
  | _ :: calls => acceptedOn conn calls

/-- Nothing that has arrived for the connection was refused. -/
def Unrefused (conn : ConnPtr) : List (Server × LwsEvent × Int) → Prop
  | [] => True
  | (_, .established _ other, _) :: calls => other = conn ∨ Unrefused conn calls
  | (s, .receive wsi _ _, retval) :: calls =>
    Unrefused conn calls ∧ (s.signalConnections.lookup wsi = some conn → retval = 0)
  | _ :: calls => Unrefused conn calls

/-- Deeds that process these messages for the connection, and do nothing else that shows. -/
def Reads (conn : ConnPtr) (msgs : List Message) (later : List (Server × Deed)) : Prop :=
  ∀ other past, acceptedAt other (later ++ past) = acceptedAt other past ∧
    processedOn other (later ++ past) =
      processedOn other past ++ if other = conn then msgs else []

section

variable {env : Externals} {s t u : Server} {conn other : ConnPtr} {m : Message}
  {msgs more : List Message} {later after : List (Server × Deed)}

theorem reads_nil : Reads conn [] [] := fun other past => by simp

theorem Reads.append (first : Reads conn msgs later) (second : Reads conn more after) :
    Reads conn (msgs ++ more) (after ++ later) := by
  intro other past
  rw [List.append_assoc]
  obtain ⟨accepts, processes⟩ := second other (later ++ past)
  obtain ⟨accepted, processed⟩ := first other past
  refine ⟨accepts.trans accepted, processes.trans ?_⟩
  rw [processed]
  split <;> simp

theorem reads_message (s : Server) (m : Message) : Reads conn [m] [(s, .message conn m)] := by
  intro other past
  refine ⟨rfl, ?_⟩
  simp only [List.cons_append, List.nil_append, processedOn, eq_comm]

theorem reads_arrived (s : Server) (data : Bytes) : Reads conn [] [(s, .arrived conn data)] :=
  fun other past => ⟨rfl, by simp [processedOn]⟩

theorem reads_erased (s : Server) (size : Nat) : Reads conn [] [(s, .erased conn size)] :=
  fun other past => ⟨rfl, by simp [processedOn]⟩

def BuffersKept (conn : ConnPtr) (s t : Server) : Prop :=
  ∀ other, other ≠ conn → (t.connections.lookup other).map (·.recvBuf) =
    (s.connections.lookup other).map (·.recvBuf)

theorem BuffersKept.trans (h : BuffersKept conn s t) (k : BuffersKept conn t u) :
    BuffersKept conn s u :=
  fun other differ => (k other differ).trans (h other differ)

theorem kept_assign (f : P2PSignalConnection → P2PSignalConnection) :
    BuffersKept conn s (s.updateConnection conn f) := by
  intro other differ
  rw [updateConnection_lookup]
  simp [differ]

theorem message_recvBuf {self : ConnPtr} {b : Bool}
    (returns : Returns (processMsg env self m) s b t)
    (conn : ConnPtr) : (t.connections.lookup conn).map (·.recvBuf) =
      (s.connections.lookup conn).map (·.recvBuf) := by
  obtain ⟨this, here, _⟩ := returns_deref_bind.mp returns
  rcases processMsg_cases here returns with ⟨_, _, _, rfl⟩ | ⟨_, e, _, rfl⟩
  · rfl
  · rw [apply_lookup, Option.map_map]
    refine Option.map_congr fun c _ => ?_
    simp only [Function.comp, Effect.leaves]
    split
    · cases e <;> rfl
    · rfl

theorem parseReceived_unfolds (bits : env.sizeBits = 64) (pastEnd : Bytes → Bytes) (fuel : Nat)
    {b : Bool} (returns : Returns (parseReceived env conn pastEnd fuel) s b t)
    {c : P2PSignalConnection} (live : s.connections.lookup conn = some c)
    (enough : c.recvBuf.length ≤ fuel) :
    ∃ later bodies c', Trace (· = s) (Step env) later t ∧
      Reads conn (bodies.map env.getMessage) later ∧ BuffersKept conn s t ∧
      t.connections.lookup conn = some c' ∧
      (b = true → collect (frameReader env.verifyMessageBuffer) c.recvBuf =
        ⟨bodies, c'.recvBuf, true⟩) := by
  induction fuel generalizing s c with
  | zero =>
    obtain ⟨rfl, rfl⟩ := returns_pure.mp returns
    have empty : c.recvBuf = [] := List.length_eq_zero_iff.mp (Nat.le_zero.mp enough)
    refine ⟨[], [], c, .start rfl, reads_nil, fun _ _ => rfl, live, fun _ => ?_⟩
    rw [empty]
    exact collect_more rfl
  | succ fuel ih =>
    obtain ⟨_, u, read, returns⟩ := returns_bind.mp returns
    obtain ⟨_, there, value⟩ := returns_deref_bind.mp read
    obtain ⟨rfl, same⟩ := returns_pure.mp value
    obtain rfl := same.symm
    cases live.symm.trans there
    have look : parseHeader env.sizeBits env.verifyMessageBuffer (pastEnd c.recvBuf) c.recvBuf =
        parseHeader 64 env.verifyMessageBuffer [] c.recvBuf := by rw [bits, header_pastEnd]
    simp only [look] at returns
    cases hp : parseHeader 64 env.verifyMessageBuffer [] c.recvBuf with
    | wait =>
      rw [hp] at returns
      obtain ⟨rfl, rfl⟩ := returns_pure.mp returns
      have more : (frameReader env.verifyMessageBuffer).read c.recvBuf = .more :=
        congrArg verdict hp
      exact ⟨[], [], c, .start rfl, reads_nil, fun _ _ => rfl, live, fun _ => collect_more more⟩
    | refuse =>
      rw [hp] at returns
      obtain ⟨rfl, rfl⟩ := returns_pure.mp returns
      exact ⟨[], [], c, .start rfl, reads_nil, fun _ _ => rfl, live, nofun⟩
    | overrun => exact absurd hp (header_within _ _)
    | message buff size =>
      rw [hp] at returns
      obtain ⟨ok, u, ran, returns⟩ := returns_bind.mp returns
      have item : (frameReader env.verifyMessageBuffer).read c.recvBuf = .item buff size :=
        congrArg verdict hp
      have pos := (frameReader env.verifyMessageBuffer).item_pos item
      have kept := message_recvBuf ran conn
      rw [live] at kept
      obtain ⟨c₁, live₁, unchanged⟩ := Option.map_eq_some_iff.mp kept
      have same : c₁.recvBuf = c.recvBuf := unchanged
      have first : Trace (· = s) (Step env) [(s, .message conn (env.getMessage buff))] u :=
        .next (.start rfl) (.message ran)
      have others : BuffersKept conn s u := fun other _ => message_recvBuf ran other
      cases ok with
      | false =>
        obtain ⟨rfl, rfl⟩ := returns_pure.mp returns
        exact ⟨_, [buff], c₁, first, reads_message s _, others, live₁, nofun⟩
      | true =>
        obtain ⟨_, v, erased, rest⟩ := returns_bind.mp returns
        obtain rfl := returns_modify.mp erased
        have live₂ : (u.updateConnection conn fun c => { c with recvBuf := c.recvBuf.drop size
            }).connections.lookup conn = some { c₁ with recvBuf := c₁.recvBuf.drop size } := by
          rw [updateConnection_lookup, live₁]
          simp
        have room : (c₁.recvBuf.drop size).length ≤ fuel := by
          rw [same, List.length_drop]
          omega
        obtain ⟨later, bodies, c', run, reads, kept', live', found⟩ := ih rest live₂ room
        refine ⟨_, buff :: bodies, c', (first.next (.erased u conn size)).append run, ?_,
          (others.trans (kept_assign _)).trans kept', live', fun accepted => ?_⟩
        · exact ((reads_message s _).append (reads_erased u size)).append reads
        · rw [same] at found
          rw [collect_item item, found accepted]

theorem receive_unfolds (bits : env.sizeBits = 64) {wsi : Wsi} {data : Bytes}
    {pastEnd : Bytes → Bytes} {retval : Int}
    (returns : Returns (receive env wsi data pastEnd) s retval t)
    (owned : s.signalConnections.lookup wsi = some conn) :
    ∃ later bodies c c', Trace (· = s) (Step env) later t ∧
      Reads conn (bodies.map env.getMessage) later ∧ BuffersKept conn s t ∧
      s.connections.lookup conn = some c ∧ t.connections.lookup conn = some c' ∧
      (retval = 0 → collect (frameReader env.verifyMessageBuffer) (c.recvBuf ++ data) =
        ⟨bodies, c'.recvBuf, true⟩) := by
  obtain ⟨u, v, got, returns⟩ := returns_bind.mp returns
  obtain ⟨same, still⟩ := returns_get.mp got
  subst u v
  rw [owned] at returns
  obtain ⟨_, u, arrived, returns⟩ := returns_bind.mp returns
  obtain rfl := returns_modify.mp arrived
  obtain ⟨it, there, returns⟩ := returns_deref_bind.mp returns
  have found := there
  rw [updateConnection_lookup] at found
  obtain ⟨c, live, grown⟩ := Option.map_eq_some_iff.mp found
  rw [if_pos rfl] at grown
  subst it
  obtain ⟨b, u, parsed, last⟩ := returns_bind.mp returns
  obtain ⟨value, same⟩ := returns_pure.mp last
  subst u
  obtain ⟨later, bodies, c', run, reads, kept, live', found⟩ :=
    parseReceived_unfolds bits pastEnd _ parsed there (Nat.le_refl _)
  have first : Trace (· = s) (Step env) [(s, .arrived conn data)] _ :=
    .next (.start rfl) (.arrived s conn data)
  refine ⟨_, bodies, c, c', first.append run, (reads_arrived s data).append reads,
    (kept_assign _).trans kept, live, live', fun accepted => found ?_⟩
  cases b with
  | true => rfl
  | false => simp [accepted] at value

structure Unfolds (env : Externals) (calls : List (Server × LwsEvent × Int))
    (past : List (Server × Deed)) (s : Server) : Prop where
  history : History env past s
  accepted : ∀ conn, acceptedAt conn past = acceptedOn conn calls
  heard : ∀ conn c, s.connections.lookup conn = some c → Unrefused conn calls → ∃ bodies,
    collect (frameReader env.verifyMessageBuffer) (arrivedOn conn calls) =
      ⟨bodies, c.recvBuf, true⟩ ∧ processedOn conn past = bodies.map env.getMessage

variable {calls : List (Server × LwsEvent × Int)} {past : List (Server × Deed)} {wsi : Wsi}
  {retval : Int}

theorem unfolds_established (unfolds : Unfolds env calls past s)
    (allowed : Allowed s (.established wsi other))
    (returns : Returns (established wsi other) s retval t) :
    Unfolds env ((s, .established wsi other, retval) :: calls) ((s, .opened wsi other) :: past)
      t where
  history := unfolds.history.next (.opened allowed returns)
  accepted conn := by simp only [acceptedAt, acceptedOn, unfolds.accepted]
  heard conn c live unrefused := by
    rw [returns_established allowed returns] at live
    simp only [StdMap.lookup_insert_if] at live
    by_cases own : other = conn
    · subst own
      rw [if_pos rfl] at live
      cases live
      refine ⟨[], ?_, by simp [processedOn]⟩
      simp only [arrivedOn, if_true]
      exact collect_more rfl
    · rw [if_neg (Ne.symm own)] at live
      obtain ⟨bodies, held, processed⟩ := unfolds.heard conn c live (unrefused.resolve_left own)
      refine ⟨bodies, ?_, ?_⟩
      · rwa [arrivedOn, if_neg own]
      · rwa [processedOn, if_neg own]

theorem unfolds_closed (unfolds : Unfolds env calls past s)
    (returns : Returns (closed wsi) s retval t) :
    Unfolds env ((s, .closed wsi, retval) :: calls) ((s, .closed wsi) :: past) t where
  history := unfolds.history.next (.closed returns)
  accepted := unfolds.accepted
  heard conn c live unrefused := by
    refine unfolds.heard conn c ?_ unrefused
    rcases closed_cases returns with ⟨_, rfl⟩ | ⟨_, _, _, _, ends⟩
    · exact live
    · rcases ends with ⟨_, rfl⟩ | ⟨_, _, _, _, _, rfl⟩
      · exact (StdMap.lookup_erase_some live).2
      · exact (StdMap.lookup_erase_some live).2

theorem unfolds_receive (bits : env.sizeBits = 64) (unfolds : Unfolds env calls past s)
    {data : Bytes} {pastEnd : Bytes → Bytes}
    (returns : Returns (receive env wsi data pastEnd) s retval t)
    (owned : s.signalConnections.lookup wsi = some conn) :
    ∃ later, Trace (· = s) (Step env) later t ∧
      Unfolds env ((s, .receive wsi data pastEnd, retval) :: calls) (later ++ past) t := by
  obtain ⟨later, bodies, c, c', run, reads, kept, live, live', found⟩ :=
    receive_unfolds bits returns owned
  refine ⟨later, run, unfolds.history.append run, fun other => ?_,
    fun other d there unrefused => ?_⟩
  · exact (reads other past).1.trans (unfolds.accepted other)
  · obtain ⟨_, processed⟩ := reads other past
    by_cases own : other = conn
    · subst own
      cases live'.symm.trans there
      obtain ⟨heard, held, before⟩ := unfolds.heard other c live unrefused.1
      refine ⟨heard ++ bodies, ?_, ?_⟩
      · simp only [arrivedOn, if_pos owned, collect_append, held, if_true,
          found (unrefused.2 owned)]
      · rw [processed, if_pos rfl, before, List.map_append]
    · have elsewhere : ¬ s.signalConnections.lookup wsi = some other := by
        rw [owned]
        exact fun same => own (Option.some.inj same).symm
      have buffer := kept other own
      rw [there] at buffer
      obtain ⟨d₀, live₀, same⟩ := Option.map_eq_some_iff.mp buffer.symm
      obtain ⟨heard, held, before⟩ := unfolds.heard other d₀ live₀ unrefused.1
      refine ⟨heard, ?_, ?_⟩
      · rw [arrivedOn, if_neg elsewhere, List.append_nil, held, same]
      · rw [processed, if_neg own, before, List.append_nil]

theorem unfolds_writeable (unfolds : Unfolds env calls past s) {written : Int}
    (returns : Returns (callbackHumblepeer env (.writeable wsi written)) s retval t) :
    Unfolds env ((s, .writeable wsi written, retval) :: calls)
      ((s, .writeable wsi written) :: past) t where
  history := unfolds.history.next (.writeable returns)
  accepted conn := by simp only [acceptedAt, acceptedOn, unfolds.accepted]
  heard conn c live unrefused := by
    have before : ∃ c₀, s.connections.lookup conn = some c₀ ∧ c₀.recvBuf = c.recvBuf := by
      rcases writeable_cases returns with ⟨rfl, _⟩ | ⟨_, _, _, _, _, _, _, rfl⟩
      · exact ⟨c, live, rfl⟩
      · simp only [updateConnection_lookup] at live
        obtain ⟨c₀, live₀, rfl⟩ := Option.map_eq_some_iff.mp live
        refine ⟨c₀, live₀, ?_⟩
        split <;> rfl
    obtain ⟨c₀, live₀, same⟩ := before
    obtain ⟨bodies, held, processed⟩ := unfolds.heard conn c₀ live₀ unrefused
    exact ⟨bodies, same ▸ held, processed⟩

theorem unfolds_unowned (unfolds : Unfolds env calls past s) {data : Bytes}
    {pastEnd : Bytes → Bytes} (unowned : s.signalConnections.lookup wsi = none) :
    Unfolds env ((s, .receive wsi data pastEnd, retval) :: calls) past s where
  history := unfolds.history
  accepted := unfolds.accepted
  heard conn c live unrefused := by
    obtain ⟨bodies, held, processed⟩ := unfolds.heard conn c live unrefused.1
    refine ⟨bodies, ?_, processed⟩
    rwa [arrivedOn, unowned, if_neg nofun, List.append_nil]

theorem call_unfolds (bits : env.sizeBits = 64) (unfolds : Unfolds env calls past s)
    {call : LwsEvent × Int} (taken : CallStep env s call t) :
    ∃ later, Trace (· = s) (Step env) later t ∧
      Unfolds env ((s, call) :: calls) (later ++ past) t := by
  obtain ⟨event, retval⟩ := call
  obtain ⟨allowed, returns⟩ := taken
  cases event with
  | established wsi other =>
    exact ⟨[(s, .opened wsi other)], .next (.start rfl) (.opened allowed returns),
      unfolds_established unfolds allowed returns⟩
  | closed wsi =>
    exact ⟨[(s, .closed wsi)], .next (.start rfl) (.closed returns),
      unfolds_closed unfolds returns⟩
  | writeable wsi written =>
    exact ⟨[(s, .writeable wsi written)], .next (.start rfl) (.writeable returns),
      unfolds_writeable unfolds returns⟩
  | receive wsi data pastEnd =>
    cases owned : s.signalConnections.lookup wsi with
    | some conn => exact unfolds_receive bits unfolds returns owned
    | none =>
      obtain ⟨u, v, got, rest⟩ := returns_bind.mp returns
      obtain ⟨_, _⟩ := returns_get.mp got
      subst u v
      rw [owned] at rest
      obtain ⟨_, same⟩ := returns_pure.mp rest
      exact ⟨[], .start same, same ▸ unfolds_unowned unfolds owned⟩

def Along (env : Externals) (calls : List (Server × LwsEvent × Int))
    (past : List (Server × Deed)) (s : Server) : Prop :=
  ∀ later moment before, calls = later ++ moment :: before → ∃ more earlier,
    past = more ++ earlier ∧ Trace (· = moment.1) (Step env) more s ∧
      Unfolds env before earlier moment.1

theorem calls_unfold (bits : env.sizeBits = 64) (run : CallRun env calls s) :
    ∃ past, Unfolds env calls past s ∧ Along env calls past s := by
  induction run with
  | start initial =>
    refine ⟨[], ⟨.start initial, fun _ => rfl, fun conn c live => ?_⟩, fun later _ _ split => ?_⟩
    · obtain ⟨_, _, _, rfl⟩ := initial
      cases live
    · cases later <;> cases split
  | @next calls s t call _ taken ih =>
    obtain ⟨past, unfolds, along⟩ := ih
    obtain ⟨more, run, unfolds'⟩ := call_unfolds bits unfolds taken
    refine ⟨more ++ past, unfolds', fun later moment before split => ?_⟩
    cases later with
    | nil =>
      cases split
      exact ⟨more, past, rfl, run, unfolds⟩
    | cons first later =>
      cases split
      obtain ⟨between, earlier, rfl, run', unfolds''⟩ := along later moment before rfl
      exact ⟨more ++ between, earlier, (List.append_assoc _ _ _).symm, run'.append run, unfolds''⟩

/-- What can be read of the bytes that have arrived for a connection. -/
def heardOn (env : Externals) (conn : ConnPtr) (calls : List (Server × LwsEvent × Int)) :
    List Message :=
  (collect (frameReader env.verifyMessageBuffer) (arrivedOn conn calls)).items.map env.getMessage

theorem Unfolds.processed (unfolds : Unfolds env calls past s) {c : P2PSignalConnection}
    (live : s.connections.lookup conn = some c) (unrefused : Unrefused conn calls) :
    processedOn conn past = heardOn env conn calls := by
  obtain ⟨bodies, held, processed⟩ := unfolds.heard conn c live unrefused
  rw [processed, heardOn, held]

/-- Whenever both were in the game, these first messages of `x` had arrived. -/
def NoLater (env : Externals) (calls : List (Server × LwsEvent × Int)) (x y : ConnPtr) (g : GameId)
    (p q : PeerId) (early : List Message) : Prop :=
  ∀ later moment before, calls = later ++ moment :: before → Seat moment.1 x g p →
    Seat moment.1 y g q → Unrefused x before → early.length ≤ (heardOn env x before).length

theorem parcels_of_sender (few : ∀ g, s.idsHandedOut g < 2 ^ 32 - 1)
    (unfolds : Unfolds env calls past s) (along : Along env calls past s) {x y : ConnPtr}
    (talk : Talk env y past s msgs) {g : GameId} {p q : PeerId} (sx : Seat s x g p)
    (sy : Seat s y g q) (unrefused : Unrefused x calls) :
    ∃ early late, heardOn env x calls = early ++ late ∧
      parcels p msgs = (parcels q late).map Parcel.copied ∧
      NoLater env calls x y g p q early := by
  have sorted := (talk_sorted unfolds.history few talk).seated g q sy x p sx
  obtain ⟨early, late, all, handed, bound⟩ := handedOver_processed unfolds.history few sx sy
  obtain ⟨w, d, _, here, _⟩ := id sx.2
  refine ⟨early, late, ?_, sorted.trans handed, ?_⟩
  · rw [← unfolds.processed here unrefused, all]
  · intro later moment before split ux uy unrefused'
    obtain ⟨more, earlier, rfl, run', unfolds'⟩ := along later moment before split
    obtain ⟨w', d', _, here', _⟩ := id ux.2
    rw [← unfolds'.processed here' unrefused']
    exact bound more earlier moment.1 rfl unfolds'.history run' ux uy

instance Unrefused.dec (conn : ConnPtr) : (calls : List (Server × LwsEvent × Int)) →
    Decidable (Unrefused conn calls)
  | [] => isTrue trivial
  | (_, .established _ other, _) :: calls =>
    haveI := Unrefused.dec conn calls
    inferInstanceAs (Decidable (other = conn ∨ Unrefused conn calls))
  | (s, .receive wsi _ _, retval) :: calls =>
    haveI := Unrefused.dec conn calls
    inferInstanceAs (Decidable (Unrefused conn calls ∧
      (s.signalConnections.lookup wsi = some conn → retval = 0)))
  | (_, .closed _, _) :: calls => Unrefused.dec conn calls
  | (_, .writeable _ _, _) :: calls => Unrefused.dec conn calls

def Server.seatOf (s : Server) (wsi : Wsi) : Option (ConnPtr × GameId × PeerId) :=
  (s.signalConnections.lookup wsi).bind fun conn =>
    (s.connections.lookup conn).bind fun c => c.game.bind fun g =>
      if c.peerId = 0 then none else some (conn, g, c.peerId)

theorem seat_of_seatOf {g : GameId} {p : PeerId} (found : s.seatOf wsi = some (conn, g, p)) :
    Seat s conn g p := by
  obtain ⟨conn', owned, found⟩ := Option.bind_eq_some_iff.mp found
  obtain ⟨c, live, found⟩ := Option.bind_eq_some_iff.mp found
  obtain ⟨g', game, found⟩ := Option.bind_eq_some_iff.mp found
  split at found
  · cases found
  · rename_i nonzero
    cases found
    exact ⟨nonzero, wsi, c, owned, live, game, rfl⟩

def LwsEvent.possible (s : Server) : LwsEvent → Bool
  | .established wsi conn => decide (wsi ∉ s.signalConnections ∧ conn ∉ s.connections)
  | _ => true

def LwsEvent.next (env : Externals) (s : Server) (call : LwsEvent × Int) : Option Server :=
  if call.1.possible s then
    match callbackHumblepeer env call.1 s with
    | .ok (retval, t) => if retval = call.2 then some t else none
    | .error _ => none
  else none

theorem LwsEvent.next_call {call : LwsEvent × Int} (h : LwsEvent.next env s call = some t) :
    CallStep env s call t := by
  obtain ⟨event, retval⟩ := call
  unfold LwsEvent.next at h
  split at h
  · rename_i possible
    split at h
    · rename_i ran
      split at h
      · rename_i value
        cases h
        cases value
        refine ⟨?_, ran⟩
        cases event with
        | established wsi conn =>
          exact of_decide_eq_true (p := wsi ∉ s.signalConnections ∧ conn ∉ s.connections) possible
        | _ => trivial
      · cases h
    · cases h
  · cases h

theorem called {labels : List (LwsEvent × Int)}
    {seen : List (Server × LwsEvent × Int) × Server → Bool}
    (h : (Trace.play (LwsEvent.next env) (Server.new (.anonymous 0 ∅) []) labels).any seen = true) :
    ∃ calls s, CallRun env calls s ∧ seen (calls, s) = true := by
  obtain ⟨⟨calls, s⟩, run, now⟩ := (Option.any_eq_true _ _).mp h
  exact ⟨calls, s, @Trace.of_play _ _ Started (CallStep env) (LwsEvent.next env)
    (fun _ _ _ h => LwsEvent.next_call h) _ ⟨.anonymous 0 ∅, [], ⟨rfl, rfl⟩, rfl⟩ _ _ run, now⟩

end

/-! ### A parcel -/

def relayed (peer : PeerId) : Message := .p2pRelayData (some ⟨peer, some [0x68]⟩)

def welcomed : Message := .helloClient (some ⟨2, none, none⟩)

def oneByte (b : UInt8) : Body := ⟨[b], by simp⟩

/-- An outside that knows four messages, in one byte each. -/
def postal : Externals where
  sizeBits := 64
  verifyMessageBuffer _ := true
  getMessage buff :=
    if buff = [1] then greeting else if buff = [2] then relayed 2
    else if buff = [3] then relayed 1 else if buff = [4] then welcomed else .none
  finish m :=
    if m = greeting then oneByte 1 else if m = relayed 2 then oneByte 2
    else if m = relayed 1 then oneByte 3 else if m = welcomed then oneByte 4 else oneByte 0
  sha1 _ := Digest.zero

def posting : List (LwsEvent × Int) :=
  [(.established 1 10, 0), (.established 2 20, 0),
    (.receive 1 (p2pMessageFrame [1]) fun _ => [], 0),
    (.receive 2 (p2pMessageFrame [1]) fun _ => [], 0),
    (.receive 1 ((p2pMessageFrame [2]).take 3) fun _ => [255], 0),
    (.receive 1 ((p2pMessageFrame [2]).drop 3) fun _ => [], 0), (.writeable 2 18, 0)]

def bothSeated (s : Server) : Bool :=
  decide (s.seatOf 1 = some (10, 1, 1) ∧ s.seatOf 2 = some (20, 1, 2))

theorem posted : ∃ calls s c, CallRun postal calls s ∧ (∀ g, s.idsHandedOut g < 2 ^ 32 - 1) ∧
    Seat s 10 1 1 ∧ Seat s 20 1 2 ∧ s.connections.lookup 20 = some c ∧ c.sendBuf = [] ∧
    Unrefused 10 calls ∧ arrivedOn 10 calls = p2pMessageFrame [1] ++ p2pMessageFrame [2] ∧
    acceptedOn 20 calls = p2pMessageFrame [4] ++ p2pMessageFrame [3] ∧
    heardOn postal 10 calls = [greeting, relayed 2] ∧
    ∀ early, NoLater postal calls 10 20 1 1 2 early → early.length ≤ 1 := by
  have run : (Trace.play (LwsEvent.next postal) (Server.new (.anonymous 0 ∅) []) posting).any
      (fun r => bothSeated r.2 && decide (r.2.handedOut.length = 2 ∧ Unrefused 10 r.1 ∧
          arrivedOn 10 r.1 = p2pMessageFrame [1] ++ p2pMessageFrame [2] ∧
          acceptedOn 20 r.1 = p2pMessageFrame [4] ++ p2pMessageFrame [3] ∧
          heardOn postal 10 r.1 = [greeting, relayed 2]) &&
        (r.2.connections.lookup 20).all (fun c => decide (c.sendBuf = [])) &&
        r.1[1]?.any fun moment => bothSeated moment.1 && decide (Unrefused 10 (r.1.drop 2) ∧
          heardOn postal 10 (r.1.drop 2) = [greeting])) = true := by
    decide +kernel
  obtain ⟨calls, s, called, facts⟩ := called run
  simp only [Bool.and_eq_true, Option.any_eq_true, Option.all_eq_true, bothSeated,
    decide_eq_true_eq] at facts
  obtain ⟨⟨⟨⟨s₁, s₂⟩, two, unrefused, arrived, accepted, heard⟩, drained⟩, moment, at_one, ⟨u₁, u₂⟩,
    unrefused', before⟩ := facts
  have few := few_of_length (s := s) (by rw [two]; decide)
  obtain ⟨_, w, c, _, live, _⟩ := seat_of_seatOf s₂
  refine ⟨calls, s, c, called, few, seat_of_seatOf s₁, seat_of_seatOf s₂, live, drained c live,
    unrefused, arrived, accepted, heard, fun early bound => ?_⟩
  obtain ⟨lt, rfl⟩ := List.getElem?_eq_some_iff.mp at_one
  have split : calls = calls.take 1 ++ calls[1] :: calls.drop 2 := by
    rw [← List.drop_eq_getElem_cons lt, List.take_append_drop]
  have short := bound _ _ _ split (seat_of_seatOf u₁) (seat_of_seatOf u₂) unrefused'
  rwa [before] at short

theorem parcel_is_late {early late : List Message} (all : early ++ late = [greeting, relayed 2])
    (short : early.length ≤ 1) : parcels 2 late = [.data [0x68]] := by
  cases early with
  | nil =>
    cases all
    rfl
  | cons m rest =>
    obtain rfl : rest = [] := List.length_eq_zero_iff.mp (by simpa using short)
    cases all
    rfl

end HumbleNet.PeerServer
