import HumbleNet.Fragmentation
import HumbleNet.PeerServer.Isolation
import HumbleNet.PeerServer.ReceiveBuffer

/-! What arrives at a websocket, however the transport cuts it. With the receive buffer kept
apart from the rest of the server an arrival is a session of the stream reader, whose callback
is the whole server. -/
namespace HumbleNet.PeerServer

open Program Incremental Fragmentation

/-- The pieces of an arrival, one callback each. A callback that returns -1 has its websocket
closed, so that none follows. -/
def receiveAll (env : Externals) (wsi : Wsi) : List Chunk → ServerM Bool
  | [] => pure true
  | c :: cs => do
    let retval ← receive env wsi c.bytes c.pastEnd
    if retval = 0 then receiveAll env wsi cs else pure false

def parseReceived (env : Externals) (conn : ConnPtr) (pastEnd : Bytes → Bytes) (fuel : Nat) :
    ServerM Bool :=
  parseMessage
    (fun recvBuf => parseHeader env.sizeBits env.verifyMessageBuffer (pastEnd recvBuf) recvBuf)
    (do pure (← deref conn).recvBuf)
    (fun size => modify fun s => s.updateConnection conn fun c =>
      { c with recvBuf := c.recvBuf.drop size })
    (fault .overrun) (fun buff => processMsg env conn (env.getMessage buff)) fuel

/-- The server behind the reader: a message is processed unless an earlier one has stopped it. -/
def deliver (env : Externals) (conn : ConnPtr) (buff : Bytes) :
    Except Fault Server → Bool × Except Fault Server
  | .ok s =>
    match processMsg env conn (env.getMessage buff) s with
    | .ok (b, t) => (b, .ok t)
    | .error e => (false, .error e)
  | .error e => (false, .error e)

def outcome (conn : ConnPtr) (r : Bool × Stream (Except Fault Server)) :
    Except Fault (Bool × Server) :=
  match r.2.user with
  | .ok s => .ok (r.1, s.withBuf conn r.2.buffer)
  | .error e => .error e

theorem outcome_stopped {conn : ConnPtr} {r : Bool × Stream (Except Fault Server)} {e : Fault}
    (stopped : r.2.user = .error e) : outcome conn r = .error e := by
  simp only [outcome, stopped]

theorem outcome_verdict {conn : ConnPtr} {r : Bool × Stream (Except Fault Server)} {b : Bool}
    {t : Server} (h : outcome conn r = .ok (b, t)) : r.1 = b := by
  obtain ⟨ok, rest, handed, user⟩ := r
  cases user with
  | error e => cases h
  | ok s =>
    cases h
    rfl

section

variable {env : Externals} {wsi : Wsi} {conn : ConnPtr} {s t : Server}

theorem withBuf_withBuf (bytes more : Bytes) (s : Server) :
    (s.withBuf conn bytes).withBuf conn more = s.withBuf conn more := by
  simp only [Server.withBuf, Server.updateConnection, StdMap.modify_modify]

theorem withBuf_self {c : P2PSignalConnection} (live : s.connections.lookup conn = some c) :
    s.withBuf conn c.recvBuf = s := by
  have same : ∀ c', s.connections.lookup conn = some c' →
      ({ c' with recvBuf := c.recvBuf } : P2PSignalConnection) = c' := by
    intro c' live'
    rw [live] at live'
    cases live'
    rfl
  simp only [Server.withBuf, Server.updateConnection, StdMap.modify_same same]

structure Attached (wsi : Wsi) (conn : ConnPtr) (s : Server) : Prop where
  owned : s.signalConnections.lookup wsi = some conn
  live : ∃ c, s.connections.lookup conn = some c

theorem Attached.processMsg (attached : Attached wsi conn s) {self : ConnPtr} {msg : Message}
    {b : Bool} (returns : Returns (processMsg env self msg) s b t) : Attached wsi conn t := by
  constructor
  · obtain ⟨this, here, _⟩ := returns_deref_bind.mp returns
    rcases processMsg_cases here returns with ⟨_, _, _, rfl⟩ | ⟨_, e, _, rfl⟩
    · exact attached.owned
    · rw [(effect_signals self this e).1]
      exact attached.owned
  · obtain ⟨c, live⟩ := attached.live
    rcases step_connection (.message returns) live with ⟨_, other, _⟩ | ⟨c', live', _⟩
    · cases other
    · exact ⟨c', live'⟩

def AttachedIn (wsi : Wsi) (conn : ConnPtr) (user : Except Fault Server) : Prop :=
  ∀ s, user = .ok s → Attached wsi conn s

theorem attached_deliver (buff : Bytes) {user : Except Fault Server}
    (attached : AttachedIn wsi conn user) : AttachedIn wsi conn (deliver env conn buff user).2 := by
  intro t after
  cases user with
  | error e => cases after
  | ok s =>
    simp only [deliver] at after
    split at after
    · rename_i b u ran
      cases after
      exact (attached s rfl).processMsg ran
    · cases after

theorem recvBuf_withBuf {c : P2PSignalConnection} (live : s.connections.lookup conn = some c)
    (bytes : Bytes) : Returns (do pure (← deref conn).recvBuf : ServerM Bytes)
      (s.withBuf conn bytes) bytes (s.withBuf conn bytes) := by
  have there : (s.withBuf conn bytes).connections.lookup conn =
      some { c with recvBuf := bytes } := by simp [lookup_withBuf, live]
  exact returns_deref_bind.mpr ⟨_, there, returns_pure.mpr ⟨rfl, rfl⟩⟩

theorem erase_withBuf (bytes : Bytes) (size : Nat) (s : Server) :
    (s.withBuf conn bytes).updateConnection conn (fun c =>
      { c with recvBuf := c.recvBuf.drop size }) = s.withBuf conn (bytes.drop size) := by
  simp only [Server.withBuf, Server.updateConnection, StdMap.modify_modify]

theorem processMsg_returns {msg : Message} {b : Bool}
    (ran : Returns (processMsg env conn msg) s b t)
    (bytes : Bytes) :
    Returns (processMsg env conn msg) (s.withBuf conn bytes) b (t.withBuf conn bytes) := by
  have matched : Matched (Swapped conn bytes) Eq (processMsg env conn msg s)
      (processMsg env conn msg (s.withBuf conn bytes)) := mirrors_processMsg conn msg s _ rfl
  rw [show processMsg env conn msg s = .ok (b, t) from ran] at matched
  generalize out : processMsg env conn msg (s.withBuf conn bytes) = o at matched
  cases matched with
  | returned values states =>
    cases values
    cases states
    exact out

theorem processMsg_stops {msg : Message} {e : Fault} (ran : processMsg env conn msg s = .error e)
    (bytes : Bytes) : processMsg env conn msg (s.withBuf conn bytes) = .error e := by
  have matched : Matched (Swapped conn bytes) Eq (processMsg env conn msg s)
      (processMsg env conn msg (s.withBuf conn bytes)) := mirrors_processMsg conn msg s _ rfl
  rw [ran] at matched
  generalize processMsg env conn msg (s.withBuf conn bytes) = o at matched ⊢
  cases matched with
  | stopped e => rfl

theorem deliver_returns {buff : Bytes} {b : Bool}
    (ran : Returns (processMsg env conn (env.getMessage buff)) s b t) :
    deliver env conn buff (.ok s) = (b, .ok t) := by
  simp only [deliver, show processMsg env conn (env.getMessage buff) s = .ok (b, t) from ran]

theorem deliver_stops {buff : Bytes} {e : Fault}
    (ran : processMsg env conn (env.getMessage buff) s = .error e) :
    deliver env conn buff (.ok s) = (false, .error e) := by
  simp only [deliver, ran]

theorem parseReceived_eq (bits : env.sizeBits = 64) (pastEnd : Bytes → Bytes) (fuel : Nat)
    {bytes : Bytes} (enough : bytes.length ≤ fuel) (items : List Bytes)
    (attached : Attached wsi conn s) :
    parseReceived env conn pastEnd fuel (s.withBuf conn bytes) =
      outcome conn (drain (frameReader env.verifyMessageBuffer) (deliver env conn)
        ⟨bytes, items, .ok s⟩) := by
  induction fuel generalizing bytes items s with
  | zero =>
    have empty : bytes = [] := List.length_eq_zero_iff.mp (by omega)
    rw [drain_more _ _ (by rw [empty]; rfl)]
    rfl
  | succ fuel ih =>
    obtain ⟨c, live⟩ := attached.live
    have start : parseReceived env conn pastEnd (fuel + 1) (s.withBuf conn bytes) = _ :=
      (recvBuf_withBuf live bytes).bind_run
    have look : parseHeader env.sizeBits env.verifyMessageBuffer (pastEnd bytes) bytes =
        parseHeader 64 env.verifyMessageBuffer [] bytes := by rw [bits, header_pastEnd]
    refine start.trans ?_
    simp only [look]
    cases hp : parseHeader 64 env.verifyMessageBuffer [] bytes with
    | wait =>
      have more : (frameReader env.verifyMessageBuffer).read bytes = .more := congrArg verdict hp
      rw [drain_more _ _ more]
      rfl
    | refuse =>
      have bad : (frameReader env.verifyMessageBuffer).read bytes = .bad := congrArg verdict hp
      rw [drain_bad _ _ bad]
      rfl
    | overrun => exact absurd hp (header_within _ _)
    | message buff size =>
      have item : (frameReader env.verifyMessageBuffer).read bytes = .item buff size :=
        congrArg verdict hp
      have pos := (frameReader env.verifyMessageBuffer).item_pos item
      rw [drain_item _ _ item]
      cases ran : processMsg env conn (env.getMessage buff) s with
      | error e =>
        rw [deliver_stops ran]
        exact bind_run_error (processMsg_stops ran bytes)
      | ok r =>
        obtain ⟨ok, t⟩ := r
        rw [deliver_returns ran]
        refine (Returns.bind_run (processMsg_returns ran bytes)).trans ?_
        cases ok with
        | false => rfl
        | true =>
          have room : (bytes.drop size).length ≤ fuel := by
            rw [List.length_drop]
            omega
          have rest := ih room (items ++ [buff]) (attached.processMsg ran)
          rw [← erase_withBuf] at rest
          exact rest

/-! ### Arrivals -/

theorem receive_eq (bits : env.sizeBits = 64) (attached : Attached wsi conn s) (bytes : Bytes)
    (c : Chunk) (items : List Bytes) :
    receive env wsi c.bytes c.pastEnd (s.withBuf conn bytes) =
      (outcome conn (drain (frameReader env.verifyMessageBuffer) (deliver env conn)
        ((⟨bytes, items, .ok s⟩ : Stream _).push c.bytes))).map
          fun r => (if r.1 then 0 else -1, r.2) := by
  obtain ⟨old, live⟩ := attached.live
  have arrived : (s.withBuf conn bytes).updateConnection conn (fun o =>
      { o with recvBuf := o.recvBuf ++ c.bytes }) = s.withBuf conn (bytes ++ c.bytes) := by
    simp only [Server.withBuf, Server.updateConnection, StdMap.modify_modify]
  have there : (s.withBuf conn (bytes ++ c.bytes)).connections.lookup conn =
      some { old with recvBuf := bytes ++ c.bytes } := by simp [lookup_withBuf, live]
  have parsed := parseReceived_eq bits c.pastEnd (bytes ++ c.bytes).length (Nat.le_refl _) items
    attached
  have owned : (s.withBuf conn bytes).signalConnections.lookup wsi = some conn := attached.owned
  have run : receive env wsi c.bytes c.pastEnd (s.withBuf conn bytes) =
      (parseReceived env conn c.pastEnd (bytes ++ c.bytes).length >>= fun retval =>
        pure (if retval then (0 : Int) else -1)) (s.withBuf conn (bytes ++ c.bytes)) := by
    rw [receive]
    refine (Returns.bind_run (returns_get.mpr ⟨rfl, rfl⟩)).trans ?_
    rw [owned]
    refine (Returns.bind_run (a := ⟨⟩) (returns_modify.mpr rfl)).trans ?_
    rw [arrived]
    exact Returns.bind_run (returns_deref.mpr ⟨there, rfl⟩)
  rw [run]
  simp only [Session.push]
  generalize drain (frameReader env.verifyMessageBuffer) (deliver env conn)
    ⟨bytes ++ c.bytes, items, .ok s⟩ = r at parsed ⊢
  obtain ⟨ok, rest, handed, user⟩ := r
  cases user with
  | error e => exact bind_run_error parsed
  | ok t => exact Returns.bind_run parsed

theorem receiveAll_eq_feed (bits : env.sizeBits = 64) (attached : Attached wsi conn s)
    (bytes : Bytes) (chunks : List Chunk) (items : List Bytes) :
    receiveAll env wsi chunks (s.withBuf conn bytes) =
      outcome conn (feed (frameReader env.verifyMessageBuffer) (deliver env conn)
        ⟨bytes, items, .ok s⟩ (chunks.map Chunk.bytes)) := by
  induction chunks generalizing bytes items s with
  | nil => rfl
  | cons c cs ih =>
    have one := receive_eq bits attached bytes c items
    have kept : AttachedIn wsi conn (drain (frameReader env.verifyMessageBuffer) (deliver env conn)
        ((⟨bytes, items, .ok s⟩ : Stream _).push c.bytes)).2.user := by
      refine drain_keeps _ _ (fun b u => attached_deliver b) _ ?_
      intro t same
      cases same
      exact attached
    simp only [feed, List.map_cons]
    generalize drain (frameReader env.verifyMessageBuffer) (deliver env conn)
      ((⟨bytes, items, .ok s⟩ : Stream _).push c.bytes) = r at one kept ⊢
    obtain ⟨ok, rest, handed, user⟩ := r
    cases user with
    | error e =>
      refine (bind_run_error one).trans ?_
      have stays : ∀ (buff : Bytes) (user : Except Fault Server), user = .error e →
          (deliver env conn buff user).2 = .error e := by
        rintro buff _ rfl
        rfl
      have stopped := feed_keeps (frameReader env.verifyMessageBuffer) (deliver env conn) stays
        (cs.map Chunk.bytes) ⟨rest, handed, .error e⟩ rfl
      split
      · exact (outcome_stopped stopped).symm
      · rfl
    | ok t =>
      refine (Returns.bind_run one).trans ?_
      cases ok with
      | false => rfl
      | true => exact ih (kept t rfl) rest handed

/-- The states agree but for what a refused websocket has left unread. -/
def Alongside (conn : ConnPtr) (t u : Server) : Prop := t.withBuf conn [] = u.withBuf conn []

theorem outcome_same {r q : Bool × Stream (Except Fault Server)} (same : SameCalls r q) :
    Matched (Alongside conn) Eq (outcome conn r) (outcome conn q) ∧
      (r.1 = true → outcome conn r = outcome conn q) := by
  obtain ⟨ok, rest, handed, user⟩ := r
  obtain ⟨ok', rest', handed', user'⟩ := q
  obtain ⟨rfl, rfl, rfl, buffers⟩ := same
  constructor
  · cases user with
    | error e => exact .stopped e
    | ok t =>
      refine .returned rfl ?_
      simp only [Alongside, withBuf_withBuf]
  · intro accepted
    cases buffers accepted
    rfl

def Waits (env : Externals) (bytes : Bytes) : Prop :=
  parseHeader 64 env.verifyMessageBuffer [] bytes = .wait

theorem Waits.read {bytes : Bytes} (waits : Waits env bytes) :
    (frameReader env.verifyMessageBuffer).read bytes = .more := congrArg verdict waits

theorem waits_of_read {bytes : Bytes}
    (more : (frameReader env.verifyMessageBuffer).read bytes = .more) : Waits env bytes := by
  change verdict (parseHeader 64 env.verifyMessageBuffer [] bytes) = .more at more
  unfold Waits
  cases hp : parseHeader 64 env.verifyMessageBuffer [] bytes with
  | wait => rfl
  | refuse =>
    rw [hp] at more
    cases more
  | overrun =>
    rw [hp] at more
    cases more
  | message buff size =>
    rw [hp] at more
    cases more

/-- However the bytes that arrive at a websocket are cut, the server stops at the same fault, or
accepts or refuses them alike and ends in the same state, but for what it has not read of a
refused websocket; and where it has accepted them the reader waits again. -/
theorem arrivals_independent_of_cut (bits : env.sizeBits = 64) {c : P2PSignalConnection}
    (owned : s.signalConnections.lookup wsi = some conn)
    (live : s.connections.lookup conn = some c) (waits : Waits env c.recvBuf)
    (xs ys : List Chunk) (same : (xs.map Chunk.bytes).flatten = (ys.map Chunk.bytes).flatten) :
    Matched (Alongside conn) Eq (receiveAll env wsi xs s) (receiveAll env wsi ys s) ∧
      ∀ t, Returns (receiveAll env wsi xs) s true t →
        Returns (receiveAll env wsi ys) s true t ∧
        ∃ c', t.connections.lookup conn = some c' ∧ Waits env c'.recvBuf := by
  have attached : Attached wsi conn s := ⟨owned, c, live⟩
  have cut := feed_cut (frameReader env.verifyMessageBuffer) (deliver env conn) _ _ same
    ⟨c.recvBuf, [], .ok s⟩ waits.read
  have whole := feed_flatten (frameReader env.verifyMessageBuffer) (deliver env conn)
    (xs.map Chunk.bytes) ⟨c.recvBuf, [], .ok s⟩ waits.read
  have kept := feed_keeps (frameReader env.verifyMessageBuffer) (deliver env conn)
    (I := AttachedIn wsi conn) (fun b u => attached_deliver b) (xs.map Chunk.bytes)
    ⟨c.recvBuf, [], .ok s⟩ fun t same => by
      cases same
      exact attached
  have runs := fun chunks => receiveAll_eq_feed bits attached c.recvBuf chunks []
  simp only [withBuf_self live] at runs
  rw [runs, runs]
  refine ⟨(outcome_same cut).1, fun t returns => ?_⟩
  have ran := (runs xs).symm.trans returns
  generalize feed (frameReader env.verifyMessageBuffer) (deliver env conn)
    ⟨c.recvBuf, [], .ok s⟩ (xs.map Chunk.bytes) = r at cut whole kept ran
  obtain ⟨ok, rest, handed, user⟩ := r
  cases user with
  | error e => cases ran
  | ok u =>
    cases ran
    constructor
    · exact (runs ys).trans ((outcome_same cut).2 rfl).symm
    · obtain ⟨c', live'⟩ := (kept u rfl).live
      refine ⟨{ c' with recvBuf := rest }, by simp [lookup_withBuf, live'], waits_of_read ?_⟩
      have left : rest = _ := whole.2.2.2 rfl
      rw [left]
      exact drain_settled _ _ _ whole.1.symm

def processAll (env : Externals) (conn : ConnPtr) : List Message → ServerM Bool
  | [] => pure true
  | m :: ms => do if ← processMsg env conn m then processAll env conn ms else pure false

theorem drain_frames {rest : Bytes} (waits : Waits env rest) (bodies : List Body)
    (good : ∀ b ∈ bodies, env.verifyMessageBuffer b.bytes = true) (items : List Bytes) :
    Matched (Alongside conn) Eq
        (outcome conn (drain (frameReader env.verifyMessageBuffer) (deliver env conn)
          ⟨(bodies.map fun b => p2pMessageFrame b.bytes).flatten ++ rest, items, .ok s⟩))
        (processAll env conn (bodies.map fun b => env.getMessage b.bytes) s) ∧
      ∀ t, Returns (processAll env conn (bodies.map fun b => env.getMessage b.bytes)) s true t →
        outcome conn (drain (frameReader env.verifyMessageBuffer) (deliver env conn)
          ⟨(bodies.map fun b => p2pMessageFrame b.bytes).flatten ++ rest, items, .ok s⟩) =
          .ok (true, t.withBuf conn rest) := by
  induction bodies generalizing s items with
  | nil =>
    have more := drain_more _ (deliver env conn) (s := ⟨rest, items, .ok s⟩) waits.read
    simp only [List.map_nil, List.flatten_nil, List.nil_append, more]
    refine ⟨.returned rfl (withBuf_withBuf _ _ _), fun t returns => ?_⟩
    obtain ⟨_, rfl⟩ := returns_pure.mp returns
    rfl
  | cons b bs ih =>
    have item := frame_read env.verifyMessageBuffer b (good b List.mem_cons_self)
      ((bs.map fun b => p2pMessageFrame b.bytes).flatten ++ rest)
    rw [List.map_cons, List.flatten_cons, List.append_assoc,
      drain_item (frameReader _) (deliver env conn) (s := ⟨_, items, .ok s⟩) item]
    simp only [List.drop_left, List.map_cons, processAll]
    cases ran : processMsg env conn (env.getMessage b.bytes) s with
    | error e =>
      rw [deliver_stops ran]
      refine ⟨?_, fun t returns => ?_⟩
      · rw [bind_run_error ran]
        exact .stopped e
      · rw [Returns, bind_run_error ran] at returns
        cases returns
    | ok r =>
      obtain ⟨ok, t⟩ := r
      rw [deliver_returns ran, Returns.bind_run ran]
      cases ok with
      | false =>
        refine ⟨.returned rfl (withBuf_withBuf _ _ _), fun t returns => ?_⟩
        rw [Returns, Returns.bind_run ran] at returns
        cases returns
      | true =>
        have later := ih (s := t) (fun b hb => good b (List.mem_cons_of_mem _ hb))
          (items ++ [b.bytes])
        refine ⟨later.1, fun u returns => later.2 u ?_⟩
        rw [Returns, Returns.bind_run ran] at returns
        exact returns

theorem receive_frames (bits : env.sizeBits = 64) {c : P2PSignalConnection}
    (owned : s.signalConnections.lookup wsi = some conn)
    (live : s.connections.lookup conn = some c) (empty : c.recvBuf = []) (bodies : List Body)
    (good : ∀ b ∈ bodies, env.verifyMessageBuffer b.bytes = true) {rest : Bytes}
    (waits : Waits env rest) (chunks : List Chunk)
    (cut : (chunks.map Chunk.bytes).flatten =
      (bodies.map fun b => p2pMessageFrame b.bytes).flatten ++ rest) :
    Matched (Alongside conn) Eq (receiveAll env wsi chunks s)
        (processAll env conn (bodies.map fun b => env.getMessage b.bytes) s) ∧
      ∀ t, Returns (processAll env conn (bodies.map fun b => env.getMessage b.bytes)) s true t →
        Returns (receiveAll env wsi chunks) s true (t.withBuf conn rest) := by
  have attached : Attached wsi conn s := ⟨owned, c, live⟩
  have blank : s.withBuf conn [] = s := by
    rw [← empty]
    exact withBuf_self live
  have run := receiveAll_eq_feed bits attached [] chunks []
  rw [blank] at run
  have whole := feed_flatten (frameReader env.verifyMessageBuffer) (deliver env conn)
    (chunks.map Chunk.bytes) ⟨[], [], .ok s⟩ rfl
  simp only [cut, Session.push, List.nil_append] at whole
  obtain ⟨same, exact_s⟩ := drain_frames (s := s) waits bodies good []
  have agree := @outcome_same conn _ _ whole
  rw [run]
  refine ⟨agree.1.trans (fun _ _ _ => Eq.trans) same, fun t returns => ?_⟩
  have accepted := exact_s t returns
  have both := agree.2 ?_
  · exact run.trans (both.trans accepted)
  · rw [whole.1]
    exact outcome_verdict accepted

end

/-! Two hellos at a fresh connection; the second one is ignored. -/

def greetingAgain : Externals := { plain with getMessage := fun _ => greeting }

def oneOpened : Server :=
  { Server.new (.anonymous 0 ∅) [] with
    signalConnections := StdMap.emplace 1 10 ∅
    connections := StdMap.emplace 10 (P2PSignalConnection.new 1) ∅ }

def twoHellos : Bytes := p2pMessageFrame [7] ++ p2pMessageFrame [9]

theorem two_hellos_cut_twice :
    Matched (Alongside 10) Eq
        (receiveAll greetingAgain 1 [⟨twoHellos, fun _ => []⟩] oneOpened)
        (receiveAll greetingAgain 1 [⟨twoHellos.take 3, fun _ => [255]⟩,
          ⟨twoHellos.drop 3, fun _ => []⟩] oneOpened) := by
  have same : ([⟨twoHellos, fun _ => []⟩].map Chunk.bytes).flatten =
      ([⟨twoHellos.take 3, fun _ => [255]⟩, ⟨twoHellos.drop 3, fun _ => []⟩].map
        Chunk.bytes).flatten := by
    simp
  have live : oneOpened.connections.lookup 10 = some (P2PSignalConnection.new 1) := rfl
  have owned : oneOpened.signalConnections.lookup 1 = some 10 := rfl
  have sixtyFour : greetingAgain.sizeBits = 64 := rfl
  exact (arrivals_independent_of_cut sixtyFour owned live rfl _ _ same).1

end HumbleNet.PeerServer
