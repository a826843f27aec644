import HumbleNet.Client.Registries

/-! Sessions: what a call finds after the library has been shut down and initialised again. It
finds nothing of an earlier session, as long as nothing is left of one when another begins. -/
namespace HumbleNet.Client

open Guarded

structure Vacant (t : Tables) : Prop where
  myPeerId : t.myPeerId = 0
  heap : t.heap = ∅
  connections : t.connections = ∅
  pendingNew : t.pendingNewConnections = []
  pendingData : t.pendingDataConnections = []
  remoteClosed : t.remoteClosedConnections = []
  pendingOut : t.pendingPeerConnectionsOut = ∅
  pendingIn : t.pendingPeerConnectionsIn = ∅
  pendingAlias : t.pendingAliasConnectionsOut = ∅
  p2p : t.p2pconnections = ∅
  virtualA : t.virtualPeerConnections.listA = ∅
  virtualB : t.virtualPeerConnections.listB = ∅
  datagrams : t.datagrams = ∅

def Tables.cleared (t : Tables) : Bool :=
  t.heap.entries.isEmpty && t.connections.entries.isEmpty &&
    t.pendingPeerConnectionsOut.entries.isEmpty && t.pendingPeerConnectionsIn.entries.isEmpty &&
    t.pendingAliasConnectionsOut.entries.isEmpty && t.p2pconnections.entries.isEmpty &&
    t.virtualPeerConnections.listA.entries.isEmpty &&
    t.virtualPeerConnections.listB.entries.isEmpty && t.datagrams.entries.isEmpty

instance (t : Tables) : Decidable (Vacant t) :=
  decidable_of_iff (t.myPeerId = 0 ∧ t.pendingNewConnections = [] ∧
      t.pendingDataConnections = [] ∧ t.remoteClosedConnections = [] ∧ t.cleared = true) (by
    simp only [Tables.cleared, Bool.and_eq_true, ← StdMap.eq_empty_iff]
    constructor
    · rintro ⟨a, b, c, d, ⟨⟨⟨⟨⟨⟨⟨⟨e, f⟩, g⟩, h⟩, i⟩, j⟩, k⟩, l⟩, m⟩⟩
      exact ⟨a, e, f, b, c, d, g, h, i, j, k, l, m⟩
    · rintro ⟨a, e, f, b, c, d, g, h, i, j, k, l, m⟩
      exact ⟨a, b, c, d, ⟨⟨⟨⟨⟨⟨⟨⟨e, f⟩, g⟩, h⟩, i⟩, j⟩, k⟩, l⟩, m⟩⟩)

theorem Vacant.registries {t : Tables} (vacant : Vacant t) (live : ConnPtr → Prop) :
    Registries live t where
  connections socket conn h := by
    rw [vacant.connections] at h
    cases h
  pendingNew conn h := by
    rw [vacant.pendingNew] at h
    cases h
  pendingData conn h := by
    rw [vacant.pendingData] at h
    cases h
  remoteClosed conn h := by
    rw [vacant.remoteClosed] at h
    cases h
  pendingOut peer conn h := by
    rw [vacant.pendingOut] at h
    cases h
  pendingIn peer conn h := by
    rw [vacant.pendingIn] at h
    cases h
  pendingAlias name conn h := by
    rw [vacant.pendingAlias] at h
    cases h
  p2p peer conn h := by
    rw [vacant.p2p] at h
    cases h
  virtualA vpeer conn h := by
    rw [vacant.virtualA] at h
    cases h
  virtualB conn h := by
    rw [vacant.virtualB] at h
    exact absurd h (AList.notMem_empty conn)
  datagrams conn dg h := by
    rw [vacant.datagrams] at h
    cases h

/-- A session begins where nothing is left of the ones before, and the server names no peer 0. -/
def LeftVacant : Point → Tables → Prop
  | .beginSession, t => Vacant t
  | .greet peer, _ => peer ≠ 0
  | _, _ => True

instance (point : Point) (t : Tables) : Decidable (LeftVacant point t) := by
  unfold LeftVacant
  split <;> infer_instance

def OfSession (t : Tables) (conn : ConnPtr) : Prop :=
  ∃ peer, t.made.lookup conn = some ⟨t.session, peer⟩

/-- All there is belongs to the present session. -/
structure Fresh (t : Tables) : Prop where
  alive : ∀ conn ∈ t.heap, OfSession t conn
  stored : Registries (OfSession t) t
  identity : t.myPeerId = t.greeted.getD 0
  named : t.greeted ≠ some 0

theorem fresh_initial : Fresh .initial where
  alive conn h := absurd h (AList.notMem_empty conn)
  stored := by
    constructor <;> intros <;> rename_i h <;> cases h
  identity := rfl
  named h := by cases h

theorem ofSession_make (s : Tables) (conn : ConnPtr) (c : Connection) (peer : Option PeerId) :
    OfSession (s.make conn c peer) conn ∧
      ∀ k, OfSession s k → OfSession (s.make conn c peer) k := by
  refine ⟨⟨peer, AList.lookup_insert _⟩, fun k ⟨peer', before⟩ => ?_⟩
  by_cases eq : k = conn
  · rw [eq]
    exact ⟨peer, AList.lookup_insert _⟩
  · exact ⟨peer', (AList.lookup_insert_ne eq).trans before⟩

theorem Fresh.alive_after {scope : Scope} {s t : Tables} (fresh : Fresh s)
    (does : Does LeftVacant scope s t) (same : t.session = s.session) :
    (∀ conn, OfSession s conn → OfSession t conn) ∧ ∀ conn ∈ t.heap, OfSession t conn := by
  have made : ∀ (conn : ConnPtr) (c : Connection) (peer : Option PeerId),
      ∀ k ∈ (s.make conn c peer).heap, OfSession (s.make conn c peer) k := by
    intro conn c peer k live
    obtain ⟨new, old⟩ := ofSession_make s conn c peer
    rcases (AList.mem_insert _).mp live with rfl | before
    · exact new
    · exact old k (fresh.alive k before)
  cases does with
  | @dial conn c => exact ⟨(ofSession_make s conn c _).2, made conn c _⟩
  | @invite conn c => exact ⟨(ofSession_make s conn c _).2, made conn c _⟩
  | @createAlias conn =>
    exact ⟨(ofSession_make s conn (Connection.new .outgoing) _).2, made conn _ _⟩
  | resolve => exact ⟨fun _ => id, fun k h => fresh.alive k (StdMap.mem_modify.mp h)⟩
  | openSocket => exact ⟨fun _ => id, fun k h => fresh.alive k (StdMap.mem_modify.mp h)⟩
  | connected => exact ⟨fun _ => id, fun k h => fresh.alive k (StdMap.mem_modify.mp h)⟩
  | close => exact ⟨fun _ => id, fun k h => fresh.alive k (StdMap.mem_modify.mp h)⟩
  | delete =>
    refine ⟨fun _ => id, fun k h => ?_⟩
    exact fresh.alive k (StdMap.mem_modify.mp (AList.mem_erase.mp h).2)
  | receive => exact ⟨fun _ => id, fun k h => fresh.alive k (StdMap.mem_modify.mp h)⟩
  | relay => exact ⟨fun _ => id, fun k h => fresh.alive k (StdMap.mem_modify.mp h)⟩
  | read => exact ⟨fun _ => id, fun k h => fresh.alive k (StdMap.mem_modify.mp h)⟩
  | beginSession => exact absurd same (Nat.succ_ne_self _)
  | _ => exact ⟨fun _ => id, fresh.alive⟩

theorem Fresh.greet {s : Tables} (fresh : Fresh s) {peer : PeerId} (known : peer ≠ 0) :
    (if s.myPeerId ≠ 0 then s.myPeerId else peer) = (s.greeted <|> some peer).getD 0 ∧
      (s.greeted <|> some peer) ≠ some 0 := by
  have identity := fresh.identity
  cases greeted : s.greeted with
  | none =>
    rw [greeted] at identity
    rw [identity]
    exact ⟨rfl, fun zero => known (Option.some.inj zero)⟩
  | some first =>
    have nonzero : first ≠ 0 := by
      rintro rfl
      exact fresh.named greeted
    rw [greeted] at identity
    rw [identity]
    exact ⟨if_pos nonzero, fun zero => nonzero (Option.some.inj zero)⟩

theorem Fresh.keeps {scope : Scope} {s t : Tables} (fresh : Fresh s)
    (does : Does LeftVacant scope s t) : Fresh t := by
  have within : t.session = s.session → t.myPeerId = t.greeted.getD 0 → t.greeted ≠ some 0 →
      Fresh t := by
    intro same identity named
    obtain ⟨old, alive⟩ := fresh.alive_after does same
    refine ⟨alive, ?_, identity, named⟩
    exact (fresh.stored.mono old).keeps does (fun conn h => old conn (fresh.alive conn h)) alive
  cases does with
  | beginSession vacant id known =>
    have zero : id = 0 := known.elim (fun same => same.trans vacant.myPeerId) fun zero => zero
    refine ⟨fun conn live => ?_, ?_, zero, fun h => by cases h⟩
    · have here : conn ∈ s.heap := live
      rw [vacant.heap] at here
      exact absurd here (AList.notMem_empty conn)
    · exact { vacant.registries _ with }
  | greet peer known =>
    obtain ⟨identity, named⟩ := fresh.greet known
    exact within rfl identity named
  | _ => exact within rfl fresh.identity fresh.named

/-- What is expected of a configuration: `humblenet_p2p_get_my_peer_id` returns 0 before the
first hello of the session and what that hello said after it, and no container holds a
connection of an earlier session. -/
def SessionFresh : Config Caller State Fault Query Query.Answer Unit → Prop
  | .running pool =>
    (pool.state.initialized = true →
      humblenetP2PGetMyPeerId pool.state = .done (pool.state.greeted.getD 0) pool.state) ∧
      Registries (OfSession pool.state.toTables) pool.state.toTables
  | .crashed _ _ _ => True

theorem session_fresh (env : Externals)
    {c : Config Caller State Fault Query Query.Answer Unit} (run : Run env LeftVacant c) :
    SessionFresh c := by
  have kept : Kept LeftVacant Fresh c :=
    kept_of_run env fresh_initial (fun _ _ _ fresh => fresh.keeps) run
  cases c with
  | crashed tag e s => trivial
  | running pool =>
    have fresh : Fresh pool.state.toTables := kept
    refine ⟨fun initialized => ?_, fresh.stored⟩
    have guarded : humblenetP2PGetMyPeerId pool.state =
        .done pool.state.myPeerId pool.state := by
      change (if pool.state.initialized then (do pure (← get).myPeerId) else _ :
        ClientM PeerId) pool.state = _
      rw [if_pos initialized]
      rfl
    rw [guarded, fresh.identity]

def Event.begin : Event := .init (some []) (some []) (some []) none

/-- The first session ends before its hello, the second has one. -/
theorem session_fresh_again :
    ∃ pool, history welcome LeftVacant [.begin, .shutdown 1, .begin, .signal []] =
        some (.running pool) ∧ pool.state.session = 2 ∧ pool.state.greeted = some 5 ∧
      Run welcome LeftVacant (.running pool) ∧ SessionFresh (.running pool) := by
  have computed : (history welcome LeftVacant [.begin, .shutdown 1, .begin, .signal []]).map
      (fun c => c.now.map fun s => (s.session, s.greeted)) = some (some (2, some 5)) := by
    decide +kernel
  obtain ⟨c, h, now⟩ := Option.map_eq_some_iff.mp computed
  cases c with
  | crashed tag e s => cases now
  | running pool =>
    obtain ⟨session, greeted⟩ := Prod.mk.inj (Option.some.inj now)
    have run := run_history welcome h
    exact ⟨pool, h, session, greeted, run, session_fresh welcome run⟩

/-- What a session begins with: who the client is, and the connection it knows peer 9 by. -/
def beginsWith (c : Config Caller State Fault Query Query.Answer Unit) :
    Option ((Bool × Option PeerId × PeerId) × Option ConnPtr × Nat × Option Origin) :=
  c.now.map fun s => ((s.initialized, s.greeted, s.myPeerId), s.p2pconnections.lookup 9,
    s.session, s.made.lookup 1)

/-- Before any hello of the second session the client has the identity of the first, and
knows peer 9 by a connection of the first. -/
theorem session_stale :
    ∃ pool, history welcome (fun _ _ => True)
        (introduction ++ [.sendto [1] 9 1 0, .shutdown 1, .begin]) = some (.running pool) ∧
      Run welcome (fun _ _ => True) (.running pool) ∧ pool.state.greeted = none ∧
      humblenetP2PGetMyPeerId pool.state = .done 5 pool.state ∧
      pool.state.p2pconnections.lookup 9 = some 1 ∧ ¬ OfSession pool.state.toTables 1 ∧
      ¬ SessionFresh (.running pool) := by
  have computed : (history welcome (fun _ _ => True)
      (introduction ++ [.sendto [1] 9 1 0, .shutdown 1, .begin])).bind beginsWith =
      some ((true, none, 5), some 1, 2, some ⟨1, some 9⟩) := by
    decide +kernel
  obtain ⟨c, h, now⟩ := Option.bind_eq_some_iff.mp computed
  cases c with
  | crashed tag e s => cases now
  | running pool =>
    simp only [beginsWith, Config.now, Option.map_some, Option.some.injEq, Prod.mk.injEq] at now
    obtain ⟨⟨initialized, greeted, identity⟩, tracked, session, origin⟩ := now
    have asked : humblenetP2PGetMyPeerId pool.state = .done 5 pool.state := by
      change (if pool.state.initialized then (do pure (← get).myPeerId) else _ :
        ClientM PeerId) pool.state = _
      rw [if_pos initialized, ← identity]
      rfl
    have earlier : ¬ OfSession pool.state.toTables 1 := by
      rintro ⟨peer, made⟩
      rw [origin, session] at made
      cases made
    refine ⟨pool, h, run_history _ h, greeted, asked, tracked, earlier, fun fresh => ?_⟩
    exact earlier (fresh.2.p2p 9 1 tracked)

end HumbleNet.Client
