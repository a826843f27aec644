import HumbleNet.Client.Run

/-! `pendingDataConnections` and the receive buffers. The set is right as long as no
connection is closed over unread data and no empty data arrives at an empty buffer. -/
namespace HumbleNet.Client

open Guarded

/-- The connections with unread data are the ones that are listed. -/
structure DataListed (t : Tables) : Prop where
  exact : ∀ conn c, t.heap.lookup conn = some c →
    (conn ∈ t.pendingDataConnections ↔ c.recvBuffer ≠ [])
  live : ∀ conn, conn ∈ t.pendingDataConnections → ∃ c, t.heap.lookup conn = some c

/-- A connection is closed when its data has been read, or on its way to be deleted; what
arrives is not empty, unless there is unread data already. -/
def NothingUnread : Point → Tables → Prop
  | .setClosed _ recvBuffer deleted, _ => recvBuffer = [] ∨ deleted = true
  | .arrive conn data, t => data ≠ [] ∨ ∃ c ∈ t.heap.lookup conn, c.recvBuffer ≠ []
  | _, _ => True

instance (point : Point) (t : Tables) : Decidable (NothingUnread point t) := by
  unfold NothingUnread
  split <;> infer_instance

theorem dataListed_initial : DataListed .initial where
  exact conn c here := by cases here
  live conn listed := by cases listed

theorem DataListed.updateConnection {t : Tables} (listed : DataListed t) {conn : ConnPtr}
    {f : Connection → Connection} (same : ∀ c, (f c).recvBuffer = c.recvBuffer) :
    DataListed (t.updateConnection conn f) := by
  have buffer : ∀ k c, (t.updateConnection conn f).heap.lookup k = some c →
      ∃ d, t.heap.lookup k = some d ∧ c.recvBuffer = d.recvBuffer := by
    intro k c here
    obtain ⟨d, hd, rfl⟩ := StdMap.lookup_modify_some.mp here
    refine ⟨d, hd, ?_⟩
    split
    · exact same d
    · rfl
  constructor
  · intro k c here
    obtain ⟨d, hd, eq⟩ := buffer k c here
    rw [eq]
    exact listed.exact k d hd
  · intro k pending
    obtain ⟨d, hd⟩ := listed.live k pending
    exact ⟨_, StdMap.lookup_modify_some.mpr ⟨d, hd, rfl⟩⟩

theorem DataListed.new {t : Tables} (listed : DataListed t) {conn : ConnPtr} {c : Connection}
    (fresh : conn ∉ t.heap) (empty : c.recvBuffer = []) :
    DataListed { t with heap := t.heap.insert conn c } := by
  obtain ⟨exact, live⟩ := listed
  rw [← AList.lookup_eq_none] at fresh
  constructor <;> simp only [StdMap.lookup_insert_if]
  · grind
  · grind

theorem DataListed.close {t : Tables} (listed : DataListed t) {conn : ConnPtr} {c : Connection}
    (here : t.heap.lookup conn = some c) (empty : c.recvBuffer = []) :
    DataListed (t.close conn) := by
  obtain ⟨exact, live⟩ := listed
  constructor <;> simp only [Tables.close, Tables.unlist, Tables.updateConnection,
    StdMap.lookup_modify, StdSet.mem_erase]
  · grind
  · grind

theorem DataListed.delete {t : Tables} (listed : DataListed t) (conn : ConnPtr) :
    DataListed (t.delete conn) := by
  obtain ⟨exact, live⟩ := listed
  constructor <;> simp only [Tables.delete, Tables.release, Tables.close, Tables.unlist,
    Tables.updateConnection, StdMap.lookup_erase_if, StdMap.lookup_modify, StdSet.mem_erase]
  · grind
  · grind

theorem DataListed.arrive {t : Tables} (listed : DataListed t) {conn : ConnPtr}
    {c : Connection} {data : Bytes} (here : t.heap.lookup conn = some c)
    (some_data : data ≠ [] ∨ c.recvBuffer ≠ []) {pending : StdSet ConnPtr}
    (added : ∀ k, k ∈ pending ↔ k = conn ∨ k ∈ t.pendingDataConnections) :
    DataListed { t.arrive conn data with pendingDataConnections := pending } := by
  have filled : c.recvBuffer ++ data ≠ [] := by
    intro empty
    obtain ⟨unread, no_data⟩ := List.append_eq_nil_iff.mp empty
    exact some_data.elim (fun h => h no_data) (fun h => h unread)
  constructor
  · intro k d hd
    obtain ⟨w, hw, rfl⟩ := StdMap.lookup_modify_some.mp hd
    by_cases eq : k = conn
    · subst eq
      cases here.symm.trans hw
      simpa only [added, true_or, true_iff, if_true] using filled
    · simpa only [added, eq, false_or, if_false] using listed.exact k w hw
  · intro k pending
    rcases (added k).mp pending with rfl | old
    · exact ⟨_, StdMap.lookup_modify_some.mpr ⟨c, here, rfl⟩⟩
    · obtain ⟨d, hd⟩ := listed.live k old
      exact ⟨_, StdMap.lookup_modify_some.mpr ⟨d, hd, rfl⟩⟩

theorem DataListed.read {t : Tables} (listed : DataListed t) {conn : ConnPtr} {c : Connection}
    (here : t.heap.lookup conn = some c) (left : Bytes) :
    DataListed { t.updateConnection conn fun c => { c with recvBuffer := left } with
      pendingDataConnections :=
        if left.isEmpty then StdSet.erase conn t.pendingDataConnections
        else StdSet.insert conn t.pendingDataConnections } := by
  obtain ⟨exact, live⟩ := listed
  cases left with
  | nil =>
    constructor <;> simp only [Tables.updateConnection, StdMap.lookup_modify_some,
      List.isEmpty_nil, if_true, StdSet.mem_erase]
    · grind
    · grind
  | cons byte rest =>
    constructor <;> simp only [Tables.updateConnection, StdMap.lookup_modify_some,
      List.isEmpty_cons, Bool.false_eq_true, if_false, StdSet.mem_insert]
    · grind
    · grind

theorem DataListed.keeps {scope : Scope} {s t : Tables} (listed : DataListed s)
    (does : Does NothingUnread scope s t) : DataListed t := by
  have arrives : ∀ {conn : ConnPtr} {c : Connection} {data : Bytes},
      s.heap.lookup conn = some c → NothingUnread (.arrive conn data) s →
      data ≠ [] ∨ c.recvBuffer ≠ [] := by
    rintro conn c data here (some_data | ⟨c', here', unread⟩)
    · exact Or.inl some_data
    · cases here.symm.trans here'
      exact Or.inr unread
  cases does with
  | dial fresh empty => exact ⟨(listed.new fresh empty).exact, (listed.new fresh empty).live⟩
  | invite fresh empty => exact ⟨(listed.new fresh empty).exact, (listed.new fresh empty).live⟩
  | createAlias fresh => exact ⟨(listed.new fresh rfl).exact, (listed.new fresh rfl).live⟩
  | @resolve conn c name pending here peer =>
    have kept : DataListed (s.updateConnection conn fun c => { c with otherPeer := peer }) :=
      listed.updateConnection fun c => rfl
    exact ⟨kept.exact, kept.live⟩
  | openSocket => exact listed.updateConnection fun c => rfl
  | @connected conn c socket =>
    have reported : DataListed (s.updateSocket socket fun it => { it with stage := .opened }) :=
      ⟨listed.exact, listed.live⟩
    exact reported.updateConnection fun c => rfl
  | close here passed => exact listed.close here (passed.resolve_right Bool.false_ne_true)
  | delete => exact listed.delete _
  | @receive conn c data here passed =>
    refine listed.arrive here (arrives here passed) fun k => ?_
    split
    · exact StdSet.mem_insert
    · have pending := (listed.exact conn c here).mpr ‹_›
      grind
  | @relay conn c data here passed =>
    exact listed.arrive here (arrives here passed) fun k => StdSet.mem_insert
  | read here left => exact listed.read here left
  | _ => exact ⟨listed.exact, listed.live⟩

/-- The condition leaves out only steps after which the set is wrong. -/
theorem not_dataListed_close {t : Tables} {conn : ConnPtr} {c : Connection}
    (here : t.heap.lookup conn = some c) (unread : c.recvBuffer ≠ []) :
    ¬ DataListed (t.close conn) := by
  intro listed
  have closed : (t.close conn).heap.lookup conn =
      some { c with socket := none, status := .closed } :=
    StdMap.lookup_modify_some.mpr ⟨c, here, if_pos rfl⟩
  exact (StdSet.mem_erase.mp ((listed.exact conn _ closed).mpr unread)).2 rfl

theorem not_dataListed_arrive {t : Tables} {conn : ConnPtr} {c : Connection}
    (here : t.heap.lookup conn = some c) (empty : c.recvBuffer = []) {pending : StdSet ConnPtr}
    (added : conn ∈ pending) :
    ¬ DataListed { t.arrive conn [] with pendingDataConnections := pending } := by
  intro listed
  have arrived : (t.arrive conn []).heap.lookup conn =
      some { c with recvBuffer := c.recvBuffer ++ [] } :=
    StdMap.lookup_modify_some.mpr ⟨c, here, if_pos rfl⟩
  refine (listed.exact conn _ arrived).mp added ?_
  rw [List.append_nil]
  exact empty

/-- What is expected of a configuration: the set is exact whenever the lock is free, and
no assertion about it fails. -/
def PendingDataExact : Config Caller State Fault Query Query.Answer Unit → Prop
  | .running pool => ∀ conn c, pool.state.heap.lookup conn = some c →
      (conn ∈ pool.state.pendingDataConnections ↔ c.recvBuffer ≠ [])
  | .crashed _ e _ => e ∉ [.assertion .onDataPending, .assertion .pollAll,
      .assertion .readAllEmpty, .assertion .readAllPending]

theorem pendingData_exact (env : Externals)
    {c : Config Caller State Fault Query Query.Answer Unit} (run : Run env NothingUnread c) :
    PendingDataExact c := by
  have kept : Kept NothingUnread DataListed c :=
    kept_of_run env dataListed_initial (fun _ _ _ listed => listed.keeps) run
  cases c with
  | running pool => exact kept.exact
  | crashed tag e s =>
    obtain ⟨t, listed, blame⟩ := kept
    have unread : ¬ ∃ conn c, t.heap.lookup conn = some c ∧
        conn ∈ t.pendingDataConnections ∧ c.recvBuffer = [] := by
      rintro ⟨conn, c, here, pending, empty⟩
      exact (listed.exact conn c here).mp pending empty
    have pending : ¬ ∃ conn c, t.heap.lookup conn = some c ∧
        conn ∉ t.pendingDataConnections ∧ c.recvBuffer ≠ [] := by
      rintro ⟨conn, c, here, unlisted, full⟩
      exact unlisted ((listed.exact conn c here).mpr full)
    intro mem
    simp only [List.mem_cons, List.not_mem_nil, or_false] at mem
    rcases mem with rfl | rfl | rfl | rfl
    · exact unread blame
    · exact unread blame
    · exact unread blame
    · exact pending blame

def offerThenEmptyRelay : Externals :=
  reading fun buff =>
    if buff = [] then .p2pOffer (some ⟨9, 0, some []⟩) else .p2pRelayData (some ⟨9, some []⟩)

def unreadAtClose : List Event :=
  introduction ++
    [.webrtc 1 .channelAccepted, .webrtc 1 (.channelReceive [7]), .webrtc 1 .disconnected,
      .recvfrom 4 100 0]

def emptyRelay : List Event :=
  introduction ++ [.webrtc 1 .established, .signal [1]]

/-- The remote end closes over data that is not read yet, or relays nothing: the set is
wrong, and the next receive stops the process. -/
theorem pendingData_wrong :
    (∃ c, Run offerThenEmptyRelay (fun _ _ => True) c ∧
      history offerThenEmptyRelay (fun _ _ => True) unreadAtClose = some c ∧
      ¬ PendingDataExact c) ∧
    ∃ c, Run offerThenEmptyRelay (fun _ _ => True) c ∧
      history offerThenEmptyRelay (fun _ _ => True) emptyRelay = some c ∧
      ¬ PendingDataExact c := by
  constructor
  · have crash : (history offerThenEmptyRelay (fun _ _ => True) unreadAtClose).bind
        Config.stopped = some (.assertion .readAllPending) := by decide +kernel
    obtain ⟨c, h, stopped⟩ := Option.bind_eq_some_iff.mp crash
    refine ⟨c, run_history _ h, h, fun right => ?_⟩
    cases c with
    | running pool => cases stopped
    | crashed tag e s =>
      cases stopped
      exact right (by decide)
  · have wrong : ((history offerThenEmptyRelay (fun _ _ => True) emptyRelay).bind
        Config.now).map (fun s => (s.pendingDataConnections, s.heap.lookup 1)) =
          some ([1], some ⟨.incoming, .connecting, 9, [], true, some 1⟩) := by decide +kernel
    obtain ⟨s, now, eq⟩ := Option.map_eq_some_iff.mp wrong
    obtain ⟨c, h, running⟩ := Option.bind_eq_some_iff.mp now
    refine ⟨c, run_history _ h, h, fun right => ?_⟩
    cases c with
    | crashed tag e s => cases running
    | running pool =>
      cases running
      obtain ⟨pending, here⟩ := Prod.mk.inj eq
      exact (right 1 _ here).mp (pending ▸ List.mem_cons_self) rfl

/-- A byte that arrives keeps the set exact, and so does the close after it has been read. -/
theorem pendingData_exact_after_read :
    ∃ c, Run offerThenEmptyRelay NothingUnread c ∧
      history offerThenEmptyRelay NothingUnread (introduction ++
        [.webrtc 1 .channelAccepted, .webrtc 1 (.channelReceive [7]), .recvfrom 4 100 0,
          .webrtc 1 .disconnected]) = some c ∧
      PendingDataExact c := by
  have running : ((history offerThenEmptyRelay NothingUnread (introduction ++
      [.webrtc 1 .channelAccepted, .webrtc 1 (.channelReceive [7]), .recvfrom 4 100 0,
        .webrtc 1 .disconnected])).bind Config.now).isSome = true := by decide +kernel
  obtain ⟨s, now⟩ := Option.isSome_iff_exists.mp running
  obtain ⟨c, h, _⟩ := Option.bind_eq_some_iff.mp now
  exact ⟨c, run_history _ h, h, pendingData_exact _ (run_history _ h)⟩

end HumbleNet.Client
