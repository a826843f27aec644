import HumbleNet.Client.Identity
import HumbleNet.Client.Registries
import HumbleNet.Client.Release

/-! A message for which there is no connection to be had, and what the attempt leaves behind. -/
namespace HumbleNet.Client

open Guarded

/-! ### The containers that are cleaned by value -/

/-- The containers that `humblenet_connection_close` takes a connection out of. -/
def Tables.lists (t : Tables) : Tables := { t with p2pconnections := ∅, datagrams := ∅ }

theorem Does.lists {ok : Point → Tables → Prop} {scope : Scope} {s t : Tables}
    (does : Does ok scope s t) : t.lists = s.lists ∨ Does Forgotten scope s.lists t.lists := by
  cases does with
  | dial fresh empty status socket writable passed outgoing pends =>
    exact Or.inr (.dial (s := s.lists) fresh empty status socket writable trivial outgoing trivial)
  | invite fresh empty writable passed status incoming pends own =>
    exact Or.inr (.invite (s := s.lists) fresh empty writable trivial status incoming trivial own)
  | createAlias fresh name vpeer passed own =>
    exact Or.inr (.createAlias (s := s.lists) fresh name vpeer trivial own)
  | unpend name own => exact Or.inr (.unpend (s := s.lists) name own)
  | resolve pending here peer pends own =>
    exact Or.inr (.resolve (s := s.lists) pending here peer trivial own)
  | openSocket conn socket passed own =>
    exact Or.inr (.openSocket (s := s.lists) conn socket trivial own)
  | adopt here its passed own => exact Or.inr (.adopt (s := s.lists) here its trivial own)
  | greet peer passed own => exact Or.inr (.greet (s := s.lists) peer trivial own)
  | detach socket => exact Or.inr (.detach (s := s.lists) socket)
  | attach here status socket there =>
    exact Or.inr (.attach (s := s.lists) here status socket there)
  | connected here status there its passed =>
    exact Or.inr (.connected (s := s.lists) here status there its trivial)
  | close here passed => exact Or.inr (.close (s := s.lists) here trivial)
  | delete here closes passed =>
    exact Or.inr (.delete (s := s.lists) here trivial ⟨List.not_mem_nil, AList.notMem_empty _⟩)
  | createSocket fresh => exact Or.inr (.createSocket (s := s.lists) fresh)
  | setData here its status new => exact Or.inr (.setData (s := s.lists) here its status new)
  | clearData socket => exact Or.inr (.clearData (s := s.lists) socket)
  | updateSocket socket f data stage =>
    exact Or.inr (.updateSocket (s := s.lists) socket f data stage)
  | established socket passed => exact Or.inr (.established (s := s.lists) socket trivial)
  | destroy socket passed => exact Or.inr (.destroy (s := s.lists) socket trivial)
  | receive here passed => exact Or.inr (.receive (s := s.lists) here trivial)
  | relay here passed => exact Or.inr (.relay (s := s.lists) here trivial)
  | read here left => exact Or.inr (.read (s := s.lists) here left)
  | pollClosed conn => exact Or.inr (.pollClosed (s := s.lists) conn)
  | accept conn => exact Or.inr (.accept (s := s.lists) conn)
  | track here peer own => exact Or.inl rfl
  | untrack peer own => exact Or.inl rfl
  | unalias peer own => exact Or.inr (.unalias (s := s.lists) peer own)
  | report source told own => exact Or.inr (.report (s := s.lists) source told own)
  | beginSession passed id known => exact Or.inr (.beginSession (s := s.lists) trivial id known)
  | insertDatagram here own => exact Or.inl rfl
  | updateDatagram conn f same own => exact Or.inl rfl
  | eraseDatagram conn own => exact Or.inl rfl
  | queue queued own => exact Or.inr (.queue (s := s.lists) queued own)

theorem lists_clean (env : Externals) {ok : Point → Tables → Prop}
    {pool : Pool Caller State Fault Query Query.Answer Unit} (run : Run env ok (.running pool)) :
    Clean pool.state.toTables.lists := by
  have kept : Kept ok (fun t => Clean t.lists) (.running pool) := by
    refine kept_of_run (I := fun t => Clean t.lists) env clean_initial ?_ run
    intro scope s t clean does
    rcases does.lists with same | does
    · exact same ▸ clean
    · exact clean.keeps does
  exact kept

/-! ### The open sockets -/

/-- The transport destroys a socket when it is no longer listed among the open ones. -/
def Unlisted : Point → Tables → Prop
  | .callback socket .destroy, t => socket ∉ t.connections
  | _, _ => True

instance (point : Point) (t : Tables) : Decidable (Unlisted point t) := by
  unfold Unlisted
  split <;> infer_instance

def Hooked (t : Tables) : Prop := ∀ socket ∈ t.connections, socket ∈ t.sockets

theorem Hooked.carry {s t : Tables} (hooked : Hooked s)
    (fewer : ∀ socket ∈ t.connections, socket ∈ s.connections)
    (kept : ∀ socket ∈ s.sockets, socket ∈ t.sockets) : Hooked t :=
  fun socket there => kept socket (hooked socket (fewer socket there))

theorem mem_eraseValue {m : StdMap SocketPtr ConnPtr} {conn : ConnPtr} {socket : SocketPtr}
    (there : socket ∈ StdMap.eraseValue conn m) : socket ∈ m := by
  obtain ⟨k, found⟩ := StdMap.mem_iff_lookup.mp there
  exact StdMap.mem_iff_lookup.mpr ⟨k, (StdMap.lookup_eraseValue_some.mp found).1⟩

theorem Hooked.keeps {ok : Point → Tables → Prop} {scope : Scope} {s t : Tables}
    (unlisted : ∀ point t, ok point t → Unlisted point t) (hooked : Hooked s)
    (does : Does ok scope s t) : Hooked t := by
  have same : ∀ {f : InternalSocket → InternalSocket} {socket : SocketPtr}, ∀ k ∈ s.sockets,
      k ∈ (s.updateSocket socket f).sockets := fun k there => StdMap.mem_modify.mpr there
  cases does with
  | detach socket => exact hooked.carry (fun k there => (AList.mem_erase.mp there).2) fun _ h => h
  | attach here status socket there =>
    intro k mem
    obtain ⟨conn, found⟩ := StdMap.mem_iff_lookup.mp mem
    rw [StdMap.lookup_emplace] at found
    split at found
    · rename_i own
      exact own ▸ there
    · exact hooked k (StdMap.mem_iff_lookup.mpr ⟨conn, found⟩)
  | connected => exact hooked.carry (fun _ h => h) same
  | adopt => exact hooked.carry (fun _ h => h) same
  | setData => exact hooked.carry (fun _ h => h) same
  | clearData => exact hooked.carry (fun _ h => h) same
  | updateSocket => exact hooked.carry (fun _ h => h) same
  | established => exact hooked.carry (fun _ h => h) same
  | close => exact hooked.carry (fun _ h => mem_eraseValue h) fun _ h => h
  | delete => exact hooked.carry (fun _ h => mem_eraseValue h) fun _ h => h
  | createSocket fresh =>
    exact hooked.carry (fun _ h => h) fun k there => (AList.mem_insert _).mpr (Or.inr there)
  | destroy socket passed =>
    have gone : socket ∉ s.connections := unlisted _ s passed
    intro k mem
    refine AList.mem_erase.mpr ⟨?_, hooked k mem⟩
    rintro rfl
    exact gone mem
  | _ => exact hooked

theorem hooked_of_run (env : Externals) {ok : Point → Tables → Prop}
    (unlisted : ∀ point t, ok point t → Unlisted point t)
    {pool : Pool Caller State Fault Query Query.Answer Unit} (run : Run env ok (.running pool)) :
    Hooked pool.state.toTables := by
  have kept : Kept ok Hooked (.running pool) := by
    refine kept_of_run env (fun _ there => absurd there (AList.notMem_empty _)) ?_ run
    exact fun scope s t hooked => hooked.keeps unlisted
  exact kept

/-! ### What is as it was -/

/-- The peer is on the blacklist as before, or has been let off, as its time was over. -/
def LetOff (shows : UInt64 → Prop) (peer : PeerId) (before after : StdMap PeerId UInt64) : Prop :=
  after = before ∨ ∃ till now, before.lookup peer = some till ∧ shows now ∧ till ≤ now ∧
    after = before.erase peer

theorem LetOff.trans {shows : UInt64 → Prop} {peer : PeerId}
    {before between after : StdMap PeerId UInt64} (first : LetOff shows peer before between)
    (rest : LetOff shows peer between after) : LetOff shows peer before after := by
  rcases rest with rfl | ⟨till, now, found, shown, late, rfl⟩
  · exact first
  · rcases first with rfl | ⟨_, _, _, _, _, rfl⟩
    · exact Or.inr ⟨till, now, found, shown, late, rfl⟩
    · cases (AList.lookup_erase peer before).symm.trans found

structure SameTables (s t : State) : Prop where
  peers : t.p2pconnections = s.p2pconnections
  connections : t.connections = s.connections
  pendingNew : t.pendingNewConnections = s.pendingNewConnections
  pendingData : t.pendingDataConnections = s.pendingDataConnections
  remoteClosed : t.remoteClosedConnections = s.remoteClosedConnections
  out : t.pendingPeerConnectionsOut = s.pendingPeerConnectionsOut
  incoming : t.pendingPeerConnectionsIn = s.pendingPeerConnectionsIn
  named : t.pendingAliasConnectionsOut = s.pendingAliasConnectionsOut
  names : t.virtualPeerNames = s.virtualPeerNames
  virtual : t.virtualPeerConnections = s.virtualPeerConnections
  datagrams : t.datagrams = s.datagrams
  queued : t.queuedPackets = s.queuedPackets
  heap : ∀ k, t.heap.lookup k = s.heap.lookup k

/-- Nothing has changed, except that the peer may have been let off the blacklist. -/
structure Unchanged (shows : UInt64 → Prop) (peer : PeerId) (s t : State) : Prop
    extends SameTables s t where
  blacklist : LetOff shows peer s.peerBlacklist t.peerBlacklist

section

variable {env : Externals} {shows : UInt64 → Prop} {s t u : State} {conn : ConnPtr}
  {socket : SocketPtr} {topeer : PeerId}

theorem SameTables.refl (s : State) : SameTables s s := by
  constructor <;> first | exact fun _ => rfl | rfl

theorem SameTables.trans (first : SameTables s u) (rest : SameTables u t) : SameTables s t where
  peers := rest.peers.trans first.peers
  connections := rest.connections.trans first.connections
  pendingNew := rest.pendingNew.trans first.pendingNew
  pendingData := rest.pendingData.trans first.pendingData
  remoteClosed := rest.remoteClosed.trans first.remoteClosed
  out := rest.out.trans first.out
  incoming := rest.incoming.trans first.incoming
  named := rest.named.trans first.named
  names := rest.names.trans first.names
  virtual := rest.virtual.trans first.virtual
  datagrams := rest.datagrams.trans first.datagrams
  queued := rest.queued.trans first.queued
  heap k := (rest.heap k).trans (first.heap k)

theorem Unchanged.refl (shows : UInt64 → Prop) (peer : PeerId) (s : State) :
    Unchanged shows peer s s :=
  ⟨.refl s, Or.inl rfl⟩

theorem Unchanged.trans (first : Unchanged shows topeer s u) (rest : Unchanged shows topeer u t) :
    Unchanged shows topeer s t :=
  ⟨first.toSameTables.trans rest.toSameTables, first.blacklist.trans rest.blacklist⟩

theorem Unchanged.overlooks (shows : UInt64 → Prop) (peer : PeerId) :
    Overlooks (Unchanged shows peer) where
  refl := .refl shows peer
  trans _ _ _ := .trans
  error s _ := ⟨{ SameTables.refl s with }, Or.inl rfl⟩
  sockets s _ := ⟨{ SameTables.refl s with }, Or.inl rfl⟩

/-! ### The attempt -/

def Timed (env : Externals) (shows : UInt64 → Prop) :
    (q : Query) → State → q.Answer → State → Prop
  | .sysMilliseconds, s, now, t => shows now ∧ Alone env .sysMilliseconds s now t
  | q, s, a, t => Alone env q s a t

theorem alone_of_timed (q : Query) (s : State) (a : q.Answer) (t : State)
    (answer : Timed env shows q s a t) : Alone env q s a t := by
  cases q with
  | sysMilliseconds => exact answer.2
  | _ => exact answer

theorem amid_alone {α : Type} {x : ClientM α} {a : α} (ends : Amid (Timed env shows) x s a t) :
    Amid (Alone env) x s a t := Course.Amid.mono alone_of_timed ends

structure Asked (shows : UInt64 → Prop) (peer : PeerId) (s t : State) : Prop
    extends Unchanged shows peer s t where
  sockets : t.sockets = s.sockets

theorem Asked.muted (shows : UInt64 → Prop) (peer : PeerId) : Muted (Asked shows peer) where
  refl s := ⟨.refl shows peer s, rfl⟩
  trans _ _ _ h h' := ⟨h.toUnchanged.trans h'.toUnchanged, h'.sockets.trans h.sockets⟩
  error s _ := ⟨(Unchanged.overlooks shows peer).error s _, rfl⟩

theorem asked_blacklist (peer : PeerId) :
    Follows (Timed env shows) (Asked shows peer) (isPeerBlacklisted peer) := by
  intro s answer t ends
  replace ends := amid_get_bind.mp ends
  split at ends
  · obtain ⟨-, rfl⟩ := amid_pure.mp ends
    exact (Asked.muted shows peer).refl t
  · rename_i till found
    obtain ⟨now, u, asks, rest⟩ := amid_bind.mp ends
    obtain ⟨⟨shown, -, -⟩, rfl⟩ := amid_ask.mp asks
    obtain ⟨_, v, lets, last⟩ := amid_bind.mp rest
    obtain ⟨-, rfl⟩ := amid_pure.mp last
    rcases amid_doWhen.mp lets with ⟨late, erases⟩ | ⟨-, rfl⟩
    · rw [amid_modify.mp erases]
      exact ⟨⟨{ SameTables.refl u with }, Or.inr ⟨till, now, found, shown, late, rfl⟩⟩, rfl⟩
    · exact (Asked.muted shows peer).refl _

theorem createWebrtc_alone (ends : Amid (Alone env) internalCreateWebrtc s (some socket) t) :
    socket ∉ s.sockets ∧ t = { s with sockets := s.sockets.insert socket .new } := by
  replace ends := amid_get_bind.mp ends
  split at ends
  · exact absurd ends amid_fault
  · split at ends
    · obtain ⟨_, u, creates, rest⟩ := amid_bind.mp ends
      obtain ⟨-, rfl⟩ := amid_unguarded.mp creates
      obtain ⟨k, v, asks, last⟩ := amid_bind.mp rest
      obtain ⟨⟨fresh, -⟩, rfl⟩ := amid_ask.mp asks
      replace last := amid_modify_bind.mp last
      obtain ⟨eq, rfl⟩ := amid_pure.mp last
      cases eq
      exact ⟨fresh, rfl⟩
    · obtain ⟨_, u, pauses, last⟩ := amid_bind.mp ends
      obtain ⟨eq, -⟩ := amid_pure.mp last
      cases eq

theorem close_blacklist {c : Connection} (here : s.heap.lookup conn = some c)
    (outgoing : c.inOrOut = .outgoing)
    (ends : Amid (Alone env) (humblenetConnectionClose conn) s () t) :
    t.peerBlacklist = s.peerBlacklist := by
  obtain ⟨_, u, closes, ends⟩ := amid_bind.mp ends
  replace ends := amid_modify_bind.mp ends
  replace ends := amid_modify_bind.mp ends
  replace ends := amid_mark_bind.mp ends
  rw [amid_modify.mp ends]
  obtain ⟨v, plug, d, here', w, notes, rfl⟩ := amid_setClosed.mp closes
  have unplugged : v.peerBlacklist = s.peerBlacklist ∧ d.inOrOut = c.inOrOut := by
    cases its : c.socket with
    | none =>
      cases (amid_closeSocket_none here its).mp plug
      cases here.symm.trans here'
      exact ⟨rfl, rfl⟩
    | some socket =>
      obtain ⟨-, m, rfl, -⟩ := closeSocket_alone here its plug
      obtain ⟨c', here'', rfl⟩ := StdMap.lookup_modify_some.mp here'
      cases here.symm.trans here''
      rw [if_pos rfl]
      exact ⟨rfl, rfl⟩
  rw [unplugged.2, outgoing] at notes
  rcases amid_doWhen.mp notes with ⟨incoming, -⟩ | ⟨-, rfl⟩
  · cases incoming
  · exact unplugged.1

structure Added (s : State) (conn : ConnPtr) (t : State) : Prop where
  peers : t.p2pconnections = s.p2pconnections
  connections : t.connections = s.connections
  pendingNew : t.pendingNewConnections = s.pendingNewConnections
  pendingData : t.pendingDataConnections = s.pendingDataConnections
  remoteClosed : t.remoteClosedConnections = s.remoteClosedConnections
  out : StdMap.eraseValue conn t.pendingPeerConnectionsOut = s.pendingPeerConnectionsOut
  incoming : StdMap.eraseValue conn t.pendingPeerConnectionsIn = s.pendingPeerConnectionsIn
  named : t.pendingAliasConnectionsOut = s.pendingAliasConnectionsOut
  names : t.virtualPeerNames = s.virtualPeerNames
  virtual : t.virtualPeerConnections = s.virtualPeerConnections
  datagrams : t.datagrams = s.datagrams
  queued : t.queuedPackets = s.queuedPackets
  heap : ∀ k, k ≠ conn → t.heap.lookup k = s.heap.lookup k

theorem Added.trans (added : Added s conn u) (same : SameTables u t) : Added s conn t where
  peers := same.peers.trans added.peers
  connections := same.connections.trans added.connections
  pendingNew := same.pendingNew.trans added.pendingNew
  pendingData := same.pendingData.trans added.pendingData
  remoteClosed := same.remoteClosed.trans added.remoteClosed
  out := (congrArg (StdMap.eraseValue conn) same.out).trans added.out
  incoming := (congrArg (StdMap.eraseValue conn) same.incoming).trans added.incoming
  named := same.named.trans added.named
  names := same.names.trans added.names
  virtual := same.virtual.trans added.virtual
  datagrams := same.datagrams.trans added.datagrams
  queued := same.queued.trans added.queued
  heap k other := (same.heap k).trans (added.heap k other)

theorem added_make (clean : Clean s.toTables.lists) (fresh : conn ∉ s.heap) (c : Connection)
    (peer : Option PeerId) : Added s conn { s with toTables := s.make conn c peer } :=
  { SameTables.refl s with
    out := StdMap.eraseValue_of_absent fun k there => fresh (clean.live.pendingOut k conn there)
    incoming := StdMap.eraseValue_of_absent fun k there => fresh (clean.live.pendingIn k conn there)
    heap := fun k other => (StdMap.lookup_insert_if conn k c s.heap).trans (if_neg other) }

theorem Added.pend_out (added : Added s conn t) (peer : PeerId) :
    Added s conn { t with
      pendingPeerConnectionsOut := StdMap.emplace peer conn t.pendingPeerConnectionsOut } :=
  { added with out := (StdMap.eraseValue_emplace conn peer _).trans added.out }

theorem Added.pend_in (added : Added s conn t) (peer : PeerId) :
    Added s conn { t with
      pendingPeerConnectionsIn := StdMap.emplace peer conn t.pendingPeerConnectionsIn } :=
  { added with incoming := (StdMap.eraseValue_emplace conn peer _).trans added.incoming }

theorem Added.undone (added : Added s conn t) {m : StdMap SocketPtr InternalSocket}
    (clean : Clean s.toTables.lists) (fresh : conn ∉ s.heap) (free : socket ∉ s.connections) :
    SameTables s { t with
      toTables := Tables.delete conn { t with
        sockets := m, connections := unhook (some socket) t.connections } } where
  peers := added.peers
  connections := by
    change StdMap.eraseValue conn (t.connections.erase socket) = _
    rw [added.connections, StdMap.erase_of_absent free]
    exact StdMap.eraseValue_of_absent fun k there => fresh (clean.live.connections k conn there)
  pendingNew := by
    change StdSet.erase conn t.pendingNewConnections = _
    rw [added.pendingNew]
    exact StdSet.erase_of_absent fun there => fresh (clean.live.pendingNew conn there)
  pendingData := by
    change StdSet.erase conn t.pendingDataConnections = _
    rw [added.pendingData]
    exact StdSet.erase_of_absent fun there => fresh (clean.live.pendingData conn there)
  remoteClosed := by
    change StdSet.erase conn (StdSet.insert conn t.remoteClosedConnections) = _
    rw [added.remoteClosed]
    exact StdSet.erase_insert fun there => fresh (clean.live.remoteClosed conn there)
  out := added.out
  incoming := added.incoming
  named := by
    change StdMap.eraseValue conn t.pendingAliasConnectionsOut = _
    rw [added.named]
    exact StdMap.eraseValue_of_absent fun k there => fresh (clean.live.pendingAlias k conn there)
  names := added.names
  virtual := by
    change t.virtualPeerConnections.eraseB conn = _
    rw [added.virtual]
    exact BidirectionalMap.eraseB_of_absent fun there => fresh (clean.live.virtualB conn there)
  datagrams := added.datagrams
  queued := added.queued
  heap k := by
    change ((StdMap.modify conn _ t.heap).erase conn).lookup k = _
    rw [StdMap.lookup_erase_if]
    split
    · rename_i same
      rw [same, AList.lookup_eq_none.mpr fresh]
    · rename_i other
      rw [StdMap.lookup_modify, if_neg other]
      exact added.heap k other

theorem SameTables.clean (unchanged : SameTables s t) (clean : Clean s.toTables.lists) :
    Clean t.toTables.lists := by
  have live : ∀ k, k ∈ s.toTables.lists.heap → k ∈ t.toTables.lists.heap := by
    intro k there
    have same := congrArg Option.isSome (unchanged.heap k)
    exact AList.lookup_isSome.mp (same.trans (AList.lookup_isSome.mpr there))
  have r := clean.live.mono live
  refine ⟨?_, ?_, fun conn dg entry => ?_⟩
  · constructor
    · exact fun socket k h => r.connections socket k (unchanged.connections ▸ h)
    · exact fun k h => r.pendingNew k (unchanged.pendingNew ▸ h)
    · exact fun k h => r.pendingData k (unchanged.pendingData ▸ h)
    · exact fun k h => r.remoteClosed k (unchanged.remoteClosed ▸ h)
    · exact fun peer k h => r.pendingOut peer k (unchanged.out ▸ h)
    · exact fun peer k h => r.pendingIn peer k (unchanged.incoming ▸ h)
    · exact fun name k h => r.pendingAlias name k (unchanged.named ▸ h)
    · exact fun peer k h => r.p2p peer k h
    · exact fun vpeer k h => r.virtualA vpeer k (unchanged.virtual ▸ h)
    · exact fun k h => r.virtualB k (unchanged.virtual ▸ h)
    · exact fun k dg h => r.datagrams k dg h
  · have same : t.toTables.lists.virtualPeerConnections =
        s.toTables.lists.virtualPeerConnections := unchanged.virtual
    rw [same]
    exact clean.covered
  · exact clean.keyed conn dg entry

theorem connectPeer_fails (clean : Clean s.toTables.lists) (hooked : Hooked s.toTables)
    (ends : Amid (Timed env shows) (humblenetConnectPeer topeer) s none t) :
    Unchanged shows topeer s t := by
  have o := Unchanged.overlooks shows topeer
  obtain ⟨may, u, tries, ends⟩ := amid_bind.mp ends
  have asked := (Asked.muted shows topeer).canTryPeer (asked_blacklist topeer) s may u tries
  have tried := asked.toUnchanged
  split at ends
  · obtain ⟨socket, v, creates, ends⟩ := amid_bind.mp ends
    have created := o.createWebrtc u socket v (amid_alone creates)
    obtain ⟨conn, w, makes, ends⟩ := amid_bind.mp ends
    obtain ⟨fresh, made⟩ := amid_newConnection.mp (amid_alone makes)
    obtain ⟨_, w', marks, rest⟩ := amid_bind.mp ends
    obtain ⟨-, rfl⟩ := amid_ask.mp marks
    obtain ⟨_, x, sets, ends⟩ := amid_bind.mp rest
    have data := o.setData _ _ _ _ _ (amid_alone sets)
    replace ends := amid_modify_bind.mp ends
    obtain ⟨offered, y, offers, ends⟩ := amid_bind.mp ends
    have offer := o.createOffer _ _ _ _ (amid_alone offers)
    split at ends
    · obtain ⟨found, -⟩ := amid_pure.mp ends
      cases found
    · replace ends := amid_modify_bind.mp ends
      obtain ⟨_, z, closes, last⟩ := amid_bind.mp ends
      obtain ⟨-, rfl⟩ := amid_pure.mp last
      cases socket with
      | none => exact absurd (amid_alone sets) amid_fault
      | some socket =>
        have free : socket ∉ v.connections := by
          rw [created.connections, tried.connections]
          intro listed
          have fresh := (createWebrtc_alone (amid_alone creates)).1
          rw [asked.sockets] at fresh
          exact fresh (hooked socket listed)
        have before := tried.trans created
        rw [made] at data
        have here : y.heap.lookup conn = some
            { Connection.new .outgoing with otherPeer := topeer, socket := some socket } :=
          (offer.heap conn).trans ((data.heap conn).trans (AList.lookup_insert v.heap))
        have closed := amid_alone closes
        obtain ⟨m, eq, -⟩ := close_alone
          (s := { y with errorString := some "Unable to generate sdp offer" }) here closed
        have listed := close_blacklist
          (s := { y with errorString := some "Unable to generate sdp offer" }) here rfl closed
        have clean' := before.clean clean
        have added : Added v conn y :=
          (((added_make clean' fresh _ _).trans data.toSameTables).pend_out topeer).trans
            offer.toSameTables
        have undone := added.undone (m := m) clean' fresh free
        refine before.trans ⟨?_, ?_⟩
        · rw [eq]
          exact { undone with }
        · rw [listed]
          exact data.blacklist.trans offer.blacklist
  · obtain ⟨-, rfl⟩ := amid_pure.mp ends
    exact tried

/-- The name's last connection is closed, and still there. -/
def Lapsed (s : State) (vpeer : PeerId) : Prop :=
  internalAliasIsVirtualPeer vpeer = true ∧ ∃ conn c,
    s.virtualPeerConnections.listA.lookup vpeer = some conn ∧ s.heap.lookup conn = some c ∧
      c.status = .closed

theorem findConnection_fails (virtual : internalAliasIsVirtualPeer topeer = true)
    (ends : Amid (Alone env) (internalAliasFindConnection topeer) s none t) :
    t.virtualPeerConnections.listA.lookup topeer = none ∧ (t = s ∨ Lapsed s topeer) := by
  unfold internalAliasFindConnection at ends
  rw [if_pos virtual] at ends
  replace ends := amid_get_bind.mp ends
  split at ends
  · rename_i unmapped
    obtain ⟨-, rfl⟩ := amid_pure.mp ends
    exact ⟨unmapped, Or.inl rfl⟩
  · rename_i conn mapped
    obtain ⟨c, here, ends⟩ := amid_deref_bind.mp ends
    split at ends
    · rename_i closed
      replace ends := amid_modify_bind.mp ends
      obtain ⟨-, rfl⟩ := amid_pure.mp ends
      refine ⟨?_, Or.inr ⟨virtual, conn, c, mapped, here, closed⟩⟩
      change (s.virtualPeerConnections.eraseA topeer).listA.lookup topeer = none
      unfold BidirectionalMap.eraseA
      rw [mapped]
      exact AList.lookup_erase topeer _
    · obtain ⟨found, -⟩ := amid_pure.mp ends
      cases found

theorem createConnection_fails (unmapped : s.virtualPeerConnections.listA.lookup topeer = none)
    (ends : Amid (Alone env) (internalAliasCreateConnection env topeer) s none t) :
    Unchanged shows topeer s t := by
  have o := Unchanged.overlooks shows topeer
  obtain ⟨known, u, looks, rest⟩ := amid_bind.mp ends
  have same : known = none ∧ u = s := by
    unfold internalAliasFindConnection at looks
    split at looks
    · replace looks := amid_get_bind.mp looks
      rw [unmapped] at looks
      exact amid_pure.mp looks
    · exact amid_pure.mp looks
  obtain ⟨rfl, rfl⟩ := same
  replace rest := amid_get_bind.mp rest
  split at rest
  · replace rest := amid_modify_bind.mp rest
    obtain ⟨-, rfl⟩ := amid_pure.mp rest
    exact o.error u _
  · obtain ⟨sent, v, sends, rest⟩ := amid_bind.mp rest
    have tried := o.sendP2PMessage _ _ _ _ sends
    split at rest
    · obtain ⟨conn, w, makes, rest⟩ := amid_bind.mp rest
      replace rest := amid_modify_bind.mp rest
      replace rest := amid_modify_bind.mp rest
      obtain ⟨found, -⟩ := amid_pure.mp rest
      cases found
    · obtain ⟨-, rfl⟩ := amid_pure.mp rest
      exact tried

theorem connectionTo_fails (clean : Clean s.toTables.lists) (hooked : Hooked s.toTables)
    (unknown : s.p2pconnections.lookup topeer = none)
    (ends : Amid (Timed env shows) (connectionTo env topeer) s none t) :
    Unchanged shows topeer s t ↔ ¬ Lapsed s topeer := by
  replace ends := amid_get_bind.mp ends
  rw [unknown] at ends
  dsimp only at ends
  split at ends
  · rename_i virtual
    obtain ⟨known, u, looks, ends⟩ := amid_bind.mp ends
    cases known with
    | some conn =>
      obtain ⟨found, -⟩ := amid_pure.mp ends
      cases found
    | none =>
      obtain ⟨unmapped, found⟩ := findConnection_fails virtual (amid_alone looks)
      have after : Unchanged shows topeer u t := createConnection_fails unmapped (amid_alone ends)
      by_cases lapsed : Lapsed s topeer
      · refine iff_of_false (fun unchanged => ?_) (not_not_intro lapsed)
        obtain ⟨-, conn, c, mapped, -⟩ := lapsed
        rw [← unchanged.virtual, after.virtual, unmapped] at mapped
        cases mapped
      · cases found.resolve_right lapsed
        exact iff_of_true after lapsed
  · rename_i real
    exact iff_of_true (connectPeer_fails clean hooked ends) fun lapsed => real lapsed.1

/-- A message to a peer that has no connection, and gets none, is refused, and all is as before
just when there was no closed connection left for the peer's name. -/
theorem failed_send_unchanged_iff {ok : Point → Tables → Prop}
    (unlisted : ∀ point t, ok point t → Unlisted point t)
    {pool : Pool Caller State Fault Query Query.Answer Unit} (run : Run env ok (.running pool))
    {message : Bytes} {sendmode channel : UInt8} {r : Int}
    (ends : Amid (Timed env shows) (humblenetP2PSendto env message topeer sendmode channel)
      pool.state r t) (unknown : pool.state.p2pconnections.lookup topeer = none)
    (failed : t.p2pconnections.lookup topeer = none) :
    r = -1 ∧ (Unchanged shows topeer pool.state t ↔
      ¬ (pool.state.initialized = true ∧ Lapsed pool.state topeer)) := by
  have clean := lists_clean env run
  have hooked := hooked_of_run env unlisted run
  have o := Unchanged.overlooks shows topeer
  replace ends := amid_get_bind.mp ends
  split at ends
  · rename_i initialized
    replace ends := amid_get_bind.mp ends
    obtain ⟨found, u, looks, ends⟩ := amid_bind.mp ends
    cases found with
    | none =>
      replace ends := amid_modify_bind.mp ends
      obtain ⟨rfl, rfl⟩ := amid_pure.mp ends
      have fails := connectionTo_fails clean hooked unknown looks
      have said : Unchanged shows topeer pool.state u ↔ Unchanged shows topeer pool.state
          { u with errorString := some "Unable to get a connection for peer" } :=
        ⟨fun h => h.trans (o.error u _), fun h => { h with }⟩
      refine ⟨rfl, said.symm.trans (fails.trans (not_congr ?_))⟩
      exact (and_iff_right initialized).symm
    | some conn =>
      -- the connection is entered, and a new one is not closed
      have finds := connectionTo_finds unknown (amid_alone looks)
      obtain ⟨c, here, alive⟩ := finds.alive conn rfl
      obtain ⟨_, v, tracks, sends⟩ := amid_bind.mp ends
      rcases amid_doWhen.mp tracks with ⟨-, tracks⟩ | ⟨known, -⟩
      · obtain rfl := amid_modify.mp tracks
        rcases sendOver_alone (amid_alone sends) with kept | ⟨d, here', closed, -⟩
        · rw [kept.peers] at failed
          have entered := StdMap.lookup_emplace topeer topeer conn u.p2pconnections
          rw [if_pos rfl] at entered
          cases entered.symm.trans failed
        · cases here.symm.trans here'
          exact absurd closed alive
      · exact absurd unknown known
  · rename_i missing
    replace ends := amid_modify_bind.mp ends
    obtain ⟨rfl, rfl⟩ := amid_pure.mp ends
    exact ⟨rfl, iff_of_true (o.error _ _) fun h => missing h.1⟩

end

/-- While the server names no peer by a virtual id, no closed connection is left for a name that
the application does not know a connection by. -/
theorem not_lapsed_of_identified {env : Externals}
    {pool : Pool Caller State Fault Query Query.Answer Unit}
    (run : TurnRun env Identified (.running pool))
    (between : Caller.application ∉ pool.parked.map Parked.tag) {topeer : PeerId}
    (unknown : pool.state.p2pconnections.lookup topeer = none) : ¬ Lapsed pool.state topeer := by
  have good := (identityDiscipline env).good_of_reach
    (fun s (start : s = .initial) => ⟨start ▸ known_initial, fun _ _ => ?_⟩) run
  · rintro ⟨-, conn, c, mapped, -⟩
    have tracked := good.idle .application between rfl topeer conn mapped
    cases unknown.symm.trans tracked
  · subst start
    intro vpeer conn there
    cases there

def standing (now : UInt64) : Prop := now = 0

def refusals : (q : Query) → State → Option q.Answer
  | .libwebrtcCreateOffer _, _ => some false
  | q, t => answers (fun _ _ => True) q t t

theorem refusals_timed (env : Externals) (q : Query) (s : State) (a : q.Answer)
    (h : refusals q s = some a) : Timed env standing q s a s := by
  cases q with
  | libwebrtcCreateOffer socket => exact ⟨trivial, rfl⟩
  | libwebrtcCloseConnection socket => exact .quiet s
  | sysMilliseconds =>
    cases h
    exact ⟨rfl, trivial, rfl⟩
  | _ =>
    have permitted : (setting env fun _ _ => True).allowed _ s a s := answers_allowed env _ s s a h
    exact ⟨permitted.1, rfl⟩

def refused (env : Externals) (topeer : PeerId) (s : State) : Option (State × Int × State) :=
  ((humblenetP2PSendto env [1] topeer 1 0 s).answered refusals).map fun r => (s, r.2)

theorem refused_after {env : Externals} {events : List Event} {topeer : PeerId} {s t : State}
    {r : Int} (h : ((history env Unlisted events).bind Config.resting).bind
      (refused env topeer) = some (s, r, t)) :
    history env Unlisted events = some (.running ⟨s, []⟩) ∧
      Amid (Timed env standing) (humblenetP2PSendto env [1] topeer 1 0) s r t := by
  obtain ⟨s', now, sends⟩ := Option.bind_eq_some_iff.mp h
  obtain ⟨c, reached, resting⟩ := Option.bind_eq_some_iff.mp now
  obtain ⟨⟨log, r', t'⟩, ran, eq⟩ := Option.map_eq_some_iff.mp sends
  cases eq
  cases Config.resting_some resting
  have ends := Course.ends_of_answered (refusals_timed env) ran
  exact ⟨reached, ends.amid fun _ _ _ answer => answer⟩

/-- The first message to peer 9, for which no offer can be made, changes nothing. -/
theorem failed_send_first : ∃ s t r, history welcome Unlisted introduction =
      some (.running ⟨s, []⟩) ∧
    Amid (Timed welcome standing) (humblenetP2PSendto welcome [1] 9 1 0) s r t ∧
    r = -1 ∧ (Unchanged standing 9 s t ↔ ¬ (s.initialized = true ∧ Lapsed s 9)) := by
  have refuses : (((history welcome Unlisted introduction).bind Config.resting).bind
      (refused welcome 9)).any (fun r => decide (r.1.p2pconnections.lookup 9 = none) &&
        decide (r.2.2.p2pconnections.lookup 9 = none)) = true := by decide +kernel
  obtain ⟨⟨s, r, t⟩, computed, unknown⟩ := (Option.any_eq_true _ _).mp refuses
  obtain ⟨h, ends⟩ := refused_after computed
  simp only [Bool.and_eq_true, decide_eq_true_eq] at unknown
  exact ⟨s, t, r, h, ends,
    failed_send_unchanged_iff (fun _ _ h => h) (run_history _ h) ends unknown.1 unknown.2⟩

/-- A peer goes by a virtual id, and no name is known to the server. -/
def impostor : Externals :=
  reading fun buff =>
    if buff = [] then .p2pOffer (some ⟨0x80000001, 0, some []⟩) else .aliasResolved (some ⟨[65], 0⟩)

/-- The peer connects first, so that what the name's connection is known by goes when the peer
leaves. The name is not resolved, and its connection closed; without a server a message to the
name is refused, and takes the closed connection from it. -/
def lapse : List Event :=
  introduction ++ [.virtualPeerForAlias [65], .sendto [1] 0x80000001 1 0, .webrtc 1 .disconnected,
    .recvfrom 4 100 0, .signal [1], .signalDisconnect 1]

theorem failed_send_forgets : ∃ s t conn,
    history impostor Unlisted lapse = some (.running ⟨s, []⟩) ∧
    TurnRun impostor Unlisted (.running ⟨s, []⟩) ∧
    Amid (Timed impostor standing) (humblenetP2PSendto impostor [1] 0x80000001 1 0) s (-1) t ∧
    s.p2pconnections.lookup 0x80000001 = none ∧ t.p2pconnections.lookup 0x80000001 = none ∧
    s.virtualPeerConnections.listA.lookup 0x80000001 = some conn ∧
    t.virtualPeerConnections.listA.lookup 0x80000001 = none ∧
    ¬ Unchanged standing 0x80000001 s t := by
  have refuses : (((history impostor Unlisted lapse).bind Config.resting).bind
      (refused impostor 0x80000001)).any (fun r =>
        decide (r.1.p2pconnections.lookup 0x80000001 = none) &&
        decide (r.2.2.p2pconnections.lookup 0x80000001 = none) && decide (r.2.1 = -1) &&
        (r.1.virtualPeerConnections.listA.lookup 0x80000001).isSome &&
        decide (r.2.2.virtualPeerConnections.listA.lookup 0x80000001 = none)) = true := by
    decide +kernel
  obtain ⟨⟨s, r, t⟩, computed, lost⟩ := (Option.any_eq_true _ _).mp refuses
  obtain ⟨h, ends⟩ := refused_after computed
  simp only [Bool.and_eq_true, decide_eq_true_eq] at lost
  obtain ⟨⟨⟨⟨unknown, failed⟩, rfl⟩, mapped⟩, unmapped⟩ := lost
  obtain ⟨conn, mapped⟩ := Option.isSome_iff_exists.mp mapped
  refine ⟨s, t, conn, h, turnRun_history _ h, ends, unknown, failed, mapped, unmapped, ?_⟩
  intro unchanged
  rw [unchanged.virtual, mapped] at unmapped
  cases unmapped

end HumbleNet.Client
