import HumbleNet.Client.SetClosed
import HumbleNet.Client.Turns

/-! What becomes of the table of peers when a send or a receive closes a connection and lets it
go: entries are removed by the ids that the connection is thought to be known by. -/
namespace HumbleNet.Client

open Guarded

def Connection.bare (c : Connection) : Connection := { c with recvBuffer := [] }

/-- The connections and the ids they are known by are as before. -/
structure KeepsBooks (s t : State) : Prop where
  peers : t.p2pconnections = s.p2pconnections
  virtual : t.virtualPeerConnections = s.virtualPeerConnections
  heap : ∀ k, (t.heap.lookup k).map Connection.bare = (s.heap.lookup k).map Connection.bare

theorem KeepsBooks.refl (s : State) : KeepsBooks s s := ⟨rfl, rfl, fun _ => rfl⟩

theorem KeepsBooks.trans (s t u : State) (h : KeepsBooks s t) (h' : KeepsBooks t u) :
    KeepsBooks s u where
  peers := h'.peers.trans h.peers
  virtual := h'.virtual.trans h.virtual
  heap k := (h'.heap k).trans (h.heap k)

theorem KeepsBooks.live {s t : State} (h : KeepsBooks s t) {k : ConnPtr} :
    k ∈ t.heap ↔ k ∈ s.heap := by
  have same := congrArg Option.isSome (h.heap k)
  simp only [Option.isSome_map] at same
  rw [← AList.lookup_isSome, ← AList.lookup_isSome, same]

theorem KeepsBooks.lookup {s t : State} (h : KeepsBooks s t) {k : ConnPtr} {c : Connection}
    (here : s.heap.lookup k = some c) :
    ∃ d, t.heap.lookup k = some d ∧ d.status = c.status ∧ d.otherPeer = c.otherPeer := by
  have same := h.heap k
  rw [here] at same
  obtain ⟨d, there, same⟩ := Option.map_eq_some_iff.mp same
  have status : d.bare.status = c.bare.status := congrArg Connection.status same
  have peer : d.bare.otherPeer = c.bare.otherPeer := congrArg Connection.otherPeer same
  exact ⟨d, there, status, peer⟩

/-- A relation that does not see the error. -/
structure Muted (R : State → State → Prop) : Prop where
  refl : ∀ s, R s s
  trans : ∀ s t u, R s t → R t u → R s u
  error : ∀ s error, R s { s with errorString := error }

structure Overlooks (R : State → State → Prop) : Prop extends Muted R where
  sockets : ∀ s m, R s { s with sockets := m }

structure Pardons (R : State → State → Prop) : Prop extends Overlooks R where
  expired : ∀ s peer, R s { s with peerBlacklist := s.peerBlacklist.erase peer }

section overlooked

variable {env : Externals} {α : Type} {R : State → State → Prop}

theorem follows_through (refl : ∀ s, R s s) (e : Fault) (o : Option α) :
    Follows (Alone env) R (through e o) := by
  cases o with
  | none => exact follows_fault e
  | some a => exact follows_pure refl a

theorem Overlooks.setError (o : Overlooks R) (error : String) :
    Follows (Alone env) R (humblenetSetError error) := follows_modify fun s => o.error s _

theorem follows_call (refl : ∀ s, R s s) {q : Query} (alone : ∀ s a t, Alone env q s a t → t = s) :
    Follows (Alone env) R (unguarded q : ClientM q.Answer) := by
  apply follows_unguarded
  intro s a t answer
  rw [alone s a t answer]
  exact refl s

theorem Overlooks.sendP2PMessage (o : Overlooks R) (msg : Message) :
    Follows (Alone env) R (sendP2PMessage env msg) := by
  apply follows_get
  intro s
  split
  · exact follows_pure o.refl false
  · split
    · exact follows_pure o.refl false
    · apply follows_bind o.trans
      · exact follows_call o.refl fun _ _ _ answer => answer.2
      · exact fun _ => follows_pure o.refl _

theorem Muted.canTryPeer {allowed : (q : Query) → State → q.Answer → State → Prop} (m : Muted R)
    {peer : PeerId} (asks : Follows allowed R (isPeerBlacklisted peer)) :
    Follows allowed R (canTryPeer peer) := by
  have refuses : ∀ error, Follows allowed R (do
      humblenetSetError error
      pure false : ClientM Bool) :=
    fun error => follows_bind m.trans (follows_modify fun s => m.error s _) fun _ =>
      follows_pure m.refl false
  apply follows_get
  intro s
  split
  · exact refuses _
  · split
    · exact refuses _
    · split
      · exact refuses _
      · apply follows_bind m.trans asks
        intro blacklisted
        split
        · exact refuses _
        · exact follows_pure m.refl true

theorem Pardons.isPeerBlacklisted (o : Pardons R) (peer : PeerId) :
    Follows (Alone env) R (isPeerBlacklisted peer) := by
  apply follows_get
  intro s
  split
  · exact follows_pure o.refl false
  · apply follows_bind o.trans (follows_ask o.refl _)
    intro now
    apply follows_bind o.trans
    · exact follows_doWhen o.refl (follows_modify fun s => o.expired s peer)
    · exact fun _ => follows_pure o.refl true

theorem Overlooks.createWebrtc (o : Overlooks R) :
    Follows (Alone env) R internalCreateWebrtc := by
  apply follows_get
  intro s
  split
  · exact follows_fault _
  · split
    · apply follows_bind o.trans
      · exact follows_call o.refl fun _ _ _ answer => answer.2
      · intro _
        apply follows_bind o.trans (follows_ask o.refl _)
        intro socket
        apply follows_bind o.trans (follows_modify fun s => o.sockets s _)
        exact fun _ => follows_pure o.refl _
    · apply follows_bind o.trans
      · exact follows_call o.refl fun _ _ _ answer => answer.2
      · exact fun _ => follows_pure o.refl none

theorem Overlooks.derefSocket (o : Overlooks R) (socket : SocketPtr) :
    Follows (Alone env) R (derefSocket socket) := follows_get fun _ => follows_through o.refl _ _

theorem Overlooks.setData (o : Overlooks R) (socket : Option SocketPtr)
    (userData : Option ConnPtr) : Follows (Alone env) R (internalSetData socket userData) := by
  cases socket with
  | none => exact follows_fault _
  | some socket =>
    apply follows_bind o.trans (o.derefSocket socket)
    exact fun _ => follows_modify fun s => o.sockets s _

theorem Overlooks.createOffer (o : Overlooks R) (socket : Option SocketPtr) :
    Follows (Alone env) R (internalCreateOffer socket) := by
  apply follows_bind o.trans
  · cases socket with
    | none => exact follows_fault _
    | some socket =>
      apply follows_bind o.trans (o.derefSocket socket)
      intro it
      unfold assert
      split
      · exact follows_pure o.refl _
      · exact follows_fault _
  · exact fun socket => follows_call o.refl fun _ _ _ answer => answer.2

end overlooked

theorem KeepsBooks.pardons : Pardons KeepsBooks where
  refl := .refl
  trans := .trans
  error _ _ := ⟨rfl, rfl, fun _ => rfl⟩
  sockets _ _ := ⟨rfl, rfl, fun _ => rfl⟩
  expired _ _ := ⟨rfl, rfl, fun _ => rfl⟩

abbrev Bookless (env : Externals) {α : Type} (x : ClientM α) : Prop :=
  Follows (Alone env) KeepsBooks x

section

variable {env : Externals} {α β : Type}

theorem bookless_pure (a : α) : Bookless env (pure a : ClientM α) := follows_pure .refl a

theorem bookless_bind {x : ClientM α} {f : α → ClientM β} (hx : Bookless env x)
    (hf : ∀ a, Bookless env (f a)) : Bookless env (x >>= f) := follows_bind .trans hx hf

theorem bookless_get {f : State → ClientM β} (h : ∀ s, Bookless env (f s)) :
    Bookless env (get >>= f) := follows_get h

theorem bookless_modify {g : State → State} (h : ∀ s, KeepsBooks s (g s)) :
    Bookless env (modify g : ClientM Unit) := follows_modify h

theorem bookless_modify_bind {g : State → State} {f : Unit → ClientM β}
    (h : ∀ s, KeepsBooks s (g s)) (next : Bookless env (f ())) : Bookless env (modify g >>= f) :=
  bookless_bind (bookless_modify h) fun _ => next

theorem bookless_ask (q : Query) : Bookless env (ask q : ClientM q.Answer) := follows_ask .refl q

theorem bookless_doWhen {c : Prop} [Decidable c] {x : ClientM Unit} (h : Bookless env x) :
    Bookless env (doWhen c x) := follows_doWhen .refl h

theorem bookless_deref (conn : ConnPtr) : Bookless env (deref conn) :=
  bookless_get fun _ => follows_through .refl _ _

theorem bookless_derefSocket (socket : SocketPtr) : Bookless env (derefSocket socket) :=
  bookless_get fun _ => follows_through .refl _ _

theorem bookless_derefDatagram (conn : ConnPtr) : Bookless env (derefDatagram conn) :=
  bookless_get fun _ => follows_through .refl _ _

theorem bookless_assert {c : Prop} [Decidable c] (a : Assertion) : Bookless env (assert c a) := by
  unfold assert
  split
  · exact bookless_pure ()
  · exact follows_fault _

theorem bookless_setError (error : String) : Bookless env (humblenetSetError error) :=
  bookless_modify fun _ => ⟨rfl, rfl, fun _ => rfl⟩

theorem bookless_clearError : Bookless env humblenetClearError :=
  bookless_modify fun _ => ⟨rfl, rfl, fun _ => rfl⟩

theorem bookless_updateDatagram (conn : ConnPtr) (f : DatagramConnection → DatagramConnection) :
    Bookless env (modifyTables fun s => s.updateDatagram conn f) :=
  bookless_modify fun _ => ⟨rfl, rfl, fun _ => rfl⟩

theorem bookless_recvBuffer (conn : ConnPtr) (f : Connection → Bytes) :
    Bookless env (modifyTables fun s =>
      s.updateConnection conn fun c => { c with recvBuffer := f c }) := by
  apply bookless_modify
  intro s
  refine ⟨rfl, rfl, fun k => ?_⟩
  change ((StdMap.modify conn _ s.heap).lookup k).map _ = _
  rw [StdMap.lookup_modify]
  split
  · rename_i same
    rw [Option.map_map, same]
    rfl
  · rfl

/-! ### The layers below -/

theorem bookless_writeSocket (socket : Option SocketPtr) (buf : Bytes) :
    Bookless env (internalWriteSocket socket buf) := by
  cases socket with
  | none => exact follows_fault _
  | some socket =>
    apply bookless_bind (bookless_derefSocket socket)
    intro it
    split
    · exact follows_call .refl fun _ _ _ answer => answer.2
    · exact bookless_bind (follows_call .refl fun _ _ _ answer => answer.2) fun _ => bookless_pure _

theorem bookless_connectionWrite (conn : ConnPtr) (buf : Bytes) (bufsize : UInt32) :
    Bookless env (humblenetConnectionWrite env conn buf bufsize) := by
  apply bookless_bind (bookless_deref conn)
  intro c
  split
  · exact bookless_bind (bookless_assert _) fun _ => bookless_pure _
  · exact bookless_bind (bookless_assert _) fun _ => bookless_pure _
  · apply bookless_bind (bookless_assert _)
    intro _
    apply bookless_get
    intro s
    split
    · apply bookless_bind (KeepsBooks.pardons.sendP2PMessage _)
      intro sent
      split
      · exact bookless_pure _
      · exact bookless_pure _
    · exact bookless_writeSocket _ _

theorem bookless_isWritable (conn : ConnPtr) :
    Bookless env (humblenetConnectionIsWritable conn) := by
  apply bookless_bind (bookless_deref conn)
  intro c
  split
  · exact bookless_pure _
  · exact bookless_pure _

theorem bookless_datagramFlush (conn : ConnPtr) : Bookless env (datagramFlush env conn) := by
  apply bookless_bind (bookless_derefDatagram conn)
  intro dg
  split
  · exact bookless_pure ()
  · apply bookless_bind (bookless_isWritable _)
    intro writable
    split
    · apply bookless_bind (bookless_connectionWrite _ _ _)
      intro ret
      apply bookless_bind (bookless_doWhen bookless_clearError)
      intro _
      exact bookless_bind (bookless_derefDatagram conn) fun _ => bookless_updateDatagram _ _
    · exact bookless_pure ()

theorem bookless_insertDatagram (conn : ConnPtr) : Bookless env (insertDatagram conn) := by
  apply bookless_bind (bookless_deref conn)
  exact fun _ => bookless_modify fun _ => ⟨rfl, rfl, fun _ => rfl⟩

theorem bookless_datagramQueue (message : Bytes) (flags : UInt8) (conn : ConnPtr)
    (channel : UInt8) : Bookless env (datagramQueue env message flags conn channel) := by
  apply bookless_bind (bookless_insertDatagram conn)
  intro _
  apply bookless_bind
  · apply bookless_bind (bookless_derefDatagram conn)
    intro dg
    exact bookless_bind (bookless_ask _) fun _ => bookless_updateDatagram _ _
  · intro _
    apply bookless_bind
    · apply bookless_bind (bookless_derefDatagram conn)
      intro dg
      split
      · exact bookless_datagramFlush conn
      · split
        · exact bookless_bind (bookless_ask _) fun _ => bookless_datagramFlush conn
        · exact bookless_modify fun _ => ⟨rfl, rfl, fun _ => rfl⟩
    · exact fun _ => bookless_pure _

theorem bookless_datagramSend (message : Bytes) (flags : UInt8) (conn : ConnPtr)
    (channel : UInt8) : Bookless env (humblenetDatagramSend env message flags conn channel) := by
  apply bookless_bind (bookless_deref conn)
  intro c
  split
  · split
    · exact bookless_datagramQueue _ _ _ _
    · exact bookless_bind (bookless_setError _) fun _ => bookless_pure _
  · exact bookless_bind (bookless_setError _) fun _ => bookless_pure _
  · exact bookless_datagramQueue _ _ _ _

theorem bookless_flushFrom (fuel : Nat) (key : Option ConnPtr) :
    Bookless env (flushFrom env fuel key) := by
  induction fuel generalizing key with
  | zero =>
    cases key with
    | none => exact bookless_pure ()
    | some conn => exact follows_fault _
  | succ fuel ih =>
    cases key with
    | none => exact bookless_pure ()
    | some conn =>
      apply bookless_bind (bookless_ask _)
      intro _
      apply bookless_bind (bookless_datagramFlush conn)
      intro _
      apply bookless_bind (bookless_derefDatagram conn)
      exact fun _ => bookless_get fun s => ih _

theorem bookless_getMessage (conn : ConnPtr) (length : Nat) (flags channel : UInt8) :
    Bookless env (getMessage conn length flags channel) := by
  apply bookless_bind (bookless_derefDatagram conn)
  intro dg
  exact bookless_bind (bookless_updateDatagram _ _) fun _ => bookless_pure _

theorem bookless_drainFrom (length : Nat) (flags channel : UInt8) (fuel : Nat)
    (key : Option ConnPtr) : Bookless env (drainFrom length flags channel fuel key) := by
  induction fuel generalizing key with
  | zero =>
    cases key with
    | none => exact bookless_pure none
    | some conn => exact follows_fault _
  | succ fuel ih =>
    cases key with
    | none => exact bookless_pure none
    | some conn =>
      apply bookless_bind (bookless_derefDatagram conn)
      intro dg
      apply bookless_bind (bookless_getMessage _ _ _ _)
      rintro ⟨ret, data⟩
      dsimp only
      split
      · exact bookless_pure _
      · exact bookless_get fun s => ih _

theorem bookless_readAll (conn : ConnPtr) (retval : Int) :
    Bookless env (humblenetConnectionReadAll conn retval) := by
  apply bookless_bind (bookless_deref conn)
  intro c
  split
  · exact bookless_pure _
  · split
    · apply bookless_get
      intro s
      apply bookless_bind (bookless_assert _)
      intro _
      split
      · exact bookless_bind (bookless_setError _) fun _ => bookless_pure _
      · exact bookless_pure _
    · apply bookless_bind (bookless_ask _)
      intro allocated
      split
      · apply bookless_bind (bookless_recvBuffer conn fun _ => [])
        intro _
        apply bookless_get
        intro s
        apply bookless_bind (bookless_assert _)
        intro _
        exact bookless_modify_bind (fun _ => ⟨rfl, rfl, fun _ => rfl⟩) (bookless_pure _)
      · exact bookless_bind (bookless_setError _) fun _ => bookless_pure _

theorem bookless_receiveFrom (length : Nat) (flags channel : UInt8) (conn : ConnPtr) :
    Bookless env (receiveFrom length flags channel conn) := by
  apply bookless_bind (bookless_insertDatagram conn)
  intro _
  apply bookless_bind (bookless_readAll conn 0)
  rintro ⟨buf, retval⟩
  dsimp only
  split
  · refine bookless_modify_bind (fun _ => ⟨rfl, rfl, fun _ => rfl⟩) ?_
    apply bookless_bind bookless_clearError
    intro _
    apply bookless_bind (bookless_deref conn)
    intro c
    split
    · exact bookless_pure _
    · exact bookless_pure _
  · apply bookless_bind (bookless_updateDatagram _ _)
    intro _
    apply bookless_bind (bookless_ask _)
    intro _
    apply bookless_bind (bookless_getMessage _ _ _ _)
    rintro ⟨ret, data⟩
    dsimp only
    split
    · exact bookless_bind (bookless_derefDatagram conn) fun _ => bookless_pure _
    · exact bookless_pure _

theorem bookless_firstPendingData : Bookless env firstPendingData := by
  apply bookless_get
  intro s
  apply bookless_bind (bookless_ask _)
  intro walked
  split
  · exact bookless_pure _
  · apply bookless_bind (bookless_deref _)
    intro c
    exact bookless_bind (bookless_assert _) fun _ => bookless_pure _

theorem bookless_pollAll : Bookless env humblenetPollAll := by
  apply bookless_get
  intro s
  apply bookless_bind (bookless_ask _)
  intro walked
  split
  · exact bookless_modify_bind (fun _ => ⟨rfl, rfl, fun _ => rfl⟩) (bookless_pure _)
  · apply bookless_bind bookless_firstPendingData
    intro found
    split
    · exact bookless_pure _
    · exact bookless_firstPendingData

theorem bookless_pollLoop (length : Nat) (flags channel : UInt8) (fuel : Nat) :
    Bookless env (pollLoop length flags channel fuel) := by
  induction fuel with
  | zero => exact follows_fault _
  | succ fuel ih =>
    apply bookless_bind bookless_pollAll
    intro found
    split
    · exact bookless_pure _
    · apply bookless_bind (bookless_receiveFrom _ _ _ _)
      intro received
      split
      · exact bookless_pure _
      · exact ih

theorem bookless_acceptLoop (fuel : Nat) : Bookless env (acceptLoop fuel) := by
  induction fuel with
  | zero => exact follows_fault _
  | succ fuel ih =>
    apply bookless_bind
    · apply bookless_get
      intro s
      apply bookless_bind (bookless_ask _)
      intro walked
      split
      · exact bookless_modify_bind (fun _ => ⟨rfl, rfl, fun _ => rfl⟩) (bookless_pure _)
      · exact bookless_pure _
    · intro accepted
      split
      · exact bookless_pure ()
      · apply bookless_bind (bookless_deref _)
        intro c
        exact bookless_bind (bookless_doWhen (bookless_insertDatagram _)) fun _ => ih

theorem bookless_datagramRecv (fuel length : Nat) (flags channel : UInt8) :
    Bookless env (humblenetDatagramRecv env fuel length flags channel) := by
  apply bookless_get
  intro s
  apply bookless_bind
  · apply bookless_doWhen
    apply bookless_get
    intro s
    apply bookless_bind (bookless_flushFrom _ _)
    exact fun _ => bookless_modify fun _ => ⟨rfl, rfl, fun _ => rfl⟩
  · intro _
    apply bookless_get
    intro s
    apply bookless_bind (bookless_drainFrom _ _ _ _ _)
    intro drained
    split
    · exact bookless_pure _
    · apply bookless_bind (bookless_pollLoop _ _ _ _)
      intro polled
      split
      · exact bookless_pure _
      · exact bookless_bind (bookless_acceptLoop _) fun _ => bookless_pure _

/-! ### Letting a connection go -/

variable {s t : State} {conn : ConnPtr} {c : Connection} {topeer : PeerId}

theorem close_alone (here : s.heap.lookup conn = some c)
    (ends : Amid (Alone env) (humblenetConnectionClose conn) s () t) : ∃ m,
      t = { s with
        toTables := Tables.delete conn { s with
          sockets := m, connections := unhook c.socket s.connections }
        peerBlacklist := t.peerBlacklist } ∧
      (∀ k, k ∉ c.socket → m.lookup k = s.sockets.lookup k) ∧
      ∀ socket ∈ c.socket, ∀ it, m.lookup socket = some it →
        it.userData = none ∧ it.closing = true := by
  obtain ⟨_, u, closes, ends⟩ := amid_bind.mp ends
  obtain ⟨-, m, eq, others, bare⟩ := setClosed_alone here closes
  replace ends := amid_modify_bind.mp ends
  replace ends := amid_modify_bind.mp ends
  obtain ⟨_, v, passes, deletes⟩ := amid_bind.mp ends
  obtain ⟨-, rfl⟩ := amid_ask.mp passes
  rw [amid_modify.mp deletes, eq]
  exact ⟨m, rfl, others, bare⟩

/-- The entries of the ids are erased, and the connection is deleted. -/
structure Released (s : State) (conn : ConnPtr) (one other : PeerId) (t : State) : Prop where
  peers : t.p2pconnections = (s.p2pconnections.erase one).erase other
  heap : ∀ k, k ∈ t.heap ↔ k ≠ conn ∧ k ∈ s.heap

theorem released_of_close {one other : PeerId} (here : s.heap.lookup conn = some c)
    (ends : Amid (Alone env) (humblenetConnectionClose conn)
      { s with p2pconnections := (s.p2pconnections.erase one).erase other } () t) :
    Released s conn one other t := by
  obtain ⟨m, eq, -⟩ := close_alone (s := { s with
    p2pconnections := (s.p2pconnections.erase one).erase other }) here ends
  rw [eq]
  refine ⟨rfl, fun k => ?_⟩
  exact AList.mem_erase.trans (and_congr_right fun _ => StdMap.mem_modify)

theorem sendOver_alone {message : Bytes} {sendmode channel : UInt8} {r : Int}
    (ends : Amid (Alone env) (sendOver env conn message topeer sendmode channel) s r t) :
    KeepsBooks s t ∨ ∃ c, s.heap.lookup conn = some c ∧ c.status = .closed ∧
      Released s conn c.otherPeer topeer t := by
  obtain ⟨c, here, ends⟩ := amid_deref_bind.mp ends
  obtain ⟨ret, u, sends, ends⟩ := amid_bind.mp ends
  have kept := bookless_datagramSend _ _ _ _ s ret u sends
  split at ends
  · obtain ⟨d, here', ends⟩ := amid_deref_bind.mp ends
    obtain ⟨d', there, status, peer⟩ := kept.lookup here
    cases here'.symm.trans there
    split at ends
    · rename_i closed
      replace ends := amid_modify_bind.mp ends
      replace ends := amid_modify_bind.mp ends
      obtain ⟨_, v, closes, ends⟩ := amid_bind.mp ends
      replace ends := amid_modify_bind.mp ends
      obtain ⟨-, rfl⟩ := amid_pure.mp ends
      obtain ⟨peers, heap⟩ := released_of_close here' closes
      refine Or.inr ⟨c, here, status.symm.trans closed, ?_, fun k => ?_⟩
      · rw [← peer, ← kept.peers]
        exact peers
      · rw [← kept.live]
        exact heap k
    · obtain ⟨-, rfl⟩ := amid_pure.mp ends
      exact Or.inl kept
  · obtain ⟨-, rfl⟩ := amid_pure.mp ends
    exact Or.inl kept

structure Finds (s : State) (found : Option ConnPtr) (t : State) : Prop where
  peers : t.p2pconnections = s.p2pconnections
  live : ∀ k, k ∈ s.heap → k ∈ t.heap
  alive : ∀ conn ∈ found, ∃ c, t.heap.lookup conn = some c ∧ c.status ≠ .closed

theorem Finds.none_of_books (h : KeepsBooks s t) : Finds s none t :=
  ⟨h.peers, fun _ there => h.live.mpr there, nofun⟩

theorem finds_after {u : State} {found : Option ConnPtr} (kept : KeepsBooks s u)
    (finds : Finds u found t) : Finds s found t :=
  ⟨finds.peers.trans kept.peers, fun k there => finds.live k (kept.live.mpr there), finds.alive⟩

theorem amid_mark_bind {point : Point} {f : Unit → ClientM β} {b : β} :
    Amid (Alone env) (mark point >>= f) s b t ↔ Amid (Alone env) (f ()) s b t := by
  rw [amid_bind]
  constructor
  · rintro ⟨_, u, passes, ends⟩
    obtain ⟨-, rfl⟩ := amid_ask.mp passes
    exact ends
  · intro ends
    exact ⟨(), s, amid_ask.mpr ⟨⟨trivial, rfl⟩, rfl⟩, ends⟩

theorem amid_newConnection {connection : Connection} {peer : Option PeerId} :
    Amid (Alone env) (newConnection connection peer) s conn t ↔
      conn ∉ s.heap ∧ t = { s with toTables := s.make conn connection peer } := by
  have rest : ∀ k, Amid (Alone env) (do
      mark (.new k)
      modifyTables fun s => s.make k connection peer
      pure k : ClientM ConnPtr) s conn t ↔
      conn = k ∧ t = { s with toTables := s.make k connection peer } := by
    intro k
    rw [amid_mark_bind]
    exact amid_modify_bind.trans amid_pure
  unfold newConnection
  rw [amid_bind]
  constructor
  · rintro ⟨k, u, asks, ends⟩
    obtain ⟨⟨fresh, -⟩, rfl⟩ := amid_ask.mp asks
    obtain ⟨rfl, rfl⟩ := (rest k).mp ends
    exact ⟨fresh, rfl⟩
  · rintro ⟨fresh, rfl⟩
    exact ⟨conn, s, amid_ask.mpr ⟨⟨fresh, rfl⟩, rfl⟩, (rest conn).mpr ⟨rfl, rfl⟩⟩

theorem finds_made {connection : Connection} {peer : Option PeerId} {u : State}
    (alive : connection.status ≠ .closed)
    (kept : KeepsBooks { s with toTables := s.make conn connection peer } u) :
    Finds s (some conn) u := by
  refine ⟨kept.peers, fun k there => ?_, fun k found => ?_⟩
  · exact kept.live.mpr ((AList.mem_insert s.heap).mpr (Or.inr there))
  · cases found
    obtain ⟨d, there, status, -⟩ := kept.lookup (AList.lookup_insert s.heap)
    exact ⟨d, there, status ▸ alive⟩

theorem connectPeer_finds {found : Option ConnPtr}
    (ends : Amid (Alone env) (humblenetConnectPeer topeer) s found t) : Finds s found t := by
  obtain ⟨may, u, tries, ends⟩ := amid_bind.mp ends
  have kept := KeepsBooks.pardons.canTryPeer
    (KeepsBooks.pardons.isPeerBlacklisted topeer) s may u tries
  apply finds_after kept
  split at ends
  · obtain ⟨socket, v, creates, ends⟩ := amid_bind.mp ends
    apply finds_after (KeepsBooks.pardons.createWebrtc u socket v creates)
    obtain ⟨conn, w, makes, ends⟩ := amid_bind.mp ends
    obtain ⟨fresh, made⟩ := amid_newConnection.mp makes
    replace ends := amid_mark_bind.mp ends
    obtain ⟨_, x, sets, ends⟩ := amid_bind.mp ends
    replace ends := amid_modify_bind.mp ends
    obtain ⟨offered, y, offers, ends⟩ := amid_bind.mp ends
    have kept : KeepsBooks w y := by
      have first := KeepsBooks.pardons.setData _ _ _ _ _ sets
      have last := KeepsBooks.pardons.createOffer _ _ _ _ offers
      exact .trans _ _ _ first ⟨last.peers, last.virtual, last.heap⟩
    rw [made] at kept
    have finds := finds_made (by exact ConnectionStatus.noConfusion) kept
    split at ends
    · obtain ⟨rfl, rfl⟩ := amid_pure.mp ends
      exact finds
    · replace ends := amid_modify_bind.mp ends
      obtain ⟨_, z, closes, ends⟩ := amid_bind.mp ends
      obtain ⟨rfl, rfl⟩ := amid_pure.mp ends
      obtain ⟨c, here, -⟩ := finds.alive conn rfl
      obtain ⟨m, eq, -⟩ := close_alone
        (s := { y with errorString := some "Unable to generate sdp offer" }) here closes
      rw [eq]
      refine ⟨finds.peers, fun k there => ?_, nofun⟩
      have other : k ≠ conn := fun same => fresh (same ▸ there)
      exact AList.mem_erase.mpr ⟨other, StdMap.mem_modify.mpr (finds.live k there)⟩
  · obtain ⟨rfl, rfl⟩ := amid_pure.mp ends
    exact .none_of_books (.refl _)

theorem findConnection_finds {found : Option ConnPtr}
    (ends : Amid (Alone env) (internalAliasFindConnection topeer) s found t) :
    Finds s found t := by
  unfold internalAliasFindConnection at ends
  split at ends
  · replace ends := amid_get_bind.mp ends
    split at ends
    · obtain ⟨rfl, rfl⟩ := amid_pure.mp ends
      exact .none_of_books (.refl _)
    · obtain ⟨c, here, ends⟩ := amid_deref_bind.mp ends
      split at ends
      · replace ends := amid_modify_bind.mp ends
        obtain ⟨rfl, rfl⟩ := amid_pure.mp ends
        exact ⟨rfl, fun _ there => there, nofun⟩
      · rename_i conn _ open_
        obtain ⟨rfl, rfl⟩ := amid_pure.mp ends
        refine ⟨rfl, fun _ there => there, fun k same => ?_⟩
        cases same
        exact ⟨c, here, open_⟩
  · obtain ⟨rfl, rfl⟩ := amid_pure.mp ends
    exact .none_of_books (.refl _)

theorem Finds.then {found found' : Option ConnPtr} {u : State} (finds : Finds s found u)
    (next : Finds u found' t) : Finds s found' t :=
  ⟨next.peers.trans finds.peers, fun k there => next.live k (finds.live k there), next.alive⟩

theorem createConnection_finds {found : Option ConnPtr}
    (ends : Amid (Alone env) (internalAliasCreateConnection env topeer) s found t) :
    Finds s found t := by
  obtain ⟨known, u, looks, ends⟩ := amid_bind.mp ends
  have finds := findConnection_finds looks
  cases known with
  | some conn =>
    obtain ⟨rfl, rfl⟩ := amid_pure.mp ends
    exact finds
  | none =>
    apply finds.then
    replace ends := amid_get_bind.mp ends
    split at ends
    · replace ends := amid_modify_bind.mp ends
      obtain ⟨rfl, rfl⟩ := amid_pure.mp ends
      exact ⟨rfl, fun _ there => there, nofun⟩
    · obtain ⟨sent, v, sends, ends⟩ := amid_bind.mp ends
      apply finds_after (KeepsBooks.pardons.sendP2PMessage _ _ _ _ sends)
      split at ends
      · obtain ⟨conn, w, makes, ends⟩ := amid_bind.mp ends
        obtain ⟨fresh, rfl⟩ := amid_newConnection.mp makes
        replace ends := amid_modify_bind.mp ends
        replace ends := amid_modify_bind.mp ends
        obtain ⟨rfl, rfl⟩ := amid_pure.mp ends
        refine ⟨rfl, fun k there => (AList.mem_insert v.heap).mpr (Or.inr there), fun k same => ?_⟩
        cases same
        exact ⟨_, AList.lookup_insert v.heap, ConnectionStatus.noConfusion⟩
      · obtain ⟨rfl, rfl⟩ := amid_pure.mp ends
        exact .none_of_books (.refl _)

theorem connectionTo_finds {found : Option ConnPtr}
    (unknown : s.p2pconnections.lookup topeer = none)
    (ends : Amid (Alone env) (connectionTo env topeer) s found t) : Finds s found t := by
  replace ends := amid_get_bind.mp ends
  rw [unknown] at ends
  dsimp only at ends
  split at ends
  · obtain ⟨known, u, looks, ends⟩ := amid_bind.mp ends
    have finds := findConnection_finds looks
    cases known with
    | some conn =>
      obtain ⟨rfl, rfl⟩ := amid_pure.mp ends
      exact finds
    | none => exact finds.then (createConnection_finds ends)
  · exact connectPeer_finds ends

theorem sendto_releases {message : Bytes} {sendmode channel : UInt8} {r : Int}
    (here : s.heap.lookup conn = some c) (gone : conn ∉ t.heap)
    (ends : Amid (Alone env) (humblenetP2PSendto env message topeer sendmode channel) s r t) :
    t.p2pconnections = (s.p2pconnections.erase c.otherPeer).erase topeer := by
  have there : conn ∈ s.heap := StdMap.mem_iff_lookup.mpr ⟨c, here⟩
  replace ends := amid_get_bind.mp ends
  split at ends
  · replace ends := amid_get_bind.mp ends
    obtain ⟨found, u, looks, ends⟩ := amid_bind.mp ends
    cases known : s.p2pconnections.lookup topeer with
    | none =>
      have finds := connectionTo_finds known looks
      cases found with
      | none =>
        replace ends := amid_modify_bind.mp ends
        obtain ⟨-, rfl⟩ := amid_pure.mp ends
        exact absurd (finds.live conn there) gone
      | some k =>
        -- a connection that has just been found is not closed
        obtain ⟨_, v, tracks, ends⟩ := amid_bind.mp ends
        have same : v.heap = u.heap := by
          rcases amid_doWhen.mp tracks with ⟨-, tracks⟩ | ⟨-, rfl⟩
          · rw [amid_modify.mp tracks]
          · rfl
        rcases sendOver_alone ends with kept | ⟨d, here', closed, -⟩
        · exact absurd (kept.live.mpr (same ▸ finds.live conn there)) gone
        · obtain ⟨d', there', alive⟩ := finds.alive k rfl
          cases here'.symm.trans (same ▸ there')
          exact absurd closed alive
    | some k =>
      replace looks := amid_get_bind.mp looks
      rw [known] at looks
      obtain ⟨rfl, rfl⟩ := amid_pure.mp looks
      obtain ⟨_, v, tracks, sends⟩ := amid_bind.mp ends
      obtain ⟨missing, -⟩ | ⟨-, rfl⟩ := amid_doWhen.mp tracks
      · cases known.symm.trans missing
      · rcases sendOver_alone sends with kept | ⟨d, here', -, released⟩
        · exact absurd (kept.live.mpr there) gone
        · by_cases same : conn = k
          · subst same
            cases here.symm.trans here'
            exact released.peers
          · exact absurd ((released.heap conn).mpr ⟨same, there⟩) gone
  · replace ends := amid_modify_bind.mp ends
    obtain ⟨-, rfl⟩ := amid_pure.mp ends
    exact absurd there gone

def reportedPeer (s : State) (conn : ConnPtr) (c : Connection) : PeerId :=
  match s.virtualPeerConnections.listB.lookup conn with
  | none => c.otherPeer
  | some vpeer => if vpeer ≠ 0 then vpeer else c.otherPeer

theorem reportFrom_alone {ret : Int} {frompeer : PeerId}
    (ends : Amid (Alone env) (reportFrom ret conn) s frompeer t) : ∃ c,
      s.heap.lookup conn = some c ∧
        ((∀ k, k ∈ t.heap ↔ k ∈ s.heap) ∨
          Released s conn (reportedPeer s conn c) c.otherPeer t) := by
  obtain ⟨vpeer, u, asks, reports⟩ := amid_bind.mp ends
  have found : u = s ∧ ∀ c : Connection,
      (if vpeer ≠ 0 then vpeer else c.otherPeer) = reportedPeer s conn c := by
    replace asks := amid_get_bind.mp asks
    unfold reportedPeer
    cases known : s.virtualPeerConnections.listB.lookup conn with
    | none =>
      rw [known] at asks
      obtain ⟨rfl, rfl⟩ := amid_pure.mp asks
      exact ⟨rfl, fun c => if_neg fun h => h rfl⟩
    | some key =>
      rw [known] at asks
      obtain ⟨rfl, rfl⟩ := amid_pure.mp asks
      exact ⟨rfl, fun c => rfl⟩
  obtain ⟨rfl, reported⟩ := found
  obtain ⟨c, here, reports⟩ := amid_deref_bind.mp reports
  refine ⟨c, here, ?_⟩
  rw [← reported c]
  replace reports := amid_modify_bind.mp reports
  obtain ⟨_, v, tracks, last⟩ := amid_bind.mp reports
  obtain ⟨-, rfl⟩ := amid_pure.mp last
  unfold trackOrClose at tracks
  split at tracks
  · left
    rw [amid_modify.mp tracks]
    exact fun _ => Iff.rfl
  · right
    replace tracks := amid_modify_bind.mp tracks
    replace tracks := amid_modify_bind.mp tracks
    obtain ⟨peers, heap⟩ := released_of_close (s := { u with source := some conn }) here tracks
    exact ⟨peers, heap⟩

theorem recvfrom_releases {fuel : Nat} {length : UInt32} {channel : UInt8}
    {r : Int × PeerId × Bytes} (here : s.heap.lookup conn = some c) (gone : conn ∉ t.heap)
    (ends : Amid (Alone env) (humblenetP2PRecvfrom env fuel length channel) s r t) :
    t.p2pconnections = (s.p2pconnections.erase (reportedPeer s conn c)).erase c.otherPeer := by
  have there : conn ∈ s.heap := StdMap.mem_iff_lookup.mpr ⟨c, here⟩
  replace ends := amid_get_bind.mp ends
  split at ends
  · obtain ⟨⟨ret, from_, data⟩, u, receives, ends⟩ := amid_bind.mp ends
    have kept := bookless_datagramRecv _ _ _ _ _ _ _ receives
    have still := kept.live.mpr there
    cases from_ with
    | none =>
      obtain ⟨-, rfl⟩ := amid_pure.mp ends
      exact absurd still gone
    | some k =>
      dsimp only at ends
      split at ends
      · obtain ⟨-, rfl⟩ := amid_pure.mp ends
        exact absurd still gone
      · obtain ⟨frompeer, v, reports, ends⟩ := amid_bind.mp ends
        obtain ⟨-, rfl⟩ := amid_pure.mp ends
        obtain ⟨d, here', same | released⟩ := reportFrom_alone reports
        · exact absurd ((same conn).mpr still) gone
        · by_cases same : conn = k
          · subst same
            obtain ⟨d', there', -, peer⟩ := kept.lookup here
            cases here'.symm.trans there'
            have reported : reportedPeer u conn d = reportedPeer s conn c := by
              unfold reportedPeer
              rw [kept.virtual, peer]
            rw [released.peers, kept.peers, reported, peer]
          · exact absurd ((released.heap conn).mpr ⟨same, still⟩) gone
  · replace ends := amid_modify_bind.mp ends
    obtain ⟨-, rfl⟩ := amid_pure.mp ends
    exact absurd there gone

/-- The entries of the connection are removed, and no others. -/
def RemovesExactly (s : State) (conn : ConnPtr) (t : State) : Prop :=
  ∀ peer k, t.p2pconnections.lookup peer = some k ↔
    s.p2pconnections.lookup peer = some k ∧ k ≠ conn

/-- The ids hold no other connection, and the connection is held under no other id. -/
def HeldAlone (s : State) (conn : ConnPtr) (one other : PeerId) : Prop :=
  (∀ peer, peer = one ∨ peer = other → ∀ k, s.p2pconnections.lookup peer = some k → k = conn) ∧
    ∀ peer, s.p2pconnections.lookup peer = some conn → peer = one ∨ peer = other

/-- A call that lets a connection go removes exactly its entries just when the ids by which it
removes them are those of this connection alone. -/
theorem release_exact_iff (here : s.heap.lookup conn = some c) (gone : conn ∉ t.heap) :
    (∀ message topeer sendmode channel r,
      Amid (Alone env) (humblenetP2PSendto env message topeer sendmode channel) s r t →
      (RemovesExactly s conn t ↔ HeldAlone s conn c.otherPeer topeer)) ∧
    ∀ fuel length channel r,
      Amid (Alone env) (humblenetP2PRecvfrom env fuel length channel) s r t →
      (RemovesExactly s conn t ↔ HeldAlone s conn (reportedPeer s conn c) c.otherPeer) := by
  constructor
  · intro message topeer sendmode channel r ends
    unfold RemovesExactly
    rw [sendto_releases here gone ends]
    exact StdMap.erase_exact_iff _ _ _ _
  · intro fuel length channel r ends
    unfold RemovesExactly
    rw [recvfrom_releases here gone ends]
    exact StdMap.erase_exact_iff _ _ _ _

end

def sending (env : Externals) (topeer : PeerId) :
    Config Caller State Fault Query Query.Answer Unit → Option (State × State)
  | .running ⟨s, []⟩ =>
    ((humblenetP2PSendto env [1] topeer 1 0 s).answered
      fun q t => answers (fun _ _ => True) q t t).map fun r => (s, r.2.2)
  | _ => none

theorem amid_of_runs {α : Type} {env : Externals} {x : ClientM α} {s t : State} {log : ClientLog}
    {a : α} (ran : Runs x s log a t) : Amid (Alone env) x s a t := by
  refine Course.Ends.amid (fun q u b answer => ?_) ran
  cases q with
  | libwebrtcCloseConnection socket => exact .quiet u
  | _ => exact ⟨answer, rfl⟩

theorem sending_ends {env : Externals} {topeer : PeerId}
    {c : Config Caller State Fault Query Query.Answer Unit} {s t : State}
    (h : sending env topeer c = some (s, t)) : c = .running ⟨s, []⟩ ∧
      ∃ r, Amid (Alone env) (humblenetP2PSendto env [1] topeer 1 0) s r t := by
  unfold sending at h
  split at h
  · obtain ⟨r, ran, eq⟩ := Option.map_eq_some_iff.mp h
    cases eq
    refine ⟨rfl, r.2.1, ?_⟩
    have permitted : ∀ (q : Query) (u : State) (a : q.Answer),
        answers (fun _ _ => True) q u u = some a → q.Allowed u a u :=
      fun q u a answer => (answers_allowed env q u u a answer).1
    exact amid_of_runs (Course.ends_of_answered permitted ran)
  · cases h

/-- The only connection to peer 9 is lost, and the next message removes its entry. -/
theorem release_only : ∃ s t c, history welcome InOrder
      (introduction ++ [.sendto [1] 9 1 0, .webrtc 1 .disconnected]) = some (.running ⟨s, []⟩) ∧
    s.heap.lookup 1 = some c ∧ 1 ∉ t.heap ∧
    (∃ r, Amid (Alone welcome) (humblenetP2PSendto welcome [1] 9 1 0) s r t) ∧
    (RemovesExactly s 1 t ↔ HeldAlone s 1 c.otherPeer 9) := by
  have lost : ((history welcome InOrder (introduction ++ [.sendto [1] 9 1 0,
      .webrtc 1 .disconnected])).bind (sending welcome 9)).any (fun r =>
        (r.1.heap.lookup 1).isSome && decide (1 ∉ r.2.heap)) = true := by decide +kernel
  obtain ⟨⟨s, t⟩, sends, lost⟩ := (Option.any_eq_true _ _).mp lost
  obtain ⟨c, h, sends⟩ := Option.bind_eq_some_iff.mp sends
  obtain ⟨rfl, r, ends⟩ := sending_ends sends
  rw [Bool.and_eq_true, decide_eq_true_eq] at lost
  obtain ⟨c, here⟩ := Option.isSome_iff_exists.mp lost.1
  exact ⟨s, t, c, h, here, lost.2, ⟨r, ends⟩,
    (release_exact_iff here lost.2).1 [1] 9 1 0 r ends⟩

/-- One connection to peer 9 has been asked for by its id and one by its name; the second is
lost, and the next message to the name removes the entry of the first as well. -/
theorem release_drops : ∃ s t c d, history resolver InOrder (introduction ++ [.sendto [1] 9 1 0,
      .virtualPeerForAlias [65], .sendto [1] 0x80000001 1 0, .signal [1],
      .webrtc 2 .disconnected]) = some (.running ⟨s, []⟩) ∧
    TurnRun resolver InOrder (.running ⟨s, []⟩) ∧
    s.heap.lookup 2 = some c ∧ 2 ∉ t.heap ∧
    (∃ r, Amid (Alone resolver) (humblenetP2PSendto resolver [1] 0x80000001 1 0) s r t) ∧
    t.heap.lookup 1 = some d ∧ d.status ≠ .closed ∧ ¬ RemovesExactly s 2 t := by
  have lost : ((history resolver InOrder (introduction ++ [.sendto [1] 9 1 0,
      .virtualPeerForAlias [65], .sendto [1] 0x80000001 1 0, .signal [1],
      .webrtc 2 .disconnected])).bind (sending resolver 0x80000001)).any (fun r =>
        (r.1.heap.lookup 2).isSome && decide (2 ∉ r.2.heap) &&
          ((r.2.heap.lookup 1).any fun d => decide (d.status ≠ .closed)) &&
          decide (r.1.p2pconnections.lookup 9 = some 1) &&
          decide (r.2.p2pconnections.lookup 9 = none)) = true := by decide +kernel
  obtain ⟨⟨s, t⟩, sends, lost⟩ := (Option.any_eq_true _ _).mp lost
  obtain ⟨c, h, sends⟩ := Option.bind_eq_some_iff.mp sends
  obtain ⟨rfl, ends⟩ := sending_ends sends
  simp only [Bool.and_eq_true, decide_eq_true_eq] at lost
  obtain ⟨⟨⟨⟨live, gone⟩, other⟩, before⟩, after⟩ := lost
  obtain ⟨c, here⟩ := Option.isSome_iff_exists.mp live
  obtain ⟨d, there, alive⟩ := (Option.any_eq_true _ _).mp other
  refine ⟨s, t, c, d, h, turnRun_history _ h, here, gone, ends, there, of_decide_eq_true alive, ?_⟩
  intro exact_
  have kept := (exact_ 9 1).mpr ⟨before, by decide⟩
  cases after.symm.trans kept

end HumbleNet.Client
