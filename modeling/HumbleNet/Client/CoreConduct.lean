import HumbleNet.Client.Action

/-! The programs of `humblenet_core.cpp` act: their segments consist of the actions of `Does`. -/
namespace HumbleNet.Client

open Guarded

variable {ok : Point → Tables → Prop} {scope : Scope} {α β : Type} {b s : State}

theorem evolves_refl {t : Tables} : Evolves ok scope t t := Relation.ReflTransGen.refl

theorem evolves_does {r t u : Tables} (h : Evolves ok scope r t) (does : Does ok scope t u) :
    Evolves ok scope r u := Relation.ReflTransGen.tail h does

theorem acts_last {x : ClientM α} (h : Acts ok scope b ((x >>= pure) s)) :
    Acts ok scope b (x s) := by
  rw [bind_pure] at h
  exact h

/-! ### Programs that keep the lock and leave the tables alone -/

def Quiet (x : ClientM α) : Prop :=
  ∀ (ok : Point → Tables → Prop) (scope : Scope) (b s : State) (β : Type) (f : α → ClientM β),
    (∀ a t, t.toTables = s.toTables → Acts ok scope b (f a t)) → Acts ok scope b ((x >>= f) s)

theorem quiet_pure (a : α) : Quiet (pure a : ClientM α) := by
  intro ok scope b s β f h
  exact h a s rfl

theorem quiet_modify {g : State → State} (same : ∀ s, (g s).toTables = s.toTables) :
    Quiet (modify g : ClientM Unit) := by
  intro ok scope b s β f h
  exact h () (g s) (same s)

theorem quiet_bind {x : ClientM α} {g : α → ClientM β} (hx : Quiet x)
    (hg : ∀ a, Quiet (g a)) : Quiet (x >>= g) := by
  intro ok scope b s γ f h
  rw [bind_assoc]
  apply hx
  intro a t ht
  apply hg
  intro c u hu
  exact h c u (hu.trans ht)

theorem quiet_get {g : State → ClientM β} (hg : ∀ a, Quiet (g a)) : Quiet (get >>= g) :=
  quiet_bind (fun _ _ _ s _ _ h => h s s rfl) hg

theorem quiet_doWhen {c : Prop} [Decidable c] {x : ClientM Unit} (hx : Quiet x) :
    Quiet (doWhen c x) := by
  unfold doWhen
  split
  · exact hx
  · exact quiet_pure ()

theorem quiet_ask (q : Query) : Quiet (ask q : ClientM q.Answer) := by
  intro ok scope b s β f h
  exact acts_ask fun a _ _ => h a s rfl

theorem quiet_through {e : Fault} (free : ∀ (ok : Point → Tables → Prop) t, Blame ok e t)
    (o : Option α) : Quiet (through e o) := by
  intro ok scope b s β f h
  exact acts_through (free ok) fun a _ => h a s rfl

theorem quiet_deref (conn : ConnPtr) : Quiet (deref conn) :=
  quiet_get fun _ => quiet_through (e := .dangling) (fun _ _ => trivial) _

theorem quiet_derefSocket (socket : SocketPtr) : Quiet (derefSocket socket) :=
  quiet_get fun _ => quiet_through (e := .dangling) (fun _ _ => trivial) _

theorem quiet_setError (error : String) : Quiet (humblenetSetError error) :=
  quiet_modify fun _ => rfl

theorem quiet_clearError : Quiet humblenetClearError := quiet_modify fun _ => rfl

theorem quiet_fault {e : Fault} (free : ∀ (ok : Point → Tables → Prop) t, Blame ok e t) :
    Quiet (fault e : ClientM α) := by
  intro ok scope b s β f _
  exact ⟨b, evolves_refl, free ok b.toTables⟩

theorem quiet_blacklistPeer (peer : PeerId) : Quiet (blacklistPeer peer) :=
  quiet_bind (quiet_ask _) fun _ => quiet_modify fun _ => rfl

theorem quiet_isPeerBlacklisted (peer : PeerId) : Quiet (isPeerBlacklisted peer) := by
  apply quiet_get
  intro s
  split
  · exact quiet_pure false
  · apply quiet_bind (quiet_ask _)
    intro now
    exact quiet_bind (quiet_doWhen (quiet_modify fun _ => rfl)) fun _ => quiet_pure true

theorem quiet_canTryPeer (peer : PeerId) : Quiet (canTryPeer peer) := by
  apply quiet_get
  intro s
  split
  · exact quiet_bind (quiet_setError _) fun _ => quiet_pure false
  split
  · exact quiet_bind (quiet_setError _) fun _ => quiet_pure false
  split
  · exact quiet_bind (quiet_setError _) fun _ => quiet_pure false
  · apply quiet_bind (quiet_isPeerBlacklisted peer)
    intro blacklisted
    split
    · exact quiet_bind (quiet_setError _) fun _ => quiet_pure false
    · exact quiet_pure true

/-- An assertion for which `Blame` asks nothing of the tables. -/
theorem quiet_assert {c : Prop} [Decidable c] {a : Assertion}
    (free : ∀ (ok : Point → Tables → Prop) t, Blame ok (.assertion a) t) :
    Quiet (assert c a) := by
  unfold assert
  split
  · exact quiet_pure ()
  · exact quiet_fault free

theorem quiet_derefUnopened (socket : Option SocketPtr) : Quiet (derefUnopened socket) := by
  cases socket with
  | none => exact quiet_fault fun _ _ => trivial
  | some socket =>
    apply quiet_bind (quiet_derefSocket socket)
    intro it
    exact quiet_bind (quiet_assert fun _ _ => trivial) fun _ => quiet_pure socket

theorem Quiet.acts {x : ClientM α} (quiet : Quiet x)
    (guar : Evolves ok scope b.toTables s.toTables) : Acts ok scope b (x s) :=
  acts_last (quiet ok scope b s α pure fun _ _ ht => acts_pure (ht ▸ guar))

theorem acts_quiet {x : ClientM α} {f : α → ClientM β} (quiet : Quiet x)
    (guar : Evolves ok scope b.toTables s.toTables)
    (h : ∀ a t, Evolves ok scope b.toTables t.toTables → Acts ok scope b (f a t)) :
    Acts ok scope b ((x >>= f) s) :=
  quiet ok scope b s β f fun a t ht => h a t (ht ▸ guar)

/-! ### Sockets -/

theorem acts_setData {socket : SocketPtr} {userData : Option ConnPtr} {f : Unit → ClientM β}
    (h : Acts ok scope b (f () { s with
      toTables := s.toTables.updateSocket socket fun it => { it with userData := userData } })) :
    Acts ok scope b ((internalSetData (some socket) userData >>= f) s) := by
  unfold internalSetData
  rw [bind_assoc]
  apply acts_derefSocket
  intro _ _
  exact acts_modifyTables h

theorem acts_createWebrtc {f : Option SocketPtr → ClientM β}
    (guar : Evolves ok scope b.toTables s.toTables)
    (h : ∀ socket t, (∀ it ∈ socket, t.sockets.lookup it = some .new) →
      Acts ok scope t (f socket t)) :
    Acts ok scope b ((internalCreateWebrtc >>= f) s) := by
  unfold internalCreateWebrtc
  rw [bind_assoc]
  apply acts_get
  split
  · exact acts_fault fun _ => trivial
  split
  · simp only [bind_assoc, pure_bind]
    apply acts_unguarded guar
    intro _ t _
    apply acts_ask
    intro socket fresh _
    apply acts_modify
    refine acts_step (.createSocket fresh) (h (some socket) _ ?_)
    rintro _ ⟨⟩
    exact AList.lookup_insert _
  · simp only [bind_assoc, pure_bind]
    apply acts_unguarded guar
    intro _ t _
    exact h none t fun _ none_ => by cases none_

theorem acts_createOffer (socket : Option SocketPtr)
    (guar : Evolves ok scope b.toTables s.toTables) :
    Acts ok scope b (internalCreateOffer socket s) :=
  acts_quiet (quiet_derefUnopened socket) guar fun _ _ g => acts_unguarded_last g

theorem acts_setOffer (socket : Option SocketPtr) (offer : Bytes)
    (guar : Evolves ok scope b.toTables s.toTables) :
    Acts ok scope b (internalSetOffer socket offer s) :=
  acts_quiet (quiet_derefUnopened socket) guar fun _ _ g => acts_unguarded_last g

theorem acts_setAnswer (socket : Option SocketPtr) (offer : Bytes)
    (guar : Evolves ok scope b.toTables s.toTables) :
    Acts ok scope b (internalSetAnswer socket offer s) :=
  acts_quiet (quiet_derefUnopened socket) guar fun _ _ g => acts_unguarded_last g

theorem acts_addIceCandidate (socket : SocketPtr) (candidate : Bytes)
    (guar : Evolves ok scope b.toTables s.toTables) :
    Acts ok scope b (internalAddIceCandidate socket candidate s) :=
  acts_quiet (quiet_derefSocket socket) guar fun _ _ g => acts_unguarded_last g

theorem acts_writeSocket (socket : Option SocketPtr) (buf : Bytes)
    (guar : Evolves ok scope b.toTables s.toTables) :
    Acts ok scope b (internalWriteSocket socket buf s) := by
  cases socket with
  | none => exact acts_fault fun _ => trivial
  | some socket =>
    apply acts_quiet (quiet_derefSocket socket) guar
    intro it t g
    split
    · exact acts_unguarded_last g
    · exact acts_unguarded g fun _ _ _ => acts_pure evolves_refl

theorem acts_internalCloseSocket (socket : SocketPtr)
    (guar : Evolves ok scope b.toTables s.toTables) :
    Acts ok scope b (internalCloseSocket socket s) := by
  apply acts_quiet (quiet_derefSocket socket) guar
  intro it t g
  split
  · exact acts_unguarded_last g
  · apply acts_modifyTables
    exact acts_unguarded_last (evolves_does g (.updateSocket socket _ (fun _ => rfl) fun _ => .inl rfl))

theorem acts_createChannel (socket : SocketPtr) (name : Bytes)
    (guar : Evolves ok scope b.toTables s.toTables) :
    Acts ok scope b (internalCreateChannel socket name s) := by
  apply acts_quiet (quiet_derefUnopened _) guar
  intro socket t g
  apply acts_ask
  intro channel _ _
  apply acts_modifyTables
  exact acts_pure (evolves_does g (.updateSocket socket _ (fun _ => rfl) fun _ => .inl rfl))

theorem acts_sendP2PMessage (env : Externals) (msg : Message)
    (guar : Evolves ok scope b.toTables s.toTables) :
    Acts ok scope b (sendP2PMessage env msg s) := by
  apply acts_get
  cases s.p2pConn with
  | none => exact acts_pure guar
  | some conn =>
    dsimp only
    cases conn.wsi with
    | none => exact acts_pure guar
    | some wsi => exact acts_unguarded guar fun _ _ _ => acts_pure evolves_refl

/-! ### Closing -/

theorem unplug_of_unplugged {conn : ConnPtr} {c : Connection} {t : Tables}
    (here : t.heap.lookup conn = some c) (socket : c.socket = none) : t.unplug conn = t := by
  have heap : StdMap.modify conn (fun c => { c with socket := none }) t.heap = t.heap := by
    apply StdMap.modify_same
    intro v hv
    cases here.symm.trans hv
    rw [← socket]
  unfold Tables.unplug Tables.updateConnection
  rw [heap]

theorem close_of_unplugged (conn : ConnPtr) (t : Tables) :
    ((t.unplug conn).updateConnection conn fun c => { c with status := .closed }).unlist conn =
      t.close conn := by
  unfold Tables.close Tables.unplug Tables.updateConnection
  simp only [StdMap.modify_modify]

theorem acts_markClosed {conn : ConnPtr} {deleted : Bool} {f : Unit → ClientM β} {c : Connection}
    (here : s.heap.lookup conn = some c)
    (h : ∀ t : State, ok (.setClosed conn c.recvBuffer deleted) s.toTables →
      t.toTables = (s.updateConnection conn fun c => { c with status := .closed }).unlist conn →
      Acts ok scope b (f () t)) :
    Acts ok scope b ((do
      let c ← deref conn
      doWhen (c.inOrOut = .incoming) (blacklistPeer c.otherPeer)
      mark (.setClosed conn c.recvBuffer deleted)
      modifyTables fun s => s.updateConnection conn fun c => { c with status := .closed }
      modifyTables fun s => s.unlist conn
      f () : ClientM β) s) := by
  apply acts_deref
  intro c' here'
  rw [here] at here'
  cases here'
  apply quiet_doWhen (quiet_blacklistPeer _)
  intro _ t same
  apply acts_mark
  intro passed
  apply acts_modifyTables
  apply acts_modifyTables
  rw [same] at passed
  refine h _ passed ?_
  change (t.toTables.updateConnection _ _).unlist conn = _
  rw [same]

theorem acts_setClosed_bind {conn : ConnPtr} {deleted : Bool} {f : Unit → ClientM β}
    (guar : Evolves ok scope b.toTables s.toTables)
    (h : ∀ (t u : State) (c : Connection), u.heap.lookup conn = some c →
      ok (.setClosed conn c.recvBuffer deleted) (u.toTables.unplug conn) →
      t.toTables = u.toTables.close conn → Acts ok scope u (f () t)) :
    Acts ok scope b ((setClosed conn deleted >>= f) s) := by
  unfold setClosed closeSocket
  simp only [bind_assoc]
  apply acts_deref
  intro c here
  cases closed : c.socket with
  | none =>
    rw [pure_bind]
    apply acts_commit guar
    apply acts_markClosed here
    intro t passed same
    have unplugged := unplug_of_unplugged here closed
    rw [← unplugged] at passed same
    exact h t s c here passed (same.trans (close_of_unplugged conn s.toTables))
  | some socket =>
    simp only [bind_assoc]
    apply acts_modify
    apply acts_setData
    have cleared : Evolves ok scope b.toTables
        (({ s.toTables with connections := s.connections.erase socket } : Tables).updateSocket
          socket fun it => { it with userData := none }) :=
      evolves_does (evolves_does guar (.detach socket)) (.clearData socket)
    apply acts_bind (acts_internalCloseSocket socket cleared)
    intro _ u
    unfold assign
    rw [bind_assoc]
    apply acts_deref
    intro c' here'
    apply acts_modifyTables
    apply acts_markClosed (c := { c' with socket := none })
    · change AList.lookup conn (StdMap.modify conn _ u.heap) = _
      rw [StdMap.lookup_modify, if_pos rfl, here', Option.map_some]
    · intro t passed same
      exact h t u c' here' passed (same.trans (close_of_unplugged conn u.toTables))

theorem acts_connectionSetClosed {conn : ConnPtr} (guar : Evolves ok scope b.toTables s.toTables) :
    Acts ok scope b (humblenetConnectionSetClosed conn s) := by
  apply acts_last
  apply acts_setClosed_bind guar
  intro t u c here passed same
  apply acts_pure
  rw [same]
  exact Relation.ReflTransGen.single (.close here passed)

theorem acts_connectionClose {conn : ConnPtr} (guar : Evolves ok scope b.toTables s.toTables) :
    Acts ok scope b (humblenetConnectionClose conn s) := by
  apply acts_setClosed_bind guar
  intro t u c here closes same
  apply acts_modify
  apply acts_modify
  apply acts_mark
  intro passed
  have released : ({ t.toTables with
      virtualPeerConnections := t.virtualPeerConnections.eraseB conn
      remoteClosedConnections := StdSet.erase conn t.remoteClosedConnections } : Tables) =
      u.toTables.release conn := by
    rw [same]
    rfl
  rw [released] at passed
  refine acts_modify_last (Relation.ReflTransGen.single ?_)
  have deleted : ({ t.toTables with
      virtualPeerConnections := t.virtualPeerConnections.eraseB conn
      remoteClosedConnections := StdSet.erase conn t.remoteClosedConnections
      heap := t.heap.erase conn } : Tables) = u.toTables.delete conn := by
    rw [same]
    rfl
  change Does ok scope u.toTables _
  rw [deleted]
  exact .delete here closes passed

/-! ### humblenet_core.cpp -/

variable (env : Externals)

theorem acts_isWritable {conn : ConnPtr} {f : Bool → ClientM β}
    (h : ∀ writable, (writable = true → ∀ c, s.heap.lookup conn = some c →
      c.status = .connected) → Acts ok scope b (f writable s)) :
    Acts ok scope b ((humblenetConnectionIsWritable conn >>= f) s) := by
  unfold humblenetConnectionIsWritable
  rw [bind_assoc]
  apply acts_deref
  intro c here
  split
  · apply h
    intro _ c' here'
    cases here.symm.trans here'
    assumption
  · apply h
    intro writable
    cases writable

theorem acts_connectionWrite (conn : ConnPtr) (buf : Bytes) (bufsize : UInt32)
    (guar : Evolves ok scope b.toTables s.toTables)
    (connected : ∀ c, s.heap.lookup conn = some c → c.status = .connected) :
    Acts ok scope b (humblenetConnectionWrite env conn buf bufsize s) := by
  apply acts_deref
  intro c here
  rw [connected c here]
  apply acts_assert
  · intro _
    apply acts_get
    split
    · apply acts_bind (acts_sendP2PMessage env _ guar)
      intro sent v
      split
      · exact acts_pure evolves_refl
      · exact acts_pure evolves_refl
    · exact acts_writeSocket _ _ guar
  · intro no
    exact ⟨s, guar, conn, c, here, connected c here, not_not.mp no⟩

theorem acts_connectionRead (conn : ConnPtr) (bufsize : UInt32)
    (guar : Evolves ok scope b.toTables s.toTables) :
    Acts ok scope b (humblenetConnectionRead conn bufsize s) := by
  apply acts_mark
  intro passed
  apply acts_deref
  intro c here
  have blame : ¬ (c.status = .closed ↔ c.socket = none) →
      ∃ u : State, Evolves ok scope b.toTables u.toTables ∧
        Blame ok (.assertion .connectionRead) u.toTables :=
    fun wrong => ⟨s, guar, conn, c, passed, here, wrong⟩
  cases status : c.status with
  | closed =>
    apply acts_assert
    · exact fun _ => acts_pure guar
    · exact fun no => blame fun agree => no (agree.mp status)
  | connecting =>
    apply acts_assert
    · exact fun _ => acts_pure guar
    · intro no
      refine blame fun agree => ?_
      rw [status] at agree
      cases agree.mpr (not_not.mp no)
  | connected =>
    apply acts_assert
    · intro _
      split
      · exact acts_pure guar
      · apply acts_modifyTables
        apply acts_modify
        exact acts_pure (evolves_does guar (.read here _))
    · intro no
      refine blame fun agree => ?_
      rw [status] at agree
      cases agree.mpr (not_not.mp no)

theorem acts_connectPeer (peer : PeerId) (guar : Evolves ok scope b.toTables s.toTables) :
    Acts ok scope b (humblenetConnectPeer peer s) := by
  apply acts_quiet (quiet_canTryPeer peer) guar
  intro yes t g
  split
  · apply acts_createWebrtc g
    intro socket u new
    unfold newConnection
    simp only [bind_assoc, pure_bind]
    apply acts_ask
    intro conn fresh _
    apply acts_mark
    intro passed
    apply acts_modifyTables
    apply acts_mark
    intro pends
    cases socket with
    | none => exact acts_fault fun _ => trivial
    | some socket =>
      apply acts_setData
      apply acts_modify
      have dialed : Evolves ok scope u.toTables _ :=
        evolves_does evolves_refl
          (.dial (c := { Connection.new .outgoing with otherPeer := peer, socket := some socket })
            fresh rfl rfl (Option.some_ne_none socket) rfl passed rfl pends)
      have attached := evolves_does dialed
        (.setData (AList.lookup_insert _) rfl rfl (new socket rfl))
      apply acts_bind (acts_createOffer (some socket) attached)
      intro done w
      split
      · exact acts_pure evolves_refl
      · apply acts_quiet (quiet_setError _) evolves_refl
        intro _ x g
        exact acts_bind (acts_connectionClose g) fun _ _ => acts_pure evolves_refl
  · exact acts_pure g

theorem quiet_walk (elements : List ConnPtr) : Quiet (walk elements) := quiet_ask _

theorem acts_connectionReadAll (conn : ConnPtr) (retval : Int)
    (guar : Evolves ok scope b.toTables s.toTables) :
    Acts ok scope b (humblenetConnectionReadAll conn retval s) := by
  apply acts_deref
  intro c here
  split
  · exact acts_pure guar
  split
  · rename_i empty
    apply acts_get
    apply acts_assert
    · intro _
      split
      · exact acts_quiet (quiet_setError _) guar fun _ _ g => acts_pure g
      · exact acts_pure guar
    · intro listed
      exact ⟨s, guar, conn, c, here, not_not.mp listed, List.isEmpty_iff.mp empty⟩
  · rename_i full
    apply acts_ask
    intro got _ _
    cases got with
    | false => exact acts_quiet (quiet_setError _) guar fun _ _ g => acts_pure g
    | true =>
      apply acts_modifyTables
      apply acts_get
      apply acts_assert
      · intro _
        exact acts_modify (acts_pure (evolves_does guar (.read here [])))
      · intro unlisted
        refine ⟨s, guar, conn, c, here, unlisted, fun empty => ?_⟩
        exact full (List.isEmpty_iff.mpr empty)

theorem acts_firstPendingData (guar : Evolves ok scope b.toTables s.toTables) :
    Acts ok scope b (firstPendingData s) := by
  apply acts_get
  apply acts_ask
  intro order perm _
  cases order with
  | nil => exact acts_pure guar
  | cons conn rest =>
    apply acts_deref
    intro c here
    apply acts_assert
    · exact fun _ => acts_pure guar
    · intro empty
      have listed : conn ∈ s.pendingDataConnections :=
        (List.Perm.mem_iff perm).mp List.mem_cons_self
      exact ⟨s, guar, conn, c, here, listed, not_not.mp empty⟩

theorem acts_pollAll (guar : Evolves ok scope b.toTables s.toTables) :
    Acts ok scope b (humblenetPollAll s) := by
  apply acts_get
  apply acts_quiet (quiet_walk _) guar
  intro order t g
  cases order with
  | cons conn rest => exact acts_modify (acts_pure (evolves_does g (.pollClosed conn)))
  | nil =>
    apply acts_bind (acts_firstPendingData g)
    intro found u
    cases found with
    | some conn => exact acts_pure evolves_refl
    | none => exact acts_firstPendingData evolves_refl

theorem acts_connectionAccept (guar : Evolves ok scope b.toTables s.toTables) :
    Acts ok scope b (humblenetConnectionAccept s) := by
  apply acts_get
  apply acts_quiet (quiet_walk _) guar
  intro order t g
  cases order with
  | cons conn rest => exact acts_modify (acts_pure (evolves_does g (.accept conn)))
  | nil => exact acts_pure g

def Excuse (ok : Point → Tables → Prop) (scope : Scope) (b : State) (a : Assertion) : Prop :=
  ∃ u : State, Evolves ok scope b.toTables u.toTables ∧ Blame ok (.assertion a) u.toTables

theorem acts_onSdp (offer : Bytes) (userData : Option ConnPtr)
    (guar : Evolves ok scope b.toTables s.toTables)
    (wrong : ∀ conn ∈ userData, ∀ c, s.heap.lookup conn = some c → c.status ≠ .connecting →
      Excuse ok scope b .onSdp) : Acts ok scope b (onSdp env offer userData s) := by
  cases userData with
  | none => exact acts_pure guar
  | some conn =>
    apply acts_deref
    intro c here
    apply acts_assert
    · intro _
      cases c.inOrOut with
      | incoming =>
        exact acts_bind (acts_sendP2PMessage env _ guar) fun _ _ => acts_pure evolves_refl
      | outgoing =>
        exact acts_bind (acts_sendP2PMessage env _ guar) fun _ _ => acts_pure evolves_refl
    · exact wrong conn rfl c here

theorem acts_onIceCandidate (offer : Bytes) (userData : Option ConnPtr)
    (guar : Evolves ok scope b.toTables s.toTables) :
    Acts ok scope b (onIceCandidate env offer userData s) := by
  cases userData with
  | none => exact acts_pure guar
  | some conn =>
    apply acts_quiet (quiet_deref conn) guar
    intro c t g
    apply acts_quiet (quiet_assert (a := .onIceCandidate) fun _ _ => trivial) g
    intro _ u g
    exact acts_bind (acts_sendP2PMessage env _ g) fun _ _ => acts_pure evolves_refl

theorem acts_onConnect (socket : SocketPtr) (there : socket ∈ s.sockets)
    (userData : Option ConnPtr) (guar : Evolves ok scope b.toTables s.toTables)
    (absent : userData = none → Excuse ok scope b .onConnect)
    (wrong : ∀ conn ∈ userData, ∀ c, s.heap.lookup conn = some c → c.status ≠ .connecting →
      Excuse ok scope b .onConnect) :
    Acts ok scope b (onConnect socket userData s) := by
  cases userData with
  | none => exact absent rfl
  | some conn =>
    apply acts_modify
    apply acts_deref
    intro c here
    apply acts_assert
    · intro status
      have known : s.heap.lookup conn = some c := here
      have attached := evolves_does guar (.attach known status socket there)
      cases c.inOrOut with
      | incoming => exact acts_pure attached
      | outgoing =>
        apply acts_bind (acts_createChannel socket dataChannel attached)
        exact fun channel t => acts_pure evolves_refl
    · exact wrong conn rfl c here

theorem acts_onChannel {a : Assertion} {socket : SocketPtr} (it : InternalSocket)
    (there : s.sockets.lookup socket = some it)
    (guar : Evolves ok scope b.toTables s.toTables)
    (absent : it.userData = none → Excuse ok scope b a)
    (wrong : ∀ conn ∈ it.userData, ∀ c, s.heap.lookup conn = some c → c.status ≠ .connecting →
      Excuse ok scope b a) :
    Acts ok scope b ((do
      reach socket .opened
      onChannel a it.userData : ClientM Int) s) := by
  apply acts_modifyTables
  cases its : it.userData with
  | none => exact absent its
  | some conn =>
    apply acts_deref
    intro c here
    apply acts_assert
    · intro status
      apply acts_mark
      intro passed
      apply acts_modifyTables
      exact acts_pure (evolves_does guar (.connected here status there its passed))
    · exact wrong conn its c here

theorem acts_onData (data : Bytes) (userData : Option ConnPtr)
    (guar : Evolves ok scope b.toTables s.toTables)
    (wrong : ∀ conn ∈ userData, ∀ c, s.heap.lookup conn = some c → c.status ≠ .connected →
      Excuse ok scope b .onData) : Acts ok scope b (onData data userData s) := by
  cases userData with
  | none => exact acts_pure guar
  | some conn =>
    apply acts_deref
    intro c here
    apply acts_assert
    · intro _
      apply acts_mark
      intro passed
      have received := evolves_does guar (.receive here passed)
      by_cases empty : c.recvBuffer = []
      · rw [if_pos empty] at received
        unfold doWhen
        rw [if_pos empty, bind_assoc]
        apply acts_get
        rw [bind_assoc]
        apply acts_assert
        · exact fun _ => acts_modify (acts_modifyTables (acts_pure received))
        · intro listed
          exact ⟨s, guar, conn, c, here, not_not.mp listed, empty⟩
      · rw [if_neg empty] at received
        unfold doWhen
        rw [if_neg empty, pure_bind]
        exact acts_modifyTables (acts_pure received)
    · exact wrong conn rfl c here

theorem acts_onDisconnect (socket : SocketPtr) (userData : Option ConnPtr)
    (guar : Evolves ok scope b.toTables s.toTables) :
    Acts ok scope b (onDisconnect socket userData s) := by
  apply acts_get
  cases s.connections.lookup socket with
  | some conn =>
    exact acts_bind (acts_connectionSetClosed guar) fun _ _ => acts_pure evolves_refl
  | none =>
    cases userData with
    | some conn =>
      exact acts_bind (acts_connectionSetClosed guar) fun _ _ => acts_pure evolves_refl
    | none => exact acts_pure guar

end HumbleNet.Client
