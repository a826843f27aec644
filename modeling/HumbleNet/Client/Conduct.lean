import HumbleNet.Client.CoreConduct

/-! Every other program of the client acts as well, up to the events. -/
namespace HumbleNet.Client

open Guarded

variable {ok : Point → Tables → Prop} {scope : Scope} {α β : Type} {b s : State}
  (env : Externals)

/-! ### humblenet_alias.cpp -/

theorem acts_aliasRegister (name : Option Bytes) (guar : Evolves ok scope b.toTables s.toTables) :
    Acts ok scope b (internalAliasRegister env name s) := by
  unfold internalAliasRegister
  rcases name.map cStr with _ | _ | ⟨first, rest⟩
  · exact acts_quiet (quiet_setError _) guar fun _ _ g => acts_pure g
  · exact acts_quiet (quiet_setError _) guar fun _ _ g => acts_pure g
  · exact acts_sendP2PMessage env _ guar

theorem acts_aliasUnregister (name : Option Bytes)
    (guar : Evolves ok scope b.toTables s.toTables) :
    Acts ok scope b (internalAliasUnregister env name s) := by
  unfold internalAliasUnregister
  rcases name.map cStr with _ | _ | ⟨first, rest⟩
  · exact acts_sendP2PMessage env _ guar
  · exact acts_quiet (quiet_setError _) guar fun _ _ g => acts_pure g
  · exact acts_sendP2PMessage env _ guar

theorem quiet_aliasLookup (name : Bytes) : Quiet (internalAliasLookup name) := by
  apply quiet_get
  intro s
  split
  · exact quiet_pure _
  · exact quiet_bind (quiet_modify fun _ => rfl) fun _ => quiet_pure _

theorem acts_aliasResolvedTo (replies : scope.replies = true) (name : Bytes) (peer : PeerId)
    (guar : Evolves ok scope b.toTables s.toTables) :
    Acts ok scope b (internalAliasResolvedTo name peer s) := by
  apply acts_get
  cases pending : s.pendingAliasConnectionsOut.lookup name with
  | none => exact acts_pure guar
  | some conn =>
    apply acts_modify
    split
    · exact acts_connectionSetClosed (evolves_does guar (.unpend name replies))
    · unfold assign
      rw [bind_assoc]
      apply acts_deref
      intro c here
      apply acts_modifyTables
      apply acts_mark
      intro pends
      apply acts_modify
      have known : s.heap.lookup conn = some c := here
      have resolved := evolves_does guar (.resolve pending known peer pends replies)
      apply acts_quiet (quiet_isPeerBlacklisted peer) resolved
      intro blacklisted t g
      split
      · exact acts_quiet (quiet_setError _) g fun _ _ g => acts_connectionSetClosed g
      · apply acts_createWebrtc g
        intro socket u _
        apply acts_mark
        intro opening
        rw [bind_assoc]
        apply acts_deref
        intro c' _
        apply acts_modifyTables
        apply acts_unguarded (evolves_does evolves_refl (.openSocket conn socket opening replies))
        intro _ v _
        apply acts_deref
        intro d alive
        apply acts_mark
        intro adopts
        cases its : d.socket with
        | none => exact acts_fault fun _ => trivial
        | some socket =>
          apply acts_setData
          have adopted := evolves_does evolves_refl (.adopt alive its adopts replies)
          apply acts_bind (acts_createOffer (some socket) adopted)
          intro ret w
          exact acts_doWhen evolves_refl fun _ => acts_connectionSetClosed evolves_refl

theorem acts_aliasFindConnection (peers : scope.peers = true) (peer : PeerId)
    (guar : Evolves ok scope b.toTables s.toTables) :
    Acts ok scope b (internalAliasFindConnection peer s) := by
  unfold internalAliasFindConnection
  split
  · apply acts_get
    cases s.virtualPeerConnections.listA.lookup peer with
    | none => exact acts_pure guar
    | some conn =>
      apply acts_deref
      intro c _
      split
      · exact acts_modify (acts_pure (evolves_does guar (.unalias peer peers)))
      · exact acts_pure guar
  · exact acts_pure guar

theorem acts_aliasCreateConnection (peers : scope.peers = true) (peer : PeerId)
    (guar : Evolves ok scope b.toTables s.toTables) :
    Acts ok scope b (internalAliasCreateConnection env peer s) := by
  apply acts_bind (acts_aliasFindConnection peers peer guar)
  intro found t
  cases found with
  | some conn => exact acts_pure evolves_refl
  | none =>
    apply acts_get
    cases t.virtualPeerNames.listA.lookup peer with
    | none => exact acts_quiet (quiet_setError _) evolves_refl fun _ _ g => acts_pure g
    | some name =>
      apply acts_bind (acts_sendP2PMessage env _ evolves_refl)
      intro sent u
      split
      · unfold newConnection
        simp only [bind_assoc, pure_bind]
        apply acts_ask
        intro conn fresh _
        apply acts_mark
        intro passed
        apply acts_modify
        apply acts_modify
        apply acts_modify
        exact acts_pure (evolves_does evolves_refl (.createAlias fresh name peer passed peers))
      · exact acts_pure evolves_refl

/-! ### humblenet_p2p_signaling.cpp -/

theorem acts_processP2POffer (replies : scope.replies = true) (msg : Option P2POffer)
    (guar : Evolves ok scope b.toTables s.toTables) :
    Acts ok scope b (processP2POffer env msg s) := by
  apply acts_field
  intro p2p _
  apply acts_get
  split
  · exact acts_pure guar
  · apply acts_bind
    · apply acts_doWhen guar
      intro _
      apply acts_quiet (quiet_assert (a := .offerSignal) fun _ _ => trivial) guar
      intro _ t g
      exact acts_bind (acts_sendP2PMessage env _ g) fun _ _ => acts_pure evolves_refl
    · intro _ t
      apply acts_createWebrtc evolves_refl
      intro socket u new
      unfold newConnection
      simp only [bind_assoc, pure_bind]
      apply acts_ask
      intro conn fresh _
      apply acts_mark
      intro passed
      apply acts_modifyTables
      apply acts_mark
      intro pends
      cases socket with
      | none => exact acts_fault fun _ => trivial
      | some socket =>
      apply acts_setData
      apply acts_modify
      have invited : Evolves ok scope u.toTables _ :=
        evolves_does evolves_refl
          (.invite (c := { Connection.new .incoming with
              otherPeer := p2p.peerId, socket := some socket })
            fresh rfl rfl passed rfl rfl pends replies)
      have attached := evolves_does invited
        (.setData (AList.lookup_insert _) rfl rfl (new socket rfl))
      apply acts_field
      intro offer _
      apply acts_bind (acts_setOffer (some socket) _ attached)
      intro ret w
      refine acts_bind (acts_doWhen evolves_refl fun _ => ?_) fun _ _ => acts_pure evolves_refl
      apply acts_bind (acts_connectionClose evolves_refl)
      intro _ x
      exact acts_bind (acts_sendP2PMessage env _ evolves_refl) fun _ _ => acts_pure evolves_refl

theorem acts_processP2PAnswer (msg : Option P2PAnswer)
    (guar : Evolves ok scope b.toTables s.toTables) :
    Acts ok scope b (processP2PAnswer msg s) := by
  apply acts_field
  intro p2p _
  apply acts_mark
  intro passed
  apply acts_get
  cases pending : s.pendingPeerConnectionsOut.lookup p2p.peerId with
  | none => exact acts_pure guar
  | some conn =>
    apply acts_deref
    intro c here
    refine acts_assert ?_ fun no => ⟨s, guar, p2p.peerId, conn, c, pending, here, no⟩
    intro _
    refine acts_assert ?_ fun no =>
      ⟨s, guar, p2p.peerId, conn, c, pending, here, not_not.mp no⟩
    intro _
    refine acts_assert ?_ fun no => ⟨s, guar, p2p.peerId, conn, c, passed, pending, here, no⟩
    intro _
    apply acts_field
    intro offer _
    apply acts_bind (acts_setAnswer _ _ guar)
    intro ret t
    exact acts_bind (acts_doWhen evolves_refl fun _ => acts_connectionSetClosed evolves_refl)
      fun _ _ => acts_pure evolves_refl

theorem acts_processHelloClient (replies : scope.replies = true) (msg : Option HelloClient)
    (guar : Evolves ok scope b.toTables s.toTables) :
    Acts ok scope b (processHelloClient msg s) := by
  apply acts_field
  intro hello _
  apply acts_mark
  intro passed
  have greeted := evolves_does guar (.greet hello.peerId passed replies)
  apply acts_modify
  apply acts_get
  split
  · rename_i known
    rw [if_pos known] at greeted
    exact acts_pure greeted
  · rename_i unknown
    rw [if_neg unknown] at greeted
    apply acts_modify
    refine acts_quiet (quiet_get fun s => ?_) greeted fun _ _ g => acts_pure g
    split
    · exact quiet_fault fun _ _ => trivial
    · exact quiet_modify fun _ => rfl

theorem acts_processICECandidate (msg : Option ICECandidate)
    (guar : Evolves ok scope b.toTables s.toTables) :
    Acts ok scope b (processICECandidate msg s) := by
  apply acts_field
  intro ice _
  apply acts_get
  generalize (s.pendingPeerConnectionsIn.lookup ice.peerId <|>
    s.pendingPeerConnectionsOut.lookup ice.peerId) = found
  cases found with
  | none => exact acts_pure guar
  | some conn =>
    apply acts_quiet (quiet_deref conn) guar
    intro c t g
    cases c.socket with
    | none => exact acts_pure g
    | some socket =>
      cases c.status with
      | connecting =>
        apply acts_field
        intro offer _
        exact acts_bind (acts_addIceCandidate _ _ g) fun _ _ => acts_pure evolves_refl
      | closed => exact acts_pure g
      | connected => exact acts_pure g

theorem acts_processP2PReject (msg : Option P2PReject)
    (guar : Evolves ok scope b.toTables s.toTables) :
    Acts ok scope b (processP2PReject msg s) := by
  apply acts_field
  intro reject _
  apply acts_get
  cases s.pendingPeerConnectionsOut.lookup reject.peerId with
  | none => exact acts_pure guar
  | some conn =>
    apply acts_quiet (quiet_blacklistPeer _) guar
    intro _ t g
    exact acts_bind (acts_connectionSetClosed g) fun _ _ => acts_pure evolves_refl

theorem acts_findOtherPeer {peer : PeerId} {conns : List ConnPtr}
    {f : Option ConnPtr → ClientM β} (none_ : Acts ok scope b (f none s))
    (some_ : ∀ conn c, s.heap.lookup conn = some c → c.otherPeer = peer →
      Acts ok scope b (f (some conn) s)) :
    Acts ok scope b ((findOtherPeer peer conns >>= f) s) := by
  induction conns with
  | nil => exact none_
  | cons conn rest ih =>
    unfold findOtherPeer
    rw [bind_assoc]
    apply acts_deref
    intro c here
    split
    · exact some_ conn c here ‹_›
    · exact ih

theorem acts_processP2PRelayData (msg : Option P2PRelayData)
    (guar : Evolves ok scope b.toTables s.toTables) :
    Acts ok scope b (processP2PRelayData msg s) := by
  apply acts_field
  intro relay _
  apply acts_field
  intro data _
  apply acts_get
  apply acts_quiet (quiet_walk _) guar
  intro order t g
  apply acts_findOtherPeer
  · exact acts_pure g
  · intro conn c here _
    apply acts_mark
    intro passed
    apply acts_modifyTables
    apply acts_modify
    exact acts_pure (evolves_does g (.relay here passed))

theorem acts_signalProcess (replies : scope.replies = true) (msg : Message)
    (guar : Evolves ok scope b.toTables s.toTables) :
    Acts ok scope b (p2pSignalProcess env msg s) := by
  cases msg with
  | p2pOffer msg => exact acts_processP2POffer env replies msg guar
  | p2pAnswer msg => exact acts_processP2PAnswer msg guar
  | helloClient msg => exact acts_processHelloClient replies msg guar
  | iceCandidate msg => exact acts_processICECandidate msg guar
  | p2pReject msg => exact acts_processP2PReject msg guar
  | p2pConnected msg => exact acts_field fun _ _ => acts_pure guar
  | p2pDisconnect msg => exact acts_field fun _ _ => acts_pure guar
  | p2pRelayData msg => exact acts_processP2PRelayData msg guar
  | aliasResolved msg =>
    apply acts_field
    intro resolved _
    exact acts_bind (acts_aliasResolvedTo replies _ _ guar) fun _ _ => acts_pure evolves_refl
  | _ => exact acts_pure guar

theorem quiet_derefSignal (serial : Nat) : Quiet (derefSignal serial) := by
  apply quiet_get
  intro s
  cases s.p2pConn with
  | none => exact quiet_fault fun _ _ => trivial
  | some conn =>
    dsimp only
    split
    · exact quiet_pure conn
    · exact quiet_fault fun _ _ => trivial

theorem quiet_assignSignal (serial : Nat) (f : P2PSignalConnection → P2PSignalConnection) :
    Quiet (assignSignal serial f) :=
  quiet_bind (quiet_derefSignal serial) fun _ => quiet_modify fun _ => rfl

theorem quiet_resetSignal : Quiet resetSignal := quiet_modify fun _ => rfl

theorem acts_parseMessage {look : Bytes → Look} {recvBuf : ClientM Bytes}
    {erase : Nat → ClientM Unit} {overrun : ClientM Bool} {processFunc : Bytes → ClientM Bool}
    (hrecv : Quiet recvBuf) (herase : ∀ n, Quiet (erase n)) (hover : Quiet overrun)
    (hprocess : ∀ buff s, Acts ok scope s (processFunc buff s)) (fuel : Nat)
    (guar : Evolves ok scope b.toTables s.toTables) :
    Acts ok scope b (parseMessage look recvBuf erase overrun processFunc fuel s) := by
  induction fuel generalizing b s with
  | zero => exact acts_pure guar
  | succ fuel ih =>
    apply acts_quiet hrecv guar
    intro bytes t g
    cases look bytes with
    | wait => exact acts_pure g
    | refuse => exact acts_pure g
    | overrun => exact hover.acts g
    | message buff size =>
      apply acts_commit g
      apply acts_bind (hprocess buff t)
      intro accepted u
      split
      · exact acts_quiet (herase size) evolves_refl fun _ _ g => ih g
      · exact acts_pure evolves_refl

theorem acts_signalOnData (replies : scope.replies = true) (wsi : Wsi) (data : Bytes)
    (pastEnd : Bytes → Bytes) (fuel : Nat) :
    Acts ok scope s (signalOnData env wsi data pastEnd fuel s) := by
  apply acts_get
  cases s.p2pConn with
  | none => exact acts_pure evolves_refl
  | some conn =>
    dsimp only
    split
    · exact acts_pure evolves_refl
    · apply acts_quiet (quiet_assignSignal _ _) evolves_refl
      intro _ t g
      apply acts_bind
      · refine acts_parseMessage ?_ (fun _ => quiet_assignSignal _ _)
          (quiet_fault (e := .overrun) fun _ _ => trivial)
          (fun buff u => acts_signalProcess env replies (env.getMessage buff) evolves_refl) fuel g
        exact quiet_bind (quiet_derefSignal _) fun _ => quiet_pure _
      · intro retval u
        split
        · exact acts_pure evolves_refl
        · exact acts_quiet quiet_resetSignal evolves_refl fun _ _ g => acts_pure g

theorem acts_signalOnConnect (wsi : Wsi) : Acts ok scope s (signalOnConnect env wsi s) := by
  apply acts_get
  cases s.p2pConn with
  | none => exact acts_pure evolves_refl
  | some conn =>
    dsimp only
    split
    · exact acts_pure evolves_refl
    · apply acts_quiet (quiet_ask _) evolves_refl
      intro pinfo t g
      apply acts_quiet (quiet_ask _) g
      intro now u g
      apply acts_bind
      · unfold sendHelloServer
        split
        · exact acts_fault fun _ => trivial
        · exact acts_sendP2PMessage env _ g
      · intro sent v
        split
        · exact acts_pure evolves_refl
        · exact acts_quiet quiet_resetSignal evolves_refl fun _ _ g => acts_pure g

theorem acts_signalOnWritable (wsi : Wsi) : Acts ok scope s (signalOnWritable wsi s) := by
  apply acts_get
  cases s.p2pConn with
  | none => exact acts_pure evolves_refl
  | some conn =>
    dsimp only
    split
    · exact acts_pure evolves_refl
    split
    · exact acts_pure evolves_refl
    · apply acts_quiet (quiet_ask _) evolves_refl
      intro retval t g
      split
      · exact acts_quiet quiet_resetSignal g fun _ _ g => acts_pure g
      · exact acts_quiet (quiet_assignSignal _ _) g fun _ _ g => acts_pure g

theorem acts_signalOnDisconnect (wsi : Wsi) : Acts ok scope s (signalOnDisconnect wsi s) := by
  apply acts_get
  cases s.p2pConn with
  | none => exact acts_pure evolves_refl
  | some conn =>
    exact acts_quiet (quiet_doWhen quiet_resetSignal) evolves_refl fun _ _ g => acts_pure g

theorem acts_signalingConnect (guar : ∀ id, id = s.myPeerId ∨ id = 0 →
    Evolves ok scope b.toTables { s.toTables with myPeerId := id }) :
    Acts ok scope b (humblenetSignalingConnect s) := by
  apply acts_get
  apply acts_bind
  · apply acts_doWhen (guar s.myPeerId (Or.inl rfl))
    intro _
    exact acts_modify_last (guar 0 (Or.inr rfl))
  · intro _ t
    apply acts_get
    apply acts_quiet (quiet_ask _) evolves_refl
    intro wsi u g
    cases wsi with
    | none => exact acts_quiet (quiet_setError _) g fun _ _ g => acts_pure g
    | some wsi => exact acts_modify (acts_pure g)

/-! ### humblenet_datagram.cpp -/

theorem quiet_derefDatagram (conn : ConnPtr) : Quiet (derefDatagram conn) :=
  quiet_get fun _ => quiet_through (e := .dangling) (fun _ _ => trivial) _

section packets

variable (packets : scope.packets = true)

include packets

theorem acts_getMessage (conn : ConnPtr) (length : Nat) (flags channel : UInt8)
    (guar : Evolves ok scope b.toTables s.toTables) :
    Acts ok scope b (getMessage conn length flags channel s) := by
  apply acts_quiet (quiet_derefDatagram conn) guar
  intro dg t g
  apply acts_modifyTables
  exact acts_pure (evolves_does g (.updateDatagram conn _ (fun _ => rfl) packets))

theorem acts_datagramFlush (conn : ConnPtr)
    (guar : Evolves ok scope b.toTables s.toTables) :
    Acts ok scope b (datagramFlush env conn s) := by
  apply acts_quiet (quiet_derefDatagram conn) guar
  intro dg t g
  split
  · exact acts_pure g
  · apply acts_isWritable
    intro writable connected
    split
    · apply acts_bind (acts_connectionWrite env _ _ _ g (connected ‹_›))
      intro ret v
      apply acts_quiet (quiet_doWhen quiet_clearError) evolves_refl
      intro _ w g
      apply acts_quiet (quiet_derefDatagram conn) g
      intro _ x g
      exact acts_modifyTables_last (evolves_does g (.updateDatagram conn _ (fun _ => rfl) packets))
    · exact acts_pure g

theorem acts_insertDatagram (conn : ConnPtr)
    (guar : Evolves ok scope b.toTables s.toTables) :
    Acts ok scope b (insertDatagram conn s) := by
  apply acts_deref
  intro c here
  exact acts_modify_last (evolves_does guar (.insertDatagram here packets))

theorem acts_enqueue (conn : ConnPtr) (message : Bytes) (channel : UInt8)
    (guar : Evolves ok scope b.toTables s.toTables) :
    Acts ok scope b (enqueue conn message channel s) := by
  apply acts_quiet (quiet_derefDatagram conn) guar
  intro dg t g
  apply acts_quiet (quiet_ask _) g
  intro padding u g
  exact acts_modifyTables_last (evolves_does g (.updateDatagram conn _ (fun _ => rfl) packets))

theorem acts_flushOrQueue (flags : UInt8) (conn : ConnPtr)
    (guar : Evolves ok scope b.toTables s.toTables) :
    Acts ok scope b (flushOrQueue env flags conn s) := by
  apply acts_quiet (quiet_derefDatagram conn) guar
  intro dg v g
  split
  · exact acts_datagramFlush env packets conn g
  split
  · apply acts_mark
    exact fun _ => acts_datagramFlush env packets conn g
  · exact acts_modify_last (evolves_does g (.queue true packets))

theorem acts_datagramQueue (message : Bytes) (flags : UInt8) (conn : ConnPtr) (channel : UInt8)
    (guar : Evolves ok scope b.toTables s.toTables) :
    Acts ok scope b (datagramQueue env message flags conn channel s) := by
  apply acts_bind (acts_insertDatagram packets conn guar)
  intro _ t
  apply acts_bind (acts_enqueue packets conn message channel evolves_refl)
  intro _ u
  exact acts_bind (acts_flushOrQueue env packets flags conn evolves_refl)
    fun _ _ => acts_pure evolves_refl

theorem acts_datagramSend (message : Bytes) (flags : UInt8) (conn : ConnPtr) (channel : UInt8)
    (guar : Evolves ok scope b.toTables s.toTables) :
    Acts ok scope b (humblenetDatagramSend env message flags conn channel s) := by
  apply acts_quiet (quiet_deref conn) guar
  intro c t g
  cases c.status with
  | connecting =>
    dsimp only
    split
    · exact acts_datagramQueue env packets message flags conn channel g
    · exact acts_quiet (quiet_setError _) g fun _ _ g => acts_pure g
  | closed => exact acts_quiet (quiet_setError _) g fun _ _ g => acts_pure g
  | connected => exact acts_datagramQueue env packets message flags conn channel g

theorem acts_flushFrom (fuel : Nat) (key : Option ConnPtr)
    (guar : Evolves ok scope b.toTables s.toTables) :
    Acts ok scope b (flushFrom env fuel key s) := by
  induction fuel generalizing b s key with
  | zero =>
    cases key with
    | none => exact acts_pure guar
    | some key => exact acts_fault fun _ => trivial
  | succ fuel ih =>
    cases key with
    | none => exact acts_pure guar
    | some conn =>
      apply acts_mark
      intro _
      apply acts_bind (acts_datagramFlush env packets conn guar)
      intro _ t
      apply acts_quiet (quiet_derefDatagram conn) evolves_refl
      intro _ u g
      exact acts_get (ih _ g)

theorem acts_flushAll (fuel : Nat) (guar : Evolves ok scope b.toTables s.toTables) :
    Acts ok scope b (flushAll env fuel s) := by
  apply acts_get
  apply acts_bind (acts_flushFrom env packets fuel _ guar)
  exact fun _ t => acts_modify_last (evolves_does evolves_refl (.queue false packets))

theorem acts_drainFrom (length : Nat) (flags channel : UInt8) (fuel : Nat)
    (key : Option ConnPtr) (guar : Evolves ok scope b.toTables s.toTables) :
    Acts ok scope b (drainFrom length flags channel fuel key s) := by
  induction fuel generalizing b s key with
  | zero =>
    cases key with
    | none => exact acts_pure guar
    | some key => exact acts_fault fun _ => trivial
  | succ fuel ih =>
    cases key with
    | none => exact acts_pure guar
    | some conn =>
      apply acts_quiet (quiet_derefDatagram conn) guar
      intro dg t g
      apply acts_bind (acts_getMessage packets conn length flags channel g)
      rintro ⟨ret, data⟩ u
      dsimp only
      split
      · exact acts_pure evolves_refl
      · exact acts_get (ih _ evolves_refl)

theorem acts_receiveFrom (length : Nat) (flags channel : UInt8) (conn : ConnPtr)
    (guar : Evolves ok scope b.toTables s.toTables) :
    Acts ok scope b (receiveFrom length flags channel conn s) := by
  apply acts_bind (acts_insertDatagram packets conn guar)
  intro _ t
  apply acts_bind (acts_connectionReadAll conn 0 evolves_refl)
  rintro ⟨buf, retval⟩ u
  dsimp only
  split
  · apply acts_modify
    have erased : Evolves ok scope u.toTables _ :=
      evolves_does evolves_refl (.eraseDatagram conn packets)
    apply acts_quiet quiet_clearError erased
    intro _ v g
    apply acts_quiet (quiet_deref conn) g
    intro c w g
    split
    · exact acts_pure g
    · exact acts_pure g
  · apply acts_modifyTables
    apply acts_mark
    intro _
    apply acts_bind
    · apply acts_getMessage packets
      exact evolves_does evolves_refl (.updateDatagram conn _ (fun _ => rfl) packets)
    rintro ⟨ret, data⟩ v
    dsimp only
    split
    · exact acts_quiet (quiet_derefDatagram conn) evolves_refl fun _ _ g => acts_pure g
    · exact acts_pure evolves_refl

theorem acts_pollLoop (length : Nat) (flags channel : UInt8) (fuel : Nat)
    (guar : Evolves ok scope b.toTables s.toTables) :
    Acts ok scope b (pollLoop length flags channel fuel s) := by
  induction fuel generalizing b s with
  | zero => exact acts_fault fun _ => trivial
  | succ fuel ih =>
    apply acts_bind (acts_pollAll guar)
    intro found t
    cases found with
    | none => exact acts_pure evolves_refl
    | some conn =>
      apply acts_bind (acts_receiveFrom packets length flags channel conn evolves_refl)
      intro received u
      cases received with
      | none => exact ih evolves_refl
      | some received => exact acts_pure evolves_refl

theorem acts_acceptLoop (fuel : Nat) (guar : Evolves ok scope b.toTables s.toTables) :
    Acts ok scope b (acceptLoop fuel s) := by
  induction fuel generalizing b s with
  | zero => exact acts_fault fun _ => trivial
  | succ fuel ih =>
    apply acts_bind (acts_connectionAccept guar)
    intro found t
    cases found with
    | none => exact acts_pure evolves_refl
    | some conn =>
      apply acts_quiet (quiet_deref conn) evolves_refl
      intro c u g
      apply acts_bind (acts_doWhen g fun _ => acts_insertDatagram packets conn g)
      exact fun _ _ => ih evolves_refl

theorem acts_datagramRecv (fuel length : Nat) (flags channel : UInt8)
    (guar : Evolves ok scope b.toTables s.toTables) :
    Acts ok scope b (humblenetDatagramRecv env fuel length flags channel s) := by
  apply acts_get
  apply acts_bind (acts_doWhen guar fun _ => acts_flushAll env packets fuel guar)
  intro _ t
  apply acts_get
  apply acts_bind (acts_drainFrom packets length flags channel fuel _ evolves_refl)
  intro drained u
  cases drained with
  | some received => exact acts_pure evolves_refl
  | none =>
    apply acts_bind (acts_pollLoop packets length flags channel fuel evolves_refl)
    intro polled v
    cases polled with
    | some received => exact acts_pure evolves_refl
    | none =>
      exact acts_bind (acts_acceptLoop packets fuel evolves_refl) fun _ _ => acts_pure evolves_refl

theorem acts_humblenetDatagramFlush (fuel : Nat)
    (guar : Evolves ok scope b.toTables s.toTables) :
    Acts ok scope b (humblenetDatagramFlush env fuel s) := by
  apply acts_get
  split
  · exact acts_bind (acts_flushAll env packets fuel guar) fun _ _ => acts_pure evolves_refl
  · exact acts_pure guar

end packets

/-! ### humblenet_p2p.cpp -/

theorem acts_initGuard {otherwise : α} {call : ClientM α}
    (h : ∀ s : State, Acts ok scope s (call s)) : Acts ok scope s (initGuard otherwise call s) := by
  apply acts_get
  split
  · exact h s
  · exact acts_quiet (quiet_setError _) evolves_refl fun _ _ g => acts_pure g

theorem acts_p2pInit (server gameToken gameSecret authToken : Option Bytes) :
    Acts ok scope s (humblenetP2PInit server gameToken gameSecret authToken s) := by
  apply acts_get
  split
  · exact acts_pure evolves_refl
  split
  · apply acts_mark
    intro passed
    apply acts_modify
    apply acts_modify
    have register : Quiet internalP2PRegisterProtocol :=
      quiet_bind (quiet_ask _) fun _ => quiet_modify fun _ => rfl
    apply register
    intro _ t same
    refine acts_bind (acts_signalingConnect ?_) fun _ _ => acts_pure evolves_refl
    intro id known
    rw [same] at known ⊢
    exact evolves_does evolves_refl (.beginSession passed id known)
  · exact acts_quiet (quiet_setError _) evolves_refl fun _ _ g => acts_pure g

theorem acts_p2pShutdown (guar : Evolves ok scope b.toTables s.toTables) :
    Acts ok scope b (humblenetP2PShutdown s) := by
  apply acts_get
  apply acts_doWhen guar
  intro _
  apply acts_modify
  apply acts_unguarded guar
  exact fun _ _ _ => acts_modify_last evolves_refl

theorem acts_closeAll (fuel : Nat) (visited : List SocketPtr) (it : Option SocketPtr)
    (guar : Evolves ok scope b.toTables s.toTables) :
    Acts ok scope b (closeAll fuel visited it s) := by
  induction fuel generalizing b s visited it with
  | zero =>
    cases it with
    | none => exact acts_pure guar
    | some it => exact acts_fault fun _ => trivial
  | succ fuel ih =>
    cases it with
    | none => exact acts_pure guar
    | some it =>
      apply acts_get
      cases s.connections.lookup it with
      | none => exact acts_fault fun _ => trivial
      | some conn =>
        apply acts_get
        apply acts_quiet (quiet_walk _) guar
        intro order t g
        exact acts_bind (acts_connectionClose g) fun _ _ => ih _ _ evolves_refl

theorem acts_shutdown (fuel : Nat) : Acts ok scope s (humblenetShutdown fuel s) := by
  apply acts_get
  apply acts_quiet (quiet_walk _) evolves_refl
  intro order t g
  exact acts_bind (acts_closeAll fuel _ _ g) fun _ _ => acts_p2pShutdown evolves_refl

theorem acts_connectionTo (peers : scope.peers = true) (topeer : PeerId)
    (guar : Evolves ok scope b.toTables s.toTables) :
    Acts ok scope b (connectionTo env topeer s) := by
  apply acts_get
  cases s.p2pconnections.lookup topeer with
  | some conn => exact acts_pure guar
  | none =>
    dsimp only
    split
    · apply acts_bind (acts_aliasFindConnection peers topeer guar)
      intro found t
      cases found with
      | some conn => exact acts_pure evolves_refl
      | none => exact acts_aliasCreateConnection env peers topeer evolves_refl
    · exact acts_connectPeer topeer guar

theorem acts_sendOver {conn : ConnPtr} {message : Bytes} {topeer : PeerId}
    {sendmode channel : UInt8}
    (guar : ∀ c, s.heap.lookup conn = some c →
      Evolves ok Caller.application.scope b.toTables s.toTables) :
    Acts ok Caller.application.scope b (sendOver env conn message topeer sendmode channel s) := by
  apply acts_deref
  intro c here
  apply acts_bind (acts_datagramSend env rfl message _ conn channel (guar c here))
  intro ret t
  split
  · apply acts_quiet (quiet_deref conn) evolves_refl
    intro c u g
    split
    · apply acts_modify
      apply acts_modify
      have untracked := evolves_does (evolves_does g (.untrack c.otherPeer rfl)) (.untrack topeer rfl)
      apply acts_bind (acts_connectionClose untracked)
      intro _ v
      exact acts_quiet (quiet_setError _) evolves_refl fun _ _ g => acts_pure g
    · exact acts_pure g
  · exact acts_pure evolves_refl

theorem acts_sendto (message : Bytes) (topeer : PeerId) (sendmode channel : UInt8) :
    Acts ok Caller.application.scope s
      (humblenetP2PSendto env message topeer sendmode channel s) := by
  apply acts_initGuard
  intro s
  apply acts_get
  apply acts_bind (acts_connectionTo env rfl topeer evolves_refl)
  intro found t
  cases found with
  | none => exact acts_quiet (quiet_setError _) evolves_refl fun _ _ g => acts_pure g
  | some conn =>
    dsimp only
    unfold doWhen
    split
    · apply acts_modify
      apply acts_sendOver
      intro c here
      have known : t.heap.lookup conn = some c := here
      exact evolves_does evolves_refl (.track known topeer rfl)
    · rw [pure_bind]
      exact acts_sendOver env fun _ _ => evolves_refl

theorem acts_peek (packets : scope.packets = true) (fuel : Nat) (channel : UInt8) :
    Acts ok scope s (humblenetP2PPeek env fuel channel s) := by
  apply acts_initGuard
  intro s
  exact acts_bind (acts_datagramRecv env packets fuel 0 msgPeek channel evolves_refl)
    fun _ _ => acts_pure evolves_refl

theorem acts_trackOrClose (peers : scope.peers = true) {ret : Int} {conn : ConnPtr}
    {frompeer peer : PeerId} {c : Connection} (here : s.heap.lookup conn = some c)
    (guar : Evolves ok scope b.toTables s.toTables) :
    Acts ok scope b (trackOrClose ret conn frompeer peer s) := by
  unfold trackOrClose
  split
  · exact acts_modify_last (evolves_does guar (.track here frompeer peers))
  · apply acts_modify
    apply acts_modify
    have untracked := evolves_does guar (.untrack frompeer peers)
    exact acts_connectionClose (evolves_does untracked (.untrack peer peers))

theorem acts_reportFrom (peers : scope.peers = true) (ret : Int) (conn : ConnPtr)
    (guar : Evolves ok scope b.toTables s.toTables) :
    Acts ok scope b (reportFrom ret conn s) := by
  have quiet : Quiet (internalAliasGetVirtualPeer conn) := by
    apply quiet_get
    intro s
    split
    · exact quiet_pure _
    · exact quiet_pure _
  apply acts_quiet quiet guar
  intro vpeer t g
  apply acts_deref
  intro c here
  apply acts_modify
  refine acts_bind (acts_trackOrClose peers here ?_) fun _ _ => acts_pure evolves_refl
  exact evolves_does g (.report (some conn) t.told peers)

theorem acts_recvfrom (fuel : Nat) (length : UInt32) (channel : UInt8) :
    Acts ok Caller.application.scope s (humblenetP2PRecvfrom env fuel length channel s) := by
  apply acts_initGuard
  intro s
  apply acts_bind (acts_datagramRecv env rfl fuel _ 0 channel evolves_refl)
  rintro ⟨ret, conn, data⟩ t
  cases conn with
  | none => exact acts_pure evolves_refl
  | some conn =>
    dsimp only
    split
    · exact acts_pure evolves_refl
    · exact acts_bind (acts_reportFrom rfl ret conn evolves_refl) fun _ _ => acts_pure evolves_refl

theorem acts_tell (peers : scope.peers = true) (frompeer : PeerId) :
    Acts ok scope s (tell frompeer s) :=
  acts_modify_last (Relation.ReflTransGen.single (.report s.source _ peers))

theorem acts_disconnectFrom (fuel : Nat) (peer : Option PeerId)
    (guar : Evolves ok scope b.toTables s.toTables) :
    Acts ok scope b (disconnectFrom fuel peer s) := by
  induction fuel generalizing b s peer with
  | zero =>
    cases peer with
    | none => exact acts_pure guar
    | some peer => exact acts_fault fun _ => trivial
  | succ fuel ih =>
    cases peer with
    | none => exact acts_pure guar
    | some peer =>
      apply acts_get
      cases s.p2pconnections.lookup peer with
      | none => exact acts_fault fun _ => trivial
      | some conn =>
        apply acts_bind (acts_connectionSetClosed guar)
        intro _ t
        apply acts_get
        split
        · exact ih _ evolves_refl
        · exact acts_fault fun _ => trivial

theorem acts_disconnect (fuel : Nat) (peer : PeerId) :
    Acts ok scope s (humblenetP2PDisconnect fuel peer s) := by
  apply acts_initGuard
  intro s
  apply acts_get
  split
  · exact acts_bind (acts_disconnectFrom fuel _ evolves_refl) fun _ _ => acts_pure evolves_refl
  · cases s.p2pconnections.lookup peer with
    | none => exact acts_pure evolves_refl
    | some conn =>
      exact acts_bind (acts_connectionSetClosed evolves_refl) fun _ _ => acts_pure evolves_refl

/-! ### Events -/

theorem acts_webrtcProtocol (socket : SocketPtr) (reason : WebrtcReason) :
    Acts ok scope s (webrtcProtocol env socket reason s) := by
  apply acts_mark
  intro passed
  apply acts_derefSocket
  intro it there
  have unattached : it.userData = none → Unattached ok reason s.toTables :=
    fun absent => ⟨socket, it, passed, there, absent⟩
  have unexpected : ∀ {status}, ∀ conn ∈ it.userData, ∀ c, s.heap.lookup conn = some c →
      c.status ≠ status → Unexpected ok reason status s.toTables :=
    fun conn its c here wrong => ⟨socket, it, conn, c, passed, there, its, here, wrong⟩
  cases reason with
  | localDescription offer =>
    apply acts_onSdp env offer it.userData evolves_refl
    intro conn its c here wrong
    exact ⟨s, evolves_refl, offer, unexpected conn its c here wrong⟩
  | iceCandidate candidate => exact acts_onIceCandidate env candidate it.userData evolves_refl
  | established =>
    apply acts_modifyTables
    apply acts_onConnect socket (StdMap.mem_modify.mpr (StdMap.mem_iff_lookup.mpr ⟨it, there⟩))
      it.userData (evolves_does evolves_refl (.established socket passed))
    · exact fun absent => ⟨s, evolves_refl, Or.inl (unattached absent)⟩
    · intro conn its c here wrong
      exact ⟨s, evolves_refl, Or.inr (unexpected conn its c here wrong)⟩
  | disconnected =>
    apply acts_modifyTables
    apply acts_modifyTables
    have closing : Evolves ok scope s.toTables
        (s.updateSocket socket fun it => { it with closing := true }) :=
      evolves_does evolves_refl (.updateSocket socket _ (fun _ => rfl) fun _ => .inl rfl)
    apply acts_onDisconnect socket it.userData
    exact evolves_does closing
      (.updateSocket socket (fun it => { it with stage := .disconnected }) (fun _ => rfl)
        fun _ => .inr rfl)
  | channelAccepted =>
    apply acts_modifyTables
    have opened : AList.lookup socket (StdMap.modify socket
        (fun it : InternalSocket => { it with webrtcChannel := true }) s.sockets) =
          some { it with webrtcChannel := true } :=
      StdMap.lookup_modify_some.mpr ⟨it, there, if_pos rfl⟩
    apply acts_onChannel (a := .onAcceptChannel) { it with webrtcChannel := true } opened
    · exact evolves_does evolves_refl
        (.updateSocket socket (fun it => { it with webrtcChannel := true }) (fun _ => rfl)
          fun _ => .inl rfl)
    · exact fun absent => ⟨s, evolves_refl, Or.inl (unattached absent)⟩
    · intro conn its c here wrong
      exact ⟨s, evolves_refl, Or.inr (unexpected conn its c here wrong)⟩
  | channelConnected =>
    apply acts_onChannel (a := .onConnectChannel) it there evolves_refl
    · exact fun absent => ⟨s, evolves_refl, Or.inl (unattached absent)⟩
    · intro conn its c here wrong
      exact ⟨s, evolves_refl, Or.inr (unexpected conn its c here wrong)⟩
  | channelReceive data =>
    apply acts_onData data it.userData evolves_refl
    intro conn its c here wrong
    exact ⟨s, evolves_refl, data, unexpected conn its c here wrong⟩
  | channelClosed =>
    apply acts_modifyTables
    have flagged : Evolves ok scope s.toTables
        (s.updateSocket socket fun it => { it with webrtcChannel := false }) :=
      evolves_does evolves_refl (.updateSocket socket _ (fun _ => rfl) fun _ => .inl rfl)
    refine acts_bind (acts_doWhen flagged fun _ => ?_) fun _ _ => acts_pure evolves_refl
    exact acts_unguarded_last flagged
  | destroy =>
    apply acts_modify
    exact acts_pure (evolves_does evolves_refl (.destroy socket passed))

/-- Whatever happens to a client, its tables change by actions of the caller's kind. -/
theorem acts_handle (event : Event) :
    Acts ok event.caller.scope s (handle env event s) := by
  cases event with
  | init server gameToken gameSecret authToken =>
    exact acts_bind (acts_p2pInit _ _ _ _) fun _ _ => acts_pure evolves_refl
  | shutdown fuel => exact acts_shutdown fuel
  | registerAlias name =>
    exact acts_bind (acts_initGuard fun _ => acts_aliasRegister env name evolves_refl)
      fun _ _ => acts_pure evolves_refl
  | unregisterAlias name =>
    exact acts_bind (acts_initGuard fun _ => acts_aliasUnregister env name evolves_refl)
      fun _ _ => acts_pure evolves_refl
  | virtualPeerForAlias name =>
    exact acts_bind (acts_initGuard fun _ => (quiet_aliasLookup name).acts evolves_refl)
      fun _ _ => acts_pure evolves_refl
  | sendto message topeer sendmode channel =>
    exact acts_bind (acts_sendto env _ _ _ _) fun _ _ => acts_pure evolves_refl
  | peek fuel channel => exact acts_bind (acts_peek env rfl _ _) fun _ _ => acts_pure evolves_refl
  | recvfrom fuel length channel =>
    apply acts_modify
    refine acts_step (t := { s with source := none }) (.report none s.told rfl) ?_
    exact acts_bind (acts_recvfrom env _ _ _) fun _ _ => acts_tell rfl _
  | disconnect fuel peer =>
    exact acts_bind (acts_disconnect _ _) fun _ _ => acts_pure evolves_refl
  | setHint name value => exact acts_modify_last evolves_refl
  | connectionRead conn bufsize =>
    exact acts_bind (acts_connectionRead _ _ evolves_refl) fun _ _ => acts_pure evolves_refl
  | datagramSend message flags conn channel =>
    exact acts_bind (acts_datagramSend env rfl _ _ _ _ evolves_refl)
      fun _ _ => acts_pure evolves_refl
  | datagramRecv fuel length flags channel =>
    exact acts_bind (acts_datagramRecv env rfl _ _ _ _ evolves_refl)
      fun _ _ => acts_pure evolves_refl
  | datagramFlush fuel =>
    exact acts_bind (acts_humblenetDatagramFlush env rfl fuel evolves_refl)
      fun _ _ => acts_pure evolves_refl
  | signalConnect wsi =>
    exact acts_bind (acts_signalOnConnect env wsi) fun _ _ => acts_pure evolves_refl
  | signalData wsi data pastEnd fuel =>
    exact acts_bind (acts_signalOnData env rfl _ _ _ _) fun _ _ => acts_pure evolves_refl
  | signalWritable wsi =>
    exact acts_bind (acts_signalOnWritable wsi) fun _ _ => acts_pure evolves_refl
  | signalDisconnect wsi =>
    exact acts_bind (acts_signalOnDisconnect wsi) fun _ _ => acts_pure evolves_refl
  | webrtc socket reason =>
    exact acts_bind (acts_webrtcProtocol env socket reason) fun _ _ => acts_pure evolves_refl

end HumbleNet.Client
