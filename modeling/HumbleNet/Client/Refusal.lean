import HumbleNet.Client.FailedSend

/-! An offer that is refused, and what handling it leaves behind. -/
namespace HumbleNet.Client

open Guarded

abbrev ClientResult (α : Type) := Except Fault α

def refusal (peer : PeerId) : Message := .p2pReject (some ⟨peer, rejectPeerRefused⟩)

def Unwritten (q : Query) : Prop := ∀ wsi buf, q ≠ .libwebsocketWrite wsi buf

/-- A `PeerRefused` for the peer is written to the server. -/
def Refuses (env : Externals) (peer : PeerId) (log : ClientLog) : Prop :=
  ∃ call ∈ log, ∃ wsi, call.1 = .libwebsocketWrite wsi (frame env (refusal peer))

/-- The call ends, nothing but the refusal is written, the tables are as before, and a socket
that was not there before is closed and belongs to no connection. -/
structure Withdrawn (env : Externals) (s : State) (peer : PeerId) (log : ClientLog)
    (r : ClientResult Bool) (t : State) : Prop where
  returns : r = .ok true
  refuses : ∀ call ∈ log, ∀ wsi buf, call.1 = .libwebsocketWrite wsi buf →
    buf = frame env (refusal peer)
  tables : SameTables s t
  kept : ∀ k ∈ s.sockets, t.sockets.lookup k = s.sockets.lookup k
  closed : ∀ k, k ∉ s.sockets → ∀ it, t.sockets.lookup k = some it →
    it.userData = none ∧ it.closing = true

def Accepting (env : Externals) : (q : Query) → State → q.Answer → State → Prop
  | .libwebrtcSetOffer socket offer, s, ret, t =>
    ret = true ∧ Alone env (.libwebrtcSetOffer socket offer) s ret t
  | q, s, a, t => Alone env q s a t

/-- However handling the offer goes, when it refuses the peer it leaves nothing behind, and
without WebRTC it does nothing else. -/
def LeavesNothing (env : Externals) (s : State) (p2p : P2POffer) : Prop :=
  ∀ log r t, Plays (Alone env) (processP2POffer env (some p2p)) s log r t →
    Refuses env p2p.peerId log →
    Withdrawn env s p2p.peerId log r t ∧
      (s.webRTCSupported = false → ∀ call ∈ log, ¬ Unwritten call.1)

section

variable {env : Externals} {s t u v w : State} {log : ClientLog} {p2p : P2POffer} {peer : PeerId}
  {α β : Type}

/-! ### The calls that are made -/

theorem only_through {p : Query → Prop} (e : Fault) (o : Option α) : Only p (through e o) := by
  cases o with
  | none => exact only_fault e
  | some a => exact only_pure a

theorem only_deref {p : Query → Prop} (conn : ConnPtr) : Only p (deref conn) :=
  only_get fun _ => only_through _ _

theorem only_derefSocket {p : Query → Prop} (socket : SocketPtr) : Only p (derefSocket socket) :=
  only_get fun _ => only_through _ _

theorem only_assert {p : Query → Prop} {c : Prop} [Decidable c] (a : Assertion) :
    Only p (assert c a) := by
  unfold assert
  split
  · exact only_pure _
  · exact only_fault _

theorem only_assign {p : Query → Prop} (conn : ConnPtr) (f : Connection → Connection) :
    Only p (assign conn f) :=
  only_bind (only_deref conn) fun _ => only_modify _

theorem only_mark {p : Query → Prop} {point : Point} (may : p (.mark point)) :
    Only p (mark point) := only_ask may

theorem unwritten_createWebrtc : Only Unwritten internalCreateWebrtc := by
  apply only_get
  intro s
  split
  · exact only_fault _
  · split
    · apply only_bind (only_unguarded nofun)
      intro _
      apply only_bind (only_ask nofun)
      intro socket
      exact only_bind (only_modify _) fun _ => only_pure _
    · exact only_bind (only_unguarded nofun) fun _ => only_pure _

theorem unwritten_newConnection (c : Connection) (peer : Option PeerId) :
    Only Unwritten (newConnection c peer) := by
  apply only_bind (only_ask nofun)
  intro conn
  apply only_bind (only_mark nofun)
  intro _
  exact only_bind (only_modify _) fun _ => only_pure _

theorem only_setData {p : Query → Prop} (socket : Option SocketPtr) (userData : Option ConnPtr) :
    Only p (internalSetData socket userData) := by
  cases socket with
  | none => exact only_fault _
  | some socket => exact only_bind (only_derefSocket socket) fun _ => only_modify _

theorem unwritten_setOffer (socket : Option SocketPtr) (offer : Bytes) :
    Only Unwritten (internalSetOffer socket offer) := by
  refine only_bind ?_ fun socket => only_unguarded nofun
  cases socket with
  | none => exact only_fault _
  | some socket =>
    apply only_bind (only_derefSocket socket)
    intro it
    exact only_bind (only_assert _) fun _ => only_pure _

theorem only_closeSocket {p : Query → Prop}
    (may : ∀ q, Unwritten q → q ≠ .newConnection → p q) (conn : ConnPtr) :
    Only p (closeSocket conn) := by
  apply only_bind (only_deref conn)
  intro c
  cases c.socket with
  | none => exact only_pure _
  | some socket =>
    apply only_bind (only_modify _)
    intro _
    apply only_bind (only_setData _ _)
    intro _
    apply only_bind
    · apply only_bind (only_derefSocket socket)
      intro it
      split
      · exact only_unguarded (may _ nofun nofun)
      · exact only_bind (only_modify _) fun _ => only_unguarded (may _ nofun nofun)
    · exact fun _ => only_assign conn _

theorem only_close {p : Query → Prop} (may : ∀ q, Unwritten q → q ≠ .newConnection → p q)
    (conn : ConnPtr) : Only p (humblenetConnectionClose conn) := by
  apply only_bind
  · apply only_bind (only_closeSocket may conn)
    intro _
    apply only_bind (only_deref conn)
    intro c
    have notes : Only p (blacklistPeer c.otherPeer) :=
      only_bind (only_ask (may _ nofun nofun)) fun _ => only_modify _
    apply only_bind (only_doWhen notes)
    intro _
    apply only_bind (only_mark (may _ nofun nofun))
    intro _
    exact only_bind (only_modify _) fun _ => only_modify _
  · intro _
    apply only_bind (only_modify _)
    intro _
    apply only_bind (only_modify _)
    intro _
    exact only_bind (only_mark (may _ nofun nofun)) fun _ => only_modify _

/-! ### The parts of the call -/

theorem unwritten_of_plays {x : ClientM α} {r : ClientResult α} (only : Only Unwritten x)
    (plays : Plays (Alone env) x s log r t) : ∀ call ∈ log, Unwritten call.1 :=
  Course.Plays.only plays (only s)

theorem plays_sendP2PMessage {msg : Message} {r : ClientResult Bool}
    (plays : Plays (Alone env) (sendP2PMessage env msg) s log r t) :
    (∃ b, r = .ok b) ∧ t = s ∧
      (∀ call ∈ log, ∃ wsi, call.1 = .libwebsocketWrite wsi (frame env msg)) ∧
      ((∀ signal ∈ s.p2pConn, signal.wsi = none) → log = []) := by
  replace plays := plays_get_bind.mp plays
  split at plays
  · obtain ⟨rfl, rfl, rfl⟩ := plays_pure.mp plays
    exact ⟨⟨_, rfl⟩, rfl, nofun, fun _ => rfl⟩
  · rename_i signal there
    split at plays
    · obtain ⟨rfl, rfl, rfl⟩ := plays_pure.mp plays
      exact ⟨⟨_, rfl⟩, rfl, nofun, fun _ => rfl⟩
    · rename_i wsi opened
      obtain ⟨ret, u, l, ⟨-, rfl⟩, last, rfl⟩ := plays_unguarded_bind.mp plays
      obtain ⟨rfl, rfl, rfl⟩ := plays_pure.mp last
      refine ⟨⟨_, rfl⟩, rfl, List.forall_mem_singleton.mpr ⟨wsi, rfl⟩, fun shut => ?_⟩
      cases opened.symm.trans (shut signal there)

theorem sendP2PMessage_plays {msg : Message} {signal : P2PSignalConnection} {wsi : Wsi}
    (there : s.p2pConn = some signal) (opened : signal.wsi = some wsi) :
    Plays (Alone env) (sendP2PMessage env msg) s
      [⟨.libwebsocketWrite wsi (frame env msg), (0 : Int)⟩]
      (.ok (decide ((0 : Int) = (frame env msg).length))) s := by
  refine plays_get_bind.mpr ?_
  rw [there]
  dsimp only
  rw [opened]
  have may : (-1 : Int) ≤ 0 := by decide
  refine plays_unguarded_bind.mpr ⟨(0 : Int), s, [], ⟨⟨may, Int.natCast_nonneg _⟩, rfl⟩, ?_, rfl⟩
  exact plays_pure.mpr ⟨rfl, rfl, rfl⟩

def meetOffer (p2p : P2POffer) : ClientM (ConnPtr × Bool) := do
  let socket ← internalCreateWebrtc
  let connection ← newConnection
    { Connection.new .incoming with otherPeer := p2p.peerId, socket := socket } none
  mark (.pend .incoming p2p.peerId)
  internalSetData socket (some connection)
  modify fun s =>
    { s with
      pendingPeerConnectionsIn :=
        StdMap.emplace p2p.peerId connection s.pendingPeerConnectionsIn }
  let offer ← field p2p.offer
  let ret ← internalSetOffer socket (cStr offer)
  pure (connection, ret)

def answerOffer (env : Externals) (p2p : P2POffer) : ClientM Bool := do
  let met ← meetOffer p2p
  doWhen (met.2 = false) do
    humblenetConnectionClose met.1
    let _ ← sendPeerRefused (sendP2PMessage env) p2p.peerId
  pure true

theorem processP2POffer_eq (p2p : P2POffer) : processP2POffer env (some p2p) = (do
    let s ← get
    if p2p.peerId ∈ s.pendingPeerConnectionsIn then pure true
    else
      doWhen (p2p.flags &&& emulatedFlag ≠ 0 ∨ s.webRTCSupported = false) do
        assert (s.p2pConn ≠ none) .offerSignal
        let _ ← sendPeerRefused (sendP2PMessage env) p2p.peerId
      answerOffer env p2p) := by
  unfold processP2POffer answerOffer meetOffer
  simp only [bind_assoc, pure_bind]
  rfl

theorem unwritten_meetOffer : Only Unwritten (meetOffer p2p) := by
  apply only_bind unwritten_createWebrtc
  intro socket
  apply only_bind (unwritten_newConnection _ _)
  intro conn
  apply only_bind (only_mark nofun)
  intro _
  apply only_bind (only_setData _ _)
  intro _
  apply only_bind (only_modify _)
  intro _
  apply only_bind (only_through _ _)
  intro offer
  exact only_bind (unwritten_setOffer _ _) fun _ => only_pure _

theorem setOffer_same (socket : Option SocketPtr) (offer : Bytes) :
    Follows (Alone env) Eq (internalSetOffer socket offer) := by
  have trans : ∀ s t u : State, s = t → t = u → s = u := fun _ _ _ => Eq.trans
  apply follows_bind trans
  · cases socket with
    | none => exact follows_fault _
    | some socket =>
      apply follows_bind trans (follows_get fun _ => follows_through Eq.refl _ _)
      intro it
      unfold assert
      split
      · exact follows_pure Eq.refl _
      · exact follows_fault _
  · exact fun socket => follows_call Eq.refl fun _ _ _ answer => answer.2

theorem amid_meetOffer {conn : ConnPtr} {ret : Bool}
    (ends : Amid (Alone env) (meetOffer p2p) s (conn, ret) t) :
    ∃ socket m, socket ∉ s.sockets ∧ conn ∉ s.heap ∧
      (∀ k, k ≠ socket → m.lookup k = s.sockets.lookup k) ∧
      t = { s with
        toTables := { s.make conn { Connection.new .incoming with
            otherPeer := p2p.peerId, socket := some socket } none with
          sockets := m
          pendingPeerConnectionsIn :=
            StdMap.emplace p2p.peerId conn s.pendingPeerConnectionsIn } } := by
  obtain ⟨socket, u, creates, ends⟩ := amid_bind.mp ends
  obtain ⟨k, v, makes, ends⟩ := amid_bind.mp ends
  obtain ⟨fresh, rfl⟩ := amid_newConnection.mp makes
  obtain ⟨_, w, marks, ends⟩ := amid_bind.mp ends
  obtain ⟨-, rfl⟩ := amid_ask.mp marks
  obtain ⟨_, x, sets, ends⟩ := amid_bind.mp ends
  cases socket with
  | none => exact absurd sets amid_fault
  | some socket =>
    obtain ⟨new, rfl⟩ := createWebrtc_alone creates
    obtain ⟨-, rfl⟩ := amid_internalSetData.mp sets
    replace ends := amid_modify_bind.mp ends
    obtain ⟨offer, -, ends⟩ := amid_through_bind.mp ends
    obtain ⟨ret', y, offers, last⟩ := amid_bind.mp ends
    obtain ⟨same, rfl⟩ := amid_pure.mp last
    cases same
    obtain rfl := setOffer_same (some socket) (cStr offer) _ _ _ offers
    refine ⟨socket, _, new, fresh, fun k other => ?_, rfl⟩
    calc _ = (s.sockets.insert socket .new).lookup k :=
        (StdMap.lookup_modify socket k _ _).trans (if_neg other)
      _ = s.sockets.lookup k := (StdMap.lookup_insert_if socket k _ _).trans (if_neg other)

theorem meetOffer_undone {conn : ConnPtr} {ret : Bool} (clean : Clean s.toTables.lists)
    (hooked : Hooked s.toTables) (meets : Amid (Alone env) (meetOffer p2p) s (conn, ret) u)
    (closes : Amid (Alone env) (humblenetConnectionClose conn) u () t) :
    SameTables s t ∧ t.p2pConn = s.p2pConn ∧
      (∀ k ∈ s.sockets, t.sockets.lookup k = s.sockets.lookup k) ∧
      ∀ k, k ∉ s.sockets → ∀ it, t.sockets.lookup k = some it →
        it.userData = none ∧ it.closing = true := by
  obtain ⟨socket, m, new, fresh, others, rfl⟩ := amid_meetOffer meets
  have free : socket ∉ s.connections := fun listed => new (hooked socket listed)
  obtain ⟨m', eq, others', bare⟩ := close_alone (AList.lookup_insert s.heap) closes
  have added := (added_make clean fresh { Connection.new .incoming with
    otherPeer := p2p.peerId, socket := some socket } none).pend_in p2p.peerId
  have undone := Added.undone (m := m') added clean fresh free
  have elsewhere : ∀ k, k ≠ socket → m'.lookup k = s.sockets.lookup k := fun k other =>
    (others' k fun its => other (Option.some.inj its).symm).trans (others k other)
  rw [eq]
  refine ⟨{ undone with }, rfl, fun k there => ?_, fun k absent it there => ?_⟩
  · exact elsewhere k fun same => new (same ▸ there)
  · by_cases same : k = socket
    · subst same
      exact bare k rfl it there
    · have before := (elsewhere k same).symm.trans there
      exact absurd (StdMap.mem_iff_lookup.mpr ⟨it, before⟩) absent

theorem answerOffer_plays {r : ClientResult Bool} (clean : Clean s.toTables.lists)
    (hooked : Hooked s.toTables) (plays : Plays (Alone env) (answerOffer env p2p) s log r t) :
    (∀ call ∈ log, Unwritten call.1) ∨ (Withdrawn env s p2p.peerId log r t ∧
      ((∀ signal ∈ s.p2pConn, signal.wsi = none) → ∀ call ∈ log, Unwritten call.1)) := by
  rcases plays_bind.mp plays with ⟨e, rfl, stops⟩ | ⟨l, ⟨conn, ret⟩, u, l', meets, rest, rfl⟩
  · exact Or.inl (unwritten_of_plays unwritten_meetOffer stops)
  have quiet := unwritten_of_plays unwritten_meetOffer meets
  unfold doWhen at rest
  dsimp only at rest
  split at rest
  · rw [bind_assoc] at rest
    have shut : Only Unwritten (humblenetConnectionClose conn) := only_close (fun _ h _ => h) conn
    rcases plays_bind.mp rest with ⟨e, rfl, stops⟩ | ⟨k, _, v, k', closes, refuses, rfl⟩
    · exact Or.inl (List.forall_mem_append.mpr ⟨quiet, unwritten_of_plays shut stops⟩)
    have quiet' := List.forall_mem_append.mpr ⟨quiet, unwritten_of_plays shut closes⟩
    obtain ⟨tables, signal, kept, closed⟩ :=
      meetOffer_undone clean hooked (Course.Plays.amid meets) (Course.Plays.amid closes)
    rw [bind_assoc] at refuses
    rcases plays_bind.mp refuses with ⟨e, rfl, stops⟩ | ⟨m, sent, w, m', sends, last, rfl⟩
    · obtain ⟨⟨b, eq⟩, -⟩ := plays_sendP2PMessage stops
      cases eq
    obtain ⟨-, rfl, frames, shut⟩ := plays_sendP2PMessage sends
    obtain ⟨rfl, rfl, rfl⟩ := plays_pure.mp last
    rw [List.append_nil, ← List.append_assoc]
    refine Or.inr ⟨⟨rfl, ?_, tables, kept, closed⟩, fun none => ?_⟩
    · refine List.forall_mem_append.mpr
        ⟨fun call there wsi buf eq => ?_, fun call there wsi buf eq => ?_⟩
      · exact absurd eq (quiet' call there wsi buf)
      · obtain ⟨wsi', eq'⟩ := frames call there
        cases eq.symm.trans eq'
        rfl
    · rw [shut (signal ▸ none), List.append_nil]
      exact quiet'
  · obtain ⟨rfl, rfl, rfl⟩ := plays_pure.mp rest
    rw [List.append_nil]
    exact Or.inl quiet

theorem not_refuses (quiet : ∀ call ∈ log, Unwritten call.1) : ¬ Refuses env peer log := by
  rintro ⟨call, there, wsi, eq⟩
  exact quiet call there wsi _ eq

/-! ### The call that goes on -/

theorem alone_of_accepting (q : Query) (s : State) (a : q.Answer) (t : State)
    (answer : Accepting env q s a t) : Alone env q s a t := by
  cases q with
  | libwebrtcSetOffer socket offer => exact answer.2
  | _ => exact answer

theorem accepting_answers (q : Query) (s : State) : ∃ a, Accepting env q s a s := by
  have neg_one_le : (-1 : Int) ≤ 0 := by decide
  cases q with
  | newConnection => exact ⟨freshKey s.heap, freshKey_not_mem s.heap, rfl⟩
  | newInternalSocket => exact ⟨freshKey s.sockets, freshKey_not_mem s.sockets, rfl⟩
  | order elements => exact ⟨elements, List.Perm.refl _, rfl⟩
  | libwebsocketWrite wsi buf => exact ⟨(0 : Int), ⟨neg_one_le, Int.natCast_nonneg _⟩, rfl⟩
  | libwebrtcWrite socket buf => exact ⟨(0 : Int), ⟨neg_one_le, Int.natCast_nonneg _⟩, rfl⟩
  | libwebrtcSetOffer socket offer => exact ⟨true, rfl, trivial, rfl⟩
  | libwebrtcCloseConnection socket => exact ⟨(), .quiet s⟩
  | _ => exact ⟨default, trivial, rfl⟩

theorem meetOffer_accepted {conn : ConnPtr} {ret : Bool}
    (ends : Amid (Accepting env) (meetOffer p2p) s (conn, ret) t) : ret = true := by
  obtain ⟨socket, u, -, ends⟩ := amid_bind.mp ends
  obtain ⟨k, v, -, ends⟩ := amid_bind.mp ends
  obtain ⟨_, w, -, ends⟩ := amid_bind.mp ends
  obtain ⟨_, x, -, ends⟩ := amid_bind.mp ends
  replace ends := amid_modify_bind.mp ends
  obtain ⟨offer, -, ends⟩ := amid_through_bind.mp ends
  obtain ⟨ret', y, offers, last⟩ := amid_bind.mp ends
  obtain ⟨same, -⟩ := amid_pure.mp last
  obtain ⟨opened, z, -, sets⟩ := amid_bind.mp offers
  cases same
  exact (amid_unguarded.mp sets).1

theorem answerOffer_lasts (new : p2p.peerId ∉ s.pendingPeerConnectionsIn) :
    ∃ log r t, Plays (Alone env) (answerOffer env p2p) s log r t ∧
      ¬ (r = .ok true ∧ SameTables s t) := by
  have answered : ∀ q s, ∃ a, Accepting env q s a s := accepting_answers
  obtain ⟨log, r, t, plays⟩ := Course.plays_total answered (answerOffer env p2p s)
  refine ⟨log, r, t, plays.mono alone_of_accepting, ?_⟩
  rintro ⟨rfl, same⟩
  obtain ⟨⟨conn, ret⟩, u, meets, rest⟩ := amid_bind.mp (Course.Plays.amid plays)
  obtain rfl := meetOffer_accepted meets
  obtain ⟨-, rfl⟩ := amid_pure.mp rest
  obtain ⟨socket, m, -, -, -, rfl⟩ := amid_meetOffer (Course.Amid.mono alone_of_accepting meets)
  have pends : (StdMap.emplace p2p.peerId conn s.pendingPeerConnectionsIn).lookup p2p.peerId =
      s.pendingPeerConnectionsIn.lookup p2p.peerId := congrArg (AList.lookup p2p.peerId) same.incoming
  rw [StdMap.lookup_emplace, if_pos rfl, AList.lookup_eq_none.mpr new] at pends
  cases pends

theorem not_leavesNothing (new : p2p.peerId ∉ s.pendingPeerConnectionsIn)
    (flagged : p2p.flags &&& emulatedFlag ≠ 0 ∨ s.webRTCSupported = false)
    {signal : P2PSignalConnection} {wsi : Wsi} (there : s.p2pConn = some signal)
    (opened : signal.wsi = some wsi) : ¬ LeavesNothing env s p2p := by
  intro leaves
  obtain ⟨log, r, t, plays, lasts⟩ : ∃ log r t, Plays (Alone env) (answerOffer env p2p) s log r t ∧
      ¬ (r = .ok true ∧ SameTables s t) := answerOffer_lasts new
  have refuses : Plays (Alone env) (doWhen (p2p.flags &&& emulatedFlag ≠ 0 ∨ s.webRTCSupported = false)
      (do
        assert (s.p2pConn ≠ none) .offerSignal
        let _ ← sendPeerRefused (sendP2PMessage env) p2p.peerId)) s
      [⟨.libwebsocketWrite wsi (frame env (refusal p2p.peerId)), (0 : Int)⟩] (.ok ()) s := by
    unfold doWhen assert
    rw [if_pos flagged, if_pos (there ▸ Option.some_ne_none signal)]
    change Plays (Alone env) (do
      let _ ← sendP2PMessage env (refusal p2p.peerId)
      pure ()) s _ _ s
    exact plays_bind.mpr (Or.inr ⟨_, _, s, [], sendP2PMessage_plays there opened,
      plays_pure.mpr ⟨rfl, rfl, rfl⟩, (List.append_nil _).symm⟩)
  have handles : Plays (Alone env) (processP2POffer env (some p2p)) s
      (⟨.libwebsocketWrite wsi (frame env (refusal p2p.peerId)), (0 : Int)⟩ :: log) r t := by
    rw [processP2POffer_eq]
    refine plays_get_bind.mpr ?_
    rw [if_neg new]
    exact plays_bind.mpr (Or.inr ⟨_, (), s, log, refuses, plays, rfl⟩)
  have left := (leaves _ r t handles ⟨_, List.mem_cons_self, wsi, rfl⟩).1
  exact lasts ⟨left.returns, left.tables⟩

theorem plays_refuse {c : Prop} [Decidable c] {r : ClientResult Unit}
    (shut : ∀ signal ∈ s.p2pConn, signal.wsi = none)
    (plays : Plays (Alone env) (doWhen c (do
        assert (s.p2pConn ≠ none) .offerSignal
        let _ ← sendPeerRefused (sendP2PMessage env) peer)) s log r t) : log = [] ∧ t = s := by
  unfold doWhen assert at plays
  split at plays
  · split at plays
    · replace plays : Plays (Alone env) (do
        let _ ← sendP2PMessage env (refusal peer)
        pure ()) s log r t := plays
      rcases plays_bind.mp plays with ⟨e, rfl, stops⟩ | ⟨l, sent, u, l', sends, last, rfl⟩
      · obtain ⟨⟨b, eq⟩, -⟩ := plays_sendP2PMessage stops
        cases eq
      · obtain ⟨-, rfl, -, silent⟩ := plays_sendP2PMessage sends
        obtain ⟨rfl, -, rfl⟩ := plays_pure.mp last
        exact ⟨(List.append_nil l).trans (silent shut), rfl⟩
    · obtain ⟨rfl, -, rfl⟩ := plays_fault.mp plays
      exact ⟨rfl, rfl⟩
  · obtain ⟨rfl, -, rfl⟩ := plays_pure.mp plays
    exact ⟨rfl, rfl⟩

/-- Refusing an offer leaves nothing behind just when one for the peer pends already, or the
offer is one that the client can take, or nothing can be sent. -/
theorem refused_leaves_nothing_iff {ok : Point → Tables → Prop}
    (unlisted : ∀ point t, ok point t → Unlisted point t)
    {pool : Pool Caller State Fault Query Query.Answer Unit} (run : Run env ok (.running pool))
    (p2p : P2POffer) : LeavesNothing env pool.state p2p ↔
      p2p.peerId ∈ pool.state.pendingPeerConnectionsIn ∨
      (p2p.flags &&& emulatedFlag = 0 ∧ pool.state.webRTCSupported = true) ∨
      ∀ signal ∈ pool.state.p2pConn, signal.wsi = none := by
  have clean := lists_clean env run
  have hooked := hooked_of_run env unlisted run
  constructor
  · intro leaves
    by_contra fails
    simp only [not_or, not_and_or, not_forall] at fails
    obtain ⟨new, flagged, signal, there, opened⟩ := fails
    obtain ⟨wsi, opened⟩ := Option.ne_none_iff_exists'.mp opened
    rw [Bool.not_eq_true] at flagged
    exact not_leavesNothing new flagged there opened leaves
  · intro holds log r t plays refuses
    rw [processP2POffer_eq] at plays
    replace plays := plays_get_bind.mp plays
    split at plays
    · obtain ⟨rfl, -⟩ := plays_pure.mp plays
      exact absurd refuses (not_refuses (List.forall_mem_nil _))
    · rename_i new
      rcases holds.resolve_left new with ⟨plain, supported⟩ | shut
      · have neither : ¬ (p2p.flags &&& emulatedFlag ≠ 0 ∨ pool.state.webRTCSupported = false) := by
          rw [supported]
          simp [plain]
        unfold doWhen at plays
        rw [if_neg neither] at plays
        rcases answerOffer_plays clean hooked plays with quiet | ⟨withdrawn, -⟩
        · exact absurd refuses (not_refuses quiet)
        · exact ⟨withdrawn, fun missing => absurd (supported.symm.trans missing) (by decide)⟩
      · rcases plays_bind.mp plays with ⟨e, rfl, stops⟩ | ⟨l, _, u, l', refuse, rest, rfl⟩
        · obtain ⟨rfl, -⟩ := plays_refuse shut stops
          exact absurd refuses (not_refuses (List.forall_mem_nil _))
        · obtain ⟨rfl, rfl⟩ := plays_refuse shut refuse
          rcases answerOffer_plays clean hooked rest with quiet | ⟨-, silent⟩
          · exact absurd refuses (not_refuses quiet)
          · exact absurd refuses (not_refuses (silent shut))

end

def approachable (s : State) : Bool :=
  decide (9 ∉ s.pendingPeerConnectionsIn) && s.p2pConn.any fun signal => signal.wsi.isSome

/-- An offer that the transport may fail to take leaves nothing behind when it is refused. -/
theorem refused_leaves_nothing_plain : ∃ s,
    history welcome Unlisted introduction = some (.running ⟨s, []⟩) ∧
    approachable s = true ∧ LeavesNothing welcome s ⟨9, 0, some []⟩ := by
  have ready : ((history welcome Unlisted introduction).bind Config.resting).any (fun s =>
      approachable s && s.webRTCSupported) = true := by decide +kernel
  obtain ⟨s, now, met⟩ := (Option.any_eq_true _ _).mp ready
  obtain ⟨c, h, resting⟩ := Option.bind_eq_some_iff.mp now
  cases Config.resting_some resting
  obtain ⟨open_, supported⟩ := Bool.and_eq_true_iff.mp met
  refine ⟨s, h, open_, ?_⟩
  exact (refused_leaves_nothing_iff (fun _ _ h => h) (run_history _ h) _).mpr
    (Or.inr (Or.inl ⟨by decide, supported⟩))

/-- The same peer offers an emulated connection: it is told no, and its connection stays. -/
theorem refused_emulated_stays : ∃ s,
    history welcome Unlisted introduction = some (.running ⟨s, []⟩) ∧
    Run welcome Unlisted (.running ⟨s, []⟩) ∧
    ¬ LeavesNothing welcome s ⟨9, 1, some []⟩ := by
  have ready : ((history welcome Unlisted introduction).bind Config.resting).any
      approachable = true := by decide +kernel
  obtain ⟨s, now, met⟩ := (Option.any_eq_true _ _).mp ready
  obtain ⟨c, h, resting⟩ := Option.bind_eq_some_iff.mp now
  cases Config.resting_some resting
  obtain ⟨new, open_⟩ := Bool.and_eq_true_iff.mp met
  obtain ⟨signal, there, opened⟩ := (Option.any_eq_true _ _).mp open_
  obtain ⟨wsi, opened⟩ := Option.isSome_iff_exists.mp opened
  refine ⟨s, h, run_history _ h, ?_⟩
  exact not_leavesNothing (of_decide_eq_true new) (Or.inl (by decide)) there opened

end HumbleNet.Client
