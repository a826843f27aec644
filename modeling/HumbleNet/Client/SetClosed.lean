import HumbleNet.Client.LifeCycle
import HumbleNet.Client.Runs

/-! What `humblenet_connection_set_closed` does to the tables, with the callbacks that closing
the socket triggers. Everything goes by the address of the connection, but for the one entry
that is erased by the address of its socket. -/
namespace HumbleNet.Client

open Guarded

def WebrtcReason.Ending : WebrtcReason → Prop
  | .disconnected => True
  | .channelClosed => True
  | .destroy => True
  | _ => False

/-- Such callbacks for the socket, each of them run to its end. -/
inductive CallsBack (env : Externals) (socket : SocketPtr) : State → State → Prop where
  | quiet (s : State) : CallsBack env socket s s
  | next {s u t : State} {reason : WebrtcReason} {log : ClientLog} {r : Int}
    (ending : reason.Ending) (ran : Runs (webrtcProtocol env socket reason) s log r u)
    (rest : CallsBack env socket u t) : CallsBack env socket s t

/-- Nothing happens during a call, but for what closing a socket triggers. -/
def Alone (env : Externals) : (q : Query) → State → q.Answer → State → Prop
  | .libwebrtcCloseConnection socket, s, _, t => CallsBack env socket s t
  | q, s, a, t => q.Allowed s a t ∧ t = s

def unhook (socket : Option SocketPtr) (m : StdMap SocketPtr ConnPtr) : StdMap SocketPtr ConnPtr :=
  match socket with
  | none => m
  | some socket => m.erase socket

/-- The tables when the connection has been closed, and the entries of all others as before. -/
structure ClosedIn (s : Tables) (conn : ConnPtr) (c : Connection) (t : Tables) : Prop where
  closed : t.heap.lookup conn = some { c with status := .closed, socket := none }
  heap : ∀ k, k ≠ conn → t.heap.lookup k = s.heap.lookup k
  cleared : ∀ socket ∈ c.socket, ∀ it, t.sockets.lookup socket = some it → it.userData = none
  sockets : ∀ socket, socket ∉ c.socket → t.sockets.lookup socket = s.sockets.lookup socket
  connections : ∀ socket k, t.connections.lookup socket = some k ↔
    s.connections.lookup socket = some k ∧ k ≠ conn
  pendingNew : ∀ k, k ∈ t.pendingNewConnections ↔ k ∈ s.pendingNewConnections ∧ k ≠ conn
  pendingData : ∀ k, k ∈ t.pendingDataConnections ↔ k ∈ s.pendingDataConnections ∧ k ≠ conn
  out : ∀ peer k, t.pendingPeerConnectionsOut.lookup peer = some k ↔
    s.pendingPeerConnectionsOut.lookup peer = some k ∧ k ≠ conn
  incoming : ∀ peer k, t.pendingPeerConnectionsIn.lookup peer = some k ↔
    s.pendingPeerConnectionsIn.lookup peer = some k ∧ k ≠ conn
  named : ∀ name k, t.pendingAliasConnectionsOut.lookup name = some k ↔
    s.pendingAliasConnectionsOut.lookup name = some k ∧ k ≠ conn
  remoteClosed : ∀ k, k ∈ t.remoteClosedConnections ↔ k ∈ s.remoteClosedConnections ∨ k = conn

/-- The call comes to its end, closes the connection and leaves all others alone, and once
more it changes nothing but the blacklist. -/
def ClosesExactly (env : Externals) (s : State) (conn : ConnPtr) (c : Connection) : Prop :=
  (∃ t, Amid (Alone env) (humblenetConnectionSetClosed conn) s () t) ∧
  ∀ t, Amid (Alone env) (humblenetConnectionSetClosed conn) s () t →
    ClosedIn s.toTables conn c t.toTables ∧
    (∃ u, Amid (Alone env) (humblenetConnectionSetClosed conn) t () u) ∧
    ∀ u, Amid (Alone env) (humblenetConnectionSetClosed conn) t () u →
      u = { t with peerBlacklist := u.peerBlacklist }

section

variable {env : Externals} {s t u : State} {conn : ConnPtr} {socket : SocketPtr}

/-! ### The callbacks -/

def Detached (s : State) (socket : SocketPtr) : Prop :=
  s.connections.lookup socket = none ∧
    ∀ it, s.sockets.lookup socket = some it → it.userData = none

def OnlySocket (socket : SocketPtr) (s t : State) : Prop :=
  ∃ m, t = { s with sockets := m } ∧ ∀ k, k ≠ socket → m.lookup k = s.sockets.lookup k

theorem OnlySocket.refl : OnlySocket socket s s := ⟨_, rfl, fun _ _ => rfl⟩

theorem OnlySocket.trans (h : OnlySocket socket s t) (h' : OnlySocket socket t u) :
    OnlySocket socket s u := by
  obtain ⟨m, rfl, others⟩ := h
  obtain ⟨m', rfl, others'⟩ := h'
  exact ⟨m', rfl, fun k other => (others' k other).trans (others k other)⟩

theorem onlySocket_update (f : InternalSocket → InternalSocket) :
    OnlySocket socket s { s with toTables := s.updateSocket socket f } := by
  refine ⟨_, rfl, fun k other => ?_⟩
  rw [StdMap.lookup_modify, if_neg other]

theorem detached_update {f : InternalSocket → InternalSocket} (detached : Detached s socket)
    (data : ∀ it, (f it).userData = it.userData) :
    Detached { s with toTables := s.updateSocket socket f } socket := by
  refine ⟨detached.1, fun it there => ?_⟩
  obtain ⟨old, before, rfl⟩ := StdMap.lookup_modify_some.mp there
  rw [if_pos rfl, data]
  exact detached.2 old before

def Closing (s : State) (socket : SocketPtr) : Prop :=
  ∀ it, s.sockets.lookup socket = some it → it.closing = true

theorem closing_update {f : InternalSocket → InternalSocket} (closing : Closing s socket)
    (keeps : ∀ it, it.closing = true → (f it).closing = true) :
    Closing { s with toTables := s.updateSocket socket f } socket := by
  intro it there
  obtain ⟨old, before, rfl⟩ := StdMap.lookup_modify_some.mp there
  rw [if_pos rfl]
  exact keeps old (closing old before)

theorem closing_asked (s : State) (socket : SocketPtr) :
    Closing { s with
      toTables := s.updateSocket socket fun it => { it with closing := true } } socket := by
  intro it there
  obtain ⟨old, -, rfl⟩ := StdMap.lookup_modify_some.mp there
  rw [if_pos rfl]

theorem onDisconnect_detached {log : ClientLog} {r : Int} (detached : Detached s socket)
    (ends : Runs (onDisconnect socket none) s log r t) : t = s := by
  replace ends := ends_get_bind.mp ends
  rw [detached.1] at ends
  exact (ends_pure.mp ends).2.2

theorem callback_detached {reason : WebrtcReason} {log : ClientLog} {r : Int}
    (ending : reason.Ending) (detached : Detached s socket) (closing : Closing s socket)
    (ran : Runs (webrtcProtocol env socket reason) s log r t) :
    OnlySocket socket s t ∧ Detached t socket ∧ Closing t socket := by
  obtain ⟨l, ran, -⟩ := runs_mark_bind.mp ran
  obtain ⟨it, there, ran⟩ := ends_derefSocket_bind.mp ran
  have bare := detached.2 it there
  cases reason with
  | disconnected =>
    rw [bare] at ran
    have closed := detached_update (f := fun it => { it with closing := true }) detached
      fun _ => rfl
    have gone := detached_update (f := fun it => { it with stage := .disconnected }) closed
      fun _ => rfl
    cases onDisconnect_detached gone ran
    exact ⟨(onlySocket_update _).trans (onlySocket_update _), gone,
      closing_update (closing_update closing fun _ _ => rfl) fun _ h => h⟩
  | channelClosed =>
    have flagged := detached_update (f := fun it => { it with webrtcChannel := false }) detached
      fun _ => rfl
    obtain ⟨l, _, u, l', closes, last, -⟩ := ends_bind.mp (ends_modifyTables_bind.mp ran)
    obtain ⟨-, -, rfl⟩ := ends_pure.mp last
    have same : t = { s with
        toTables := s.updateSocket socket fun it => { it with webrtcChannel := false } } := by
      unfold doWhen at closes
      split at closes
      · cases closes with
        | released answer rest =>
          cases rest
          rfl
      · exact (ends_pure.mp closes).2.2
    subst same
    exact ⟨onlySocket_update _, flagged, closing_update closing fun _ h => h⟩
  | destroy =>
    have last : Runs (pure 0) { s with sockets := s.sockets.erase socket } l r t := ran
    obtain ⟨-, -, rfl⟩ := ends_pure.mp last
    have gone : ∀ it, (s.sockets.erase socket).lookup socket ≠ some it :=
      fun it left => (StdMap.lookup_erase_some left).1 rfl
    refine ⟨⟨_, rfl, fun k other => AList.lookup_erase_ne other⟩, ⟨detached.1, ?_⟩, ?_⟩
    · exact fun it left => absurd left (gone it)
    · exact fun it left => absurd left (gone it)
  | _ => exact absurd ending id

theorem CallsBack.detached (back : CallsBack env socket s t) (detached : Detached s socket)
    (closing : Closing s socket) :
    OnlySocket socket s t ∧ Detached t socket ∧ Closing t socket := by
  induction back with
  | quiet s => exact ⟨.refl, detached, closing⟩
  | next ending ran _ ih =>
    obtain ⟨only, detached', closing'⟩ := callback_detached ending detached closing ran
    obtain ⟨only', still⟩ := ih detached' closing'
    exact ⟨only.trans only', still⟩

/-! ### The call -/

theorem amid_through_bind {α β : Type} {allowed : (q : Query) → State → q.Answer → State → Prop}
    {e : Fault} {o : Option α} {f : α → ClientM β} {b : β} :
    Amid allowed (through e o >>= f) s b t ↔ ∃ a, o = some a ∧ Amid allowed (f a) s b t := by
  cases o with
  | none =>
    constructor
    · intro h
      cases h
    · rintro ⟨a, ⟨⟩, _⟩
  | some a =>
    constructor
    · exact fun h => ⟨a, rfl, h⟩
    · rintro ⟨_, ⟨⟩, h⟩
      exact h

theorem amid_deref_bind {β : Type} {allowed : (q : Query) → State → q.Answer → State → Prop}
    {f : Connection → ClientM β} {b : β} : Amid allowed (deref conn >>= f) s b t ↔
      ∃ c, s.heap.lookup conn = some c ∧ Amid allowed (f c) s b t :=
  amid_through_bind

theorem amid_derefSocket_bind {β : Type} {allowed : (q : Query) → State → q.Answer → State → Prop}
    {f : InternalSocket → ClientM β} {b : β} : Amid allowed (derefSocket socket >>= f) s b t ↔
      ∃ it, s.sockets.lookup socket = some it ∧ Amid allowed (f it) s b t :=
  amid_through_bind

theorem amid_internalSetData {userData : Option ConnPtr} :
    Amid (Alone env) (internalSetData (some socket) userData) s () t ↔ socket ∈ s.sockets ∧
      t = { s with
        toTables := s.updateSocket socket fun it => { it with userData := userData } } := by
  change Amid _ (derefSocket socket >>= fun _ => modifyTables _) s () t ↔ _
  rw [amid_derefSocket_bind, StdMap.mem_iff_lookup]
  constructor
  · rintro ⟨it, there, sets⟩
    exact ⟨⟨it, there⟩, amid_modify.mp sets⟩
  · rintro ⟨⟨it, there⟩, sets⟩
    exact ⟨it, there, amid_modify.mpr sets⟩

theorem amid_internalCloseSocket : Amid (Alone env) (internalCloseSocket socket) s () t ↔
    ∃ it, s.sockets.lookup socket = some it ∧
      if it.closing = true then t = s
      else CallsBack env socket
        { s with toTables := s.updateSocket socket fun it => { it with closing := true } } t := by
  unfold internalCloseSocket
  rw [amid_derefSocket_bind]
  apply exists_congr
  intro it
  apply and_congr_right
  intro there
  split
  · rw [amid_unguarded]
    exact ⟨fun h => h.2, fun h => ⟨trivial, h⟩⟩
  · exact amid_unguarded

variable {c : Connection}

def unhooked (s : State) (socket : SocketPtr) : State :=
  { s with
    sockets := StdMap.modify socket (fun it => { it with userData := none }) s.sockets
    connections := s.connections.erase socket }

theorem unhooked_detached (s : State) (socket : SocketPtr) :
    Detached (unhooked s socket) socket := by
  refine ⟨AList.lookup_erase socket s.connections, fun it there => ?_⟩
  obtain ⟨old, _, rfl⟩ := StdMap.lookup_modify_some.mp there
  rw [if_pos rfl]

theorem amid_closeSocket (here : s.heap.lookup conn = some c) (its : c.socket = some socket) :
    Amid (Alone env) (closeSocket conn) s () t ↔ socket ∈ s.sockets ∧
      ∃ u, Amid (Alone env) (internalCloseSocket socket) (unhooked s socket) () u ∧
        ∃ d, u.heap.lookup conn = some d ∧ t = { u with toTables := u.unplug conn } := by
  have split : Amid (Alone env) (closeSocket conn) s () t ↔
      Amid (Alone env) (do
        internalSetData (some socket) none
        internalCloseSocket socket
        assign conn fun c => { c with socket := none } : ClientM Unit)
        { s with connections := s.connections.erase socket } () t := by
    unfold closeSocket
    rw [amid_deref_bind]
    constructor
    · rintro ⟨c', here', ends⟩
      cases here.symm.trans here'
      rw [its] at ends
      exact ends
    · intro ends
      refine ⟨c, here, ?_⟩
      rw [its]
      exact ends
  rw [split, amid_bind]
  constructor
  · rintro ⟨_, v, sets, ends⟩
    obtain ⟨live, rfl⟩ := amid_internalSetData.mp sets
    obtain ⟨_, u, closes, assigns⟩ := amid_bind.mp ends
    obtain ⟨d, here', assigns⟩ := amid_deref_bind.mp assigns
    exact ⟨live, u, closes, d, here', amid_modify.mp assigns⟩
  · rintro ⟨live, u, closes, d, here', assigns⟩
    refine ⟨(), _, amid_internalSetData.mpr ⟨live, rfl⟩, amid_bind.mpr ⟨(), u, closes, ?_⟩⟩
    exact amid_deref_bind.mpr ⟨d, here', amid_modify.mpr assigns⟩

theorem closeSocket_alone (here : s.heap.lookup conn = some c) (its : c.socket = some socket)
    (ends : Amid (Alone env) (closeSocket conn) s () t) : socket ∈ s.sockets ∧
      ∃ m, t = { s with
          heap := StdMap.modify conn (fun c => { c with socket := none }) s.heap
          sockets := m
          connections := s.connections.erase socket } ∧
        (∀ k, k ≠ socket → m.lookup k = s.sockets.lookup k) ∧
        ∀ it, m.lookup socket = some it → it.userData = none ∧ it.closing = true := by
  obtain ⟨live, u, closes, d, here', rfl⟩ := (amid_closeSocket here its).mp ends
  refine ⟨live, ?_⟩
  have detached := unhooked_detached s socket
  obtain ⟨it, there, closes⟩ := amid_internalCloseSocket.mp closes
  have after : OnlySocket socket (unhooked s socket) u ∧ Detached u socket ∧ Closing u socket := by
    split at closes
    · rename_i closing
      rw [closes]
      refine ⟨.refl, detached, fun it' there' => ?_⟩
      cases there.symm.trans there'
      exact closing
    · obtain ⟨only, still⟩ :=
        closes.detached (detached_update detached fun _ => rfl) (closing_asked _ socket)
      exact ⟨(onlySocket_update _).trans only, still⟩
  obtain ⟨⟨m, rfl, others⟩, still, closing⟩ := after
  refine ⟨m, rfl, fun k other => ?_, fun it there => ⟨still.2 it there, closing it there⟩⟩
  rw [others k other]
  exact (StdMap.lookup_modify socket k _ s.sockets).trans (if_neg other)

theorem closeSocket_ends (here : s.heap.lookup conn = some c) (its : c.socket = some socket)
    (live : socket ∈ s.sockets) :
    ∃ t, Amid (Alone env) (closeSocket conn) s () t ∧ ∀ k, k ∈ t.sockets ↔ k ∈ s.sockets := by
  obtain ⟨it, there⟩ := StdMap.mem_iff_lookup.mp live
  have there' : (unhooked s socket).sockets.lookup socket = some { it with userData := none } :=
    StdMap.lookup_modify_some.mpr ⟨it, there, if_pos rfl⟩
  have closes : ∃ u : State, u.heap = s.heap ∧ (∀ k, k ∈ u.sockets ↔ k ∈ s.sockets) ∧
      Amid (Alone env) (internalCloseSocket socket) (unhooked s socket) () u := by
    by_cases closing : it.closing = true
    · refine ⟨unhooked s socket, rfl, fun k => StdMap.mem_modify,
        amid_internalCloseSocket.mpr ⟨_, there', ?_⟩⟩
      rw [if_pos closing]
    · refine ⟨{ unhooked s socket with
        toTables := (unhooked s socket).updateSocket socket fun it => { it with closing := true } },
        rfl, fun k => StdMap.mem_modify.trans StdMap.mem_modify,
        amid_internalCloseSocket.mpr ⟨_, there', ?_⟩⟩
      rw [if_neg closing]
      exact .quiet _
  obtain ⟨u, heap, sockets, closes⟩ := closes
  exact ⟨_, (amid_closeSocket here its).mpr ⟨live, u, closes, c, heap ▸ here, rfl⟩, sockets⟩

theorem amid_closeSocket_none (here : s.heap.lookup conn = some c) (its : c.socket = none) :
    Amid (Alone env) (closeSocket conn) s () t ↔ t = s := by
  unfold closeSocket
  rw [amid_deref_bind]
  constructor
  · rintro ⟨c', here', ends⟩
    cases here.symm.trans here'
    rw [its] at ends
    exact (amid_pure.mp ends).2
  · rintro rfl
    refine ⟨c, here, ?_⟩
    rw [its]
    exact amid_pure.mpr ⟨rfl, rfl⟩

theorem amid_blacklist : Amid (Alone env) (doWhen (c.inOrOut = .incoming)
      (blacklistPeer c.otherPeer)) s () t → t = { s with peerBlacklist := t.peerBlacklist } := by
  unfold doWhen
  split
  · intro ends
    obtain ⟨now, u, asks, notes⟩ := amid_bind.mp ends
    obtain ⟨-, rfl⟩ := amid_ask.mp asks
    rw [amid_modify.mp notes]
  · intro ends
    rw [(amid_pure.mp ends).2]

theorem blacklist_ends : ∃ t : State, t.toTables = s.toTables ∧
    Amid (Alone env) (doWhen (c.inOrOut = .incoming) (blacklistPeer c.otherPeer)) s () t := by
  unfold doWhen
  split
  · refine ⟨{ s with
        peerBlacklist := StdMap.emplace c.otherPeer ((0 : UInt64) + 5000) s.peerBlacklist },
      rfl, amid_bind.mpr ⟨(0 : UInt64), s, amid_ask.mpr ⟨⟨trivial, rfl⟩, rfl⟩, ?_⟩⟩
    exact amid_modify.mpr rfl
  · exact ⟨s, rfl, amid_pure.mpr ⟨rfl, rfl⟩⟩

theorem amid_setClosed {deleted : Bool} : Amid (Alone env) (setClosed conn deleted) s () t ↔
    ∃ u, Amid (Alone env) (closeSocket conn) s () u ∧ ∃ d, u.heap.lookup conn = some d ∧
      ∃ v, Amid (Alone env) (doWhen (d.inOrOut = .incoming) (blacklistPeer d.otherPeer)) u () v ∧
        t = { v with toTables :=
          (v.updateConnection conn fun c => { c with status := .closed }).unlist conn } := by
  unfold setClosed
  rw [amid_bind]
  constructor
  · rintro ⟨_, u, closes, ends⟩
    obtain ⟨d, here, ends⟩ := amid_deref_bind.mp ends
    obtain ⟨_, v, notes, ends⟩ := amid_bind.mp ends
    obtain ⟨_, w, passes, lists⟩ := amid_bind.mp ends
    obtain ⟨-, rfl⟩ := amid_ask.mp passes
    exact ⟨u, closes, d, here, _, notes, amid_modify.mp (amid_modify_bind.mp lists)⟩
  · rintro ⟨u, closes, d, here, v, notes, rfl⟩
    refine ⟨(), u, closes, amid_deref_bind.mpr ⟨d, here, amid_bind.mpr ⟨(), v, notes, ?_⟩⟩⟩
    refine amid_bind.mpr ⟨(), v, amid_ask.mpr ⟨⟨trivial, rfl⟩, rfl⟩, ?_⟩
    exact amid_modify_bind.mpr (amid_modify.mpr rfl)

theorem setClosed_none {deleted : Bool} (here : s.heap.lookup conn = some c)
    (its : c.socket = none) (ends : Amid (Alone env) (setClosed conn deleted) s () t) :
    t = { s with toTables := s.close conn, peerBlacklist := t.peerBlacklist } := by
  obtain ⟨u, closes, d, here', v, notes, rfl⟩ := amid_setClosed.mp ends
  rw [amid_blacklist notes]
  cases (amid_closeSocket_none here its).mp closes
  have heap : StdMap.modify conn (fun c : Connection => { c with status := .closed }) s.heap =
      StdMap.modify conn (fun c => { c with socket := none, status := .closed }) s.heap := by
    apply StdMap.modify_congr
    intro c' here''
    cases here.symm.trans here''
    rw [← its]
  simp only [Tables.close, Tables.updateConnection, heap]

theorem setClosed_alone {deleted : Bool} (here : s.heap.lookup conn = some c)
    (ends : Amid (Alone env) (setClosed conn deleted) s () t) :
    (∀ socket ∈ c.socket, socket ∈ s.sockets) ∧ ∃ m,
      t = { s with
        toTables := Tables.close conn { s with
          sockets := m, connections := unhook c.socket s.connections }
        peerBlacklist := t.peerBlacklist } ∧
      (∀ k, k ∉ c.socket → m.lookup k = s.sockets.lookup k) ∧
      ∀ socket ∈ c.socket, ∀ it, m.lookup socket = some it →
        it.userData = none ∧ it.closing = true := by
  cases its : c.socket with
  | none => exact ⟨nofun, s.sockets, setClosed_none here its ends, fun _ _ => rfl, nofun⟩
  | some socket =>
    obtain ⟨u, closes, d, here', v, notes, rfl⟩ := amid_setClosed.mp ends
    rw [amid_blacklist notes]
    obtain ⟨live, m, rfl, others, bare⟩ := closeSocket_alone here its closes
    refine ⟨fun _ h => Option.some.inj h ▸ live, m, ?_, ?_, ?_⟩
    · simp only [Tables.close, Tables.updateConnection, Tables.unlist, unhook, StdMap.modify_modify]
    · exact fun k other => others k fun eq => other (congrArg some eq.symm)
    · exact fun k h => Option.some.inj h ▸ bare

theorem setClosed_ends_quietly {deleted : Bool} (here : s.heap.lookup conn = some c)
    (live : ∀ socket ∈ c.socket, socket ∈ s.sockets) :
    ∃ t, Amid (Alone env) (setClosed conn deleted) s () t ∧ ∀ k, k ∈ t.sockets ↔ k ∈ s.sockets := by
  have closes : ∃ u d, Amid (Alone env) (closeSocket conn) s () u ∧
      u.heap.lookup conn = some d ∧ ∀ k, k ∈ u.sockets ↔ k ∈ s.sockets := by
    cases its : c.socket with
    | none => exact ⟨s, c, (amid_closeSocket_none here its).mpr rfl, here, fun _ => Iff.rfl⟩
    | some socket =>
      obtain ⟨u, closes, sockets⟩ : ∃ u, Amid (Alone env) (closeSocket conn) s () u ∧
          ∀ k, k ∈ u.sockets ↔ k ∈ s.sockets := closeSocket_ends here its (live socket its)
      refine ⟨u, { c with socket := none }, closes, ?_, sockets⟩
      obtain ⟨-, m, rfl, -⟩ := closeSocket_alone here its closes
      exact StdMap.lookup_modify_some.mpr ⟨c, here, if_pos rfl⟩
  obtain ⟨u, d, closes, here', sockets⟩ := closes
  obtain ⟨v, tables, notes⟩ : ∃ v : State, v.toTables = u.toTables ∧ Amid (Alone env)
      (doWhen (d.inOrOut = .incoming) (blacklistPeer d.otherPeer)) u () v := blacklist_ends
  refine ⟨_, amid_setClosed.mpr ⟨u, closes, d, here', v, notes, rfl⟩, fun k => ?_⟩
  have same : v.sockets = u.sockets := congrArg Tables.sockets tables
  rw [← sockets, ← same]
  exact Iff.rfl

theorem setClosed_ends {deleted : Bool} (here : s.heap.lookup conn = some c)
    (live : ∀ socket ∈ c.socket, socket ∈ s.sockets) :
    ∃ t, Amid (Alone env) (setClosed conn deleted) s () t := by
  obtain ⟨t, ends, -⟩ : ∃ t, Amid (Alone env) (setClosed conn deleted) s () t ∧
      ∀ k, k ∈ t.sockets ↔ k ∈ s.sockets := setClosed_ends_quietly here live
  exact ⟨t, ends⟩

theorem Tables.close_close (conn : ConnPtr) (s : Tables) :
    (s.close conn).close conn = s.close conn := by
  have listed : conn ∈ StdSet.insert conn s.remoteClosedConnections :=
    StdSet.mem_insert.mpr (Or.inl rfl)
  simp only [Tables.close, Tables.updateConnection, Tables.unlist, StdMap.modify_modify,
    StdMap.eraseValue_eraseValue, StdSet.erase_erase, StdSet.insert_of_mem listed]

theorem lookup_unhook {k : SocketPtr} {v : ConnPtr} {m : StdMap SocketPtr ConnPtr}
    {o : Option SocketPtr} :
    (unhook o m).lookup k = some v ↔ k ∉ o ∧ m.lookup k = some v := by
  cases o with
  | none => exact ⟨fun h => ⟨nofun, h⟩, fun h => h.2⟩
  | some socket =>
    change (m.erase socket).lookup k = some v ↔ _
    constructor
    · intro h
      obtain ⟨other, there⟩ := StdMap.lookup_erase_some h
      exact ⟨fun eq => other (Option.some.inj eq).symm, there⟩
    · rintro ⟨other, there⟩
      rw [AList.lookup_erase_ne fun eq => other (congrArg some eq.symm)]
      exact there

theorem closedIn_iff (here : s.heap.lookup conn = some c)
    (ends : Amid (Alone env) (humblenetConnectionSetClosed conn) s () t) :
    ClosedIn s.toTables conn c t.toTables ↔
      ∀ socket ∈ c.socket, ∀ k, s.connections.lookup socket = some k → k = conn := by
  obtain ⟨-, m, eq, others, bare⟩ := setClosed_alone here ends
  rw [eq]
  constructor
  · intro closed socket its k known
    by_contra other
    have there := (closed.connections socket k).mpr ⟨known, other⟩
    exact (lookup_unhook.mp (StdMap.lookup_eraseValue_some.mp there).1).1 its
  · intro own
    constructor
    · exact StdMap.lookup_modify_some.mpr ⟨c, here, if_pos rfl⟩
    · intro k other
      exact (StdMap.lookup_modify conn k _ s.heap).trans (if_neg other)
    · exact fun socket its it there => (bare socket its it there).1
    · exact others
    · intro socket k
      constructor
      · intro h
        obtain ⟨there, other⟩ := StdMap.lookup_eraseValue_some.mp h
        exact ⟨(lookup_unhook.mp there).2, other⟩
      · rintro ⟨there, other⟩
        have left := lookup_unhook.mpr ⟨fun its => other (own socket its k there), there⟩
        exact StdMap.lookup_eraseValue_some.mpr ⟨left, other⟩
    · exact fun k => StdSet.mem_erase
    · exact fun k => StdSet.mem_erase
    · exact fun peer k => StdMap.lookup_eraseValue_some
    · exact fun peer k => StdMap.lookup_eraseValue_some
    · exact fun name k => StdMap.lookup_eraseValue_some
    · exact fun k => StdSet.mem_insert.trans or_comm

/-- A call for a live connection has exactly its effect when the socket of the connection, if
it has one, is there and is known for no other connection. -/
theorem set_closed_exact_iff (here : s.heap.lookup conn = some c) :
    ClosesExactly env s conn c ↔ ∀ socket ∈ c.socket, socket ∈ s.sockets ∧
      ∀ k, s.connections.lookup socket = some k → k = conn := by
  constructor
  · rintro ⟨⟨t, ends⟩, exact_⟩ socket its
    exact ⟨(setClosed_alone here ends).1 socket its,
      (closedIn_iff here ends).mp (exact_ t ends).1 socket its⟩
  · intro own
    refine ⟨setClosed_ends here fun socket its => (own socket its).1, fun t ends => ?_⟩
    have closed := (closedIn_iff here ends).mpr fun socket its => (own socket its).2
    refine ⟨closed, setClosed_ends closed.closed nofun, fun u again => ?_⟩
    have same := setClosed_none closed.closed rfl again
    obtain ⟨-, m, eq, -⟩ := setClosed_alone here ends
    have twice : t.close conn = t.toTables := by
      rw [eq]
      exact Tables.close_close conn _
    rw [twice] at same
    exact same

end

def closable : Config Caller State Fault Query Query.Answer Unit → Bool
  | .running ⟨s, []⟩ => (s.heap.lookup 1).any fun c => c.socket.all fun socket =>
      decide (socket ∈ s.sockets) && (s.connections.lookup socket).all fun k => decide (k = 1)
  | _ => false

/-- A message has been sent to peer 9: giving the connection up has exactly its effect. -/
theorem set_closed_opening : ∃ s c,
    history welcome InOrder (introduction ++ [.sendto [1] 9 1 0]) = some (.running ⟨s, []⟩) ∧
    s.heap.lookup 1 = some c ∧ ClosesExactly welcome s 1 c := by
  have ready : (history welcome InOrder (introduction ++ [.sendto [1] 9 1 0])).any closable =
      true := by decide +kernel
  obtain ⟨c, h, closes⟩ := (Option.any_eq_true _ _).mp ready
  unfold closable at closes
  split at closes
  · rename_i s
    obtain ⟨c, here, closes⟩ := (Option.any_eq_true _ _).mp closes
    refine ⟨s, c, h, here, (set_closed_exact_iff here).mpr fun socket its => ?_⟩
    rw [Option.mem_def.mp its, Option.all_some, Bool.and_eq_true, decide_eq_true_eq] at closes
    refine ⟨closes.1, fun k known => ?_⟩
    have own := closes.2
    rw [known, Option.all_some] at own
    exact of_decide_eq_true own
  · cases closes

/-- While the transport closes the connection to peer 9 for the application, it lets go of the
socket, and the next one, for peer 8, is made at the same address and established. -/
def reusedSocket : Option (Config Caller State Fault Query Query.Answer Unit) :=
  (history welcome InOrder (introduction ++ [.sendto [1] 9 1 0])).bind fun c =>
    (beginning welcome InOrder (.disconnect 1 9) c).bind fun c =>
      (meanwhile welcome InOrder (.webrtc 1 .disconnected) c).bind fun c =>
        (meanwhile welcome InOrder (.webrtc 1 .destroy) c).bind fun c =>
          (meanwhile welcome InOrder (.sendto [1] 8 1 0) c).bind fun c =>
            (Config.settle (answers InOrder) 2 c).bind
              (meanwhile welcome InOrder (.webrtc 1 .established))

def socketOfFirst (s : State) : Option (SocketPtr × ConnPtr) :=
  (s.heap.lookup 1).bind fun c => c.socket.bind fun socket =>
    (s.connections.lookup socket).map fun k => (socket, k)

/-- Closing the first connection again takes the entry of the other. -/
theorem set_closed_takes_other : ∃ pool c, Run welcome InOrder (.running pool) ∧
    reusedSocket = some (.running pool) ∧ pool.state.heap.lookup 1 = some c ∧
    ¬ ClosesExactly welcome pool.state 1 c := by
  have reused : (reusedSocket.bind Config.now).bind socketOfFirst = some (1, 2) := by
    decide +kernel
  obtain ⟨s, now, other⟩ := Option.bind_eq_some_iff.mp reused
  obtain ⟨c, h, running⟩ := Option.bind_eq_some_iff.mp now
  obtain ⟨c₀, called, h'⟩ := Option.bind_eq_some_iff.mp h
  obtain ⟨c₁, closing, h'⟩ := Option.bind_eq_some_iff.mp h'
  obtain ⟨c₂, disconnected, h'⟩ := Option.bind_eq_some_iff.mp h'
  obtain ⟨c₃, destroyed, h'⟩ := Option.bind_eq_some_iff.mp h'
  obtain ⟨c₄, sends, h'⟩ := Option.bind_eq_some_iff.mp h'
  obtain ⟨c₅, settled, established⟩ := Option.bind_eq_some_iff.mp h'
  have run := run_beginning welcome (run_history welcome called) closing
  have run := run_meanwhile welcome (by decide) run disconnected
  have run := run_meanwhile welcome (by decide) run destroyed
  have run := run_meanwhile welcome (by decide) run sends
  have run := Setting.Reach.settle (answers_allowed welcome) run settled
  have run := run_meanwhile welcome (by decide) run established
  cases c with
  | crashed tag e s => cases running
  | running pool =>
    cases running
    obtain ⟨c, here, other⟩ := Option.bind_eq_some_iff.mp other
    obtain ⟨socket, its, other⟩ := Option.bind_eq_some_iff.mp other
    obtain ⟨k, known, eq⟩ := Option.map_eq_some_iff.mp other
    cases eq
    refine ⟨pool, c, run, h, here, ?_⟩
    rintro ⟨⟨t, ends⟩, exact_⟩
    have same := (closedIn_iff here ends).mp (exact_ t ends).1 1 its 2 known
    exact absurd same (by decide)

end HumbleNet.Client
