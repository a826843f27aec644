import HumbleNet.Client.Event

/-! What a client can do to its tables. `Does` lists the actions with what the code has
checked before each; the rules judge a program by the actions its segments consist of. -/
namespace HumbleNet.Client

open Guarded

/-- What a program has to do with beside the connections themselves: the packets, the peers
as the application knows them, the replies of the server. -/
structure Scope where
  packets : Bool
  peers : Bool
  replies : Bool

def Caller.scope : Caller → Scope
  | .application => ⟨true, true, false⟩
  | .websocket => ⟨false, false, true⟩
  | .transport => ⟨false, false, false⟩

variable {ok : Point → Tables → Prop} {scope : Scope}

def Tables.unplug (conn : ConnPtr) (s : Tables) : Tables :=
  s.updateConnection conn fun c => { c with socket := none }

def Tables.close (conn : ConnPtr) (s : Tables) : Tables :=
  (s.updateConnection conn fun c => { c with socket := none, status := .closed }).unlist conn

def Tables.release (conn : ConnPtr) (s : Tables) : Tables :=
  { s.close conn with
    virtualPeerConnections := s.virtualPeerConnections.eraseB conn
    remoteClosedConnections :=
      StdSet.erase conn (StdSet.insert conn s.remoteClosedConnections) }

def Tables.delete (conn : ConnPtr) (s : Tables) : Tables :=
  { s.release conn with heap := (s.release conn).heap.erase conn }

def Tables.arrive (conn : ConnPtr) (data : Bytes) (s : Tables) : Tables :=
  s.updateConnection conn fun c => { c with recvBuffer := c.recvBuffer ++ data }

inductive Does (ok : Point → Tables → Prop) (scope : Scope) (s : Tables) : Tables → Prop where
  | dial {conn : ConnPtr} {c : Connection} (fresh : conn ∉ s.heap)
    (empty : c.recvBuffer = []) (status : c.status = .connecting) (socket : c.socket ≠ none)
    (writable : c.writable = true) (passed : ok (.new conn) s) (outgoing : c.inOrOut = .outgoing)
    (pends : ok (.pend .outgoing c.otherPeer) (s.make conn c (some c.otherPeer))) :
    Does ok scope s
      { s.make conn c (some c.otherPeer) with
        pendingPeerConnectionsOut :=
          StdMap.emplace c.otherPeer conn s.pendingPeerConnectionsOut }
  | invite {conn : ConnPtr} {c : Connection}
    (fresh : conn ∉ s.heap) (empty : c.recvBuffer = []) (writable : c.writable = true)
    (passed : ok (.new conn) s) (status : c.status = .connecting)
    (incoming : c.inOrOut = .incoming)
    (pends : ok (.pend .incoming c.otherPeer) (s.make conn c none))
    (own : scope.replies = true) :
    Does ok scope s
      { s.make conn c none with
        pendingPeerConnectionsIn :=
          StdMap.emplace c.otherPeer conn s.pendingPeerConnectionsIn }
  | createAlias {conn : ConnPtr} (fresh : conn ∉ s.heap)
    (name : Bytes) (vpeer : PeerId) (passed : ok (.new conn) s) (own : scope.peers = true) :
    Does ok scope s
      { s.make conn (Connection.new .outgoing) (some vpeer) with
        pendingAliasConnectionsOut := StdMap.emplace name conn s.pendingAliasConnectionsOut
        virtualPeerConnections := s.virtualPeerConnections.insert vpeer conn }
  | unpend (name : Bytes) (own : scope.replies = true) :
    Does ok scope s
      { s with pendingAliasConnectionsOut := s.pendingAliasConnectionsOut.erase name }
  | resolve {conn : ConnPtr} {c : Connection} {name : Bytes}
    (pending : s.pendingAliasConnectionsOut.lookup name = some conn)
    (here : s.heap.lookup conn = some c) (peer : PeerId)
    (pends : ok (.pend .outgoing peer)
      { s.updateConnection conn fun c => { c with otherPeer := peer } with
        pendingAliasConnectionsOut := s.pendingAliasConnectionsOut.erase name })
    (own : scope.replies = true) :
    Does ok scope s
      { s.updateConnection conn fun c => { c with otherPeer := peer } with
        pendingAliasConnectionsOut := s.pendingAliasConnectionsOut.erase name
        pendingPeerConnectionsOut := StdMap.emplace peer conn s.pendingPeerConnectionsOut }
  | openSocket (conn : ConnPtr) (socket : Option SocketPtr) (passed : ok (.opening conn) s)
    (own : scope.replies = true) :
    Does ok scope s (s.updateConnection conn fun c => { c with socket := socket })
  | adopt {conn : ConnPtr} {c : Connection} {socket : SocketPtr}
    (here : s.heap.lookup conn = some c) (its : c.socket = some socket)
    (passed : ok (.adopt conn) s) (own : scope.replies = true) :
    Does ok scope s (s.updateSocket socket fun it => { it with userData := some conn })
  | greet (peer : PeerId) (passed : ok (.greet peer) s) (own : scope.replies = true) :
    Does ok scope s
      { s with
        greeted := s.greeted <|> some peer
        myPeerId := if s.myPeerId ≠ 0 then s.myPeerId else peer }
  | detach (socket : SocketPtr) :
    Does ok scope s { s with connections := s.connections.erase socket }
  | attach {conn : ConnPtr} {c : Connection}
    (here : s.heap.lookup conn = some c) (status : c.status = .connecting)
    (socket : SocketPtr) (there : socket ∈ s.sockets) :
    Does ok scope s { s with connections := StdMap.emplace socket conn s.connections }
  | connected {conn : ConnPtr} {c : Connection} {socket : SocketPtr} {it : InternalSocket}
    (here : s.heap.lookup conn = some c) (status : c.status = .connecting)
    (there : s.sockets.lookup socket = some it) (its : it.userData = some conn)
    (passed : ok (.connected conn)
      (s.updateSocket socket fun it => { it with stage := .opened })) :
    Does ok scope s
      ((s.updateSocket socket fun it => { it with stage := .opened }).updateConnection conn
        fun c => { c with status := .connected })
  | close {conn : ConnPtr} {c : Connection} (here : s.heap.lookup conn = some c)
    (passed : ok (.setClosed conn c.recvBuffer false) (s.unplug conn)) :
    Does ok scope s (s.close conn)
  | delete {conn : ConnPtr} {c : Connection} (here : s.heap.lookup conn = some c)
    (closes : ok (.setClosed conn c.recvBuffer true) (s.unplug conn))
    (passed : ok (.delete conn) (s.release conn)) :
    Does ok scope s (s.delete conn)
  | createSocket {socket : SocketPtr} (fresh : socket ∉ s.sockets) :
    Does ok scope s { s with sockets := s.sockets.insert socket .new }
  | setData {conn : ConnPtr} {c : Connection} {socket : SocketPtr}
    (here : s.heap.lookup conn = some c) (its : c.socket = some socket)
    (status : c.status = .connecting) (new : s.sockets.lookup socket = some .new) :
    Does ok scope s (s.updateSocket socket fun it => { it with userData := some conn })
  | clearData (socket : SocketPtr) :
    Does ok scope s (s.updateSocket socket fun it => { it with userData := none })
  | updateSocket (socket : SocketPtr) (f : InternalSocket → InternalSocket)
    (data : ∀ it, (f it).userData = it.userData)
    (stage : ∀ it, (f it).stage = it.stage ∨ (f it).stage = .disconnected) :
    Does ok scope s (s.updateSocket socket f)
  | established (socket : SocketPtr) (passed : ok (.callback socket .established) s) :
    Does ok scope s (s.updateSocket socket fun it => { it with stage := .established })
  | destroy (socket : SocketPtr) (passed : ok (.callback socket .destroy) s) :
    Does ok scope s { s with sockets := s.sockets.erase socket }
  | receive {conn : ConnPtr} {c : Connection} {data : Bytes}
    (here : s.heap.lookup conn = some c) (passed : ok (.arrive conn data) s) :
    Does ok scope s
      { s.arrive conn data with
        pendingDataConnections :=
          if c.recvBuffer = [] then StdSet.insert conn s.pendingDataConnections
          else s.pendingDataConnections }
  | relay {conn : ConnPtr} {c : Connection} {data : Bytes}
    (here : s.heap.lookup conn = some c) (passed : ok (.arrive conn data) s) :
    Does ok scope s
      { s.arrive conn data with
        pendingDataConnections := StdSet.insert conn s.pendingDataConnections }
  | read {conn : ConnPtr} {c : Connection}
    (here : s.heap.lookup conn = some c) (left : Bytes) :
    Does ok scope s
      { s.updateConnection conn fun c => { c with recvBuffer := left } with
        pendingDataConnections :=
          if left.isEmpty then StdSet.erase conn s.pendingDataConnections
          else StdSet.insert conn s.pendingDataConnections }
  | pollClosed (conn : ConnPtr) :
    Does ok scope s
      { s with remoteClosedConnections := StdSet.erase conn s.remoteClosedConnections }
  | accept (conn : ConnPtr) :
    Does ok scope s { s with pendingNewConnections := StdSet.erase conn s.pendingNewConnections }
  | track {conn : ConnPtr} {c : Connection}
    (here : s.heap.lookup conn = some c) (peer : PeerId) (own : scope.peers = true) :
    Does ok scope s { s with p2pconnections := StdMap.emplace peer conn s.p2pconnections }
  | untrack (peer : PeerId) (own : scope.peers = true) :
    Does ok scope s { s with p2pconnections := s.p2pconnections.erase peer }
  | unalias (peer : PeerId) (own : scope.peers = true) :
    Does ok scope s
      { s with virtualPeerConnections := s.virtualPeerConnections.eraseA peer }
  | report (source : Option ConnPtr) (told : List (ConnPtr × PeerId))
    (own : scope.peers = true) :
    Does ok scope s { s with source := source, told := told }
  | beginSession (passed : ok .beginSession s) (id : PeerId)
    (known : id = s.myPeerId ∨ id = 0) :
    Does ok scope s { s with session := s.session + 1, greeted := none, myPeerId := id }
  | insertDatagram {conn : ConnPtr} {c : Connection}
    (here : s.heap.lookup conn = some c) (own : scope.packets = true) :
    Does ok scope s
      { s with
        datagrams :=
          StdMap.emplace conn (DatagramConnection.new conn c.otherPeer) s.datagrams }
  | updateDatagram (conn : ConnPtr)
    (f : DatagramConnection → DatagramConnection) (same : ∀ dg, (f dg).conn = dg.conn)
    (own : scope.packets = true) :
    Does ok scope s (s.updateDatagram conn f)
  | eraseDatagram (conn : ConnPtr) (own : scope.packets = true) :
    Does ok scope s { s with datagrams := s.datagrams.erase conn }
  | queue (queued : Bool) (own : scope.packets = true) :
    Does ok scope s { s with queuedPackets := queued }

structure Scope.Within (scope scope' : Scope) : Prop where
  packets : scope.packets = true → scope'.packets = true
  peers : scope.peers = true → scope'.peers = true
  replies : scope.replies = true → scope'.replies = true

theorem Does.mono {scope' : Scope} (within : scope.Within scope') {s t : Tables}
    (does : Does ok scope s t) : Does ok scope' s t := by
  cases does with
  | dial fresh empty status socket writable passed outgoing pends =>
    exact .dial fresh empty status socket writable passed outgoing pends
  | invite fresh empty writable passed status incoming pends own =>
    exact .invite fresh empty writable passed status incoming pends (within.replies own)
  | createAlias fresh name vpeer passed own =>
    exact .createAlias fresh name vpeer passed (within.peers own)
  | unpend name own => exact .unpend name (within.replies own)
  | resolve pending here peer pends own =>
    exact .resolve pending here peer pends (within.replies own)
  | openSocket conn socket passed own => exact .openSocket conn socket passed (within.replies own)
  | adopt here its passed own => exact .adopt here its passed (within.replies own)
  | greet peer passed own => exact .greet peer passed (within.replies own)
  | detach socket => exact .detach socket
  | attach here status socket there => exact .attach here status socket there
  | connected here status there its passed => exact .connected here status there its passed
  | close here passed => exact .close here passed
  | delete here closes passed => exact .delete here closes passed
  | createSocket fresh => exact .createSocket fresh
  | setData here its status new => exact .setData here its status new
  | clearData socket => exact .clearData socket
  | updateSocket socket f data stage => exact .updateSocket socket f data stage
  | established socket passed => exact .established socket passed
  | destroy socket passed => exact .destroy socket passed
  | receive here passed => exact .receive here passed
  | relay here passed => exact .relay here passed
  | read here left => exact .read here left
  | pollClosed conn => exact .pollClosed conn
  | accept conn => exact .accept conn
  | track here peer own => exact .track here peer (within.peers own)
  | untrack peer own => exact .untrack peer (within.peers own)
  | unalias peer own => exact .unalias peer (within.peers own)
  | report source told own => exact .report source told (within.peers own)
  | beginSession passed id known => exact .beginSession passed id known
  | insertDatagram here own => exact .insertDatagram here (within.packets own)
  | updateDatagram conn f same own => exact .updateDatagram conn f same (within.packets own)
  | eraseDatagram conn own => exact .eraseDatagram conn (within.packets own)
  | queue queued own => exact .queue queued (within.packets own)

/-- A callback finds a connection at its socket that is not in the status expected. -/
def Unexpected (ok : Point → Tables → Prop) (reason : WebrtcReason) (status : ConnectionStatus)
    (t : Tables) : Prop :=
  ∃ socket it conn c, ok (.callback socket reason) t ∧ t.sockets.lookup socket = some it ∧
    it.userData = some conn ∧ t.heap.lookup conn = some c ∧ c.status ≠ status

def Unattached (ok : Point → Tables → Prop) (reason : WebrtcReason) (t : Tables) : Prop :=
  ∃ socket it, ok (.callback socket reason) t ∧ t.sockets.lookup socket = some it ∧
    it.userData = none

/-- Where an assertion fails, its condition is false. -/
def Blame (ok : Point → Tables → Prop) : Fault → Tables → Prop
  | .assertion .onDataPending, t | .assertion .readAllEmpty, t | .assertion .pollAll, t =>
    ∃ conn c, t.heap.lookup conn = some c ∧ conn ∈ t.pendingDataConnections ∧ c.recvBuffer = []
  | .assertion .readAllPending, t =>
    ∃ conn c, t.heap.lookup conn = some c ∧ conn ∉ t.pendingDataConnections ∧ c.recvBuffer ≠ []
  | .assertion .answerPeer, t =>
    ∃ peer conn c, t.pendingPeerConnectionsOut.lookup peer = some conn ∧
      t.heap.lookup conn = some c ∧ c.otherPeer ≠ peer
  | .assertion .answerSocket, t =>
    ∃ peer conn c, t.pendingPeerConnectionsOut.lookup peer = some conn ∧
      t.heap.lookup conn = some c ∧ c.socket = none
  | .assertion .answerStatus, t =>
    ∃ peer conn c, ok (.answer peer) t ∧ t.pendingPeerConnectionsOut.lookup peer = some conn ∧
      t.heap.lookup conn = some c ∧ c.status ≠ .connecting
  | .assertion .onSdp, t => ∃ offer, Unexpected ok (.localDescription offer) .connecting t
  | .assertion .onConnect, t =>
    Unattached ok .established t ∨ Unexpected ok .established .connecting t
  | .assertion .onAcceptChannel, t =>
    Unattached ok .channelAccepted t ∨ Unexpected ok .channelAccepted .connecting t
  | .assertion .onConnectChannel, t =>
    Unattached ok .channelConnected t ∨ Unexpected ok .channelConnected .connecting t
  | .assertion .onData, t => ∃ data, Unexpected ok (.channelReceive data) .connected t
  | .assertion .connectionRead, t =>
    ∃ conn c, ok (.read conn) t ∧ t.heap.lookup conn = some c ∧
      ¬ (c.status = .closed ↔ c.socket = none)
  | .assertion .connectionWrite, t =>
    ∃ conn c, t.heap.lookup conn = some c ∧ c.status = .connected ∧ c.socket = none
  | _, _ => True

def Evolves (ok : Point → Tables → Prop) (scope : Scope) : Tables → Tables → Prop :=
  Relation.ReflTransGen (Does ok scope)

def terms (ok : Point → Tables → Prop) (scope : Scope) :
    Terms State Fault Query Query.Answer where
  allowed q s a t := q.Allowed s a t ∧ ∀ point, q = .mark point → ok point s.toTables
  rely _ _ := True
  guar s t := Evolves ok scope s.toTables t.toTables
  blame e t := Blame ok e t.toTables
  refl _ := Relation.ReflTransGen.refl
  trans _ _ _ := Relation.ReflTransGen.trans

section reads

variable {α β : Type} {T : Terms State Fault Query Query.Answer} {post : β → State → Prop}
  {b s : State}

theorem meets_through {e : Fault} (free : ∀ u, T.blame e u) {o : Option α} {f : α → ClientM β}
    (h : ∀ a, o = some a → (f a s).Meets T post b) :
    ((through e o >>= f) s).Meets T post b := by
  cases o with
  | none => exact ⟨b, T.refl b, free b⟩
  | some a => exact h a rfl

theorem meets_deref (free : ∀ u, T.blame .dangling u) {conn : ConnPtr}
    {f : Connection → ClientM β}
    (h : ∀ c, s.heap.lookup conn = some c → (f c s).Meets T post b) :
    ((deref conn >>= f) s).Meets T post b := meets_through free h

theorem meets_derefDatagram (free : ∀ u, T.blame .dangling u) {conn : ConnPtr}
    {f : DatagramConnection → ClientM β}
    (h : ∀ dg, s.datagrams.lookup conn = some dg → (f dg s).Meets T post b) :
    ((derefDatagram conn >>= f) s).Meets T post b := meets_through free h

end reads

def Acts {α : Type} (ok : Point → Tables → Prop) (scope : Scope) (b : State)
    (c : Course State Fault Query Query.Answer α) : Prop :=
  Course.Meets (terms ok scope) (fun _ _ => True) b c

section rules

variable {α β : Type} {b s : State}

theorem acts_commit {c : Course State Fault Query Query.Answer α} {t : State}
    (guar : Evolves ok scope b.toTables t.toTables) (h : Acts ok scope t c) : Acts ok scope b c :=
  Course.Meets.earlier guar h

theorem acts_step {c : Course State Fault Query Query.Answer α} {t : State}
    (does : Does ok scope b.toTables t.toTables) (h : Acts ok scope t c) : Acts ok scope b c :=
  acts_commit (Relation.ReflTransGen.single does) h

theorem acts_pure {a : α} (guar : Evolves ok scope b.toTables s.toTables) :
    Acts ok scope b ((pure a : ClientM α) s) := meets_pure guar trivial

theorem acts_bind {x : ClientM α} {f : α → ClientM β} (h : Acts ok scope b (x s))
    (next : ∀ a t, Acts ok scope t (f a t)) : Acts ok scope b ((x >>= f) s) :=
  meets_bind h fun a t _ => next a t

theorem acts_get {f : State → ClientM β} (h : Acts ok scope b (f s s)) :
    Acts ok scope b ((get >>= f) s) := h

theorem acts_modify {g : State → State} {f : Unit → ClientM β}
    (h : Acts ok scope b (f () (g s))) : Acts ok scope b ((modify g >>= f) s) := h

theorem acts_modify_last {g : State → State}
    (guar : Evolves ok scope b.toTables (g s).toTables) :
    Acts ok scope b ((modify g : ClientM Unit) s) := ⟨guar, trivial⟩

theorem acts_modifyTables {g : Tables → Tables} {f : Unit → ClientM β}
    (h : Acts ok scope b (f () { s with toTables := g s.toTables })) :
    Acts ok scope b ((modifyTables g >>= f) s) := h

theorem acts_modifyTables_last {g : Tables → Tables}
    (guar : Evolves ok scope b.toTables (g s.toTables)) :
    Acts ok scope b ((modifyTables g : ClientM Unit) s) := ⟨guar, trivial⟩

theorem acts_ask {q : Query} {f : q.Answer → ClientM β}
    (h : ∀ a, q.Allowed s a s → (∀ point, q = .mark point → ok point s.toTables) →
      Acts ok scope b (f a s)) : Acts ok scope b ((ask q >>= f) s) :=
  fun a ha => h a ha.1 ha.2

theorem acts_mark {point : Point} {f : Unit → ClientM β}
    (h : ok point s.toTables → Acts ok scope b (f () s)) :
    Acts ok scope b ((mark point >>= f) s) :=
  fun _ ha => h (ha.2 point rfl)

theorem acts_unguarded {q : Query} {f : q.Answer → ClientM β}
    (guar : Evolves ok scope b.toTables s.toTables)
    (h : ∀ a t, q.Allowed s a t → Acts ok scope t (f a t)) :
    Acts ok scope b ((unguarded q >>= f) s) :=
  ⟨guar, fun a t ha _ => h a t ha.1⟩

theorem acts_unguarded_last {q : Query} (guar : Evolves ok scope b.toTables s.toTables) :
    Acts ok scope b ((unguarded q : ClientM q.Answer) s) :=
  meets_unguarded_last guar fun _ _ _ _ => trivial

theorem acts_fault {e : Fault} (free : ∀ t, Blame ok e t) :
    Acts ok scope b ((fault e : ClientM α) s) :=
  ⟨b, Relation.ReflTransGen.refl, free b.toTables⟩

theorem acts_through {e : Fault} {o : Option α} {f : α → ClientM β}
    (free : ∀ t, Blame ok e t) (h : ∀ a, o = some a → Acts ok scope b (f a s)) :
    Acts ok scope b ((through e o >>= f) s) :=
  meets_through (T := terms ok scope) (fun u => free u.toTables) h

theorem acts_field {o : Option α} {f : α → ClientM β}
    (h : ∀ a, o = some a → Acts ok scope b (f a s)) :
    Acts ok scope b ((field o >>= f) s) := acts_through (fun _ => trivial) h

theorem acts_deref {conn : ConnPtr} {f : Connection → ClientM β}
    (h : ∀ c, s.heap.lookup conn = some c → Acts ok scope b (f c s)) :
    Acts ok scope b ((deref conn >>= f) s) := acts_through (fun _ => trivial) h

theorem acts_derefSocket {socket : SocketPtr} {f : InternalSocket → ClientM β}
    (h : ∀ it, s.sockets.lookup socket = some it → Acts ok scope b (f it s)) :
    Acts ok scope b ((derefSocket socket >>= f) s) := acts_through (fun _ => trivial) h

theorem acts_assert {c : Prop} [Decidable c] {a : Assertion} {f : Unit → ClientM β}
    (yes : c → Acts ok scope b (f () s))
    (no : ¬ c → ∃ u : State, Evolves ok scope b.toTables u.toTables ∧
      Blame ok (.assertion a) u.toTables) : Acts ok scope b ((assert c a >>= f) s) := by
  unfold assert
  split
  · exact yes ‹_›
  · exact no ‹_›

theorem acts_doWhen {c : Prop} [Decidable c] {x : ClientM Unit}
    (guar : Evolves ok scope b.toTables s.toTables) (yes : c → Acts ok scope b (x s)) :
    Acts ok scope b ((doWhen c x) s) :=
  meets_doWhen yes fun _ => ⟨guar, trivial⟩

end rules

end HumbleNet.Client
