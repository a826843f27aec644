import HumbleNet.Client.Run
import HumbleNet.Client.Sending

/-! What a message becomes that `humblenet_datagram_send` reports as sent: a header and the
message are put behind the packets that wait. The size word of the header has sixteen bits. -/
namespace HumbleNet.Client

open Guarded

def Tables.waiting (t : Tables) (conn : ConnPtr) : Bytes :=
  ((t.datagrams.lookup conn).map DatagramConnection.bufOut).getD []

theorem waiting_of_entry {t : Tables} {conn : ConnPtr} {dg : DatagramConnection}
    (entry : t.datagrams.lookup conn = some dg) : t.waiting conn = dg.bufOut := by
  simp only [Tables.waiting, entry, Option.map_some, Option.getD_some]

theorem waiting_updateDatagram {t : Tables} {conn : ConnPtr} {dg : DatagramConnection}
    (entry : t.datagrams.lookup conn = some dg) (f : DatagramConnection → DatagramConnection) :
    (t.updateDatagram conn f).waiting conn = (f dg).bufOut := by
  apply waiting_of_entry
  exact StdMap.lookup_modify_some.mpr ⟨dg, entry, if_pos rfl⟩

theorem waiting_insertDatagram {t : Tables} (conn k : ConnPtr) (peer : PeerId) :
    ({ t with datagrams := StdMap.emplace conn (DatagramConnection.new conn peer) t.datagrams } :
      Tables).waiting k = t.waiting k := by
  simp only [Tables.waiting, StdMap.lookup_emplace]
  by_cases h : k = conn
  · subst h
    rw [if_pos rfl]
    cases t.datagrams.lookup k with
    | none => rfl
    | some dg => rfl
  · rw [if_neg h]

def Tables.sender (t : Tables) (conn : ConnPtr) : ConnPtr :=
  ((t.datagrams.lookup conn).map DatagramConnection.conn).getD conn

/-- What `humblenet_connection_write` calls for an open connection that it is given all these
bytes for. -/
def passesOn (env : Externals) (s : State) (c : Connection) (bytes : Bytes) : List Query :=
  let bufsize := UInt32.ofNat bytes.length
  if usesRelay s.hints then
    ((s.p2pConn.bind P2PSignalConnection.wsi).map fun wsi => Query.libwebsocketWrite wsi
      (frame env (sendP2PRelayData id c.otherPeer bytes bufsize.toUInt16))).toList
  else
    (c.socket.map fun socket =>
      if (s.sockets.lookup socket).any InternalSocket.webrtcChannel then
        Query.libwebrtcWrite socket (bytes.take bufsize.toNat)
      else Query.pause).toList

def Query.Idle : Query → Prop
  | .padding => True
  | .mark _ => True
  | _ => False

/-- The connection of the entry is open, and the calls are those of one write of these bytes to
it. -/
def Writes (env : Externals) (s : State) (conn : ConnPtr) (log : ClientLog) (bytes : Bytes) :
    Prop :=
  ∃ c before, s.heap.lookup (s.sender conn) = some c ∧ c.status = .connected ∧
    c.writable = true ∧ (∀ q ∈ before, Query.Idle q) ∧
      log.map Sigma.fst = before ++ passesOn env s c bytes

/-- A call appends these bytes to the outgoing stream of a connection: they wait behind what
has waited and nothing is passed on, or all of it has been handed over in one write. -/
def Appends (env : Externals) (conn : ConnPtr) (s : State) (log : ClientLog) (t : State)
    (bytes : Bytes) : Prop :=
  t.waiting conn = s.waiting conn ++ bytes ∧ (∀ q ∈ log.map Sigma.fst, Query.Idle q) ∨
    t.waiting conn = [] ∧ Writes env s conn log (s.waiting conn ++ bytes)

/-- Wherever these bytes stand between packets, they are read as one packet with this payload,
and what follows is read as it stands. -/
def ReadsAs (channel : UInt8) (message bytes : Bytes) : Prop :=
  ∃ p : Packet, p.channel = channel ∧ p.payload = message ∧
    ∀ (before : List Packet) (more : Bytes),
      packets (packetCodec.encodeAll before ++ (bytes ++ more)) = before ++ p :: packets more

theorem readsAs_iff (channel padding : UInt8) (seq : UInt32) (message : Bytes) :
    ReadsAs channel message (datagramHeader message.length channel padding seq ++ message) ↔
      message.length < 2 ^ 16 := by
  constructor
  · rintro ⟨p, -, rfl, -⟩
    exact p.fits
  · intro fits
    refine ⟨⟨channel, padding, seq, message, fits⟩, rfl, rfl, fun before more => ?_⟩
    change packetCodec.records _ = _
    rw [packetCodec.records_encodeAll_append]
    exact congrArg (before ++ ·) (packets_bytes ⟨channel, padding, seq, message, fits⟩ more)

section programs

variable {env : Externals} {s t : State} {log : ClientLog} {conn : ConnPtr}

theorem internalWriteSocket_calls {socket : Option SocketPtr} {buf : Bytes} {ret : Int}
    (ends : Runs (internalWriteSocket socket buf) s log ret t) : log.map Sigma.fst =
      (socket.map fun socket =>
        if (s.sockets.lookup socket).any InternalSocket.webrtcChannel then
          Query.libwebrtcWrite socket buf
        else Query.pause).toList := by
  cases socket with
  | none => exact absurd ends ends_fault
  | some socket =>
    obtain ⟨it, there, ends⟩ := ends_derefSocket_bind.mp ends
    simp only [Option.map_some, Option.toList_some, there, Option.any_some]
    split at ends
    · rename_i channel
      cases ends with
      | released answer ends =>
        cases ends
        rw [if_pos channel]
        rfl
    · rename_i shut
      obtain ⟨_, l, answer, last, rfl⟩ := ends_unguarded_bind.mp ends
      obtain ⟨rfl, -, -⟩ := ends_pure.mp last
      rw [if_neg shut]
      rfl

theorem sendP2PMessage_calls {msg : Message} {sent : Bool}
    (ends : Runs (sendP2PMessage env msg) s log sent t) : log.map Sigma.fst =
      ((s.p2pConn.bind P2PSignalConnection.wsi).map fun wsi =>
        Query.libwebsocketWrite wsi (frame env msg)).toList := by
  replace ends := ends_get_bind.mp ends
  split at ends
  · rename_i alone
    rw [(ends_pure.mp ends).1, alone]
    rfl
  · rename_i signal here
    rw [here, Option.bind_some]
    split at ends
    · rename_i closed
      rw [(ends_pure.mp ends).1, closed]
      rfl
    · rename_i wsi opened
      obtain ⟨ret, l, answer, last, rfl⟩ := ends_unguarded_bind.mp ends
      obtain ⟨rfl, -, -⟩ := ends_pure.mp last
      rw [opened]
      rfl

theorem connectionWrite_calls {c : Connection} {bytes : Bytes} {ret : Int}
    (here : s.heap.lookup conn = some c) (connected : c.status = .connected)
    (ends : Runs (humblenetConnectionWrite env conn bytes (UInt32.ofNat bytes.length)) s log ret t) :
    log.map Sigma.fst = passesOn env s c bytes := by
  obtain ⟨c', here', ends⟩ := ends_deref_bind.mp ends
  rw [here] at here'
  cases here'
  rw [connected] at ends
  obtain ⟨-, ends⟩ := ends_assert_bind.mp ends
  replace ends := ends_get_bind.mp ends
  unfold passesOn
  split at ends
  · rename_i relays
    rw [if_pos relays]
    obtain ⟨l, sent, u, l', send, last, rfl⟩ := ends_bind.mp ends
    have nothing : l' = [] := by
      split at last
      · exact (ends_pure.mp last).1
      · exact (ends_pure.mp last).1
    rw [nothing, List.append_nil]
    exact sendP2PMessage_calls send
  · rename_i direct
    rw [if_neg direct]
    exact internalWriteSocket_calls ends

theorem datagramFlush_appends {x : Unit} (ends : Runs (datagramFlush env conn) s log x t) :
    t.waiting conn = s.waiting conn ∧ log = [] ∨
      t.waiting conn = [] ∧ Writes env s conn log (s.waiting conn) := by
  obtain ⟨dg, entry, ends⟩ := ends_derefDatagram_bind.mp ends
  split at ends
  · obtain ⟨rfl, -, rfl⟩ := ends_pure.mp ends
    exact Or.inl ⟨rfl, rfl⟩
  · obtain ⟨l₁, writable, u, l', test, next, rfl⟩ := ends_bind.mp ends
    obtain ⟨c, here, rfl, rfl, opened⟩ : ∃ c, s.heap.lookup dg.conn = some c ∧ l₁ = [] ∧ u = s ∧
        (writable = true → c.status = .connected ∧ c.writable = true) := by
      obtain ⟨c, here, test⟩ := ends_deref_bind.mp test
      refine ⟨c, here, ?_⟩
      split at test
      · rename_i connected
        obtain ⟨rfl, rfl, rfl⟩ := ends_pure.mp test
        exact ⟨rfl, rfl, fun writable => ⟨connected, writable⟩⟩
      · obtain ⟨rfl, rfl, rfl⟩ := ends_pure.mp test
        exact ⟨rfl, rfl, fun h => by cases h⟩
    split at next
    · rename_i goes
      obtain ⟨connected, free⟩ := opened goes
      obtain ⟨l₂, ret, v, l₃, write, rest, rfl⟩ := ends_bind.mp next
      obtain ⟨l₄, _, w, l₅, clear, last, rfl⟩ := ends_bind.mp rest
      obtain ⟨dg', entry', last⟩ := ends_derefDatagram_bind.mp last
      obtain ⟨rfl, rfl⟩ := ends_modify.mp last
      have silent : l₄ = [] := by
        unfold doWhen at clear
        split at clear
        · exact (ends_modify.mp clear).1
        · exact (ends_pure.mp clear).1
      right
      refine ⟨?_, c, [], ?_, connected, free, by simp, ?_⟩
      · exact waiting_updateDatagram entry' fun dg => { dg with bufOut := [], queued := 0 }
      · have its : u.sender conn = dg.conn := by
          simp only [Tables.sender, entry, Option.map_some, Option.getD_some]
        rw [its]
        exact here
      · rw [silent, waiting_of_entry entry, List.nil_append, List.nil_append, List.append_nil]
        exact connectionWrite_calls here connected write
    · obtain ⟨rfl, -, rfl⟩ := ends_pure.mp next
      exact Or.inl ⟨rfl, rfl⟩

structure Poised (conn : ConnPtr) (s t : State) : Prop where
  heap : t.heap = s.heap
  sockets : t.sockets = s.sockets
  p2pConn : t.p2pConn = s.p2pConn
  hints : t.hints = s.hints
  sender : t.sender conn = s.sender conn

theorem Writes.poised {u : State} {bytes : Bytes} (poised : Poised conn s u)
    (writes : Writes env u conn log bytes) : Writes env s conn log bytes := by
  obtain ⟨c, before, here, connected, free, idle, calls⟩ := writes
  rw [poised.sender, poised.heap] at here
  unfold passesOn at calls
  rw [poised.hints, poised.p2pConn, poised.sockets] at calls
  exact ⟨c, before, here, connected, free, idle, calls⟩

theorem Writes.after {bytes : Bytes} {earlier : ClientLog}
    (idle : ∀ q ∈ earlier.map Sigma.fst, Query.Idle q) (writes : Writes env s conn log bytes) :
    Writes env s conn (earlier ++ log) bytes := by
  obtain ⟨c, before, here, connected, free, idle', calls⟩ := writes
  refine ⟨c, earlier.map Sigma.fst ++ before, here, connected, free, ?_, ?_⟩
  · exact fun q mem => (List.mem_append.mp mem).elim (idle q) (idle' q)
  · rw [List.map_append, calls, List.append_assoc]

theorem insertDatagram_poised {x : Unit} (ends : Runs (insertDatagram conn) s log x t) :
    t.waiting conn = s.waiting conn ∧ log = [] ∧ Poised conn s t := by
  obtain ⟨c, here, eq⟩ := insertDatagram_ends ends
  have silent : log = [] := by
    obtain ⟨_, _, put⟩ := ends_deref_bind.mp ends
    exact (ends_modify.mp put).1
  subst eq
  refine ⟨waiting_insertDatagram conn conn c.otherPeer, silent, rfl, rfl, rfl, rfl, ?_⟩
  simp only [Tables.sender, StdMap.lookup_emplace, if_pos]
  cases s.datagrams.lookup conn with
  | none => rfl
  | some dg => rfl

theorem enqueue_poised {message : Bytes} {channel : UInt8} {x : Unit}
    (ends : Runs (enqueue conn message channel) s log x t) : (∃ padding seq, t.waiting conn =
      s.waiting conn ++ (datagramHeader message.length channel padding seq ++ message)) ∧
      (∀ q ∈ log.map Sigma.fst, Query.Idle q) ∧ Poised conn s t := by
  obtain ⟨dg, entry, ends⟩ := ends_derefDatagram_bind.mp ends
  obtain ⟨padding, l, -, put, rfl⟩ := ends_ask_bind.mp ends
  obtain ⟨rfl, rfl⟩ := ends_modify.mp put
  refine ⟨⟨padding, dg.seqOut, ?_⟩, ?_, rfl, rfl, rfl, rfl, ?_⟩
  · rw [waiting_of_entry entry, ← List.append_assoc]
    exact waiting_updateDatagram entry fun dg' =>
      { dg' with
        bufOut := dg'.bufOut ++ datagramHeader message.length channel padding dg.seqOut ++ message
        queued := dg'.queued + 1
        seqOut := dg'.seqOut + 1 }
  · intro q mem
    obtain rfl := List.mem_singleton.mp mem
    trivial
  · simp only [Tables.sender, Tables.updateDatagram, StdMap.lookup_modify, if_pos, entry,
      Option.map_some]

theorem flushOrQueue_appends {flags : UInt8} {x : Unit}
    (ends : Runs (flushOrQueue env flags conn) s log x t) :
    t.waiting conn = s.waiting conn ∧ (∀ q ∈ log.map Sigma.fst, Query.Idle q) ∨
      t.waiting conn = [] ∧ Writes env s conn log (s.waiting conn) := by
  have nothing : ∀ q ∈ ([] : ClientLog).map Sigma.fst, Query.Idle q := by simp
  obtain ⟨dg, entry, ends⟩ := ends_derefDatagram_bind.mp ends
  split at ends
  · rcases datagramFlush_appends ends with ⟨same, rfl⟩ | written
    · exact Or.inl ⟨same, nothing⟩
    · exact Or.inr written
  split at ends
  · obtain ⟨_, l, -, flush, rfl⟩ := ends_ask_bind.mp ends
    have passed : ∀ q ∈ ([⟨.mark (.maxLength conn), ()⟩] : ClientLog).map Sigma.fst,
        Query.Idle q := by
      intro q mem
      obtain rfl := List.mem_singleton.mp mem
      trivial
    rcases datagramFlush_appends flush with ⟨same, rfl⟩ | ⟨empty, writes⟩
    · exact Or.inl ⟨same, passed⟩
    · exact Or.inr ⟨empty, writes.after passed⟩
  · obtain ⟨rfl, rfl⟩ := ends_modify.mp ends
    exact Or.inl ⟨rfl, nothing⟩

theorem datagramQueue_appends {message : Bytes} {flags channel : UInt8} {ret : Int}
    (ends : Runs (datagramQueue env message flags conn channel) s log ret t) :
    ∃ padding seq, Appends env conn s log t
      (datagramHeader message.length channel padding seq ++ message) := by
  obtain ⟨l₁, _, u, l₂, insert, rest, rfl⟩ := ends_bind.mp ends
  obtain ⟨l₃, _, v, l₄, put, rest', rfl⟩ := ends_bind.mp rest
  obtain ⟨l₅, _, w, l₆, flush, last, rfl⟩ := ends_bind.mp rest'
  obtain ⟨same, rfl, inserted⟩ := insertDatagram_poised insert
  obtain ⟨⟨padding, seq, waiting⟩, idle, enqueued⟩ := enqueue_poised put
  obtain ⟨rfl, -, rfl⟩ := ends_pure.mp last
  rw [same] at waiting
  rw [List.nil_append, List.append_nil]
  refine ⟨padding, seq, ?_⟩
  rcases flushOrQueue_appends flush with ⟨kept, idle'⟩ | ⟨empty, writes⟩
  · refine Or.inl ⟨kept.trans waiting, ?_⟩
    rw [List.map_append]
    exact fun q mem => (List.mem_append.mp mem).elim (idle q) (idle' q)
  · rw [waiting] at writes
    exact Or.inr ⟨empty, ((writes.poised enqueued).poised inserted).after idle⟩

theorem datagramSend_appends {message : Bytes} {flags channel : UInt8} {ret : Int}
    (buffered : ∀ c, s.heap.lookup conn = some c → c.status = .connecting →
      flags &&& msgBuffered ≠ 0) (sent : 0 ≤ ret)
    (ends : Runs (humblenetDatagramSend env message flags conn channel) s log ret t) :
    ∃ padding seq, Appends env conn s log t
      (datagramHeader message.length channel padding seq ++ message) := by
  obtain ⟨c, here, ends⟩ := ends_deref_bind.mp ends
  split at ends
  · rename_i connecting
    rw [if_pos (buffered c here connecting)] at ends
    exact datagramQueue_appends ends
  · rw [humblenetSetError, ends_modify_bind, ends_pure] at ends
    omega
  · exact datagramQueue_appends ends

theorem sendOver_appends {message : Bytes} {topeer : PeerId} {sendmode channel : UInt8} {ret : Int}
    (sent : 0 ≤ ret)
    (ends : Runs (sendOver env conn message topeer sendmode channel) s log ret t) :
    ∃ padding seq, Appends env conn s log t
      (datagramHeader message.length channel padding seq ++ message) := by
  obtain ⟨c, here, rest⟩ := ends_deref_bind.mp ends
  obtain ⟨l, ret', u, l', send, rest', rfl⟩ := ends_bind.mp rest
  have buffered : ∀ c', s.heap.lookup conn = some c' → c'.status = .connecting →
      (if sendmode &&& sendReliableBuffered ≠ 0 ∨ c.status = .connecting then msgBuffered
        else 0) &&& msgBuffered ≠ 0 := by
    intro c' here' connecting
    cases here.symm.trans here'
    rw [if_pos (Or.inr connecting)]
    decide
  by_cases failed : ret' < 0
  · rw [if_pos failed] at rest'
    obtain ⟨c', here', rest'⟩ := ends_deref_bind.mp rest'
    split at rest'
    · rw [ends_modify_bind, ends_modify_bind] at rest'
      obtain ⟨l₁, _, v, l₂, close, last, -⟩ := ends_bind.mp rest'
      rw [humblenetSetError, ends_modify_bind, ends_pure] at last
      omega
    · rw [ends_pure] at rest'
      omega
  · rw [if_neg failed, ends_pure] at rest'
    obtain ⟨rfl, rfl, rfl⟩ := rest'
    obtain ⟨padding, seq, appends⟩ := datagramSend_appends buffered sent send
    rw [List.append_nil]
    exact ⟨padding, seq, appends⟩

end programs

/-- A message whose length `sendto` returns, over a connection in any state: a header and the
message are appended, and they are read as one packet with this message exactly when the
length fits the size word. -/
theorem sent_message_framed {env : Externals} {s t : State} {log : ClientLog} {conn : ConnPtr}
    {message : Bytes} {topeer : PeerId} {sendmode channel : UInt8}
    (ends : Runs (sendOver env conn message topeer sendmode channel) s log message.length t) :
    ∃ padding seq, Appends env conn s log t
        (datagramHeader message.length channel padding seq ++ message) ∧
      (ReadsAs channel message (datagramHeader message.length channel padding seq ++ message) ↔
        message.length < 2 ^ 16) := by
  obtain ⟨padding, seq, appends⟩ := sendOver_appends (Int.natCast_nonneg _) ends
  exact ⟨padding, seq, appends, readsAs_iff channel padding seq message⟩

def calling : State :=
  { State.initial with
    heap := StdMap.emplace 1 { Connection.new .outgoing with otherPeer := 2, socket := some 7 } ∅ }

theorem flush_unopened {env : Externals} {s : State} {conn : ConnPtr} {dg : DatagramConnection}
    {c : Connection} (entry : s.datagrams.lookup conn = some dg)
    (here : s.heap.lookup dg.conn = some c) (connecting : c.status = .connecting) :
    Runs (datagramFlush env conn) s [] () s := by
  refine ends_derefDatagram_bind.mpr ⟨dg, entry, ?_⟩
  split
  · exact ends_pure.mpr ⟨rfl, rfl, rfl⟩
  · have closed : Runs (humblenetConnectionIsWritable dg.conn) s [] false s := by
      refine ends_deref_bind.mpr ⟨c, here, ?_⟩
      rw [if_neg (by rw [connecting]; decide)]
      exact ends_pure.mpr ⟨rfl, rfl, rfl⟩
    refine ends_bind.mpr ⟨[], false, s, [], closed, ?_, rfl⟩
    rw [if_neg Bool.false_ne_true]
    exact ends_pure.mpr ⟨rfl, rfl, rfl⟩

theorem calling_sends (env : Externals) (message : Bytes) (small : message.length < 2 ^ 31) :
    ∃ log t, Runs (sendOver env 1 message 2 1 0) calling log message.length t := by
  let dg := DatagramConnection.new 1 2
  let put : DatagramConnection → DatagramConnection := fun it =>
    { it with
      bufOut := it.bufOut ++ datagramHeader message.length 0 0 dg.seqOut ++ message
      queued := it.queued + 1
      seqOut := it.seqOut + 1 }
  let u : State := { calling with datagrams := StdMap.emplace 1 dg ∅ }
  let v : State := { u with toTables := u.updateDatagram 1 put }
  have insert : Runs (insertDatagram 1) calling [] () u :=
    ends_deref_bind.mpr ⟨_, rfl, ends_modify.mpr ⟨rfl, rfl⟩⟩
  have enqueued : Runs (enqueue 1 message 0) u [⟨.padding, (0 : UInt8)⟩] () v :=
    ends_derefDatagram_bind.mpr ⟨dg, rfl,
      ends_ask_bind.mpr ⟨0, [], trivial, ends_modify.mpr ⟨rfl, rfl⟩, rfl⟩⟩
  have entry : v.datagrams.lookup 1 = some (put dg) := rfl
  obtain ⟨l, w, flushed⟩ : ∃ l w, Runs (flushOrQueue env msgBuffered 1) v l () w := by
    by_cases long : 1024 < (put dg).bufOut.length
    · refine ⟨[⟨.mark (.maxLength 1), ()⟩], v, ends_derefDatagram_bind.mpr ⟨_, entry, ?_⟩⟩
      rw [if_neg (by decide), if_pos long]
      exact ends_ask_bind.mpr ⟨(), [], trivial, flush_unopened entry rfl rfl, rfl⟩
    · refine ⟨[], { v with queuedPackets := true }, ends_derefDatagram_bind.mpr ⟨_, entry, ?_⟩⟩
      rw [if_neg (by decide), if_neg long]
      exact ends_modify.mpr ⟨rfl, rfl⟩
  have queued : Runs (datagramQueue env message msgBuffered 1 0) calling _ (asInt message.length)
      w :=
    ends_bind.mpr ⟨_, (), u, _, insert, ends_bind.mpr ⟨_, (), v, _, enqueued,
      ends_bind.mpr ⟨l, (), w, [], flushed, ends_pure.mpr ⟨rfl, rfl, rfl⟩, rfl⟩, rfl⟩, rfl⟩
  rw [asInt_of_small small] at queued
  have sent : Runs (humblenetDatagramSend env message msgBuffered 1 0) calling _ message.length w :=
    ends_deref_bind.mpr ⟨_, rfl, queued⟩
  refine ⟨_, w, ends_deref_bind.mpr ⟨_, rfl, ends_bind.mpr ⟨_, _, w, [], sent, ?_, rfl⟩⟩⟩
  rw [if_neg (not_lt.mpr (Int.natCast_nonneg _))]
  exact ends_pure.mpr ⟨rfl, rfl, rfl⟩

theorem sent_three_bytes : ∃ env log t padding seq,
    Runs (sendOver env 1 [1, 2, 3] 2 1 0) calling log 3 t ∧
      Appends env 1 calling log t (datagramHeader 3 0 padding seq ++ [1, 2, 3]) ∧
      ReadsAs 0 [1, 2, 3] (datagramHeader 3 0 padding seq ++ [1, 2, 3]) := by
  obtain ⟨log, t, run⟩ := calling_sends welcome [1, 2, 3] (by decide)
  obtain ⟨padding, seq, appends, reads⟩ := sent_message_framed run
  exact ⟨welcome, log, t, padding, seq, run, appends, reads.mpr (by decide)⟩

/-- A message of 2^16 bytes is reported as sent, and cannot be read back. -/
theorem long_message_unframed : ∃ env log t padding seq,
    Runs (sendOver env 1 (List.replicate 65536 0) 2 1 0) calling log 65536 t ∧
      Appends env 1 calling log t
        (datagramHeader 65536 0 padding seq ++ List.replicate 65536 0) ∧
      ¬ ReadsAs 0 (List.replicate 65536 0)
        (datagramHeader 65536 0 padding seq ++ List.replicate 65536 0) := by
  have length : (List.replicate 65536 (0 : UInt8)).length = 65536 := List.length_replicate
  obtain ⟨log, t, run⟩ := calling_sends welcome (List.replicate 65536 0) (by rw [length]; decide)
  obtain ⟨padding, seq, appends⟩ := sendOver_appends (Int.natCast_nonneg _) run
  have unread := (readsAs_iff 0 padding seq (List.replicate 65536 0)).not.mpr (by
    rw [length]
    decide)
  rw [length] at run appends unread
  exact ⟨welcome, log, t, padding, seq, run, appends, unread⟩

end HumbleNet.Client
