import HumbleNet.Client.Sifting

/-! The bytes that have arrived and are not returned, through the steps of a receiving call:
a step takes one packet out of one stream, or moves bytes within a stream. -/
namespace HumbleNet.Client

variable {untold : StdSet ConnPtr} {channel : UInt8} {s t : Tables}

theorem buffered_of_entry {conn : ConnPtr} {dg : DatagramConnection}
    (entry : t.datagrams.lookup conn = some dg) : t.buffered conn = dg.bufIn := by
  simp only [Tables.buffered, entry, Option.map_some, Option.getD_some]

theorem unread_of_here {conn : ConnPtr} {c : Connection} (here : t.heap.lookup conn = some c) :
    t.unread conn = c.recvBuffer := by
  simp only [Tables.unread, here, Option.map_some, Option.getD_some]

theorem buffered_updateDatagram {conn k : ConnPtr} {f : DatagramConnection → DatagramConnection}
    (other : k ≠ conn) : (t.updateDatagram conn f).buffered k = t.buffered k := by
  simp only [Tables.buffered, Tables.updateDatagram, StdMap.lookup_modify, if_neg other]

theorem unread_updateConnection {conn k : ConnPtr} {f : Connection → Connection}
    (same : k = conn → ∀ c, (f c).recvBuffer = c.recvBuffer) :
    (t.updateConnection conn f).unread k = t.unread k := by
  simp only [Tables.unread, Tables.updateConnection, StdMap.lookup_modify]
  by_cases h : k = conn
  · subst h
    rw [if_pos rfl, Option.map_map]
    congr 2
    exact funext (same rfl)
  · rw [if_neg h]

theorem buffered_insertDatagram (conn k : ConnPtr) (peer : PeerId) :
    ({ t with datagrams := StdMap.emplace conn (DatagramConnection.new conn peer) t.datagrams } :
      Tables).buffered k = t.buffered k := by
  simp only [Tables.buffered, StdMap.lookup_emplace]
  by_cases h : k = conn
  · subst h
    rw [if_pos rfl]
    cases t.datagrams.lookup k with
    | none => rfl
    | some dg => rfl
  · rw [if_neg h]

theorem buffered_eraseDatagram {conn k : ConnPtr} (other : k ≠ conn) :
    ({ t with datagrams := t.datagrams.erase conn } : Tables).buffered k = t.buffered k := by
  simp only [Tables.buffered, AList.lookup_erase_ne other]

/-- What a step does to the stream of a connection: a packet is taken out of it, or it stays,
or it goes with a connection whose close is reported. -/
inductive Through (untold : StdSet ConnPtr) (channel : UInt8) (s t : Tables) (k : ConnPtr) :
    Option (ConnPtr × Packet) → Prop where
  | out {skipped : List Packet} {p : Packet} {more : Bytes}
    (before : s.stream k = packetCodec.encodeAll skipped ++ (p.bytes ++ more))
    (others : ∀ q ∈ skipped, q.channel ≠ channel) (wanted : p.channel = channel)
    (after : t.stream k = packetCodec.encodeAll skipped ++ more) :
    Through untold channel s t k (some (k, p))
  | same {label : Option (ConnPtr × Packet)} (other : ∀ p, label ≠ some (k, p))
    (same : t.stream k = s.stream k) : Through untold channel s t k label
  | gone {c : Connection} (here : s.heap.lookup k = some c) (closed : c.status = .closed)
    (listed : k ∈ untold) : Through untold channel s t k none

theorem through_step {label : Option (ConnPtr × Packet)}
    (step : SiftStep untold channel s label t) (k : ConnPtr) :
    Through untold channel s t k label := by
  have none_other : ∀ p, (none : Option (ConnPtr × Packet)) ≠ some (k, p) := fun _ h => by cases h
  cases step with
  | @take conn dg skipped p after entry here others wanted =>
    by_cases eq : k = conn
    · subst eq
      have stream : s.stream k =
          packetCodec.encodeAll skipped ++ (p.bytes ++ (after ++ s.unread k)) := by
        rw [Tables.stream, buffered_of_entry entry, here]
        simp only [List.append_assoc]
      have left : (s.updateDatagram k fun dg =>
          { dg with bufIn := packetCodec.encodeAll skipped ++ after }).datagrams.lookup k =
            some { dg with bufIn := packetCodec.encodeAll skipped ++ after } :=
        StdMap.lookup_modify_some.mpr ⟨dg, entry, if_pos rfl⟩
      refine .out stream others wanted ?_
      rw [Tables.stream, buffered_of_entry left]
      exact List.append_assoc _ _ _
    · refine .same (fun q h => eq ?_) ?_
      · cases h
        rfl
      · rw [Tables.stream, buffered_updateDatagram eq]
        rfl
  | @insert conn c here =>
    refine .same none_other ?_
    rw [Tables.stream, buffered_insertDatagram]
    rfl
  | @move conn c dg here entry unread listed =>
    refine .same none_other ?_
    by_cases eq : k = conn
    · subst eq
      have moved : (s.move k c.recvBuffer).datagrams.lookup k =
          some { dg with bufIn := dg.bufIn ++ c.recvBuffer } :=
        StdMap.lookup_modify_some.mpr ⟨dg, entry, if_pos rfl⟩
      have read : (s.move k c.recvBuffer).heap.lookup k = some { c with recvBuffer := [] } :=
        StdMap.lookup_modify_some.mpr ⟨c, here, if_pos rfl⟩
      rw [Tables.stream, buffered_of_entry moved, unread_of_here read, List.append_nil,
        Tables.stream, buffered_of_entry entry, unread_of_here here]
    · have buffered : (s.move conn c.recvBuffer).buffered k = s.buffered k :=
        buffered_updateDatagram (t := s.updateConnection conn _) eq
      have unread : (s.move conn c.recvBuffer).unread k = s.unread k :=
        unread_updateConnection fun same => absurd same eq
      rw [Tables.stream, buffered, unread]
      rfl
  | @refuse conn empty =>
    refine .same none_other ?_
    by_cases eq : k = conn
    · subst eq
      have nothing : s.buffered k = [] := by
        cases entry : s.datagrams.lookup k with
        | none => simp only [Tables.buffered, entry, Option.map_none, Option.getD_none]
        | some dg => rw [buffered_of_entry entry, (empty dg entry).1]
      rw [Tables.stream, Tables.stream, nothing]
      simp only [Tables.buffered, AList.lookup_erase, Option.map_none, Option.getD_none]
      rfl
    · rw [Tables.stream, buffered_eraseDatagram eq]
      rfl
  | @report conn c here closed empty listed =>
    by_cases eq : k = conn
    · subst eq
      exact .gone here closed listed
    · refine .same none_other ?_
      rw [Tables.stream, buffered_eraseDatagram eq]
      rfl
  | polled conn => exact .same none_other rfl
  | accepted conn => exact .same none_other rfl

theorem packets_bytes (p : Packet) (more : Bytes) :
    packets (p.bytes ++ more) = p :: packets more := by
  have one : p.bytes = packetCodec.encodeAll [p] := (List.append_nil p.bytes).symm
  rw [one]
  exact packetCodec.records_encodeAll_append [p] more

end HumbleNet.Client
