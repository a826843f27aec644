import HumbleNet.Client.Packets

/-! What `datagram_get_message` finds in a buffer of whole records. The bytes from a record
to the end are counted in sixteen bits, and a record that seems longer than that count ends
the search. -/
namespace HumbleNet.Client

/-- A `buf_in`: records that are all there, and perhaps the beginning of one more. -/
structure Backlog where
  records : List Packet
  tail : Bytes
  full : ∀ p ∈ records, p.payload ≠ []
  incomplete : Packet.first tail = none

namespace Backlog

def bytes (b : Backlog) : Bytes := packetCodec.encodeAll b.records ++ b.tail

/-- What is to be found: the first record of the channel, which is removed unless the call
only peeks. -/
def expected (b : Backlog) (length : Nat) (flags channel : UInt8) : Int × Bytes × Bytes :=
  match b.records.find? fun p => decide (p.channel = channel) with
  | none => (-1, b.bytes, [])
  | some p =>
    if flags &&& msgPeek ≠ 0 then (p.payload.length, b.bytes, [])
    else
      (p.payload.length,
        packetCodec.encodeAll (b.records.eraseP fun p => decide (p.channel = channel)) ++ b.tail,
        p.payload.take length)

theorem packets_bytes (b : Backlog) : packets b.bytes = b.records := by
  have whole := packetCodec.records_encodeAll_append b.records b.tail
  rwa [packetCodec.records_of_first_none b.incomplete, List.append_nil] at whole

end Backlog

/-- At every record up to the first of the channel, the count of the bytes from there on
covers the record. -/
def Counted (channel : UInt8) (tail : Bytes) : List Packet → Prop
  | [] => True
  | p :: ps =>
    headerSize + p.payload.length ≤ (packetCodec.encodeAll (p :: ps) ++ tail).length % 2 ^ 16 ∧
      (p.channel = channel ∨ Counted channel tail ps)

instance (channel : UInt8) (tail : Bytes) : (ps : List Packet) → Decidable (Counted channel tail ps)
  | [] => inferInstanceAs (Decidable True)
  | _ :: ps =>
    have : Decidable (Counted channel tail ps) := instDecidableCounted channel tail ps
    inferInstanceAs (Decidable (_ ∧ _))

theorem findMessage_record {b : Bytes} {channel : UInt8} {fuel start : Nat} {p : Packet}
    {more : Bytes} (here : b.drop start = p.bytes ++ more) (full : p.payload ≠ []) :
    findMessage b channel (fuel + 1) start =
      if headerSize + p.payload.length ≤ (p.bytes ++ more).length % 2 ^ 16 then
        if p.channel = channel then some (start, p.payload.length)
        else findMessage b channel fuel (start + (headerSize + p.payload.length))
      else none := by
  have size : leNat ((p.bytes ++ more).take 2) = p.payload.length := by
    have two : (p.bytes ++ more).take 2 = leBytes 2 p.payload.length := rfl
    rw [two, leNat_leBytes]
    exact Nat.mod_eq_of_lt p.fits
  have third : (p.bytes ++ more)[2]? = some p.channel := rfl
  have pos : 0 < p.payload.length := List.length_pos_iff.mpr full
  conv_lhs => unfold findMessage
  dsimp only
  rw [here, size, third]
  by_cases covered : headerSize + p.payload.length ≤ (p.bytes ++ more).length % 2 ^ 16
  · have more_than_header : ¬ (p.bytes ++ more).length % 2 ^ 16 ≤ headerSize := by omega
    have long : ¬ (p.bytes ++ more).length % 2 ^ 16 < p.payload.length + headerSize := by omega
    rw [if_neg more_than_header, if_neg long, if_pos covered]
    by_cases wanted : p.channel = channel
    · rw [if_pos wanted, if_neg (not_not.mpr (congrArg some wanted))]
    · rw [if_neg wanted, if_pos fun same => wanted (Option.some.inj same)]
  · have short : (p.bytes ++ more).length % 2 ^ 16 < p.payload.length + headerSize := by omega
    rw [if_pos short, if_neg covered, ite_self]

theorem findMessage_absent (b : Backlog) {channel : UInt8}
    (absent : ∀ p ∈ b.records, p.channel ≠ channel) (fuel : Nat) :
    findMessage b.bytes channel fuel 0 = none := by
  cases found : findMessage b.bytes channel fuel 0 with
  | none => rfl
  | some r =>
    obtain ⟨skipped, p, after, here, _, wanted, _, _⟩ := findMessage_some found
    have split : b.bytes = packetCodec.encodeAll (skipped ++ [p]) ++ after := by
      rw [List.drop_zero] at here
      rw [here, Codec.encodeAll_append, Codec.encodeAll_cons, Codec.encodeAll_nil,
        List.append_nil, List.append_assoc]
      rfl
    have there : b.records = (skipped ++ [p]) ++ packets after := by
      rw [← b.packets_bytes, split]
      exact packetCodec.records_encodeAll_append _ _
    refine absurd wanted (absent p ?_)
    rw [there]
    exact List.mem_append_left _ (List.mem_append_right _ List.mem_cons_self)

theorem findMessage_counted {b tail : Bytes} {channel : UInt8} {ps rest : List Packet}
    {p : Packet} {fuel start : Nat} (full : ∀ q ∈ ps ++ p :: rest, q.payload ≠ [])
    (others : ∀ q ∈ ps, q.channel ≠ channel) (wanted : p.channel = channel)
    (enough : ps.length < fuel)
    (here : b.drop start = packetCodec.encodeAll (ps ++ p :: rest) ++ tail) :
    findMessage b channel fuel start =
      if Counted channel tail (ps ++ p :: rest) then
        some (start + (packetCodec.encodeAll ps).length, p.payload.length)
      else none := by
  induction ps generalizing fuel start with
  | nil =>
    obtain ⟨fuel, rfl⟩ := Nat.exists_eq_succ_of_ne_zero (Nat.ne_of_gt enough)
    have front : b.drop start = p.bytes ++ (packetCodec.encodeAll rest ++ tail) := by
      rw [here, List.nil_append, Codec.encodeAll_cons, List.append_assoc]
      rfl
    rw [findMessage_record front (full p List.mem_cons_self), if_pos wanted, ← front, here]
    simp only [List.nil_append, Counted, wanted, true_or, and_true, Codec.encodeAll_nil,
      List.length_nil, Nat.add_zero]
  | cons q ps ih =>
    obtain ⟨fuel, rfl⟩ := Nat.exists_eq_succ_of_ne_zero (Nat.ne_of_gt (Nat.lt_of_le_of_lt
      (Nat.zero_le _) enough))
    have front : b.drop start =
        q.bytes ++ (packetCodec.encodeAll (ps ++ p :: rest) ++ tail) := by
      rw [here, List.cons_append, Codec.encodeAll_cons, List.append_assoc]
      rfl
    have behind : b.drop (start + (headerSize + q.payload.length)) =
        packetCodec.encodeAll (ps ++ p :: rest) ++ tail := by
      rw [← List.drop_drop, ← q.bytes_length, front, List.drop_left]
    have other : q.channel ≠ channel := others q List.mem_cons_self
    have next := ih (fun r hr => full r (List.mem_cons_of_mem q hr))
      (fun r hr => others r (List.mem_cons_of_mem q hr)) (Nat.lt_of_succ_lt_succ enough) behind
    rw [findMessage_record front (full q List.mem_cons_self), if_neg other, next, ← front, here]
    have length : (packetCodec.encodeAll (q :: ps)).length =
        headerSize + q.payload.length + (packetCodec.encodeAll ps).length := by
      rw [Codec.encodeAll_cons, List.length_append]
      exact congrArg (· + _) q.bytes_length
    simp only [List.cons_append, Counted, other, false_or, length, Nat.add_assoc]
    rw [← ite_and]

namespace Backlog

variable {b : Backlog} {channel : UInt8} {ps rest : List Packet} {p : Packet}

theorem bytes_split (split : b.records = ps ++ p :: rest) : b.bytes =
    packetCodec.encodeAll ps ++ (p.bytes ++ (packetCodec.encodeAll rest ++ b.tail)) := by
  rw [bytes, split, Codec.encodeAll_append, Codec.encodeAll_cons, List.append_assoc,
    List.append_assoc]
  rfl

theorem findMessage (split : b.records = ps ++ p :: rest) (others : ∀ q ∈ ps, q.channel ≠ channel)
    (wanted : p.channel = channel) : findMessage b.bytes channel b.bytes.length 0 =
      if Counted channel b.tail b.records then
        some ((packetCodec.encodeAll ps).length, p.payload.length) else none := by
  have enough : ps.length < b.bytes.length := by
    have le := eight_mul_le ps
    rw [bytes_split split, List.length_append, List.length_append, p.bytes_length]
    unfold headerSize at le ⊢
    omega
  have full : ∀ q ∈ ps ++ p :: rest, q.payload ≠ [] := split ▸ b.full
  have start : b.bytes.drop 0 = packetCodec.encodeAll (ps ++ p :: rest) ++ b.tail := split ▸ rfl
  rw [findMessage_counted full others wanted enough start, Nat.zero_add, split]

end Backlog

/-- A waiting message is found, and nothing else is touched, exactly when no record is of
the channel or the counts are right up to the first that is. -/
theorem getMessage_backlog (b : Backlog) (length : Nat) (flags channel : UInt8) :
    datagramGetMessage b.bytes length flags channel = b.expected length flags channel ↔
      (∀ p ∈ b.records, p.channel ≠ channel) ∨ Counted channel b.tail b.records := by
  cases found : b.records.find? fun p => decide (p.channel = channel) with
  | none =>
    have absent : ∀ p ∈ b.records, p.channel ≠ channel := by simpa using found
    have nothing := findMessage_absent b absent b.bytes.length
    have same : datagramGetMessage b.bytes length flags channel =
        b.expected length flags channel := by
      simp only [datagramGetMessage, nothing, Backlog.expected, found]
    exact iff_of_true same (Or.inl absent)
  | some p =>
    obtain ⟨wanted, ps, rest, split, skipped⟩ := List.find?_eq_some_iff_append.mp found
    have wanted : p.channel = channel := of_decide_eq_true wanted
    have others : ∀ q ∈ ps, q.channel ≠ channel := by simpa using skipped
    have present : ¬ ∀ q ∈ b.records, q.channel ≠ channel := by
      intro absent
      refine absent p ?_ wanted
      rw [split]
      exact List.mem_append_right _ List.mem_cons_self
    have erased : b.records.eraseP (fun q => decide (q.channel = channel)) = ps ++ rest := by
      have first : decide (p.channel = channel) = true := decide_eq_true wanted
      rw [split, List.eraseP_append_right _ fun q hq => by simpa using others q hq,
        List.eraseP_cons, first, cond_true]
    have search := Backlog.findMessage split others wanted
    by_cases counted : Counted channel b.tail b.records
    · refine iff_of_true ?_ (Or.inr counted)
      rw [if_pos counted] at search
      unfold datagramGetMessage Backlog.expected
      rw [search, found, erased]
      dsimp only
      split
      · rfl
      · rw [Backlog.bytes_split split, left_of_packet, data_of_packet, Codec.encodeAll_append,
          List.append_assoc]
    · refine iff_of_false ?_ (not_or.mpr ⟨present, counted⟩)
      rw [if_neg counted] at search
      intro same
      have returned := congrArg Prod.fst same
      unfold datagramGetMessage Backlog.expected at returned
      rw [search, found] at returned
      dsimp only at returned
      split at returned <;> omega

theorem datagramGetMessage_none {bufIn : Bytes} {length : Nat} {flags channel : UInt8}
    (nothing : findMessage bufIn channel bufIn.length 0 = none) :
    datagramGetMessage bufIn length flags channel = (-1, bufIn, []) := by
  unfold datagramGetMessage
  rw [nothing]

def zeros (channel : UInt8) (size : Nat) (fits : size < 2 ^ 16) : Packet where
  channel := channel
  padding := 0
  seq := 0
  payload := List.replicate size 0
  fits := by rwa [List.length_replicate]

theorem zeros_length (channel : UInt8) (size : Nat) (fits : size < 2 ^ 16) :
    (zeros channel size fits).payload.length = size := List.length_replicate

/-- A message of 40000 bytes that nobody reads, and one of 30000 on another channel. -/
def unreadChannel : Backlog where
  records := [zeros 1 40000 (by decide), zeros 0 30000 (by decide)]
  tail := []
  full := by
    intro p hp
    rcases List.mem_pair.mp hp with rfl | rfl
    · exact List.ne_nil_of_length_pos (by rw [zeros_length]; decide)
    · exact List.ne_nil_of_length_pos (by rw [zeros_length]; decide)
  incomplete := rfl

theorem unread_channel_blocks :
    (datagramGetMessage unreadChannel.bytes 65536 0 0).1 = -1 ∧
      (unreadChannel.expected 65536 0 0).1 = 30000 := by
  have others : ∀ q ∈ [zeros 1 40000 (by decide)], q.channel ≠ 0 := by
    intro q hq
    cases List.mem_singleton.mp hq
    decide
  have uncounted : ¬ Counted 0 unreadChannel.tail unreadChannel.records := by
    rintro ⟨covered, -⟩
    simp only [unreadChannel, List.append_nil, Codec.encodeAll_cons, Codec.encodeAll_nil,
      List.length_append, packetCodec, Packet.bytes_length, zeros_length, headerSize] at covered
    omega
  have search := Backlog.findMessage (show unreadChannel.records =
    [zeros 1 40000 (by decide)] ++ zeros 0 30000 (by decide) :: [] from rfl) others rfl
  rw [if_neg uncounted] at search
  constructor
  · rw [datagramGetMessage_none search]
  · exact congrArg Int.ofNat (zeros_length 0 30000 (by decide))

end HumbleNet.Client
