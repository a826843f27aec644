import HumbleNet.Client.Datagram
import HumbleNet.Fragmentation
import HumbleNet.Lib.Records

/-! The packets of the datagram layer: a header of eight bytes and the payload. What the
search of `datagram_get_message` finds in a buffer, said of the packets in it. -/
namespace HumbleNet.Client

open Fragmentation (leBytes_leNat)

/-- A packet as it travels; the payload is as long as the size word can say. -/
structure Packet where
  channel : UInt8
  padding : UInt8
  seq : UInt32
  payload : Bytes
  fits : payload.length < 2 ^ 16
  deriving DecidableEq

namespace Packet

def bytes (p : Packet) : Bytes :=
  datagramHeader p.payload.length p.channel p.padding p.seq ++ p.payload

@[simp] theorem bytes_length (p : Packet) : p.bytes.length = headerSize + p.payload.length := by
  simp only [bytes, datagramHeader, List.length_append, leBytes_length, List.length_cons,
    List.length_nil, headerSize]

/-- The packet at the front of a buffer that holds all of it. -/
def first : Bytes → Option Packet
  | x₀ :: x₁ :: channel :: padding :: s₀ :: s₁ :: s₂ :: s₃ :: more =>
    if h : leNat [x₀, x₁] ≤ more.length then
      some ⟨channel, padding, UInt32.ofNat (leNat [s₀, s₁, s₂, s₃]), more.take (leNat [x₀, x₁]), by
        rw [List.length_take, Nat.min_eq_left h]
        simpa using leNat_lt [x₀, x₁]⟩
    else none
  | _ => none

theorem first_bytes (p : Packet) (more : Bytes) : first (p.bytes ++ more) = some p := by
  obtain ⟨channel, padding, seq, payload, fits⟩ := p
  obtain ⟨x₀, x₁, size⟩ : ∃ x₀ x₁, leBytes 2 payload.length = [x₀, x₁] := ⟨_, _, rfl⟩
  obtain ⟨s₀, s₁, s₂, s₃, number⟩ : ∃ s₀ s₁ s₂ s₃, leBytes 4 seq.toNat = [s₀, s₁, s₂, s₃] :=
    ⟨_, _, _, _, rfl⟩
  have long : leNat [x₀, x₁] = payload.length := by
    rw [← size, leNat_leBytes]
    exact Nat.mod_eq_of_lt fits
  have back : UInt32.ofNat (leNat [s₀, s₁, s₂, s₃]) = seq := by
    have small : seq.toNat % 256 ^ 4 = seq.toNat := Nat.mod_eq_of_lt seq.toNat_lt
    rw [← number, leNat_leBytes, small, UInt32.ofNat_toNat]
  simp only [bytes, datagramHeader, size, number, List.cons_append, List.nil_append, first, long,
    back, List.length_append, Nat.le_add_right, dite_true, List.take_left']

theorem bytes_of_first {b : Bytes} {p : Packet} (h : first b = some p) : p.bytes <+: b := by
  unfold first at h
  split at h
  · rename_i x₀ x₁ channel padding s₀ s₁ s₂ s₃ more
    split at h
    · rename_i long
      cases h
      have size : leBytes 2 (leNat [x₀, x₁]) = [x₀, x₁] := leBytes_leNat [x₀, x₁]
      have number : leBytes 4 (leNat [s₀, s₁, s₂, s₃]) = [s₀, s₁, s₂, s₃] :=
        leBytes_leNat [s₀, s₁, s₂, s₃]
      have small : leNat [s₀, s₁, s₂, s₃] < 2 ^ 32 := by simpa using leNat_lt [s₀, s₁, s₂, s₃]
      refine ⟨more.drop (leNat [x₀, x₁]), ?_⟩
      simp only [bytes, datagramHeader, List.length_take, Nat.min_eq_left long, size,
        UInt32.toNat_ofNat_of_lt' small, number, List.cons_append, List.nil_append,
        List.take_append_drop]
    · cases h
  · cases h

theorem bytes_ne_nil (p : Packet) : p.bytes ≠ [] := by
  apply List.ne_nil_of_length_pos
  rw [bytes_length, headerSize]
  omega

end Packet

def packetCodec : Codec UInt8 Packet where
  encode := Packet.bytes
  first := Packet.first
  encode_ne_nil := Packet.bytes_ne_nil
  first_encode := Packet.first_bytes
  encode_prefix := Packet.bytes_of_first

abbrev packets (b : Bytes) : List Packet := packetCodec.records b

def ofChannel (channel : UInt8) (ps : List Packet) : List Packet :=
  ps.filter fun p => decide (p.channel = channel)

@[simp] theorem ofChannel_append (channel : UInt8) (ps qs : List Packet) :
    ofChannel channel (ps ++ qs) = ofChannel channel ps ++ ofChannel channel qs :=
  List.filter_append ps qs

theorem ofChannel_cons (channel : UInt8) (p : Packet) (ps : List Packet) :
    ofChannel channel (p :: ps) =
      if p.channel = channel then p :: ofChannel channel ps else ofChannel channel ps := by
  unfold ofChannel
  rw [List.filter_cons]
  by_cases h : p.channel = channel <;> simp [h]

theorem ofChannel_eq_nil {channel : UInt8} {ps : List Packet} :
    ofChannel channel ps = [] ↔ ∀ p ∈ ps, p.channel ≠ channel := by
  simp [ofChannel, List.filter_eq_nil_iff]

theorem eight_mul_le (ps : List Packet) :
    headerSize * ps.length ≤ (packetCodec.encodeAll ps).length := by
  induction ps with
  | nil => exact Nat.le_refl 0
  | cons p ps ih =>
    have head : (packetCodec.encode p).length = headerSize + p.payload.length := p.bytes_length
    rw [Codec.encodeAll_cons, List.length_append, List.length_cons, head, Nat.mul_succ]
    omega

/-! ### The search -/

theorem first_of_available {b : Bytes} (header : headerSize < b.length)
    (long : leNat (b.take 2) + headerSize ≤ b.length) :
    ∃ p, Packet.first b = some p ∧ p.payload.length = leNat (b.take 2) ∧
      b[2]? = some p.channel := by
  match b, header, long with
  | x₀ :: x₁ :: channel :: padding :: s₀ :: s₁ :: s₂ :: s₃ :: more, _, long =>
    have fits : leNat [x₀, x₁] ≤ more.length := by
      simp only [List.take_succ_cons, List.take_zero, List.length_cons, headerSize] at long
      omega
    refine ⟨_, dif_pos fits, ?_, rfl⟩
    simp only [List.length_take, Nat.min_eq_left fits, List.take_succ_cons, List.take_zero]

theorem findMessage_some {b : Bytes} {channel : UInt8} {fuel start i size : Nat}
    (h : findMessage b channel fuel start = some (i, size)) :
    ∃ (skipped : List Packet) (p : Packet) (after : Bytes),
      b.drop start = packetCodec.encodeAll skipped ++ (p.bytes ++ after) ∧
      (∀ q ∈ skipped, q.channel ≠ channel) ∧ p.channel = channel ∧
      i = start + (packetCodec.encodeAll skipped).length ∧ size = p.payload.length := by
  induction fuel generalizing start with
  | zero => cases h
  | succ fuel ih =>
    unfold findMessage at h
    dsimp only at h
    have le : (b.drop start).length % 2 ^ 16 ≤ (b.drop start).length := Nat.mod_le _ _
    split at h
    · cases h
    split at h
    · cases h
    rename_i header long
    obtain ⟨p, front, payload, third⟩ := first_of_available
      (b := b.drop start) (by omega) (by omega)
    obtain ⟨after, split⟩ := Packet.bytes_of_first front
    split at h
    · rename_i other
      obtain ⟨skipped, q, rest, eq, skip, wanted, rfl, rfl⟩ := ih h
      have behind : b.drop (start + (headerSize + leNat ((b.drop start).take 2))) = after := by
        rw [← List.drop_drop, ← payload, ← p.bytes_length, ← split, List.drop_left]
      rw [behind] at eq
      refine ⟨p :: skipped, q, rest, ?_, ?_, wanted, ?_, rfl⟩
      · rw [← split, eq, Codec.encodeAll_cons, List.append_assoc]
        rfl
      · intro r hr
        rcases List.mem_cons.mp hr with rfl | hr
        · intro same
          exact other (same ▸ third)
        · exact skip r hr
      · rw [Codec.encodeAll_cons, List.length_append]
        change _ = start + (p.bytes.length + _)
        rw [p.bytes_length, payload]
        omega
    · rename_i here
      cases h
      refine ⟨[], p, after, split.symm, fun _ hq => absurd hq List.not_mem_nil, ?_, rfl,
        payload.symm⟩
      rw [third, ne_eq, not_not] at here
      exact Option.some.inj here

theorem findMessage_none {b : Bytes} {channel : UInt8} (short : b.length < 2 ^ 16)
    {fuel start : Nat} {ps : List Packet} {tail : Bytes}
    (here : b.drop start = packetCodec.encodeAll ps ++ tail) (enough : ps.length < fuel)
    (h : findMessage b channel fuel start = none) :
    ∀ p ∈ ps, p.channel = channel → p.payload = [] := by
  induction fuel generalizing start ps with
  | zero => omega
  | succ fuel ih =>
    cases ps with
    | nil => exact fun _ hp => absurd hp List.not_mem_nil
    | cons p ps =>
      have split : b.drop start = p.bytes ++ (packetCodec.encodeAll ps ++ tail) := by
        rw [here, Codec.encodeAll_cons, List.append_assoc]
        rfl
      have length : (b.drop start).length =
          headerSize + p.payload.length + (packetCodec.encodeAll ps ++ tail).length := by
        rw [split, List.length_append, p.bytes_length]
      have small : (b.drop start).length % 2 ^ 16 = (b.drop start).length := by
        apply Nat.mod_eq_of_lt
        rw [List.length_drop]
        omega
      have size : leNat ((b.drop start).take 2) = p.payload.length := by
        have two : (b.drop start).take 2 = leBytes 2 p.payload.length := by
          rw [split]
          rfl
        rw [two, leNat_leBytes]
        exact Nat.mod_eq_of_lt p.fits
      have third : (b.drop start)[2]? = some p.channel := by
        rw [split]
        rfl
      unfold findMessage at h
      dsimp only at h
      rw [small, size, third] at h
      split at h
      · -- the last packet, without a payload
        rename_i end'
        have empty : p.payload.length = 0 ∧ ps.length = 0 := by
          have le := packetCodec.length_le_encodeAll ps
          rw [List.length_append] at length
          omega
        intro q hq _
        rw [List.length_eq_zero_iff.mp empty.2] at hq
        cases List.mem_singleton.mp hq
        exact List.length_eq_zero_iff.mp empty.1
      split at h
      · omega
      split at h
      · rename_i other
        have behind : b.drop (start + (headerSize + p.payload.length)) =
            packetCodec.encodeAll ps ++ tail := by
          rw [← List.drop_drop, ← p.bytes_length, split, List.drop_left]
        intro q hq wanted
        rcases List.mem_cons.mp hq with rfl | hq
        · exact absurd (congrArg some wanted) other
        · exact ih behind (Nat.lt_of_succ_lt_succ enough) h q hq wanted
      · cases h

def Silent (channel : UInt8) (b : Bytes) : Prop :=
  ∀ i size, findMessage b channel b.length 0 = some (i, size) → size = 0

theorem silent_nil (channel : UInt8) : Silent channel [] := fun _ _ h => by cases h

theorem first_of_found {channel : UInt8} {b : Bytes} {i size : Nat}
    (found : findMessage b channel b.length 0 = some (i, size)) :
    ∃ p, (ofChannel channel (packets b)).head? = some p ∧ p.payload.length = size := by
  obtain ⟨skipped, p, after, here, others, wanted, -, long⟩ := findMessage_some found
  have split : b = packetCodec.encodeAll (skipped ++ [p]) ++ after := by
    rw [List.drop_zero] at here
    simp only [here, Codec.encodeAll_append, Codec.encodeAll_cons, Codec.encodeAll_nil,
      List.append_nil, List.append_assoc]
    rfl
  have whole : packets b = skipped ++ p :: packets after := by
    conv_lhs => rw [split, packets, Codec.records_encodeAll_append]
    simp
  refine ⟨p, ?_, long.symm⟩
  rw [whole, ofChannel_append, ofChannel_eq_nil.mpr others, ofChannel_cons, if_pos wanted]
  rfl

theorem silent_iff {channel : UInt8} {b : Bytes} (short : b.length < 2 ^ 16) :
    Silent channel b ↔ ∀ p ∈ (ofChannel channel (packets b)).head?, p.payload = [] := by
  constructor
  · intro silent p first
    cases found : findMessage b channel b.length 0 with
    | none =>
      obtain ⟨mem, wanted⟩ := List.mem_filter.mp (List.mem_of_mem_head? first)
      have whole : packetCodec.encodeAll (packets b) ++ packetCodec.rest b = b :=
        packetCodec.encodeAll_records b
      have enough : (packets b).length < b.length := by
        have le := eight_mul_le (packets b)
        have pos := List.length_pos_of_mem mem
        have length := congrArg List.length whole
        rw [List.length_append] at length
        unfold headerSize at le
        omega
      have all : b.drop 0 = packetCodec.encodeAll (packets b) ++ packetCodec.rest b := whole.symm
      exact findMessage_none short all enough found p mem (of_decide_eq_true wanted)
    | some r =>
      obtain ⟨q, first', long⟩ := first_of_found found
      have same : q = p := Option.some.inj (first'.symm.trans first)
      have zero := silent r.1 r.2 found
      exact List.length_eq_zero_iff.mp (same ▸ long.trans zero)
  · intro empty i size found
    obtain ⟨p, first, long⟩ := first_of_found found
    rw [← long, empty p first]
    rfl

theorem Silent.packets {channel : UInt8} {b : Bytes} (silent : Silent channel b)
    (short : b.length < 2 ^ 16) (full : ∀ p ∈ packets b, p.payload ≠ []) :
    ofChannel channel (packets b) = [] := by
  apply List.head?_eq_none_iff.mp
  apply Option.eq_none_iff_forall_ne_some.mpr
  intro p first
  have there := (List.mem_filter.mp (List.mem_of_mem_head? first)).1
  exact full p there ((silent_iff short).mp silent p first)

/-- What one call of `datagram_get_message` does: it finds the first packet of the channel,
and takes it unless it only peeks. -/
inductive Got (b : Bytes) (length : Nat) (flags channel : UInt8) : Int × Bytes × Bytes → Prop where
  | nothing (silent : Silent channel b) : Got b length flags channel (-1, b, [])
  | seen {skipped : List Packet} {p : Packet} {after : Bytes}
    (here : b = packetCodec.encodeAll skipped ++ (p.bytes ++ after))
    (others : ∀ q ∈ skipped, q.channel ≠ channel) (wanted : p.channel = channel)
    (peek : flags &&& msgPeek ≠ 0) (silent : p.payload = [] → Silent channel b) :
    Got b length flags channel (p.payload.length, b, [])
  | taken {skipped : List Packet} {p : Packet} {after : Bytes}
    (here : b = packetCodec.encodeAll skipped ++ (p.bytes ++ after))
    (others : ∀ q ∈ skipped, q.channel ≠ channel) (wanted : p.channel = channel)
    (read : flags &&& msgPeek = 0) :
    Got b length flags channel
      (p.payload.length, packetCodec.encodeAll skipped ++ after, p.payload.take length)

theorem left_of_packet (skipped : List Packet) (p : Packet) (after : Bytes) :
    (packetCodec.encodeAll skipped ++ (p.bytes ++ after)).take
      (packetCodec.encodeAll skipped).length ++
        (packetCodec.encodeAll skipped ++ (p.bytes ++ after)).drop
          ((packetCodec.encodeAll skipped).length + (headerSize + p.payload.length)) =
      packetCodec.encodeAll skipped ++ after := by
  rw [List.take_left, ← List.drop_drop, List.drop_left, ← p.bytes_length, List.drop_left]

theorem data_of_packet (skipped : List Packet) (p : Packet) (after : Bytes) (length : Nat) :
    ((packetCodec.encodeAll skipped ++ (p.bytes ++ after)).drop
        ((packetCodec.encodeAll skipped).length + headerSize)).take (min length p.payload.length) =
      p.payload.take length := by
  have header : (datagramHeader p.payload.length p.channel p.padding p.seq).length =
      headerSize := by
    simp only [datagramHeader, List.length_append, leBytes_length, List.length_cons,
      List.length_nil, headerSize]
  rw [← List.drop_drop, List.drop_left, Packet.bytes, List.append_assoc, ← header,
    List.drop_left, ← List.take_take, List.take_left]

theorem datagramGetMessage_got (b : Bytes) (length : Nat) (flags channel : UInt8) :
    Got b length flags channel (datagramGetMessage b length flags channel) := by
  unfold datagramGetMessage
  split
  · rename_i nothing
    refine .nothing fun i size found => ?_
    rw [nothing] at found
    cases found
  · rename_i i size found
    obtain ⟨skipped, p, after, here, others, wanted, start, rfl⟩ := findMessage_some found
    rw [List.drop_zero] at here
    rw [Nat.zero_add] at start
    subst start
    split
    · refine .seen here others wanted ‹_› fun empty j size found' => ?_
      rw [found] at found'
      cases found'
      exact congrArg List.length empty
    · rename_i read
      subst here
      rw [left_of_packet, data_of_packet]
      exact .taken rfl others wanted (not_not.mp read)

end HumbleNet.Client
