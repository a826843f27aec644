import HumbleNet.Accesses
import HumbleNet.Client.Packets

/-! The bytes that `datagram_get_message` touches. Every position and every size is taken
from what the remote peer sent; the length that they are checked against is cut to 16 bits. -/
namespace HumbleNet.Client

open Accesses (Access)

/-- What a call of `datagram_get_message` returns, leaves in `buf_in`, copies, and the
positions of `buf_in` that it touches. -/
structure Delivery where
  ret : Int
  left : Bytes
  data : Bytes
  touched : List Access

section

variable (pastEnd bufIn : Bytes) (length : Nat) (flags : UInt32) (channel : UInt8)

/-- `datagram_get_message` from the position `start` on, on a vector that `pastEnd` follows in
memory. Each pass through `restart` takes one unit of fuel. -/
def deliver : Nat → Nat → Option Delivery
  | 0, _ => none
  | fuel + 1, start =>
    let available := (((bufIn.length : Int) - start) % 2 ^ 16).toNat
    if available ≤ headerSize then some ⟨-1, bufIn, [], []⟩
    else
      let memory := (bufIn ++ pastEnd).drop start
      let size := leNat (memory.take 2)
      let sizeRead : Access := ⟨start, start + 2, bufIn.length⟩
      if available < size + headerSize then some ⟨-1, bufIn, [], [sizeRead]⟩
      else
        let channelRead : Access := ⟨start + 2, start + 3, bufIn.length⟩
        if memory[2]? ≠ some channel then
          -- skip to next packet
          (deliver fuel (start + (headerSize + size))).map fun d =>
            { d with touched := sizeRead :: channelRead :: d.touched }
        else if flags &&& 1 ≠ 0 then some ⟨size, bufIn, [], [sizeRead, channelRead]⟩
        else
          let copied : Access :=
            ⟨start + headerSize, start + headerSize + min length size, bufIn.length⟩
          let erased : Access := ⟨start, start + (headerSize + size), bufIn.length⟩
          some ⟨size, bufIn.take start ++ bufIn.drop (start + (headerSize + size)),
            (memory.drop headerSize).take (min length size),
            [sizeRead, channelRead, copied, erased]⟩

/-- The vector afterwards: one whole record is gone, behind whole records of other channels,
or nothing. -/
def Removed (ret : Int) (left : Bytes) : Prop :=
  ∃ (skipped : List Packet) (p : Packet) (after : Bytes),
    bufIn = packetCodec.encodeAll skipped ++ (p.bytes ++ after) ∧
    (∀ q ∈ skipped, q.channel ≠ channel) ∧ p.channel = channel ∧
    ret = p.payload.length ∧ p.bytes.length = headerSize + p.payload.length ∧
    left = packetCodec.encodeAll skipped ++ after

def finish (flags : UInt8) : Option (Nat × Nat) → Int × Bytes × Bytes
  | none => (-1, bufIn, [])
  | some (start, size) =>
    if flags &&& msgPeek ≠ 0 then (size, bufIn, [])
    else
      (size, bufIn.take start ++ bufIn.drop (start + (headerSize + size)),
        (bufIn.drop (start + headerSize)).take (min length size))

end

variable {pastEnd bufIn : Bytes} {length : Nat} {flags : UInt32} {channel : UInt8}

theorem datagramGetMessage_finish (flags : UInt8) : datagramGetMessage bufIn length flags channel =
    finish bufIn length flags (findMessage bufIn channel bufIn.length 0) := by
  unfold datagramGetMessage finish
  cases findMessage bufIn channel bufIn.length 0 <;> rfl

theorem peek_iff : flags &&& 1 ≠ 0 ↔ flags.toUInt8 &&& msgPeek ≠ 0 := by
  have bit : (flags &&& 1).toNat = (flags.toUInt8 &&& msgPeek).toNat := by
    simp only [UInt32.toNat_and, UInt8.toNat_and, msgPeek, UInt32.toNat_toUInt8]
    change flags.toNat &&& 1 = flags.toNat % 2 ^ 8 &&& 1
    rw [Nat.and_one_is_mod, Nat.and_one_is_mod]
    omega
  constructor
  · intro set clear
    apply set
    apply UInt32.toNat_inj.mp
    rw [bit, clear]
    rfl
  · intro set clear
    apply set
    apply UInt8.toNat_inj.mp
    rw [← bit, clear]
    rfl

theorem memory_within {start n : Nat} (within : start + n ≤ bufIn.length) :
    ((bufIn ++ pastEnd).drop start).take n = (bufIn.drop start).take n := by
  have inside : n ≤ (bufIn.drop start).length := by
    rw [List.length_drop]
    omega
  rw [List.drop_append_of_le_length (by omega), List.take_append_of_le_length inside]

theorem memory_getElem {start n : Nat} (within : start + n < bufIn.length) :
    ((bufIn ++ pastEnd).drop start)[n]? = (bufIn.drop start)[n]? := by
  rw [List.getElem?_drop, List.getElem?_drop, List.getElem?_append_left within]

/-- From a position in the vector the call comes to its end with what the search finds, and
touches nothing outside the vector. The induction is on the bytes that are left: what is cut
to 16 bits is never more than they are. -/
theorem deliver_ends (pastEnd : Bytes) (length : Nat) (flags : UInt32) (channel : UInt8)
    (fuel start : Nat) (inside : start ≤ bufIn.length)
    (enough : bufIn.length ≤ start + fuel) :
    ∃ d, deliver pastEnd bufIn length flags channel (fuel + 1) start = some d ∧
      (d.ret, d.left, d.data) =
        finish bufIn length flags.toUInt8 (findMessage bufIn channel fuel start) ∧
      ∀ a ∈ d.touched, a.size = bufIn.length ∧ a.Within := by
  induction fuel generalizing start with
  | zero =>
    have empty : (((bufIn.length : Int) - start) % 2 ^ 16).toNat ≤ headerSize := by
      have : start = bufIn.length := by omega
      simp [this]
    exact ⟨_, if_pos empty, rfl, fun a ha => absurd ha List.not_mem_nil⟩
  | succ fuel ih =>
    have available : (((bufIn.length : Int) - start) % 2 ^ 16).toNat =
        (bufIn.drop start).length % 2 ^ 16 := by
      rw [List.length_drop]
      omega
    have bound : (bufIn.drop start).length % 2 ^ 16 ≤ bufIn.length - start := by
      rw [← List.length_drop]
      exact Nat.mod_le _ _
    unfold deliver findMessage
    dsimp only
    rw [available]
    generalize (bufIn.drop start).length % 2 ^ 16 = count at bound ⊢
    by_cases short : count ≤ headerSize
    · rw [if_pos short, if_pos short]
      exact ⟨_, rfl, rfl, fun a ha => absurd ha List.not_mem_nil⟩
    have header : start + headerSize < bufIn.length := by omega
    unfold headerSize at header
    rw [if_neg short, if_neg short, memory_within (by omega : start + 2 ≤ bufIn.length),
      memory_getElem (by omega : start + 2 < bufIn.length)]
    generalize leNat ((bufIn.drop start).take 2) = size
    have sizeRead : Access.Within ⟨start, start + 2, bufIn.length⟩ := by
      change start + 2 ≤ bufIn.length
      omega
    have channelRead : Access.Within ⟨start + 2, start + 3, bufIn.length⟩ := by
      change start + 3 ≤ bufIn.length
      omega
    by_cases incomplete : count < size + headerSize
    · rw [if_pos incomplete, if_pos incomplete]
      refine ⟨_, rfl, rfl, fun a ha => ?_⟩
      cases List.mem_singleton.mp ha
      exact ⟨rfl, sizeRead⟩
    have whole : start + (headerSize + size) ≤ bufIn.length := by omega
    rw [if_neg incomplete, if_neg incomplete]
    by_cases other : (bufIn.drop start)[2]? ≠ some channel
    · rw [if_pos other, if_pos other]
      obtain ⟨d, ended, found, within⟩ := ih (start + (headerSize + size)) whole (by
        unfold headerSize
        omega)
      rw [ended]
      refine ⟨_, rfl, found, fun a ha => ?_⟩
      rcases List.mem_cons.mp ha with rfl | ha
      · exact ⟨rfl, sizeRead⟩
      rcases List.mem_cons.mp ha with rfl | ha
      · exact ⟨rfl, channelRead⟩
      · exact within a ha
    rw [if_neg other, if_neg other]
    by_cases peek : flags &&& 1 ≠ 0
    · refine ⟨_, if_pos peek, (if_pos (peek_iff.mp peek)).symm, fun a ha => ?_⟩
      simp only [List.mem_cons, List.not_mem_nil, or_false] at ha
      rcases ha with rfl | rfl
      · exact ⟨rfl, sizeRead⟩
      · exact ⟨rfl, channelRead⟩
    · refine ⟨_, if_neg peek, ?_, fun a ha => ?_⟩
      · dsimp only [finish]
        rw [if_neg fun set => peek (peek_iff.mpr set), List.drop_drop,
          memory_within (by omega : start + headerSize + min length size ≤ bufIn.length)]
      · simp only [List.mem_cons, List.not_mem_nil, or_false] at ha
        rcases ha with rfl | rfl | rfl | rfl
        · exact ⟨rfl, sizeRead⟩
        · exact ⟨rfl, channelRead⟩
        · refine ⟨rfl, ?_⟩
          change start + headerSize + min length size ≤ bufIn.length
          omega
        · exact ⟨rfl, whole⟩

theorem Got.left {flags : UInt8} {r : Int × Bytes × Bytes}
    (got : Got bufIn length flags channel r) :
    r.2.2.length ≤ length ∧
      if flags &&& msgPeek = 0 ∧ 0 ≤ r.1 then Removed bufIn channel r.1 r.2.1 else r.2.1 = bufIn := by
  cases got with
  | nothing silent =>
    refine ⟨Nat.zero_le _, ?_⟩
    rw [if_neg fun h => absurd h.2 (by simp)]
  | seen here others wanted peek silent =>
    refine ⟨Nat.zero_le _, ?_⟩
    rw [if_neg fun h => peek h.1]
  | taken here others wanted read =>
    refine ⟨List.length_take_le _ _, ?_⟩
    rw [if_pos ⟨read, Int.natCast_nonneg _⟩]
    exact ⟨_, _, _, here, others, wanted, rfl, Packet.bytes_length _, rfl⟩

/-- Whatever the bytes are, and whatever follows them in memory, the call comes to its end
with a result that the bytes determine. It touches the vector inside its bounds only, copies
no more than the buffer of the caller holds, and takes one whole record of the channel or
nothing. -/
theorem getMessage_safe (pastEnd bufIn : Bytes) (length : Nat) (flags : UInt32)
    (channel : UInt8) :
    ∃ d, deliver pastEnd bufIn length flags channel (bufIn.length + 1) 0 = some d ∧
      (d.ret, d.left, d.data) = datagramGetMessage bufIn length flags.toUInt8 channel ∧
      (∀ a ∈ d.touched, a.size = bufIn.length ∧ a.Within) ∧
      d.data.length ≤ length ∧
      if flags &&& 1 = 0 ∧ 0 ≤ d.ret then Removed bufIn channel d.ret d.left
      else d.left = bufIn := by
  have enough : bufIn.length ≤ 0 + bufIn.length := by omega
  obtain ⟨d, ended, found, within⟩ :=
    deliver_ends pastEnd length flags channel bufIn.length 0 (Nat.zero_le _) enough
  rw [← datagramGetMessage_finish] at found
  have got := (datagramGetMessage_got bufIn length flags.toUInt8 channel).left
  rw [← found] at got
  refine ⟨d, ended, found, within, got.1, ?_⟩
  have same : flags &&& 1 = 0 ↔ flags.toUInt8 &&& msgPeek = 0 := by
    rw [← not_iff_not]
    exact peek_iff
  simp only [same]
  exact got.2

end HumbleNet.Client
