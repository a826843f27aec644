import HumbleNet.Crc
import HumbleNet.Fragmentation
import HumbleNet.Lib.ShiftRegister

/-! What the checksum of a signaling message notices. The table driven loop is a shift
register that is fed a byte at a time, so that damage within 32 consecutive bits of a body
always shows, and the damaged message is never passed on. -/
namespace HumbleNet.Checksum

open Incremental ShiftRegister

def polynomial : BitVec 32 := 0x04c11db7

theorem polynomial_constant : Constant polynomial := by
  unfold Constant polynomial
  decide

def byteBits (d : UInt8) : List Bool := (List.range 8).map d.toBitVec.getMsbD

def bits (data : Bytes) : List Bool := data.flatMap byteBits

@[simp] theorem byteBits_length (d : UInt8) : (byteBits d).length = 8 := by simp [byteBits]

@[simp] theorem bits_length (data : Bytes) : (bits data).length = 8 * data.length := by
  induction data with
  | nil => rfl
  | cons d data ih =>
    simp only [bits, List.flatMap_cons, List.length_append, byteBits_length] at ih ⊢
    simp only [ih, List.length_cons]
    omega

theorem getD_byteBits (d : UInt8) (i : Nat) : (byteBits d).getD i false = d.toBitVec.getMsbD i := by
  by_cases inside : i < 8
  · simp [byteBits, inside]
  · simp [byteBits, inside, BitVec.getMsbD_of_ge _ _ (Nat.not_lt.mp inside)]

/-! ### The table loop is a shift register -/

theorem crcShift_eq (c : UInt32) : (crcShift c).toBitVec = shift polynomial c.toBitVec := by
  have mask : ∀ i, (0x80000000#32).getMsbD i = decide (i = 0) := by
    intro i
    have value : 0x80000000#32 = BitVec.intMin 32 := by decide
    rw [value, BitVec.getMsbD_intMin]
    simp
  have high : c &&& 0x80000000 = 0 ↔ c.toBitVec.msb = false := by
    constructor
    · intro zero
      have bit := congrArg (fun x : UInt32 => x.toBitVec.getMsbD 0) zero
      simpa [BitVec.msb, mask] using bit
    · intro low
      apply UInt32.toBitVec_inj.mp
      apply BitVec.eq_of_getMsbD_eq
      intro i _
      simp only [BitVec.msb] at low
      cases i with
      | zero => simp [low]
      | succ i => simp [mask]
  unfold crcShift shift
  cases out : c.toBitVec.msb with
  | false => simp [high.mpr out]
  | true =>
    have set : ¬ c &&& 0x80000000 = 0 := fun zero => by simp [high.mp zero] at out
    simp [set, polynomial]

theorem crcTable_eq (i : UInt32) :
    (crcTable i).toBitVec = shifts polynomial 8 (i.toBitVec <<< 24) := by
  simp [crcTable, crcShift_eq, shifts]

/-- One turn of the loop feeds the bits of one byte. -/
theorem update_byte (c : UInt32) (d : UInt8) :
    (crcTable (((c >>> 24) ^^^ d.toUInt32) &&& 0xff) ^^^ (c <<< 8)).toBitVec =
      run polynomial c.toBitVec (byteBits d) := by
  -- the byte meets the eight bits that leave; the others only move up
  have low : ∀ i < 8, ((c.toBitVec <<< 8) >>> 8).getMsbD i = false := by
    intro i small
    simp [BitVec.getMsbD_ushiftRight, small]
  have up : ((c.toBitVec <<< 8) >>> 8) <<< 8 = c.toBitVec <<< 8 := by
    apply BitVec.eq_of_getMsbD_eq
    intro i inside
    by_cases last : i + 8 < 32
    · simp [BitVec.getMsbD_ushiftRight, last]
    · simp [BitVec.getMsbD_of_ge _ _ (Nat.not_lt.mp last)]
  have parts : c.toBitVec ^^^ top (byteBits d) =
      (((c >>> 24) ^^^ d.toUInt32) &&& 0xff).toBitVec <<< 24 ^^^ (c.toBitVec <<< 8) >>> 8 := by
    apply BitVec.eq_of_getMsbD_eq
    intro i inside
    have fed : (top (byteBits d) : BitVec 32).getMsbD i = (byteBits d).getD i false :=
      getMsbD_top (by simp) i
    rw [getD_byteBits] at fed
    have mask : (0xff#32).getMsbD (i + 24) = decide (i < 8) := by
      have value : 0xff#32 = BitVec.allOnes 32 >>> 24 := by decide
      have bounds : i + 24 < 32 ↔ i < 8 := by omega
      rw [value, BitVec.getMsbD_ushiftRight, BitVec.getMsbD_allOnes]
      simp [bounds, inside]
    by_cases small : i < 8
    · have kept : i + 24 < 32 := by omega
      simp [BitVec.getMsbD_ushiftRight, fed, mask, small, kept]
    · have beyond : d.toBitVec.getMsbD i = false := BitVec.getMsbD_of_ge _ _ (by omega)
      have back : i - 8 + 8 = i := by omega
      simp [BitVec.getMsbD_ushiftRight, fed, mask, small, beyond, inside, back]
  have all : (byteBits d).length ≤ 32 := by simp
  rw [run_top all, parts, byteBits_length, shifts_xor, shifts_of_low _ _ low, up]
  simp [crcTable_eq]

theorem crcUpdate_eq (c : UInt32) (data : Bytes) :
    (crcUpdate c data).toBitVec = run polynomial c.toBitVec (bits data) := by
  induction data generalizing c with
  | nil => rfl
  | cons d data ih =>
    have step := ih (crcTable (((c >>> 24) ^^^ d.toUInt32) &&& 0xff) ^^^ (c <<< 8))
    rw [update_byte] at step
    simp only [bits, List.flatMap_cons, run_append]
    exact step

/-! ### Damage -/

/-- The two differ within 32 consecutive bits. -/
def Burst (x y : Bytes) : Prop :=
  ∃ front d e back, d.length ≤ 32 ∧ d.length = e.length ∧ d ≠ e ∧
    bits x = front ++ d ++ back ∧ bits y = front ++ e ++ back

theorem Burst.length_eq {x y : Bytes} (burst : Burst x y) : x.length = y.length := by
  obtain ⟨front, d, e, back, _, same, _, hx, hy⟩ := burst
  have lx := congrArg List.length hx
  have ly := congrArg List.length hy
  simp at lx ly
  omega

theorem crcOf_burst {x y : Bytes} (burst : Burst x y) : crcOf x ≠ crcOf y := by
  obtain ⟨front, d, e, back, fits, same, differ, hx, hy⟩ := burst
  intro equal
  have updated : crcUpdate crcInit x = crcUpdate crcInit y := UInt32.xor_left_inj _ |>.mp equal
  have fed := congrArg UInt32.toBitVec updated
  rw [crcUpdate_eq, crcUpdate_eq, hx, hy] at fed
  exact differ (ShiftRegister.burst polynomial_constant _ fits same fed)

/-- What becomes of a checksum word and its body on a bad line: a burst in the body, or any
damage to the word. -/
inductive Hit (x : Bytes) : UInt32 → Bytes → Prop where
  | body {y : Bytes} (burst : Burst x y) : Hit x (crcOf x) y
  | word {w : UInt32} (differ : w ≠ crcOf x) : Hit x w x

/-- A frame whose size word has come through. -/
def frameOf (x : Bytes) (word : UInt32) (y : Bytes) : Bytes :=
  writeScalar32 (UInt32.ofNat x.length) ++ writeScalar32 word ++ y

variable (verify : Bytes → Bool) {τ : Type} (cb : Bytes → τ → Bool × τ)

theorem Hit.damaged {x : Bytes} (small : x.length < 2 ^ 32) {word : UInt32} {y : Bytes}
    (hit : Hit x word y) : Fragmentation.Damaged verify (frameOf x word y) := by
  have same : x.length = y.length := by
    cases hit with
    | body burst => exact burst.length_eq
    | word _ => rfl
  have size : (readScalar32 (frameOf x word y)).toNat = x.length := by
    rw [frameOf, List.append_assoc, readScalar32_write]
    exact UInt32.toNat_ofNat_of_lt' small
  have second : readScalar32 ((frameOf x word y).drop 4) = word := by
    rw [frameOf, List.append_assoc, List.drop_left' (writeScalar32_length _), readScalar32_write]
  have body : (frameOf x word y).drop 8 = y := List.drop_left' (by simp)
  have length : (frameOf x word y).length = x.length + 8 := by
    simp [frameOf, same]
    omega
  refine ⟨by omega, by omega, Or.inl ?_⟩
  rw [second, body]
  cases hit with
  | body burst => exact crcOf_burst burst
  | word differ => exact differ

/-- However the stream is cut, neither a message that was hit nor any after it is passed on. -/
theorem hit_never_passes (bodies : List Body) (good : ∀ b ∈ bodies, verify b.bytes = true)
    {x : Bytes} (small : x.length < 2 ^ 32) {word : UInt32} {y : Bytes} (hit : Hit x word y)
    (tail : Bytes)
    (chunks : List Fragmentation.Chunk) (u : τ)
    (cut : (chunks.map Fragmentation.Chunk.bytes).flatten =
      (bodies.map fun b => p2pMessageFrame b.bytes).flatten ++ (frameOf x word y ++ tail)) :
    ∃ rets s, Fragmentation.receiveAll verify cb chunks ⟨[], [], u⟩ = some (rets, s) ∧
      s.items <+: bodies.map Body.bytes ∧ false ∈ rets := by
  obtain ⟨rets, received, returned⟩ :=
    Fragmentation.receive_eq_feed verify cb chunks ⟨[], [], u⟩
  obtain ⟨handed, v, rest, before, drained⟩ :=
    Fragmentation.drain_damaged verify cb bodies good (hit.damaged verify small) tail [] u
  have same := feed_flatten (Fragmentation.frameReader verify) cb
    (chunks.map Fragmentation.Chunk.bytes) ⟨[], [], u⟩ rfl
  rw [cut, Session.push, List.nil_append, drained] at same
  refine ⟨rets, _, received, ?_, ?_⟩
  · rw [same.2.1]
    exact before
  · exact (Fragmentation.false_mem_of_returned returned).mpr same.1

def flipped : Bytes :=
  p2pMessageFrame [5] ++ (frameOf [7, 8] (crcOf [7, 8]) [1, 8] ++ p2pMessageFrame [9])

def flippedChunks : List Fragmentation.Chunk :=
  [⟨flipped.take 12, fun _ => [255]⟩, ⟨flipped.drop 12, fun _ => []⟩]

/-- Only the message in front is passed on. -/
theorem two_bits_never_pass : ∃ rets s,
    Fragmentation.receiveAll (fun _ => true) (fun _ (n : Nat) => (true, n + 1)) flippedChunks
      ⟨[], [], 0⟩ = some (rets, s) ∧ s.items = [[5]] ∧ s.items <+: [[5]] ∧ false ∈ rets := by
  have burst : Burst [7, 8] [1, 8] :=
    ⟨[false, false, false, false, false], [true, true], [false, false], true :: bits [8],
      by decide, rfl, by decide, by decide, by decide⟩
  have cut : (flippedChunks.map Fragmentation.Chunk.bytes).flatten = flipped := by
    simp only [flippedChunks, List.map_cons, List.map_nil, List.flatten_cons, List.flatten_nil,
      List.append_nil, List.take_append_drop]
  obtain ⟨rets, s, received, before, refused⟩ :=
    hit_never_passes (fun _ => true) (fun _ (n : Nat) => (true, n + 1)) [⟨[5], by decide⟩]
      (fun _ _ => rfl) (by decide) (.body burst) (p2pMessageFrame [9]) flippedChunks 0
      (by simp only [cut, flipped, List.map_cons, List.map_nil, List.flatten_cons,
        List.flatten_nil, List.append_nil])
  have passed : (Fragmentation.receiveAll (fun _ => true) (fun _ (n : Nat) => (true, n + 1))
      flippedChunks ⟨[], [], 0⟩).map (fun r => r.2.items) = some [[5]] := by
    decide +kernel
  rw [received] at passed
  exact ⟨rets, s, received, Option.some.inj passed, before, refused⟩

end HumbleNet.Checksum
