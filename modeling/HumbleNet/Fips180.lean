import HumbleNet.Lib.Blockwise
import HumbleNet.Sha1

/-! SHA-1 as FIPS PUB 180-1 defines it, and that this is what the code computes. -/
namespace HumbleNet.Fips180

open Blockwise

/-! ### The standard -/

def rotateLeft (n : Nat) (x : UInt32) : UInt32 := ⟨x.toBitVec.rotateLeft n⟩

/-- `f(t;B,C,D)`. -/
def logical (t : Nat) (b c d : UInt32) : UInt32 :=
  if t < 20 then (b &&& c) ||| (~~~b &&& d)
  else if t < 40 then b ^^^ c ^^^ d
  else if t < 60 then (b &&& c) ||| (b &&& d) ||| (c &&& d)
  else b ^^^ c ^^^ d

def constant (t : Nat) : UInt32 :=
  if t < 20 then 0x5A827999
  else if t < 40 then 0x6ED9EBA1
  else if t < 60 then 0x8F1BBCDC
  else 0xCA62C1D6

def number (bytes : Bytes) : Nat := bytes.foldl (fun n b => 256 * n + b.toNat) 0

def word (block : Bytes) (i : Nat) : UInt32 := UInt32.ofNat (number ((block.drop (4 * i)).take 4))

/-- `W(t)`. -/
def schedule (block : Bytes) (t : Nat) : UInt32 :=
  if t < 16 then word block t
  else rotateLeft 1 (schedule block (t - 3) ^^^ schedule block (t - 8) ^^^
    schedule block (t - 14) ^^^ schedule block (t - 16))

def step (block : Bytes) (r : Registers) (t : Nat) : Registers :=
  ⟨rotateLeft 5 r.a + logical t r.b r.c r.d + r.e + schedule block t + constant t, r.a,
    rotateLeft 30 r.b, r.c, r.d⟩

def compress (h : Registers) (block : Bytes) : Registers :=
  let r := (List.range 80).foldl (step block) h
  ⟨h.a + r.a, h.b + r.b, h.c + r.c, h.d + r.d, h.e + r.e⟩

def initial : Registers := ⟨0x67452301, 0xEFCDAB89, 0x98BADCFE, 0x10325476, 0xC3D2E1F0⟩

def numeral (k n : Nat) : Bytes := (List.range k).map fun i => UInt8.ofNat (n / 256 ^ (k - 1 - i))

/-- The message, a one and zeros, and the length in bits in the last 64 bits of a block. -/
def padded (message : Bytes) : Bytes :=
  message ++ 0x80 :: List.replicate ((119 - message.length % 64) % 64) 0 ++
    numeral 8 (8 * message.length)

def digest (message : Bytes) : Digest :=
  let h := overBlocks 64 compress initial (padded message)
  ⟨numeral 4 h.a.toNat ++ numeral 4 h.b.toNat ++ numeral 4 h.c.toNat ++ numeral 4 h.d.toNat ++
    numeral 4 h.e.toNat, rfl⟩

/-! ### Words and bytes -/

theorem circularShift_one (x : UInt32) : circularShift 1 x = rotateLeft 1 x := by
  apply UInt32.toBitVec_inj.mp
  simp [circularShift, rotateLeft, BitVec.rotateLeft_def]

theorem circularShift_five (x : UInt32) : circularShift 5 x = rotateLeft 5 x := by
  apply UInt32.toBitVec_inj.mp
  simp [circularShift, rotateLeft, BitVec.rotateLeft_def]

theorem circularShift_thirty (x : UInt32) : circularShift 30 x = rotateLeft 30 x := by
  apply UInt32.toBitVec_inj.mp
  simp [circularShift, rotateLeft, BitVec.rotateLeft_def]

theorem bigEndian_eq (w : UInt32) : bigEndian w = numeral 4 w.toNat := by
  have byte : ∀ k : UInt32, k.toNat < 32 →
      (w >>> k).toUInt8 = UInt8.ofNat (w.toNat / 2 ^ k.toNat) := by
    intro k small
    apply UInt8.toNat_inj.mp
    rw [UInt32.toNat_toUInt8, UInt32.toNat_shiftRight, Nat.mod_eq_of_lt small,
      Nat.shiftRight_eq_div_pow]
    exact UInt8.toNat_ofNat'.symm
  have first := byte 24 (by decide)
  have second := byte 16 (by decide)
  have third := byte 8 (by decide)
  simp only [UInt32.reduceToNat, Nat.reducePow] at first second third
  simp [numeral, bigEndian, List.range_succ, first, second, third]

theorem shifted_byte {x k : Nat} (byte : x < 2 ^ 8) (small : k ≤ 24) :
    x <<< k % 2 ^ 32 = 2 ^ k * x := by
  have le : 2 ^ k ≤ 2 ^ 24 := Nat.pow_le_pow_right (by decide) small
  have lt : 2 ^ k * x < 2 ^ 24 * 2 ^ 8 :=
    Nat.lt_of_le_of_lt (Nat.mul_le_mul_right x le) (Nat.mul_lt_mul_of_pos_left byte (by decide))
  rw [Nat.shiftLeft_eq, Nat.mul_comm]
  exact Nat.mod_eq_of_lt lt

theorem word_eq (a b c d : UInt8) :
    (a.toUInt32 <<< 24) ||| (b.toUInt32 <<< 16) ||| (c.toUInt32 <<< 8) ||| d.toUInt32 =
      UInt32.ofNat (number [a, b, c, d]) := by
  have ha := a.toNat_lt
  have hb := b.toNat_lt
  have hc := c.toNat_lt
  have hd := d.toNat_lt
  have whole : number [a, b, c, d] =
      2 ^ 24 * a.toNat + (2 ^ 16 * b.toNat + (2 ^ 8 * c.toNat + d.toNat)) := by
    simp only [number, List.foldl_cons, List.foldl_nil]
    omega
  apply UInt32.toNat_inj.mp
  rw [UInt32.toNat_ofNat_of_lt' (by rw [whole]; change _ < 2 ^ 32; omega), whole]
  simp only [UInt32.toNat_or, UInt32.toNat_shiftLeft, UInt8.toNat_toUInt32, Nat.or_assoc,
    UInt32.reduceToNat, Nat.reduceMod]
  rw [shifted_byte ha (by decide), shifted_byte hb (by decide), shifted_byte hc (by decide),
    Nat.two_pow_add_eq_or_of_lt (i := 24) (by omega),
    Nat.two_pow_add_eq_or_of_lt (i := 16) (by omega), Nat.two_pow_add_eq_or_of_lt (i := 8) hd]

/-! ### A block -/

theorem messageWords_eq (n : Nat) {block : Bytes} (length : block.length = 4 * n) :
    messageWords block = (List.range n).map (word block) := by
  induction n generalizing block with
  | zero =>
    obtain rfl := List.length_eq_zero_iff.mp length
    rfl
  | succ n ih =>
    obtain _ | ⟨a, _ | ⟨b, _ | ⟨c, _ | ⟨d, rest⟩⟩⟩⟩ := block
    all_goals simp only [List.length_cons, List.length_nil] at length
    all_goals try omega
    have later : ∀ i, word (a :: b :: c :: d :: rest) (i + 1) = word rest i := by
      intro i
      simp only [word, Nat.mul_succ, List.drop_succ_cons]
    rw [messageWords, ih (by omega), word_eq, List.range_succ_eq_map, List.map_cons, List.map_map]
    exact congrArg _ (List.map_congr_left fun i _ => (later i).symm)

def scheduled (block : Bytes) (n : Nat) : List UInt32 :=
  ((List.range n).map (schedule block)).reverse

theorem scheduled_succ (block : Bytes) (n : Nat) :
    scheduled block (n + 1) = schedule block n :: scheduled block n := by
  simp [scheduled, List.range_succ]

theorem scheduled_getD (block : Bytes) {n i : Nat} (inside : i < n) :
    (scheduled block n).getD i 0 = schedule block (n - 1 - i) := by
  rw [List.getD_eq_getElem?_getD, scheduled, List.getElem?_reverse (by simpa using inside)]
  simp [show n - 1 - i < n by omega]

theorem extendWords_eq (block : Bytes) (k n : Nat) (enough : 16 ≤ n) :
    extendWords k (scheduled block n) = scheduled block (n + k) := by
  induction k generalizing n with
  | zero => rfl
  | succ k ih =>
    have next : circularShift 1 ((scheduled block n).getD 2 0 ^^^ (scheduled block n).getD 7 0 ^^^
        (scheduled block n).getD 13 0 ^^^ (scheduled block n).getD 15 0) = schedule block n := by
      rw [scheduled_getD block (by omega), scheduled_getD block (by omega),
        scheduled_getD block (by omega), scheduled_getD block (by omega), circularShift_one]
      conv => rhs; rw [schedule, if_neg (by omega)]
      rfl
    have later := ih (n + 1) (by omega)
    rw [scheduled_succ] at later
    rw [extendWords, next, later]
    congr 1
    omega

theorem sha1Round_eq (block : Bytes) (r : Registers) (t : Nat) :
    sha1Round r t (schedule block t) = step block r t := by
  simp only [sha1Round, step, logical, constant, circularShift_five, circularShift_thirty]
  split
  · rfl
  · split
    · rfl
    · split <;> rfl

theorem sha1Rounds_eq (block : Bytes) (k t : Nat) (r : Registers) :
    sha1Rounds r t ((List.range' t k).map (schedule block)) =
      (List.range' t k).foldl (step block) r := by
  induction k generalizing t r with
  | zero => rfl
  | succ k ih =>
    rw [List.range'_succ, List.map_cons, sha1Rounds, sha1Round_eq, ih, List.foldl_cons]

theorem processMessageBlock_eq (context : SHA1Context) (full : context.messageBlock.length = 64) :
    sha1ProcessMessageBlock context =
      { context with hash := compress context.hash context.messageBlock, messageBlock := [] } := by
  have first : (messageWords context.messageBlock).reverse = scheduled context.messageBlock 16 := by
    have words : (List.range 16).map (word context.messageBlock) =
        (List.range 16).map (schedule context.messageBlock) := by
      refine List.map_congr_left fun t below => ?_
      rw [schedule, if_pos (List.mem_range.mp below)]
    rw [messageWords_eq 16 full, words, scheduled]
  have all : (extendWords 64 (messageWords context.messageBlock).reverse).reverse =
      (List.range' 0 80).map (schedule context.messageBlock) := by
    rw [first, extendWords_eq _ _ _ (Nat.le_refl _), scheduled, List.reverse_reverse,
      List.range_eq_range']
  simp only [sha1ProcessMessageBlock, all, sha1Rounds_eq, compress, List.range_eq_range']

/-! ### A message -/

structure Fed (context : SHA1Context) (message : Bytes) : Prop where
  hash : context.hash = overBlocks 64 compress initial message
  block : context.messageBlock = pending 64 message
  length : 2 ^ 32 * context.lengthHigh.toNat + context.lengthLow.toNat = 8 * message.length
  sound : context.corrupted = false

section

variable {context : SHA1Context} {message : Bytes}

theorem fed_reset : Fed sha1Reset [] := ⟨rfl, rfl, rfl, rfl⟩

theorem Fed.block_length (fed : Fed context message) :
    context.messageBlock.length = message.length % 64 := by
  rw [fed.block, pending_length]

theorem length_next {low high : UInt32} {n : Nat}
    (length : 2 ^ 32 * high.toNat + low.toNat = 8 * n) :
    (8 * (n + 1) < 2 ^ 64 → ¬ (low + 8 = 0 ∧ (if low + 8 = 0 then high + 1 else high) = 0) ∧
      2 ^ 32 * (if low + 8 = 0 then high + 1 else high).toNat + (low + 8).toNat = 8 * (n + 1)) ∧
    (8 * (n + 1) = 2 ^ 64 → low + 8 = 0 ∧ (if low + 8 = 0 then high + 1 else high) = 0) := by
  have hl := low.toNat_lt
  have hh := high.toNat_lt
  have sum : (low + 8).toNat = (low.toNat + 8) % 2 ^ 32 := UInt32.toNat_add _ _
  have carry : (high + 1).toNat = (high.toNat + 1) % 2 ^ 32 := UInt32.toNat_add _ _
  have zero : ∀ x : UInt32, x = 0 ↔ x.toNat = 0 := fun x => UInt32.toNat_inj.symm
  by_cases wrap : low + 8 = 0
  · rw [if_pos wrap, zero (low + 8), zero (high + 1)]
    rw [zero (low + 8)] at wrap
    omega
  · rw [if_neg wrap, zero (low + 8), zero high]
    rw [zero (low + 8)] at wrap
    omega

theorem Fed.next (fed : Fed context message) (byte : UInt8)
    (short : 8 * (message.length + 1) < 2 ^ 64) :
    Fed (sha1InputByte context byte) (message ++ [byte]) := by
  obtain ⟨alive, length⟩ := (length_next fed.length).1 short
  have absorbed := absorb_collected (by decide : 0 < 64) compress initial message byte
  simp only [Collector.absorb, collected, ← fed.hash, ← fed.block] at absorbed
  have size : (message ++ [byte]).length = message.length + 1 := by simp
  simp only [sha1InputByte, fed.sound, Bool.false_eq_true, if_false, alive, decide_false,
    List.length_append, List.length_singleton]
  split
  · rename_i full
    rw [if_pos full] at absorbed
    rw [processMessageBlock_eq _ (by simpa using full)]
    obtain ⟨state, buffer⟩ := Collector.mk.inj absorbed
    exact ⟨state, buffer, by rw [size]; exact length, rfl⟩
  · rename_i some_left
    rw [if_neg some_left] at absorbed
    obtain ⟨state, buffer⟩ := Collector.mk.inj absorbed
    exact ⟨state, buffer, by rw [size]; exact length, rfl⟩

theorem Fed.last (fed : Fed context message) (byte : UInt8)
    (full : 8 * (message.length + 1) = 2 ^ 64) : (sha1InputByte context byte).corrupted = true := by
  have wraps := (length_next fed.length).2 full
  have sound : ¬ context.corrupted = true := by simp [fed.sound]
  rw [sha1InputByte, if_neg sound]
  dsimp only
  split <;> exact decide_eq_true wraps

theorem Fed.input (fed : Fed context message) (bytes : Bytes)
    (short : 8 * (message.length + bytes.length) < 2 ^ 64) :
    Fed (sha1Input context bytes) (message ++ bytes) := by
  induction bytes generalizing context message with
  | nil => simpa [sha1Input] using fed
  | cons b bs ih =>
    rw [List.length_cons] at short
    have next := ih (fed.next b (by omega)) (by
      simp only [List.length_append, List.length_singleton]
      omega)
    rwa [List.append_assoc] at next

theorem corrupted_stays (corrupted : context.corrupted = true) (bytes : Bytes) :
    sha1Input context bytes = context := by
  induction bytes with
  | nil => rfl
  | cons b bs ih => rw [sha1Input, List.foldl_cons, sha1InputByte, if_pos corrupted]; exact ih

theorem Fed.spoiled (fed : Fed context message) (bytes : Bytes)
    (short : 8 * message.length < 2 ^ 64) (long : 2 ^ 64 ≤ 8 * (message.length + bytes.length)) :
    (sha1Input context bytes).corrupted = true := by
  induction bytes generalizing context message with
  | nil => rw [List.length_nil] at long; omega
  | cons b bs ih =>
    rw [List.length_cons] at long
    by_cases full : 8 * (message.length + 1) < 2 ^ 64
    · refine ih (fed.next b full) ?_ ?_ <;>
        (simp only [List.length_append, List.length_singleton]; omega)
    · have spoiled := fed.last b (by omega)
      change (sha1Input (sha1InputByte context b) bs).corrupted = true
      rw [corrupted_stays spoiled, spoiled]

theorem numeral_halves (high low : UInt32) :
    numeral 8 (2 ^ 32 * high.toNat + low.toNat) = bigEndian high ++ bigEndian low := by
  have hl := low.toNat_lt
  rw [bigEndian_eq, bigEndian_eq]
  simp only [numeral, List.range_succ, List.range_zero, List.nil_append, List.cons_append,
    List.map_cons, List.map_nil, List.cons.injEq, and_true, Nat.reduceSub, Nat.reducePow,
    Nat.add_one_sub_one, ← UInt8.toNat_inj, UInt8.toNat_ofNat']
  omega

theorem numeral_length (k n : Nat) : (numeral k n).length = k := by simp [numeral]

theorem padded_short (short : message.length % 64 ≤ 55) (h : Registers) :
    overBlocks 64 compress h (padded message) = compress (overBlocks 64 compress h message)
      (pending 64 message ++ (0x80 :: List.replicate (55 - message.length % 64) 0 ++
        numeral 8 (8 * message.length))) := by
  have zeros : (119 - message.length % 64) % 64 = 55 - message.length % 64 := by omega
  rw [padded, zeros, List.append_assoc]
  refine (append_full ?_ (by decide)).1
  simp only [List.length_append, List.length_cons, List.length_replicate, numeral_length]
  omega

theorem padded_long (long : 55 < message.length % 64) (h : Registers) :
    overBlocks 64 compress h (padded message) = compress
      (compress (overBlocks 64 compress h message)
        (pending 64 message ++ 0x80 :: List.replicate (63 - message.length % 64) 0))
      (List.replicate 56 0 ++ numeral 8 (8 * message.length)) := by
  have below : message.length % 64 < 64 := Nat.mod_lt _ (by decide)
  have zeros : (119 - message.length % 64) % 64 = (63 - message.length % 64) + 56 := by omega
  have ends : padded message = (message ++ 0x80 :: List.replicate (63 - message.length % 64) 0) ++
      (List.replicate 56 0 ++ numeral 8 (8 * message.length)) := by
    rw [padded, zeros, ← List.replicate_append_replicate]
    simp only [List.append_assoc, List.cons_append]
  have fills : message.length % 64 +
      (0x80 :: List.replicate (63 - message.length % 64) (0 : UInt8)).length = 64 := by
    simp only [List.length_cons, List.length_replicate]
    omega
  obtain ⟨state, buffer⟩ := append_full (f := compress) (s := h) fills (by decide)
  have whole :
      (message ++ 0x80 :: List.replicate (63 - message.length % 64) 0).length % 64 = 0 := by
    rw [← pending_length, buffer, List.length_nil]
  have last : (message ++ 0x80 :: List.replicate (63 - message.length % 64) 0).length % 64 +
      (List.replicate 56 0 ++ numeral 8 (8 * message.length)).length = 64 := by
    rw [whole, List.length_append, List.length_replicate, numeral_length]
  rw [ends, (append_full (f := compress) (s := h) last (by decide)).1, state, buffer,
    List.nil_append]

theorem Fed.pad (fed : Fed context message) :
    (sha1PadMessage context).hash = overBlocks 64 compress initial (padded message) := by
  have below : message.length % 64 < 64 := Nat.mod_lt _ (by decide)
  have size := fed.block_length
  have length : bigEndian context.lengthHigh ++ bigEndian context.lengthLow =
      numeral 8 (8 * message.length) := by
    rw [← fed.length, numeral_halves]
  by_cases long : 55 < context.messageBlock.length
  · have rest : 64 - (context.messageBlock ++ [0x80]).length = 63 - message.length % 64 := by
      rw [List.length_append, List.length_singleton, size]
      omega
    have first := processMessageBlock_eq
      { context with
        messageBlock := context.messageBlock ++ [0x80] ++
          List.replicate (63 - message.length % 64) 0 } (by
      simp only [List.length_append, List.length_singleton, List.length_replicate, size]
      omega)
    rw [sha1PadMessage, if_pos long, rest, first]
    simp only [List.nil_append, List.length_nil, Nat.sub_zero, List.append_assoc, length]
    rw [processMessageBlock_eq _ (by
      rw [List.length_append, List.length_replicate, numeral_length])]
    rw [padded_long (size ▸ long), ← fed.hash, ← fed.block]
    rfl
  · have rest : 56 - (context.messageBlock ++ [0x80]).length = 55 - message.length % 64 := by
      rw [List.length_append, List.length_singleton, size]
      omega
    rw [sha1PadMessage, if_neg long]
    simp only [rest, List.append_assoc, length]
    rw [processMessageBlock_eq _ (by
      simp only [List.length_append, List.length_replicate, numeral_length, List.length_singleton,
        size]
      omega)]
    rw [padded_short (by omega), ← fed.hash, ← fed.block]
    rfl

theorem Fed.result (fed : Fed context message) : sha1Result context = digest message := by
  simp only [sha1Result, digest, fed.pad, bigEndian_eq]

theorem sha1_eq (short : 8 * message.length < 2 ^ 64) : sha1 message = digest message := by
  have fed := fed_reset.input message (by simpa using short)
  rw [List.nil_append] at fed
  exact fed.result

end

end HumbleNet.Fips180
