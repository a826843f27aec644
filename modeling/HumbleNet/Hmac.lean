import HumbleNet.Sha1

/-! HMAC over a hash (`hmac.cpp`). A hash context is kept as the bytes fed to it so far,
which is all that `SHA1Result` depends on. -/
namespace HumbleNet

def hmacBlocksize : Nat := 64

structure HMACContext where
  iCtx : Bytes
  oCtx : Bytes
  deriving DecidableEq, Repr

section hmac

variable (sha1 : Bytes → Digest)

def keyBlock (key : Bytes) : Bytes :=
  let front := if hmacBlocksize < key.length then (sha1 key).1 else key
  front ++ List.replicate (hmacBlocksize - front.length) 0

def hmacInit (key : Bytes) : HMACContext where
  iCtx := (keyBlock sha1 key).map (0x36 ^^^ ·)
  oCtx := (keyBlock sha1 key).map (0x5c ^^^ ·)

def hmacInput (ctx : HMACContext) (data : Bytes) : HMACContext :=
  { ctx with iCtx := ctx.iCtx ++ data }

def hmacResult (ctx : HMACContext) : Digest := sha1 (ctx.oCtx ++ (sha1 ctx.iCtx).1)

theorem hmacInput_append (ctx : HMACContext) (xs ys : Bytes) :
    hmacInput (hmacInput ctx xs) ys = hmacInput ctx (xs ++ ys) := by
  simp only [hmacInput, List.append_assoc]

theorem keyBlock_length (key : Bytes) : (keyBlock sha1 key).length = hmacBlocksize := by
  have front : (if hmacBlocksize < key.length then (sha1 key).1 else key).length ≤
      hmacBlocksize := by
    split
    · rw [(sha1 key).2]
      decide
    · omega
  simp only [keyBlock, List.length_append, List.length_replicate]
  omega

end hmac

def hexLookup (nibble : UInt8) : UInt8 := if nibble < 10 then 0x30 + nibble else 0x57 + nibble

def hmacResultToHex (digest : Digest) : Bytes :=
  digest.1.flatMap fun (b : UInt8) => [hexLookup (b >>> 4), hexLookup (b &&& 0xf)]

def hexNibble (c : UInt8) : UInt8 := if c < 0x3a then c - 0x30 else c - 0x57

theorem hexNibble_lookup : ∀ n < 256,
    (hexNibble (hexLookup (UInt8.ofNat n >>> 4)) <<< 4) |||
      hexNibble (hexLookup (UInt8.ofNat n &&& 0xf)) = UInt8.ofNat n := by
  decide +kernel

theorem hexPair_injective {a b : UInt8} (high : hexLookup (a >>> 4) = hexLookup (b >>> 4))
    (low : hexLookup (a &&& 0xf) = hexLookup (b &&& 0xf)) : a = b := by
  have ha := hexNibble_lookup a.toNat a.toNat_lt
  have hb := hexNibble_lookup b.toNat b.toNat_lt
  rw [UInt8.ofNat_toNat] at ha hb
  rw [← ha, ← hb, high, low]

theorem hexDigits_injective {xs ys : Bytes}
    (h : (xs.flatMap fun (b : UInt8) => [hexLookup (b >>> 4), hexLookup (b &&& 0xf)]) =
      ys.flatMap fun (b : UInt8) => [hexLookup (b >>> 4), hexLookup (b &&& 0xf)]) : xs = ys := by
  induction xs generalizing ys with
  | nil =>
    cases ys with
    | nil => rfl
    | cons y ys => cases h
  | cons x xs ih =>
    cases ys with
    | nil => cases h
    | cons y ys =>
      simp only [List.flatMap_cons, List.cons_append, List.nil_append, List.cons.injEq] at h
      obtain ⟨high, low, rest⟩ := h
      rw [hexPair_injective high low, ih rest]

theorem hmacResultToHex_injective {a b : Digest} (h : hmacResultToHex a = hmacResultToHex b) :
    a = b :=
  Subtype.ext (hexDigits_injective h)

theorem hexLookup_ne_zero : ∀ n < 16, hexLookup (UInt8.ofNat n) ≠ 0 := by decide +kernel

theorem hmacResultToHex_no_nul (digest : Digest) : (0 : UInt8) ∉ hmacResultToHex digest := by
  intro h
  obtain ⟨b, _, hb⟩ := List.mem_flatMap.mp h
  have high : (b >>> 4).toNat < 16 := by
    have lt := b.toNat_lt
    rw [UInt8.toNat_shiftRight, Nat.shiftRight_eq_div_pow]
    change b.toNat / 16 < 16
    omega
  have low : (b &&& 0xf).toNat < 16 := by
    rw [UInt8.toNat_and]
    exact Nat.lt_of_le_of_lt Nat.and_le_right (by decide)
  have h1 := hexLookup_ne_zero _ high
  have h2 := hexLookup_ne_zero _ low
  rw [UInt8.ofNat_toNat] at h1 h2
  rcases List.mem_cons.mp hb with h0 | hb
  · exact h1 h0.symm
  · exact h2 (List.mem_singleton.mp hb).symm

end HumbleNet
