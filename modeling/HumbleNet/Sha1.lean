import HumbleNet.Bytes

/-! SHA-1 as `sha1.c` computes it, one byte at a time into a 64 byte block. The block
holds the bytes up to `Message_Block_Index`; those behind it are never read. -/
namespace HumbleNet

abbrev Digest := { bs : Bytes // bs.length = 20 }

def Digest.zero : Digest := ⟨List.replicate 20 0, rfl⟩

def circularShift (bits word : UInt32) : UInt32 := (word <<< bits) ||| (word >>> (32 - bits))

structure Registers where
  a : UInt32
  b : UInt32
  c : UInt32
  d : UInt32
  e : UInt32
  deriving DecidableEq, Repr

structure SHA1Context where
  hash : Registers
  lengthLow : UInt32
  lengthHigh : UInt32
  messageBlock : Bytes
  corrupted : Bool
  deriving DecidableEq, Repr

def sha1Reset : SHA1Context where
  hash := ⟨0x67452301, 0xEFCDAB89, 0x98BADCFE, 0x10325476, 0xC3D2E1F0⟩
  lengthLow := 0
  lengthHigh := 0
  messageBlock := []
  corrupted := false

def messageWords : Bytes → List UInt32
  | a :: b :: c :: d :: rest =>
    ((a.toUInt32 <<< 24) ||| (b.toUInt32 <<< 16) ||| (c.toUInt32 <<< 8) ||| d.toUInt32) ::
      messageWords rest
  | _ => []

def extendWords : Nat → List UInt32 → List UInt32
  | 0, ws => ws
  | n + 1, ws =>
    let x := ws.getD 2 0 ^^^ ws.getD 7 0 ^^^ ws.getD 13 0 ^^^ ws.getD 15 0
    extendWords n (circularShift 1 x :: ws)

def sha1Round (r : Registers) (t : Nat) (w : UInt32) : Registers :=
  let mix :=
    if t < 20 then ((r.b &&& r.c) ||| (~~~ r.b &&& r.d), (0x5A827999 : UInt32))
    else if t < 40 then (r.b ^^^ r.c ^^^ r.d, 0x6ED9EBA1)
    else if t < 60 then ((r.b &&& r.c) ||| (r.b &&& r.d) ||| (r.c &&& r.d), 0x8F1BBCDC)
    else (r.b ^^^ r.c ^^^ r.d, 0xCA62C1D6)
  let temp := circularShift 5 r.a + mix.1 + r.e + w + mix.2
  ⟨temp, r.a, circularShift 30 r.b, r.c, r.d⟩

def sha1Rounds (r : Registers) (t : Nat) : List UInt32 → Registers
  | [] => r
  | w :: ws => sha1Rounds (sha1Round r t w) (t + 1) ws

def sha1ProcessMessageBlock (context : SHA1Context) : SHA1Context :=
  let ws := (extendWords 64 (messageWords context.messageBlock).reverse).reverse
  let h := context.hash
  let r := sha1Rounds h 0 ws
  { context with
    hash := ⟨h.a + r.a, h.b + r.b, h.c + r.c, h.d + r.d, h.e + r.e⟩
    messageBlock := [] }

def sha1InputByte (context : SHA1Context) (byte : UInt8) : SHA1Context :=
  if context.corrupted then context
  else
    let low := context.lengthLow + 8
    let high := if low = 0 then context.lengthHigh + 1 else context.lengthHigh
    let next := { context with
      messageBlock := context.messageBlock ++ [byte]
      lengthLow := low
      lengthHigh := high
      corrupted := decide (low = 0 ∧ high = 0) }
    if next.messageBlock.length = 64 then sha1ProcessMessageBlock next else next

def sha1Input (context : SHA1Context) (messageArray : Bytes) : SHA1Context :=
  messageArray.foldl sha1InputByte context

def bigEndian (w : UInt32) : Bytes :=
  [(w >>> 24).toUInt8, (w >>> 16).toUInt8, (w >>> 8).toUInt8, w.toUInt8]

def sha1PadMessage (context : SHA1Context) : SHA1Context :=
  let marked := context.messageBlock ++ [0x80]
  let padded :=
    if context.messageBlock.length > 55 then
      sha1ProcessMessageBlock
        { context with messageBlock := marked ++ List.replicate (64 - marked.length) 0 }
    else { context with messageBlock := marked }
  sha1ProcessMessageBlock
    { padded with
      messageBlock := padded.messageBlock ++
        List.replicate (56 - padded.messageBlock.length) 0 ++
        bigEndian context.lengthHigh ++ bigEndian context.lengthLow }

def sha1Result (context : SHA1Context) : Digest :=
  let h := (sha1PadMessage context).hash
  ⟨bigEndian h.a ++ bigEndian h.b ++ bigEndian h.c ++ bigEndian h.d ++ bigEndian h.e, rfl⟩

def sha1 (message : Bytes) : Digest := sha1Result (sha1Input sha1Reset message)

/-- Feeding in pieces is feeding the whole: a context stands for the bytes fed so far. -/
theorem sha1Input_append (context : SHA1Context) (xs ys : Bytes) :
    sha1Input (sha1Input context xs) ys = sha1Input context (xs ++ ys) := by
  simp only [sha1Input, List.foldl_append]

-- FIPS 180-1, appendix A: the digest of "abc"
example : (sha1 [0x61, 0x62, 0x63]).1 =
    [0xA9, 0x99, 0x3E, 0x36, 0x47, 0x06, 0x81, 0x6A, 0xBA, 0x3E,
      0x25, 0x71, 0x78, 0x50, 0xC2, 0x6C, 0x9C, 0xD0, 0xD8, 0x9D] := by decide +kernel

end HumbleNet
