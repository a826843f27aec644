import HumbleNet.Fips180
import HumbleNet.Lib.Buffer

/-! The contexts of `sha1.c` as they stand in memory, and every way to use them: a context is fed
a message and gives the digest of FIPS PUB 180-1, or the code of what went wrong. -/
namespace HumbleNet.Sha1Contexts

open Fips180

/-! ### The code -/

def shaSuccess : Int := 0
def shaNull : Int := 1
def shaStateError : Int := 3

structure Context where
  intermediateHash : Registers
  lengthLow : UInt32
  lengthHigh : UInt32
  messageBlockIndex : Nat
  messageBlock : Buffer 64
  computed : Bool
  corrupted : Int

inductive Call where
  | reset
  | input (messageArray : Bytes)
  | inputNull (length : Nat)
  | result (messageDigest : Digest)
  | resultNull

/-- The code that a call returns, and what is in the array of the caller then. -/
structure Reply where
  code : Int
  messageDigest : Option Digest
  deriving DecidableEq

namespace Context

def reset (context : Context) : Context :=
  { context with
    lengthLow := 0
    lengthHigh := 0
    messageBlockIndex := 0
    intermediateHash := ⟨0x67452301, 0xEFCDAB89, 0x98BADCFE, 0x10325476, 0xC3D2E1F0⟩
    computed := false
    corrupted := 0 }

def put (context : Context) (byte : UInt8) : Option Context :=
  match context.messageBlock.poke context.messageBlockIndex byte with
  | some block =>
    some { context with
      messageBlock := block
      messageBlockIndex := context.messageBlockIndex + 1 }
  | none => none

def processMessageBlock (context : Context) : Context :=
  let ws := (extendWords 64 (messageWords context.messageBlock.1).reverse).reverse
  let h := context.intermediateHash
  let r := sha1Rounds h 0 ws
  { context with
    intermediateHash := ⟨h.a + r.a, h.b + r.b, h.c + r.c, h.d + r.d, h.e + r.e⟩
    messageBlockIndex := 0 }

def zeroUpTo (limit : Nat) (context : Context) : Option Context :=
  if context.messageBlockIndex < limit then
    match context.messageBlock.poke context.messageBlockIndex 0 with
    | some block =>
      zeroUpTo limit { context with
        messageBlock := block
        messageBlockIndex := context.messageBlockIndex + 1 }
    | none => none
  else some context
termination_by limit - context.messageBlockIndex

def padMessage (context : Context) : Option Context := do
  let padded ←
    if context.messageBlockIndex > 55 then do
      let marked ← context.put 0x80
      let full ← marked.zeroUpTo 64
      full.processMessageBlock.zeroUpTo 56
    else do
      let marked ← context.put 0x80
      marked.zeroUpTo 56
  -- the message length as the last 8 octets
  let block ← ((bigEndian padded.lengthHigh ++ bigEndian padded.lengthLow).zipIdx 56).foldlM
    (fun (block : Buffer 64) place => block.poke place.2 place.1) padded.messageBlock
  pure { padded with messageBlock := block }.processMessageBlock

def countByte (context : Context) : Context :=
  let low := context.lengthLow + 8
  let high := if low = 0 then context.lengthHigh + 1 else context.lengthHigh
  { context with
    lengthLow := low
    lengthHigh := high
    corrupted := if low = 0 ∧ high = 0 then 1 else context.corrupted }

def inputByte (context : Context) (byte : UInt8) : Option Context := do
  let stored ← context.put byte
  let next := stored.countByte
  pure (if next.messageBlockIndex = 64 then next.processMessageBlock else next)

def inputBytes : Bytes → Context → Option Context
  | [], context => some context
  | byte :: rest, context =>
    if context.corrupted ≠ 0 then some context
    else (context.inputByte byte).bind (inputBytes rest)

def input (context : Context) (messageArray : Bytes) : Option (Context × Int) :=
  if messageArray.length = 0 then some (context, shaSuccess)
  else if context.computed then
    some ({ context with corrupted := shaStateError }, shaStateError)
  else if context.corrupted ≠ 0 then some (context, context.corrupted)
  else (context.inputBytes messageArray).map fun context => (context, shaSuccess)

def digestByte (h : Registers) (i : Nat) : UInt8 :=
  ([h.a, h.b, h.c, h.d, h.e].getD (i >>> 2) 0 >>> UInt32.ofNat (8 * (3 - (i &&& 3)))).toUInt8

def messageDigest (h : Registers) : Digest := ⟨(List.range 20).map (digestByte h), by simp⟩

def clear (block : Buffer 64) : Option (Buffer 64) :=
  (List.range 64).foldlM (fun (block : Buffer 64) i => block.poke i 0) block

def result (context : Context) (buffer : Digest) : Option (Context × Digest × Int) :=
  if context.corrupted ≠ 0 then some (context, buffer, context.corrupted)
  else do
    let context ←
      if context.computed then some context
      else do
        let padded ← context.padMessage
        let block ← clear padded.messageBlock
        pure { padded with
          messageBlock := block
          lengthLow := 0
          lengthHigh := 0
          computed := true }
    pure (context, messageDigest context.intermediateHash, shaSuccess)

/-- One call; `none` is a store outside the block. -/
def call (context : Context) : Call → Option (Context × Reply)
  | .reset => some (context.reset, ⟨shaSuccess, none⟩)
  | .input messageArray => (context.input messageArray).map fun r => (r.1, ⟨r.2, none⟩)
  | .inputNull length => some (context, ⟨if length = 0 then shaSuccess else shaNull, none⟩)
  | .result buffer => (context.result buffer).map fun r => (r.1, ⟨r.2.2, some r.2.1⟩)
  | .resultNull => some (context, ⟨shaNull, none⟩)

def run : Context → List Call → Option (List Reply)
  | _, [] => some []
  | context, c :: calls =>
    (context.call c).bind fun r => (r.1.run calls).map (r.2 :: ·)

end Context

/-! ### What it is for -/

/-- A message that is fed, its digest, or the code of what went wrong. -/
inductive Feed where
  | feeding (message : Bytes)
  | done (digest : Digest)
  | spoiled (code : Int)

def Feed.call : Feed → Call → Feed × Reply
  | _, .reset => (.feeding [], ⟨shaSuccess, none⟩)
  | feed, .inputNull length => (feed, ⟨if length = 0 then shaSuccess else shaNull, none⟩)
  | feed, .resultNull => (feed, ⟨shaNull, none⟩)
  | feed, .input [] => (feed, ⟨shaSuccess, none⟩)
  | .feeding message, .input bytes =>
    if 8 * (message.length + bytes.length) < 2 ^ 64 then
      (.feeding (message ++ bytes), ⟨shaSuccess, none⟩)
    else (.spoiled 1, ⟨shaSuccess, none⟩)
  | .done _, .input _ => (.spoiled shaStateError, ⟨shaStateError, none⟩)
  | .spoiled code, .input _ => (.spoiled code, ⟨code, none⟩)
  | .feeding message, .result _ => (.done (digest message), ⟨shaSuccess, some (digest message)⟩)
  | .done digest, .result _ => (.done digest, ⟨shaSuccess, some digest⟩)
  | .spoiled code, .result buffer => (.spoiled code, ⟨code, some buffer⟩)

def Feed.run : Feed → List Call → List Reply
  | _, [] => []
  | feed, c :: calls => (feed.call c).2 :: (feed.call c).1.run calls

/-! ### The block -/

namespace Context

def front (context : Context) : Bytes :=
  context.messageBlock.1.take context.messageBlockIndex

structure Filled (context : Context) (bytes : Bytes) (after : Context) : Prop where
  others : after = { context with
    messageBlock := after.messageBlock
    messageBlockIndex := context.messageBlockIndex + bytes.length }
  front : after.front = context.front ++ bytes

section

variable {context after last : Context} {xs ys : Bytes}

theorem Filled.nil (context : Context) : Filled context [] context :=
  ⟨rfl, (List.append_nil _).symm⟩

theorem Filled.index (filled : Filled context xs after) :
    after.messageBlockIndex = context.messageBlockIndex + xs.length := by
  rw [filled.others]

theorem Filled.append (first : Filled context xs after) (second : Filled after ys last) :
    Filled context (xs ++ ys) last := by
  constructor
  · rw [second.others, first.others, List.length_append, Nat.add_assoc]
  · rw [second.front, first.front, List.append_assoc]

theorem put_filled (context : Context) (byte : UInt8) (inside : context.messageBlockIndex < 64) :
    ∃ after, context.put byte = some after ∧ Filled context [byte] after := by
  obtain ⟨block, stored, front⟩ := Buffer.poke_front context.messageBlock byte inside
  refine ⟨{ context with
    messageBlock := block
    messageBlockIndex := context.messageBlockIndex + 1 }, ?_, rfl, front⟩
  rw [put, stored]

theorem zeroUpTo_filled (limit : Nat) (context : Context) (inside : limit ≤ 64) :
    ∃ after, context.zeroUpTo limit = some after ∧
      Filled context (List.replicate (limit - context.messageBlockIndex) 0) after := by
  generalize left : limit - context.messageBlockIndex = k
  induction k generalizing context with
  | zero =>
    refine ⟨context, ?_, Filled.nil context⟩
    rw [zeroUpTo, if_neg (by omega)]
  | succ k ih =>
    obtain ⟨next, stored, filled⟩ := put_filled context 0 (by omega)
    obtain ⟨after, loop, later⟩ := ih next (by rw [filled.index, List.length_singleton]; omega)
    refine ⟨after, ?_, filled.append later⟩
    rw [zeroUpTo, if_pos (by omega)]
    unfold put at stored
    split at stored
    · rename_i block poked
      cases stored
      exact loop
    · cases stored

/-! ### The context as the message it was fed -/

/-- The context that keeps only the front of the block. -/
def coarse (context : Context) : SHA1Context where
  hash := context.intermediateHash
  lengthLow := context.lengthLow
  lengthHigh := context.lengthHigh
  messageBlock := context.front
  corrupted := decide (context.corrupted ≠ 0)

theorem Filled.coarse (filled : Filled context xs after) :
    after.coarse = { context.coarse with messageBlock := context.coarse.messageBlock ++ xs } := by
  have front := filled.front
  unfold Context.coarse
  rw [front, filled.others]

theorem coarse_process (full : context.messageBlockIndex = 64) :
    context.processMessageBlock.coarse = sha1ProcessMessageBlock context.coarse := by
  have whole : context.front = context.messageBlock.1 := by
    rw [front, full, List.take_of_length_le (Nat.le_of_eq context.messageBlock.2)]
  simp only [coarse, processMessageBlock, sha1ProcessMessageBlock, whole]
  rfl

structure Open (context : Context) : Prop where
  index : context.messageBlockIndex < 64
  computed : context.computed = false
  corrupted : context.corrupted = 0 ∨ context.corrupted = 1

theorem front_length (index : context.messageBlockIndex ≤ 64) :
    context.front.length = context.messageBlockIndex := by
  have := context.messageBlock.2
  rw [front, List.length_take]
  omega

theorem countByte_corrupted (sound : context.corrupted = 0) :
    context.countByte.corrupted =
      if context.lengthLow + 8 = 0 ∧
        (if context.lengthLow + 8 = 0 then context.lengthHigh + 1 else context.lengthHigh) = 0
      then 1 else 0 := by
  simp only [countByte, sound]

theorem coarse_countByte {byte : UInt8} (sound : context.corrupted = 0)
    (filled : Filled context [byte] after) :
    sha1InputByte context.coarse byte =
      if after.countByte.front.length = 64 then sha1ProcessMessageBlock after.countByte.coarse
      else after.countByte.coarse := by
  have front : after.countByte.front = context.front ++ [byte] := filled.front
  have alive : ¬ context.coarse.corrupted = true := by simp [coarse, sound]
  have next : after.countByte.coarse = { context.coarse with
      messageBlock := context.front ++ [byte]
      lengthLow := context.lengthLow + 8
      lengthHigh := if context.lengthLow + 8 = 0 then context.lengthHigh + 1
        else context.lengthHigh
      corrupted := decide (context.lengthLow + 8 = 0 ∧
        (if context.lengthLow + 8 = 0 then context.lengthHigh + 1
          else context.lengthHigh) = 0) } := by
    rw [coarse, front, countByte_corrupted (by rw [filled.others]; exact sound), filled.others]
    simp [countByte, coarse]
  rw [sha1InputByte, if_neg alive, next, front]
  rfl

theorem Open.inputByte (o : Open context) (sound : context.corrupted = 0) (byte : UInt8) :
    ∃ after, context.inputByte byte = some after ∧ Open after ∧
      after.coarse = sha1InputByte context.coarse byte := by
  obtain ⟨stored, put, filled⟩ := put_filled context byte o.index
  have below := o.index
  have index : stored.countByte.messageBlockIndex = context.messageBlockIndex + 1 := filled.index
  have computed : stored.computed = false := by
    rw [filled.others]
    exact o.computed
  have corrupted : stored.countByte.corrupted = 0 ∨ stored.countByte.corrupted = 1 := by
    rw [countByte_corrupted (by rw [filled.others]; exact sound)]
    exact (ite_eq_or_eq _ _ _).symm
  rw [coarse_countByte sound filled, front_length (by omega), Context.inputByte, put]
  refine ⟨_, rfl, ?_, ?_⟩
  · split
    · exact ⟨by simp [processMessageBlock], computed, corrupted⟩
    · exact ⟨by omega, computed, corrupted⟩
  · split
    · rename_i full
      exact coarse_process full
    · rfl

theorem Open.inputBytes (o : Open context) (bytes : Bytes) :
    ∃ after, context.inputBytes bytes = some after ∧ Open after ∧
      after.coarse = sha1Input context.coarse bytes := by
  induction bytes generalizing context with
  | nil => exact ⟨context, rfl, o, rfl⟩
  | cons byte bytes ih =>
    by_cases sound : context.corrupted = 0
    · obtain ⟨next, taken, still, same⟩ := o.inputByte sound byte
      obtain ⟨after, rest, last, all⟩ := ih still
      refine ⟨after, ?_, last, ?_⟩
      · rw [Context.inputBytes, if_neg (by simpa using sound), taken]
        exact rest
      · rw [all, same]
        rfl
    · refine ⟨context, ?_, o, ?_⟩
      · rw [Context.inputBytes, if_pos sound]
      · exact (corrupted_stays (by simp [coarse, sound]) _).symm

theorem coarse_last (index : context.messageBlockIndex = 56) : ∃ block,
    ((bigEndian context.lengthHigh ++ bigEndian context.lengthLow).zipIdx 56).foldlM
      (fun (block : Buffer 64) place => block.poke place.2 place.1) context.messageBlock =
        some block ∧
    ({ context with messageBlock := block } : Context).processMessageBlock.coarse =
      sha1ProcessMessageBlock { context.coarse with
        messageBlock := context.front ++ bigEndian context.lengthHigh ++
          bigEndian context.lengthLow } := by
  obtain ⟨block, stored, whole⟩ := Buffer.poke_run (i := 56) context.messageBlock
    (bigEndian context.lengthHigh ++ bigEndian context.lengthLow) (by simp [bigEndian])
  refine ⟨block, stored, ?_⟩
  let full : Context := { context with messageBlock := block, messageBlockIndex := 64 }
  have filled : full.coarse = { context.coarse with
      messageBlock := context.front ++ bigEndian context.lengthHigh ++
        bigEndian context.lengthLow } := by
    have front : full.front = context.front ++ bigEndian context.lengthHigh ++
        bigEndian context.lengthLow := by
      rw [Context.front, Context.front, index, List.append_assoc]
      exact whole
    rw [coarse, front]
    rfl
  have index64 : full.messageBlockIndex = 64 := rfl
  rw [← filled]
  exact coarse_process index64

theorem process_messageBlock (context : SHA1Context) :
    (sha1ProcessMessageBlock context).messageBlock = [] := rfl

theorem Open.pad_long (o : Open context) (long : 55 < context.messageBlockIndex) :
    ∃ marked full padded, context.put 0x80 = some marked ∧ marked.zeroUpTo 64 = some full ∧
      full.processMessageBlock.zeroUpTo 56 = some padded ∧ padded.messageBlockIndex = 56 ∧
      padded.corrupted = context.corrupted ∧
      padded.coarse = { sha1ProcessMessageBlock { context.coarse with
        messageBlock := context.front ++ [0x80] ++
          List.replicate (63 - context.messageBlockIndex) 0 } with
        messageBlock := List.replicate 56 0 } := by
  have below := o.index
  obtain ⟨marked, put, first⟩ := put_filled context 0x80 below
  have index := first.index
  rw [List.length_singleton] at index
  obtain ⟨full, fill, second⟩ := zeroUpTo_filled 64 marked (by decide)
  have both := first.append second
  have end64 := both.index
  simp only [List.length_append, List.length_singleton, List.length_replicate] at end64
  obtain ⟨padded, zeros, third⟩ := zeroUpTo_filled 56 full.processMessageBlock (by decide)
  have end56 := third.index
  rw [List.length_replicate] at end56
  refine ⟨marked, full, padded, put, fill, zeros, ?_, ?_, ?_⟩
  · simpa [processMessageBlock] using end56
  · rw [third.others]
    change full.corrupted = _
    rw [both.others]
  · have rest : 64 - marked.messageBlockIndex = 63 - context.messageBlockIndex := by omega
    rw [third.coarse, coarse_process (by omega), both.coarse, rest, ← List.append_assoc]
    rfl

theorem Open.pad_short (o : Open context) (short : context.messageBlockIndex ≤ 55) :
    ∃ marked padded, context.put 0x80 = some marked ∧ marked.zeroUpTo 56 = some padded ∧
      padded.messageBlockIndex = 56 ∧ padded.corrupted = context.corrupted ∧
      padded.coarse = { context.coarse with
        messageBlock := context.front ++ [0x80] ++
          List.replicate (55 - context.messageBlockIndex) 0 } := by
  obtain ⟨marked, put, first⟩ := put_filled context 0x80 o.index
  have index := first.index
  rw [List.length_singleton] at index
  obtain ⟨padded, fill, second⟩ := zeroUpTo_filled 56 marked (by decide)
  have both := first.append second
  have end56 := both.index
  simp only [List.length_append, List.length_singleton, List.length_replicate] at end56
  refine ⟨marked, padded, put, fill, by omega, ?_, ?_⟩
  · rw [both.others]
  · have rest : 56 - marked.messageBlockIndex = 55 - context.messageBlockIndex := by omega
    rw [both.coarse, rest, ← List.append_assoc]
    rfl

theorem Open.padMessage (o : Open context) :
    ∃ after, context.padMessage = some after ∧ after.messageBlockIndex = 0 ∧
      after.corrupted = context.corrupted ∧ after.coarse = sha1PadMessage context.coarse := by
  have below := o.index
  have waiting : context.coarse.messageBlock = context.front := rfl
  have length := front_length (Nat.le_of_lt below)
  have marked_length : (context.front ++ [0x80]).length = context.messageBlockIndex + 1 := by
    rw [List.length_append, List.length_singleton, length]
  by_cases long : 55 < context.messageBlockIndex
  · obtain ⟨marked, full, padded, put, fill, zeros, index, corrupted, same⟩ := o.pad_long long
    obtain ⟨block, stored, last⟩ := coarse_last index
    refine ⟨({ padded with messageBlock := block } : Context).processMessageBlock, ?_, rfl,
      corrupted, ?_⟩
    · rw [Context.padMessage, if_pos long, put, Option.bind_eq_bind, Option.bind_some, fill,
        Option.bind_eq_bind, Option.bind_some, zeros, Option.bind_some]
      dsimp only
      rw [stored, Option.bind_some, Option.pure_def]
    · have high : padded.lengthHigh = context.lengthHigh := congrArg SHA1Context.lengthHigh same
      have low : padded.lengthLow = context.lengthLow := congrArg SHA1Context.lengthLow same
      have front : padded.front = List.replicate 56 0 := congrArg SHA1Context.messageBlock same
      have rest : 64 - (context.front ++ [0x80]).length = 63 - context.messageBlockIndex := by
        omega
      rw [last, same, high, low, front, sha1PadMessage, waiting, if_pos (by omega), rest]
      simp only [process_messageBlock, List.nil_append, List.length_nil, Nat.sub_zero]
      rfl
  · obtain ⟨marked, padded, put, fill, index, corrupted, same⟩ := o.pad_short (by omega)
    obtain ⟨block, stored, last⟩ := coarse_last index
    refine ⟨({ padded with messageBlock := block } : Context).processMessageBlock, ?_, rfl,
      corrupted, ?_⟩
    · rw [Context.padMessage, if_neg long, put, Option.bind_eq_bind, Option.bind_some, fill,
        Option.bind_some]
      dsimp only
      rw [stored, Option.bind_eq_bind, Option.bind_some, Option.pure_def]
    · have high : padded.lengthHigh = context.lengthHigh := congrArg SHA1Context.lengthHigh same
      have low : padded.lengthLow = context.lengthLow := congrArg SHA1Context.lengthLow same
      have front : padded.front = context.front ++ [0x80] ++
          List.replicate (55 - context.messageBlockIndex) 0 :=
        congrArg SHA1Context.messageBlock same
      have rest : 56 - (context.front ++ [0x80]).length = 55 - context.messageBlockIndex := by
        omega
      rw [last, same, high, low, front, sha1PadMessage, waiting, if_neg (by omega)]
      simp only [rest]
      rfl

theorem clear_stored (block : Buffer 64) : ∃ cleared, clear block = some cleared := by
  obtain ⟨cleared, loop, -⟩ := Buffer.poke_range (f := fun _ => some 0) (g := fun _ => 0) block
    (Nat.le_refl 64) (fun _ _ => rfl)
  exact ⟨cleared, loop⟩

theorem messageDigest_eq (h : Registers) : (messageDigest h).1 =
    bigEndian h.a ++ bigEndian h.b ++ bigEndian h.c ++ bigEndian h.d ++ bigEndian h.e := by
  simp [messageDigest, digestByte, bigEndian, List.range_succ]

end

end Context

/-! ### Every run -/

inductive Stands : Context → Feed → Prop where
  | feeding {context : Context} {message : Bytes} (accepts : context.Open)
    (fed : Fed context.coarse message) : Stands context (.feeding message)
  | done {context : Context} (computed : context.computed = true)
    (sound : context.corrupted = 0) :
    Stands context (.done (Context.messageDigest context.intermediateHash))
  | spoiled {context : Context} (corrupted : context.corrupted ≠ 0)
    (late : context.computed = true → context.corrupted = shaStateError) :
    Stands context (.spoiled context.corrupted)

section

variable {context : Context} {feed : Feed} {message : Bytes}

theorem stands_reset (context : Context) : Stands context.reset (.feeding []) :=
  .feeding ⟨by simp [Context.reset], rfl, .inl rfl⟩ (by
    have same : context.reset.coarse = sha1Reset := by
      simp [Context.coarse, Context.front, Context.reset, sha1Reset]
    rw [same]
    exact fed_reset)

theorem feeding_sound (fed : Fed context.coarse message) : context.corrupted = 0 := by
  simpa [Context.coarse] using fed.sound

theorem feeding_input (accepts : context.Open) (fed : Fed context.coarse message) {bytes : Bytes}
    (some_bytes : bytes ≠ []) :
    ∃ after, context.input bytes = some (after, shaSuccess) ∧
      Stands after (if 8 * (message.length + bytes.length) < 2 ^ 64 then
        .feeding (message ++ bytes) else .spoiled 1) := by
  have sound := feeding_sound fed
  obtain ⟨after, taken, still, same⟩ := accepts.inputBytes bytes
  refine ⟨after, ?_, ?_⟩
  · have length : bytes.length ≠ 0 := by simpa using some_bytes
    rw [Context.input, if_neg length, if_neg (by simp [accepts.computed]),
      if_neg (by simpa using sound), taken]
    rfl
  · split
    · rename_i short
      exact .feeding still (same ▸ fed.input bytes short)
    · rename_i long
      have bits := fed.length
      have low := context.coarse.lengthLow.toNat_lt
      have high := context.coarse.lengthHigh.toNat_lt
      have spoiled := fed.spoiled bytes (by omega) (by omega)
      rw [← same] at spoiled
      have corrupted : after.corrupted ≠ 0 := by simpa [Context.coarse] using spoiled
      have one : after.corrupted = 1 := still.corrupted.resolve_left corrupted
      have late : after.computed = true → after.corrupted = shaStateError := by
        simp [still.computed]
      exact one ▸ Stands.spoiled corrupted late

theorem feeding_result (accepts : context.Open) (fed : Fed context.coarse message)
    (buffer : Digest) :
    ∃ after, context.result buffer = some (after, digest message, shaSuccess) ∧
      Stands after (.done (digest message)) := by
  have sound := feeding_sound fed
  obtain ⟨padded, pads, -, corrupted, same⟩ := accepts.padMessage
  obtain ⟨block, cleared⟩ := Context.clear_stored padded.messageBlock
  have whole : Context.messageDigest padded.intermediateHash = digest message := by
    have hash : padded.intermediateHash = (sha1PadMessage context.coarse).hash :=
      congrArg SHA1Context.hash same
    rw [← fed.result]
    apply Subtype.ext
    rw [Context.messageDigest_eq, hash]
    rfl
  let after : Context := { padded with
    messageBlock := block
    lengthLow := 0
    lengthHigh := 0
    computed := true }
  refine ⟨after, ?_, ?_⟩
  · simp only [Context.result, sound, ne_eq, not_true_eq_false, if_false, accepts.computed,
      Bool.false_eq_true, pads, cleared, Option.bind_eq_bind, Option.bind_some, ← whole]
    rfl
  · have computed : after.computed = true := rfl
    rw [← whole]
    exact .done computed (corrupted.trans sound)

theorem stands_stateError (context : Context) :
    Stands { context with corrupted := shaStateError } (.spoiled shaStateError) := by
  have corrupted : ({ context with corrupted := shaStateError } : Context).corrupted ≠ 0 :=
    (by decide : shaStateError ≠ 0)
  exact .spoiled corrupted fun _ => rfl

theorem stands_call (stands : Stands context feed) (call : Call) :
    ∃ after, context.call call = some (after, (feed.call call).2) ∧
      Stands after (feed.call call).1 := by
  cases call with
  | reset =>
    refine ⟨context.reset, ?_, ?_⟩
    · simp only [Context.call, Feed.call]
    · simp only [Feed.call]
      exact stands_reset context
  | inputNull length => exact ⟨context, by simp only [Context.call, Feed.call], by
      simpa only [Feed.call] using stands⟩
  | resultNull => exact ⟨context, by simp only [Context.call, Feed.call], by
      simpa only [Feed.call] using stands⟩
  | input bytes =>
    cases bytes with
    | nil =>
      refine ⟨context, ?_, ?_⟩
      · simp [Context.call, Context.input, Feed.call]
      · simpa only [Feed.call] using stands
    | cons byte bytes =>
      cases stands with
      | feeding accepts fed =>
        obtain ⟨after, taken, next⟩ := feeding_input accepts fed (List.cons_ne_nil byte bytes)
        refine ⟨after, ?_, ?_⟩
        · simp only [Context.call, taken, Feed.call, Option.map_some]
          split <;> rfl
        · simp only [Feed.call]
          split at next <;> rename_i fits
          · rwa [if_pos fits]
          · rwa [if_neg fits]
      | done computed sound =>
        refine ⟨{ context with corrupted := shaStateError }, ?_, stands_stateError context⟩
        simp [Context.call, Context.input, computed, Feed.call]
      | spoiled corrupted late =>
        by_cases computed : context.computed = true
        · refine ⟨{ context with corrupted := shaStateError }, ?_, ?_⟩
          · simp [Context.call, Context.input, computed, Feed.call, late computed]
          · simpa only [Feed.call, late computed] using stands_stateError context
        · refine ⟨context, ?_, .spoiled corrupted late⟩
          simp [Context.call, Context.input, computed, corrupted, Feed.call]
  | result buffer =>
    cases stands with
    | feeding accepts fed =>
      obtain ⟨after, gives, next⟩ := feeding_result accepts fed buffer
      exact ⟨after, by simp only [Context.call, gives, Feed.call, Option.map_some], next⟩
    | done computed sound =>
      exact ⟨context, by simp [Context.call, Context.result, computed, sound, Feed.call],
        .done computed sound⟩
    | spoiled corrupted late =>
      exact ⟨context, by simp [Context.call, Context.result, corrupted, Feed.call],
        .spoiled corrupted late⟩

theorem stands_run (stands : Stands context feed) (calls : List Call) :
    context.run calls = some (feed.run calls) := by
  induction calls generalizing context feed with
  | nil => rfl
  | cons call calls ih =>
    obtain ⟨after, replies, next⟩ := stands_call stands call
    rw [Context.run, replies, Option.bind_some, ih next]
    rfl

end

/-- Whatever is in memory before: after `SHA1Reset` no call stores outside the block, and every
code and every digest is what the standard makes of the bytes that were fed. -/
theorem replies_of_standard (context : Context) (calls : List Call) :
    context.reset.run calls = some ((Feed.feeding []).run calls) :=
  stands_run (stands_reset context) calls

end HumbleNet.Sha1Contexts
