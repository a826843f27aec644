import HumbleNet.Hmac
import HumbleNet.Lib.Buffer

/-! HMAC as `hmac.cpp` computes it: over two contexts of the hash, with blocks of memory on the
stack and the buffer of the result holding the inner digest in between. -/
namespace HumbleNet

/-- The functions of the hash: contexts, bytes fed in, and a digest that is written over what
is in the buffer. `SHA1Input` and `SHA1Result` also return a code. -/
structure HashFunctions where
  Context : Type
  reset : Context
  input : Context → Bytes → Context × Int
  result : Context → Digest → Context × Digest × Int

namespace HashFunctions

def feed (f : HashFunctions) (pieces : List Bytes) : f.Context :=
  pieces.foldl (fun c piece => (f.input c piece).1) f.reset

/-- They compute the hash of the concatenated input. -/
def Computes (f : HashFunctions) (hash : Bytes → Digest) : Prop :=
  ∀ pieces buffer, (f.result (f.feed pieces) buffer).2.1 = hash pieces.flatten

structure Hmac (f : HashFunctions) where
  iCtx : f.Context
  oCtx : f.Context

variable (f : HashFunctions)

def xorPad (c : UInt8) (keyBlock pad : Buffer hmacBlocksize) : Option (Buffer hmacBlocksize) :=
  (List.range hmacBlocksize).foldlM
    (fun pad i => ((keyBlock.peek i).map (c ^^^ ·)).bind fun x => pad.poke i x) pad

/-- What stands in `key_block` after the branch, and `key_block_len`. -/
def keyFront (keyBlock : Buffer hmacBlocksize) (key : Bytes) :
    Option (Buffer hmacBlocksize × Nat) :=
  if hmacBlocksize < key.length then
    let sha := (f.input f.reset key).1
    let buffer : Digest := ⟨keyBlock.1.take 20, by rw [List.length_take, keyBlock.2]; rfl⟩
    (keyBlock.store 0 (f.result sha buffer).2.1.1).map fun b => (b, 20)
  else (keyBlock.store 0 key).map fun b => (b, key.length)

/-- `stack` is what stands in `key_block` and `pad` before. -/
def hmacInit (stack : Buffer hmacBlocksize × Buffer hmacBlocksize) (key : Bytes) :
    Option f.Hmac := do
  let (keyBlock, keyBlockLen) ← f.keyFront stack.1 key
  let keyBlock ← keyBlock.store keyBlockLen (List.replicate (hmacBlocksize - keyBlockLen) 0)
  let pad ← xorPad 0x36 keyBlock stack.2
  let iCtx := (f.input f.reset pad.1).1
  let pad ← xorPad 0x5c keyBlock pad
  let oCtx := (f.input f.reset pad.1).1
  pure ⟨iCtx, oCtx⟩

def hmacInput (ctx : f.Hmac) (data : Bytes) : f.Hmac × Int :=
  let (iCtx, code) := f.input ctx.iCtx data
  (⟨iCtx, ctx.oCtx⟩, code)

def hmacResult (ctx : f.Hmac) (messageDigest : Digest) : f.Hmac × Digest × Int :=
  let (iCtx, messageDigest, _) := f.result ctx.iCtx messageDigest
  let (oCtx, _) := f.input ctx.oCtx messageDigest.1
  let (oCtx, messageDigest, _) := f.result oCtx messageDigest
  (⟨iCtx, oCtx⟩, messageDigest, 0)

def hmacInputs (ctx : f.Hmac) (inputs : List Bytes) : f.Hmac :=
  inputs.foldl (fun ctx data => (f.hmacInput ctx data).1) ctx

section proofs

variable {f}

theorem xorPad_eq (c : UInt8) (keyBlock pad : Buffer hmacBlocksize) :
    ∃ b, xorPad c keyBlock pad = some b ∧ b.1 = keyBlock.1.map (c ^^^ ·) := by
  obtain ⟨b, loop, eq⟩ := Buffer.poke_range (f := fun i => (keyBlock.peek i).map (c ^^^ ·))
    (g := fun i => c ^^^ keyBlock.1.getD i 0) pad (Nat.le_refl hmacBlocksize) (by
      intro i inside
      have there : i < keyBlock.1.length := keyBlock.2.symm ▸ inside
      simp only [Buffer.peek, List.getElem?_eq_getElem there, Option.map_some,
        List.getD_eq_getElem?_getD, Option.getD_some])
  refine ⟨b, loop, ?_⟩
  rw [eq, List.drop_of_length_le (Nat.le_of_eq pad.2), List.append_nil]
  apply List.ext_getElem
  · rw [List.length_map, List.length_map, List.length_range, keyBlock.2]
  · intro i h h'
    have there : i < keyBlock.1.length := by rwa [List.length_map] at h'
    simp only [List.getElem_map, List.getElem_range, List.getD_eq_getElem?_getD,
      List.getElem?_eq_getElem there, Option.getD_some]

theorem front_zeros (b : Buffer hmacBlocksize) (front : Bytes)
    (fits : front.length ≤ hmacBlocksize) :
    ∃ c, ((b.store 0 front).map fun b => (b, front.length)).bind (fun r =>
        r.1.store r.2 (List.replicate (hmacBlocksize - r.2) 0)) = some c ∧
      c.1 = front ++ List.replicate (hmacBlocksize - front.length) 0 := by
  have full : front.length + (List.replicate (hmacBlocksize - front.length) (0 : UInt8)).length =
      hmacBlocksize := by
    rw [List.length_replicate]
    omega
  refine ⟨⟨_, (List.length_append ..).trans full⟩, ?_, rfl⟩
  rw [Option.bind_map]
  exact Buffer.store_store b full

theorem keyBlock_eq {hash : Bytes → Digest} (computes : f.Computes hash)
    (b : Buffer hmacBlocksize) (key : Bytes) :
    ∃ c, (f.keyFront b key).bind (fun r =>
        r.1.store r.2 (List.replicate (hmacBlocksize - r.2) 0)) = some c ∧
      c.1 = keyBlock hash key := by
  unfold keyFront keyBlock
  by_cases long : hmacBlocksize < key.length
  · rw [if_pos long]
    dsimp only
    rw [if_pos long]
    have digest := computes [key] ⟨b.1.take 20, by rw [List.length_take, b.2]; rfl⟩
    rw [List.flatten_singleton] at digest
    change (f.result (f.input f.reset key).1 _).2.1 = _ at digest
    rw [digest]
    have size : (hash key).1.length = 20 := (hash key).2
    obtain ⟨c, stores, eq⟩ := front_zeros b (hash key).1 (by rw [size]; decide)
    rw [size] at stores
    exact ⟨c, stores, eq⟩
  · rw [if_neg long]
    dsimp only
    rw [if_neg long]
    exact front_zeros b key (Nat.le_of_not_lt long)

theorem hmacInit_eq {hash : Bytes → Digest} (computes : f.Computes hash)
    (stack : Buffer hmacBlocksize × Buffer hmacBlocksize) (key : Bytes) :
    f.hmacInit stack key = some
      ⟨f.feed [(keyBlock hash key).map (0x36 ^^^ ·)],
        f.feed [(keyBlock hash key).map (0x5c ^^^ ·)]⟩ := by
  obtain ⟨c, front, block⟩ := keyBlock_eq computes stack.1 key
  obtain ⟨ipad, inner, ieq⟩ := xorPad_eq 0x36 c stack.2
  obtain ⟨opad, outer, oeq⟩ := xorPad_eq 0x5c c ipad
  obtain ⟨r, hr, stored⟩ := Option.bind_eq_some_iff.mp front
  unfold hmacInit
  rw [hr]
  change ((r.1.store r.2 _).bind _ : Option f.Hmac) = _
  rw [stored]
  change ((xorPad 0x36 c stack.2).bind _ : Option f.Hmac) = _
  rw [inner]
  change ((xorPad 0x5c c ipad).bind _ : Option f.Hmac) = _
  rw [outer]
  change some (⟨(f.input f.reset ipad.1).1, (f.input f.reset opad.1).1⟩ : f.Hmac) = _
  rw [ieq, oeq, block]
  rfl

theorem hmacInputs_eq (i o : List Bytes) (inputs : List Bytes) :
    f.hmacInputs ⟨f.feed i, f.feed o⟩ inputs = ⟨f.feed (i ++ inputs), f.feed o⟩ := by
  induction inputs generalizing i with
  | nil => rw [List.append_nil]; rfl
  | cons data inputs ih =>
    have fed : (f.hmacInput ⟨f.feed i, f.feed o⟩ data).1 = ⟨f.feed (i ++ [data]), f.feed o⟩ := by
      simp only [hmacInput, feed, List.foldl_append, List.foldl_cons, List.foldl_nil]
    have next := ih (i ++ [data])
    rw [List.append_assoc] at next
    unfold hmacInputs at next ⊢
    rw [List.foldl_cons, fed]
    exact next

theorem hmacResult_eq {hash : Bytes → Digest} (computes : f.Computes hash) (i o : List Bytes)
    (buffer : Digest) : (f.hmacResult ⟨f.feed i, f.feed o⟩ buffer).2.1 =
      hash (o.flatten ++ (hash i.flatten).1) := by
  have inner := computes i buffer
  have outer := computes (o ++ [(hash i.flatten).1]) (hash i.flatten)
  rw [List.flatten_append, List.flatten_singleton] at outer
  rw [← outer]
  unfold hmacResult
  dsimp only
  rw [inner]
  simp only [feed, List.foldl_append, List.foldl_cons, List.foldl_nil]

/-- For every key, every way to cut the message and whatever stands in memory: nothing is
written outside the blocks on the stack, and the result is HMAC of the concatenated inputs. -/
theorem hmac_computes {hash : Bytes → Digest} (computes : f.Computes hash)
    (stack : Buffer hmacBlocksize × Buffer hmacBlocksize) (key : Bytes) (inputs : List Bytes)
    (buffer : Digest) : ∃ ctx, f.hmacInit stack key = some ctx ∧
      (f.hmacResult (f.hmacInputs ctx inputs) buffer).2.1 =
        hash ((keyBlock hash key).map (0x5c ^^^ ·) ++
          (hash ((keyBlock hash key).map (0x36 ^^^ ·) ++ inputs.flatten)).1) := by
  refine ⟨_, hmacInit_eq computes stack key, ?_⟩
  rw [hmacInputs_eq, hmacResult_eq computes, List.flatten_append, List.flatten_singleton,
    List.flatten_singleton]

theorem hmac_of_bytes {hash : Bytes → Digest} (computes : f.Computes hash)
    (stack : Buffer hmacBlocksize × Buffer hmacBlocksize) (key : Bytes) (inputs : List Bytes)
    (buffer : Digest) : ∃ ctx, f.hmacInit stack key = some ctx ∧
      (f.hmacResult (f.hmacInputs ctx inputs) buffer).2.1 = HumbleNet.hmacResult hash
        (inputs.foldl HumbleNet.hmacInput (HumbleNet.hmacInit hash key)) := by
  refine ⟨_, hmacInit_eq computes stack key, ?_⟩
  have fed : ∀ (ctx : HMACContext), inputs.foldl HumbleNet.hmacInput ctx =
      HumbleNet.hmacInput ctx inputs.flatten := by
    induction inputs with
    | nil =>
      intro ctx
      simp only [List.foldl_nil, List.flatten_nil, HumbleNet.hmacInput, List.append_nil]
    | cons data inputs ih =>
      intro ctx
      rw [List.foldl_cons, ih, hmacInput_append, List.flatten_cons]
  rw [hmacInputs_eq, hmacResult_eq computes, List.flatten_append, List.flatten_singleton,
    List.flatten_singleton, fed]
  rfl

end proofs

def sha1Functions : HashFunctions where
  Context := SHA1Context
  reset := sha1Reset
  input context message :=
    (sha1Input context message, if message ≠ [] ∧ context.corrupted then 1 else 0)
  result context _ := (context, sha1Result context, 0)

theorem sha1_computes : sha1Functions.Computes sha1 := by
  intro pieces buffer
  have fed : ∀ (context : SHA1Context),
      pieces.foldl sha1Input context = sha1Input context pieces.flatten := by
    induction pieces with
    | nil => exact fun _ => rfl
    | cons piece pieces ih =>
      intro context
      rw [List.foldl_cons, ih, sha1Input_append, List.flatten_cons]
  exact congrArg sha1Result (fed sha1Reset)

/-- A message in two pieces, with the repository's hash. -/
theorem hmac_computes_sha1 : ∃ ctx,
    sha1Functions.hmacInit (⟨List.replicate 64 7, rfl⟩, ⟨List.replicate 64 9, rfl⟩) [1, 2] =
      some ctx ∧
    (sha1Functions.hmacResult (sha1Functions.hmacInputs ctx [[3], [4, 5]])
        ⟨List.replicate 20 0, rfl⟩).2.1 =
      sha1 ((keyBlock sha1 [1, 2]).map (0x5c ^^^ ·) ++
        (sha1 ((keyBlock sha1 [1, 2]).map (0x36 ^^^ ·) ++ [[3], [4, 5]].flatten)).1) :=
  hmac_computes sha1_computes _ _ _ _

end HashFunctions

end HumbleNet
