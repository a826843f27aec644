import HumbleNet.Framing

/-! The signaling stream as `parseMessage` reads it after each arrival. With a 64 bit
`size_t` the header check is a stable reader, so the callback sees the same bodies
however the transport cuts the stream. -/
namespace HumbleNet.Fragmentation

open Incremental

variable (verify : Bytes → Bool)

theorem header_wait_of_short (pastEnd recvBuf : Bytes) (short : recvBuf.length < 8) :
    parseHeader 64 verify pastEnd recvBuf = .wait := by
  have word : (readScalar32 (recvBuf ++ pastEnd)).toNat < 2 ^ 32 := UInt32.toNat_lt _
  have need : ((readScalar32 (recvBuf ++ pastEnd)).toNat + peerOffsetSize) % 2 ^ 64 =
      (readScalar32 (recvBuf ++ pastEnd)).toNat + peerOffsetSize :=
    Nat.mod_eq_of_lt (by unfold peerOffsetSize; omega)
  have missing : recvBuf.length < (readScalar32 (recvBuf ++ pastEnd)).toNat + peerOffsetSize := by
    unfold peerOffsetSize
    omega
  simp only [parseHeader, need, if_pos missing, ite_self]

def checkFrame (recvBuf : Bytes) : Look :=
  let fbSize := (readScalar32 recvBuf).toNat
  let buff := (recvBuf.drop 8).take fbSize
  if recvBuf.length < fbSize + 8 then .wait
  else if readScalar32 (recvBuf.drop 4) ≠ crcOf buff then .refuse
  else if verify buff then .message buff (fbSize + 8)
  else .refuse

theorem header_of_long (pastEnd recvBuf : Bytes) (long : 8 ≤ recvBuf.length) :
    parseHeader 64 verify pastEnd recvBuf = checkFrame verify recvBuf := by
  have word : (readScalar32 recvBuf).toNat < 2 ^ 32 := UInt32.toNat_lt _
  have need : ((readScalar32 recvBuf).toNat + peerOffsetSize) % 2 ^ 64 =
      (readScalar32 recvBuf).toNat + peerOffsetSize :=
    Nat.mod_eq_of_lt (by unfold peerOffsetSize; omega)
  have nonempty : recvBuf.isEmpty = false := by
    cases recvBuf with
    | nil => simp at long
    | cons b bs => rfl
  simp only [parseHeader, nonempty, readScalar32_append recvBuf pastEnd (by omega), need]
  by_cases short : recvBuf.length < (readScalar32 recvBuf).toNat + peerOffsetSize
  · have short' : recvBuf.length < (readScalar32 recvBuf).toNat + 8 := short
    simp only [Bool.false_eq_true, if_false, if_pos short, checkFrame, if_pos short']
  · have long' : ¬ recvBuf.length < (readScalar32 recvBuf).toNat + 8 := short
    simp only [Bool.false_eq_true, if_false, if_neg short, checkFrame, if_neg long']
    rfl

theorem header_pastEnd (pastEnd recvBuf : Bytes) :
    parseHeader 64 verify pastEnd recvBuf = parseHeader 64 verify [] recvBuf := by
  by_cases short : recvBuf.length < 8
  · rw [header_wait_of_short verify _ _ short, header_wait_of_short verify _ _ short]
  · rw [header_of_long verify _ _ (by omega), header_of_long verify _ _ (by omega)]

theorem header_cases (pastEnd recvBuf : Bytes) :
    parseHeader 64 verify pastEnd recvBuf = .wait ∨
      (8 ≤ recvBuf.length ∧ (readScalar32 recvBuf).toNat + 8 ≤ recvBuf.length ∧
        parseHeader 64 verify pastEnd recvBuf = checkFrame verify recvBuf) := by
  by_cases short : recvBuf.length < 8
  · exact Or.inl (header_wait_of_short verify _ _ short)
  · have long : 8 ≤ recvBuf.length := by omega
    rw [header_of_long verify _ _ long]
    by_cases missing : recvBuf.length < (readScalar32 recvBuf).toNat + 8
    · exact Or.inl (by simp only [checkFrame, if_pos missing])
    · exact Or.inr ⟨long, by omega, rfl⟩

theorem header_within (recvBuf : Bytes) : parseHeader 64 verify [] recvBuf ≠ .overrun := by
  intro past
  rcases header_cases verify [] recvBuf with wait | ⟨_, _, eq⟩
  · rw [wait] at past
    cases past
  · rw [eq, checkFrame] at past
    split at past
    · cases past
    · split at past
      · cases past
      · split at past <;> cases past

theorem check_append (recvBuf more : Bytes) (long : 8 ≤ recvBuf.length)
    (complete : (readScalar32 recvBuf).toNat + 8 ≤ recvBuf.length) :
    checkFrame verify (recvBuf ++ more) = checkFrame verify recvBuf := by
  have size : readScalar32 (recvBuf ++ more) = readScalar32 recvBuf :=
    readScalar32_append recvBuf more (by omega)
  have crc : readScalar32 ((recvBuf ++ more).drop 4) = readScalar32 (recvBuf.drop 4) := by
    rw [List.drop_append_of_le_length (by omega)]
    exact readScalar32_append _ _ (by rw [List.length_drop]; omega)
  have body : ((recvBuf ++ more).drop 8).take (readScalar32 recvBuf).toNat =
      (recvBuf.drop 8).take (readScalar32 recvBuf).toNat := by
    rw [List.drop_append_of_le_length long,
      List.take_append_of_le_length (by rw [List.length_drop]; omega)]
  have there : ¬ recvBuf.length < (readScalar32 recvBuf).toNat + 8 := by omega
  have there' : ¬ (recvBuf ++ more).length < (readScalar32 recvBuf).toNat + 8 := by
    rw [List.length_append]
    omega
  simp only [checkFrame, size, crc, body, if_neg there, if_neg there']

theorem check_message {recvBuf buff : Bytes} {n : Nat}
    (h : checkFrame verify recvBuf = .message buff n) :
    verify buff = true ∧ buff = (recvBuf.drop 8).take (readScalar32 recvBuf).toNat ∧
      n = (readScalar32 recvBuf).toNat + 8 ∧ n ≤ recvBuf.length ∧
      readScalar32 (recvBuf.drop 4) = crcOf buff := by
  unfold checkFrame at h
  dsimp only at h
  split at h
  · cases h
  · rename_i long
    split at h
    · cases h
    · rename_i crc
      split at h
      · rename_i ok
        cases h
        exact ⟨ok, rfl, rfl, by omega, not_not.mp crc⟩
      · cases h

def verdict : Look → Verdict Bytes
  | .wait => .more
  | .refuse => .bad
  | .overrun => .bad
  | .message buff n => .item buff n

theorem verdict_item {l : Look} {b : Bytes} {n : Nat} (h : verdict l = .item b n) :
    l = .message b n := by
  cases l with
  | message buff size => cases h; rfl
  | wait => cases h
  | refuse => cases h
  | overrun => cases h

theorem decided_append (recvBuf more : Bytes) (v : Verdict Bytes) (decided : v ≠ .more)
    (h : verdict (parseHeader 64 verify [] recvBuf) = v) :
    verdict (parseHeader 64 verify [] (recvBuf ++ more)) = v := by
  rcases header_cases verify [] recvBuf with wait | ⟨long, complete, eq⟩
  · rw [wait] at h
    exact absurd h.symm decided
  · have long' : 8 ≤ (recvBuf ++ more).length := by rw [List.length_append]; omega
    rw [header_of_long verify _ _ long', check_append verify recvBuf more long complete, ← eq, h]

def frameReader : Reader UInt8 Bytes where
  read recvBuf := verdict (parseHeader 64 verify [] recvBuf)
  read_nil := rfl
  item_pos := by
    intro recvBuf b n h
    rcases header_cases verify [] recvBuf with wait | ⟨_, _, eq⟩
    · rw [wait] at h; cases h
    · rw [eq] at h
      have m := check_message verify (verdict_item h)
      omega
  item_le := by
    intro recvBuf b n h
    rcases header_cases verify [] recvBuf with wait | ⟨_, _, eq⟩
    · rw [wait] at h; cases h
    · rw [eq] at h
      exact (check_message verify (verdict_item h)).2.2.2.1
  item_append := fun more h => decided_append verify _ more _ (by simp) h
  bad_append := fun more h => decided_append verify _ more _ (by simp) h

theorem frameReader_read (recvBuf : Bytes) :
    (frameReader verify).read recvBuf = verdict (parseHeader 64 verify [] recvBuf) := rfl

theorem frame_read (b : Body) (good : verify b.bytes = true) (more : Bytes) :
    (frameReader verify).read (p2pMessageFrame b.bytes ++ more) =
      .item b.bytes (p2pMessageFrame b.bytes).length := by
  have len : (p2pMessageFrame b.bytes).length = b.bytes.length + 8 := by
    simp only [p2pMessageFrame, List.length_append, writeScalar32_length]
    omega
  have size : (readScalar32 (p2pMessageFrame b.bytes)).toNat = b.bytes.length := by
    rw [p2pMessageFrame, List.append_assoc, readScalar32_write]
    exact UInt32.toNat_ofNat_of_lt' b.size_lt
  have crc : readScalar32 ((p2pMessageFrame b.bytes).drop 4) = crcOf b.bytes := by
    rw [p2pMessageFrame, List.append_assoc, List.drop_left' (writeScalar32_length _),
      readScalar32_write]
  have body : (p2pMessageFrame b.bytes).drop 8 = b.bytes := by
    rw [p2pMessageFrame]
    exact List.drop_left' (by simp only [List.length_append, writeScalar32_length])
  have long : 8 ≤ (p2pMessageFrame b.bytes ++ more).length := by
    rw [List.length_append]
    omega
  rw [frameReader_read, header_of_long verify _ _ long,
    check_append verify _ more (by omega) (by omega)]
  simp only [checkFrame, size, crc, body, len, List.take_length, good, if_true, ne_eq,
    not_true, if_false, Nat.lt_irrefl, verdict]

/-! ### Receiving in pieces -/

variable {τ : Type} (cb : Bytes → τ → Bool × τ)

abbrev Stream (τ : Type) := Session UInt8 Bytes τ

/-- `parseMessage` on the receive buffer of one connection; `pastEnd` says what a short
buffer is followed by in memory. An access past the end would have no result. -/
def parseStream (pastEnd : Bytes → Bytes) (fuel : Nat) : StateT (Stream τ) Option Bool :=
  parseMessage (fun recvBuf => parseHeader 64 verify (pastEnd recvBuf) recvBuf)
    (fun s => some (s.buffer, s))
    (fun n s => some ((), { s with buffer := s.buffer.drop n }))
    (fun _ => none)
    (fun buff s => some ((cb buff s.user).1, ⟨s.buffer, s.items ++ [buff], (cb buff s.user).2⟩))
    fuel

structure Chunk where
  bytes : Bytes
  pastEnd : Bytes → Bytes

/-- Append each chunk and call `parseMessage`; stop at the first call that returns 0.
The values returned by the calls are collected. -/
def receiveAll : List Chunk → Stream τ → Option (List Bool × Stream τ)
  | [], s => some ([], s)
  | c :: cs, s => do
    let r ← parseStream verify cb c.pastEnd (s.push c.bytes).buffer.length (s.push c.bytes)
    if r.1 then
      let t ← receiveAll cs r.2
      some (true :: t.1, t.2)
    else some ([false], r.2)

theorem parse_step_wait {s : Stream τ} (pastEnd : Bytes → Bytes) (fuel : Nat)
    (h : parseHeader 64 verify (pastEnd s.buffer) s.buffer = .wait) :
    parseStream verify cb pastEnd (fuel + 1) s = some (true, s) := by
  simp only [parseStream, parseMessage, StateT.bind, bind, Option.bind_some, h]
  rfl

theorem parse_step_refuse {s : Stream τ} (pastEnd : Bytes → Bytes) (fuel : Nat)
    (h : parseHeader 64 verify (pastEnd s.buffer) s.buffer = .refuse) :
    parseStream verify cb pastEnd (fuel + 1) s = some (false, s) := by
  simp only [parseStream, parseMessage, StateT.bind, bind, Option.bind_some, h]
  rfl

theorem parse_step_message {s : Stream τ} (pastEnd : Bytes → Bytes) (fuel : Nat)
    {buff : Bytes} {n : Nat}
    (h : parseHeader 64 verify (pastEnd s.buffer) s.buffer = .message buff n) :
    parseStream verify cb pastEnd (fuel + 1) s =
      if (cb buff s.user).1 then
        parseStream verify cb pastEnd fuel
          ⟨s.buffer.drop n, s.items ++ [buff], (cb buff s.user).2⟩
      else some (false, ⟨s.buffer, s.items ++ [buff], (cb buff s.user).2⟩) := by
  cases hc : (cb buff s.user).1 with
  | true =>
    simp only [parseStream, parseMessage, StateT.bind, bind, Option.bind_some, h, hc, if_true]
  | false =>
    simp only [parseStream, parseMessage, StateT.bind, bind, Option.bind_some, h, hc,
      Bool.false_eq_true, if_false]
    rfl

theorem parse_eq_drain (pastEnd : Bytes → Bytes) (fuel : Nat) (s : Stream τ)
    (enough : s.buffer.length ≤ fuel) :
    parseStream verify cb pastEnd fuel s = some (drain (frameReader verify) cb s) := by
  induction fuel generalizing s with
  | zero =>
    have empty : s.buffer = [] := List.length_eq_zero_iff.mp (by omega)
    rw [drain_more (frameReader verify) cb (s := s) (by rw [empty]; rfl)]
    rfl
  | succ fuel ih =>
    have look : parseHeader 64 verify (pastEnd s.buffer) s.buffer =
        parseHeader 64 verify [] s.buffer := header_pastEnd verify _ _
    cases hp : parseHeader 64 verify [] s.buffer with
    | wait =>
      have more : (frameReader verify).read s.buffer = .more := congrArg verdict hp
      rw [parse_step_wait verify cb pastEnd fuel (look.trans hp), drain_more _ cb more]
    | refuse =>
      have bad : (frameReader verify).read s.buffer = .bad := congrArg verdict hp
      rw [parse_step_refuse verify cb pastEnd fuel (look.trans hp), drain_bad _ cb bad]
    | overrun =>
      rcases header_cases verify [] s.buffer with wait | ⟨_, _, eq⟩
      · rw [wait] at hp; cases hp
      · rw [eq] at hp
        unfold checkFrame at hp
        dsimp only at hp
        split at hp
        · cases hp
        · split at hp
          · cases hp
          · split at hp <;> cases hp
    | message buff n =>
      have item : (frameReader verify).read s.buffer = .item buff n := congrArg verdict hp
      have pos := (frameReader verify).item_pos item
      rw [parse_step_message verify cb pastEnd fuel (look.trans hp), drain_item _ cb item]
      split
      · exact ih _ (by simp only [List.length_drop]; omega)
      · rfl

/-- What the calls return, given how feeding went. -/
def Returned (ok : Bool) (calls : Nat) (rets : List Bool) : Prop :=
  if ok then rets = List.replicate calls true else ∃ k, rets = List.replicate k true ++ [false]

theorem receive_eq_feed (chunks : List Chunk) (s : Stream τ) :
    ∃ rets, receiveAll verify cb chunks s =
        some (rets, (feed (frameReader verify) cb s (chunks.map Chunk.bytes)).2) ∧
      Returned (feed (frameReader verify) cb s (chunks.map Chunk.bytes)).1 chunks.length rets := by
  induction chunks generalizing s with
  | nil => exact ⟨[], rfl, rfl⟩
  | cons c cs ih =>
    have one := parse_eq_drain verify cb c.pastEnd _ (s.push c.bytes) (Nat.le_refl _)
    simp only [receiveAll, one, bind, Option.bind_some, List.map_cons, feed]
    cases ok : (drain (frameReader verify) cb (s.push c.bytes)).1 with
    | false => exact ⟨[false], rfl, 0, rfl⟩
    | true =>
      obtain ⟨rets, he, hr⟩ := ih (drain (frameReader verify) cb (s.push c.bytes)).2
      simp only [if_true, he, Option.bind_some]
      refine ⟨true :: rets, rfl, ?_⟩
      unfold Returned at hr ⊢
      split
      · rename_i good
        rw [if_pos good] at hr
        rw [hr, List.length_cons, List.replicate_succ]
      · rename_i bad
        rw [if_neg bad] at hr
        obtain ⟨k, hk⟩ := hr
        exact ⟨k + 1, by rw [hk, List.replicate_succ, List.cons_append]⟩

theorem false_mem_of_returned {ok : Bool} {calls : Nat} {rets : List Bool}
    (h : Returned ok calls rets) : false ∈ rets ↔ ok = false := by
  cases ok with
  | true =>
    have all : rets = List.replicate calls true := h
    simp [all]
  | false =>
    obtain ⟨k, hk⟩ := h
    simp [hk]

/-! ### What is handed out is what was framed -/

theorem leBytes_leNat (bs : Bytes) : leBytes bs.length (leNat bs) = bs := by
  induction bs with
  | nil => rfl
  | cons b bs ih =>
    have hb : b.toNat < 256 := b.toNat_lt
    have low : UInt8.ofNat (b.toNat + 256 * leNat bs) = b := by
      apply UInt8.toNat_inj.mp
      rw [UInt8.toNat_ofNat']
      omega
    have high : (b.toNat + 256 * leNat bs) / 256 = leNat bs := by omega
    simp only [List.length_cons, leNat, leBytes, low, high, ih]

theorem write_readScalar32 (bs : Bytes) (long : 4 ≤ bs.length) :
    writeScalar32 (readScalar32 bs) = bs.take 4 := by
  have len : (bs.take 4).length = 4 := by rw [List.length_take]; omega
  have small : leNat (bs.take 4) < 2 ^ 32 := by
    have lt := leNat_lt (bs.take 4)
    rw [len] at lt
    exact lt
  have back := leBytes_leNat (bs.take 4)
  rw [len] at back
  rw [writeScalar32, readScalar32, UInt32.toNat_ofNat_of_lt' small, back]

theorem check_message_frame {recvBuf buff : Bytes} {n : Nat}
    (h : checkFrame verify recvBuf = .message buff n) :
    p2pMessageFrame buff = recvBuf.take n := by
  obtain ⟨_, body, size, le, crc⟩ := check_message verify h
  have len : buff.length = (readScalar32 recvBuf).toNat := by
    rw [body, List.length_take, List.length_drop]
    omega
  have word : UInt32.ofNat buff.length = readScalar32 recvBuf := by
    rw [len, UInt32.ofNat_toNat]
  have sum : writeScalar32 (crcOf buff) = (recvBuf.drop 4).take 4 := by
    rw [← crc]
    exact write_readScalar32 _ (by rw [List.length_drop]; omega)
  have front : recvBuf.take n = recvBuf.take 4 ++ ((recvBuf.drop 4).take 4 ++
      (recvBuf.drop 8).take (readScalar32 recvBuf).toNat) := by
    rw [size, show (readScalar32 recvBuf).toNat + 8 = 4 + (4 + (readScalar32 recvBuf).toNat) by omega,
      List.take_add, List.take_add, List.drop_drop]
  rw [front, p2pMessageFrame, word, sum, write_readScalar32 recvBuf (by omega), ← body,
    List.append_assoc]

theorem drain_sound (s : Stream τ) :
    ∃ bodies, (drain (frameReader verify) cb s).2.items = s.items ++ bodies ∧
      (∀ b ∈ bodies, verify b = true) ∧
      (bodies.map p2pMessageFrame).flatten <+: s.buffer := by
  induction hn : s.buffer.length using Nat.strongRecOn generalizing s with
  | ind n ih =>
    cases hr : (frameReader verify).read s.buffer with
    | more =>
      rw [drain_more _ cb hr]
      exact ⟨[], by simp, by simp, List.nil_prefix⟩
    | bad =>
      rw [drain_bad _ cb hr]
      exact ⟨[], by simp, by simp, List.nil_prefix⟩
    | item buff k =>
      have pos := (frameReader verify).item_pos hr
      have le := (frameReader verify).item_le hr
      have hm : checkFrame verify s.buffer = .message buff k := by
        rcases header_cases verify [] s.buffer with wait | ⟨_, _, eq⟩
        · have hv : verdict (parseHeader 64 verify [] s.buffer) = .item buff k := hr
          rw [wait] at hv
          cases hv
        · exact eq ▸ verdict_item hr
      have ok := (check_message verify hm).1
      have front := check_message_frame verify hm
      rw [drain_item _ cb hr]
      split
      · obtain ⟨bodies, hi, hv, hp⟩ := ih (s.buffer.drop k).length
          (by rw [List.length_drop]; omega)
          ⟨s.buffer.drop k, s.items ++ [buff], (cb buff s.user).2⟩ rfl
        refine ⟨buff :: bodies, by rw [hi]; simp, ?_, ?_⟩
        · intro b hb
          rcases List.mem_cons.mp hb with rfl | hb
          · exact ok
          · exact hv b hb
        · rw [List.map_cons, List.flatten_cons, front]
          obtain ⟨rest, hrest⟩ := hp
          exact ⟨rest, by rw [List.append_assoc, hrest, List.take_append_drop]⟩
      · refine ⟨[buff], rfl, ?_, ?_⟩
        · intro b hb
          rw [List.mem_singleton.mp hb]
          exact ok
        · rw [List.map_cons, List.map_nil, List.flatten_cons, List.flatten_nil,
            List.append_nil, front]
          exact List.take_prefix k s.buffer

/-- A complete frame that must not be accepted: its checksum or its content is wrong. -/
def Damaged (frame : Bytes) : Prop :=
  8 ≤ frame.length ∧ frame.length = (readScalar32 frame).toNat + 8 ∧
    (readScalar32 (frame.drop 4) ≠ crcOf (frame.drop 8) ∨ verify (frame.drop 8) = false)

theorem damaged_read {frame : Bytes} (damaged : Damaged verify frame) (tail : Bytes) :
    (frameReader verify).read (frame ++ tail) = .bad := by
  obtain ⟨long, len, wrong⟩ := damaged
  have long' : 8 ≤ (frame ++ tail).length := by rw [List.length_append]; omega
  have body : (frame.drop 8).take (readScalar32 frame).toNat = frame.drop 8 :=
    List.take_of_length_le (by rw [List.length_drop]; omega)
  rw [frameReader_read, header_of_long verify _ _ long',
    check_append verify _ tail long (by omega)]
  have there : ¬ frame.length < (readScalar32 frame).toNat + 8 := by omega
  simp only [checkFrame, if_neg there, body]
  rcases wrong with crc | content
  · rw [if_pos crc]
    rfl
  · rw [content]
    split <;> rfl

theorem drain_damaged (bodies : List Body) (good : ∀ b ∈ bodies, verify b.bytes = true)
    {bad : Bytes} (damaged : Damaged verify bad) (tail : Bytes) (items : List Bytes) (u : τ) :
    ∃ handed v rest, handed <+: bodies.map Body.bytes ∧
      drain (frameReader verify) cb
        ⟨(bodies.map fun b => p2pMessageFrame b.bytes).flatten ++ (bad ++ tail), items, u⟩ =
        (false, ⟨rest, items ++ handed, v⟩) := by
  induction bodies generalizing items u with
  | nil =>
    refine ⟨[], u, bad ++ tail, List.nil_prefix, ?_⟩
    rw [List.append_nil]
    exact drain_bad _ cb (damaged_read verify damaged tail)
  | cons b bs ih =>
    have hr := frame_read verify b (good b List.mem_cons_self)
      ((bs.map fun b => p2pMessageFrame b.bytes).flatten ++ (bad ++ tail))
    have front : ((b :: bs).map fun b => p2pMessageFrame b.bytes).flatten ++ (bad ++ tail) =
        p2pMessageFrame b.bytes ++
          ((bs.map fun b => p2pMessageFrame b.bytes).flatten ++ (bad ++ tail)) :=
      List.append_assoc _ _ _
    rw [front, drain_item (frameReader verify) cb (s := ⟨_, items, u⟩) hr]
    split
    · obtain ⟨handed, v, rest, pre, hd⟩ := ih (fun c hc => good c (List.mem_cons_of_mem b hc))
        (items ++ [b.bytes]) (cb b.bytes u).2
      refine ⟨b.bytes :: handed, v, rest, ?_, ?_⟩
      · rw [List.map_cons]
        exact (List.prefix_cons_inj _).mpr pre
      · rw [List.drop_left, hd, List.append_assoc]
        rfl
    · exact ⟨[b.bytes], _, _, ⟨bs.map Body.bytes, rfl⟩, rfl⟩

/-- The signaling stream does not depend on its fragmentation. -/
theorem framing_independent_of_cut :
    (∀ (bodies : List Body) (chunks : List Chunk) (u : τ),
      (∀ b ∈ bodies, verify b.bytes = true) → Accepts cb →
      (chunks.map Chunk.bytes).flatten =
        (bodies.map fun b => p2pMessageFrame b.bytes).flatten →
      ∃ v, receiveAll verify cb chunks ⟨[], [], u⟩ =
        some (List.replicate chunks.length true, ⟨[], bodies.map Body.bytes, v⟩)) ∧
    (∀ (xs ys : List Chunk) (u : τ),
      (xs.map Chunk.bytes).flatten = (ys.map Chunk.bytes).flatten →
      ∃ rx sx ry sy, receiveAll verify cb xs ⟨[], [], u⟩ = some (rx, sx) ∧
        receiveAll verify cb ys ⟨[], [], u⟩ = some (ry, sy) ∧
        sx.items = sy.items ∧ sx.user = sy.user ∧ (false ∈ rx ↔ false ∈ ry)) ∧
    (∀ (chunks : List Chunk) (u : τ) (rets : List Bool) (s : Stream τ),
      receiveAll verify cb chunks ⟨[], [], u⟩ = some (rets, s) →
      (∀ b ∈ s.items, verify b = true) ∧
        (s.items.map p2pMessageFrame).flatten <+: (chunks.map Chunk.bytes).flatten) ∧
    (∀ (bodies : List Body) (bad tail : Bytes) (chunks : List Chunk) (u : τ),
      (∀ b ∈ bodies, verify b.bytes = true) → Damaged verify bad →
      (chunks.map Chunk.bytes).flatten =
        (bodies.map fun b => p2pMessageFrame b.bytes).flatten ++ (bad ++ tail) →
      ∃ rets s, receiveAll verify cb chunks ⟨[], [], u⟩ = some (rets, s) ∧
        s.items <+: bodies.map Body.bytes ∧ false ∈ rets) := by
  have start : ∀ u : τ, (frameReader verify).read (⟨[], [], u⟩ : Stream τ).buffer = .more :=
    fun _ => rfl
  refine ⟨?_, ?_, ?_, ?_⟩
  · intro bodies chunks u good accepts cut
    obtain ⟨rets, he, hr⟩ := receive_eq_feed verify cb chunks ⟨[], [], u⟩
    have same := feed_flatten (frameReader verify) cb (chunks.map Chunk.bytes) ⟨[], [], u⟩ (start u)
    obtain ⟨v, hv⟩ := drain_encoded (frameReader verify) p2pMessageFrame cb accepts
      (bodies.map Body.bytes) (by
        intro b hb ys
        obtain ⟨c, hc, rfl⟩ := List.mem_map.mp hb
        exact frame_read verify c (good c hc) ys) [] [] u
    have whole : drain (frameReader verify) cb
        ((⟨[], [], u⟩ : Stream τ).push (chunks.map Chunk.bytes).flatten) =
        (true, ⟨[], bodies.map Body.bytes, v⟩) := by
      rw [cut, Session.push, List.nil_append]
      rw [List.map_map, List.append_nil, List.nil_append] at hv
      exact hv.trans (drain_more (frameReader verify) cb rfl)
    rw [whole] at same
    obtain ⟨ok, items, user, buffer⟩ := same
    rw [ok] at hr
    refine ⟨v, ?_⟩
    have session : (feed (frameReader verify) cb ⟨[], [], u⟩ (chunks.map Chunk.bytes)).2 =
        ⟨[], bodies.map Body.bytes, v⟩ := by
      cases hs : (feed (frameReader verify) cb ⟨[], [], u⟩ (chunks.map Chunk.bytes)).2 with
      | mk buffer' items' user' =>
        rw [hs] at items user
        have b' := buffer ok
        rw [hs] at b'
        simp only at items user b'
        rw [items, user, b']
    rw [he, session, show rets = List.replicate chunks.length true from hr]
  · intro xs ys u cut
    obtain ⟨rx, hx, hrx⟩ := receive_eq_feed verify cb xs ⟨[], [], u⟩
    obtain ⟨ry, hy, hry⟩ := receive_eq_feed verify cb ys ⟨[], [], u⟩
    obtain ⟨ok, items, user, _⟩ := feed_cut (frameReader verify) cb _ _ cut ⟨[], [], u⟩ (start u)
    refine ⟨rx, _, ry, _, hx, hy, items, user, ?_⟩
    rw [false_mem_of_returned hrx, false_mem_of_returned hry, ok]
  · intro chunks u rets s h
    obtain ⟨_, he, _⟩ := receive_eq_feed verify cb chunks ⟨[], [], u⟩
    have same := feed_flatten (frameReader verify) cb (chunks.map Chunk.bytes) ⟨[], [], u⟩ (start u)
    obtain ⟨bodies, hi, hv, hp⟩ := drain_sound verify cb
      ((⟨[], [], u⟩ : Stream τ).push (chunks.map Chunk.bytes).flatten)
    have out : s.items = bodies := by
      rw [h] at he
      cases Option.some.inj he
      rw [same.2.1, hi]
      rfl
    rw [out]
    exact ⟨hv, by simpa [Session.push] using hp⟩
  · intro bodies bad tail chunks u good damaged cut
    obtain ⟨rets, he, hr⟩ := receive_eq_feed verify cb chunks ⟨[], [], u⟩
    have same := feed_flatten (frameReader verify) cb (chunks.map Chunk.bytes) ⟨[], [], u⟩ (start u)
    obtain ⟨handed, v, rest, pre, hd⟩ := drain_damaged verify cb bodies good damaged tail [] u
    rw [cut, Session.push, List.nil_append, hd] at same
    refine ⟨rets, _, he, ?_, ?_⟩
    · rw [same.2.1]
      exact pre
    · exact (false_mem_of_returned hr).mpr same.1

/-- Two bodies cut inside the size word, and a frame whose checksum is wrong. -/
theorem framing_cut_in_size_word :
    (∃ v, receiveAll (fun _ => true) (fun _ (n : Nat) => (true, n + 1))
        [⟨(p2pMessageFrame [7, 8] ++ p2pMessageFrame [9]).take 3, fun _ => [255]⟩,
          ⟨(p2pMessageFrame [7, 8] ++ p2pMessageFrame [9]).drop 3, fun _ => []⟩] ⟨[], [], 0⟩ =
      some ([true, true], ⟨[], [[7, 8], [9]], v⟩)) ∧
    ∃ rets s, receiveAll (fun _ => true) (fun _ (n : Nat) => (true, n + 1))
        [⟨p2pMessageFrame [7] ++ ([1, 0, 0, 0, 0, 0, 0, 0, 5] ++ p2pMessageFrame [9]),
          fun _ => []⟩] ⟨[], [], 0⟩ = some (rets, s) ∧
      s.items <+: [[7]] ∧ false ∈ rets := by
  have accepts : Accepts fun (_ : Bytes) (n : Nat) => (true, n + 1) := fun _ _ => rfl
  obtain ⟨whole, _, _, damaged⟩ :=
    framing_independent_of_cut (fun _ => true) fun _ (n : Nat) => (true, n + 1)
  constructor
  · exact whole [⟨[7, 8], by decide⟩, ⟨[9], by decide⟩] _ 0 (fun _ _ => rfl) accepts
      (by simp only [List.map_cons, List.map_nil, List.flatten_cons, List.flatten_nil,
        List.append_nil, List.take_append_drop])
  · refine damaged [⟨[7], by decide⟩] [1, 0, 0, 0, 0, 0, 0, 0, 5] (p2pMessageFrame [9]) _ 0
      (fun _ _ => rfl) ⟨by decide, by decide, Or.inl (by decide)⟩ ?_
    simp only [List.map_cons, List.map_nil, List.flatten_cons, List.flatten_nil, List.append_nil]

end HumbleNet.Fragmentation
