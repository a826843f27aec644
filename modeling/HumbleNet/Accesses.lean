import HumbleNet.Framing

/-! The bytes of `recvBuf` that `parseMessage` touches. The size word is read from any buffer
that is not empty, and the sum it is compared by is taken in a `size_t`. -/
namespace HumbleNet.Accesses

/-- The builds: a `size_t` of 64 bits, or of 32 bits under Emscripten. -/
inductive SizeT where
  | bits32
  | bits64
  deriving DecidableEq, Repr

def SizeT.bits : SizeT → Nat
  | .bits32 => 32
  | .bits64 => 64

structure Access where
  start : Nat
  stop : Nat
  size : Nat
  deriving DecidableEq, Repr

def Access.Within (a : Access) : Prop := a.stop ≤ a.size

instance (a : Access) : Decidable a.Within := inferInstanceAs (Decidable (_ ≤ _))

/-- What one look of `parseMessage` touches before the callback, in the order of the source:
the size word, the buffer for `crc_update`, the checksum word, the buffer for the verifier. -/
def headerAccesses (sizeBits : Nat) (pastEnd recvBuf : Bytes) : List Access :=
  if recvBuf.isEmpty then []
  else
    let fbSize := (readScalar32 (recvBuf ++ pastEnd)).toNat
    let sizeWord : Access := ⟨0, 4, recvBuf.length⟩
    if recvBuf.length < (fbSize + peerOffsetSize) % 2 ^ sizeBits then [sizeWord]
    else
      let buff : Access := ⟨peerOffsetSize, peerOffsetSize + fbSize, recvBuf.length⟩
      let crcWord : Access := ⟨4, 8, recvBuf.length⟩
      let crcOk : Bool :=
        readScalar32 (recvBuf.drop 4) == crcOf ((recvBuf.drop peerOffsetSize).take fbSize)
      [sizeWord, buff, crcWord] ++ if crcOk then [buff] else []

structure Parse (τ : Type) where
  recvBuf : Bytes
  user : τ
  touched : List Access

section parse

variable {τ : Type} (width : SizeT) (verify : Bytes → Bool) (cb : Bytes → τ → Bool × τ)
  (pastEnd : Bytes → Bytes)

def parse (fuel : Nat) : StateM (Parse τ) Bool :=
  parseMessage
    (fun recvBuf => parseHeader width.bits verify (pastEnd recvBuf) recvBuf)
    (fun s =>
      (s.recvBuf, { s with
        touched := s.touched ++ headerAccesses width.bits (pastEnd s.recvBuf) s.recvBuf }))
    (fun n s =>
      ((), { s with
        recvBuf := s.recvBuf.drop n
        touched := s.touched ++ [⟨0, n, s.recvBuf.length⟩] }))
    (pure false)
    (fun buff s => ((cb buff s.user).1, { s with user := (cb buff s.user).2 }))
    fuel

/-- What a call of `parseMessage` touches; every message takes some of the vector, which
bounds the recursion. -/
def accesses (recvBuf : Bytes) (user : τ) : List Access :=
  (parse width verify cb pastEnd recvBuf.length ⟨recvBuf, user, []⟩).2.touched

/-- A call that begins with the one vector comes to look at the other: the messages between
are whole, verified, and liked by the callback. -/
inductive ComesTo : Bytes → τ → Bytes → τ → Prop where
  | here (recvBuf : Bytes) (user : τ) : ComesTo recvBuf user recvBuf user
  | next {recvBuf rest : Bytes} {user user' : τ} {buff : Bytes} {n : Nat}
    (message : parseHeader width.bits verify (pastEnd recvBuf) recvBuf = .message buff n)
    (liked : (cb buff user).1 = true)
    (later : ComesTo (recvBuf.drop n) (cb buff user).2 rest user') :
    ComesTo recvBuf user rest user'

/-- The size word is all there, and its sum with the size of the header fits a `size_t`, or
what is left of the sum is still more than there is. -/
def Sound (recvBuf : Bytes) : Prop :=
  recvBuf = [] ∨ 4 ≤ recvBuf.length ∧
    ((readScalar32 recvBuf).toNat + peerOffsetSize < 2 ^ width.bits ∨
      recvBuf.length < (readScalar32 recvBuf).toNat + peerOffsetSize - 2 ^ width.bits)

theorem sum_mod {fbSize : Nat} (word : fbSize < 2 ^ 32) :
    (fbSize + peerOffsetSize) % 2 ^ width.bits =
      if fbSize + peerOffsetSize < 2 ^ width.bits then fbSize + peerOffsetSize
      else fbSize + peerOffsetSize - 2 ^ width.bits := by
  have wide : 2 ^ 32 ≤ 2 ^ width.bits := by cases width <;> decide
  unfold peerOffsetSize
  by_cases narrow : fbSize + 8 < 2 ^ width.bits
  · rw [if_pos narrow, Nat.mod_eq_of_lt narrow]
  · rw [if_neg narrow, Nat.mod_eq_sub_mod (by omega), Nat.mod_eq_of_lt (by omega)]

theorem frame_within {size fbSize : Nat} {crcOk : Bool} (read : 4 ≤ size) :
    (∀ a ∈ [(⟨0, 4, size⟩ : Access), ⟨peerOffsetSize, peerOffsetSize + fbSize, size⟩,
          ⟨4, 8, size⟩] ++
      (if crcOk then [⟨peerOffsetSize, peerOffsetSize + fbSize, size⟩] else []), a.Within) ↔
      peerOffsetSize + fbSize ≤ size := by
  constructor
  · intro within
    exact within _ (List.mem_append_left _ (List.mem_cons_of_mem _ List.mem_cons_self))
  · intro long a ha
    have cases : a = ⟨0, 4, size⟩ ∨ a = ⟨4, 8, size⟩ ∨
        a = ⟨peerOffsetSize, peerOffsetSize + fbSize, size⟩ := by
      rcases List.mem_append.mp ha with ha | ha
      · simpa [or_comm, or_left_comm] using ha
      · split at ha
        · exact Or.inr (Or.inr (List.mem_singleton.mp ha))
        · cases ha
    rcases cases with rfl | rfl | rfl
    · exact read
    · exact Nat.le_trans (Nat.le_add_right peerOffsetSize fbSize) long
    · exact long

theorem headerAccesses_within_iff {recvBuf : Bytes} (fits : recvBuf.length < 2 ^ width.bits) :
    (∀ a ∈ headerAccesses width.bits (pastEnd recvBuf) recvBuf, a.Within) ↔
      Sound width recvBuf := by
  by_cases empty : recvBuf = []
  · subst empty
    exact iff_of_true (fun a ha => by cases ha) (Or.inl rfl)
  have nonempty : ¬ recvBuf.isEmpty = true := fun h => empty (List.isEmpty_iff.mp h)
  unfold headerAccesses Sound
  rw [if_neg nonempty]
  by_cases short : recvBuf.length < 4
  · -- the size word is read all the same
    refine iff_of_false (fun within => ?_) fun sound => ?_
    · have read : 4 ≤ recvBuf.length := by
        refine within ⟨0, 4, recvBuf.length⟩ ?_
        dsimp only
        split <;> exact List.mem_cons_self
      omega
    · rcases sound with h | ⟨h, -⟩
      · exact empty h
      · omega
  · have read : 4 ≤ recvBuf.length := Nat.not_lt.mp short
    have word : (readScalar32 recvBuf).toNat < 2 ^ 32 := UInt32.toNat_lt _
    have sum := sum_mod width word
    rw [readScalar32_append recvBuf _ read]
    generalize (readScalar32 recvBuf).toNat = fbSize at word sum ⊢
    dsimp only
    split
    · -- partial payload
      rename_i partial'
      refine iff_of_true ?_ (Or.inr ⟨read, ?_⟩)
      · intro a ha
        cases List.mem_singleton.mp ha
        exact read
      · rw [sum] at partial'
        split at partial' <;> omega
    · rename_i enough
      rw [frame_within read]
      rw [sum] at enough
      split at enough
      · rename_i narrow
        exact iff_of_true (by omega) (Or.inr ⟨read, Or.inl narrow⟩)
      · rename_i wraps
        refine iff_of_false (by omega) ?_
        rintro (h | ⟨-, h | h⟩)
        · exact empty h
        · exact wraps h
        · exact enough h

theorem message_length {pastEnd recvBuf buff : Bytes} {n : Nat}
    (h : parseHeader width.bits verify pastEnd recvBuf = .message buff n) :
    0 < n ∧ n ≤ recvBuf.length := by
  unfold parseHeader at h
  dsimp only at h
  split at h
  · cases h
  split at h
  · cases h
  split at h
  · cases h
  rename_i long
  split at h
  · cases h
  split at h
  · cases h
    exact ⟨Nat.add_pos_right _ (by decide), Nat.not_lt.mp long⟩
  · cases h

theorem parse_succ (fuel : Nat) (s : Parse τ) :
    parse width verify cb pastEnd (fuel + 1) s =
      match parseHeader width.bits verify (pastEnd s.recvBuf) s.recvBuf with
      | .wait => (true, { s with
          touched := s.touched ++ headerAccesses width.bits (pastEnd s.recvBuf) s.recvBuf })
      | .message buff n =>
        if (cb buff s.user).1 = true then
          parse width verify cb pastEnd fuel ⟨s.recvBuf.drop n, (cb buff s.user).2,
            s.touched ++ headerAccesses width.bits (pastEnd s.recvBuf) s.recvBuf ++
              [⟨0, n, s.recvBuf.length⟩]⟩
        else (false, ⟨s.recvBuf, (cb buff s.user).2,
          s.touched ++ headerAccesses width.bits (pastEnd s.recvBuf) s.recvBuf⟩)
      | _ => (false, { s with
          touched := s.touched ++ headerAccesses width.bits (pastEnd s.recvBuf) s.recvBuf }) := by
  cases look : parseHeader width.bits verify (pastEnd s.recvBuf) s.recvBuf with
  | wait =>
    simp only [parse, parseMessage, StateT.bind, bind, look]
    rfl
  | refuse =>
    simp only [parse, parseMessage, StateT.bind, bind, look]
    rfl
  | overrun =>
    simp only [parse, parseMessage, StateT.bind, bind, look]
    rfl
  | message buff n =>
    cases liked : (cb buff s.user).1 with
    | true => simp only [parse, parseMessage, StateT.bind, bind, look, liked, if_true]
    | false =>
      simp only [parse, parseMessage, StateT.bind, bind, look, liked, Bool.false_eq_true, if_false]
      rfl

theorem sound_from_iff {recvBuf : Bytes} {user : τ} :
    (∀ rest user', ComesTo width verify cb pastEnd recvBuf user rest user' → Sound width rest) ↔
      Sound width recvBuf ∧ ∀ buff n,
        parseHeader width.bits verify (pastEnd recvBuf) recvBuf = .message buff n →
        (cb buff user).1 = true → ∀ rest user',
          ComesTo width verify cb pastEnd (recvBuf.drop n) (cb buff user).2 rest user' →
            Sound width rest := by
  constructor
  · intro all
    exact ⟨all _ _ (.here recvBuf user), fun buff n message liked rest user' later =>
      all rest user' (.next message liked later)⟩
  · rintro ⟨now, after⟩ rest user' comes
    cases comes with
    | here => exact now
    | next message liked later => exact after _ _ message liked _ _ later

theorem parse_within_iff {fuel : Nat} {s : Parse τ} (enough : s.recvBuf.length ≤ fuel)
    (fits : s.recvBuf.length < 2 ^ width.bits) :
    (∀ a ∈ (parse width verify cb pastEnd fuel s).2.touched, a.Within) ↔
      (∀ a ∈ s.touched, a.Within) ∧
        ∀ rest user', ComesTo width verify cb pastEnd s.recvBuf s.user rest user' →
          Sound width rest := by
  induction fuel generalizing s with
  | zero =>
    have empty : s.recvBuf = [] := List.length_eq_zero_iff.mp (Nat.le_zero.mp enough)
    refine (and_iff_left ?_).symm
    rw [sound_from_iff, empty]
    exact ⟨Or.inl rfl, fun buff n message => by cases message⟩
  | succ fuel ih =>
    rw [parse_succ, sound_from_iff]
    have first : (∀ a ∈ s.touched ++ headerAccesses width.bits (pastEnd s.recvBuf) s.recvBuf,
        a.Within) ↔ (∀ a ∈ s.touched, a.Within) ∧ Sound width s.recvBuf := by
      rw [List.forall_mem_append, headerAccesses_within_iff width pastEnd fits]
    cases outcome : parseHeader width.bits verify (pastEnd s.recvBuf) s.recvBuf with
    | wait =>
      refine first.trans (and_congr_right fun _ => (and_iff_left ?_).symm)
      exact fun _ _ message => by cases message
    | refuse =>
      refine first.trans (and_congr_right fun _ => (and_iff_left ?_).symm)
      exact fun _ _ message => by cases message
    | overrun =>
      refine first.trans (and_congr_right fun _ => (and_iff_left ?_).symm)
      exact fun _ _ message => by cases message
    | message buff n =>
      dsimp only
      split
      · rename_i liked
        obtain ⟨pos, le⟩ := message_length width verify outcome
        have shorter : (s.recvBuf.drop n).length ≤ fuel := by
          rw [List.length_drop]
          omega
        have fits' : (s.recvBuf.drop n).length < 2 ^ width.bits := by
          rw [List.length_drop]
          omega
        have erased : ∀ a ∈ [(⟨0, n, s.recvBuf.length⟩ : Access)], a.Within := by
          intro a ha
          cases List.mem_singleton.mp ha
          exact le
        rw [ih shorter fits', List.forall_mem_append, first, and_iff_left erased, and_assoc]
        refine and_congr_right fun _ => and_congr_right fun _ => ⟨?_, ?_⟩
        · rintro after buff' n' message _
          cases message
          exact after
        · exact fun after => after buff n rfl liked
      · rename_i refused
        refine first.trans (and_congr_right fun _ => (and_iff_left ?_).symm)
        rintro buff' n' message liked
        cases message
        exact absurd liked refused

/-- What a call touches lies within the vector exactly when every vector it comes to look at
is sound. -/
theorem accesses_within_iff {recvBuf : Bytes} {user : τ}
    (fits : recvBuf.length < 2 ^ width.bits) :
    (∀ a ∈ accesses width verify cb pastEnd recvBuf user, a.Within) ↔
      ∀ rest user', ComesTo width verify cb pastEnd recvBuf user rest user' →
        Sound width rest := by
  have run := parse_within_iff width verify cb pastEnd (s := ⟨recvBuf, user, []⟩)
    (Nat.le_refl recvBuf.length) fits
  rw [accesses, run]
  exact and_iff_right fun a ha => by cases ha

end parse

/-- An empty message, read to its end. -/
theorem empty_message_within : ([0, 0, 0, 0, 0, 0, 0, 0] : Bytes).length < 2 ^ SizeT.bits32.bits ∧
    ∀ rest user', ComesTo .bits32 (fun _ => true) (fun _ n => (true, n)) (fun _ => [])
      [0, 0, 0, 0, 0, 0, 0, 0] 0 rest user' → Sound .bits32 rest := by
  have fits : ([0, 0, 0, 0, 0, 0, 0, 0] : Bytes).length < 2 ^ SizeT.bits32.bits := by decide
  exact ⟨fits, (accesses_within_iff .bits32 _ _ _ fits).mp (by decide)⟩

/-- One byte of a message, and with 32 bits a size word of 2^32 - 1: more is read than there
is. -/
theorem short_and_huge_outside :
    (⟨0, 4, 1⟩ : Access) ∈ accesses .bits64 (fun _ => true) (fun _ n => (true, n)) (fun _ => [])
        [1] 0 ∧
      (⟨8, 8 + (2 ^ 32 - 1), 8⟩ : Access) ∈ accesses .bits32 (fun _ => true)
        (fun _ n => (true, n)) (fun _ => []) [255, 255, 255, 255, 0, 0, 0, 0] 0 ∧
      ¬ (⟨0, 4, 1⟩ : Access).Within ∧ ¬ (⟨8, 8 + (2 ^ 32 - 1), 8⟩ : Access).Within := by
  decide

end HumbleNet.Accesses
