import HumbleNet.Bytes
import HumbleNet.Lib.Buffer
import HumbleNet.Lib.Scan

/-! ICE candidates: the text that one client makes of an address and a port, and what the other
client reads out of a text. -/
namespace HumbleNet

open Text Numerals Scan

/-- What `ILibInet_ntop2` leaves in `address`: the text of an IPv4 or an IPv6 address, and the
empty one for any other family. It is a C string below `INET6_ADDRSTRLEN`. -/
structure AddressText where
  text : Bytes
  no_nul : 0 ∉ text
  short : text.length < 46

def snprintf (size : Nat) (text : Bytes) : Bytes := text.take (size - 1)

/-- The candidate that `WebRTCOnIceCandidate` gives to the callback:
`candidate:%d %d UDP %d %s %u typ host`. -/
def webRTCOnIceCandidate (address : AddressText) (port : UInt16) : Bytes :=
  snprintf 255 (ofChars ['c', 'a', 'n', 'd', 'i', 'd', 'a', 't', 'e', ':'] ++ unsigned 0 ++
    ofChars [' '] ++ unsigned 1 ++ ofChars [' ', 'U', 'D', 'P', ' '] ++ unsigned (2128609535 - 1) ++
    ofChars [' '] ++ address.text ++ ofChars [' '] ++ unsigned port.toNat ++
    ofChars [' ', 't', 'y', 'p', ' ', 'h', 'o', 's', 't'])

inductive ConnectionCall where
  | addServerReflexiveCandidateToRemoteSDP (address : Bytes) (port : Int32)
  | setAnswer
deriving DecidableEq

def candidateFormat (overflow : Int → Int32) : List (Conversion (Buffer 255 × Int32)) :=
  [.word suppress, .number suppress, .word suppress, .number suppress,
    .word fun w args => (args.1.store 0 (w ++ [0])).map fun address => (address, args.2),
    .number fun v args => some (args.1, narrow overflow v),
    .word suppress, .word suppress]

/-- It is `none` where the conversion of a word writes outside `address`. -/
def libwebrtcAddIceCandidate (overflow : Int → Int32) (candidate : Bytes) :
    Option (List ConnectionCall × Int) := do
  let (address, port) ← sscanf (candidateFormat overflow) candidate (Buffer.zeroed 255, 0)
  pure ([.addServerReflexiveCandidateToRemoteSDP (cStr address.1) port, .setAnswer], 1)

def storedWord (candidate : Bytes) : Option Bytes :=
  ((pass [.word, .number, .word, .number] candidate).bind word).map Prod.fst

/-- The other side gets this address and this port. -/
def Survives (overflow : Int → Int32) (address : AddressText) (port : UInt16) : Prop :=
  libwebrtcAddIceCandidate overflow (webRTCOnIceCandidate address port) =
    some ([.addServerReflexiveCandidateToRemoteSDP address.text (Int32.ofNat port.toNat),
      .setAnswer], 1)

def StaysInside (overflow : Int → Int32) (candidate : Bytes) : Prop :=
  (libwebrtcAddIceCandidate overflow candidate).isSome = true

/-- No candidate is added to the connection. -/
def AddsNone (overflow : Int → Int32) (candidate : Bytes) : Prop :=
  ∃ calls ret, libwebrtcAddIceCandidate overflow candidate = some (calls, ret) ∧
    ∀ address port, .addServerReflexiveCandidateToRemoteSDP address port ∉ calls

section proofs

variable {overflow : Int → Int32}

theorem scanned_number (s : Bytes) (args : Buffer 255 × Int32) :
    sscanf ((candidateFormat overflow).drop 5) s args = some (args.1,
      match integer s with
      | none => args.2
      | some (v, _) => narrow overflow v) := by
  simp only [candidateFormat, List.drop_succ_cons, List.drop_zero, sscanf]
  cases integer s with
  | none => rfl
  | some read =>
    have rest := sscanf_suppressed [.word, .word] [] read.2 (args.1, narrow overflow read.1)
    refine rest.trans ?_
    cases pass [.word, .word] read.2 <;> rfl

theorem scanned (candidate : Bytes) (args : Buffer 255 × Int32) :
    sscanf (candidateFormat overflow) candidate args =
      match pass [.word, .number, .word, .number] candidate with
      | none => some args
      | some s =>
        match word s with
        | none => some args
        | some (w, s) => (args.1.store 0 (w ++ [0])).map fun address =>
          (address, match integer s with
            | none => args.2
            | some (v, _) => narrow overflow v) := by
  have format := sscanf_suppressed [.word, .number, .word, .number]
    ((candidateFormat overflow).drop 4) candidate args
  refine format.trans ?_
  cases pass [.word, .number, .word, .number] candidate with
  | none => rfl
  | some s =>
    dsimp only
    rw [show (candidateFormat overflow).drop 4 = .word (fun w args =>
      (args.1.store 0 (w ++ [0])).map fun address => (address, args.2)) ::
      (candidateFormat overflow).drop 5 from rfl, sscanf]
    cases word s with
    | none => rfl
    | some first =>
      dsimp only
      cases args.1.store 0 (first.1 ++ [0]) with
      | none => rfl
      | some address => exact scanned_number first.2 (address, args.2)

theorem cStr_append_nul (w rest : Bytes) : cStr (w ++ 0 :: rest) = cStr w := by
  unfold cStr
  induction w with
  | nil => rfl
  | cons c w ih =>
    rw [List.cons_append, List.takeWhile_cons, List.takeWhile_cons, ih]

theorem libwebrtcAddIceCandidate_eq (candidate : Bytes) :
    libwebrtcAddIceCandidate overflow candidate =
      match (pass [.word, .number, .word, .number] candidate).bind word with
      | none => some ([.addServerReflexiveCandidateToRemoteSDP [] 0, .setAnswer], 1)
      | some (w, s) =>
        if w.length ≤ 254 then
          some ([.addServerReflexiveCandidateToRemoteSDP (cStr w)
            (match integer s with | none => 0 | some (v, _) => narrow overflow v),
            .setAnswer], 1)
        else none := by
  have scan := @scanned overflow candidate (Buffer.zeroed 255, 0)
  change Option.bind (sscanf _ _ _) _ = _
  rw [scan]
  cases pass [.word, .number, .word, .number] candidate with
  | none => rfl
  | some s =>
    simp only [Option.bind_some]
    cases word s with
    | none => rfl
    | some first =>
      dsimp only
      by_cases fits : first.1.length ≤ 254
      · obtain ⟨address, stored, whole⟩ := Buffer.store_inside (Buffer.zeroed 255) 0
          (first.1 ++ [0]) (by rw [List.length_append, List.length_singleton]; omega)
        have text : cStr address.1 = cStr first.1 := by
          rw [whole, List.take_zero, List.nil_append, List.append_assoc]
          exact cStr_append_nul first.1 _
        rw [stored, if_pos fits, ← text]
        rfl
      · have outside : (Buffer.zeroed 255).store 0 (first.1 ++ [0]) = none := by
          rw [← Option.not_isSome_iff_eq_none, Buffer.store_isSome, List.length_append,
            List.length_singleton]
          omega
        rw [outside, if_neg fits]
        rfl

theorem staysInside_iff (candidate : Bytes) :
    StaysInside overflow candidate ↔ ∀ w ∈ storedWord candidate, w.length ≤ 254 := by
  rw [StaysInside, libwebrtcAddIceCandidate_eq, storedWord]
  cases (pass [.word, .number, .word, .number] candidate).bind word with
  | none => simp
  | some read => by_cases fits : read.1.length ≤ 254 <;> simp [fits]

theorem not_addsNone (candidate : Bytes) : ¬ AddsNone overflow candidate := by
  rintro ⟨calls, ret, added, none⟩
  rw [libwebrtcAddIceCandidate_eq] at added
  split at added
  · cases added
    exact none _ _ List.mem_cons_self
  · split at added
    · cases added
      exact none _ _ List.mem_cons_self
    · cases added

theorem added_solid {candidate address : Bytes} {port : Int32} {calls : List ConnectionCall}
    {ret : Int} (added : libwebrtcAddIceCandidate overflow candidate =
      some (.addServerReflexiveCandidateToRemoteSDP address port :: calls, ret)) :
    ∀ c ∈ address, isSpace c = false := by
  rw [libwebrtcAddIceCandidate_eq] at added
  split at added
  · cases added
    simp
  · rename_i w s read
    obtain ⟨front, -, read⟩ := Option.bind_eq_some_iff.mp read
    split at added
    · cases added
      intro c listed
      exact (word_some read).2.1 c ((List.takeWhile_sublist _).subset listed)
    · cases added

def candidateFront (rest : Bytes) : Bytes :=
  (ofChars ['c', 'a', 'n', 'd', 'i', 'd', 'a', 't', 'e', ':'] ++ unsigned 0) ++
    byte ' ' :: (unsigned 1 ++ byte ' ' :: (ofChars ['U', 'D', 'P'] ++
      byte ' ' :: (unsigned (2128609535 - 1) ++ byte ' ' :: rest)))

theorem webRTCOnIceCandidate_eq (address : AddressText) (port : UInt16) :
    webRTCOnIceCandidate address port = candidateFront (address.text ++
      byte ' ' :: (unsigned port.toNat ++
        ofChars [' ', 't', 'y', 'p', ' ', 'h', 'o', 's', 't'])) := by
  have short := address.short
  have first : (unsigned 0).length ≤ 1 := (unsigned_length (by omega)).mpr (by omega)
  have second : (unsigned 1).length ≤ 1 := (unsigned_length (by omega)).mpr (by omega)
  have third : (unsigned (2128609535 - 1)).length ≤ 10 :=
    (unsigned_length (by omega)).mpr (by omega)
  have last : (unsigned port.toNat).length ≤ 5 := by
    have := port.toNat_lt
    exact (unsigned_length (by omega)).mpr (by omega)
  rw [webRTCOnIceCandidate, snprintf, List.take_of_length_le]
  · simp [candidateFront, ofChars]
  · simp only [List.length_append, ofChars, List.length_map, List.length_cons, List.length_nil]
    omega

theorem pass_candidateFront (rest : Bytes) :
    pass [.word, .number, .word, .number] (candidateFront rest) = some (byte ' ' :: rest) := by
  have space : isSpace (byte ' ') = true := by decide
  have stop : isDigit (byte ' ') = false := by decide
  have first : ∀ c ∈ ofChars ['c', 'a', 'n', 'd', 'i', 'd', 'a', 't', 'e', ':'] ++ unsigned 0,
      isSpace c = false := by
    intro c listed
    rcases List.mem_append.mp listed with text | digit
    · exact ofChars_avoids (by decide) c text
    · exact isSpace_unsigned 0 c digit
  have third : ∀ c ∈ ofChars ['U', 'D', 'P'], isSpace c = false := ofChars_avoids (by decide)
  rw [candidateFront, pass_word (by simp [ofChars]) first space, pass_space space,
    pass_unsigned 1 stop, pass_space space, pass_word (by simp [ofChars]) third space,
    pass_space space, pass_unsigned _ stop]
  rfl

theorem not_survives_empty {address : AddressText} (none : address.text = []) (port : UInt16) :
    ¬ Survives overflow address port := by
  have space : isSpace (byte ' ') = true := by decide
  have read := word_append (unsigned_ne_nil port.toNat) (isSpace_unsigned port.toNat)
    (ofChars [' ', 't', 'y', 'p', ' ', 'h', 'o', 's', 't']) (by simpa [ofChars] using space)
  have fits : (unsigned port.toNat).length ≤ 254 := by
    have small := port.toNat_lt
    have := (unsigned_length (n := port.toNat) (k := 5) (by omega)).mpr (by omega)
    omega
  intro survives
  rw [Survives, webRTCOnIceCandidate_eq, libwebrtcAddIceCandidate_eq, pass_candidateFront,
    Option.bind_some, none, List.nil_append, word_space space, word_space space, read] at survives
  simp only [if_pos fits, cStr_of_no_nul (nul_not_mem_unsigned port.toNat)] at survives
  have same := (List.cons.inj (Prod.mk.inj (Option.some.inj survives)).1).1
  have empty := (ConnectionCall.addServerReflexiveCandidateToRemoteSDP.inj same).1
  exact unsigned_ne_nil port.toNat empty

theorem survives_iff (address : AddressText) (port : UInt16) : Survives overflow address port ↔
    address.text ≠ [] ∧ ∀ c ∈ address.text, isSpace c = false := by
  constructor
  · intro survives
    exact ⟨fun none => not_survives_empty none port survives, added_solid survives⟩
  · rintro ⟨some, solid⟩
    have space : isSpace (byte ' ') = true := by decide
    have stop : isDigit (byte ' ') = false := by decide
    have small := port.toNat_lt
    have read := word_append some solid (byte ' ' :: (unsigned port.toNat ++
      ofChars [' ', 't', 'y', 'p', ' ', 'h', 'o', 's', 't'])) (by simpa using space)
    have digits := integer_unsigned port.toNat
      (ofChars [' ', 't', 'y', 'p', ' ', 'h', 'o', 's', 't']) (by simpa [ofChars] using stop)
    have fits : address.text.length ≤ 254 := by
      have := address.short
      omega
    rw [Survives, webRTCOnIceCandidate_eq, libwebrtcAddIceCandidate_eq, pass_candidateFront,
      Option.bind_some, word_space space, read]
    simp only [if_pos fits, cStr_of_no_nul address.no_nul, integer_space space, digits]
    rw [narrow_small overflow (by omega)]

end proofs

/-- An address survives exactly when it is a word, a candidate stays inside the block exactly
when the word that is stored does, and no candidate is dropped. -/
theorem ice_candidates_iff (overflow : Int → Int32) (address : AddressText) (port : UInt16)
    (candidate : Bytes) :
    (Survives overflow address port ↔
      address.text ≠ [] ∧ ∀ c ∈ address.text, isSpace c = false) ∧
    (StaysInside overflow candidate ↔ ∀ w ∈ storedWord candidate, w.length ≤ 254) ∧
    ¬ AddsNone overflow candidate :=
  ⟨survives_iff address port, staysInside_iff candidate, not_addsNone candidate⟩

/-- An address of 255 characters is written behind the block, and a candidate without a single
word in it is added like any other. -/
theorem bad_candidates :
    ¬ StaysInside (fun _ => -1) (candidateFront (List.replicate 255 (byte 'a'))) ∧
      ¬ AddsNone (fun _ => -1) (ofChars [' ']) := by
  constructor
  · intro inside
    have some : List.replicate 255 (byte 'a') ≠ [] :=
      List.ne_nil_of_length_pos (by rw [List.length_replicate]; decide)
    have solid : ∀ c ∈ List.replicate 255 (byte 'a'), isSpace c = false := by
      intro c listed
      rw [(List.mem_replicate.mp listed).2]
      decide
    have read := word_append some solid [] (by simp)
    rw [List.append_nil] at read
    have stored : storedWord (candidateFront (List.replicate 255 (byte 'a'))) =
        .some (List.replicate 255 (byte 'a')) := by
      rw [storedWord, pass_candidateFront, Option.bind_some, word_space (by decide), read]
      rfl
    have short := (staysInside_iff _).mp inside _ stored
    rw [List.length_replicate] at short
    exact absurd short (by decide)
  · exact not_addsNone _

end HumbleNet
