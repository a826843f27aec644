import HumbleNet.PeerServer.Server

/-! What the client signs against what the server verifies. The server feeds `authToken`
to the MAC where the client feeds `reconnectToken`, so the two agree exactly when the two
tokens are the same. -/
namespace HumbleNet.PeerServer

open Program

theorem hmacInput_nil (ctx : HMACContext) : hmacInput ctx [] = ctx := by
  simp only [hmacInput, List.append_nil]

theorem hmacInputIfPresent_eq (ctx : HMACContext) (token : Option Bytes) :
    hmacInputIfPresent ctx token = hmacInput ctx (token.getD []) := by
  cases token with
  | none => exact (hmacInput_nil ctx).symm
  | some token => rfl

theorem stringIfNotEmpty_getD (token : Bytes) : (stringIfNotEmpty token).getD [] = token := by
  cases token with
  | nil => rfl
  | cons b bs => rfl

/-- The bytes of a hello that are verified, one string after the other. -/
def signedBytes (hello : HelloServer) : Bytes :=
  hello.authToken.getD [] ++ (hello.authToken.getD [] ++ attributeBytes (hello.attributes.getD []))

def mac (sha1 : Bytes → Digest) (secret message : Bytes) : Digest :=
  hmacResult sha1 (hmacInput (hmacInit sha1 secret) message)

section agreement

variable (sha1 : Bytes → Digest)

theorem helloSignature_eq (secret authToken reconnectToken : Bytes) (attribs : List Attribute) :
    helloSignature sha1 secret authToken reconnectToken attribs =
      hmacResultToHex
        (mac sha1 secret (authToken ++ (reconnectToken ++ attributeBytes attribs))) := by
  unfold helloSignature mac
  simp only [hmacAttributes_eq, hmacInput_append, List.append_assoc]

/-- These bytes are what the server feeds to the MAC. -/
theorem signatureMatches_eq (secret : Bytes) (hello : HelloServer) :
    signatureMatches sha1 secret hello =
      decide (hmacResultToHex (mac sha1 secret (signedBytes hello)) = cStr hello.gameSignature) := by
  unfold signatureMatches mac signedBytes
  simp only [hmacInputIfPresent_eq, hmacAttributes_eq, hmacInput_append, List.append_assoc]

theorem collision_of_mac {secret x y : Bytes} (h : mac sha1 secret x = mac sha1 secret y)
    (ne : x ≠ y) : ∃ a b, a ≠ b ∧ sha1 a = sha1 b := by
  have outer : sha1 ((hmacInit sha1 secret).oCtx ++ (sha1 ((hmacInit sha1 secret).iCtx ++ x)).1) =
      sha1 ((hmacInit sha1 secret).oCtx ++ (sha1 ((hmacInit sha1 secret).iCtx ++ y)).1) := h
  by_cases inner : sha1 ((hmacInit sha1 secret).iCtx ++ x) =
      sha1 ((hmacInit sha1 secret).iCtx ++ y)
  · exact ⟨_, _, fun same => ne (List.append_cancel_left same), inner⟩
  · refine ⟨_, _, fun same => inner ?_, outer⟩
    exact Subtype.ext (List.append_cancel_left same)

end agreement

theorem exists_digest_ne (x y : Bytes) : ∃ d : Digest, d.1 ≠ x ∧ d.1 ≠ y := by
  have zero_one : List.replicate 20 (0 : UInt8) ≠ List.replicate 20 1 := by decide
  have zero_two : List.replicate 20 (0 : UInt8) ≠ List.replicate 20 2 := by decide
  have one_two : List.replicate 20 (1 : UInt8) ≠ List.replicate 20 2 := by decide
  by_cases hx : List.replicate 20 (0 : UInt8) ≠ x ∧ List.replicate 20 (0 : UInt8) ≠ y
  · exact ⟨⟨_, rfl⟩, hx⟩
  · by_cases hy : List.replicate 20 (1 : UInt8) ≠ x ∧ List.replicate 20 (1 : UInt8) ≠ y
    · exact ⟨⟨_, rfl⟩, hy⟩
    · refine ⟨⟨List.replicate 20 2, rfl⟩, ?_, ?_⟩ <;> grind

theorem exists_mac_ne {x y : Bytes} (ne : x ≠ y) (secret : Bytes) :
    ∃ sha1 : Bytes → Digest, mac sha1 secret x ≠ mac sha1 secret y := by
  obtain ⟨d, dx, dy⟩ := exists_digest_ne x y
  obtain ⟨e, ex, ed⟩ := exists_digest_ne x d.1
  let sha1 : Bytes → Digest := fun m => if m.drop 64 = x ∨ m.drop 64 = d.1 then d else e
  refine ⟨sha1, ?_⟩
  have behind : ∀ pad : UInt8, ∀ m : Bytes,
      (((keyBlock sha1 secret).map (pad ^^^ ·)) ++ m).drop 64 = m := by
    intro pad m
    exact List.drop_left' (by rw [List.length_map, keyBlock_length]; rfl)
  have hash : ∀ pad : UInt8, ∀ m : Bytes, sha1 (((keyBlock sha1 secret).map (pad ^^^ ·)) ++ m) =
      if m = x ∨ m = d.1 then d else e := by
    intro pad m
    change (if _ ∨ _ then d else e) = _
    rw [behind]
  have hx : mac sha1 secret x = d := by
    simp only [mac, hmacResult, hmacInput, hmacInit, hash, true_or, or_true, if_true]
  have hy : mac sha1 secret y = e := by
    have inner : ¬ (y = x ∨ y = d.1) := by
      rintro (h | h)
      · exact ne h.symm
      · exact dy h.symm
    have outer : ¬ (e.1 = x ∨ e.1 = d.1) := by
      rintro (h | h)
      · exact ex h
      · exact ed h
    simp only [mac, hmacResult, hmacInput, hmacInit, hash, if_neg inner, if_neg outer]
  rw [hx, hy]
  intro same
  exact ed (congrArg Subtype.val same.symm)

/-- The server takes the hello that a client sent: it is one, and its game is returned. -/
def VerifiesHello (env : Externals) (s : Server) (sent : Option Message) : Prop :=
  ∃ hello g, sent = some (.helloServer (some hello)) ∧
    (getVerifiedGame env hello s).1 = some g

theorem getVerifiedGame_of_record (env : Externals) (hello : HelloServer) (s : Server)
    {record : GameRecord} (found : (s.gameDB.findByToken (cStr hello.gameToken)).1 = some record)
    (verify : record.verify = true) :
    (∃ g, (getVerifiedGame env hello s).1 = some g) ↔
      signatureMatches env.sha1 record.secret hello = true := by
  simp only [getVerifiedGame, found, verify, Bool.true_and]
  cases ok : signatureMatches env.sha1 record.secret hello with
  | false => simp
  | true =>
    cases known : s.games.lookup record.gameId with
    | some game => simp
    | none => simp

theorem verifiesHello_iff (env : Externals) (s : Server) (now : Int) (flags : UInt8)
    (token secret authToken reconnectToken : Bytes) (attributes : List (Bytes × Bytes))
    {record : GameRecord} (tokenPresent : token ≠ []) (tokenNul : (0 : UInt8) ∉ token)
    (secretPresent : secret ≠ []) (found : (s.gameDB.findByToken token).1 = some record)
    (same : record.secret = secret) (verify : record.verify = true) :
    VerifiesHello env s (sendHelloServer env.sha1 now none some flags token secret authToken
        reconnectToken attributes) ↔
      mac env.sha1 secret
          (authToken ++ (authToken ++ attributeBytes (helloAttributes now attributes))) =
        mac env.sha1 secret
          (authToken ++ (reconnectToken ++ attributeBytes (helloAttributes now attributes))) := by
  have t : token.isEmpty = false := by
    cases token with
    | nil => exact absurd rfl tokenPresent
    | cons b bs => rfl
  have k : secret.isEmpty = false := by
    cases secret with
    | nil => exact absurd rfl secretPresent
    | cons b bs => rfl
  subst same
  simp only [VerifiesHello, sendHelloServer, t, k, Bool.or_self, Bool.false_eq_true, if_false,
    Option.some.injEq, Message.helloServer.injEq, exists_and_left, exists_eq_left']
  have foundC : (s.gameDB.findByToken (cStr token)).1 = some record := by
    rw [cStr_of_no_nul tokenNul]
    exact found
  rw [getVerifiedGame_of_record env _ s foundC verify, signatureMatches_eq, decide_eq_true_eq,
    cStr_of_no_nul, helloSignature_eq]
  · simp only [signedBytes, stringIfNotEmpty_getD, Option.getD_some]
    exact ⟨fun same => hmacResultToHex_injective same, congrArg hmacResultToHex⟩
  · unfold helloSignature
    exact hmacResultToHex_no_nul _

/-- Signing and verification agree exactly when the two tokens are the same. For one hash
they can agree on other tokens only through a collision of that hash. -/
theorem hello_verified_iff (env : Externals) (s : Server) (now : Int) (flags : UInt8)
    (token secret authToken reconnectToken : Bytes) (attributes : List (Bytes × Bytes))
    {record : GameRecord} (tokenPresent : token ≠ []) (tokenNul : (0 : UInt8) ∉ token)
    (secretPresent : secret ≠ []) (found : (s.gameDB.findByToken token).1 = some record)
    (same : record.secret = secret) (verify : record.verify = true) :
    ((∀ sha1, VerifiesHello { env with sha1 := sha1 } s (sendHelloServer sha1 now none some flags
        token secret authToken reconnectToken attributes)) ↔ reconnectToken = authToken) ∧
    ∀ sha1, VerifiesHello { env with sha1 := sha1 } s (sendHelloServer sha1 now none some flags
        token secret authToken reconnectToken attributes) →
      reconnectToken = authToken ∨ ∃ x y, x ≠ y ∧ sha1 x = sha1 y := by
  have exact_mac := fun sha1 => verifiesHello_iff { env with sha1 := sha1 } s now flags token
    secret authToken reconnectToken attributes tokenPresent tokenNul secretPresent found same verify
  have differ : reconnectToken ≠ authToken →
      authToken ++ (authToken ++ attributeBytes (helloAttributes now attributes)) ≠
        authToken ++ (reconnectToken ++ attributeBytes (helloAttributes now attributes)) :=
    fun ne h => ne (List.append_cancel_right (List.append_cancel_left h)).symm
  refine ⟨⟨?_, ?_⟩, ?_⟩
  · intro all
    by_contra ne
    obtain ⟨sha1, apart⟩ := exists_mac_ne (differ ne) secret
    exact apart ((exact_mac sha1).mp (all sha1))
  · rintro rfl sha1
    exact (exact_mac sha1).mpr rfl
  · intro sha1 accepted
    by_cases eq : reconnectToken = authToken
    · exact Or.inl eq
    · exact Or.inr (collision_of_mac sha1 ((exact_mac sha1).mp accepted) (differ eq))

/-- Both tokens empty: the hello of a client that uses neither. -/
theorem hello_without_tokens_verified :
    VerifiesHello ⟨64, fun _ => true, fun _ => .none, fun _ => ⟨[], by decide⟩, sha1⟩
      (Server.new (.flatFile (AList.singleton [0x67] ⟨7, [0x73], true⟩)) [])
      (sendHelloServer sha1 1700000000 none some 1 [0x67] [0x73] [] [] []) :=
  (hello_verified_iff ⟨64, fun _ => true, fun _ => .none, fun _ => ⟨[], by decide⟩, sha1⟩
    (Server.new (.flatFile (AList.singleton [0x67] ⟨7, [0x73], true⟩)) []) 1700000000 1
    [0x67] [0x73] [] [] [] (by decide) (by decide) (by decide) rfl rfl rfl).1.mpr rfl sha1

/-- With an `authToken` and no `reconnectToken`, SHA-1 itself tells the two MACs apart. -/
theorem hello_with_auth_token_refused :
    ¬ VerifiesHello ⟨64, fun _ => true, fun _ => .none, fun _ => ⟨[], by decide⟩, sha1⟩
      (Server.new (.flatFile (AList.singleton [0x67] ⟨7, [0x73], true⟩)) [])
      (sendHelloServer sha1 1700000000 none some 1 [0x67] [0x73] [0x61] [] []) := by
  have agree := verifiesHello_iff
    ⟨64, fun _ => true, fun _ => .none, fun _ => ⟨[], by decide⟩, sha1⟩
    (Server.new (.flatFile (AList.singleton [0x67] ⟨7, [0x73], true⟩)) []) 1700000000 1
    [0x67] [0x73] [0x61] [] [] (by decide) (by decide) (by decide) rfl rfl rfl
  intro accepted
  exact absurd (agree.mp accepted) (by decide +kernel)

/-! ### What the server feeds to the MAC -/

end HumbleNet.PeerServer
