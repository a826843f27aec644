import HumbleNet.Client.P2P
import HumbleNet.Fragmentation
import HumbleNet.Lib.Buffer
import HumbleNet.Lib.Numerals

/-! The host names of the socket wrapper: `humblenet_socket.h` turns a name of the domain into a
peer id in network byte order, and `hs_sendto` turns it back. -/
namespace HumbleNet.Client

open Text Numerals
open Fragmentation (leBytes_leNat)

abbrev CString : Type := { s : Bytes // 0 ∉ s }

/-- What the platform leaves open: the byte order, and `atoi` outside an `int`. -/
structure Platform where
  littleEndian : Bool
  overflow : Int → Int32

section wrapper

variable (platform : Platform)

def byteSwap (x : UInt32) : UInt32 := UInt32.ofNat (leNat (leBytes 4 x.toNat).reverse)

def htonl (x : UInt32) : UInt32 := if platform.littleEndian then byteSwap x else x

def ntohl (x : UInt32) : UInt32 := if platform.littleEndian then byteSwap x else x

def toLower (c : UInt8) : UInt8 := if 65 ≤ c ∧ c ≤ 90 then c + 32 else c

def humblenetDomain : Bytes := ofChars ['.', 'h', 'u', 'm', 'b', 'l', 'e', 'n', 'e', 't']

def humblenetDomainLength : Nat := 10

def isHumblenetHost (h : Bytes) : Bool :=
  humblenetDomainLength < h.length &&
    (h.drop (h.length - humblenetDomainLength)).map toLower == humblenetDomain

def strncpy (src : Bytes) (n : Nat) : Bytes := src.take n ++ List.replicate (n - src.length) 0

def sinAddr (node : Bytes) : ClientM UInt32 :=
  if ofChars ['p', 'e', 'e', 'r', '_'] <+: node then
    pure (htonl platform (atoi platform.overflow (node.drop 5)).toUInt32)
  else do
    let peer ← humblenetP2PVirtualPeerForAlias node
    pure (htonl platform peer)

/-- `hs_getaddrinfo` without a service, over what `stemp` holds from the calls before. It is
`none` where a write goes outside `stemp`; a name of another domain is left to the system. -/
def hsGetaddrinfo (stemp : Buffer 256) (node : CString) :
    Option (Buffer 256 × Option (ClientM UInt32)) :=
  if isHumblenetHost node.1 then do
    let stemp ← stemp.store 0 (strncpy node.1 255)
    let stemp ← stemp.poke (node.1.length - humblenetDomainLength) 0
    pure (stemp, some (sinAddr platform (cStr stemp.1)))
  else some (stemp, none)

def sendReliable : UInt8 := 0

def hsSendto (env : Externals) (buffer : Bytes) (sAddr : UInt32) : ClientM Int :=
  humblenetP2PSendto env buffer (ntohl platform sAddr) sendReliable 0

end wrapper

section proofs

variable {platform : Platform}

theorem strncpy_length {src : Bytes} {n : Nat} : (strncpy src n).length = n := by
  simp only [strncpy, List.length_append, List.length_take, List.length_replicate]
  omega

theorem take_strncpy {src : Bytes} {n k : Nat} (inside : k ≤ n) (short : k ≤ src.length) :
    (strncpy src n).take k = src.take k := by
  have front : k ≤ (src.take n).length := by
    rw [List.length_take]
    omega
  rw [strncpy, List.take_append_of_le_length front, List.take_take, Nat.min_eq_left inside]

theorem copied_isSome (stemp : Buffer 256) (src : Bytes) {k : Nat} :
    ((stemp.store 0 (strncpy src 255)).bind (Buffer.poke k 0)).isSome = true ↔ k < 256 := by
  obtain ⟨copied, stored, -⟩ := stemp.store_inside 0 (strncpy src 255) (by
    rw [strncpy_length]
    omega)
  rw [stored, Option.bind_some, Buffer.poke_isSome]

theorem copied_eq {stemp cut : Buffer 256} {src : CString} {k : Nat} (short : k ≤ src.1.length)
    (done : (stemp.store 0 (strncpy src.1 255)).bind (Buffer.poke k 0) = some cut) :
    cStr cut.1 = src.1.take k := by
  have inside : k < 256 := (copied_isSome stemp src.1).mp (Option.isSome_iff_exists.mpr ⟨cut, done⟩)
  obtain ⟨copied, stored, front⟩ := stemp.store_inside 0 (strncpy src.1 255) (by
    rw [strncpy_length]
    omega)
  rw [stored, Option.bind_some] at done
  have whole := Buffer.store_eq done
  have kept : copied.1.take k = src.1.take k := by
    rw [front, List.take_zero, List.nil_append, List.take_append_of_le_length, take_strncpy]
    · omega
    · exact short
    · rw [strncpy_length]
      omega
  have no_nul : (0 : UInt8) ∉ src.1.take k := fun listed => src.2 (List.mem_of_mem_take listed)
  rw [cStr, whole, kept, List.append_assoc]
  exact (takeWhile_until no_nul (.inr rfl)).1

theorem isHumblenetHost_append {front : Bytes} (some : front ≠ []) :
    isHumblenetHost (front ++ humblenetDomain) = true := by
  have long : 0 < front.length := List.length_pos_iff.mpr some
  have length : (front ++ humblenetDomain).length = front.length + humblenetDomainLength :=
    List.length_append
  have lower : humblenetDomain.map toLower = humblenetDomain := by decide
  rw [isHumblenetHost, length, Nat.add_sub_cancel, List.drop_left, lower, beq_self_eq_true,
    Bool.and_true, decide_eq_true_eq]
  omega

theorem hsGetaddrinfo_isSome (stemp : Buffer 256) {node : CString}
    (host : isHumblenetHost node.1 = true) :
    (hsGetaddrinfo platform stemp node).isSome = true ↔ node.1.length ≤ 265 := by
  have long : 10 < node.1.length := by
    rw [isHumblenetHost, Bool.and_eq_true, decide_eq_true_eq] at host
    exact host.1
  have cut := copied_isSome stemp node.1
    (k := node.1.length - humblenetDomainLength)
  have same : (hsGetaddrinfo platform stemp node).isSome =
      ((stemp.store 0 (strncpy node.1 255)).bind
        (Buffer.poke (node.1.length - humblenetDomainLength) 0)).isSome := by
    rw [hsGetaddrinfo, if_pos host]
    cases stemp.store 0 (strncpy node.1 255) with
    | none => rfl
    | some copied =>
      change (Option.bind (copied.poke _ 0) _).isSome = (copied.poke _ 0).isSome
      cases copied.poke (node.1.length - humblenetDomainLength) 0 <;> rfl
  have ten : humblenetDomainLength = 10 := rfl
  rw [same, cut]
  omega

theorem hsGetaddrinfo_eq (stemp : Buffer 256) {node : CString}
    (host : isHumblenetHost node.1 = true) (short : node.1.length ≤ 265) :
    ∃ stemp', hsGetaddrinfo platform stemp node = some (stemp',
      some (sinAddr platform (node.1.take (node.1.length - humblenetDomainLength)))) := by
  have inside : node.1.length - humblenetDomainLength < 256 := by
    have ten : humblenetDomainLength = 10 := rfl
    omega
  obtain ⟨cut, done⟩ := Option.isSome_iff_exists.mp
    ((copied_isSome stemp node.1).mpr inside)
  have stem := copied_eq (Nat.sub_le _ _) done
  obtain ⟨copied, stored, poked⟩ := Option.bind_eq_some_iff.mp done
  refine ⟨cut, ?_⟩
  rw [hsGetaddrinfo, if_pos host, stored]
  change Option.bind (copied.poke _ 0) _ = _
  rw [poked, ← stem]
  rfl

theorem ntohl_htonl (x : UInt32) : ntohl platform (htonl platform x) = x := by
  unfold ntohl htonl
  cases platform.littleEndian with
  | false => rfl
  | true =>
    have bytes : leBytes 4 (byteSwap x).toNat = (leBytes 4 x.toNat).reverse := by
      have small : leNat (leBytes 4 x.toNat).reverse < 2 ^ 32 := by
        have below := leNat_lt (leBytes 4 x.toNat).reverse
        rw [List.length_reverse, leBytes_length] at below
        exact below
      have back := leBytes_leNat (leBytes 4 x.toNat).reverse
      rw [List.length_reverse, leBytes_length] at back
      rw [byteSwap, UInt32.toNat_ofNat', Nat.mod_eq_of_lt small, back]
    rw [if_pos rfl, if_pos rfl, byteSwap, bytes, List.reverse_reverse, leNat_leBytes]
    apply UInt32.toNat_inj.mp
    rw [UInt32.toNat_ofNat']
    have := x.toNat_lt
    omega

end proofs

def peerName (n : UInt32) : CString :=
  ⟨ofChars ['p', 'e', 'e', 'r', '_'] ++ unsigned n.toNat ++ humblenetDomain, by
    have digits := nul_not_mem_unsigned n.toNat
    have before : (0 : UInt8) ∉ ofChars ['p', 'e', 'e', 'r', '_'] := by decide
    have after : (0 : UInt8) ∉ humblenetDomain := by decide
    simp only [List.mem_append, digits, before, after, or_self, not_false_eq_true]⟩

theorem peerName_length (n : UInt32) : (peerName n).1.length ≤ 25 := by
  have digits : (unsigned n.toNat).length ≤ 10 := by
    have := n.toNat_lt
    rw [unsigned_length (by omega)]
    omega
  simp only [peerName, List.length_append]
  change 5 + _ + 10 ≤ 25
  omega

theorem peerName_stem (n : UInt32) :
    (peerName n).1.take ((peerName n).1.length - humblenetDomainLength) =
      ofChars ['p', 'e', 'e', 'r', '_'] ++ unsigned n.toNat := by
  have length : (peerName n).1.length =
      (ofChars ['p', 'e', 'e', 'r', '_'] ++ unsigned n.toNat).length + humblenetDomainLength :=
    List.length_append
  rw [length, Nat.add_sub_cancel]
  exact List.take_left

/-- Every write is inside the block. -/
def WritesInside (platform : Platform) (stemp : Buffer 256) (node : CString) : Prop :=
  isHumblenetHost node.1 = true → (hsGetaddrinfo platform stemp node).isSome = true

/-- The name of a peer resolves to the address from which `hs_sendto` gets its id. -/
def Resolves (platform : Platform) (stemp : Buffer 256) (n : UInt32) : Prop :=
  ∃ stemp' addr, hsGetaddrinfo platform stemp (peerName n) = some (stemp', some (pure addr)) ∧
    ntohl platform addr = n ∧ ∀ env buffer, hsSendto platform env buffer addr =
      humblenetP2PSendto env buffer n sendReliable 0

theorem sinAddr_peer (platform : Platform) (n : UInt32) :
    sinAddr platform (ofChars ['p', 'e', 'e', 'r', '_'] ++ unsigned n.toNat) =
      pure (htonl platform (atoi platform.overflow (unsigned n.toNat)).toUInt32) := by
  rw [sinAddr, if_pos (List.prefix_append _ _)]
  rfl

theorem atoi_unsigned (overflow : Int → Int32) (n : UInt32) :
    (atoi overflow (unsigned n.toNat)).toUInt32 = n ↔
      n.toNat < 2 ^ 31 ∨ (overflow n.toNat).toUInt32 = n := by
  have read := integer_unsigned n.toNat [] (by simp)
  rw [List.append_nil] at read
  rw [atoi, read]
  by_cases small : n.toNat < 2 ^ 31
  · have back : (Int32.ofNat n.toNat).toUInt32 = n := UInt32.ofNat_toNat
    simp only [narrow_small overflow small, back, small, true_or]
  · have range : ¬ (-2147483648 ≤ (n.toNat : Int) ∧ (n.toNat : Int) ≤ 2147483647) := by omega
    simp only [narrow, range, if_false, small, false_or]

/-- The wrapper writes inside its block exactly when the name is not longer than 265 bytes, and
gets an id back exactly when it fits an `int`, or the platform has it for one that does not. -/
theorem socket_names_iff (platform : Platform) (stemp : Buffer 256) (node : CString)
    (n : UInt32) :
    (WritesInside platform stemp node ↔
      ¬ (isHumblenetHost node.1 = true ∧ 265 < node.1.length)) ∧
    (Resolves platform stemp n ↔
      n.toNat < 2 ^ 31 ∨ (platform.overflow n.toNat).toUInt32 = n) := by
  constructor
  · rw [not_and, Nat.not_lt]
    exact forall_congr' fun host => hsGetaddrinfo_isSome stemp host
  · have host : isHumblenetHost (peerName n).1 = true := isHumblenetHost_append (by simp [ofChars])
    have short := peerName_length n
    obtain ⟨stemp', resolved⟩ := @hsGetaddrinfo_eq platform stemp _ host (by omega)
    rw [peerName_stem, sinAddr_peer] at resolved
    rw [← atoi_unsigned]
    constructor
    · rintro ⟨stemp'', addr, eq, recovered, -⟩
      have same := (Prod.mk.inj (Option.some.inj (resolved.symm.trans eq))).2
      obtain ⟨rfl, -⟩ := Course.done.inj (congrFun (Option.some.inj same) State.initial)
      rwa [ntohl_htonl] at recovered
    · intro exact
      refine ⟨stemp', _, resolved, by rw [ntohl_htonl, exact], ?_⟩
      intro env buffer
      rw [hsSendto, ntohl_htonl, exact]

def longName : CString :=
  ⟨List.replicate 256 (byte 'a') ++ humblenetDomain, by
    rw [List.mem_append, List.mem_replicate, not_or]
    decide⟩

/-- The cut is behind the block. -/
theorem long_name_written_outside : ¬ WritesInside ⟨true, fun _ => -1⟩
    (Buffer.zeroed 256) longName := by
  intro inside
  have some : List.replicate 256 (byte 'a') ≠ [] :=
    List.ne_nil_of_length_pos (by rw [List.length_replicate]; decide)
  have host : isHumblenetHost longName.1 = true := isHumblenetHost_append some
  have short := (hsGetaddrinfo_isSome _ host).mp (inside host)
  rw [longName, List.length_append, List.length_replicate] at short
  exact absurd short (by decide)

end HumbleNet.Client
