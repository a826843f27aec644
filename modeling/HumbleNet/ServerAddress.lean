import HumbleNet.Bytes
import HumbleNet.Lib.Numerals
import Mathlib.Data.List.Infix

/-! `parseServerAddress`: the address of the signaling server, and the grammar it is meant to
read. -/
namespace HumbleNet

open Text Numerals

structure Endpoint where
  realaddr : Bytes
  path : Bytes
  port : Int32
  useSsl : Bool
deriving DecidableEq

def parseAddress (overflow : Int → Int32) (serverString : Bytes) (out : Endpoint) :
    Bool × Endpoint :=
  let semicolonPos := serverString.idxOf? (byte ':')
  let slashPos := serverString.idxOf? (byte '/')
  if semicolonPos = some 0 ∨ slashPos = some 0 then (false, out)
  else
    let realaddr := match semicolonPos, slashPos with
      | some semicolon, _ => serverString.take semicolon
      | none, some slash => serverString.take slash
      | none, none => if serverString ≠ [] then serverString else out.realaddr
    let port := match semicolonPos, slashPos with
      -- A slash before the colon wraps the length, and everything from the colon on is taken.
      | some semicolon, some slash =>
        let rest := serverString.drop (semicolon + 1)
        atoi overflow (cStr (if semicolon < slash then rest.take (slash - semicolon - 1) else rest))
      | some semicolon, none => atoi overflow (cStr (serverString.drop (semicolon + 1)))
      | none, _ => out.port
    let port := if port = 0 then if out.useSsl then 443 else 80 else port
    if port ≤ 0 ∨ 65535 < port then (false, { out with realaddr, port })
    else
      let path := match slashPos with
        | some slash => serverString.drop slash
        | none => out.path
      (true, { out with realaddr, path, port })

def parseServerAddress (overflow : Int → Int32) (serverString : Bytes) (out : Endpoint) :
    Bool × Endpoint :=
  match find (ofChars [':', '/', '/']) serverString with
  | some protocolPos =>
    if find (ofChars ['w', 's', 's']) serverString = some 0 ∧ protocolPos = 3 then
      parseAddress overflow (serverString.drop (protocolPos + 3)) { out with useSsl := true }
    else if find (ofChars ['w', 's']) serverString ≠ some 0 ∨ protocolPos ≠ 2 then (false, out)
    else parseAddress overflow (serverString.drop (protocolPos + 3)) out
  | none => parseAddress overflow serverString out

def IsPort (text : Bytes) : Prop :=
  text ≠ [] ∧ (∀ d ∈ text, isDigit d = true) ∧ 1 ≤ value text ∧ value text ≤ 65535
deriving Decidable

inductive Scheme
  | ws | wss
deriving DecidableEq

/-- `[ws:// or wss://] host [:port] [path]`. -/
structure Address where
  scheme : Option Scheme
  host : Bytes
  port : Option Bytes
  path : Bytes
  host_ne_nil : host ≠ []
  no_colon : byte ':' ∉ host
  no_slash : byte '/' ∉ host
  port_number : ∀ text ∈ port, IsPort text
  rooted : path = [] ∨ path.head? = some (byte '/')

namespace Address

def schemeText : Option Scheme → Bytes
  | none => []
  | some .ws => ofChars ['w', 's', ':', '/', '/']
  | some .wss => ofChars ['w', 's', 's', ':', '/', '/']

def portText : Option Bytes → Bytes
  | none => []
  | some text => byte ':' :: text

def text (a : Address) : Bytes := schemeText a.scheme ++ (a.host ++ (portText a.port ++ a.path))

def endpoint (a : Address) : Endpoint :=
  ⟨a.host, a.path,
    match a.port with
    | some text => Int32.ofNat (value text)
    | none => if a.scheme = some .wss then 443 else 80,
    decide (a.scheme = some .wss)⟩

end Address

def settled (useSsl : Bool) (port : Int32) : Int32 :=
  if port = 0 then if useSsl then 443 else 80 else port

/-- A text cut at its first slash, and before that at its first colon. -/
structure Parts where
  host : Bytes
  port : Option Bytes
  path : Bytes
  no_colon : byte ':' ∉ host
  no_slash : byte '/' ∉ host
  port_no_slash : ∀ text ∈ port, byte '/' ∉ text
  rooted : path = [] ∨ path.head? = some (byte '/')

namespace Parts

def text (p : Parts) : Bytes := p.host ++ (Address.portText p.port ++ p.path)

def WellFormed (p : Parts) : Prop := p.host ≠ [] ∧ ∀ text ∈ p.port, IsPort text

theorem ext_of {p q : Parts} (host : p.host = q.host) (port : p.port = q.port)
    (path : p.path = q.path) : p = q := by
  cases p
  cases q
  cases host
  cases port
  cases path
  rfl

def split (s : Bytes) : Parts where
  host := (s.takeWhile (· ≠ byte '/')).takeWhile (· ≠ byte ':')
  port := match (s.takeWhile (· ≠ byte '/')).dropWhile (· ≠ byte ':') with
    | [] => none
    | _ :: text => some text
  path := s.dropWhile (· ≠ byte '/')
  no_colon := not_mem_takeWhile _ _
  no_slash := fun listed => not_mem_takeWhile _ _ ((List.takeWhile_sublist _).subset listed)
  port_no_slash := by
    intro text present listed
    split at present
    · cases present
    · rename_i cut
      cases present
      have front := (List.dropWhile_sublist _).subset (cut ▸ List.mem_cons_of_mem _ listed)
      exact not_mem_takeWhile _ _ front
  rooted := by
    rcases dropWhile_ne (byte '/') s with none | ⟨back, left⟩
    · exact .inl none
    · exact .inr (by rw [left]; rfl)

theorem text_split (s : Bytes) : (split s).text = s := by
  have port : Address.portText (split s).port =
      (s.takeWhile (· ≠ byte '/')).dropWhile (· ≠ byte ':') := by
    unfold split
    rcases dropWhile_ne (byte ':') (s.takeWhile (· ≠ byte '/')) with none | ⟨back, left⟩
    · simp only [none, Address.portText]
    · simp only [left, Address.portText]
  calc (split s).text
      = (split s).host ++ ((s.takeWhile (· ≠ byte '/')).dropWhile (· ≠ byte ':') ++
          (split s).path) := by rw [text, port]
    _ = s.takeWhile (· ≠ byte '/') ++ s.dropWhile (· ≠ byte '/') := by
      rw [← List.append_assoc]
      exact congrArg (· ++ (split s).path) List.takeWhile_append_dropWhile
    _ = s := List.takeWhile_append_dropWhile

theorem split_text (p : Parts) : split p.text = p := by
  have front : byte '/' ∉ p.host ++ Address.portText p.port := by
    have := p.no_slash
    cases found : p.port with
    | none => simpa [Address.portText]
    | some text =>
      have absent := p.port_no_slash text found
      simp [Address.portText, this, absent, show byte '/' ≠ byte ':' by decide]
  have starts : Address.portText p.port = [] ∨
      (Address.portText p.port).head? = some (byte ':') := by
    cases p.port with
    | none => exact .inl rfl
    | some text => exact .inr rfl
  have cut := takeWhile_until front p.rooted
  have cut' := takeWhile_until p.no_colon starts
  rw [List.append_assoc] at cut
  apply ext_of
  · simp only [split, text, cut.1, cut'.1]
  · simp only [split, text, cut.1, cut'.2]
    cases p.port <;> rfl
  · simp only [split, text, cut.2]

theorem colon_not_slash : byte ':' ≠ byte '/' := by decide

theorem parseAddress_text (overflow : Int → Int32) (p : Parts) (out : Endpoint)
    (host : p.host ≠ []) (clear : p.port = none → byte ':' ∉ p.path) :
    parseAddress overflow p.text out =
      let port := settled out.useSsl
        (match p.port with | some text => atoi overflow (cStr text) | none => out.port)
      if port ≤ 0 ∨ 65535 < port then (false, { out with realaddr := p.host, port })
      else (true, { out with
        realaddr := p.host, path := if p.path = [] then out.path else p.path, port }) := by
  obtain ⟨host', port, path, no_colon, no_slash, port_no_slash, rooted⟩ := p
  have long : host'.length ≠ 0 := fun zero => host (List.eq_nil_of_length_eq_zero zero)
  cases port with
  | none =>
    have clear := clear rfl
    cases path with
    | nil =>
      have colon : host'.idxOf? (byte ':') = none := List.idxOf?_eq_none_iff.mpr no_colon
      have slash : host'.idxOf? (byte '/') = none := List.idxOf?_eq_none_iff.mpr no_slash
      simp [parseAddress, text, Address.portText, colon, slash, settled, host]
    | cons c more =>
      obtain rfl : c = byte '/' := by simpa using rooted
      have colon : (host' ++ byte '/' :: more).idxOf? (byte ':') = none := by
        rw [List.idxOf?_eq_none_iff, List.mem_append, not_or]
        exact ⟨no_colon, clear⟩
      have slash := idxOf?_first no_slash more
      simp [parseAddress, text, Address.portText, colon, slash, settled, long]
  | some port =>
    have absent := port_no_slash port rfl
    have colon := idxOf?_first no_colon (port ++ path)
    cases path with
    | nil =>
      have slash : (host' ++ byte ':' :: port).idxOf? (byte '/') = none := by
        rw [List.idxOf?_eq_none_iff]
        simp [no_slash, absent, colon_not_slash.symm]
      rw [List.append_nil] at colon
      simp [parseAddress, text, Address.portText, colon, slash, settled, long]
    | cons c more =>
      obtain rfl : c = byte '/' := by simpa using rooted
      have front : byte '/' ∉ host' ++ byte ':' :: port := by
        simp [no_slash, absent, colon_not_slash.symm]
      have slash := idxOf?_first front more
      rw [List.append_assoc, List.cons_append] at slash
      simp [parseAddress, text, Address.portText, colon, slash, settled, long]

theorem parseAddress_no_host (overflow : Int → Int32) (p : Parts) (out : Endpoint)
    (host : p.host = []) (some : p.text ≠ []) : (parseAddress overflow p.text out).1 = false := by
  obtain ⟨host', port, path, no_colon, no_slash, port_no_slash, rooted⟩ := p
  obtain rfl : host' = [] := host
  cases port with
  | some port =>
    have colon := idxOf?_first no_colon (port ++ path)
    rw [List.nil_append] at colon
    simp [parseAddress, text, Address.portText, colon]
  | none =>
    cases path with
    | nil => exact absurd rfl some
    | cons c more =>
      obtain rfl : c = byte '/' := by simpa using rooted
      have slash := idxOf?_first no_slash more
      rw [List.nil_append] at slash
      simp [parseAddress, text, Address.portText, slash]

theorem parseAddress_realaddr (overflow : Int → Int32) {s : Bytes} {semicolon slash : Nat}
    (colon : s.idxOf? (byte ':') = some (semicolon + 1))
    (first : s.idxOf? (byte '/') = some (slash + 1)) (out : Endpoint) :
    (parseAddress overflow s out).2.realaddr = s.take (semicolon + 1) := by
  have past : ¬ (some (semicolon + 1) = some 0 ∨ some (slash + 1) = some 0) := by simp
  simp only [parseAddress, colon, first, if_neg past]
  split_ifs <;> rfl

theorem parseAddress_late (overflow : Int → Int32) (p : Parts) (out : Endpoint)
    (host : p.host ≠ []) (port : p.port = none) (late : byte ':' ∈ p.path) :
    (parseAddress overflow p.text out).2.realaddr ≠ p.host := by
  obtain ⟨front, back, path, absent⟩ := List.eq_append_cons_of_mem late
  obtain ⟨more, rooted⟩ : ∃ more, front = byte '/' :: more := by
    have rooted := p.rooted
    rw [path] at rooted
    cases front with
    | nil => exact absurd rooted (by simp [colon_not_slash])
    | cons c more => exact ⟨more, by simpa using rooted⟩
  have long : 0 < p.host.length := List.length_pos_iff.mpr host
  have text : p.text = p.host ++ byte '/' :: (more ++ byte ':' :: back) := by
    simp [text, port, Address.portText, path, rooted]
  have colon : p.text.idxOf? (byte ':') = some (p.host.length + more.length + 1) := by
    have colon : byte ':' ∉ p.host ++ front := List.not_mem_append p.no_colon absent
    have first := idxOf?_first colon back
    rw [text, ← List.cons_append, ← rooted, ← List.append_assoc, first]
    simp [rooted, Nat.add_assoc]
  have slash : p.text.idxOf? (byte '/') = some (p.host.length - 1 + 1) := by
    rw [text, idxOf?_first p.no_slash, Nat.sub_add_cancel long]
  rw [parseAddress_realaddr overflow colon slash out]
  intro same
  have length := congrArg List.length same
  rw [List.length_take, text] at length
  simp only [List.length_append, List.length_cons] at length
  omega

def endpoint (useSsl : Bool) (p : Parts) : Endpoint :=
  ⟨p.host, p.path,
    match p.port with
    | some text => Int32.ofNat (value text)
    | none => if useSsl then 443 else 80,
    useSsl⟩

def Reads (overflow : Int → Int32) (p : Parts) (out : Endpoint) : Prop :=
  ((parseAddress overflow p.text out).1 = true ↔ p.WellFormed) ∧
    (p.WellFormed → (parseAddress overflow p.text out).2 = p.endpoint out.useSsl)

/-- Where it does: there is a text, no colon in the path alone, no port that is not one but
which `atoi` takes for one or for 0, and a path, or none before the call. -/
structure Regular (overflow : Int → Int32) (p : Parts) (path : Bytes) : Prop where
  some_text : p.text ≠ []
  no_late_colon : p.host ≠ [] → p.port = none → byte ':' ∉ p.path
  port_read : p.host ≠ [] → ∀ text ∈ p.port, IsPort text ∨
    (atoi overflow (cStr text)).toInt < 0 ∨ 65535 < (atoi overflow (cStr text)).toInt
  path_written : p.WellFormed → p.path = [] → path = []

theorem atoi_port (overflow : Int → Int32) {text : Bytes} (port : IsPort text) :
    atoi overflow (cStr text) = Int32.ofNat (value text) := by
  obtain ⟨some, digits, low, high⟩ := port
  have no_nul : (0 : UInt8) ∉ text := fun listed => by simpa [isDigit] using digits 0 listed
  have read := integer_digits some digits [] (by simp)
  rw [List.append_nil] at read
  rw [cStr_of_no_nul no_nul, atoi, read]
  exact narrow_small overflow (by omega)

theorem accepted_iff (useSsl : Bool) (port : Int32) :
    (settled useSsl port ≤ 0 ∨ 65535 < settled useSsl port) ↔
      port.toInt < 0 ∨ 65535 < port.toInt := by
  unfold settled
  by_cases zero : port = 0
  · subst zero
    cases useSsl <;> decide
  · have other : port.toInt ≠ 0 := fun same => zero (Int32.toInt_inj.mp same)
    rw [if_neg zero, Int32.le_iff_toInt_le, Int32.lt_iff_toInt_lt]
    change port.toInt ≤ 0 ∨ 65535 < port.toInt ↔ _
    omega

theorem reads_of_host (overflow : Int → Int32) (p : Parts) (out : Endpoint) (host : p.host ≠ [])
    (clear : p.port = none → byte ':' ∉ p.path) (zero : out.port = 0) :
    p.Reads overflow out ↔ (∀ text ∈ p.port, IsPort text ∨
        (atoi overflow (cStr text)).toInt < 0 ∨ 65535 < (atoi overflow (cStr text)).toInt) ∧
      (p.WellFormed → p.path = [] → out.path = []) := by
  have parsed := parseAddress_text overflow p out host clear
  have written : ∀ port, ((⟨p.host, if p.path = [] then out.path else p.path, port, out.useSsl⟩ :
      Endpoint) = ⟨p.host, p.path, port, out.useSsl⟩) ↔ (p.path = [] → out.path = []) := by
    intro port
    by_cases none : p.path = [] <;> simp [none]
  cases found : p.port with
  | none =>
    have formed : p.WellFormed := ⟨host, by simp [found]⟩
    have default : ¬ (settled out.useSsl out.port ≤ 0 ∨ 65535 < settled out.useSsl out.port) := by
      rw [accepted_iff, zero]
      decide
    have port : settled out.useSsl out.port = if out.useSsl then 443 else 80 := by
      simp [settled, zero]
    simp only [found, if_neg default] at parsed
    simp only [Reads, parsed, formed, endpoint, found, port, written, iff_self, true_and,
      forall_const]
    simp
  | some text =>
    simp only [found] at parsed
    have split := accepted_iff out.useSsl (atoi overflow (cStr text))
    by_cases port : IsPort text
    · have formed : p.WellFormed := ⟨host, by simpa [found] using port⟩
      have small : (Int32.ofNat (value text)).toInt = value text :=
        Int32.toInt_ofNat_of_lt (by have := port.2.2.2; omega)
      rw [atoi_port overflow port, small] at split
      have inside : ¬ (settled out.useSsl (Int32.ofNat (value text)) ≤ 0 ∨
          65535 < settled out.useSsl (Int32.ofNat (value text))) := by
        have := port.2.2
        rw [split]
        omega
      have other : Int32.ofNat (value text) ≠ 0 := by
        intro same
        rw [same] at small
        have := port.2.2.1
        change (0 : Int) = _ at small
        omega
      have given : settled out.useSsl (Int32.ofNat (value text)) = Int32.ofNat (value text) :=
        if_neg other
      rw [atoi_port overflow port, if_neg inside, given] at parsed
      simp only [Reads, parsed, formed, endpoint, found, written, iff_self, true_and, forall_const]
      simp [port]
    · have malformed : ¬ p.WellFormed := fun formed => port (formed.2 text found)
      simp only [Reads, malformed, parsed]
      by_cases outside : settled out.useSsl (atoi overflow (cStr text)) ≤ 0 ∨
          65535 < settled out.useSsl (atoi overflow (cStr text))
      · simp [outside, split.mp outside]
      · have inside := mt split.mpr outside
        simp [outside, port, not_or.mp inside]

theorem reads_iff (overflow : Int → Int32) (p : Parts) (out : Endpoint) (zero : out.port = 0) :
    p.Reads overflow out ↔ p.Regular overflow out.path := by
  by_cases host : p.host = []
  · have malformed : ¬ p.WellFormed := fun formed => formed.1 host
    by_cases none : p.text = []
    · have accepted : (parseAddress overflow p.text out).1 = true := by
        rw [none]
        obtain ⟨realaddr, path, port, useSsl⟩ := out
        obtain rfl : port = 0 := zero
        cases useSsl <;> rfl
      apply iff_of_false
      · exact fun reads => malformed (reads.1.mp accepted)
      · exact fun regular => regular.some_text none
    · have refused := parseAddress_no_host overflow p out host none
      apply iff_of_true
      · exact ⟨by simp [refused, malformed], fun formed => absurd formed malformed⟩
      · exact ⟨none, fun some => absurd host some, fun some => absurd host some,
          fun formed => absurd formed malformed⟩
  · have some : p.text ≠ [] := fun none => host (List.append_eq_nil_iff.mp none).1
    by_cases late : p.port = none ∧ byte ':' ∈ p.path
    · obtain ⟨port, late⟩ := late
      have formed : p.WellFormed := ⟨host, by simp [port]⟩
      have wrong := parseAddress_late overflow p out host port late
      apply iff_of_false
      · exact fun reads => wrong (congrArg Endpoint.realaddr (reads.2 formed))
      · exact fun regular => regular.no_late_colon host port late
    · have clear : p.port = none → byte ':' ∉ p.path := fun port listed => late ⟨port, listed⟩
      rw [reads_of_host overflow p out host clear zero]
      constructor
      · rintro ⟨port, path⟩
        exact ⟨some, fun _ => clear, fun _ => port, path⟩
      · intro regular
        exact ⟨regular.port_read host, regular.path_written⟩

end Parts

/-- Called with port 0 and without SSL, the parser accepts exactly the grammar, and then writes
the parts. -/
def AcceptsGrammar (overflow : Int → Int32) (s realaddr path : Bytes) : Prop :=
  ((parseServerAddress overflow s ⟨realaddr, path, 0, false⟩).1 = true ↔
      ∃ a : Address, a.text = s) ∧
    ∀ a : Address, a.text = s →
      (parseServerAddress overflow s ⟨realaddr, path, 0, false⟩).2 = a.endpoint

/-- A leading `ws://` or `wss://` and what follows; a `://` anywhere else is `none`. -/
def afterScheme (s : Bytes) : Option (Option Scheme × Bytes) :=
  if Address.schemeText (some .wss) <+: s then some (some .wss, s.drop 6)
  else if Address.schemeText (some .ws) <+: s then some (some .ws, s.drop 5)
  else if ofChars [':', '/', '/'] <:+: s then none
  else some (none, s)

theorem afterScheme_eq {s t : Bytes} {scheme : Option Scheme}
    (cut : afterScheme s = some (scheme, t)) : s = Address.schemeText scheme ++ t := by
  unfold afterScheme at cut
  split_ifs at cut with wss ws
  · obtain ⟨rest, rfl⟩ := wss
    cases cut
    rfl
  · obtain ⟨rest, rfl⟩ := ws
    cases cut
    rfl
  · cases cut
    rfl

theorem prefix_of_pieces {front back s : Bytes} (here : front <+: s)
    (next : back <+: s.drop front.length) : front ++ back <+: s := by
  obtain ⟨rest, rfl⟩ := here
  rw [List.drop_left] at next
  exact List.prefix_append_right_inj front |>.mpr next

theorem parseServerAddress_eq (overflow : Int → Int32) (s : Bytes) (out : Endpoint) :
    parseServerAddress overflow s out =
      match afterScheme s with
      | none => (false, out)
      | some (scheme, t) =>
        parseAddress overflow t { out with useSsl := out.useSsl || scheme = some .wss } := by
  unfold afterScheme parseServerAddress
  split_ifs with wss ws other
  · obtain ⟨rest, rfl⟩ := wss
    have place : find (ofChars [':', '/', '/']) (Address.schemeText (some .wss) ++ rest) = some 3 :=
      rfl
    have first : find (ofChars ['w', 's', 's']) (Address.schemeText (some .wss) ++ rest) = some 0 :=
      rfl
    simp [place, first]
  · obtain ⟨rest, rfl⟩ := ws
    have place : find (ofChars [':', '/', '/']) (Address.schemeText (some .ws) ++ rest) = some 2 :=
      rfl
    have first : find (ofChars ['w', 's']) (Address.schemeText (some .ws) ++ rest) = some 0 :=
      rfl
    simp [place, first]
  · cases place : find (ofChars [':', '/', '/']) s with
    | none => exact absurd other (find_eq_none.mp place)
    | some protocolPos =>
      have here := (find_eq_some.mp place).1
      have not_wss : ¬ (find (ofChars ['w', 's', 's']) s = some 0 ∧ protocolPos = 3) := by
        rintro ⟨first, rfl⟩
        exact wss (prefix_of_pieces (find_eq_zero.mp first) here)
      have not_ws : find (ofChars ['w', 's']) s ≠ some 0 ∨ protocolPos ≠ 2 := by
        by_contra both
        obtain ⟨first, rfl⟩ : find (ofChars ['w', 's']) s = some 0 ∧ protocolPos = 2 := by
          simpa only [not_or, not_not] using both
        exact ws (prefix_of_pieces (find_eq_zero.mp first) here)
      simp only [if_neg not_wss, if_pos not_ws]
  · have place : find (ofChars [':', '/', '/']) s = none := find_eq_none.mpr other
    simp [place]

namespace Address

def parts (a : Address) : Parts :=
  ⟨a.host, a.port, a.path, a.no_colon, a.no_slash, by
    intro text port listed
    have digit := (a.port_number text port).2.1 _ listed
    exact absurd digit (by decide), a.rooted⟩

theorem text_parts (a : Address) : a.text = schemeText a.scheme ++ a.parts.text := rfl

theorem parts_wellFormed (a : Address) : a.parts.WellFormed := ⟨a.host_ne_nil, a.port_number⟩

theorem exists_text_iff (scheme : Option Scheme) (p : Parts) :
    (∃ a : Address, a.scheme = scheme ∧ a.parts = p) ↔ p.WellFormed := by
  constructor
  · rintro ⟨a, -, rfl⟩
    exact a.parts_wellFormed
  · intro formed
    exact ⟨⟨scheme, p.host, p.port, p.path, formed.1, p.no_colon, p.no_slash, formed.2, p.rooted⟩,
      rfl, rfl⟩

theorem afterScheme_text (a : Address) : afterScheme a.text = some (a.scheme, a.parts.text) ∨
    (a.scheme = none ∧ afterScheme a.text = none) := by
  rw [text_parts]
  cases a.scheme with
  | some scheme => cases scheme <;> exact .inl rfl
  | none =>
    -- A host in front of `://` would have an empty port.
    have unschemed : ∀ scheme, ¬ schemeText (some scheme) <+: a.parts.text := by
      rintro scheme ⟨rest, same⟩
      have port : (Parts.split a.parts.text).port = some [] := by
        rw [← same]
        cases scheme <;> rfl
      rw [Parts.split_text] at port
      exact (a.port_number [] port).1 rfl
    change afterScheme a.parts.text = _ ∨ _
    by_cases other : ofChars [':', '/', '/'] <:+: a.parts.text
    · have cut : afterScheme a.parts.text = none := by
        rw [afterScheme, if_neg (unschemed .wss), if_neg (unschemed .ws), if_pos other]
      exact .inr ⟨rfl, cut⟩
    · have cut : afterScheme a.parts.text = some (none, a.parts.text) := by
        rw [afterScheme, if_neg (unschemed .wss), if_neg (unschemed .ws), if_neg other]
      exact .inl cut

theorem text_eq_iff (a : Address) (s : Bytes) : a.text = s ↔
    match afterScheme s with
    | some (scheme, t) => a.scheme = scheme ∧ a.parts = Parts.split t
    | none => a.scheme = none ∧ a.parts = Parts.split s := by
  constructor
  · rintro rfl
    rcases a.afterScheme_text with cut | ⟨scheme, cut⟩
    · simp only [cut, Parts.split_text, and_self]
    · simp only [cut]
      refine ⟨scheme, ?_⟩
      rw [text_parts, scheme]
      exact (Parts.split_text a.parts).symm
  · cases cut : afterScheme s with
    | some part =>
      rintro ⟨scheme, parts⟩
      rw [text_parts, scheme, parts, Parts.text_split]
      exact (afterScheme_eq cut).symm
    | none =>
      rintro ⟨scheme, parts⟩
      rw [text_parts, scheme, parts, Parts.text_split]
      rfl

theorem exists_text {s t : Bytes} {scheme : Option Scheme}
    (cut : afterScheme s = some (scheme, t)) :
    (∃ a : Address, a.text = s) ↔ (Parts.split t).WellFormed := by
  simp only [text_eq_iff, cut]
  exact exists_text_iff scheme (Parts.split t)

theorem endpoint_parts (a : Address) : a.endpoint = a.parts.endpoint (a.scheme = some .wss) := by
  simp [endpoint, Parts.endpoint, parts]

end Address

/-- Where the parser agrees with the grammar: after the scheme the text is regular, and a `://`
that follows neither `ws` nor `wss` at the front is not in the path of an address. -/
def WithinGrammar (overflow : Int → Int32) (s path : Bytes) : Prop :=
  match afterScheme s with
  | some (_, t) => (Parts.split t).Regular overflow path
  | none => ¬ (Parts.split s).WellFormed

/-- The parser accepts its grammar exactly within these bounds. -/
theorem accepts_grammar_iff (overflow : Int → Int32) (s realaddr path : Bytes) :
    AcceptsGrammar overflow s realaddr path ↔ WithinGrammar overflow s path := by
  unfold AcceptsGrammar WithinGrammar
  rw [parseServerAddress_eq]
  cases cut : afterScheme s with
  | none =>
    have some_iff : (∃ a : Address, a.text = s) ↔ (Parts.split s).WellFormed := by
      simp only [Address.text_eq_iff, cut]
      exact Address.exists_text_iff none (Parts.split s)
    simp only [Bool.false_eq_true, some_iff, false_iff, and_iff_left_iff_imp]
    intro malformed a text
    exact absurd (some_iff.mp ⟨a, text⟩) malformed
  | some part =>
    obtain ⟨scheme, t⟩ := part
    have read := (Parts.split t).reads_iff overflow
      ⟨realaddr, path, 0, scheme = some .wss⟩ rfl
    rw [Parts.Reads, Parts.text_split] at read
    simp only [Address.exists_text cut, Bool.false_or, ← read]
    apply and_congr_right
    rintro -
    constructor
    · intro written formed
      obtain ⟨a, text⟩ := (Address.exists_text cut).mpr formed
      have parts := (a.text_eq_iff s).mp text
      simp only [cut] at parts
      rw [written a text, a.endpoint_parts, parts.1, parts.2]
    · intro written a text
      have parts := (a.text_eq_iff s).mp text
      simp only [cut] at parts
      rw [written (parts.2 ▸ a.parts_wellFormed), a.endpoint_parts, parts.1, parts.2]

/-- In `localhost/a:80` the colon is in the path, and `localhost/a` is taken for the host. -/
theorem colon_in_path :
    ¬ AcceptsGrammar (fun _ => -1) (ofChars ['l', 'o', 'c', 'a', 'l', 'h', 'o', 's', 't', '/', 'a',
      ':', '8', '0']) [] [] := by
  rintro ⟨-, written⟩
  have wrong := written ⟨none, ofChars ['l', 'o', 'c', 'a', 'l', 'h', 'o', 's', 't'], none,
    ofChars ['/', 'a', ':', '8', '0'], by decide, by decide, by decide, by simp, by decide⟩
    (by decide)
  revert wrong
  decide

end HumbleNet
