import HumbleNet.Lib.Text

/-! Decimal numerals in byte strings, as the C library reads and prints them. -/
namespace Numerals

def isSpace (c : UInt8) : Bool := c == 32 || (9 ≤ c && c ≤ 13)

def isDigit (c : UInt8) : Bool := 48 ≤ c && c ≤ 57

def value (digits : List UInt8) : Nat := digits.foldl (fun v d => 10 * v + (d.toNat - 48)) 0

def sign : List UInt8 → Bool × List UInt8
  | [] => (false, [])
  | c :: s => if c = 45 then (true, s) else if c = 43 then (false, s) else (false, c :: s)

/-- What `strtol` reads in base ten, without its bounds, and what follows: spaces, a sign, and
the longest string of digits. It is `none` where there is no digit. -/
def integer (s : List UInt8) : Option (Int × List UInt8) :=
  let (negative, s) := sign (s.dropWhile isSpace)
  let digits := s.takeWhile isDigit
  if digits = [] then none
  else some (if negative then -(value digits : Int) else value digits, s.dropWhile isDigit)

/-- A number read as an `int`. The standard leaves it open what one outside is turned into. -/
def narrow (overflow : Int → Int32) (v : Int) : Int32 :=
  if -2147483648 ≤ v ∧ v ≤ 2147483647 then Int32.ofInt v else overflow v

def atoi (overflow : Int → Int32) (s : List UInt8) : Int32 :=
  match integer s with
  | none => 0
  | some (v, _) => narrow overflow v

def unsigned (n : Nat) : List UInt8 := Text.ofChars (Nat.toDigits 10 n)

theorem digit_of_char {c : Char} (digit : c.isDigit = true) :
    (Text.byte c).toNat = c.toNat ∧ isDigit (Text.byte c) = true := by
  have range : 48 ≤ c.toNat ∧ c.toNat ≤ 57 := by
    simpa [Char.isDigit, UInt32.le_iff_toNat_le] using digit
  have same : (Text.byte c).toNat = c.toNat := by
    rw [Text.byte, UInt8.toNat_ofNat']
    omega
  constructor
  · exact same
  · simp [isDigit, UInt8.le_iff_toNat_le, same, range]

@[simp] theorem isDigit_unsigned (n : Nat) : ∀ d ∈ unsigned n, isDigit d = true := by
  intro d printed
  obtain ⟨c, listed, rfl⟩ := List.mem_map.mp printed
  exact (digit_of_char (Nat.isDigit_of_mem_toDigits (by omega) (by omega) listed)).2

theorem nul_not_mem_unsigned (n : Nat) : 0 ∉ unsigned n :=
  fun printed => absurd (isDigit_unsigned n 0 printed) (by decide)

theorem unsigned_ne_nil (n : Nat) : unsigned n ≠ [] := by
  simp [unsigned, Text.ofChars, Nat.toDigits_ne_nil]

theorem unsigned_length {n k : Nat} (some : 0 < k) : (unsigned n).length ≤ k ↔ n < 10 ^ k := by
  rw [unsigned, Text.ofChars, List.length_map]
  exact Nat.length_toDigits_le_iff (by omega) some

theorem value_of_chars {cs : List Char} (digits : ∀ c ∈ cs, c.isDigit = true) (v : Nat) :
    (Text.ofChars cs).foldl (fun v d => 10 * v + (d.toNat - 48)) v =
      Nat.ofDigitChars 10 cs v := by
  induction cs generalizing v with
  | nil => rfl
  | cons c cs ih =>
    have same := (digit_of_char (digits c List.mem_cons_self)).1
    simp only [Text.ofChars, List.map_cons, List.foldl_cons, same, Nat.ofDigitChars_cons]
    exact ih (fun d listed => digits d (List.mem_cons_of_mem _ listed)) _

@[simp] theorem value_unsigned (n : Nat) : value (unsigned n) = n := by
  have digits : ∀ c ∈ Nat.toDigits 10 n, c.isDigit = true :=
    fun c listed => Nat.isDigit_of_mem_toDigits (by omega) (by omega) listed
  have read := value_of_chars digits 0
  rw [Nat.ofDigitChars_ten_toDigits] at read
  exact read

theorem isSpace_of_isDigit {c : UInt8} (digit : isDigit c = true) : isSpace c = false := by
  simp [isDigit, isSpace, UInt8.le_iff_toNat_le, ← UInt8.toNat_inj] at digit ⊢
  omega

theorem isSpace_unsigned (n : Nat) : ∀ d ∈ unsigned n, isSpace d = false :=
  fun d printed => isSpace_of_isDigit (isDigit_unsigned n d printed)

theorem sign_of_isDigit {c : UInt8} (s : List UInt8) (digit : isDigit c = true) :
    sign (c :: s) = (false, c :: s) := by
  have minus : c ≠ 45 := fun same => by simp [same, isDigit] at digit
  have plus : c ≠ 43 := fun same => by simp [same, isDigit] at digit
  simp [sign, minus, plus]

theorem takeWhile_digits {digits rest : List UInt8} (all : ∀ d ∈ digits, isDigit d = true)
    (ends : ∀ d ∈ rest.head?, isDigit d = false) :
    (digits ++ rest).takeWhile isDigit = digits ∧ (digits ++ rest).dropWhile isDigit = rest := by
  induction digits with
  | nil =>
    cases rest with
    | nil => exact ⟨rfl, rfl⟩
    | cons d rest => simp [ends d rfl]
  | cons d digits ih =>
    have rest := ih fun e listed => all e (List.mem_cons_of_mem _ listed)
    simp [all d List.mem_cons_self, rest]

theorem integer_space {c : UInt8} (space : isSpace c = true) (s : List UInt8) :
    integer (c :: s) = integer s := by
  rw [integer, List.dropWhile_cons_of_pos space]
  rfl

theorem narrow_small (overflow : Int → Int32) {n : Nat} (small : n < 2 ^ 31) :
    narrow overflow n = Int32.ofNat n := by
  have range : -2147483648 ≤ (n : Int) ∧ (n : Int) ≤ 2147483647 := by omega
  rw [narrow, if_pos range]
  rfl

theorem integer_digits {digits : List UInt8} (some : digits ≠ [])
    (all : ∀ d ∈ digits, isDigit d = true) (rest : List UInt8)
    (ends : ∀ d ∈ rest.head?, isDigit d = false) :
    integer (digits ++ rest) = .some (value digits, rest) := by
  obtain ⟨front, back⟩ := takeWhile_digits all ends
  cases digits with
  | nil => exact absurd rfl some
  | cons d digits =>
    have digit := all d List.mem_cons_self
    rw [integer, List.cons_append, List.dropWhile_cons_of_neg (by simp [isSpace_of_isDigit digit]),
      sign_of_isDigit _ digit]
    rw [List.cons_append] at front back
    simp [front, back]

theorem integer_unsigned (n : Nat) (rest : List UInt8)
    (ends : ∀ d ∈ rest.head?, isDigit d = false) :
    integer (unsigned n ++ rest) = some ((n : Int), rest) := by
  simpa using integer_digits (unsigned_ne_nil n) (isDigit_unsigned n) rest ends

end Numerals
