import Mathlib.Algebra.Group.Nat.Defs
import Mathlib.Data.List.TakeWhile

/-! Searching in texts: the first place of a character or of a pattern, and what stands around
it. -/
namespace Text

def byte (c : Char) : UInt8 := UInt8.ofNat c.toNat

def ofChars (cs : List Char) : List UInt8 := cs.map byte

theorem ofChars_avoids {p : UInt8 → Bool} {cs : List Char}
    (avoids : cs.all (fun c => !p (byte c)) = true) : ∀ c ∈ ofChars cs, p c = false := by
  simpa [ofChars] using avoids

variable {α : Type} [DecidableEq α]

def find (pattern : List α) : List α → Option Nat
  | [] => if pattern = [] then some 0 else none
  | c :: s => if pattern <+: c :: s then some 0 else (find pattern s).map (· + 1)

@[simp] theorem find_eq_zero {pattern s : List α} : find pattern s = some 0 ↔ pattern <+: s := by
  cases s with
  | nil => simp [find]
  | cons c s =>
    by_cases first : pattern <+: c :: s <;> simp [find, first]

theorem find_eq_none {pattern s : List α} : find pattern s = none ↔ ¬ pattern <:+: s := by
  induction s with
  | nil => simp [find]
  | cons c s ih =>
    by_cases first : pattern <+: c :: s
    · simp [find, first, first.isInfix]
    · simp [find, first, List.infix_cons_iff, ih]

theorem find_eq_some {pattern s : List α} {i : Nat} : find pattern s = some i ↔
    pattern <+: s.drop i ∧ (∀ j < i, ¬ pattern <+: s.drop j) ∧ i ≤ s.length := by
  induction s generalizing i with
  | nil =>
    cases i <;> simp [find]
  | cons c s ih =>
    by_cases first : pattern <+: c :: s
    · cases i with
      | zero => simp [find, first]
      | succ i =>
        constructor
        · intro found
          simp [find, first] at found
        · rintro ⟨-, none, -⟩
          exact absurd first (none 0 (Nat.succ_pos i))
    · cases i with
      | zero => simp [find, first]
      | succ i =>
        have later : (∀ j < i + 1, ¬ pattern <+: (c :: s).drop j) ↔
            ∀ j < i, ¬ pattern <+: s.drop j := by
          rw [Nat.forall_lt_succ_left]
          exact and_iff_right first
        rw [later]
        simp [find, first, ih]

theorem idxOf?_first {c : α} {front : List α} (absent : c ∉ front) (back : List α) :
    (front ++ c :: back).idxOf? c = some front.length := by
  induction front with
  | nil => simp [List.idxOf?_cons]
  | cons d front ih =>
    obtain ⟨other, absent⟩ : c ≠ d ∧ c ∉ front := by simpa using absent
    simp [List.idxOf?_cons, Ne.symm other, ih absent]

theorem not_mem_takeWhile (c : α) (s : List α) : c ∉ s.takeWhile (· ≠ c) := by
  intro listed
  simpa using List.mem_takeWhile_imp listed

theorem dropWhile_ne (c : α) (s : List α) :
    s.dropWhile (· ≠ c) = [] ∨ ∃ back, s.dropWhile (· ≠ c) = c :: back := by
  induction s with
  | nil => exact .inl rfl
  | cons d s ih =>
    by_cases here : d = c
    · exact .inr ⟨s, by simp [here]⟩
    · simpa [here] using ih

theorem takeWhile_until {c : α} {front back : List α} (absent : c ∉ front)
    (starts : back = [] ∨ back.head? = some c) :
    (front ++ back).takeWhile (· ≠ c) = front ∧ (front ++ back).dropWhile (· ≠ c) = back := by
  induction front with
  | nil =>
    cases back with
    | nil => exact ⟨rfl, rfl⟩
    | cons d back => simp_all
  | cons d front ih =>
    obtain ⟨other, absent⟩ : c ≠ d ∧ c ∉ front := by simpa using absent
    simpa [Ne.symm other] using ih absent

def findFrom (c : α) (pos : Nat) (s : List α) : Option Nat :=
  ((s.drop pos).idxOf? c).map (· + pos)

/-- A text cut at the first place of a character. -/
def cut (c : α) (s : List α) : Option (List α × List α) :=
  match s.dropWhile (· ≠ c) with
  | [] => none
  | _ :: back => some (s.takeWhile (· ≠ c), back)

theorem cut_cases (c : α) (s : List α) : (cut c s = none ∧ c ∉ s) ∨
    ∃ front back, cut c s = some (front, back) ∧ s = front ++ c :: back ∧ c ∉ front := by
  rcases dropWhile_ne c s with none | ⟨back, left⟩
  · refine .inl ⟨by rw [cut, none], fun listed => ?_⟩
    simpa using List.dropWhile_eq_nil_iff.mp none c listed
  · refine .inr ⟨s.takeWhile (· ≠ c), back, by rw [cut, left], ?_, not_mem_takeWhile c s⟩
    rw [← left, List.takeWhile_append_dropWhile]

theorem findFrom_cases (c : α) (pos : Nat) (s : List α) :
    (cut c (s.drop pos) = none ∧ findFrom c pos s = none) ∨
      ∃ front back i, cut c (s.drop pos) = some (front, back) ∧ findFrom c pos s = some i ∧
        (s.drop pos).take (i - pos) = front ∧ s.drop (i + 1) = back := by
  rcases cut_cases c (s.drop pos) with ⟨none, absent⟩ | ⟨front, back, found, text, absent⟩
  · refine .inl ⟨none, ?_⟩
    rw [findFrom, List.idxOf?_eq_none_iff.mpr absent, Option.map_none]
  · refine .inr ⟨front, back, front.length + pos, found, ?_, ?_, ?_⟩
    · rw [findFrom, text, idxOf?_first absent, Option.map_some]
    · rw [Nat.add_sub_cancel, text, List.take_left]
    · have past : front.length + pos + 1 = pos + (front.length + 1) := by omega
      rw [past, ← List.drop_drop, text, ← List.drop_drop, List.drop_left, List.drop_one,
        List.tail_cons]

end Text
