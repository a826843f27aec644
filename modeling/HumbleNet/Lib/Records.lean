import Mathlib.Data.List.Basic

/-! Records that lie one after the other in a stream. A codec writes a record, and finds
the record at the front of a buffer once all of it is there; every buffer is then some
records and a rest that does not hold a whole one. -/

structure Codec (α ρ : Type) where
  encode : ρ → List α
  first : List α → Option ρ
  encode_ne_nil : ∀ r, encode r ≠ []
  first_encode : ∀ r more, first (encode r ++ more) = some r
  encode_prefix : ∀ {b r}, first b = some r → encode r <+: b

namespace Codec

variable {α ρ : Type} (C : Codec α ρ)

def encodeAll (rs : List ρ) : List α := rs.flatMap C.encode

@[simp] theorem encodeAll_nil : C.encodeAll [] = [] := rfl

@[simp] theorem encodeAll_cons (r : ρ) (rs : List ρ) :
    C.encodeAll (r :: rs) = C.encode r ++ C.encodeAll rs := List.flatMap_cons

@[simp] theorem encodeAll_append (rs ss : List ρ) :
    C.encodeAll (rs ++ ss) = C.encodeAll rs ++ C.encodeAll ss := List.flatMap_append

theorem length_le_encodeAll (rs : List ρ) : rs.length ≤ (C.encodeAll rs).length := by
  induction rs with
  | nil => exact Nat.le_refl 0
  | cons r rs ih =>
    have pos : 0 < (C.encode r).length := List.length_pos_iff.mpr (C.encode_ne_nil r)
    rw [encodeAll_cons, List.length_append, List.length_cons]
    omega

/-- At most `n` records off the front, and what is left. -/
def cut : Nat → List α → List ρ × List α
  | 0, b => ([], b)
  | n + 1, b =>
    match C.first b with
    | none => ([], b)
    | some r =>
      let (rs, rest) := cut n (b.drop (C.encode r).length)
      (r :: rs, rest)

def records (b : List α) : List ρ := (C.cut b.length b).1

def rest (b : List α) : List α := (C.cut b.length b).2

theorem cut_encodeAll {rs : List ρ} {tail : List α} (last : C.first tail = none) {n : Nat}
    (enough : rs.length ≤ n) : C.cut n (C.encodeAll rs ++ tail) = (rs, tail) := by
  induction rs generalizing n with
  | nil =>
    rw [encodeAll_nil, List.nil_append]
    cases n with
    | zero => rfl
    | succ n => rw [cut, last]
  | cons r rs ih =>
    obtain ⟨n, rfl⟩ : ∃ m, n = m + 1 := ⟨n - 1, by rw [List.length_cons] at enough; omega⟩
    rw [encodeAll_cons, List.append_assoc, cut, C.first_encode]
    simp only [List.drop_left, ih (Nat.le_of_succ_le_succ enough)]

theorem exists_cut (b : List α) :
    ∃ rs tail, b = C.encodeAll rs ++ tail ∧ C.first tail = none := by
  induction hn : b.length using Nat.strongRecOn generalizing b with
  | ind n ih =>
    cases front : C.first b with
    | none => exact ⟨[], b, rfl, front⟩
    | some r =>
      obtain ⟨more, rfl⟩ := C.encode_prefix front
      have pos : 0 < (C.encode r).length := List.length_pos_iff.mpr (C.encode_ne_nil r)
      have shorter : more.length < n := by rw [← hn, List.length_append]; omega
      obtain ⟨rs, tail, rfl, last⟩ := ih _ shorter more rfl
      exact ⟨r :: rs, tail, by rw [encodeAll_cons, List.append_assoc], last⟩

theorem cut_eq {rs : List ρ} {tail : List α} (last : C.first tail = none) :
    C.records (C.encodeAll rs ++ tail) = rs ∧ C.rest (C.encodeAll rs ++ tail) = tail := by
  have enough : rs.length ≤ (C.encodeAll rs ++ tail).length := by
    have := C.length_le_encodeAll rs
    rw [List.length_append]
    omega
  unfold records rest
  rw [C.cut_encodeAll last enough]
  exact ⟨rfl, rfl⟩

theorem encodeAll_records (b : List α) : C.encodeAll (C.records b) ++ C.rest b = b := by
  obtain ⟨rs, tail, rfl, last⟩ := C.exists_cut b
  rw [(C.cut_eq last).1, (C.cut_eq last).2]

theorem records_encodeAll_append (rs : List ρ) (b : List α) :
    C.records (C.encodeAll rs ++ b) = rs ++ C.records b := by
  obtain ⟨ss, tail, rfl, last⟩ := C.exists_cut b
  rw [← List.append_assoc, ← encodeAll_append, (C.cut_eq last).1, (C.cut_eq last).1]

@[simp] theorem records_encodeAll (rs : List ρ) : C.records (C.encodeAll rs) = rs := by
  have none_here : C.first [] = none := by
    cases front : C.first [] with
    | none => rfl
    | some r => exact absurd (List.prefix_nil.mp (C.encode_prefix front)) (C.encode_ne_nil r)
  have eq : C.records (C.encodeAll rs ++ []) = rs := (C.cut_eq none_here).1
  rwa [List.append_nil] at eq

theorem records_of_first_none {b : List α} (h : C.first b = none) : C.records b = [] := by
  have eq : C.records (C.encodeAll [] ++ b) = [] := (C.cut_eq h).1
  exact eq

end Codec
