import HumbleNet.Lib.StdMap

/-! `BidirectionalMap` (`humblenet_utils.h`): two maps that are written together. -/
namespace HumbleNet

structure BidirectionalMap (A B : Type) where
  listA : StdMap A B
  listB : StdMap B A

namespace BidirectionalMap

variable {A B : Type}

def empty : BidirectionalMap A B := ⟨∅, ∅⟩

variable [DecidableEq A] [DecidableEq B]

def insert (a : A) (b : B) (m : BidirectionalMap A B) : BidirectionalMap A B :=
  ⟨StdMap.emplace a b m.listA, StdMap.emplace b a m.listB⟩

def eraseA (a : A) (m : BidirectionalMap A B) : BidirectionalMap A B :=
  match m.listA.lookup a with
  | some b => ⟨m.listA.erase a, m.listB.erase b⟩
  | none => m

def eraseB (b : B) (m : BidirectionalMap A B) : BidirectionalMap A B :=
  match m.listB.lookup b with
  | some a => ⟨m.listA.erase a, m.listB.erase b⟩
  | none => m

theorem eraseB_of_absent {b : B} {m : BidirectionalMap A B} (absent : b ∉ m.listB) :
    m.eraseB b = m := by
  unfold eraseB
  rw [AList.lookup_eq_none.mpr absent]

theorem lookup_listA_insert (a x : A) (b : B) (m : BidirectionalMap A B) :
    (m.insert a b).listA.lookup x =
      if x = a then some ((m.listA.lookup a).getD b) else m.listA.lookup x :=
  StdMap.lookup_emplace a x b m.listA

theorem lookup_listB_insert (a : A) (b y : B) (m : BidirectionalMap A B) :
    (m.insert a b).listB.lookup y =
      if y = b then some ((m.listB.lookup b).getD a) else m.listB.lookup y :=
  StdMap.lookup_emplace b y a m.listB

theorem mem_of_insert {a : A} {b y : B} {m : BidirectionalMap A B}
    (h : y ∈ (m.insert a b).listB) : y = b ∨ y ∈ m.listB := by
  obtain ⟨x, hx⟩ := StdMap.mem_iff_lookup.mp h
  rw [lookup_listB_insert] at hx
  split at hx
  · exact Or.inl ‹_›
  · exact Or.inr (StdMap.mem_iff_lookup.mpr ⟨x, hx⟩)

/-- Every entry of the first map has its entry in the second. -/
def Covered (m : BidirectionalMap A B) : Prop :=
  ∀ a b, m.listA.lookup a = some b → m.listB.lookup b = some a

theorem covered_empty : Covered (empty : BidirectionalMap A B) := by
  intro a b h
  simp only [empty, AList.lookup_empty, reduceCtorEq] at h

theorem Covered.insert {m : BidirectionalMap A B} (covered : m.Covered) (a : A) (b : B)
    (new : m.listB.lookup b = none) : (m.insert a b).Covered := by
  intro x y h
  rw [lookup_listA_insert] at h
  rw [lookup_listB_insert]
  have old : ∀ x, m.listA.lookup x = some y → y ≠ b := by
    rintro x hx rfl
    rw [covered x y hx] at new
    cases new
  by_cases hx : x = a
  · rw [if_pos hx] at h
    cases ha : m.listA.lookup a with
    | none =>
      have eq : b = y := by simpa only [ha, Option.getD_none, Option.some.injEq] using h
      rw [if_pos eq.symm, new, hx, Option.getD_none]
    | some w =>
      have eq : w = y := by simpa only [ha, Option.getD_some, Option.some.injEq] using h
      rw [eq] at ha
      rw [if_neg (old a ha), covered a y ha, hx]
  · rw [if_neg hx] at h
    rw [if_neg (old x h), covered x y h]

theorem Covered.erase {m : BidirectionalMap A B} (covered : m.Covered) {a : A} {b : B}
    (entry : m.listB.lookup b = some a) :
    (⟨m.listA.erase a, m.listB.erase b⟩ : BidirectionalMap A B).Covered := by
  intro x y h
  rw [StdMap.lookup_erase_if] at h
  rw [StdMap.lookup_erase_if]
  by_cases hx : x = a
  · rw [if_pos hx] at h
    cases h
  · rw [if_neg hx] at h
    have hy := covered x y h
    rw [if_neg, hy]
    rintro rfl
    rw [hy] at entry
    cases entry
    exact hx rfl

theorem Covered.eraseB {m : BidirectionalMap A B} (covered : m.Covered) (b : B) :
    (m.eraseB b).Covered := by
  unfold BidirectionalMap.eraseB
  split
  · exact covered.erase ‹_›
  · exact covered

theorem Covered.eraseA {m : BidirectionalMap A B} (covered : m.Covered) (a : A) :
    (m.eraseA a).Covered := by
  unfold BidirectionalMap.eraseA
  split
  · exact covered.erase (covered _ _ ‹_›)
  · exact covered

theorem lookup_of_eraseA {m : BidirectionalMap A B} {a x : A} {y : B}
    (h : (m.eraseA a).listA.lookup x = some y) : m.listA.lookup x = some y := by
  unfold BidirectionalMap.eraseA at h
  split at h
  · rw [StdMap.lookup_erase_if] at h
    split at h
    · cases h
    · exact h
  · exact h

theorem lookup_of_eraseB {m : BidirectionalMap A B} {b y : B} {x : A}
    (h : (m.eraseB b).listA.lookup x = some y) : m.listA.lookup x = some y := by
  unfold BidirectionalMap.eraseB at h
  split at h
  · rw [StdMap.lookup_erase_if] at h
    split at h
    · cases h
    · exact h
  · exact h

theorem mem_of_eraseA {m : BidirectionalMap A B} {a : A} {y : B}
    (h : y ∈ (m.eraseA a).listB) : y ∈ m.listB := by
  unfold BidirectionalMap.eraseA at h
  split at h
  · exact (AList.mem_erase.mp h).2
  · exact h

theorem mem_of_eraseB {m : BidirectionalMap A B} {b y : B}
    (h : y ∈ (m.eraseB b).listB) : y ∈ m.listB ∧ y ≠ b := by
  unfold BidirectionalMap.eraseB at h
  split at h
  · exact (AList.mem_erase.mp h).symm
  · rename_i none
    refine ⟨h, ?_⟩
    rintro rfl
    exact AList.lookup_eq_none.mp none h

theorem Covered.lookup_eraseB {m : BidirectionalMap A B} (covered : m.Covered) (b : B) (x : A) :
    (m.eraseB b).listA.lookup x ≠ some b := by
  intro h
  have entry := covered.eraseB b x b h
  exact (mem_of_eraseB (StdMap.mem_iff_lookup.mpr ⟨x, entry⟩)).2 rfl

theorem lookup_listB_eraseB {m : BidirectionalMap A B} {b y : B} (other : y ≠ b) :
    (m.eraseB b).listB.lookup y = m.listB.lookup y := by
  unfold BidirectionalMap.eraseB
  split
  · exact AList.lookup_erase_ne other
  · rfl

def Matched (m : BidirectionalMap A B) : Prop :=
  ∀ b a, m.listB.lookup b = some a → m.listA.lookup a = some b

theorem matched_empty : Matched (empty : BidirectionalMap A B) := by
  intro b a h
  simp only [empty, AList.lookup_empty, reduceCtorEq] at h

theorem Matched.insert {m : BidirectionalMap A B} (matched : m.Matched) {a : A} {b : B}
    (free : m.listA.lookup a = none) (new : m.listB.lookup b = none) :
    (m.insert a b).Matched := by
  intro y x h
  rw [lookup_listB_insert] at h
  rw [lookup_listA_insert]
  by_cases eq : y = b
  · rw [if_pos eq, new, Option.getD_none] at h
    rw [if_pos (Option.some.inj h).symm, free, Option.getD_none, eq]
  · rw [if_neg eq] at h
    have before := matched y x h
    have apart : x ≠ a := by
      rintro rfl
      rw [free] at before
      cases before
    rw [if_neg apart]
    exact before

theorem Matched.eraseB {m : BidirectionalMap A B} (matched : m.Matched) (b : B) :
    (m.eraseB b).Matched := by
  intro y x h
  have other : y ≠ b := (mem_of_eraseB (StdMap.mem_iff_lookup.mpr ⟨x, h⟩)).2
  rw [lookup_listB_eraseB other] at h
  have entry := matched y x h
  unfold BidirectionalMap.eraseB
  split
  · rename_i a there
    have apart : x ≠ a := by
      rintro rfl
      cases (matched b x there).symm.trans entry
      exact other rfl
    exact (AList.lookup_erase_ne apart).trans entry
  · exact entry

end BidirectionalMap

end HumbleNet
