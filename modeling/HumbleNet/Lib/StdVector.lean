import Mathlib.Data.List.Perm.Basic

/-! `std::vector` as far as pointers into it can tell: the elements, how many the allocation can
hold, and which allocation it is. -/

@[ext] structure StdVector (α : Type) where
  elems : List α
  capacity : Nat
  block : Nat
  fits : elems.length ≤ capacity

namespace StdVector

variable {α β : Type}

/-- `push_back`: a full vector moves to another allocation. `grow` is the implementation's. -/
def pushBack (grow : Nat → Nat) (a : α) (v : StdVector α) : StdVector α :=
  if room : v.elems.length < v.capacity then
    { v with
      elems := v.elems ++ [a]
      fits := by
        rw [List.length_append, List.length_singleton]
        exact room }
  else
    { elems := v.elems ++ [a]
      capacity := max (grow v.capacity) (v.elems.length + 1)
      block := v.block + 1
      fits := by
        rw [List.length_append, List.length_singleton]
        exact Nat.le_max_right _ _ }

/-- What a pointer to place `i` of an allocation points to, if that is a current element. -/
def deref (block i : Nat) (v : StdVector α) : Option α :=
  if v.block = block then v.elems[i]? else none

def update (f : List α → List α) (same : ∀ l, (f l).length = l.length) (v : StdVector α) :
    StdVector α :=
  { v with
    elems := f v.elems
    fits := by
      rw [same]
      exact v.fits }

/-- `memmove(&v[i], &v.back(), ..)` and `pop_back()`. -/
def moveLastOver (i : Nat) (v : StdVector α) : StdVector α :=
  match last : v.elems.getLast? with
  | none => v
  | some a =>
    { v with
      elems := (v.elems.set i a).dropLast
      fits := by
        rw [List.length_dropLast, List.length_set]
        exact Nat.le_trans (Nat.sub_le _ _) v.fits }

@[simp] theorem pushBack_elems (grow : Nat → Nat) (a : α) (v : StdVector α) :
    (v.pushBack grow a).elems = v.elems ++ [a] := by
  unfold pushBack
  split <;> rfl

@[simp] theorem update_elems (f : List α → List α) (same : ∀ l, (f l).length = l.length)
    (v : StdVector α) : (v.update f same).elems = f v.elems := rfl

theorem moveLastOver_elems (i : Nat) (v : StdVector α) : (v.moveLastOver i).elems =
    v.elems.getLast?.elim [] fun a => (v.elems.set i a).dropLast := by
  unfold moveLastOver
  split
  · rename_i none
    rw [none]
    exact List.getLast?_eq_none_iff.mp none
  · rename_i a last
    rw [last]
    rfl

theorem moveLastOver_same (i : Nat) (v : StdVector α) :
    (v.moveLastOver i).block = v.block ∧ (v.moveLastOver i).capacity = v.capacity := by
  unfold moveLastOver
  split <;> exact ⟨rfl, rfl⟩

theorem moveLastOver_perm {i : Nat} (v : StdVector α) (inside : i < v.elems.length) :
    (v.moveLastOver i).elems.Perm (v.elems.eraseIdx i) := by
  rcases List.eq_nil_or_concat v.elems with none | ⟨front, a, list⟩
  · simp [none] at inside
  · rw [List.concat_eq_append] at list
    rw [moveLastOver_elems, list, List.getLast?_concat]
    change ((front ++ [a]).set i a).dropLast.Perm _
    by_cases within : i < front.length
    · rw [List.set_append_left _ _ within, List.dropLast_concat,
        List.eraseIdx_append_of_lt_length within]
      exact (List.set_perm_cons_eraseIdx within a).trans
        (List.perm_append_singleton a (front.eraseIdx i)).symm
    · have here : i = front.length := by
        rw [list, List.length_append, List.length_singleton] at inside
        omega
      subst here
      simp [List.eraseIdx_append_of_length_le]

theorem mem_take_moveLastOver {j n : Nat} {v : StdVector α} {a b : α}
    (here : v.elems[j]? = some b) (other : b ≠ a) (mem : a ∈ v.elems.take n) :
    a ∈ (v.moveLastOver j).elems.take n := by
  obtain ⟨p, inside, eq⟩ := List.mem_take_iff_getElem.mp mem
  obtain ⟨short, _⟩ := List.getElem?_eq_some_iff.mp here
  have its : v.elems[p]? = some a := List.getElem?_eq_some_iff.mpr ⟨by omega, eq⟩
  have apart : p ≠ j := by
    rintro rfl
    exact other (Option.some.inj (here.symm.trans its))
  obtain ⟨z, last⟩ : ∃ z, v.elems.getLast? = some z := by
    cases none : v.elems.getLast? with
    | none =>
      rw [List.getLast?_eq_none_iff.mp none] at short
      exact absurd short (Nat.not_lt_zero _)
    | some z => exact ⟨z, rfl⟩
  have place : ∀ q, q < v.elems.length - 1 →
      (v.moveLastOver j).elems[q]? = if j = q then some z else v.elems[q]? := by
    intro q before
    rw [moveLastOver_elems, last]
    change ((v.elems.set j z).dropLast)[q]? = _
    rw [List.getElem?_dropLast, List.length_set, if_pos before, List.getElem?_set, if_pos short]
  have found : ∃ q, q ≤ p ∧ (v.moveLastOver j).elems[q]? = some a := by
    by_cases end_ : p < v.elems.length - 1
    · exact ⟨p, Nat.le_refl _, by rw [place p end_, if_neg apart.symm, its]⟩
    · have final : p = v.elems.length - 1 := by omega
      refine ⟨j, by omega, ?_⟩
      rw [place j (by omega), if_pos rfl, ← last, List.getLast?_eq_getElem?, ← final, its]
  obtain ⟨q, before, eq'⟩ := found
  obtain ⟨low, eq'⟩ := List.getElem?_eq_some_iff.mp eq'
  exact List.mem_take_iff_getElem.mpr ⟨q, by omega, eq'⟩

/-! Operations that do not look at part of the elements. -/

def map (f : α → β) (v : StdVector α) : StdVector β where
  elems := v.elems.map f
  capacity := v.capacity
  block := v.block
  fits := by
    rw [List.length_map]
    exact v.fits

theorem map_pushBack (f : α → β) (grow : Nat → Nat) (a : α) (v : StdVector α) :
    (v.pushBack grow a).map f = (v.map f).pushBack grow (f a) := by
  by_cases room : v.elems.length < v.capacity
  · ext1 <;> simp [map, pushBack, room]
  · ext1 <;> simp [map, pushBack, room]

theorem map_moveLastOver (f : α → β) (i : Nat) (v : StdVector α) :
    (v.moveLastOver i).map f = (v.map f).moveLastOver i := by
  have same := v.moveLastOver_same i
  have same' := (v.map f).moveLastOver_same i
  ext1
  · change (v.moveLastOver i).elems.map f = _
    rw [moveLastOver_elems, moveLastOver_elems]
    change _ = (v.elems.map f).getLast?.elim [] fun a => ((v.elems.map f).set i a).dropLast
    rw [List.getLast?_map]
    cases v.elems.getLast? with
    | none => rfl
    | some a =>
      simp only [Option.elim_some, Option.map_some, List.map_dropLast, List.map_set]
  · exact same.2.trans same'.2.symm
  · exact same.1.trans same'.1.symm

theorem map_deref (f : α → β) (block i : Nat) (v : StdVector α) :
    (v.map f).deref block i = (v.deref block i).map f := by
  unfold deref map
  split
  · exact List.getElem?_map
  · rfl

end StdVector
