import Mathlib.Data.List.Basic

/-! Blocks of memory of a fixed size, written by checked stores: a store that does not lie inside
the block is `none`. -/

/-- A block of `n` bytes. -/
abbrev Buffer (n : Nat) : Type := { bs : List UInt8 // bs.length = n }

namespace Buffer

variable {n : Nat}

def zeroed (n : Nat) : Buffer n := ⟨List.replicate n 0, List.length_replicate⟩

def store (offset : Nat) (data : List UInt8) (b : Buffer n) : Option (Buffer n) :=
  if h : offset + data.length ≤ n then
    some ⟨b.1.take offset ++ data ++ b.1.drop (offset + data.length), by
      have := b.2
      simp only [List.length_append, List.length_take, List.length_drop]
      omega⟩
  else none

def poke (i : Nat) (byte : UInt8) (b : Buffer n) : Option (Buffer n) := b.store i [byte]

def peek (i : Nat) (b : Buffer n) : Option UInt8 := b.1[i]?

theorem store_isSome {offset : Nat} {data : List UInt8} {b : Buffer n} :
    (b.store offset data).isSome = true ↔ offset + data.length ≤ n := by
  unfold store
  split
  · exact iff_of_true rfl ‹_›
  · exact iff_of_false Bool.false_ne_true ‹_›

theorem poke_isSome {i : Nat} {byte : UInt8} {b : Buffer n} :
    (b.poke i byte).isSome = true ↔ i < n := by
  rw [poke, store_isSome, List.length_singleton, Nat.succ_le_iff]

theorem store_eq {offset : Nat} {data : List UInt8} {b c : Buffer n}
    (stored : b.store offset data = some c) :
    c.1 = b.1.take offset ++ data ++ b.1.drop (offset + data.length) := by
  unfold store at stored
  split at stored
  · cases stored
    rfl
  · cases stored

theorem store_inside (b : Buffer n) (offset : Nat) (data : List UInt8)
    (inside : offset + data.length ≤ n) : ∃ c, b.store offset data = some c ∧
      c.1 = b.1.take offset ++ data ++ b.1.drop (offset + data.length) := by
  obtain ⟨c, stored⟩ := Option.isSome_iff_exists.mp (store_isSome (b := b).mpr inside)
  exact ⟨c, stored, store_eq stored⟩

theorem store_store {xs ys : List UInt8} (b : Buffer n) (full : xs.length + ys.length = n) :
    (b.store 0 xs).bind (store xs.length ys) =
      some ⟨xs ++ ys, by rw [List.length_append, full]⟩ := by
  obtain ⟨c, stored, front⟩ := store_inside b 0 xs (by omega)
  obtain ⟨d, stored', whole⟩ := store_inside c xs.length ys (by omega)
  rw [List.take_zero, List.nil_append, Nat.zero_add] at front
  have none : c.1.drop (xs.length + ys.length) = [] := by
    apply List.drop_of_length_le
    have := c.2
    omega
  rw [none, front, List.take_left, List.append_nil] at whole
  rw [stored, Option.bind_some, stored']
  exact congrArg some (Subtype.ext whole)

theorem poke_range {f : Nat → Option UInt8} {g : Nat → UInt8} {m : Nat} (b : Buffer n)
    (inside : m ≤ n) (reads : ∀ i < m, f i = some (g i)) :
    ∃ c, (List.range m).foldlM (fun (b : Buffer n) i => (f i).bind fun x => b.poke i x) b = some c ∧
      c.1 = (List.range m).map g ++ b.1.drop m := by
  induction m with
  | zero => exact ⟨b, rfl, rfl⟩
  | succ m ih =>
    obtain ⟨c, loop, eq⟩ := ih (Nat.le_of_succ_le inside) fun i h => reads i (Nat.lt_succ_of_lt h)
    obtain ⟨d, stored⟩ := Option.isSome_iff_exists.mp
      ((poke_isSome (i := m)).mpr inside)
    refine ⟨d, ?_, ?_⟩
    · rw [List.range_succ, List.foldlM_append, loop]
      change ((f m).bind fun x => c.poke m x).bind some = some d
      rw [reads m (Nat.lt_succ_self m), Option.bind_some, stored]
      rfl
    · have front : ((List.range m).map g).length = m := by
        rw [List.length_map, List.length_range]
      rw [store_eq stored, eq, List.take_left' front, List.length_singleton, List.range_succ,
        List.map_append, List.map_singleton, ← List.drop_drop, List.drop_left' front,
        List.drop_drop]

theorem poke_front {i : Nat} (b : Buffer n) (byte : UInt8) (inside : i < n) :
    ∃ c, b.poke i byte = some c ∧ c.1.take (i + 1) = b.1.take i ++ [byte] := by
  obtain ⟨c, stored, eq⟩ := store_inside b i [byte] (by rw [List.length_singleton]; omega)
  have front : (b.1.take i ++ [byte]).length = i + 1 := by
    have := b.2
    simp only [List.length_append, List.length_take, List.length_singleton]
    omega
  exact ⟨c, stored, by rw [eq, List.take_left' front]⟩

theorem poke_run {i : Nat} (b : Buffer n) (bytes : List UInt8) (inside : i + bytes.length ≤ n) :
    ∃ c, (bytes.zipIdx i).foldlM (fun (b : Buffer n) place => b.poke place.2 place.1) b = some c ∧
      c.1.take (i + bytes.length) = b.1.take i ++ bytes := by
  induction bytes generalizing i b with
  | nil => exact ⟨b, rfl, by simp⟩
  | cons byte bytes ih =>
    rw [List.length_cons] at inside ⊢
    obtain ⟨c, stored, front⟩ := poke_front b byte (i := i) (by omega)
    obtain ⟨d, run, whole⟩ := ih (i := i + 1) c (by omega)
    refine ⟨d, ?_, ?_⟩
    · simpa [List.zipIdx_cons, stored] using run
    · rw [front, Nat.add_right_comm] at whole
      rw [Nat.add_assoc] at whole
      simpa using whole

end Buffer
