import Mathlib.Data.List.Basic

/-! Functions of a stream that are computed block by block. The symbols of a block are collected
until it is full; what has been computed then is a fold over the whole blocks of the stream,
however it was cut. -/
namespace Blockwise

variable {α σ : Type}

def block (n : Nat) (xs : List α) (i : Nat) : List α := (xs.drop (n * i)).take n

/-- The fold over the whole blocks. -/
def overBlocks (n : Nat) (f : σ → List α → σ) (s : σ) (xs : List α) : σ :=
  (List.range (xs.length / n)).foldl (fun s i => f s (block n xs i)) s

def pending (n : Nat) (xs : List α) : List α := xs.drop (n * (xs.length / n))

section

variable {n : Nat} {f : σ → List α → σ} {s : σ} {xs ys : List α}

theorem pending_length : (pending n xs).length = xs.length % n := by
  rw [pending, List.length_drop, Nat.mod_def]

theorem block_append {i : Nat} (whole : n * (i + 1) ≤ xs.length) :
    block n (xs ++ ys) i = block n xs i := by
  have start : n * i ≤ xs.length := Nat.le_trans (Nat.mul_le_mul_left n (Nat.le_succ i)) whole
  rw [Nat.mul_succ] at whole
  rw [block, List.drop_append_of_le_length start, List.take_append_of_le_length, block]
  rw [List.length_drop]
  omega

theorem overBlocks_prefix {k : Nat} (whole : n * k ≤ xs.length) :
    (List.range k).foldl (fun s i => f s (block n (xs ++ ys) i)) s =
      (List.range k).foldl (fun s i => f s (block n xs i)) s := by
  induction k with
  | zero => rfl
  | succ k ih =>
    have less : n * k ≤ xs.length := Nat.le_trans (Nat.mul_le_mul_left n (Nat.le_succ k)) whole
    rw [List.range_succ, List.foldl_append, List.foldl_append, ih less, List.foldl_cons,
      List.foldl_cons, block_append whole]
    rfl

theorem append_partial (short : xs.length % n + ys.length < n) :
    overBlocks n f s (xs ++ ys) = overBlocks n f s xs ∧
      pending n (xs ++ ys) = pending n xs ++ ys := by
  have split := Nat.div_add_mod xs.length n
  have same : (xs ++ ys).length / n = xs.length / n := by
    rw [List.length_append]
    refine Nat.div_eq_of_lt_le ?_ ?_
    · rw [Nat.mul_comm]
      omega
    · rw [Nat.mul_comm, Nat.mul_succ]
      omega
  have whole : n * (xs.length / n) ≤ xs.length := Nat.mul_div_le _ _
  constructor
  · rw [overBlocks, same, overBlocks_prefix whole]
    rfl
  · rw [pending, same, List.drop_append_of_le_length whole]
    rfl

theorem append_full (full : xs.length % n + ys.length = n) (pos : 0 < n) :
    overBlocks n f s (xs ++ ys) = f (overBlocks n f s xs) (pending n xs ++ ys) ∧
      pending n (xs ++ ys) = [] := by
  have split := Nat.div_add_mod xs.length n
  have length : (xs ++ ys).length = n * (xs.length / n + 1) := by
    rw [List.length_append, Nat.mul_succ]
    omega
  have count : (xs ++ ys).length / n = xs.length / n + 1 := by
    rw [length, Nat.mul_div_cancel_left _ pos]
  have whole : n * (xs.length / n) ≤ xs.length := Nat.mul_div_le _ _
  constructor
  · have last : block n (xs ++ ys) (xs.length / n) = pending n xs ++ ys := by
      rw [block, List.drop_append_of_le_length whole]
      apply List.take_of_length_le
      rw [List.length_append, ← pending, pending_length]
      omega
    rw [overBlocks, count, List.range_succ, List.foldl_append, overBlocks_prefix whole,
      List.foldl_cons, last]
    rfl
  · rw [pending, count, ← length, List.drop_length]

end

/-! ### One symbol at a time -/

/-- What has been computed, and the symbols of the next block. -/
structure Collector (α σ : Type) where
  state : σ
  buffer : List α

def Collector.absorb (n : Nat) (f : σ → List α → σ) (c : Collector α σ) (x : α) : Collector α σ :=
  if c.buffer.length + 1 = n then ⟨f c.state (c.buffer ++ [x]), []⟩
  else ⟨c.state, c.buffer ++ [x]⟩

def collected (n : Nat) (f : σ → List α → σ) (s : σ) (xs : List α) : Collector α σ :=
  ⟨overBlocks n f s xs, pending n xs⟩

theorem absorb_collected {n : Nat} (pos : 0 < n) (f : σ → List α → σ) (s : σ) (xs : List α)
    (x : α) : (collected n f s xs).absorb n f x = collected n f s (xs ++ [x]) := by
  have below := Nat.mod_lt xs.length pos
  simp only [Collector.absorb, collected, pending_length]
  split
  · rename_i full
    have fills : xs.length % n + [x].length = n := full
    obtain ⟨state, buffer⟩ := append_full (f := f) (s := s) fills pos
    rw [state, buffer]
  · rename_i some_left
    have short : xs.length % n + [x].length < n := by
      rw [List.length_singleton]
      omega
    obtain ⟨state, buffer⟩ := append_partial (f := f) (s := s) short
    rw [state, buffer]

end Blockwise
