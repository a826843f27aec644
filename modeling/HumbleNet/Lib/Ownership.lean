import Mathlib.Logic.Function.Basic

/-! Names with owners, first come, first served. A request is made by one party, and a
name changes hands only through a request of the party that gains or loses it. -/

inductive Ownership.Request (A P : Type) where
  | register (p : P) (a : A)
  | unregister (p : P) (a : A)
  | leave (p : P)

namespace Ownership

open Function

variable {A P : Type} [DecidableEq A] [DecidableEq P]

/-- A name that is taken is not registered again, and only its owner unregisters it. -/
def serve (owner : A → Option P) : Request A P → A → Option P
  | .register p a => if owner a = none then update owner a (some p) else owner
  | .unregister p a => if owner a = some p then update owner a none else owner
  | .leave p => fun a => if owner a = some p then none else owner a

variable {owner : A → Option P} {r : Request A P} {a : A} {p : P}

theorem gained (free : owner a = none) (taken : serve owner r a = some p) :
    r = .register p a := by
  cases r with
  | register q b =>
    simp only [serve] at taken
    split at taken
    · rw [update_apply] at taken
      split at taken
      · rename_i same
        cases same
        cases taken
        rfl
      · rw [free] at taken
        cases taken
    · rw [free] at taken
      cases taken
  | unregister q b =>
    simp only [serve] at taken
    split at taken
    · rw [update_apply] at taken
      split at taken
      · cases taken
      · rw [free] at taken
        cases taken
    · rw [free] at taken
      cases taken
  | leave q =>
    simp only [serve, free, reduceCtorEq, if_false] at taken

theorem lost (taken : owner a = some p) (changed : serve owner r a ≠ some p) :
    serve owner r a = none ∧ (r = .unregister p a ∨ r = .leave p) := by
  cases r with
  | register q b =>
    simp only [serve] at changed
    split at changed
    · rename_i free
      rw [update_apply] at changed
      split at changed
      · rename_i same
        rw [same, free] at taken
        cases taken
      · exact absurd taken changed
    · exact absurd taken changed
  | unregister q b =>
    simp only [serve] at changed ⊢
    split at changed
    · rename_i own
      rw [update_apply] at changed
      split at changed
      · rename_i same
        subst same
        rw [taken] at own
        cases own
        rw [if_pos taken, update_self]
        exact ⟨rfl, Or.inl rfl⟩
      · exact absurd taken changed
    · exact absurd taken changed
  | leave q =>
    simp only [serve] at changed ⊢
    split at changed
    · rename_i own
      rw [taken] at own
      cases own
      rw [if_pos taken]
      exact ⟨rfl, Or.inr rfl⟩
    · exact absurd taken changed

theorem owner_after (taken : serve owner r a = some p) :
    owner a = some p ∧ r ≠ .leave p ∨ r = .register p a := by
  cases before : owner a with
  | none => exact Or.inr (gained before taken)
  | some q =>
    by_cases same : serve owner r a = some q
    · rw [taken] at same
      cases same
      refine Or.inl ⟨rfl, ?_⟩
      rintro rfl
      simp only [serve, before, if_true, reduceCtorEq] at taken
    · rw [(lost before same).1] at taken
      cases taken

end Ownership
