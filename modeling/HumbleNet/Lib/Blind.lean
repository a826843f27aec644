import HumbleNet.Lib.Answered

/-! Programs that do not notice a change of the state. `Blind` says of a program that nobody
interrupts: made in the state changed by `r` it takes the same answers, returns the same and
leaves the same state changed by `r`; and it keeps what `part` is. -/
namespace Guarded

variable {σ ε Q κ α β : Type} {A : Q → Type}

def Blind (allowed : (q : Q) → σ → A q → σ → Prop) (r : σ → σ) (part : σ → κ)
    (x : Guarded σ ε Q A α) : Prop :=
  ∀ s log a t, Ends allowed x s log a t → part t = part s ∧ Ends allowed x (r s) log a (r t)

section rules

variable {allowed : (q : Q) → σ → A q → σ → Prop} {r : σ → σ} {part : σ → κ}
  {x : Guarded σ ε Q A α} {f : α → Guarded σ ε Q A β}

theorem blind_pure (a : α) : Blind allowed r part (pure a : Guarded σ ε Q A α) := by
  intro s log b t ends
  obtain ⟨rfl, rfl, rfl⟩ := ends_pure.mp ends
  exact ⟨rfl, ends_pure.mpr ⟨rfl, rfl, rfl⟩⟩

theorem blind_fault (e : ε) : Blind allowed r part (fault e : Guarded σ ε Q A α) :=
  fun _ _ _ _ ends => absurd ends ends_fault

theorem blind_bind (hx : Blind allowed r part x) (hf : ∀ a, Blind allowed r part (f a)) :
    Blind allowed r part (x >>= f) := by
  intro s log b t ends
  obtain ⟨l, a, u, l', first, rest, rfl⟩ := ends_bind.mp ends
  obtain ⟨kept, first'⟩ := hx s l a u first
  obtain ⟨kept', rest'⟩ := hf a u l' b t rest
  exact ⟨kept'.trans kept, ends_bind.mpr ⟨l, a, r u, l', first', rest', rfl⟩⟩

theorem blind_get {f : σ → Guarded σ ε Q A β} (hf : ∀ s, Blind allowed r part (f s))
    (same : ∀ s, f (r s) = f s) : Blind allowed r part (get >>= f) := by
  intro s log b t ends
  obtain ⟨kept, ends'⟩ := hf s s log b t (ends_get_bind.mp ends)
  refine ⟨kept, ends_get_bind.mpr ?_⟩
  rw [same]
  exact ends'

theorem blind_modify {g : σ → σ} (commute : ∀ s, g (r s) = r (g s))
    (keeps : ∀ s, part (g s) = part s) :
    Blind allowed r part (modify g : Guarded σ ε Q A PUnit) := by
  intro s log a t ends
  obtain ⟨rfl, rfl⟩ := ends_modify.mp ends
  exact ⟨keeps s, ends_modify.mpr ⟨rfl, (commute s).symm⟩⟩

theorem blind_ask {q : Q} (same : ∀ s a, allowed q s a s → allowed q (r s) a (r s)) :
    Blind allowed r part (ask q : Guarded σ ε Q A (A q)) := by
  intro s log a t ends
  cases ends with
  | held answer rest =>
    cases rest
    exact ⟨rfl, .held (same _ _ answer) (.done _ _)⟩

theorem blind_unguarded {q : Q} (same : ∀ s a, allowed q s a s → allowed q (r s) a (r s)) :
    Blind allowed r part (unguarded q : Guarded σ ε Q A (A q)) := by
  intro s log a t ends
  cases ends with
  | released answer rest =>
    cases rest
    exact ⟨rfl, .released (same _ _ answer) (.done _ _)⟩

theorem blind_doWhen {c : Prop} [Decidable c] {x : Guarded σ ε Q A Unit}
    (hx : Blind allowed r part x) : Blind allowed r part (doWhen c x) := by
  unfold doWhen
  split
  · exact hx
  · exact blind_pure ()

end rules

end Guarded
