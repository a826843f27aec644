import Mathlib.Logic.Basic

/-! Programs over a state that either return or stop at a fault. `Returns` is the
big-step relation; `Follows` says that every returning run relates its end to its
start. -/

abbrev Program (σ ε α : Type) := StateT σ (Except ε) α

namespace Program

variable {σ ε α β : Type}

/-- From `s` the program returns `a` and leaves `t`. -/
def Returns (x : Program σ ε α) (s : σ) (a : α) (t : σ) : Prop := x s = .ok (a, t)

def Completes (x : Program σ ε α) (s : σ) : Prop := ∃ a t, Returns x s a t

def fault (e : ε) : Program σ ε α := fun _ => .error e

section rules

variable {x : Program σ ε α} {f : α → Program σ ε β} {s t : σ}

@[simp] theorem returns_pure {a b : α} :
    Returns (pure a : Program σ ε α) s b t ↔ b = a ∧ t = s := by
  constructor
  · intro h
    cases h
    exact ⟨rfl, rfl⟩
  · rintro ⟨rfl, rfl⟩
    rfl

@[simp] theorem returns_bind {b : β} :
    Returns (x >>= f) s b t ↔ ∃ a u, Returns x s a u ∧ Returns (f a) u b t := by
  constructor
  · intro h
    have run : (x s >>= fun r => f r.1 r.2) = .ok (b, t) := h
    cases hx : x s with
    | error e =>
      rw [hx] at run
      cases run
    | ok r =>
      rw [hx] at run
      exact ⟨r.1, r.2, hx, run⟩
  · rintro ⟨a, u, hx, hf⟩
    change (x s >>= fun r => f r.1 r.2) = .ok (b, t)
    rw [show x s = .ok (a, u) from hx]
    exact hf

@[simp] theorem returns_fault {e : ε} {b : α} : ¬ Returns (fault e : Program σ ε α) s b t := by
  intro h
  cases h

@[simp] theorem returns_get {a : σ} :
    Returns (get : Program σ ε σ) s a t ↔ a = s ∧ t = s := by
  constructor
  · intro h
    cases h
    exact ⟨rfl, rfl⟩
  · rintro ⟨rfl, rfl⟩
    rfl

@[simp] theorem returns_modify {g : σ → σ} {a : PUnit} :
    Returns (modify g : Program σ ε PUnit) s a t ↔ t = g s := by
  constructor
  · intro h
    cases h
    rfl
  · rintro rfl
    rfl

@[simp] theorem returns_modifyGet {g : σ → α × σ} {a : α} :
    Returns (modifyGet g : Program σ ε α) s a t ↔ (a, t) = g s := by
  constructor
  · intro h
    have eq : Except.ok (ε := ε) (g s) = .ok (a, t) := h
    exact (Except.ok.inj eq).symm
  · intro h
    change Except.ok (ε := ε) (g s) = .ok (a, t)
    rw [h]

@[simp] theorem returns_map {g : α → β} {b : β} :
    Returns (g <$> x) s b t ↔ ∃ a, Returns x s a t ∧ b = g a := by
  rw [map_eq_pure_bind, returns_bind]
  constructor
  · rintro ⟨a, u, hx, hp⟩
    obtain ⟨rfl, rfl⟩ := returns_pure.mp hp
    exact ⟨a, hx, rfl⟩
  · rintro ⟨a, hx, rfl⟩
    exact ⟨a, t, hx, returns_pure.mpr ⟨rfl, rfl⟩⟩

theorem Returns.unique {a b : α} {u : σ} (h : Returns x s a t) (k : Returns x s b u) :
    a = b ∧ t = u := by
  have same : Except.ok (ε := ε) (a, t) = .ok (b, u) := Eq.trans (Eq.symm h) k
  cases same
  exact ⟨rfl, rfl⟩

theorem Returns.bind_run {a : α} (h : Returns x s a t) : (x >>= f) s = f a t := by
  change (x s >>= fun r => f r.1 r.2) = f a t
  rw [show x s = .ok (a, t) from h]
  rfl

theorem bind_run_error {e : ε} (h : x s = .error e) : (x >>= f) s = .error e := by
  change (x s >>= fun r => f r.1 r.2) = .error e
  rw [h]
  rfl

@[simp] theorem completes_pure {a : α} : Completes (pure a : Program σ ε α) s :=
  ⟨a, s, rfl⟩

@[simp] theorem completes_fault {e : ε} : ¬ Completes (fault e : Program σ ε α) s := by
  rintro ⟨a, t, h⟩
  cases h

theorem completes_bind {a : α} (h : Returns x s a t) :
    Completes (x >>= f) s ↔ Completes (f a) t := by
  constructor
  · rintro ⟨b, u, hb⟩
    obtain ⟨a', t', hx, hf⟩ := returns_bind.mp hb
    obtain ⟨rfl, rfl⟩ := h.unique hx
    exact ⟨b, u, hf⟩
  · rintro ⟨b, u, hb⟩
    exact ⟨b, u, returns_bind.mpr ⟨a, t, h, hb⟩⟩

end rules

def Follows (R : σ → σ → Prop) (x : Program σ ε α) : Prop :=
  ∀ s a t, Returns x s a t → R s t

section follows

variable {R : σ → σ → Prop}

theorem follows_pure (refl : ∀ s, R s s) (a : α) : Follows R (pure a : Program σ ε α) := by
  intro s b t h
  obtain ⟨_, rfl⟩ := returns_pure.mp h
  exact refl _

theorem follows_bind (trans : ∀ s t u, R s t → R t u → R s u) {x : Program σ ε α}
    {f : α → Program σ ε β} (hx : Follows R x) (hf : ∀ a, Follows R (f a)) :
    Follows R (x >>= f) := by
  intro s b t h
  obtain ⟨a, u, h1, h2⟩ := returns_bind.mp h
  exact trans s u t (hx s a u h1) (hf a u b t h2)

theorem follows_fault (e : ε) : Follows R (fault e : Program σ ε α) :=
  fun _ _ _ h => absurd h returns_fault

end follows

end Program
