import HumbleNet.Lib.Program

/-! Runs that match to the end, faults included. `Mirrors` relates two programs: started in
related states they stop at the same fault or return related values in related states. -/
namespace Program

variable {σ ε α β γ δ : Type}

/-- Two outcomes that match. -/
inductive Matched (R : σ → σ → Prop) (V : α → β → Prop) :
    Except ε (α × σ) → Except ε (β × σ) → Prop where
  | returned {a : α} {b : β} {t u : σ} (values : V a b) (states : R t u) :
    Matched R V (.ok (a, t)) (.ok (b, u))
  | stopped (e : ε) : Matched R V (.error e) (.error e)

theorem Matched.trans {R : σ → σ → Prop} {o o' o'' : Except ε (α × σ)}
    (trans : ∀ s t u, R s t → R t u → R s u) (h : Matched R Eq o o') (k : Matched R Eq o' o'') :
    Matched R Eq o o'' := by
  cases h with
  | returned values states =>
    cases k with
    | returned values' states' =>
      exact .returned (values.trans values') (trans _ _ _ states states')
  | stopped e => exact k

def Mirrors (R : σ → σ → Prop) (V : α → β → Prop) (x : Program σ ε α) (y : Program σ ε β) : Prop :=
  ∀ s s', R s s' → Matched R V (x s) (y s')

variable {R : σ → σ → Prop} {V : α → β → Prop} {W : γ → δ → Prop} {x : Program σ ε α}
  {y : Program σ ε β}

theorem mirrors_pure {a : α} {b : β} (values : V a b) :
    Mirrors R V (pure a : Program σ ε α) (pure b) :=
  fun _ _ related => .returned values related

theorem mirrors_fault (e : ε) : Mirrors R V (fault e : Program σ ε α) (fault e) :=
  fun _ _ _ => .stopped e

theorem mirrors_get : Mirrors R R (get : Program σ ε σ) get :=
  fun _ _ related => .returned related related

theorem mirrors_modify {f g : σ → σ} (keeps : ∀ s s', R s s' → R (f s) (g s')) :
    Mirrors R (fun _ _ => True) (modify f : Program σ ε PUnit) (modify g) :=
  fun s s' related => .returned trivial (keeps s s' related)

theorem mirrors_modifyGet {f : σ → α × σ} {g : σ → β × σ}
    (keeps : ∀ s s', R s s' → V (f s).1 (g s').1 ∧ R (f s).2 (g s').2) :
    Mirrors R V (modifyGet f : Program σ ε α) (modifyGet g) :=
  fun s s' related => .returned (keeps s s' related).1 (keeps s s' related).2

theorem mirrors_bind {f : α → Program σ ε γ} {g : β → Program σ ε δ} (hx : Mirrors R V x y)
    (hf : ∀ a b, V a b → Mirrors R W (f a) (g b)) : Mirrors R W (x >>= f) (y >>= g) := by
  intro s s' related
  have run : ∀ {α γ : Type} (x : Program σ ε α) (f : α → Program σ ε γ) (s : σ),
      (x >>= f) s = x s >>= fun r => f r.1 r.2 := fun _ _ _ => rfl
  rw [run, run]
  have matched := hx s s' related
  generalize x s = o at matched ⊢
  generalize y s' = o' at matched ⊢
  cases matched with
  | returned values states => exact hf _ _ values _ _ states
  | stopped e => exact .stopped e

end Program
