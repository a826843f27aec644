import HumbleNet.Lib.Program

/-! Two runs side by side. `Alike` relates two programs: started in related states they
return related values and leave related states. `good` restricts the runs it speaks of by
the state they end in; what a program may do before the end must then reflect it. -/
namespace Program

variable {σ ε α β γ δ : Type}

def Alike (good : σ → Prop) (R : σ → σ → Prop) (V : α → β → Prop) (x : Program σ ε α)
    (y : Program σ ε β) : Prop :=
  ∀ s s' a b t t', R s s' → Returns x s a t → Returns y s' b t' → good t → good t' →
    V a b ∧ R t t'

/-- A run that ends well was well before. -/
def Reflects (good : σ → Prop) (x : Program σ ε α) : Prop :=
  Follows (fun s t => good t → good s) x

section rules

variable {good : σ → Prop} {R : σ → σ → Prop} {V : α → β → Prop} {W : γ → δ → Prop}
  {x : Program σ ε α} {y : Program σ ε β}

theorem reflects_pure (a : α) : Reflects good (pure a : Program σ ε α) :=
  follows_pure (fun _ h => h) a

theorem reflects_bind {f : α → Program σ ε γ} (hx : Reflects good x)
    (hf : ∀ a, Reflects good (f a)) : Reflects good (x >>= f) :=
  follows_bind (fun _ _ _ h k last => h (k last)) hx hf

theorem alike_pure {a : α} {b : β} (same : V a b) :
    Alike good R V (pure a : Program σ ε α) (pure b) := by
  intro s s' a' b' t t' related h h' _ _
  obtain ⟨rfl, rfl⟩ := returns_pure.mp h
  obtain ⟨rfl, rfl⟩ := returns_pure.mp h'
  exact ⟨same, related⟩

theorem alike_bind {f : α → Program σ ε γ} {g : β → Program σ ε δ} (hx : Alike good R V x y)
    (hf : ∀ a b, V a b → Alike good R W (f a) (g b)) (back : ∀ a, Reflects good (f a))
    (back' : ∀ b, Reflects good (g b)) : Alike good R W (x >>= f) (y >>= g) := by
  intro s s' c d t t' related h h' ends ends'
  obtain ⟨a, u, ha, hc⟩ := returns_bind.mp h
  obtain ⟨b, u', hb, hd⟩ := returns_bind.mp h'
  obtain ⟨same, related'⟩ := hx s s' a b u u' related ha hb (back a u c t hc ends)
    (back' b u' d t' hd ends')
  exact hf a b same u u' c d t t' related' hc hd ends ends'

theorem alike_modify {g h : σ → σ} (keeps : ∀ s s', R s s' → R (g s) (h s')) :
    Alike good R (fun _ _ => True) (modify g : Program σ ε PUnit) (modify h) := by
  intro s s' a b t t' related hg hh _ _
  rw [returns_modify.mp hg, returns_modify.mp hh]
  exact ⟨trivial, keeps s s' related⟩

theorem alike_fault {e e' : ε} : Alike good R V (fault e : Program σ ε α) (fault e') :=
  fun _ _ _ _ _ _ _ h => absurd h returns_fault

theorem alike_then {f : α → Program σ ε γ} {g : β → Program σ ε δ}
    (hx : Alike (fun _ => True) R V x y)
    (hf : ∀ a b, V a b → Alike (fun _ => True) R W (f a) (g b)) :
    Alike (fun _ => True) R W (x >>= f) (y >>= g) :=
  alike_bind hx hf (fun _ _ _ _ _ _ => trivial) fun _ _ _ _ _ _ => trivial

end rules

end Program
