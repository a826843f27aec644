import HumbleNet.Lib.Guarded

/-! Programs that run alone to their end, with the calls they make and the answers they
get. `Ends` is the big-step relation, `allowed` says what may be answered; at a call that
releases the lock nobody else runs. -/

abbrev CallLog (Q : Type) (A : Q → Type) : Type := List ((q : Q) × A q)

variable {σ ε Q α β : Type} {A : Q → Type} {allowed : (q : Q) → σ → A q → σ → Prop}

namespace Course

inductive Ends (allowed : (q : Q) → σ → A q → σ → Prop) :
    Course σ ε Q A α → CallLog Q A → α → σ → Prop where
  | done (a : α) (s : σ) : Ends allowed (.done a s) [] a s
  | held {q : Q} {s : σ} {next : A q → Course σ ε Q A α} {a : A q} {log : CallLog Q A} {b : α}
    {t : σ} (answer : allowed q s a s) (rest : Ends allowed (next a) log b t) :
    Ends allowed (.held q s next) (⟨q, a⟩ :: log) b t
  | released {q : Q} {s : σ} {next : A q → σ → Course σ ε Q A α} {a : A q} {log : CallLog Q A}
    {b : α} {t : σ} (answer : allowed q s a s) (rest : Ends allowed (next a s) log b t) :
    Ends allowed (.released q s next) (⟨q, a⟩ :: log) b t

theorem Ends.bind {c : Course σ ε Q A α} {f : α → σ → Course σ ε Q A β} {log log' : CallLog Q A}
    {a : α} {b : β} {u t : σ} (first : c.Ends allowed log a u)
    (second : (f a u).Ends allowed log' b t) : (c.bind f).Ends allowed (log ++ log') b t := by
  induction first with
  | done a s => exact second
  | held answer _ ih => exact .held answer (ih second)
  | released answer _ ih => exact .released answer (ih second)

theorem ends_bind {c : Course σ ε Q A α} {f : α → σ → Course σ ε Q A β} {log : CallLog Q A}
    {b : β} {t : σ} : (c.bind f).Ends allowed log b t ↔
      ∃ l a u l', c.Ends allowed l a u ∧ (f a u).Ends allowed l' b t ∧ log = l ++ l' := by
  constructor
  · intro h
    induction c generalizing log with
    | done a s => exact ⟨[], a, s, log, .done a s, h, rfl⟩
    | fault e s => cases h
    | held q s next ih =>
      cases h with
      | held answer rest =>
        obtain ⟨l, a, u, l', first, second, rfl⟩ := ih _ rest
        exact ⟨_, a, u, l', .held answer first, second, rfl⟩
    | released q s next ih =>
      cases h with
      | released answer rest =>
        obtain ⟨l, a, u, l', first, second, rfl⟩ := ih _ _ rest
        exact ⟨_, a, u, l', .released answer first, second, rfl⟩
  · rintro ⟨l, a, u, l', first, second, rfl⟩
    exact first.bind second

def answered (answers : (q : Q) → σ → Option (A q)) :
    Course σ ε Q A α → Option (CallLog Q A × α × σ)
  | .done a s => some ([], a, s)
  | .fault _ _ => none
  | .held q s next =>
    match answers q s with
    | some a => ((next a).answered answers).map fun r => (⟨q, a⟩ :: r.1, r.2)
    | none => none
  | .released q s next =>
    match answers q s with
    | some a => ((next a s).answered answers).map fun r => (⟨q, a⟩ :: r.1, r.2)
    | none => none

theorem ends_of_answered {answers : (q : Q) → σ → Option (A q)}
    (may : ∀ q s a, answers q s = some a → allowed q s a s) {c : Course σ ε Q A α}
    {r : CallLog Q A × α × σ} (h : c.answered answers = some r) :
    c.Ends allowed r.1 r.2.1 r.2.2 := by
  induction c generalizing r with
  | done a s =>
    cases h
    exact .done a s
  | fault e s => cases h
  | held q s next ih =>
    unfold answered at h
    split at h
    · rename_i a answer
      obtain ⟨r', rest, rfl⟩ := Option.map_eq_some_iff.mp h
      exact .held (may q s a answer) (ih _ rest)
    · cases h
  | released q s next ih =>
    unfold answered at h
    split at h
    · rename_i a answer
      obtain ⟨r', rest, rfl⟩ := Option.map_eq_some_iff.mp h
      exact .released (may q s a answer) (ih _ _ rest)
    · cases h

theorem Meets.of_ends {T : Terms σ ε Q A} (may : ∀ q s a, allowed q s a s → T.allowed q s a s)
    (rely : ∀ s, T.rely s s) {post : α → σ → Prop} {c : Course σ ε Q A α} {b : σ}
    (meets : c.Meets T post b) {log : CallLog Q A} {a : α} {t : σ}
    (ends : c.Ends allowed log a t) : T.guar b t ∧ post a t := by
  induction ends generalizing b with
  | done a s => exact meets
  | held answer _ ih => exact ih (meets _ (may _ _ _ answer))
  | released answer _ ih =>
    obtain ⟨guar, next⟩ := meets
    obtain ⟨later, holds⟩ := ih (next _ _ (may _ _ _ answer) (rely _))
    exact ⟨T.trans _ _ _ guar later, holds⟩

end Course

namespace Guarded

open Course

/-- From `s` the program makes these calls, returns `a` and leaves `t`. -/
def Ends (allowed : (q : Q) → σ → A q → σ → Prop) (x : Guarded σ ε Q A α) (s : σ)
    (log : CallLog Q A) (a : α) (t : σ) : Prop :=
  (x s).Ends allowed log a t

section rules

variable {x : Guarded σ ε Q A α} {f : α → Guarded σ ε Q A β} {s t : σ} {log : CallLog Q A}

@[simp] theorem ends_pure {a b : α} :
    Ends allowed (pure a : Guarded σ ε Q A α) s log b t ↔ log = [] ∧ b = a ∧ t = s := by
  constructor
  · intro h
    cases h
    exact ⟨rfl, rfl, rfl⟩
  · rintro ⟨rfl, rfl, rfl⟩
    exact .done _ _

@[simp] theorem ends_fault {e : ε} {b : α} :
    ¬ Ends allowed (fault e : Guarded σ ε Q A α) s log b t := by
  intro h
  cases h

theorem ends_bind {b : β} : Ends allowed (x >>= f) s log b t ↔
    ∃ l a u l', Ends allowed x s l a u ∧ Ends allowed (f a) u l' b t ∧ log = l ++ l' :=
  Course.ends_bind

@[simp] theorem ends_get_bind {b : β} {f : σ → Guarded σ ε Q A β} :
    Ends allowed (get >>= f) s log b t ↔ Ends allowed (f s) s log b t := Iff.rfl

@[simp] theorem ends_modify_bind {b : β} {g : σ → σ} {f : PUnit → Guarded σ ε Q A β} :
    Ends allowed (modify g >>= f) s log b t ↔ Ends allowed (f ⟨⟩) (g s) log b t := Iff.rfl

@[simp] theorem ends_modify {g : σ → σ} {a : PUnit} :
    Ends allowed (modify g : Guarded σ ε Q A PUnit) s log a t ↔ log = [] ∧ t = g s := by
  constructor
  · intro h
    cases h
    exact ⟨rfl, rfl⟩
  · rintro ⟨rfl, rfl⟩
    exact .done _ _

@[simp] theorem ends_ask_bind {q : Q} {b : β} {f : A q → Guarded σ ε Q A β} :
    Ends allowed (ask q >>= f) s log b t ↔
      ∃ a l, allowed q s a s ∧ Ends allowed (f a) s l b t ∧ log = ⟨q, a⟩ :: l := by
  constructor
  · intro h
    cases h with
    | held answer rest => exact ⟨_, _, answer, rest, rfl⟩
  · rintro ⟨a, l, answer, rest, rfl⟩
    exact .held answer rest

@[simp] theorem ends_unguarded_bind {q : Q} {b : β} {f : A q → Guarded σ ε Q A β} :
    Ends allowed (unguarded q >>= f) s log b t ↔
      ∃ a l, allowed q s a s ∧ Ends allowed (f a) s l b t ∧ log = ⟨q, a⟩ :: l := by
  constructor
  · intro h
    cases h with
    | released answer rest => exact ⟨_, _, answer, rest, rfl⟩
  · rintro ⟨a, l, answer, rest, rfl⟩
    exact .released answer rest

end rules

end Guarded

/-! Faults that a program running alone never comes to, whatever it is answered. -/
namespace Course

def Never (allowed : (q : Q) → σ → A q → σ → Prop) (bad : ε → Prop) : Course σ ε Q A α → Prop
  | done _ _ => True
  | fault e _ => ¬ bad e
  | held q s next => ∀ a, allowed q s a s → (next a).Never allowed bad
  | released q s next => ∀ a, allowed q s a s → (next a s).Never allowed bad

theorem never_bind {bad : ε → Prop} {c : Course σ ε Q A α} {f : α → σ → Course σ ε Q A β} :
    (c.bind f).Never allowed bad ↔ c.Never allowed bad ∧
      ∀ log a t, c.Ends allowed log a t → (f a t).Never allowed bad := by
  induction c with
  | done a s =>
    constructor
    · intro h
      refine ⟨trivial, fun log b t ends => ?_⟩
      cases ends
      exact h
    · exact fun h => h.2 [] a s (.done a s)
  | fault e s =>
    constructor
    · exact fun h => ⟨h, fun log b t ends => by cases ends⟩
    · exact fun h => h.1
  | held q s next ih =>
    constructor
    · intro h
      refine ⟨fun a answer => ((ih a).mp (h a answer)).1, fun log b t ends => ?_⟩
      cases ends with
      | held answer rest => exact ((ih _).mp (h _ answer)).2 _ b t rest
    · intro h a answer
      exact (ih a).mpr ⟨h.1 a answer, fun log b t rest => h.2 _ b t (.held answer rest)⟩
  | released q s next ih =>
    constructor
    · intro h
      refine ⟨fun a answer => ((ih a s).mp (h a answer)).1, fun log b t ends => ?_⟩
      cases ends with
      | released answer rest => exact ((ih _ s).mp (h _ answer)).2 _ b t rest
    · intro h a answer
      exact (ih a s).mpr ⟨h.1 a answer, fun log b t rest => h.2 _ b t (.released answer rest)⟩

end Course

namespace Guarded

open Course

def Never (allowed : (q : Q) → σ → A q → σ → Prop) (bad : ε → Prop) (x : Guarded σ ε Q A α)
    (s : σ) : Prop :=
  (x s).Never allowed bad

section rules

variable {bad : ε → Prop} {x : Guarded σ ε Q A α} {f : α → Guarded σ ε Q A β} {s : σ}

@[simp] theorem never_pure {a : α} : Never allowed bad (pure a : Guarded σ ε Q A α) s := trivial

@[simp] theorem never_fault {e : ε} :
    Never allowed bad (fault e : Guarded σ ε Q A α) s ↔ ¬ bad e := Iff.rfl

theorem never_bind : Never allowed bad (x >>= f) s ↔ Never allowed bad x s ∧
    ∀ log a t, Ends allowed x s log a t → Never allowed bad (f a) t := Course.never_bind

@[simp] theorem never_get_bind {f : σ → Guarded σ ε Q A β} :
    Never allowed bad (get >>= f) s ↔ Never allowed bad (f s) s := Iff.rfl

@[simp] theorem never_modify {g : σ → σ} :
    Never allowed bad (modify g : Guarded σ ε Q A PUnit) s := trivial

@[simp] theorem never_ask_bind {q : Q} {f : A q → Guarded σ ε Q A β} :
    Never allowed bad (ask q >>= f) s ↔
      ∀ a, allowed q s a s → Never allowed bad (f a) s := Iff.rfl

@[simp] theorem never_ask {q : Q} : Never allowed bad (ask q : Guarded σ ε Q A (A q)) s :=
  fun _ _ => trivial

@[simp] theorem never_unguarded {q : Q} :
    Never allowed bad (unguarded q : Guarded σ ε Q A (A q)) s := fun _ _ => trivial

theorem never_doWhen {c : Prop} [Decidable c] {x : Guarded σ ε Q A Unit}
    (h : c → Never allowed bad x s) : Never allowed bad (doWhen c x) s := by
  unfold doWhen
  split
  · exact h ‹_›
  · exact never_pure

end rules

end Guarded

/-! Programs that others run amid: at a call that releases the lock the state may become
another one, as far as `allowed` says. -/
namespace Course

inductive Amid (allowed : (q : Q) → σ → A q → σ → Prop) : Course σ ε Q A α → α → σ → Prop where
  | done (a : α) (s : σ) : Amid allowed (.done a s) a s
  | held {q : Q} {s : σ} {next : A q → Course σ ε Q A α} {a : A q} {b : α} {t : σ}
    (answer : allowed q s a s) (rest : Amid allowed (next a) b t) :
    Amid allowed (.held q s next) b t
  | released {q : Q} {s u : σ} {next : A q → σ → Course σ ε Q A α} {a : A q} {b : α} {t : σ}
    (answer : allowed q s a u) (rest : Amid allowed (next a u) b t) :
    Amid allowed (.released q s next) b t

theorem Ends.amid {allowed' : (q : Q) → σ → A q → σ → Prop}
    (may : ∀ q s a, allowed q s a s → allowed' q s a s) {c : Course σ ε Q A α} {log : CallLog Q A}
    {a : α} {t : σ} (ends : c.Ends allowed log a t) : c.Amid allowed' a t := by
  induction ends with
  | done a s => exact .done a s
  | held answer _ ih => exact .held (may _ _ _ answer) ih
  | released answer _ ih => exact .released (may _ _ _ answer) ih

theorem Amid.mono {allowed' : (q : Q) → σ → A q → σ → Prop}
    (may : ∀ q s a t, allowed q s a t → allowed' q s a t) {c : Course σ ε Q A α} {a : α} {t : σ}
    (ends : c.Amid allowed a t) : c.Amid allowed' a t := by
  induction ends with
  | done a s => exact .done a s
  | held answer _ ih => exact .held (may _ _ _ _ answer) ih
  | released answer _ ih => exact .released (may _ _ _ _ answer) ih

theorem Amid.bind {c : Course σ ε Q A α} {f : α → σ → Course σ ε Q A β} {a : α} {b : β} {u t : σ}
    (first : c.Amid allowed a u) (second : (f a u).Amid allowed b t) :
    (c.bind f).Amid allowed b t := by
  induction first with
  | done a s => exact second
  | held answer _ ih => exact .held answer (ih second)
  | released answer _ ih => exact .released answer (ih second)

theorem amid_bind {c : Course σ ε Q A α} {f : α → σ → Course σ ε Q A β} {b : β} {t : σ} :
    (c.bind f).Amid allowed b t ↔ ∃ a u, c.Amid allowed a u ∧ (f a u).Amid allowed b t := by
  constructor
  · intro h
    induction c with
    | done a s => exact ⟨a, s, .done a s, h⟩
    | fault e s => cases h
    | held q s next ih =>
      cases h with
      | held answer rest =>
        obtain ⟨a, u, first, second⟩ := ih _ rest
        exact ⟨a, u, .held answer first, second⟩
    | released q s next ih =>
      cases h with
      | released answer rest =>
        obtain ⟨a, u, first, second⟩ := ih _ _ rest
        exact ⟨a, u, .released answer first, second⟩
  · rintro ⟨a, u, first, second⟩
    exact first.bind second

end Course

namespace Guarded

open Course

/-- From `s` the program returns `a` and leaves `t`, others having run where they may. -/
def Amid (allowed : (q : Q) → σ → A q → σ → Prop) (x : Guarded σ ε Q A α) (s : σ) (a : α) (t : σ) :
    Prop :=
  (x s).Amid allowed a t

section rules

variable {x : Guarded σ ε Q A α} {f : α → Guarded σ ε Q A β} {s t : σ}

@[simp] theorem amid_pure {a b : α} :
    Amid allowed (pure a : Guarded σ ε Q A α) s b t ↔ b = a ∧ t = s := by
  constructor
  · intro h
    cases h
    exact ⟨rfl, rfl⟩
  · rintro ⟨rfl, rfl⟩
    exact .done _ _

@[simp] theorem amid_fault {e : ε} {b : α} :
    ¬ Amid allowed (fault e : Guarded σ ε Q A α) s b t := by
  intro h
  cases h

theorem amid_bind {b : β} : Amid allowed (x >>= f) s b t ↔
    ∃ a u, Amid allowed x s a u ∧ Amid allowed (f a) u b t := Course.amid_bind

@[simp] theorem amid_get_bind {b : β} {f : σ → Guarded σ ε Q A β} :
    Amid allowed (get >>= f) s b t ↔ Amid allowed (f s) s b t := Iff.rfl

@[simp] theorem amid_modify_bind {b : β} {g : σ → σ} {f : PUnit → Guarded σ ε Q A β} :
    Amid allowed (modify g >>= f) s b t ↔ Amid allowed (f ⟨⟩) (g s) b t := Iff.rfl

@[simp] theorem amid_modify {g : σ → σ} {a : PUnit} :
    Amid allowed (modify g : Guarded σ ε Q A PUnit) s a t ↔ t = g s := by
  constructor
  · intro h
    cases h
    rfl
  · rintro rfl
    exact .done _ _

@[simp] theorem amid_ask {q : Q} {a : A q} :
    Amid allowed (ask q : Guarded σ ε Q A (A q)) s a t ↔ allowed q s a s ∧ t = s := by
  constructor
  · intro h
    cases h with
    | held answer rest =>
      cases rest
      exact ⟨answer, rfl⟩
  · rintro ⟨answer, rfl⟩
    exact .held answer (.done _ _)

@[simp] theorem amid_unguarded {q : Q} {a : A q} :
    Amid allowed (unguarded q : Guarded σ ε Q A (A q)) s a t ↔ allowed q s a t := by
  constructor
  · intro h
    cases h with
    | released answer rest =>
      cases rest
      exact answer
  · intro answer
    exact .released answer (.done _ _)

theorem amid_doWhen {c : Prop} [Decidable c] {x : Guarded σ ε Q A Unit} {a : Unit} :
    Amid allowed (doWhen c x) s a t ↔ (c ∧ Amid allowed x s a t) ∨ (¬ c ∧ t = s) := by
  unfold doWhen
  split
  · rename_i holds
    exact ⟨fun h => Or.inl ⟨holds, h⟩, fun h => h.elim And.right fun h => absurd holds h.1⟩
  · rename_i fails
    rw [amid_pure]
    exact ⟨fun h => Or.inr ⟨fails, h.2⟩,
      fun h => h.elim (fun h => absurd h.1 fails) fun h => ⟨rfl, h.2⟩⟩

end rules

/-- Whatever runs amid it, the program leaves a state that is related to the one it began in. -/
def Follows (allowed : (q : Q) → σ → A q → σ → Prop) (R : σ → σ → Prop)
    (x : Guarded σ ε Q A α) : Prop :=
  ∀ s a t, Amid allowed x s a t → R s t

section follows

variable {R : σ → σ → Prop} {x : Guarded σ ε Q A α} {f : α → Guarded σ ε Q A β}

theorem follows_pure (refl : ∀ s, R s s) (a : α) :
    Follows allowed R (pure a : Guarded σ ε Q A α) := by
  intro s b t h
  obtain ⟨-, rfl⟩ := amid_pure.mp h
  exact refl _

theorem follows_fault (e : ε) : Follows allowed R (fault e : Guarded σ ε Q A α) :=
  fun _ _ _ h => absurd h amid_fault

theorem follows_bind (trans : ∀ s t u, R s t → R t u → R s u) (hx : Follows allowed R x)
    (hf : ∀ a, Follows allowed R (f a)) : Follows allowed R (x >>= f) := by
  intro s b t h
  obtain ⟨a, u, first, second⟩ := amid_bind.mp h
  exact trans s u t (hx s a u first) (hf a u b t second)

theorem follows_get {f : σ → Guarded σ ε Q A β} (h : ∀ s, Follows allowed R (f s)) :
    Follows allowed R (get >>= f) := fun s b t ends => h s s b t ends

theorem follows_modify {g : σ → σ} (h : ∀ s, R s (g s)) :
    Follows allowed R (modify g : Guarded σ ε Q A PUnit) := by
  intro s a t ends
  obtain rfl := amid_modify.mp ends
  exact h s

theorem follows_ask (refl : ∀ s, R s s) (q : Q) :
    Follows allowed R (ask q : Guarded σ ε Q A (A q)) := by
  intro s a t ends
  obtain ⟨-, rfl⟩ := amid_ask.mp ends
  exact refl _

theorem follows_unguarded {q : Q} (h : ∀ s a t, allowed q s a t → R s t) :
    Follows allowed R (unguarded q : Guarded σ ε Q A (A q)) :=
  fun s a t ends => h s a t (amid_unguarded.mp ends)

theorem follows_doWhen (refl : ∀ s, R s s) {c : Prop} [Decidable c] {x : Guarded σ ε Q A Unit}
    (h : Follows allowed R x) : Follows allowed R (doWhen c x) := by
  unfold doWhen
  split
  · exact h
  · exact follows_pure refl ()

end follows

end Guarded

/-! Programs that others run amid, with the calls they make, up to their end or to a fault. -/
namespace Course

inductive Plays (allowed : (q : Q) → σ → A q → σ → Prop) :
    Course σ ε Q A α → CallLog Q A → Except ε α → σ → Prop where
  | done (a : α) (s : σ) : Plays allowed (.done a s) [] (.ok a) s
  | fault (e : ε) (s : σ) : Plays allowed (.fault e s) [] (.error e) s
  | held {q : Q} {s : σ} {next : A q → Course σ ε Q A α} {a : A q} {log : CallLog Q A}
    {r : Except ε α} {t : σ} (answer : allowed q s a s) (rest : Plays allowed (next a) log r t) :
    Plays allowed (.held q s next) (⟨q, a⟩ :: log) r t
  | released {q : Q} {s u : σ} {next : A q → σ → Course σ ε Q A α} {a : A q} {log : CallLog Q A}
    {r : Except ε α} {t : σ} (answer : allowed q s a u) (rest : Plays allowed (next a u) log r t) :
    Plays allowed (.released q s next) (⟨q, a⟩ :: log) r t

theorem Plays.amid {c : Course σ ε Q A α} {log : CallLog Q A} {a : α} {t : σ}
    (plays : c.Plays allowed log (.ok a) t) : c.Amid allowed a t := by
  generalize eq : (Except.ok a : Except ε α) = r at plays
  induction plays with
  | done =>
    cases eq
    exact .done _ _
  | fault => cases eq
  | held answer _ ih => exact .held answer (ih eq)
  | released answer _ ih => exact .released answer (ih eq)

theorem Plays.bind {c : Course σ ε Q A α} {f : α → σ → Course σ ε Q A β} {log log' : CallLog Q A}
    {a : α} {r : Except ε β} {u t : σ} (first : c.Plays allowed log (.ok a) u)
    (second : (f a u).Plays allowed log' r t) : (c.bind f).Plays allowed (log ++ log') r t := by
  generalize eq : (Except.ok a : Except ε α) = r' at first
  induction first with
  | done b s =>
    cases eq
    exact second
  | fault e s => cases eq
  | held answer _ ih => exact .held answer (ih second eq)
  | released answer _ ih => exact .released answer (ih second eq)

theorem Plays.bind_fault {c : Course σ ε Q A α} {f : α → σ → Course σ ε Q A β}
    {log : CallLog Q A} {e : ε} {t : σ} (first : c.Plays allowed log (.error e) t) :
    (c.bind f).Plays allowed log (.error e) t := by
  generalize eq : (Except.error e : Except ε α) = r at first
  induction first with
  | done b s => cases eq
  | fault =>
    cases eq
    exact .fault _ _
  | held answer _ ih => exact .held answer (ih eq)
  | released answer _ ih => exact .released answer (ih eq)

theorem plays_bind {c : Course σ ε Q A α} {f : α → σ → Course σ ε Q A β} {log : CallLog Q A}
    {r : Except ε β} {t : σ} : (c.bind f).Plays allowed log r t ↔
      (∃ e, r = .error e ∧ c.Plays allowed log (.error e) t) ∨
      ∃ l a u l', c.Plays allowed l (.ok a) u ∧ (f a u).Plays allowed l' r t ∧ log = l ++ l' := by
  constructor
  · intro h
    induction c generalizing log with
    | done a s => exact Or.inr ⟨[], a, s, log, .done a s, h, rfl⟩
    | fault e s =>
      cases h with
      | fault => exact Or.inl ⟨e, rfl, .fault _ _⟩
    | held q s next ih =>
      cases h with
      | held answer rest =>
        rcases ih _ rest with ⟨e, rfl, stops⟩ | ⟨l, a, u, l', first, second, rfl⟩
        · exact Or.inl ⟨e, rfl, .held answer stops⟩
        · exact Or.inr ⟨_, a, u, l', .held answer first, second, rfl⟩
    | released q s next ih =>
      cases h with
      | released answer rest =>
        rcases ih _ _ rest with ⟨e, rfl, stops⟩ | ⟨l, a, u, l', first, second, rfl⟩
        · exact Or.inl ⟨e, rfl, .released answer stops⟩
        · exact Or.inr ⟨_, a, u, l', .released answer first, second, rfl⟩
  · rintro (⟨e, rfl, stops⟩ | ⟨l, a, u, l', first, second, rfl⟩)
    · exact stops.bind_fault
    · exact first.bind second

theorem Plays.mono {allowed' : (q : Q) → σ → A q → σ → Prop}
    (may : ∀ q s a t, allowed q s a t → allowed' q s a t) {c : Course σ ε Q A α} {log : CallLog Q A}
    {r : Except ε α} {t : σ} (plays : c.Plays allowed log r t) : c.Plays allowed' log r t := by
  induction plays with
  | done a s => exact .done a s
  | fault e s => exact .fault e s
  | held answer _ ih => exact .held (may _ _ _ _ answer) ih
  | released answer _ ih => exact .released (may _ _ _ _ answer) ih

theorem plays_total (may : ∀ q s, ∃ a, allowed q s a s) (c : Course σ ε Q A α) :
    ∃ log r t, c.Plays allowed log r t := by
  induction c with
  | done a s => exact ⟨[], .ok a, s, .done a s⟩
  | fault e s => exact ⟨[], .error e, s, .fault e s⟩
  | held q s next ih =>
    obtain ⟨a, answer⟩ := may q s
    obtain ⟨log, r, t, plays⟩ := ih a
    exact ⟨⟨q, a⟩ :: log, r, t, .held answer plays⟩
  | released q s next ih =>
    obtain ⟨a, answer⟩ := may q s
    obtain ⟨log, r, t, plays⟩ := ih a s
    exact ⟨⟨q, a⟩ :: log, r, t, .released answer plays⟩

def Only (p : Q → Prop) : Course σ ε Q A α → Prop
  | done _ _ => True
  | fault _ _ => True
  | held q _ next => p q ∧ ∀ a, (next a).Only p
  | released q _ next => p q ∧ ∀ a s, (next a s).Only p

theorem Only.bind {p : Q → Prop} {c : Course σ ε Q A α} {f : α → σ → Course σ ε Q A β}
    (first : c.Only p) (rest : ∀ a s, (f a s).Only p) : (c.bind f).Only p := by
  induction c with
  | done a s => exact rest a s
  | fault e s => exact trivial
  | held q s next ih => exact ⟨first.1, fun a => ih a (first.2 a)⟩
  | released q s next ih => exact ⟨first.1, fun a u => ih a u (first.2 a u)⟩

theorem Ends.only {p : Q → Prop} {c : Course σ ε Q A α} {log : CallLog Q A} {a : α} {t : σ}
    (ends : c.Ends allowed log a t) (only : c.Only p) : ∀ call ∈ log, p call.1 := by
  induction ends with
  | done a s => exact nofun
  | held answer _ ih => exact List.forall_mem_cons.mpr ⟨only.1, ih (only.2 _)⟩
  | released answer _ ih => exact List.forall_mem_cons.mpr ⟨only.1, ih (only.2 _ _)⟩

theorem Plays.only {p : Q → Prop} {c : Course σ ε Q A α} {log : CallLog Q A} {r : Except ε α}
    {t : σ} (plays : c.Plays allowed log r t) (only : c.Only p) : ∀ call ∈ log, p call.1 := by
  induction plays with
  | done a s => exact nofun
  | fault e s => exact nofun
  | held answer _ ih => exact List.forall_mem_cons.mpr ⟨only.1, ih (only.2 _)⟩
  | released answer _ ih => exact List.forall_mem_cons.mpr ⟨only.1, ih (only.2 _ _)⟩

end Course

namespace Guarded

open Course

/-- From `s` the program makes these calls, comes to this result and leaves `t`, others having
run where they may. -/
def Plays (allowed : (q : Q) → σ → A q → σ → Prop) (x : Guarded σ ε Q A α) (s : σ)
    (log : CallLog Q A) (r : Except ε α) (t : σ) : Prop :=
  (x s).Plays allowed log r t

def Only (p : Q → Prop) (x : Guarded σ ε Q A α) : Prop := ∀ s, (x s).Only p

section plays

variable {x : Guarded σ ε Q A α} {f : α → Guarded σ ε Q A β} {s t : σ} {log : CallLog Q A}

@[simp] theorem plays_pure {a : α} {r : Except ε α} :
    Plays allowed (pure a : Guarded σ ε Q A α) s log r t ↔ log = [] ∧ r = .ok a ∧ t = s := by
  constructor
  · intro h
    cases h
    exact ⟨rfl, rfl, rfl⟩
  · rintro ⟨rfl, rfl, rfl⟩
    exact .done _ _

@[simp] theorem plays_fault {e : ε} {r : Except ε α} :
    Plays allowed (fault e : Guarded σ ε Q A α) s log r t ↔ log = [] ∧ r = .error e ∧ t = s := by
  constructor
  · intro h
    cases h
    exact ⟨rfl, rfl, rfl⟩
  · rintro ⟨rfl, rfl, rfl⟩
    exact .fault _ _

theorem plays_bind {r : Except ε β} : Plays allowed (x >>= f) s log r t ↔
    (∃ e, r = .error e ∧ Plays allowed x s log (.error e) t) ∨
    ∃ l a u l', Plays allowed x s l (.ok a) u ∧ Plays allowed (f a) u l' r t ∧ log = l ++ l' :=
  Course.plays_bind

@[simp] theorem plays_get_bind {r : Except ε β} {f : σ → Guarded σ ε Q A β} :
    Plays allowed (get >>= f) s log r t ↔ Plays allowed (f s) s log r t := Iff.rfl

@[simp] theorem plays_unguarded_bind {q : Q} {r : Except ε β} {f : A q → Guarded σ ε Q A β} :
    Plays allowed (unguarded q >>= f) s log r t ↔
      ∃ a u l, allowed q s a u ∧ Plays allowed (f a) u l r t ∧ log = ⟨q, a⟩ :: l := by
  constructor
  · intro h
    cases h with
    | released answer rest => exact ⟨_, _, _, answer, rest, rfl⟩
  · rintro ⟨a, u, l, answer, rest, rfl⟩
    exact .released answer rest

end plays

section only

variable {p : Q → Prop} {x : Guarded σ ε Q A α} {f : α → Guarded σ ε Q A β}

theorem only_pure (a : α) : Only p (pure a : Guarded σ ε Q A α) := fun _ => trivial

theorem only_fault (e : ε) : Only p (fault e : Guarded σ ε Q A α) := fun _ => trivial

theorem only_bind (first : Only p x) (rest : ∀ a, Only p (f a)) : Only p (x >>= f) :=
  fun s => (first s).bind fun a u => rest a u

theorem only_get {f : σ → Guarded σ ε Q A β} (rest : ∀ s, Only p (f s)) : Only p (get >>= f) :=
  fun s => rest s s

theorem only_modify (g : σ → σ) : Only p (modify g : Guarded σ ε Q A PUnit) := fun _ => trivial

theorem only_ask {q : Q} (may : p q) : Only p (ask q : Guarded σ ε Q A (A q)) :=
  fun _ => ⟨may, fun _ => trivial⟩

theorem only_unguarded {q : Q} (may : p q) : Only p (unguarded q : Guarded σ ε Q A (A q)) :=
  fun _ => ⟨may, fun _ _ => trivial⟩

theorem only_doWhen {c : Prop} [Decidable c] {x : Guarded σ ε Q A Unit} (h : Only p x) :
    Only p (doWhen c x) := by
  unfold doWhen
  split
  · exact h
  · exact only_pure ()

end only

end Guarded
