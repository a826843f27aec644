import Mathlib.Logic.Relation

/-! Programs that run under a lock. A call to the outside either keeps the lock, and then
only an answer comes back, or releases it, and then the state may be another one when the
lock is taken again. `Meets` is the judgement for one program between its neighbours: what
it may rely on while it waits, what each of its segments guarantees, and what is true where
it faults. -/

/-- What a program comes to from a state: `held` and `released` are its calls. -/
inductive Course (σ ε Q : Type) (A : Q → Type) (α : Type) where
  | done (a : α) (s : σ)
  | fault (e : ε) (s : σ)
  | held (q : Q) (s : σ) (next : A q → Course σ ε Q A α)
  | released (q : Q) (s : σ) (next : A q → σ → Course σ ε Q A α)

def Guarded (σ ε Q : Type) (A : Q → Type) (α : Type) : Type := σ → Course σ ε Q A α

variable {σ ε Q α β τ : Type} {A : Q → Type}

namespace Course

def bind : Course σ ε Q A α → (α → σ → Course σ ε Q A β) → Course σ ε Q A β
  | done a s, f => f a s
  | fault e s, _ => fault e s
  | held q s next, f => held q s fun a => (next a).bind f
  | released q s next, f => released q s fun a t => (next a t).bind f

theorem bind_done (c : Course σ ε Q A α) : c.bind .done = c := by
  induction c with
  | done a s => rfl
  | fault e s => rfl
  | held q s next ih => exact congrArg (held q s) (funext ih)
  | released q s next ih =>
    exact congrArg (released q s) (funext fun a => funext fun t => ih a t)

theorem bind_assoc {γ : Type} (c : Course σ ε Q A α) (f : α → σ → Course σ ε Q A β)
    (g : β → σ → Course σ ε Q A γ) :
    (c.bind f).bind g = c.bind fun a s => (f a s).bind g := by
  induction c with
  | done a s => rfl
  | fault e s => rfl
  | held q s next ih => exact congrArg (held q s) (funext ih)
  | released q s next ih =>
    exact congrArg (released q s) (funext fun a => funext fun t => ih a t)

end Course

namespace Guarded

open Course

instance : Monad (Guarded σ ε Q A) where
  pure a := fun s => .done a s
  bind x f := fun s => (x s).bind f

instance : LawfulMonad (Guarded σ ε Q A) :=
  LawfulMonad.mk' _ (fun x => funext fun s => bind_done (x s)) (fun _ _ => rfl)
    (fun x f g => funext fun s => bind_assoc (x s) f g)

instance : MonadStateOf σ (Guarded σ ε Q A) where
  get := fun s => .done s s
  set t := fun _ => .done ⟨⟩ t
  modifyGet f := fun s => .done (f s).1 (f s).2

def fault (e : ε) : Guarded σ ε Q A α := fun s => .fault e s

def ask (q : Q) : Guarded σ ε Q A (A q) := fun s => .held q s fun a => .done a s

def unguarded (q : Q) : Guarded σ ε Q A (A q) := fun s => .released q s fun a t => .done a t

def doWhen (c : Prop) [Decidable c] (x : Guarded σ ε Q A Unit) : Guarded σ ε Q A Unit :=
  if c then x else pure ()

end Guarded

/-- The two sides of the lock. `allowed q s a t`: the call `q`, made in `s`, may be answered
by `a` when the state has become `t`. -/
structure Terms (σ ε Q : Type) (A : Q → Type) where
  allowed : (q : Q) → σ → A q → σ → Prop
  rely : σ → σ → Prop
  guar : σ → σ → Prop
  blame : ε → σ → Prop
  refl : ∀ s, guar s s
  trans : ∀ s t u, guar s t → guar t u → guar s u

namespace Course

/-- Every segment that began in `b` keeps the guarantee, every fault is to blame on a state
that the guarantee leads to, and what is returned satisfies `post`. -/
def Meets (T : Terms σ ε Q A) (post : α → σ → Prop) (b : σ) : Course σ ε Q A α → Prop
  | done a s => T.guar b s ∧ post a s
  | fault e _ => ∃ u, T.guar b u ∧ T.blame e u
  | held q s next => ∀ a, T.allowed q s a s → (next a).Meets T post b
  | released q s next =>
    T.guar b s ∧ ∀ a t, T.allowed q s a t → T.rely s t → (next a t).Meets T post t

variable {T : Terms σ ε Q A}

theorem Meets.mono {post post' : α → σ → Prop} (imp : ∀ a s, post a s → post' a s)
    {c : Course σ ε Q A α} {b : σ} (h : c.Meets T post b) : c.Meets T post' b := by
  induction c generalizing b with
  | done a s => exact ⟨h.1, imp a s h.2⟩
  | fault e s => exact h
  | held q s next ih => exact fun a ha => ih a (h a ha)
  | released q s next ih => exact ⟨h.1, fun a t ha ht => ih a t (h.2 a t ha ht)⟩

theorem Meets.and {post post' : α → σ → Prop} {c : Course σ ε Q A α} {b : σ}
    (h : c.Meets T post b) (h' : c.Meets T post' b) :
    c.Meets T (fun a s => post a s ∧ post' a s) b := by
  induction c generalizing b with
  | done a s => exact ⟨h.1, h.2, h'.2⟩
  | fault e s => exact h
  | held q s next ih => exact fun a ha => ih a (h a ha) (h' a ha)
  | released q s next ih => exact ⟨h.1, fun a t ha ht => ih a t (h.2 a t ha ht) (h'.2 a t ha ht)⟩

theorem Meets.earlier {post : α → σ → Prop} {c : Course σ ε Q A α} {b b' : σ}
    (g : T.guar b' b) (h : c.Meets T post b) : c.Meets T post b' := by
  induction c with
  | done a s => exact ⟨T.trans _ _ _ g h.1, h.2⟩
  | fault e s =>
    obtain ⟨u, g', blame⟩ := h
    exact ⟨u, T.trans _ _ _ g g', blame⟩
  | held q s next ih => exact fun a ha => ih a (h a ha)
  | released q s next _ => exact ⟨T.trans _ _ _ g h.1, h.2⟩

theorem Meets.bind {mid : α → σ → Prop} {post : β → σ → Prop} {c : Course σ ε Q A α}
    {f : α → σ → Course σ ε Q A β} {b : σ} (h : c.Meets T mid b)
    (next : ∀ a s, mid a s → (f a s).Meets T post s) : (c.bind f).Meets T post b := by
  induction c generalizing b with
  | done a s => exact (next a s h.2).earlier h.1
  | fault e s => exact h
  | held q s k ih => exact fun a ha => ih a (h a ha)
  | released q s k ih => exact ⟨h.1, fun a t ha ht => ih a t (h.2 a t ha ht)⟩

theorem Meets.carry {T' : Terms σ ε Q A} {R : σ → Prop}
    (allowed : ∀ q s a t, T'.allowed q s a t → T.allowed q s a t)
    (guar : ∀ s t, T.guar s t → T'.guar s t) (blame : ∀ e s, T.blame e s → T'.blame e s)
    (rely : ∀ s t, T'.rely s t → T.rely s t) (kept : ∀ s t, R s → T.guar s t → R t)
    (relied : ∀ s t, R s → T'.rely s t → R t) {post : α → σ → Prop}
    {c : Course σ ε Q A α} {b : σ} (here : R b) (h : c.Meets T post b) :
    c.Meets T' (fun a s => post a s ∧ R s) b := by
  induction c generalizing b with
  | done a s => exact ⟨guar b s h.1, h.2, kept b s here h.1⟩
  | fault e s =>
    obtain ⟨u, g, to_blame⟩ := h
    exact ⟨u, guar b u g, blame e u to_blame⟩
  | held q s next ih => exact fun a ha => ih a here (h a (allowed q s a s ha))
  | released q s next ih =>
    refine ⟨guar b s h.1, fun a t ha ht => ?_⟩
    exact ih a t (relied s t (kept b s here h.1) ht) (h.2 a t (allowed q s a t ha) (rely s t ht))

theorem Meets.relying {rely : σ → σ → Prop} (le : ∀ s t, rely s t → T.rely s t)
    {post : α → σ → Prop} {c : Course σ ε Q A α} {b : σ} (h : c.Meets T post b) :
    c.Meets { T with rely := rely } post b := by
  induction c generalizing b with
  | done a s => exact h
  | fault e s => exact h
  | held q s next ih => exact fun a ha => ih a (h a ha)
  | released q s next ih =>
    exact ⟨h.1, fun a t ha ht => ih a t (h.2 a t ha (le s t ht))⟩

end Course

namespace Guarded

variable {T : Terms σ ε Q A} {post : β → σ → Prop} {b s : σ}

/-! The rules keep the state `b` where the segment began apart from the state `s` that is
reached, so that several assignments can make one step of the guarantee. -/
section rules

theorem meets_pure {a : β} (guar : T.guar b s) (h : post a s) :
    ((pure a : Guarded σ ε Q A β) s).Meets T post b := ⟨guar, h⟩

theorem meets_bind {x : Guarded σ ε Q A α} {f : α → Guarded σ ε Q A β} {mid : α → σ → Prop}
    (h : (x s).Meets T mid b) (next : ∀ a t, mid a t → (f a t).Meets T post t) :
    ((x >>= f) s).Meets T post b := h.bind next

theorem meets_get {f : σ → Guarded σ ε Q A β} (h : (f s s).Meets T post b) :
    ((get >>= f) s).Meets T post b := h

theorem meets_modify {g : σ → σ} {f : Unit → Guarded σ ε Q A β}
    (h : (f () (g s)).Meets T post b) : ((modify g >>= f) s).Meets T post b := h

theorem meets_modify_last {g : σ → σ} {post : Unit → σ → Prop} (guar : T.guar b (g s))
    (h : post () (g s)) : ((modify g : Guarded σ ε Q A Unit) s).Meets T post b := ⟨guar, h⟩

theorem meets_fault {e : ε} {u : σ} (guar : T.guar b u) (h : T.blame e u) :
    ((fault e : Guarded σ ε Q A β) s).Meets T post b := ⟨u, guar, h⟩

theorem meets_ask {q : Q} {f : A q → Guarded σ ε Q A β}
    (h : ∀ a, T.allowed q s a s → (f a s).Meets T post b) :
    ((ask q >>= f) s).Meets T post b := h

theorem meets_unguarded_last {q : Q} {post : A q → σ → Prop} (guar : T.guar b s)
    (h : ∀ a t, T.allowed q s a t → T.rely s t → post a t) :
    ((unguarded q : Guarded σ ε Q A (A q)) s).Meets T post b :=
  ⟨guar, fun a t ha ht => ⟨T.refl t, h a t ha ht⟩⟩

theorem meets_doWhen {c : Prop} [Decidable c] {x : Guarded σ ε Q A Unit}
    {post : Unit → σ → Prop} (yes : c → (x s).Meets T post b)
    (no : ¬ c → T.guar b s ∧ post () s) : ((doWhen c x) s).Meets T post b := by
  unfold doWhen
  split
  · exact yes ‹_›
  · exact no ‹_›

end rules

/-- Run from where `P` holds, the program ends where `P'` holds. -/
def Settles (T : Terms σ ε Q A) (P P' : σ → Prop) (x : Guarded σ ε Q A α) : Prop :=
  ∀ s, P s → (x s).Meets T (fun _ t => P' t) s

section settles

variable {P P' P'' : σ → Prop}

theorem settles_pure (imp : ∀ s, P s → P' s) (a : α) :
    Settles T P P' (pure a : Guarded σ ε Q A α) :=
  fun s h => meets_pure (T.refl s) (imp s h)

theorem settles_bind {x : Guarded σ ε Q A α} {f : α → Guarded σ ε Q A β}
    (hx : Settles T P P' x) (hf : ∀ a, Settles T P' P'' (f a)) : Settles T P P'' (x >>= f) := by
  intro s h
  apply meets_bind (hx s h)
  exact fun a t h' => hf a t h'

theorem settles_get {f : σ → Guarded σ ε Q A β} (h : ∀ a, Settles T P P' (f a)) :
    Settles T P P' (get >>= f) :=
  fun s hs => meets_get (h s s hs)

theorem settles_modify {g : σ → σ} (guar : ∀ s, P s → T.guar s (g s))
    (imp : ∀ s, P s → P' (g s)) : Settles T P P' (modify g : Guarded σ ε Q A Unit) :=
  fun s h => meets_modify_last (guar s h) (imp s h)

theorem Settles.mono {x : Guarded σ ε Q A α} (before : ∀ s, P s → P' s)
    (h : Settles T P' P'' x) : Settles T P P'' x :=
  fun s hs => h s (before s hs)

end settles

end Guarded

/-! Several programs that share the lock. Between two steps the lock is free and every
program that has begun waits for an answer. -/
section pool

inductive Outcome (σ ε Q : Type) (A : Q → Type) (α : Type) where
  | finished (a : α) (s : σ)
  | crashed (e : ε) (s : σ)
  | parked (q : Q) (s : σ) (next : A q → σ → Course σ ε Q A α)

/-- One segment: up to the next release of the lock. -/
inductive Segment (allowed : (q : Q) → σ → A q → σ → Prop) :
    Course σ ε Q A α → Outcome σ ε Q A α → Prop where
  | done {a : α} {s : σ} : Segment allowed (.done a s) (.finished a s)
  | fault {e : ε} {s : σ} : Segment allowed (.fault e s) (.crashed e s)
  | released {q : Q} {s : σ} {next : A q → σ → Course σ ε Q A α} :
    Segment allowed (.released q s next) (.parked q s next)
  | held {q : Q} {s : σ} {next : A q → Course σ ε Q A α} {a : A q} {o : Outcome σ ε Q A α}
    (answer : allowed q s a s) (rest : Segment allowed (next a) o) :
    Segment allowed (.held q s next) o

def Outcome.Meets (T : Terms σ ε Q A) (post : α → σ → Prop) (b : σ) :
    Outcome σ ε Q A α → Prop
  | .finished a s => T.guar b s ∧ post a s
  | .crashed e _ => ∃ u, T.guar b u ∧ T.blame e u
  | .parked q s next =>
    T.guar b s ∧ ∀ a t, T.allowed q s a t → T.rely s t → (next a t).Meets T post t

theorem Course.Meets.segment {T : Terms σ ε Q A} {post : α → σ → Prop} {b : σ}
    {c : Course σ ε Q A α} {o : Outcome σ ε Q A α} (seg : Segment T.allowed c o)
    (h : c.Meets T post b) : o.Meets T post b := by
  induction seg with
  | done => exact h
  | fault => exact h
  | released => exact h
  | held answer _ ih => exact ih (h _ answer)

/-- A program that waits, with the kind of program it is and the state it left. -/
structure Parked (τ σ ε Q : Type) (A : Q → Type) (α : Type) where
  tag : τ
  q : Q
  left : σ
  next : A q → σ → Course σ ε Q A α

structure Pool (τ σ ε Q : Type) (A : Q → Type) (α : Type) where
  state : σ
  parked : List (Parked τ σ ε Q A α)

inductive Config (τ σ ε Q : Type) (A : Q → Type) (α : Type) where
  | running (pool : Pool τ σ ε Q A α)
  | crashed (tag : τ) (e : ε) (s : σ)

def Outcome.pool (tag : τ) (rest : List (Parked τ σ ε Q A α)) :
    Outcome σ ε Q A α → Config τ σ ε Q A α
  | .finished _ s => .running ⟨s, rest⟩
  | .crashed e s => .crashed tag e s
  | .parked q s next => .running ⟨s, ⟨tag, q, s, next⟩ :: rest⟩

/-- What the outside may answer, and which programs may begin in a state beside the kinds
that are waiting. -/
structure Setting (τ σ ε Q : Type) (A : Q → Type) (α : Type) where
  allowed : (q : Q) → σ → A q → σ → Prop
  begins : τ → List τ → σ → Guarded σ ε Q A α → Prop

variable {E : Setting τ σ ε Q A α}

inductive Setting.Step (E : Setting τ σ ε Q A α) :
    Pool τ σ ε Q A α → Config τ σ ε Q A α → Prop where
  | enter {s : σ} {parked : List (Parked τ σ ε Q A α)} {tag : τ} {x : Guarded σ ε Q A α}
    {o : Outcome σ ε Q A α} (begins : E.begins tag (parked.map Parked.tag) s x)
    (seg : Segment E.allowed (x s) o) : E.Step ⟨s, parked⟩ (o.pool tag parked)
  | resume {s : σ} {before after : List (Parked τ σ ε Q A α)} {p : Parked τ σ ε Q A α}
    {a : A p.q} {o : Outcome σ ε Q A α} (answer : E.allowed p.q p.left a s)
    (seg : Segment E.allowed (p.next a s) o) :
    E.Step ⟨s, before ++ p :: after⟩ (o.pool p.tag (before ++ after))

/-- The configurations of the runs from a state where nothing has begun. -/
inductive Setting.Reach (E : Setting τ σ ε Q A α) (init : σ → Prop) :
    Config τ σ ε Q A α → Prop where
  | start {s : σ} (h : init s) : E.Reach init (.running ⟨s, []⟩)
  | step {pool : Pool τ σ ε Q A α} {c : Config τ σ ε Q A α}
    (reached : E.Reach init (.running pool)) (step : E.Step pool c) : E.Reach init c

/-- How the programs of a setting are judged together. `inv` holds whenever the lock is
free; `idle tag` holds whenever no program of the kind `tag` waits, which is of use for the
kinds that exclude themselves. -/
structure Discipline (E : Setting τ σ ε Q A α) where
  terms : τ → Terms σ ε Q A
  inv : σ → Prop
  exclusive : τ → Prop
  idle : τ → σ → Prop
  allowed_eq : ∀ tag, (terms tag).allowed = E.allowed
  alone : ∀ tag tags s x, E.begins tag tags s x → exclusive tag → tag ∉ tags
  keeps : ∀ tag s t, inv s → (terms tag).guar s t → inv t
  rely_refl : ∀ tag s, inv s → (terms tag).rely s s
  rely_trans : ∀ tag s t u, (terms tag).rely s t → (terms tag).rely t u → (terms tag).rely s u
  others : ∀ tag tag' s t, tag ≠ tag' ∨ ¬ exclusive tag → inv s → inv t →
    (terms tag).guar s t → (terms tag').rely s t
  idle_others : ∀ tag tag' s t, tag ≠ tag' → inv s → (terms tag).guar s t →
    idle tag' s → idle tag' t
  idle_shared : ∀ tag s, ¬ exclusive tag → idle tag s
  entry : ∀ tag tags s x, E.begins tag tags s x → inv s → idle tag s →
    (x s).Meets (terms tag) (fun _ => idle tag) s

theorem Outcome.Meets.guar {T : Terms σ ε Q A} {post : α → σ → Prop} {b : σ} {tag : τ}
    {rest : List (Parked τ σ ε Q A α)} {o : Outcome σ ε Q A α} {pool : Pool τ σ ε Q A α}
    (h : o.Meets T post b) (eq : o.pool tag rest = .running pool) : T.guar b pool.state := by
  cases o with
  | finished a s =>
    cases eq
    exact h.1
  | crashed e s => cases eq
  | parked q s next =>
    cases eq
    exact h.1

namespace Discipline

variable (D : Discipline E)

def Waits (p : Parked τ σ ε Q A α) : Prop :=
  ∀ a t, (D.terms p.tag).allowed p.q p.left a t → (D.terms p.tag).rely p.left t →
    (p.next a t).Meets (D.terms p.tag) (fun _ => D.idle p.tag) t

structure Holds (pool : Pool τ σ ε Q A α) : Prop where
  inv : D.inv pool.state
  waits : ∀ p ∈ pool.parked, D.Waits p
  relied : ∀ p ∈ pool.parked, (D.terms p.tag).rely p.left pool.state
  idle : ∀ tag, tag ∉ pool.parked.map Parked.tag → D.idle tag pool.state
  single : (pool.parked.map Parked.tag).Pairwise fun tag tag' => tag = tag' → ¬ D.exclusive tag

def Good : Config τ σ ε Q A α → Prop
  | .running pool => D.Holds pool
  | .crashed tag e _ => ∃ u, D.inv u ∧ (D.terms tag).blame e u

theorem after_segment {tag : τ} {b : σ} {rest : List (Parked τ σ ε Q A α)}
    (inv : D.inv b) (waits : ∀ p ∈ rest, D.Waits p)
    (relied : ∀ p ∈ rest, (D.terms p.tag).rely p.left b)
    (idle : ∀ tag', tag' ≠ tag → tag' ∉ rest.map Parked.tag → D.idle tag' b)
    (single : (rest.map Parked.tag).Pairwise fun tag tag' => tag = tag' → ¬ D.exclusive tag)
    (apart : ∀ p ∈ rest, tag ≠ p.tag ∨ ¬ D.exclusive tag) {o : Outcome σ ε Q A α}
    (h : o.Meets (D.terms tag) (fun _ => D.idle tag) b) : D.Good (o.pool tag rest) := by
  have carry : ∀ t, (D.terms tag).guar b t →
      ∀ p ∈ rest, (D.terms p.tag).rely p.left t := by
    intro t g p hp
    have inv' : D.inv t := D.keeps tag b t inv g
    exact D.rely_trans _ _ _ _ (relied p hp) (D.others _ _ _ _ (apart p hp) inv inv' g)
  have others : ∀ t, (D.terms tag).guar b t → ∀ tag', tag' ≠ tag →
      tag' ∉ rest.map Parked.tag → D.idle tag' t := by
    intro t g tag' ne out
    exact D.idle_others tag tag' b t (Ne.symm ne) inv g (idle tag' ne out)
  cases o with
  | finished a s =>
    refine ⟨D.keeps tag b s inv h.1, waits, carry s h.1, ?_, single⟩
    intro tag' out
    by_cases eq : tag' = tag
    · rw [eq]
      exact h.2
    · exact others s h.1 tag' eq out
  | crashed e s =>
    obtain ⟨u, guar, blame⟩ := h
    exact ⟨u, D.keeps tag b u inv guar, blame⟩
  | parked q s next =>
    have inv' : D.inv s := D.keeps tag b s inv h.1
    refine ⟨inv', ?_, ?_, ?_, ?_⟩
    · intro p hp
      rcases List.mem_cons.mp hp with rfl | hp
      · exact h.2
      · exact waits p hp
    · intro p hp
      rcases List.mem_cons.mp hp with rfl | hp
      · exact D.rely_refl tag s inv'
      · exact carry s h.1 p hp
    · intro tag' out
      rw [List.map_cons, List.mem_cons, not_or] at out
      exact others s h.1 tag' out.1 out.2
    · refine List.pairwise_cons.mpr ⟨?_, single⟩
      intro tag' mem eq
      obtain ⟨p, hp, rfl⟩ := List.mem_map.mp mem
      rcases apart p hp with ne | shared
      · exact absurd eq ne
      · exact shared

theorem entered {s : σ} {parked : List (Parked τ σ ε Q A α)} (holds : D.Holds ⟨s, parked⟩)
    {tag : τ} {x : Guarded σ ε Q A α} {o : Outcome σ ε Q A α}
    (begins : E.begins tag (parked.map Parked.tag) s x) (seg : Segment E.allowed (x s) o) :
    o.Meets (D.terms tag) (fun _ => D.idle tag) s := by
  have idle : D.idle tag s := by
    by_cases ex : D.exclusive tag
    · exact holds.idle tag (D.alone _ _ _ _ begins ex)
    · exact D.idle_shared tag s ex
  rw [← D.allowed_eq tag] at seg
  exact (D.entry tag _ s x begins holds.inv idle).segment seg

theorem resumed {s : σ} {parked : List (Parked τ σ ε Q A α)} (holds : D.Holds ⟨s, parked⟩)
    {p : Parked τ σ ε Q A α} (here : p ∈ parked) {a : A p.q} {o : Outcome σ ε Q A α}
    (answer : E.allowed p.q p.left a s) (seg : Segment E.allowed (p.next a s) o) :
    o.Meets (D.terms p.tag) (fun _ => D.idle p.tag) s := by
  rw [← D.allowed_eq p.tag] at answer seg
  exact (holds.waits p here a s answer (holds.relied p here)).segment seg

theorem good_step {pool : Pool τ σ ε Q A α} {c : Config τ σ ε Q A α} (holds : D.Holds pool)
    (step : E.Step pool c) : D.Good c := by
  cases step with
  | @enter s parked tag x o begins seg =>
    refine D.after_segment holds.inv holds.waits holds.relied
      (fun tag' _ out => holds.idle tag' out) holds.single ?_ (D.entered holds begins seg)
    intro p hp
    by_cases ex : D.exclusive tag
    · left
      rintro rfl
      exact D.alone _ _ _ _ begins ex (List.mem_map_of_mem hp)
    · exact Or.inr ex
  | @resume s before after p a o answer seg =>
    have mem : ∀ p' ∈ before ++ after, p' ∈ before ++ p :: after := by
      intro p' hp'
      rcases List.mem_append.mp hp' with h | h
      · exact List.mem_append_left _ h
      · exact List.mem_append_right _ (List.mem_cons_of_mem p h)
    have here : p ∈ before ++ p :: after :=
      List.mem_append_right _ List.mem_cons_self
    have single := holds.single
    simp only [List.map_append, List.map_cons] at single
    have swap : ∀ {x y : τ}, (x = y → ¬ D.exclusive x) → y = x → ¬ D.exclusive y := by
      intro x y h eq
      rw [eq]
      exact h eq.symm
    obtain ⟨apart, single'⟩ := List.pairwise_cons.mp ((List.pairwise_middle swap).mp single)
    refine D.after_segment holds.inv (fun p' hp' => holds.waits p' (mem p' hp'))
      (fun p' hp' => holds.relied p' (mem p' hp')) ?_ (List.map_append ▸ single') ?_
      (D.resumed holds here answer seg)
    · intro tag' ne out
      refine holds.idle tag' fun inside => ?_
      obtain ⟨p', hp', rfl⟩ := List.mem_map.mp inside
      rcases List.mem_append.mp hp' with h | h
      · exact out (List.mem_map_of_mem (List.mem_append_left _ h))
      · rcases List.mem_cons.mp h with rfl | h
        · exact ne rfl
        · exact out (List.mem_map_of_mem (List.mem_append_right _ h))
    · intro p' hp'
      by_cases eq : p.tag = p'.tag
      · exact Or.inr (apart p'.tag (List.map_append ▸ List.mem_map_of_mem hp') eq)
      · exact Or.inl eq

theorem guar_of_step {pool pool' : Pool τ σ ε Q A α} (holds : D.Holds pool)
    (step : E.Step pool (.running pool')) :
    ∃ tag, (D.terms tag).guar pool.state pool'.state := by
  generalize eq : Config.running pool' = c at step
  cases step with
  | enter begins seg => exact ⟨_, Outcome.Meets.guar (D.entered holds begins seg) eq.symm⟩
  | @resume s before after p a o answer seg =>
    have here : p ∈ before ++ p :: after := List.mem_append_right _ List.mem_cons_self
    exact ⟨_, Outcome.Meets.guar (D.resumed holds here answer seg) eq.symm⟩

/-- Over whole runs: the invariant holds between the segments, the idle condition of a kind
whenever none of it waits, and a crash is to blame on the state it happens in. -/
theorem good_of_reach {init : σ → Prop}
    (start : ∀ s, init s → D.inv s ∧ ∀ tag, D.idle tag s) {c : Config τ σ ε Q A α}
    (reach : E.Reach init c) : D.Good c := by
  induction reach with
  | start h =>
    have ⟨inv, idle⟩ := start _ h
    exact ⟨inv, fun _ hp => absurd hp List.not_mem_nil, fun _ hp => absurd hp List.not_mem_nil,
      fun tag _ => idle tag, List.Pairwise.nil⟩
  | step _ step ih => exact D.good_step ih step

end Discipline

def Config.stopped : Config τ σ ε Q A α → Option ε
  | .running _ => none
  | .crashed _ e _ => some e

def Config.now : Config τ σ ε Q A α → Option σ
  | .running pool => some pool.state
  | .crashed _ _ _ => none

def Config.resting : Config τ σ ε Q A α → Option σ
  | .running ⟨s, []⟩ => some s
  | _ => none

theorem Config.resting_some {c : Config τ σ ε Q A α} {s : σ} (h : c.resting = some s) :
    c = .running ⟨s, []⟩ := by
  unfold Config.resting at h
  split at h
  · cases h
    rfl
  · cases h

def Config.quiet : Config τ σ ε Q A α → Bool
  | .running pool => pool.parked.isEmpty
  | .crashed _ _ _ => false

/-! Runs that are computed: an outside that answers each call in one way, when it may. -/

def Course.follow (answers : (q : Q) → σ → σ → Option (A q)) :
    Course σ ε Q A α → Option (Outcome σ ε Q A α)
  | .done a s => some (.finished a s)
  | .fault e s => some (.crashed e s)
  | .released q s next => some (.parked q s next)
  | .held q s next =>
    match answers q s s with
    | some a => (next a).follow answers
    | none => none

theorem Course.segment_of_follow {answers : (q : Q) → σ → σ → Option (A q)}
    {allowed : (q : Q) → σ → A q → σ → Prop}
    (may : ∀ q s t a, answers q s t = some a → allowed q s a t) {c : Course σ ε Q A α}
    {o : Outcome σ ε Q A α} (h : c.follow answers = some o) : Segment allowed c o := by
  induction c with
  | done a s =>
    cases h
    exact .done
  | fault e s =>
    cases h
    exact .fault
  | released q s next _ =>
    cases h
    exact .released
  | held q s next ih =>
    unfold Course.follow at h
    split at h
    · rename_i a answer
      exact .held (may q s s a answer) (ih a h)
    · cases h

def Config.settle (answers : (q : Q) → σ → σ → Option (A q)) :
    Nat → Config τ σ ε Q A α → Option (Config τ σ ε Q A α)
  | 0, c => some c
  | _ + 1, .crashed tag e s => some (.crashed tag e s)
  | _ + 1, .running ⟨s, []⟩ => some (.running ⟨s, []⟩)
  | n + 1, .running ⟨s, p :: rest⟩ =>
    match answers p.q p.left s with
    | none => none
    | some a =>
      match (p.next a s).follow answers with
      | none => none
      | some o => (o.pool p.tag rest).settle answers n

theorem Setting.Reach.settle {E : Setting τ σ ε Q A α} {init : σ → Prop}
    {answers : (q : Q) → σ → σ → Option (A q)}
    (may : ∀ q s t a, answers q s t = some a → E.allowed q s a t) {n : Nat}
    {c c' : Config τ σ ε Q A α} (reach : E.Reach init c) (h : c.settle answers n = some c') :
    E.Reach init c' := by
  induction n generalizing c with
  | zero =>
    cases h
    exact reach
  | succ n ih =>
    match c, reach, h with
    | .crashed tag e s, reach, h =>
      cases h
      exact reach
    | .running ⟨s, []⟩, reach, h =>
      cases h
      exact reach
    | .running ⟨s, p :: rest⟩, reach, h =>
      unfold Config.settle at h
      split at h
      · cases h
      · rename_i a answer
        split at h
        · cases h
        · rename_i o followed
          have step : E.Step ⟨s, [] ++ p :: rest⟩ (o.pool p.tag ([] ++ rest)) :=
            .resume (may _ _ _ _ answer) (Course.segment_of_follow may followed)
          exact ih (.step reach step) h

def Config.enter (answers : (q : Q) → σ → σ → Option (A q)) (tag : τ) (x : Guarded σ ε Q A α) :
    Config τ σ ε Q A α → Option (Config τ σ ε Q A α)
  | .running ⟨s, parked⟩ =>
    match (x s).follow answers with
    | none => none
    | some o => some (o.pool tag parked)
  | .crashed _ _ _ => none

theorem Setting.Reach.enter {E : Setting τ σ ε Q A α} {init : σ → Prop}
    {answers : (q : Q) → σ → σ → Option (A q)}
    (may : ∀ q s t a, answers q s t = some a → E.allowed q s a t) {tag : τ}
    {x : Guarded σ ε Q A α} (begins : ∀ tags s, E.begins tag tags s x)
    {c c' : Config τ σ ε Q A α} (reach : E.Reach init c) (h : c.enter answers tag x = some c') :
    E.Reach init c' := by
  match c, reach, h with
  | .running ⟨s, parked⟩, reach, h =>
    simp only [Config.enter] at h
    split at h
    · cases h
    · rename_i o followed
      cases h
      exact .step reach (.enter (begins _ s) (Course.segment_of_follow may followed))
  | .crashed _ _ _, _, h => cases h

def Config.perform (answers : (q : Q) → σ → σ → Option (A q)) (n : Nat) (tag : τ)
    (x : Guarded σ ε Q A α) : Config τ σ ε Q A α → Option (Config τ σ ε Q A α)
  | .running ⟨s, []⟩ =>
    match (x s).follow answers with
    | none => none
    | some o => (o.pool tag []).settle answers n
  | _ => none

theorem Setting.Reach.perform {E : Setting τ σ ε Q A α} {init : σ → Prop}
    {answers : (q : Q) → σ → σ → Option (A q)}
    (may : ∀ q s t a, answers q s t = some a → E.allowed q s a t) {n : Nat} {tag : τ}
    {x : Guarded σ ε Q A α} (begins : ∀ s, E.begins tag [] s x) {c c' : Config τ σ ε Q A α}
    (reach : E.Reach init c) (h : c.perform answers n tag x = some c') : E.Reach init c' := by
  match c, reach, h with
  | .running ⟨s, []⟩, reach, h =>
    simp only [Config.perform] at h
    split at h
    · cases h
    · rename_i o followed
      have step : E.Step ⟨s, []⟩ (o.pool tag []) :=
        .enter (begins s) (Course.segment_of_follow may followed)
      exact Setting.Reach.settle may (.step reach step) h
  | .running ⟨s, _ :: _⟩, _, h => cases h
  | .crashed _ _ _, _, h => cases h

end pool
