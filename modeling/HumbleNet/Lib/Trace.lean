import Mathlib.Logic.Basic

/-! Runs of a labelled transition system that remember what they passed: the moments of a
run are its labels, each with the state it was taken in, newest first. -/

/-- `Trace init step past t`: a run from an initial state, through `past`, to `t`. -/
inductive Trace {σ δ : Type} (init : σ → Prop) (step : σ → δ → σ → Prop) :
    List (σ × δ) → σ → Prop where
  | start {s : σ} (initial : init s) : Trace init step [] s
  | next {past : List (σ × δ)} {s t : σ} {d : δ} (before : Trace init step past s)
    (taken : step s d t) : Trace init step ((s, d) :: past) t

namespace Trace

variable {σ δ : Type} {init : σ → Prop} {step : σ → δ → σ → Prop}

/-- What holds at the start, and is kept by every step, holds of every run. The relation
may speak of the past. -/
theorem invariant {I : List (σ × δ) → σ → Prop} (start : ∀ s, init s → I [] s)
    (keep : ∀ past s d t, Trace init step past s → I past s → step s d t → I ((s, d) :: past) t)
    {past : List (σ × δ)} {s : σ} (run : Trace init step past s) : I past s := by
  induction run with
  | start initial => exact start _ initial
  | next before taken ih => exact keep _ _ _ _ before ih taken

theorem append {past later : List (σ × δ)} {s t : σ} (before : Trace init step past s)
    (after : Trace (· = s) step later t) : Trace init step (later ++ past) t := by
  induction after with
  | start initial =>
    subst initial
    exact before
  | next _ taken ih => exact .next ih taken

def Reaches (step : σ → δ → σ → Prop) (s t : σ) : Prop :=
  ∃ later, Trace (· = s) step later t

theorem Reaches.refl (s : σ) : Reaches step s s := ⟨[], .start rfl⟩

theorem Reaches.single {s t : σ} {d : δ} (taken : step s d t) : Reaches step s t :=
  ⟨[(s, d)], .next (.start rfl) taken⟩

theorem Reaches.trans (s t u : σ) (h : Reaches step s t) (k : Reaches step t u) :
    Reaches step s u := by
  obtain ⟨l, hl⟩ := h
  obtain ⟨m, hm⟩ := k
  exact ⟨m ++ l, hl.append hm⟩

theorem Reaches.extend {past : List (σ × δ)} {s t : σ} (before : Trace init step past s)
    (h : Reaches step s t) : ∃ later, Trace init step (later ++ past) t := by
  obtain ⟨later, after⟩ := h
  exact ⟨later, before.append after⟩

def play (next : σ → δ → Option σ) (s : σ) (labels : List δ) : Option (List (σ × δ) × σ) :=
  labels.foldl (fun o d => o.bind fun r => (next r.2 d).map fun t => ((r.2, d) :: r.1, t))
    (some ([], s))

theorem of_play {next : σ → δ → Option σ} (sound : ∀ s d t, next s d = some t → step s d t)
    {s : σ} (initial : init s) {labels : List δ} {r : List (σ × δ) × σ}
    (played : play next s labels = some r) : Trace init step r.1 r.2 := by
  have fold : ∀ (labels : List δ) (o : Option (List (σ × δ) × σ)),
      (∀ r, o = some r → Trace init step r.1 r.2) → ∀ r,
      labels.foldl (fun o d => o.bind fun r => (next r.2 d).map fun t => ((r.2, d) :: r.1, t)) o =
        some r → Trace init step r.1 r.2 := by
    intro labels
    induction labels with
    | nil => exact fun _ before r h => before r h
    | cons d rest ih =>
      intro o before r h
      apply ih _ _ r h
      intro r' h'
      obtain ⟨q, hq, stepped⟩ := Option.bind_eq_some_iff.mp h'
      obtain ⟨t, taken, rfl⟩ := Option.map_eq_some_iff.mp stepped
      exact .next (before q hq) (sound q.2 d t taken)
  apply fold labels _ _ r played
  rintro _ ⟨⟩
  exact .start initial

end Trace

/-- At some moment `p`, and `holds` at every moment since. -/
def Since {α : Type} (holds p : α → Prop) : List α → Prop
  | [] => False
  | m :: past => p m ∨ holds m ∧ Since holds p past

namespace Since

variable {α : Type} {holds p q : α → Prop} {past : List α}

theorem iff_split : Since holds p past ↔
    ∃ later m earlier, past = later ++ m :: earlier ∧ p m ∧ ∀ l ∈ later, holds l := by
  induction past with
  | nil => simp [Since]
  | cons a past ih =>
    constructor
    · rintro (now | ⟨held, before⟩)
      · exact ⟨[], a, past, rfl, now, by simp⟩
      · obtain ⟨later, m, earlier, rfl, hm, hl⟩ := ih.mp before
        exact ⟨a :: later, m, earlier, rfl, hm, by simpa using ⟨held, hl⟩⟩
    · rintro ⟨later, m, earlier, eq, hm, hl⟩
      cases later with
      | nil =>
        cases eq
        exact Or.inl hm
      | cons b later =>
        cases eq
        exact Or.inr ⟨hl a List.mem_cons_self,
          ih.mpr ⟨later, m, earlier, rfl, hm, fun l h => hl l (List.mem_cons_of_mem _ h)⟩⟩

theorem exists_mem (h : Since holds p past) : ∃ m ∈ past, p m := by
  obtain ⟨later, m, earlier, rfl, now, _⟩ := iff_split.mp h
  exact ⟨m, List.mem_append_right _ List.mem_cons_self, now⟩

end Since
