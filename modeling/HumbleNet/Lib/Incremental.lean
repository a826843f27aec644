import Mathlib.Data.List.Basic

/-! Readers of a stream that arrives in pieces.
A reader looks at what has been buffered and asks for more, gives up, or takes an
item off the front. When its verdicts survive further input, the items it hands
out do not depend on how the stream was cut. -/
namespace Incremental

variable {α β τ : Type}

/-- What a reader says about the buffered input. -/
inductive Verdict (β : Type) where
  | more
  | bad
  | item (b : β) (n : Nat)
  deriving DecidableEq

/-- A reader whose verdicts are stable: an item or a failure stays what it was when
more input is appended, and an item removes at least one symbol. -/
structure Reader (α β : Type) where
  read : List α → Verdict β
  read_nil : read [] = .more
  item_pos : ∀ {xs b n}, read xs = .item b n → 0 < n
  item_le : ∀ {xs b n}, read xs = .item b n → n ≤ xs.length
  item_append : ∀ {xs b n} (ys), read xs = .item b n → read (xs ++ ys) = .item b n
  bad_append : ∀ {xs} (ys), read xs = .bad → read (xs ++ ys) = .bad

structure Session (α β τ : Type) where
  buffer : List α
  items : List β
  user : τ

def drain (R : Reader α β) (cb : β → τ → Bool × τ) (s : Session α β τ) :
    Bool × Session α β τ :=
  match _read : R.read s.buffer with
  | .more => (true, s)
  | .bad => (false, s)
  | .item b n =>
    let answer := cb b s.user
    if answer.1 then
      drain R cb ⟨s.buffer.drop n, s.items ++ [b], answer.2⟩
    else (false, ⟨s.buffer, s.items ++ [b], answer.2⟩)
  termination_by s.buffer.length
  decreasing_by
    have pos := R.item_pos _read
    have le := R.item_le _read
    simp only [List.length_drop]
    omega

section drain

variable (R : Reader α β) (cb : β → τ → Bool × τ)

theorem drain_more {s : Session α β τ} (h : R.read s.buffer = .more) :
    drain R cb s = (true, s) := by
  rw [drain]
  split
  · rfl
  · rename_i hb; rw [h] at hb; cases hb
  · rename_i hi; rw [h] at hi; cases hi

theorem drain_bad {s : Session α β τ} (h : R.read s.buffer = .bad) :
    drain R cb s = (false, s) := by
  rw [drain]
  split
  · rename_i hm; rw [h] at hm; cases hm
  · rfl
  · rename_i hi; rw [h] at hi; cases hi

theorem drain_item {s : Session α β τ} {b : β} {n : Nat} (h : R.read s.buffer = .item b n) :
    drain R cb s =
      if (cb b s.user).1 then drain R cb ⟨s.buffer.drop n, s.items ++ [b], (cb b s.user).2⟩
      else (false, ⟨s.buffer, s.items ++ [b], (cb b s.user).2⟩) := by
  rw [drain]
  split
  · rename_i hm; rw [h] at hm; cases hm
  · rename_i hb; rw [h] at hb; cases hb
  · rename_i b' n' hi
    rw [h] at hi
    cases hi
    rfl

def Session.push (s : Session α β τ) (ys : List α) : Session α β τ :=
  { s with buffer := s.buffer ++ ys }

@[simp] theorem Session.push_nil (s : Session α β τ) : s.push [] = s := by
  simp [Session.push]

theorem Session.push_push (s : Session α β τ) (xs ys : List α) :
    (s.push xs).push ys = s.push (xs ++ ys) := by
  simp [Session.push, List.append_assoc]

theorem drain_push (s : Session α β τ) (ys : List α) :
    drain R cb (s.push ys) =
      if (drain R cb s).1 then drain R cb ((drain R cb s).2.push ys)
      else (false, (drain R cb s).2.push ys) := by
  induction hn : s.buffer.length using Nat.strongRecOn generalizing s with
  | ind n ih =>
    cases hr : R.read s.buffer with
    | more => rw [drain_more R cb hr, if_pos rfl]
    | bad =>
      rw [drain_bad R cb hr, drain_bad R cb (s := s.push ys) (R.bad_append ys hr)]
      rfl
    | item b k =>
      have pos := R.item_pos hr
      have le := R.item_le hr
      rw [drain_item R cb hr, drain_item R cb (s := s.push ys) (R.item_append ys hr)]
      change (if (cb b s.user).1 then _ else _) = _
      cases hc : (cb b s.user).1 with
      | false => rfl
      | true =>
        simp only [if_true, Session.push, List.drop_append_of_le_length le]
        have shorter : (s.buffer.drop k).length < n := by rw [List.length_drop]; omega
        exact ih _ shorter ⟨s.buffer.drop k, s.items ++ [b], (cb b s.user).2⟩ rfl

theorem drain_settled (s : Session α β τ) (ok : (drain R cb s).1 = true) :
    R.read (drain R cb s).2.buffer = .more := by
  induction hn : s.buffer.length using Nat.strongRecOn generalizing s with
  | ind n ih =>
    cases hr : R.read s.buffer with
    | more => rw [drain_more R cb hr]; exact hr
    | bad => rw [drain_bad R cb hr] at ok; cases ok
    | item b k =>
      have pos := R.item_pos hr
      have le := R.item_le hr
      rw [drain_item R cb hr] at ok ⊢
      split at ok
      · rename_i hc
        rw [if_pos hc]
        exact ih (s.buffer.drop k).length (by rw [List.length_drop]; omega) _ ok rfl
      · cases ok

theorem drain_keeps {I : τ → Prop} (keeps : ∀ b u, I u → I (cb b u).2) (s : Session α β τ)
    (holds : I s.user) : I (drain R cb s).2.user := by
  induction hn : s.buffer.length using Nat.strongRecOn generalizing s with
  | ind n ih =>
    cases hr : R.read s.buffer with
    | more =>
      rw [drain_more R cb hr]
      exact holds
    | bad =>
      rw [drain_bad R cb hr]
      exact holds
    | item b k =>
      have pos := R.item_pos hr
      have le := R.item_le hr
      rw [drain_item R cb hr]
      split
      · exact ih (s.buffer.drop k).length (by rw [List.length_drop]; omega) _ (keeps _ _ holds) rfl
      · exact keeps _ _ holds

def feed (s : Session α β τ) : List (List α) → Bool × Session α β τ
  | [] => (true, s)
  | c :: cs =>
    if (drain R cb (s.push c)).1 then feed (drain R cb (s.push c)).2 cs
    else (false, (drain R cb (s.push c)).2)

theorem feed_keeps {I : τ → Prop} (keeps : ∀ b u, I u → I (cb b u).2) (chunks : List (List α))
    (s : Session α β τ) (holds : I s.user) : I (feed R cb s chunks).2.user := by
  induction chunks generalizing s with
  | nil => exact holds
  | cons c cs ih =>
    have first := drain_keeps R cb keeps (s.push c) holds
    rw [feed]
    split
    · exact ih _ first
    · exact first

/-- Two results that a caller who only sees the callback cannot tell apart. -/
def SameCalls (r t : Bool × Session α β τ) : Prop :=
  r.1 = t.1 ∧ r.2.items = t.2.items ∧ r.2.user = t.2.user ∧
    (r.1 = true → r.2.buffer = t.2.buffer)

theorem SameCalls.symm {r t : Bool × Session α β τ} (h : SameCalls r t) : SameCalls t r :=
  ⟨h.1.symm, h.2.1.symm, h.2.2.1.symm, fun ok => (h.2.2.2 (h.1.trans ok)).symm⟩

theorem SameCalls.trans {r t u : Bool × Session α β τ} (h : SameCalls r t)
    (k : SameCalls t u) : SameCalls r u :=
  ⟨h.1.trans k.1, h.2.1.trans k.2.1, h.2.2.1.trans k.2.2.1,
    fun ok => (h.2.2.2 ok).trans (k.2.2.2 (h.1.symm.trans ok))⟩

theorem feed_flatten (chunks : List (List α)) (s : Session α β τ)
    (settled : R.read s.buffer = .more) :
    SameCalls (feed R cb s chunks) (drain R cb (s.push chunks.flatten)) := by
  induction chunks generalizing s with
  | nil =>
    rw [List.flatten_nil, Session.push_nil, drain_more R cb settled]
    exact ⟨rfl, rfl, rfl, fun _ => rfl⟩
  | cons c cs ih =>
    rw [List.flatten_cons, ← Session.push_push, drain_push R cb (s.push c)]
    simp only [feed]
    cases ok : (drain R cb (s.push c)).1 with
    | true =>
      simp only [if_true]
      exact ih _ (drain_settled R cb _ ok)
    | false => exact ⟨rfl, rfl, rfl, fun h => by cases h⟩

/-- How the stream was cut does not show in the calls. -/
theorem feed_cut (xs ys : List (List α)) (same : xs.flatten = ys.flatten)
    (s : Session α β τ) (settled : R.read s.buffer = .more) :
    SameCalls (feed R cb s xs) (feed R cb s ys) := by
  have hx := feed_flatten R cb xs s settled
  have hy := feed_flatten R cb ys s settled
  rw [same] at hx
  exact hx.trans hy.symm

end drain

section encode

variable (R : Reader α β) (enc : β → List α)

def Accepts (cb : β → τ → Bool × τ) : Prop := ∀ b u, (cb b u).1 = true

theorem drain_encoded (cb : β → τ → Bool × τ) (accepts : Accepts cb) (bs : List β)
    (reads : ∀ b ∈ bs, ∀ ys, R.read (enc b ++ ys) = .item b (enc b).length)
    (rest : List α) (items : List β) (u : τ) :
    ∃ v, drain R cb ⟨(bs.map enc).flatten ++ rest, items, u⟩ =
      drain R cb ⟨rest, items ++ bs, v⟩ := by
  induction bs generalizing items u with
  | nil => exact ⟨u, by simp⟩
  | cons b bs ih =>
    have hr : R.read ((enc b ++ (bs.map enc).flatten) ++ rest) = .item b (enc b).length := by
      rw [List.append_assoc]
      exact reads b List.mem_cons_self _
    obtain ⟨v, hv⟩ := ih (fun b hb => reads b (List.mem_cons_of_mem _ hb))
      (items ++ [b]) (cb b u).2
    refine ⟨v, ?_⟩
    rw [List.map_cons, List.flatten_cons, drain_item R cb hr, if_pos (accepts b u)]
    simp only [List.append_assoc, List.drop_left] at hv ⊢
    exact hv

theorem read_within {xs ys : List α} {b : β} (within : ys ≠ [])
    (whole : R.read (xs ++ ys) = .item b (xs ++ ys).length) : R.read xs = .more := by
  cases seen : R.read xs with
  | more => rfl
  | bad =>
    rw [R.bad_append ys seen] at whole
    cases whole
  | item c n =>
    have le := R.item_le seen
    rw [R.item_append ys seen] at whole
    cases whole
    have pos := List.length_pos_iff.mpr within
    rw [List.length_append] at le
    omega

theorem encoded_prefix {γ : Type} (enc : γ → List α) (item : γ → β) (cs : List γ)
    (reads : ∀ c ∈ cs, ∀ ys, R.read (enc c ++ ys) = .item (item c) (enc c).length) {xs : List α}
    (front : xs <+: cs.flatMap enc) :
    ∃ n rest, xs = (cs.take n).flatMap enc ++ rest ∧ R.read rest = .more := by
  induction cs generalizing xs with
  | nil =>
    obtain rfl := List.prefix_nil.mp front
    exact ⟨0, [], rfl, R.read_nil⟩
  | cons c cs ih =>
    rw [List.flatMap_cons] at front
    by_cases short : xs.length < (enc c).length
    · obtain ⟨ys, split⟩ := List.prefix_of_prefix_length_le front (List.prefix_append _ _)
        (Nat.le_of_lt short)
      have left : ys ≠ [] := by
        rintro rfl
        rw [← split, List.append_nil] at short
        exact Nat.lt_irrefl _ short
      have whole := reads c List.mem_cons_self []
      rw [List.append_nil, ← split] at whole
      exact ⟨0, xs, rfl, read_within R left whole⟩
    · obtain ⟨ys, rfl⟩ := List.prefix_of_prefix_length_le (List.prefix_append _ _) front
        (Nat.not_lt.mp short)
      obtain ⟨n, rest, rfl, more⟩ := ih (fun c hc => reads c (List.mem_cons_of_mem _ hc))
        ((List.prefix_append_right_inj _).mp front)
      exact ⟨n + 1, rest, by simp, more⟩

end encode

section collect

variable (R : Reader α β)

structure Found (α β : Type) where
  items : List β
  rest : List α
  waits : Bool

def collect (xs : List α) : Found α β :=
  match _read : R.read xs with
  | .more => ⟨[], xs, true⟩
  | .bad => ⟨[], xs, false⟩
  | .item b n =>
    let found := collect (xs.drop n)
    { found with items := b :: found.items }
  termination_by xs.length
  decreasing_by
    have pos := R.item_pos _read
    have le := R.item_le _read
    simp only [List.length_drop]
    omega

variable {R} {xs : List α}

theorem collect_more (h : R.read xs = .more) : collect R xs = ⟨[], xs, true⟩ := by
  rw [collect]
  split <;> simp_all

theorem collect_bad (h : R.read xs = .bad) : collect R xs = ⟨[], xs, false⟩ := by
  rw [collect]
  split <;> simp_all

theorem collect_item {b : β} {n : Nat} (h : R.read xs = .item b n) :
    collect R xs = { collect R (xs.drop n) with items := b :: (collect R (xs.drop n)).items } := by
  rw [collect]
  split <;> simp_all

theorem collect_append (xs ys : List α) : collect R (xs ++ ys) =
    if (collect R xs).waits then
      { collect R ((collect R xs).rest ++ ys) with
        items := (collect R xs).items ++ (collect R ((collect R xs).rest ++ ys)).items }
    else ⟨(collect R xs).items, (collect R xs).rest ++ ys, false⟩ := by
  fun_induction collect R xs with
  | case1 xs h => simp
  | case2 xs h => simp [collect_bad (R.bad_append ys h)]
  | case3 xs b n h found ih =>
    have le := R.item_le h
    rw [collect_item (R.item_append ys h), List.drop_append_of_le_length le, ih]
    split <;> simp [found]

theorem collect_rest_le (xs : List α) : (collect R xs).rest.length ≤ xs.length := by
  fun_induction collect R xs with
  | case1 xs h => exact Nat.le_refl _
  | case2 xs h => exact Nat.le_refl _
  | case3 xs b n h found ih =>
    rw [List.length_drop] at ih
    exact Nat.le_trans ih (Nat.sub_le _ _)

theorem collect_waits (h : (collect R xs).waits = true) :
    R.read (collect R xs).rest = .more := by
  fun_induction collect R xs with
  | case1 xs more => exact more
  | case2 xs bad => cases h
  | case3 xs b n item found ih => exact ih h

theorem collect_encoded {γ : Type} (enc : γ → List α) (item : γ → β) (cs : List γ)
    (reads : ∀ c ∈ cs, ∀ ys, R.read (enc c ++ ys) = .item (item c) (enc c).length)
    {rest : List α} (more : R.read rest = .more) :
    collect R (cs.flatMap enc ++ rest) = ⟨cs.map item, rest, true⟩ := by
  induction cs with
  | nil => exact collect_more more
  | cons c cs ih =>
    have first := reads c List.mem_cons_self (cs.flatMap enc ++ rest)
    rw [List.flatMap_cons, List.append_assoc, collect_item first, List.drop_left,
      ih fun c hc => reads c (List.mem_cons_of_mem _ hc)]
    rfl

end collect

end Incremental
