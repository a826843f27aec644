import Mathlib.Data.List.AList

/-! Associative containers with the semantics of the C++ ones.
`StdMap` is Mathlib's list of key-distinct entries; `emplace` keeps an existing
entry, `eraseValue` drops every entry with a given value. A set of pointers is a
list read only through membership. -/

abbrev StdMap (K V : Type) := AList (fun _ : K => V)

namespace StdMap

variable {K V : Type} [DecidableEq K]

/-- `map.emplace(k, v)` and `map.insert({k, v})`: a present key keeps its value. -/
def emplace (k : K) (v : V) (m : StdMap K V) : StdMap K V :=
  if k ∈ m then m else m.insert k v

def filter (p : K → V → Bool) (m : StdMap K V) : StdMap K V :=
  ⟨m.entries.filter (fun e => p e.1 e.2), m.nodupKeys.sublist List.filter_sublist⟩

def modify (k : K) (f : V → V) (m : StdMap K V) : StdMap K V :=
  match m.lookup k with
  | some v => m.replace k (f v)
  | none => m

def eraseValue [DecidableEq V] (v : V) (m : StdMap K V) : StdMap K V :=
  filter (fun _ w => decide (w ≠ v)) m

theorem lookup_insert_if (k a : K) (v : V) (m : StdMap K V) :
    AList.lookup a (m.insert k v) = if a = k then some v else m.lookup a := by
  by_cases h : a = k
  · subst h
    rw [if_pos rfl, AList.lookup_insert]
  · rw [if_neg h, AList.lookup_insert_ne h]

theorem lookup_erase_if (k a : K) (m : StdMap K V) :
    AList.lookup a (m.erase k) = if a = k then none else m.lookup a := by
  by_cases h : a = k
  · subst h
    rw [if_pos rfl, AList.lookup_erase]
  · rw [if_neg h, AList.lookup_erase_ne h]

theorem lookup_emplace (k a : K) (v : V) (m : StdMap K V) :
    AList.lookup a (emplace k v m) =
      if a = k then some ((m.lookup k).getD v) else m.lookup a := by
  unfold emplace
  by_cases hk : k ∈ m
  · rw [if_pos hk]
    by_cases h : a = k
    · subst h
      obtain ⟨w, hw⟩ := Option.isSome_iff_exists.mp (AList.lookup_isSome.mpr hk)
      rw [if_pos rfl, hw, Option.getD_some]
    · rw [if_neg h]
  · rw [if_neg hk, lookup_insert_if, AList.lookup_eq_none.mpr hk, Option.getD_none]

theorem lookup_emplace_new (k a : K) (v : V) (m : StdMap K V) (h : m.lookup k = none) :
    AList.lookup a (emplace k v m) = if a = k then some v else m.lookup a := by
  rw [lookup_emplace, h, Option.getD_none]

theorem lookup_insert_some {k a : K} {v w : V} {m : StdMap K V}
    (h : AList.lookup a (m.insert k v) = some w) : w = v ∨ m.lookup a = some w := by
  rw [lookup_insert_if] at h
  split at h
  · exact Or.inl (Option.some.inj h).symm
  · exact Or.inr h

theorem lookup_emplace_some {k a : K} {v w : V} {m : StdMap K V}
    (h : AList.lookup a (emplace k v m) = some w) : w = v ∨ m.lookup a = some w := by
  unfold emplace at h
  split at h
  · exact Or.inr h
  · exact lookup_insert_some h

theorem lookup_emplace_entry {k a : K} {v w : V} {m : StdMap K V}
    (h : AList.lookup a (emplace k v m) = some w) : a = k ∧ w = v ∨ m.lookup a = some w := by
  unfold emplace at h
  split at h
  · exact Or.inr h
  · rw [lookup_insert_if] at h
    split at h
    · exact Or.inl ⟨‹_›, (Option.some.inj h).symm⟩
    · exact Or.inr h

theorem lookup_emplace_old {k a : K} {v w : V} {m : StdMap K V} (h : m.lookup a = some w) :
    AList.lookup a (emplace k v m) = some w := by
  rw [lookup_emplace]
  split
  · rename_i eq
    rw [← eq, h, Option.getD_some]
  · exact h

theorem lookup_erase_some {k a : K} {w : V} {m : StdMap K V}
    (h : AList.lookup a (m.erase k) = some w) : a ≠ k ∧ m.lookup a = some w := by
  rw [lookup_erase_if] at h
  split at h
  · cases h
  · exact ⟨‹_›, h⟩

theorem lookup_eq_some_iff (k : K) (v : V) (m : StdMap K V) :
    m.lookup k = some v ↔ (⟨k, v⟩ : Sigma fun _ : K => V) ∈ m.entries :=
  AList.mem_lookup_iff

theorem kreplace_cons (k b : K) (v w : V) (l : List (Sigma fun _ : K => V)) :
    List.kreplace k v (⟨b, w⟩ :: l) = if k = b then ⟨k, v⟩ :: l else ⟨b, w⟩ :: List.kreplace k v l := by
  unfold List.kreplace
  by_cases h : k = b
  · rw [if_pos h]
    exact List.lookmap_cons_some _ _ (if_pos h)
  · rw [if_neg h]
    exact List.lookmap_cons_none _ _ (if_neg h)

theorem lookup_replace (k a : K) (v : V) (m : StdMap K V) :
    AList.lookup a (m.replace k v) =
      if a = k then (m.lookup k).map fun _ => v else m.lookup a := by
  have lists : ∀ l : List (Sigma fun _ : K => V), List.dlookup a (List.kreplace k v l) =
      if a = k then (List.dlookup k l).map fun _ => v else List.dlookup a l := by
    intro l
    induction l with
    | nil => by_cases h : a = k <;> simp [List.kreplace, h]
    | cons e l ih =>
      obtain ⟨b, w⟩ := e
      rw [kreplace_cons]
      by_cases hb : k = b
      · subst hb
        rw [if_pos rfl]
        by_cases h : a = k
        · subst h
          simp only [List.dlookup_cons_eq, if_true, Option.map_some]
        · rw [if_neg h, List.dlookup_cons_ne _ _ h, List.dlookup_cons_ne _ _ h]
      · rw [if_neg hb]
        by_cases h : a = b
        · subst h
          simp only [List.dlookup_cons_eq, if_neg (Ne.symm hb)]
        · rw [List.dlookup_cons_ne _ _ h, List.dlookup_cons_ne _ _ hb, List.dlookup_cons_ne _ _ h,
            ih]
  exact lists m.entries

theorem lookup_modify (k a : K) (f : V → V) (m : StdMap K V) :
    AList.lookup a (modify k f m) = if a = k then (m.lookup k).map f else m.lookup a := by
  unfold modify
  cases hl : AList.lookup k m with
  | none =>
    by_cases h : a = k
    · subst h
      simp only [hl, if_true, Option.map_none]
    · simp only [if_neg h]
  | some v => simp only [lookup_replace, hl, Option.map_some]

theorem lookup_modify_some {k a : K} {f : V → V} {m : StdMap K V} {v : V} :
    AList.lookup a (modify k f m) = some v ↔
      ∃ w, m.lookup a = some w ∧ (if a = k then f w else w) = v := by
  rw [lookup_modify]
  by_cases h : a = k
  · subst h
    simp only [if_true, Option.map_eq_some_iff]
  · simp only [if_neg h, exists_eq_right]

@[simp] theorem mem_modify {k a : K} {f : V → V} {m : StdMap K V} :
    a ∈ modify k f m ↔ a ∈ m := by
  simp only [← AList.lookup_isSome, lookup_modify]
  by_cases h : a = k
  · subst h
    rw [if_pos rfl, Option.isSome_map]
  · rw [if_neg h]

theorem replace_replace (k : K) (v w : V) (m : StdMap K V) :
    (m.replace k v).replace k w = m.replace k w := by
  apply AList.ext
  change List.kreplace k w (List.kreplace k v m.entries) = List.kreplace k w m.entries
  induction m.entries with
  | nil => rfl
  | cons e l ih =>
    obtain ⟨b, u⟩ := e
    by_cases hb : k = b
    · subst hb
      simp only [kreplace_cons, if_true]
    · simp only [kreplace_cons, if_neg hb, ih]

theorem modify_modify (k : K) (f g : V → V) (m : StdMap K V) :
    modify k g (modify k f m) = modify k (fun v => g (f v)) m := by
  unfold modify
  cases hl : AList.lookup k m with
  | none => simp only [hl]
  | some v => simp only [lookup_replace, hl, if_true, Option.map_some, replace_replace]

theorem modify_congr {k : K} {f g : V → V} {m : StdMap K V}
    (same : ∀ v, m.lookup k = some v → f v = g v) : modify k f m = modify k g m := by
  unfold modify
  cases hl : AList.lookup k m with
  | none => rfl
  | some v => simp only [same v hl]

theorem modify_same {k : K} {f : V → V} {m : StdMap K V}
    (same : ∀ v, m.lookup k = some v → f v = v) : modify k f m = m := by
  unfold modify
  cases hl : AList.lookup k m with
  | none => rfl
  | some v =>
    dsimp only
    rw [same v hl]
    apply AList.ext
    exact List.kreplace_self m.nodupKeys ((lookup_eq_some_iff k v m).mp hl)

theorem entries_modify (k : K) (f : V → V) (m : StdMap K V) :
    (modify k f m).entries = m.entries.map fun e => if e.1 = k then ⟨e.1, f e.2⟩ else e := by
  have away : ∀ l : List (Sigma fun _ : K => V), (∀ e ∈ l, e.1 ≠ k) →
      l.map (fun e => if e.1 = k then (⟨e.1, f e.2⟩ : Sigma fun _ : K => V) else e) = l := by
    intro l absent
    conv => rhs; rw [← List.map_id l]
    exact List.map_congr_left fun e there => if_neg (absent e there)
  unfold modify
  cases found : AList.lookup k m with
  | none =>
    refine (away m.entries ?_).symm
    rintro ⟨b, w⟩ there rfl
    have known := (lookup_eq_some_iff b w m).mpr there
    rw [found] at known
    cases known
  | some v =>
    change List.kreplace k (f v) m.entries = _
    have there := (lookup_eq_some_iff k v m).mp found
    have nodup := m.nodupKeys
    generalize m.entries = entries at there nodup ⊢
    induction entries with
    | nil => cases there
    | cons e l ih =>
      obtain ⟨b, w⟩ := e
      obtain ⟨fresh, rest⟩ := List.nodupKeys_cons.mp nodup
      rw [kreplace_cons, List.map_cons]
      by_cases hb : k = b
      · subst hb
        have value : w = v := by
          rcases List.mem_cons.mp there with same | later
          · cases same
            rfl
          · exact absurd (List.mem_keys_of_mem later) fresh
        have others : ∀ e ∈ l, e.1 ≠ k := by
          intro e inside same
          have listed := List.mem_keys_of_mem inside
          rw [same] at listed
          exact fresh listed
        simp [value, away l others]
      · have later : (⟨k, v⟩ : Sigma fun _ : K => V) ∈ l := by
          rcases List.mem_cons.mp there with same | later
          · cases same
            exact absurd rfl hb
          · exact later
        rw [if_neg hb, if_neg (Ne.symm hb), ih later rest]

theorem modify_comm {a b : K} {f g : V → V} (blind : ∀ v, f (g v) = g (f v)) (m : StdMap K V) :
    modify a f (modify b g m) = modify b g (modify a f m) := by
  apply AList.ext
  simp only [entries_modify, List.map_map]
  apply List.map_congr_left
  rintro ⟨k, v⟩ _
  by_cases ha : k = a
  · by_cases hb : k = b
    · simp [ha, hb ▸ ha, blind]
    · simp [ha, ha ▸ hb]
  · by_cases hb : k = b
    · simp [hb, hb ▸ ha]
    · simp [ha, hb]

theorem lookup_filter (p : K → V → Bool) (k : K) (m : StdMap K V) :
    AList.lookup k (filter p m) = (m.lookup k).filter (p k) := by
  apply Option.ext
  intro v
  simp only [lookup_eq_some_iff, filter, List.mem_filter, Option.filter_eq_some_iff]

theorem lookup_eraseValue [DecidableEq V] (v : V) (k : K) (m : StdMap K V) :
    AList.lookup k (eraseValue v m) = (m.lookup k).filter (fun w => decide (w ≠ v)) :=
  lookup_filter _ k m

theorem lookup_eraseValue_some [DecidableEq V] {v w : V} {k : K} {m : StdMap K V} :
    AList.lookup k (eraseValue v m) = some w ↔ m.lookup k = some w ∧ w ≠ v := by
  rw [lookup_eraseValue, Option.filter_eq_some_iff, decide_eq_true_eq]

omit [DecidableEq K] in
theorem eraseValue_eraseValue [DecidableEq V] (v : V) (m : StdMap K V) :
    eraseValue v (eraseValue v m) = eraseValue v m := by
  apply AList.ext
  simp [eraseValue, filter]

omit [DecidableEq K] in
theorem entries_eraseValue [DecidableEq V] (v : V) (m : StdMap K V) :
    (eraseValue v m).entries = m.entries.filter fun e => decide (e.2 ≠ v) := rfl

theorem eraseValue_of_absent [DecidableEq V] {v : V} {m : StdMap K V}
    (absent : ∀ k, m.lookup k ≠ some v) : eraseValue v m = m := by
  apply AList.ext
  refine List.filter_eq_self.mpr fun e there => decide_eq_true fun same => ?_
  exact absent e.1 ((lookup_eq_some_iff _ _ _).mpr (same ▸ there))

theorem eraseValue_emplace [DecidableEq V] (v : V) (k : K) (m : StdMap K V) :
    eraseValue v (emplace k v m) = eraseValue v m := by
  by_cases there : k ∈ m
  · rw [emplace, if_pos there]
  · rw [emplace, if_neg there]
    apply AList.ext
    have added : (m.insert k v).entries = ⟨k, v⟩ :: m.entries :=
      AList.entries_insert_of_notMem there
    rw [entries_eraseValue, entries_eraseValue, added, List.filter_cons_of_neg (by simp)]

theorem erase_of_absent {k : K} {m : StdMap K V} (absent : k ∉ m) : m.erase k = m := by
  apply AList.ext
  exact List.kerase_of_notMem_keys absent

theorem erase_exact_iff (one other : K) (v : V) (m : StdMap K V) :
    (∀ k w, ((m.erase one).erase other).lookup k = some w ↔ m.lookup k = some w ∧ w ≠ v) ↔
      (∀ k, k = one ∨ k = other → ∀ w, m.lookup k = some w → w = v) ∧
        ∀ k, m.lookup k = some v → k = one ∨ k = other := by
  have erased : ∀ k w, ((m.erase one).erase other).lookup k = some w ↔
      (k ≠ one ∧ k ≠ other) ∧ m.lookup k = some w := by
    intro k w
    rw [lookup_erase_if, lookup_erase_if]
    by_cases last : k = other
    · simp [last]
    · by_cases first : k = one
      · simp [first]
      · simp [last, first]
  constructor
  · intro exact_
    constructor
    · intro k key w there
      by_contra different
      have left := ((erased k w).mp ((exact_ k w).mpr ⟨there, different⟩)).1
      exact key.elim left.1 left.2
    · intro k there
      by_contra outside
      have left := (erased k v).mpr ⟨not_or.mp outside, there⟩
      exact ((exact_ k v).mp left).2 rfl
  · rintro ⟨own, all⟩ k w
    rw [erased]
    constructor
    · rintro ⟨⟨first, last⟩, there⟩
      refine ⟨there, fun same => ?_⟩
      exact (all k (same ▸ there)).elim first last
    · rintro ⟨there, different⟩
      refine ⟨⟨fun key => ?_, fun key => ?_⟩, there⟩
      · exact different (own k (Or.inl key) w there)
      · exact different (own k (Or.inr key) w there)

omit [DecidableEq K] in
theorem eq_empty_iff {m : StdMap K V} : m = ∅ ↔ m.entries.isEmpty = true := by
  rw [List.isEmpty_iff]
  constructor
  · rintro rfl
    rfl
  · exact fun h => AList.ext h

theorem mem_iff_lookup {k : K} {m : StdMap K V} : k ∈ m ↔ ∃ v, m.lookup k = some v := by
  rw [← AList.lookup_isSome, Option.isSome_iff_exists]

theorem eq_empty_of_lookup {m : StdMap K V} (nothing : ∀ k, m.lookup k = none) : m = ∅ := by
  rw [eq_empty_iff, List.isEmpty_iff]
  refine List.eq_nil_iff_forall_not_mem.mpr fun e there => ?_
  have found := mem_iff_lookup.mp (AList.mem_keys.mpr (List.mem_map_of_mem there))
  simp [nothing] at found

end StdMap

abbrev StdSet (K : Type) := List K

namespace StdSet

variable {K : Type} [DecidableEq K]

def insert (k : K) (s : StdSet K) : StdSet K :=
  if k ∈ s then s else k :: s

def erase (k : K) (s : StdSet K) : StdSet K :=
  s.filter (fun a => decide (a ≠ k))

@[simp] theorem mem_insert {a k : K} {s : StdSet K} : a ∈ insert k s ↔ a = k ∨ a ∈ s := by
  unfold insert
  by_cases h : k ∈ s
  · rw [if_pos h]
    constructor
    · exact Or.inr
    · rintro (rfl | ha)
      · exact h
      · exact ha
  · rw [if_neg h, List.mem_cons]

theorem erase_of_absent {k : K} {s : StdSet K} (absent : k ∉ s) : erase k s = s :=
  List.filter_eq_self.mpr fun _ there => decide_eq_true fun same => absent (same ▸ there)

theorem erase_insert {k : K} {s : StdSet K} (absent : k ∉ s) : erase k (insert k s) = s := by
  rw [insert, if_neg absent, erase, List.filter_cons_of_neg (by simp)]
  exact erase_of_absent absent

theorem insert_of_mem {k : K} {s : StdSet K} (there : k ∈ s) : insert k s = s := if_pos there

theorem erase_erase (k : K) (s : StdSet K) : erase k (erase k s) = erase k s := by
  simp [erase]

@[simp] theorem mem_erase {a k : K} {s : StdSet K} : a ∈ erase k s ↔ a ∈ s ∧ a ≠ k := by
  simp [erase]

end StdSet
