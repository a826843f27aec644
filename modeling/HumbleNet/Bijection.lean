import HumbleNet.BidirectionalMap
import HumbleNet.Bytes
import HumbleNet.Lib.Trace

/-! When the two maps of a `BidirectionalMap` agree. Each of the two `emplace` of an insertion
may refuse without the other. -/
namespace HumbleNet

namespace BidirectionalMap

variable {A B : Type}

/-- `find(a)` yields `b` exactly when `find(b)` yields `a`. -/
def Agrees (m : BidirectionalMap A B) [DecidableEq A] [DecidableEq B] : Prop :=
  ∀ a b, m.listA.lookup a = some b ↔ m.listB.lookup b = some a

def swap (m : BidirectionalMap A B) : BidirectionalMap B A := ⟨m.listB, m.listA⟩

variable [DecidableEq A] [DecidableEq B] {m : BidirectionalMap A B} {a : A} {b : B}

theorem agrees_iff : m.Agrees ↔ m.Covered ∧ m.swap.Covered :=
  ⟨fun agrees => ⟨fun a b => (agrees a b).mp, fun b a => (agrees a b).mpr⟩,
    fun covered a b => ⟨covered.1 a b, covered.2 b a⟩⟩

theorem Agrees.swap (agrees : m.Agrees) : m.swap.Agrees := fun b a => (agrees a b).symm

theorem agrees_empty : (empty : BidirectionalMap A B).Agrees :=
  agrees_iff.mpr ⟨covered_empty, covered_empty⟩

/-! ### Erasures -/

/-- `erase(AtoB::iterator&)`, the iterator standing at the entry `it`. -/
def eraseIteratorA (it : A × B) (m : BidirectionalMap A B) : BidirectionalMap A B :=
  ⟨m.listA.erase it.1, m.listB.erase it.2⟩

def eraseIteratorB (it : B × A) (m : BidirectionalMap A B) : BidirectionalMap A B :=
  ⟨m.listA.erase it.2, m.listB.erase it.1⟩

theorem Agrees.erase (agrees : m.Agrees) (entry : m.listA.lookup a = some b) :
    (⟨m.listA.erase a, m.listB.erase b⟩ : BidirectionalMap A B).Agrees := by
  obtain ⟨covered, matched⟩ := agrees_iff.mp agrees
  have entry' := (agrees a b).mp entry
  exact agrees_iff.mpr ⟨covered.erase entry', matched.erase entry⟩

theorem Agrees.eraseA (agrees : m.Agrees) (a : A) : (m.eraseA a).Agrees := by
  unfold BidirectionalMap.eraseA
  split
  · exact agrees.erase ‹_›
  · exact agrees

theorem Agrees.eraseB (agrees : m.Agrees) (b : B) : (m.eraseB b).Agrees := by
  unfold BidirectionalMap.eraseB
  split
  · exact agrees.erase ((agrees _ _).mpr ‹_›)
  · exact agrees

/-! ### Insertions -/

/-- An insertion goes into both maps or into neither. -/
def Fits (m : BidirectionalMap A B) (a : A) (b : B) : Prop := a ∈ m.listA ↔ b ∈ m.listB

theorem insert_of_mem (there : a ∈ m.listA) (there' : b ∈ m.listB) : m.insert a b = m := by
  unfold insert StdMap.emplace
  rw [if_pos there, if_pos there']

theorem not_agrees_of_mem (agrees : m.Agrees) (there : a ∈ m.listA) (new : b ∉ m.listB) :
    ¬ (m.insert a b).Agrees := by
  obtain ⟨b', entry⟩ := StdMap.mem_iff_lookup.mp there
  intro after
  have back : (m.insert a b).listB.lookup b = some a := by
    rw [lookup_listB_insert, if_pos rfl, AList.lookup_eq_none.mpr new, Option.getD_none]
  have kept : (m.insert a b).listA.lookup a = some b' := by
    rw [lookup_listA_insert, if_pos rfl, entry, Option.getD_some]
  have same : b' = b := Option.some.inj (kept.symm.trans ((after a b).mpr back))
  exact new (StdMap.mem_iff_lookup.mpr ⟨a, same ▸ (agrees a b').mp entry⟩)

theorem agrees_insert_iff (agrees : m.Agrees) : (m.insert a b).Agrees ↔ m.Fits a b := by
  by_cases there : a ∈ m.listA
  · by_cases there' : b ∈ m.listB
    · rw [insert_of_mem there there']
      exact iff_of_true agrees (iff_of_true there there')
    · exact iff_of_false (not_agrees_of_mem agrees there there') fun fits => there' (fits.mp there)
  · by_cases there' : b ∈ m.listB
    · refine iff_of_false (fun after => ?_) fun fits => there (fits.mpr there')
      exact not_agrees_of_mem agrees.swap there' there after.swap
    · obtain ⟨covered, matched⟩ := agrees_iff.mp agrees
      refine iff_of_true (agrees_iff.mpr ⟨?_, ?_⟩) (iff_of_false there there')
      · exact covered.insert a b (AList.lookup_eq_none.mpr there')
      · exact matched.insert b a (AList.lookup_eq_none.mpr there)

/-! ### Any sequence of operations -/

inductive Operation (A B : Type) where
  | insert (a : A) (b : B)
  | eraseA (a : A)
  | eraseB (b : B)
  | eraseIteratorA (it : A × B)
  | eraseIteratorB (it : B × A)

inductive Step : BidirectionalMap A B → Operation A B → BidirectionalMap A B → Prop where
  | insert (m : BidirectionalMap A B) (a : A) (b : B) : Step m (.insert a b) (m.insert a b)
  | eraseA (m : BidirectionalMap A B) (a : A) : Step m (.eraseA a) (m.eraseA a)
  | eraseB (m : BidirectionalMap A B) (b : B) : Step m (.eraseB b) (m.eraseB b)
  | eraseIteratorA (m : BidirectionalMap A B) {it : A × B}
    (valid : m.listA.lookup it.1 = some it.2) :
    Step m (.eraseIteratorA it) (m.eraseIteratorA it)
  | eraseIteratorB (m : BidirectionalMap A B) {it : B × A}
    (valid : m.listB.lookup it.1 = some it.2) :
    Step m (.eraseIteratorB it) (m.eraseIteratorB it)

def Operation.Fits (m : BidirectionalMap A B) : Operation A B → Prop
  | .insert a b => m.Fits a b
  | _ => True

theorem agrees_step_iff {m' : BidirectionalMap A B} {op : Operation A B} (agrees : m.Agrees)
    (step : Step m op m') : m'.Agrees ↔ op.Fits m := by
  cases step with
  | insert a b => exact agrees_insert_iff agrees
  | eraseA a => exact iff_of_true (agrees.eraseA a) trivial
  | eraseB b => exact iff_of_true (agrees.eraseB b) trivial
  | eraseIteratorA valid => exact iff_of_true (agrees.erase valid) trivial
  | eraseIteratorB valid =>
    exact iff_of_true (agrees.erase ((agrees _ _).mpr valid)) trivial

/-- From the empty map, `find(a)` yields `b` exactly when `find(b)` yields `a`, at every moment
of a run, if and only if every insertion of the run found both parts there or neither. -/
theorem agrees_throughout_iff {past : List (BidirectionalMap A B × Operation A B)}
    (run : Trace (· = empty) Step past m) :
    (m.Agrees ∧ ∀ moment ∈ past, moment.1.Agrees) ↔ ∀ moment ∈ past, moment.2.Fits moment.1 := by
  induction run with
  | start initial =>
    subst initial
    exact iff_of_true ⟨agrees_empty, fun _ none => absurd none List.not_mem_nil⟩
      fun _ none => absurd none List.not_mem_nil
  | @next past n m op before step ih =>
    simp only [List.forall_mem_cons]
    constructor
    · rintro ⟨after, agrees, earlier⟩
      exact ⟨(agrees_step_iff agrees step).mp after, ih.mp ⟨agrees, earlier⟩⟩
    · rintro ⟨fits, earlier⟩
      obtain ⟨agrees, throughout⟩ := ih.mpr earlier
      exact ⟨(agrees_step_iff agrees step).mpr fits, agrees, throughout⟩

theorem two_insertions (a a' : A) (b b' : B) : Trace (· = empty) Step
    [(empty.insert a b, .insert a' b'), (empty, .insert a b)]
    ((empty.insert a b).insert a' b') := by
  have started : Trace (· = (empty : BidirectionalMap A B)) Step [] empty := .start rfl
  exact (started.next (Step.insert empty a b)).next (Step.insert _ a' b')

theorem agrees_throughout_two : ∃ past m,
    Trace (· = (empty : BidirectionalMap UInt32 Bytes)) Step past m ∧
      ((m.Agrees ∧ ∀ moment ∈ past, moment.1.Agrees) ↔
        ∀ moment ∈ past, moment.2.Fits moment.1) :=
  ⟨_, _, two_insertions 1 2 [97] [98], agrees_throughout_iff (two_insertions 1 2 [97] [98])⟩

/-- A second value under the same key has no entry of its own, but leads to the key. -/
theorem disagrees_after_insertion : ∃ past m,
    Trace (· = (empty : BidirectionalMap UInt32 Bytes)) Step past m ∧ ¬ m.Agrees := by
  refine ⟨_, _, two_insertions 1 1 [97] [98], fun agrees => ?_⟩
  have back : ((empty.insert (1 : UInt32) ([97] : Bytes)).insert 1 [98]).listB.lookup [98] =
      some 1 := by decide
  have kept : ((empty.insert (1 : UInt32) ([97] : Bytes)).insert 1 [98]).listA.lookup 1 =
      some [97] := by decide
  exact absurd (kept.symm.trans ((agrees 1 [98]).mpr back)) (by decide)

end BidirectionalMap

end HumbleNet
