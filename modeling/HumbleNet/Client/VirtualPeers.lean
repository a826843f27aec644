import HumbleNet.Bijection
import HumbleNet.Client.Run
import HumbleNet.Client.Runs
import Mathlib.Data.Finset.Card

/-! The ids under which aliases are known. An id is a counter with the bit of the virtual peers
set, so that there are half as many of them as the counter has values. -/
namespace HumbleNet.Client

open Guarded

def virtualId (n : Nat) : PeerId := UInt32.ofNat n ||| virtualPeer

theorem virtualId_toNat (n : Nat) : (virtualId n).toNat = 2 ^ 31 + n % 2 ^ 31 := by
  have low : n % 2 ^ 31 < 2 ^ 31 := Nat.mod_lt _ (by decide)
  have joined : 2 ^ 31 + n % 2 ^ 31 = 2 ^ 31 ||| n % 2 ^ 31 := by
    simpa only [Nat.mul_one] using Nat.two_pow_add_eq_or_of_lt low 1
  have bit : virtualPeer.toNat = 2 ^ 31 := rfl
  rw [joined, virtualId, UInt32.toNat_or, UInt32.toNat_ofNat', bit]
  apply Nat.eq_of_testBit_eq
  intro i
  rw [Nat.testBit_or, Nat.testBit_or, Nat.testBit_mod_two_pow, Nat.testBit_mod_two_pow]
  by_cases top : i = 31
  · rw [top, Nat.testBit_two_pow_self, Bool.or_true, Bool.true_or]
  · have iff : decide (i < 32) = decide (i < 31) := by
      apply decide_eq_decide.mpr
      omega
    rw [iff, Nat.testBit_two_pow_of_ne (Ne.symm top), Bool.or_false, Bool.false_or]

theorem virtualId_eq_iff {m n : Nat} : virtualId m = virtualId n ↔ m % 2 ^ 31 = n % 2 ^ 31 := by
  rw [← UInt32.toNat_inj, virtualId_toNat, virtualId_toNat]
  omega

theorem virtualId_virtual (n : Nat) : internalAliasIsVirtualPeer (virtualId n) = true := by
  apply decide_eq_true
  apply UInt32.toNat_inj.mp
  apply Nat.eq_of_testBit_eq
  intro i
  rw [virtualId, UInt32.toNat_and, UInt32.toNat_or, Nat.testBit_and, Nat.testBit_or]
  cases virtualPeer.toNat.testBit i with
  | true => rw [Bool.or_true, Bool.true_and]
  | false => rw [Bool.and_false]

/-! ### One lookup -/

theorem internalAliasLookup_cases {name : Bytes} {s t : State} {log : ClientLog} {id : PeerId}
    (ends : Runs (internalAliasLookup name) s log id t) :
    s.virtualPeerNames.listB.lookup (cStr name) = some id ∧ t = s ∨
      s.virtualPeerNames.listB.lookup (cStr name) = none ∧
        id = (s.nextVirtualPeer + 1) ||| virtualPeer ∧ t = { s with
          nextVirtualPeer := s.nextVirtualPeer + 1
          virtualPeerNames := s.virtualPeerNames.insert id (cStr name) } := by
  replace ends := ends_get_bind.mp ends
  cases known : s.virtualPeerNames.listB.lookup (cStr name) with
  | some vpeer =>
    rw [known] at ends
    obtain ⟨-, rfl, rfl⟩ := ends_pure.mp ends
    exact Or.inl ⟨rfl, rfl⟩
  | none =>
    rw [known] at ends
    dsimp only at ends
    rw [ends_modify_bind, ends_pure] at ends
    obtain ⟨-, rfl, rfl⟩ := ends
    exact Or.inr ⟨rfl, rfl, rfl⟩

structure Numbered (names : List Bytes) (s : State) : Prop where
  nodup : names.Nodup
  next : s.nextVirtualPeer = UInt32.ofNat names.length
  known : ∀ name id, s.virtualPeerNames.listB.lookup name = some id ↔
    ∃ k, names[k]? = some name ∧ id = virtualId (k + 1)
  agrees : names.length ≤ 2 ^ 31 → s.virtualPeerNames.Agrees

theorem Numbered.mem {names : List Bytes} {s : State} (h : Numbered names s) {name : Bytes} :
    name ∈ names ↔ ∃ id, s.virtualPeerNames.listB.lookup name = some id := by
  constructor
  · intro there
    obtain ⟨k, at_k⟩ := List.mem_iff_getElem?.mp there
    exact ⟨_, (h.known name _).mpr ⟨k, at_k, rfl⟩⟩
  · rintro ⟨id, entry⟩
    obtain ⟨k, at_k, -⟩ := (h.known name id).mp entry
    exact List.mem_of_getElem? at_k

theorem Numbered.lookup {names : List Bytes} {name : Bytes} {s t : State} {log : ClientLog}
    {id : PeerId} (h : Numbered names s) (ends : Runs (internalAliasLookup name) s log id t) :
    ∃ more, Numbered (names ++ more) t ∧ (∀ n ∈ more, n = cStr name) ∧
      t.virtualPeerNames.listB.lookup (cStr name) = some id := by
  rcases internalAliasLookup_cases ends with ⟨entry, rfl⟩ | ⟨unknown, rfl, rfl⟩
  · exact ⟨[], by rwa [List.append_nil], fun n none => absurd none List.not_mem_nil, entry⟩
  · have new : cStr name ∉ names := by
      rw [h.mem]
      rintro ⟨id, entry⟩
      cases unknown.symm.trans entry
    have number : (s.nextVirtualPeer + 1) ||| virtualPeer = virtualId (names.length + 1) := by
      rw [h.next, virtualId, UInt32.ofNat_add]
      rfl
    refine ⟨[cStr name], ⟨?_, ?_, fun n i => ?_, fun few => ?_⟩, ?_, ?_⟩
    · exact List.nodup_append.mpr ⟨h.nodup, List.nodup_singleton _, fun a there b single =>
        by rintro rfl; exact new (List.mem_singleton.mp single ▸ there)⟩
    · change s.nextVirtualPeer + 1 = _
      rw [h.next, List.length_append, UInt32.ofNat_add]
      rfl
    · change (s.virtualPeerNames.insert _ (cStr name)).listB.lookup n = some i ↔ _
      rw [BidirectionalMap.lookup_listB_insert, unknown, number]
      by_cases own : n = cStr name
      · subst own
        rw [if_pos rfl, Option.getD_none, Option.some.injEq]
        constructor
        · rintro rfl
          exact ⟨names.length, List.getElem?_concat_length, rfl⟩
        · rintro ⟨k, at_k, rfl⟩
          rcases Nat.lt_or_ge k names.length with old | last
          · rw [List.getElem?_append_left old] at at_k
            exact absurd (List.mem_of_getElem? at_k) new
          · have bound := (List.getElem?_eq_some_iff.mp at_k).1
            rw [List.length_append, List.length_singleton] at bound
            rw [Nat.le_antisymm (Nat.lt_succ_iff.mp bound) last]
      · rw [if_neg own, h.known]
        constructor
        · rintro ⟨k, at_k, rfl⟩
          have old := (List.getElem?_eq_some_iff.mp at_k).1
          exact ⟨k, by rw [List.getElem?_append_left old, at_k], rfl⟩
        · rintro ⟨k, at_k, rfl⟩
          rcases Nat.lt_or_ge k names.length with old | last
          · exact ⟨k, by rwa [List.getElem?_append_left old] at at_k, rfl⟩
          · rw [List.getElem?_append_right last] at at_k
            exact absurd (List.mem_singleton.mp (List.mem_of_getElem? at_k)) own
    · rw [List.length_append, List.length_singleton] at few
      change (s.virtualPeerNames.insert _ (cStr name)).Agrees
      have agrees := h.agrees (by omega)
      rw [BidirectionalMap.agrees_insert_iff agrees]
      refine iff_of_false (fun there => ?_) (AList.lookup_eq_none.mp unknown)
      -- the new id is not in use yet
      obtain ⟨n, entry⟩ := StdMap.mem_iff_lookup.mp there
      obtain ⟨k, at_k, same⟩ := (h.known n _).mp ((agrees _ n).mp entry)
      have old := (List.getElem?_eq_some_iff.mp at_k).1
      rw [number, virtualId_eq_iff] at same
      omega
    · exact fun n there => List.mem_singleton.mp there
    · change (s.virtualPeerNames.insert _ (cStr name)).listB.lookup (cStr name) = _
      rw [BidirectionalMap.lookup_listB_insert, unknown, if_pos rfl, Option.getD_none]

/-! ### Connecting by an id -/

def connectAlias (env : Externals) (peer : PeerId) (name : Bytes) : ClientM (Option ConnPtr) := do
  match ← internalAliasFindConnection peer with
  | some conn => pure (some conn)
  | none =>
    if ← sendAliasLookup (sendP2PMessage env) name then
      let conn ← newConnection (Connection.new .outgoing) (some peer)
      modify fun s =>
        { s with
          pendingAliasConnectionsOut :=
            StdMap.emplace name conn s.pendingAliasConnectionsOut }
      modify fun s =>
        { s with virtualPeerConnections := s.virtualPeerConnections.insert peer conn }
      pure (some conn)
    else pure none

theorem findConnection_course (peer : PeerId) (s : State) :
    (∃ found t, internalAliasFindConnection peer s = .done found t ∧
      t.virtualPeerNames = s.virtualPeerNames) ∨
      ∃ e t, internalAliasFindConnection peer s = .fault e t := by
  unfold internalAliasFindConnection
  by_cases virtual : internalAliasIsVirtualPeer peer = true
  · rw [if_pos virtual]
    have begin : ∀ f : State → ClientM (Option ConnPtr), (get >>= f) s = f s s := fun _ => rfl
    rw [begin]
    cases s.virtualPeerConnections.listA.lookup peer with
    | none => exact Or.inl ⟨none, s, rfl, rfl⟩
    | some conn =>
      change (∃ found t, (through .dangling (s.heap.lookup conn) >>= _) s = .done found t ∧ _) ∨
        ∃ e t, (through .dangling (s.heap.lookup conn) >>= _) s = .fault e t
      cases s.heap.lookup conn with
      | none => exact Or.inr ⟨.dangling, s, rfl⟩
      | some c =>
        change (∃ found t, (if c.status = .closed then _ else _ : ClientM _) s = .done found t ∧
          _) ∨ ∃ e t, (if c.status = .closed then _ else _ : ClientM _) s = .fault e t
        split
        · exact Or.inl ⟨none, _, rfl, rfl⟩
        · exact Or.inl ⟨some conn, s, rfl, rfl⟩
  · rw [if_neg virtual]
    exact Or.inl ⟨none, s, rfl, rfl⟩

def LooksUp (env : Externals) (peer : PeerId) (name : Bytes) (s : State) : Prop :=
  internalAliasCreateConnection env peer s = connectAlias env peer name s

theorem looksUp_of_entry {env : Externals} {peer : PeerId} {name : Bytes} {s : State}
    (entry : s.virtualPeerNames.listA.lookup peer = some name) : LooksUp env peer name s := by
  unfold LooksUp internalAliasCreateConnection connectAlias
  change (internalAliasFindConnection peer s).bind _ =
    (internalAliasFindConnection peer s).bind _
  rcases findConnection_course peer s with ⟨found, t, course, names⟩ | ⟨e, t, course⟩
  · rw [course]
    cases found with
    | some conn => rfl
    | none =>
      have begin : ∀ f : State → ClientM (Option ConnPtr), (get >>= f) t = f t t := fun _ => rfl
      simp only [Course.bind]
      rw [begin, names, entry]
  · rw [course]
    rfl

/-! ### Any number of lookups -/

/-- A lookup as the application sees it: the name, and the id returned. -/
def Looks (s : State) (call : Bytes × PeerId) (t : State) : Prop :=
  ∃ log, Runs (internalAliasLookup call.1) s log call.2 t

structure Unnamed (s : State) : Prop where
  names : s.virtualPeerNames = .empty
  next : s.nextVirtualPeer = 0

/-- The ids of these lookups are those of virtual peers, one for each name, and an id leads to
the name it was returned for. -/
structure Identify (env : Externals) (calls : List (Bytes × PeerId)) (s : State) : Prop where
  same : ∀ c ∈ calls, ∀ d ∈ calls, cStr c.1 = cStr d.1 → c.2 = d.2
  apart : ∀ c ∈ calls, ∀ d ∈ calls, cStr c.1 ≠ cStr d.1 → c.2 ≠ d.2
  virtual : ∀ c ∈ calls, internalAliasIsVirtualPeer c.2 = true
  named : ∀ c ∈ calls, LooksUp env c.2 (cStr c.1) s

def namesOf (calls : List (Bytes × PeerId)) : Finset Bytes :=
  (calls.map fun c => cStr c.1).toFinset

section calls

variable {s t : State} {past : List (State × (Bytes × PeerId))}

structure Recorded (names : List Bytes) (calls : List (Bytes × PeerId)) (t : State) : Prop where
  numbered : Numbered names t
  known : ∀ c ∈ calls, t.virtualPeerNames.listB.lookup (cStr c.1) = some c.2
  asked : names.toFinset = namesOf calls

theorem numbered_nil (unnamed : Unnamed s) : Numbered [] s where
  nodup := List.nodup_nil
  next := unnamed.next
  known name id := by
    rw [unnamed.names]
    constructor
    · intro entry
      cases entry
    · rintro ⟨k, at_k, -⟩
      cases at_k
  agrees _ := by
    rw [unnamed.names]
    exact BidirectionalMap.agrees_empty

theorem recorded_of_trace (run : Trace Unnamed Looks past t) :
    ∃ names, Recorded names (past.map Prod.snd) t := by
  induction run with
  | start unnamed =>
    exact ⟨[], numbered_nil unnamed, fun c none => absurd none List.not_mem_nil, rfl⟩
  | @next past s t call before looks ih =>
    obtain ⟨names, recorded⟩ := ih
    obtain ⟨log, ends⟩ := looks
    obtain ⟨more, numbered, new, entry⟩ := recorded.numbered.lookup ends
    refine ⟨names ++ more, numbered, fun c there => ?_, ?_⟩
    · rcases List.mem_cons.mp there with rfl | old
      · exact entry
      · obtain ⟨k, at_k, same⟩ := (recorded.numbered.known _ _).mp (recorded.known c old)
        have within := (List.getElem?_eq_some_iff.mp at_k).1
        exact (numbered.known _ _).mpr ⟨k, by rw [List.getElem?_append_left within, at_k], same⟩
    · have there : cStr call.1 ∈ names ++ more := numbered.mem.mpr ⟨_, entry⟩
      ext n
      have asked := Finset.ext_iff.mp recorded.asked n
      simp only [namesOf, List.map_cons, List.mem_toFinset, List.mem_cons] at asked ⊢
      rw [← asked, List.mem_append]
      constructor
      · rintro (old | young)
        · exact Or.inr old
        · exact Or.inl (new n young)
      · rintro (rfl | old)
        · exact List.mem_append.mp there
        · exact Or.inl old

theorem Recorded.identify {names : List Bytes} {calls : List (Bytes × PeerId)}
    (recorded : Recorded names calls t) (few : names.length ≤ 2 ^ 31) (env : Externals) :
    Identify env calls t where
  same c hc d hd name := by
    have entry := recorded.known c hc
    rw [name] at entry
    exact Option.some.inj (entry.symm.trans (recorded.known d hd))
  apart c hc d hd other id := by
    have agrees := recorded.numbered.agrees few
    have entry := (agrees _ _).mpr (recorded.known c hc)
    rw [id] at entry
    exact other (Option.some.inj (entry.symm.trans ((agrees _ _).mpr (recorded.known d hd))))
  virtual c hc := by
    obtain ⟨k, -, id⟩ := (recorded.numbered.known _ _).mp (recorded.known c hc)
    exact id ▸ virtualId_virtual (k + 1)
  named c hc :=
    looksUp_of_entry ((recorded.numbered.agrees few _ _).mpr (recorded.known c hc))

theorem Recorded.not_identify {names : List Bytes} {calls : List (Bytes × PeerId)}
    (recorded : Recorded names calls t) (many : 2 ^ 31 < names.length) (env : Externals) :
    ¬ Identify env calls t := by
  intro identify
  have asked : ∀ n ∈ names, ∃ c ∈ calls, cStr c.1 = n := by
    intro n there
    have there' : n ∈ namesOf calls := recorded.asked ▸ List.mem_toFinset.mpr there
    exact List.mem_map.mp (List.mem_toFinset.mp there')
  have zero : 0 < names.length := by omega
  obtain ⟨c, hc, first⟩ := asked names[0] (List.getElem_mem zero)
  obtain ⟨d, hd, last⟩ := asked names[2 ^ 31] (List.getElem_mem many)
  have one := (recorded.numbered.known _ (virtualId (0 + 1))).mpr
    ⟨0, List.getElem?_eq_getElem zero, rfl⟩
  have other := (recorded.numbered.known _ (virtualId (2 ^ 31 + 1))).mpr
    ⟨2 ^ 31, List.getElem?_eq_getElem many, rfl⟩
  rw [← first, recorded.known c hc, Option.some.injEq] at one
  rw [← last, recorded.known d hd, Option.some.injEq] at other
  refine identify.apart c hc d hd (fun name => ?_) ?_
  · rw [first, last] at name
    have := (recorded.numbered.nodup.getElem_inj_iff).mp name
    omega
  · have same : virtualId (0 + 1) = virtualId (2 ^ 31 + 1) := virtualId_eq_iff.mpr (by omega)
    exact one.trans (same.trans other.symm)

/-- After any lookups, the ids are those of virtual peers, one for each name and leading back
to it, exactly when there have been at most 2^31 names. -/
theorem virtual_ids_identify_iff (env : Externals) (run : Trace Unnamed Looks past t) :
    Identify env (past.map Prod.snd) t ↔ (namesOf (past.map Prod.snd)).card ≤ 2 ^ 31 := by
  obtain ⟨names, recorded⟩ := recorded_of_trace run
  have count : (namesOf (past.map Prod.snd)).card = names.length := by
    rw [← recorded.asked, List.toFinset_card_of_nodup recorded.numbered.nodup]
  rw [count]
  constructor
  · intro identify
    by_contra many
    exact recorded.not_identify (Nat.lt_of_not_le many) env identify
  · exact fun few => recorded.identify few env

end calls

theorem looks_any (name : Bytes) (s : State) : ∃ id t, Looks s (name, id) t := by
  cases known : s.virtualPeerNames.listB.lookup (cStr name) with
  | some id =>
    refine ⟨id, s, [], ends_get_bind.mpr ?_⟩
    rw [known]
    exact ends_pure.mpr ⟨rfl, rfl, rfl⟩
  | none =>
    refine ⟨(s.nextVirtualPeer + 1) ||| virtualPeer, { s with
      nextVirtualPeer := s.nextVirtualPeer + 1
      virtualPeerNames := s.virtualPeerNames.insert ((s.nextVirtualPeer + 1) ||| virtualPeer)
        (cStr name) }, [], ends_get_bind.mpr ?_⟩
    rw [known]
    exact ends_modify_bind.mpr (ends_pure.mpr ⟨rfl, rfl, rfl⟩)

theorem trace_of_names (names : List Bytes) : ∃ past t, Trace Unnamed Looks past t ∧
    past.map (fun m => m.2.1) = names := by
  induction names with
  | nil => exact ⟨[], State.initial, .start ⟨rfl, rfl⟩, rfl⟩
  | cons name names ih =>
    obtain ⟨past, t, run, same⟩ := ih
    obtain ⟨id, u, looks⟩ := looks_any name t
    exact ⟨_, u, run.next looks, by rw [List.map_cons, same]⟩

theorem virtual_ids_identify_two : ∃ past t, Trace Unnamed Looks past t ∧
    past.map (fun m => m.2.1) = [[97], [98]] ∧
    (Identify welcome (past.map Prod.snd) t ↔ (namesOf (past.map Prod.snd)).card ≤ 2 ^ 31) := by
  obtain ⟨past, t, run, names⟩ := trace_of_names [[97], [98]]
  exact ⟨past, t, run, names, virtual_ids_identify_iff welcome run⟩

def letters (n : Nat) : Bytes := List.replicate n 97

theorem cStr_letters (n : Nat) : cStr (letters n) = letters n := by
  apply cStr_of_no_nul
  intro there
  exact absurd (List.eq_of_mem_replicate there) (by decide)

theorem letters_injective : Function.Injective letters := by
  intro m n same
  have length := congrArg List.length same
  simpa only [letters, List.length_replicate] using length

theorem card_namesOf_letters {calls : List (Bytes × PeerId)} {n : Nat}
    (names : calls.map Prod.fst = (List.range n).map letters) : (namesOf calls).card = n := by
  have asked : (calls.map fun c => cStr c.1) = (List.range n).map letters := by
    have split : (calls.map fun c => cStr c.1) = (calls.map Prod.fst).map cStr :=
      List.map_map.symm
    rw [split, names, List.map_map]
    exact List.map_congr_left fun k _ => cStr_letters k
  rw [namesOf, asked, List.toFinset_card_of_nodup (List.nodup_range.map letters_injective),
    List.length_map, List.length_range]

theorem letters_not_identified {n : Nat} (many : 2 ^ 31 < n) : ∃ past t,
    Trace Unnamed Looks past t ∧ past.map (fun m => m.2.1) = (List.range n).map letters ∧
      ¬ Identify welcome (past.map Prod.snd) t := by
  obtain ⟨past, t, run, names⟩ := trace_of_names ((List.range n).map letters)
  obtain ⟨known, recorded⟩ := recorded_of_trace run
  refine ⟨past, t, run, names, recorded.not_identify ?_ welcome⟩
  have list : (past.map Prod.snd).map Prod.fst =
      (List.range n).map letters := by
    rw [List.map_map]
    exact names
  have count := card_namesOf_letters list
  rw [← recorded.asked, List.toFinset_card_of_nodup recorded.numbered.nodup] at count
  rwa [count]

/-- The empty name and those of `a`s, one more of them than there are ids. -/
theorem virtual_ids_exhausted : ∃ past t, Trace Unnamed Looks past t ∧
    past.map (fun m => m.2.1) = (List.range (2 ^ 31 + 1)).map letters ∧
    ¬ Identify welcome (past.map Prod.snd) t :=
  letters_not_identified (Nat.lt_succ_self _)

end HumbleNet.Client
