import HumbleNet.Client.PendingData
import HumbleNet.Client.Sending
import Mathlib.Data.Finset.Card

/-! When `humblenet_datagram_recv` comes to an end. Its first loops go through the entries
once; the polling loop ends when every connection that it polls is taken off the lists, and
a connection that is still being opened is not. -/
namespace HumbleNet.Client

open Guarded

/-- The calls are answered as they may be, and allocations succeed. -/
def Fortunate : (q : Query) → State → q.Answer → State → Prop
  | .malloc _, _, enough, _ => enough = true
  | q, s, a, t => q.Allowed s a t

theorem Fortunate.allowed {q : Query} {s t : State} {a : q.Answer} (h : Fortunate q s a t) :
    q.Allowed s a t := by
  cases q with
  | malloc size => trivial
  | _ => exact h

/-- With enough rounds for its loops, a call that runs alone does not come to the end of
them. -/
def Finishes {α : Type} (x : Nat → ClientM α) (s : State) : Prop :=
  ∃ bound, ∀ fuel, bound ≤ fuel → Never Fortunate (· = .hang) (x fuel) s

/-! ### Programs without a loop -/

section quick

variable {α β : Type}

def Quick (x : ClientM α) : Prop := ∀ s, Never Fortunate (· = .hang) x s

theorem quick_pure (a : α) : Quick (pure a : ClientM α) := fun _ => never_pure

theorem quick_fault {e : Fault} (other : e ≠ .hang) : Quick (fault e : ClientM α) :=
  fun _ => never_fault.mpr other

theorem quick_bind {x : ClientM α} {f : α → ClientM β} (h : Quick x) (k : ∀ a, Quick (f a)) :
    Quick (x >>= f) :=
  fun s => never_bind.mpr ⟨h s, fun _ a t _ => k a t⟩

theorem quick_get {f : State → ClientM β} (h : ∀ s, Quick (f s)) : Quick (get >>= f) :=
  fun s => h s s

theorem quick_modify (g : State → State) : Quick (modify g : ClientM PUnit) :=
  fun _ => never_modify

theorem quick_ask (q : Query) : Quick (ask q : ClientM q.Answer) := fun _ => never_ask

theorem quick_unguarded (q : Query) : Quick (unguarded q : ClientM q.Answer) :=
  fun _ => never_unguarded

theorem quick_doWhen {c : Prop} [Decidable c] {x : ClientM Unit} (h : Quick x) :
    Quick (doWhen c x) :=
  fun s => never_doWhen fun _ => h s

theorem quick_through {e : Fault} (other : e ≠ .hang) (o : Option α) : Quick (through e o) := by
  cases o with
  | none => exact quick_fault other
  | some a => exact quick_pure a

theorem quick_assert (c : Prop) [Decidable c] (a : Assertion) : Quick (assert c a) := by
  unfold assert
  split
  · exact quick_pure ()
  · exact quick_fault fun eq => by cases eq

theorem quick_deref (conn : ConnPtr) : Quick (deref conn) :=
  quick_get fun _ => quick_through (by decide) _

theorem quick_derefDatagram (conn : ConnPtr) : Quick (derefDatagram conn) :=
  quick_get fun _ => quick_through (by decide) _

theorem quick_sendP2PMessage (env : Externals) (msg : Message) :
    Quick (sendP2PMessage env msg) := by
  apply quick_get
  intro s
  split
  · exact quick_pure false
  · split
    · exact quick_pure false
    · exact quick_bind (quick_unguarded _) fun ret => quick_pure _

theorem quick_internalWriteSocket (socket : Option SocketPtr) (buf : Bytes) :
    Quick (internalWriteSocket socket buf) := by
  cases socket with
  | none => exact quick_fault (by decide)
  | some socket =>
    apply quick_bind (quick_get fun _ => quick_through (by decide) _)
    intro it
    split
    · exact quick_unguarded _
    · exact quick_bind (quick_unguarded _) fun _ => quick_pure (-1)

theorem quick_connectionWrite (env : Externals) (conn : ConnPtr) (buf : Bytes) (size : UInt32) :
    Quick (humblenetConnectionWrite env conn buf size) := by
  apply quick_bind (quick_deref conn)
  intro c
  split
  · exact quick_bind (quick_assert _ _) fun _ => quick_pure (-1)
  · exact quick_bind (quick_assert _ _) fun _ => quick_pure 0
  · apply quick_bind (quick_assert _ _)
    intro _
    apply quick_get
    intro s
    split
    · apply quick_bind (quick_sendP2PMessage env _)
      intro sent
      split
      · exact quick_pure _
      · exact quick_pure (-1)
    · exact quick_internalWriteSocket _ _

theorem quick_datagramFlush (env : Externals) (conn : ConnPtr) :
    Quick (datagramFlush env conn) := by
  apply quick_bind (quick_derefDatagram conn)
  intro dg
  split
  · exact quick_pure ()
  · apply quick_bind
    · apply quick_bind (quick_deref dg.conn)
      intro c
      split
      · exact quick_pure c.writable
      · exact quick_pure false
    · intro writable
      split
      · apply quick_bind (quick_connectionWrite env _ _ _)
        intro ret
        apply quick_bind (quick_doWhen (quick_modify _))
        intro _
        exact quick_bind (quick_derefDatagram conn) fun _ => quick_modify _
      · exact quick_pure ()

theorem quick_getMessage (conn : ConnPtr) (length : Nat) (flags channel : UInt8) :
    Quick (getMessage conn length flags channel) := by
  apply quick_bind (quick_derefDatagram conn)
  intro dg
  exact quick_bind (quick_modify _) fun _ => quick_pure _

theorem quick_insertDatagram (conn : ConnPtr) : Quick (insertDatagram conn) :=
  quick_bind (quick_deref conn) fun _ => quick_modify _

theorem quick_readAll (conn : ConnPtr) (retval : Int) :
    Quick (humblenetConnectionReadAll conn retval) := by
  apply quick_bind (quick_deref conn)
  intro c
  split
  · exact quick_pure _
  split
  · apply quick_get
    intro s
    apply quick_bind (quick_assert _ _)
    intro _
    split
    · exact quick_bind (quick_modify _) fun _ => quick_pure _
    · exact quick_pure _
  · apply quick_bind (quick_ask _)
    intro enough
    split
    · apply quick_bind (quick_modify _)
      intro _
      apply quick_get
      intro s
      apply quick_bind (quick_assert _ _)
      intro _
      exact quick_bind (quick_modify _) fun _ => quick_pure _
    · exact quick_bind (quick_modify _) fun _ => quick_pure _

theorem quick_receiveFrom (length : Nat) (flags channel : UInt8) (conn : ConnPtr) :
    Quick (receiveFrom length flags channel conn) := by
  apply quick_bind (quick_insertDatagram conn)
  intro _
  apply quick_bind (quick_readAll conn 0)
  intro r
  split
  split
  · apply quick_bind (quick_modify _)
    intro _
    apply quick_bind (quick_modify _)
    intro _
    apply quick_bind (quick_deref conn)
    intro c
    split
    · exact quick_pure _
    · exact quick_pure none
  · apply quick_bind (quick_modify _)
    intro _
    apply quick_bind (quick_ask _)
    intro _
    apply quick_bind (quick_getMessage conn length flags channel)
    intro got
    split
    split
    · exact quick_bind (quick_derefDatagram conn) fun _ => quick_pure _
    · exact quick_pure none

theorem quick_firstPendingData : Quick firstPendingData := by
  apply quick_get
  intro s
  apply quick_bind (quick_ask _)
  intro walked
  cases walked with
  | nil => exact quick_pure none
  | cons conn rest =>
    apply quick_bind (quick_deref conn)
    intro c
    exact quick_bind (quick_assert _ _) fun _ => quick_pure _

theorem quick_pollAll : Quick humblenetPollAll := by
  apply quick_get
  intro s
  apply quick_bind (quick_ask _)
  intro walked
  cases walked with
  | cons conn rest => exact quick_bind (quick_modify _) fun _ => quick_pure _
  | nil =>
    apply quick_bind quick_firstPendingData
    intro found
    cases found with
    | some conn => exact quick_pure _
    | none => exact quick_firstPendingData

theorem quick_connectionAccept : Quick humblenetConnectionAccept := by
  apply quick_get
  intro s
  apply quick_bind (quick_ask _)
  intro walked
  cases walked with
  | cons conn rest => exact quick_bind (quick_modify _) fun _ => quick_pure _
  | nil => exact quick_pure none

end quick

/-! ### The loops over the entries -/

def Tables.entriesFrom (t : Tables) (key : ConnPtr) : Finset ConnPtr :=
  t.datagrams.keys.toFinset.filter (key ≤ ·)

theorem mem_entriesFrom {t : Tables} {key k : ConnPtr} :
    k ∈ t.entriesFrom key ↔ k ∈ t.datagrams ∧ key ≤ k := by
  rw [Tables.entriesFrom, Finset.mem_filter, List.mem_toFinset, ← AList.mem_keys]

def Affords (t : Tables) (key : Option ConnPtr) (fuel : Nat) : Prop :=
  ∀ k, key = some k → k ∈ t.datagrams ∧ (t.entriesFrom k).card ≤ fuel

theorem affords_next {t : Tables} {key : ConnPtr} {fuel : Nat} (there : key ∈ t.datagrams)
    (enough : (t.entriesFrom key).card ≤ fuel + 1) :
    Affords t (leastKey (fun k => decide (key < k)) t.datagrams) fuel := by
  intro k least
  have mem := leastKey_mem least
  have later : key < k := of_decide_eq_true (leastKey_some least).1
  have fewer : t.entriesFrom k ⊂ t.entriesFrom key := by
    refine Finset.ssubset_iff_subset_ne.mpr ⟨fun k' h => ?_, fun same => ?_⟩
    · obtain ⟨entry, le⟩ := mem_entriesFrom.mp h
      exact mem_entriesFrom.mpr ⟨entry, le_trans (le_of_lt later) le⟩
    · have here : key ∈ t.entriesFrom k := same ▸ mem_entriesFrom.mpr ⟨there, le_refl key⟩
      exact absurd (mem_entriesFrom.mp here).2 (not_le.mpr later)
  have := Finset.card_lt_card fewer
  exact ⟨mem, by omega⟩

theorem affords_first (t : Tables) {fuel : Nat} (enough : t.datagrams.keys.toFinset.card ≤ fuel) :
    Affords t (leastKey (fun _ => true) t.datagrams) fuel := by
  intro k least
  exact ⟨leastKey_mem least, le_trans (Finset.card_filter_le _ _) enough⟩

theorem not_affords_zero {t : Tables} {key : ConnPtr} : ¬ Affords t (some key) 0 := by
  intro affords
  obtain ⟨there, none⟩ := affords key rfl
  have here : key ∈ t.entriesFrom key := mem_entriesFrom.mpr ⟨there, le_refl key⟩
  rw [Finset.card_eq_zero.mp (Nat.le_zero.mp none)] at here
  exact Finset.notMem_empty key here

theorem Affords.of_same {s t : Tables} (same : ∀ k, k ∈ t.datagrams ↔ k ∈ s.datagrams)
    {key : Option ConnPtr} {fuel : Nat} (h : Affords s key fuel) : Affords t key fuel := by
  intro k eq
  obtain ⟨there, enough⟩ := h k eq
  have entries : t.entriesFrom k = s.entriesFrom k := by
    ext k'
    rw [mem_entriesFrom, mem_entriesFrom, same]
  exact ⟨(same k).mpr there, entries ▸ enough⟩

section loops

variable {s t : State} {log : ClientLog} {length fuel : Nat} {flags channel : UInt8}

theorem Outward.mem (h : Outward s t) (k : ConnPtr) : k ∈ t.datagrams ↔ k ∈ s.datagrams := by
  have same := congrArg Option.isSome (h.entries k)
  rw [Option.isSome_map, Option.isSome_map] at same
  rw [← AList.lookup_isSome, ← AList.lookup_isSome, same]

theorem derefDatagram_same {allowed : (q : Query) → State → q.Answer → State → Prop}
    {conn : ConnPtr} {dg : DatagramConnection}
    (ends : Ends allowed (derefDatagram conn) s log dg t) : t = s := by
  rw [← bind_pure (derefDatagram conn)] at ends
  obtain ⟨dg', entry, ends⟩ := ends_derefDatagram_bind.mp ends
  exact (ends_pure.mp ends).2.2

theorem never_flushFrom (env : Externals) {key : Option ConnPtr}
    (affords : Affords s.toTables key fuel) :
    Never Fortunate (· = .hang) (flushFrom env fuel key) s := by
  induction fuel generalizing key s with
  | zero =>
    cases key with
    | none => exact never_pure
    | some k => exact absurd affords not_affords_zero
  | succ fuel ih =>
    cases key with
    | none => exact never_pure
    | some k =>
      obtain ⟨there, enough⟩ := affords k rfl
      refine never_ask_bind.mpr fun _ _ => ?_
      refine never_bind.mpr ⟨quick_datagramFlush env k s, fun log _ u flush => ?_⟩
      have same := (datagramFlush_outward flush).mem
      refine never_bind.mpr ⟨quick_derefDatagram k u, fun log dg v look => ?_⟩
      cases derefDatagram_same look
      apply ih
      have still : Affords u.toTables (some k) (fuel + 1) :=
        Affords.of_same same (fun _ eq => Option.some.inj eq ▸ ⟨there, enough⟩)
      exact affords_next (still k rfl).1 (still k rfl).2

theorem never_autoFlush (env : Externals) (enough : s.datagrams.keys.toFinset.card ≤ fuel) :
    Never Fortunate (· = .hang) (doWhen (s.queuedPackets = true) (flushAll env fuel)) s := by
  refine never_doWhen fun _ => never_get_bind.mpr ?_
  exact never_bind.mpr ⟨never_flushFrom env (affords_first s.toTables enough),
    fun _ _ t _ => quick_modify _ t⟩

def Tables.look (t : Tables) (length : Nat) (flags channel : UInt8) (conn : ConnPtr) :
    Int × Bytes × Bytes :=
  datagramGetMessage (t.buffered conn) length flags channel

def Tables.looked (t : Tables) (length : Nat) (flags channel : UInt8) (conn : ConnPtr) : Tables :=
  t.updateDatagram conn fun dg => { dg with bufIn := (t.look length flags channel conn).2.1 }

theorem look_absent {t : Tables} (length : Nat) (flags channel : UInt8) {conn : ConnPtr}
    (absent : conn ∉ t.datagrams) : t.buffered conn = [] ∧
      (t.look length flags channel conn).1 = -1 ∧ (t.look length flags channel conn).2.1 = [] := by
  have empty : t.buffered conn = [] := by
    rw [Tables.buffered, AList.lookup_eq_none.mpr absent]
    rfl
  rw [Tables.look, empty]
  exact ⟨rfl, rfl, rfl⟩

theorem getMessage_runs {allowed : (q : Query) → State → q.Answer → State → Prop}
    (length : Nat) (flags channel : UInt8) {conn : ConnPtr} (there : conn ∈ s.datagrams) :
    Ends allowed (getMessage conn length flags channel) s []
      ((s.look length flags channel conn).1, (s.look length flags channel conn).2.2)
      { s with toTables := s.looked length flags channel conn } := by
  obtain ⟨dg, entry⟩ := StdMap.mem_iff_lookup.mp there
  refine ends_derefDatagram_bind.mpr ⟨dg, entry, ?_⟩
  rw [Tables.looked, Tables.look, buffered_of_entry entry]
  exact ends_modifyTables_bind.mpr (ends_pure.mpr ⟨rfl, rfl, rfl⟩)

theorem buffered_looked {t : Tables} {conn : ConnPtr} (there : conn ∈ t.datagrams) :
    (t.looked length flags channel conn).buffered conn =
      (t.look length flags channel conn).2.1 := by
  obtain ⟨dg, entry⟩ := StdMap.mem_iff_lookup.mp there
  have looked : (t.looked length flags channel conn).datagrams.lookup conn =
      some { dg with bufIn := (t.look length flags channel conn).2.1 } :=
    StdMap.lookup_modify_some.mpr ⟨dg, entry, if_pos rfl⟩
  exact buffered_of_entry looked

theorem getMessage_looks {allowed : (q : Query) → State → q.Answer → State → Prop}
    {conn : ConnPtr} {ret : Int} {data : Bytes}
    (ends : Ends allowed (getMessage conn length flags channel) s log (ret, data) t) :
    conn ∈ s.datagrams ∧ ret = (s.look length flags channel conn).1 ∧
      t = { s with toTables := s.looked length flags channel conn } := by
  obtain ⟨dg, entry, ends⟩ := ends_derefDatagram_bind.mp ends
  have look : s.look length flags channel conn =
      datagramGetMessage dg.bufIn length flags channel := by
    rw [Tables.look, buffered_of_entry entry]
  rw [Tables.looked, look]
  simp only [ends_modifyTables_bind, ends_pure, Prod.mk.injEq] at ends
  exact ⟨StdMap.mem_iff_lookup.mpr ⟨dg, entry⟩, ends.2.1.1, ends.2.2⟩

theorem never_drainFrom {key : Option ConnPtr} (affords : Affords s.toTables key fuel) :
    Never Fortunate (· = .hang) (drainFrom length flags channel fuel key) s := by
  induction fuel generalizing key s with
  | zero =>
    cases key with
    | none => exact never_pure
    | some k => exact absurd affords not_affords_zero
  | succ fuel ih =>
    cases key with
    | none => exact never_pure
    | some k =>
      refine never_bind.mpr ⟨quick_derefDatagram k s, fun log dg u look => ?_⟩
      cases derefDatagram_same look
      refine never_bind.mpr ⟨quick_getMessage k length flags channel s, fun log got v get => ?_⟩
      obtain ⟨ret, data⟩ := got
      obtain ⟨-, -, rfl⟩ := getMessage_looks get
      dsimp only
      split
      · exact never_pure
      · refine never_get_bind.mpr (ih ?_)
        have still : Affords (s.looked length flags channel k) (some k) (fuel + 1) :=
          affords.of_same fun _ => StdMap.mem_modify
        exact affords_next (still k rfl).1 (still k rfl).2

def LookedFrom (length : Nat) (flags channel : UInt8) (key : Option ConnPtr) (s t : Tables) :
    Prop :=
  ∀ k, if ∃ first, key = some first ∧ first ≤ k then
    (s.look length flags channel k).1 ≤ 0 ∧ t.buffered k = (s.look length flags channel k).2.1
  else t.buffered k = s.buffered k

theorem lookedFrom_none (s : Tables) : LookedFrom length flags channel none s s := by
  intro k
  rw [if_neg]
  rintro ⟨first, ⟨⟩, _⟩

theorem lookedFrom_some {s t : Tables} {key : ConnPtr} (there : key ∈ s.datagrams)
    (nothing : (s.look length flags channel key).1 ≤ 0)
    (later : LookedFrom length flags channel (leastKey (fun k => decide (key < k))
      (s.looked length flags channel key).datagrams) (s.looked length flags channel key) t) :
    LookedFrom length flags channel (some key) s t := by
  intro k
  have next := later k
  have beyond : (∃ first, leastKey (fun k => decide (key < k))
      (s.looked length flags channel key).datagrams = some first ∧ first ≤ k) → key < k := by
    rintro ⟨first, least, le⟩
    exact lt_of_lt_of_le (of_decide_eq_true (leastKey_some least).1) le
  rcases Nat.lt_trichotomy k key with before | rfl | after
  · rw [if_neg fun h => lt_asymm before (beyond h), Tables.looked,
      buffered_updateDatagram (Nat.ne_of_lt before)] at next
    rw [if_neg]
    · exact next
    · rintro ⟨_, ⟨⟩, le⟩
      exact absurd before (not_lt.mpr le)
  · rw [if_neg fun h => lt_irrefl k (beyond h), buffered_looked there] at next
    rw [if_pos ⟨k, rfl, le_refl k⟩]
    exact ⟨nothing, next⟩
  · rw [if_pos ⟨key, rfl, le_of_lt after⟩]
    have other : (s.looked length flags channel key).buffered k = s.buffered k :=
      buffered_updateDatagram (Nat.ne_of_gt after)
    split at next
    · rw [Tables.look, other] at next
      exact next
    · rename_i ahead
      have absent : k ∉ s.datagrams := by
        intro entry
        have entry' : k ∈ (s.looked length flags channel key).datagrams :=
          StdMap.mem_modify.mpr entry
        cases least : leastKey (fun k => decide (key < k))
          (s.looked length flags channel key).datagrams with
        | none => exact absurd (leastKey_none least k entry') (by simpa using after)
        | some first =>
          exact ahead ⟨first, least, (leastKey_some least).2 k entry' (by simpa using after)⟩
      obtain ⟨empty, brings, left⟩ := look_absent length flags channel absent
      rw [brings, left, next, other]
      exact ⟨by decide, empty⟩

theorem drainFrom_none {allowed : (q : Query) → State → q.Answer → State → Prop}
    {key : Option ConnPtr}
    (ends : Ends allowed (drainFrom length flags channel fuel key) s log none t) :
    t = { s with datagrams := t.datagrams } ∧
      LookedFrom length flags channel key s.toTables t.toTables := by
  induction fuel generalizing key s log with
  | zero =>
    cases key with
    | none =>
      obtain ⟨-, -, rfl⟩ := ends_pure.mp ends
      exact ⟨rfl, lookedFrom_none _⟩
    | some conn => exact absurd ends ends_fault
  | succ fuel ih =>
    cases key with
    | none =>
      obtain ⟨-, -, rfl⟩ := ends_pure.mp ends
      exact ⟨rfl, lookedFrom_none _⟩
    | some key =>
      obtain ⟨dg, entry, ends⟩ := ends_derefDatagram_bind.mp ends
      obtain ⟨l, ⟨ret, data⟩, u, l', look, rest, -⟩ := ends_bind.mp ends
      obtain ⟨there, rfl, rfl⟩ := getMessage_looks look
      dsimp only at rest
      split at rest
      · have some_none := (ends_pure.mp rest).2.1
        cases some_none
      · rename_i nothing
        obtain ⟨only, later⟩ := ih (ends_get_bind.mp rest)
        exact ⟨only, lookedFrom_some there (not_lt.mp nothing) later⟩

theorem drain_none {allowed : (q : Query) → State → q.Answer → State → Prop}
    (ends : Ends allowed (drainFrom length flags channel fuel
      (leastKey (fun _ => true) s.datagrams)) s log none t) :
    t = { s with datagrams := t.datagrams } ∧ ∀ k,
      (s.look length flags channel k).1 ≤ 0 ∧
        t.buffered k = (s.look length flags channel k).2.1 := by
  obtain ⟨only, looked⟩ := drainFrom_none ends
  refine ⟨only, fun k => ?_⟩
  have here := looked k
  split at here
  · exact here
  · rename_i passed
    have absent : k ∉ s.datagrams := by
      intro entry
      cases least : leastKey (fun _ => true) s.datagrams with
      | none => exact absurd (leastKey_none least k entry) (by decide)
      | some first => exact passed ⟨first, least, (leastKey_some least).2 k entry rfl⟩
    obtain ⟨empty, brings, left⟩ := look_absent length flags channel absent
    rw [brings, left, here]
    exact ⟨by decide, empty⟩

theorem length_erase_lt {set : StdSet ConnPtr} {conn : ConnPtr} (there : conn ∈ set) :
    (StdSet.erase conn set).length < set.length := by
  apply List.length_filter_lt_length_iff_exists.mpr
  exact ⟨conn, there, by simp⟩

theorem never_acceptLoop (enough : s.pendingNewConnections.length < fuel) :
    Never Fortunate (· = .hang) (acceptLoop fuel) s := by
  induction fuel generalizing s with
  | zero => omega
  | succ fuel ih =>
    refine never_bind.mpr ⟨quick_connectionAccept s, fun log found u accept => ?_⟩
    obtain ⟨walked, l, answer, accept, -⟩ := ends_ask_bind.mp (ends_get_bind.mp accept)
    have perm : List.Perm walked s.pendingNewConnections := answer.allowed
    cases walked with
    | nil =>
      obtain ⟨-, rfl, rfl⟩ := ends_pure.mp accept
      exact never_pure
    | cons conn rest =>
      dsimp only at accept
      rw [ends_modify_bind, ends_pure] at accept
      obtain ⟨-, rfl, rfl⟩ := accept
      have fewer := length_erase_lt (perm.subset List.mem_cons_self)
      refine never_bind.mpr ⟨quick_deref conn _, fun log c v look => ?_⟩
      have same : v.pendingNewConnections = StdSet.erase conn s.pendingNewConnections := by
        rw [← bind_pure (deref conn)] at look
        obtain ⟨c', here, look⟩ := ends_deref_bind.mp look
        rw [(ends_pure.mp look).2.2]
      refine never_bind.mpr ⟨quick_doWhen (quick_insertDatagram conn) v, fun log _ w insert => ?_⟩
      apply ih
      have kept : w.pendingNewConnections = v.pendingNewConnections := by
        unfold doWhen at insert
        split at insert
        · obtain ⟨c', here, rfl⟩ := insertDatagram_ends insert
          rfl
        · rw [(ends_pure.mp insert).2.2]
      rw [kept, same]
      omega

/-! ### The polling loop -/

inductive Takes (s : State) (conn : ConnPtr) (c : Connection) : Bytes × Int → State → Prop where
  | connecting (status : c.status = .connecting) : Takes s conn c ([], 0) s
  | closed (status : c.status = .closed) (empty : c.recvBuffer = []) :
    Takes s conn c ([], -1) { s with errorString := some "Connection closed" }
  | empty (status : c.status = .connected) (empty : c.recvBuffer = [])
    (unlisted : conn ∉ s.pendingDataConnections) : Takes s conn c ([], 0) s
  | data (status : c.status ≠ .connecting) (unread : c.recvBuffer ≠ [])
    (listed : conn ∈ s.pendingDataConnections) :
    Takes s conn c (c.recvBuffer, asInt c.recvBuffer.length)
      { s with
        toTables :=
          { s.updateConnection conn fun c => { c with recvBuffer := [] } with
            pendingDataConnections := StdSet.erase conn s.pendingDataConnections } }

theorem readAll_takes {conn : ConnPtr} {r : Bytes × Int}
    (ends : Ends Fortunate (humblenetConnectionReadAll conn 0) s log r t) :
    ∃ c, s.heap.lookup conn = some c ∧ Takes s conn c r t := by
  obtain ⟨c, here, ends⟩ := ends_deref_bind.mp ends
  refine ⟨c, here, ?_⟩
  split at ends
  · obtain ⟨-, rfl, rfl⟩ := ends_pure.mp ends
    exact .connecting ‹_›
  split at ends
  · rename_i opened empty
    obtain ⟨unlisted, ends⟩ := ends_assert_bind.mp (ends_get_bind.mp ends)
    split at ends
    · rename_i closed
      rw [humblenetSetError, ends_modify_bind, ends_pure] at ends
      obtain ⟨-, rfl, rfl⟩ := ends
      exact .closed closed (List.isEmpty_iff.mp empty)
    · rename_i alive
      obtain ⟨-, rfl, rfl⟩ := ends_pure.mp ends
      refine .empty ?_ (List.isEmpty_iff.mp empty) unlisted
      cases status : c.status with
      | connected => rfl
      | connecting => exact absurd status opened
      | closed => exact absurd status alive
  · rename_i opened nonempty
    obtain ⟨enough, l, answer, ends, -⟩ := ends_ask_bind.mp ends
    rw [if_pos (show enough = true from answer)] at ends
    obtain ⟨listed, ends⟩ := ends_assert_bind.mp
      (ends_get_bind.mp (ends_modifyTables_bind.mp ends))
    rw [ends_modify_bind, ends_pure] at ends
    obtain ⟨-, rfl, rfl⟩ := ends
    exact .data opened (fun empty => nonempty (List.isEmpty_iff.mpr empty)) listed

def Reports (length : Nat) (flags channel : UInt8) (t : Tables) (conn : ConnPtr) : Prop :=
  ∃ c, t.heap.lookup conn = some c ∧ c.status = .closed ∧
    (c.recvBuffer = [] ∨ c.recvBuffer.length < 2 ^ 31 ∧
      0 < (datagramGetMessage (t.buffered conn ++ c.recvBuffer) length flags channel).1)

inductive Fruitless (s : Tables) (conn : ConnPtr) (c : Connection) (t : Tables) : Prop where
  | stays (stuck : c.status = .connecting ∨ conn ∉ s.pendingDataConnections)
    (heap : t.heap = s.heap) (listed : t.pendingDataConnections = s.pendingDataConnections)
  | leaves (pending : conn ∈ s.pendingDataConnections)
    (heap : t.heap = StdMap.modify conn (fun c => { c with recvBuffer := [] }) s.heap)
    (listed : t.pendingDataConnections = StdSet.erase conn s.pendingDataConnections)

theorem getBuffered_looks {conn : ConnPtr} {r : Option Received} (ends : Ends Fortunate (do
      mark (.bufferedIn conn)
      let (ret, data) ← getMessage conn length flags channel
      if 0 < ret then
        let dg ← derefDatagram conn
        pure (some (ret, some dg.conn, data))
      else pure none) s log r t) :
    match r with
    | some received => 0 < received.1 ∧ 0 < (s.look length flags channel conn).1
    | none => (s.look length flags channel conn).1 ≤ 0 ∧
      t = { s with toTables := s.looked length flags channel conn } := by
  obtain ⟨_, l, _, ends, -⟩ := ends_ask_bind.mp ends
  obtain ⟨l, ⟨ret, data⟩, u, l', look, rest, -⟩ := ends_bind.mp ends
  obtain ⟨there, rfl, rfl⟩ := getMessage_looks look
  dsimp only at rest
  split at rest
  · rename_i brings
    obtain ⟨dg, entry, rest⟩ := ends_derefDatagram_bind.mp rest
    obtain ⟨-, rfl, -⟩ := ends_pure.mp rest
    exact ⟨brings, brings⟩
  · rename_i nothing
    obtain ⟨-, rfl, same⟩ := ends_pure.mp rest
    exact ⟨not_lt.mp nothing, same⟩

theorem buffered_more {t : Tables} {conn : ConnPtr} {data : Bytes} (there : conn ∈ t.datagrams) :
    (t.updateDatagram conn fun dg => { dg with bufIn := dg.bufIn ++ data }).buffered conn =
      t.buffered conn ++ data := by
  obtain ⟨dg, entry⟩ := StdMap.mem_iff_lookup.mp there
  have more : (t.updateDatagram conn fun dg =>
      { dg with bufIn := dg.bufIn ++ data }).datagrams.lookup conn =
        some { dg with bufIn := dg.bufIn ++ data } :=
    StdMap.lookup_modify_some.mpr ⟨dg, entry, if_pos rfl⟩
  rw [buffered_of_entry more, buffered_of_entry entry]

def Connection.handsOver (c : Connection) : Bytes :=
  if c.status = .connecting then [] else c.recvBuffer

def joined (buffered data : Bytes) : Bytes :=
  if asInt data.length < 0 then [] else buffered ++ data.take (asInt data.length).toNat

theorem joined_of_small {buffered data : Bytes} (small : data.length < 2 ^ 31) :
    joined buffered data = buffered ++ data := by
  rw [joined, asInt_of_small small, if_neg (not_lt.mpr (Int.natCast_nonneg _)), Int.toNat_natCast,
    List.take_length]

def Connection.Ended (c : Connection) : Prop :=
  c.status = .closed ∧ (c.recvBuffer = [] ∨ asInt c.recvBuffer.length < 0)

structure PassedOver (length : Nat) (flags channel : UInt8) (s : State) (conn : ConnPtr)
    (c : Connection) (t : State) : Prop where
  alive : ¬ c.Ended
  nothing : (datagramGetMessage (joined (s.buffered conn) c.handsOver) length flags channel).1 ≤ 0
  left : t.buffered conn =
    (datagramGetMessage (joined (s.buffered conn) c.handsOver) length flags channel).2.1
  others : ∀ k, k ≠ conn → t.buffered k = s.buffered k
  closed : t.remoteClosedConnections = s.remoteClosedConnections
  accepting : t.pendingNewConnections = s.pendingNewConnections
  fruitless : Fruitless s.toTables conn c t.toTables
  waits : c.status = .connecting →
    t.heap = s.heap ∧ t.pendingDataConnections = s.pendingDataConnections

def Round (length : Nat) (flags channel : UInt8) (s : State) (conn : ConnPtr) (c : Connection) :
    Option Received → State → Prop
  | some received, _ => received.1 ≠ 0 ∧ (c.Ended ∨
    0 < (datagramGetMessage (joined (s.buffered conn) c.handsOver) length flags channel).1)
  | none, t => PassedOver length flags channel s conn c t

theorem looks_joined {conn : ConnPtr} {c : Connection} {v : State} {r : Option Received}
    (alive : ¬ c.Ended) (there : conn ∈ v.datagrams) (held : ∀ k, v.buffered k = s.buffered k)
    (closed : v.remoteClosedConnections = s.remoteClosedConnections)
    (accepting : v.pendingNewConnections = s.pendingNewConnections)
    (fruitless : Fruitless s.toTables conn c v.toTables)
    (waits : c.status = .connecting →
      v.heap = s.heap ∧ v.pendingDataConnections = s.pendingDataConnections)
    (counted : ¬ asInt c.handsOver.length < 0) (ends : Ends Fortunate (do
      mark (.bufferedIn conn)
      let (ret, data) ← getMessage conn length flags channel
      if 0 < ret then
        let dg ← derefDatagram conn
        pure (some (ret, some dg.conn, data))
      else pure none)
      { v with
        toTables := v.updateDatagram conn fun dg =>
          { dg with
            bufIn := dg.bufIn ++ c.handsOver.take (asInt c.handsOver.length).toNat } }
      log r t) : Round length flags channel s conn c r t := by
  have full : (v.updateDatagram conn fun dg =>
      { dg with bufIn := dg.bufIn ++ c.handsOver.take (asInt c.handsOver.length).toNat }).buffered
        conn = joined (s.buffered conn) c.handsOver := by
    rw [buffered_more there, held, joined, if_neg counted]
  have outcome := getBuffered_looks ends
  rw [Tables.look, full] at outcome
  cases r with
  | some received => exact ⟨ne_of_gt outcome.1, Or.inr outcome.2⟩
  | none =>
    obtain ⟨nothing, rfl⟩ := outcome
    refine ⟨alive, nothing, ?_, fun k other => ?_, closed, accepting, ?_, waits⟩
    · apply (buffered_looked (StdMap.mem_modify.mpr there)).trans
      rw [Tables.look, full]
    · apply (buffered_updateDatagram other).trans
      apply (buffered_updateDatagram other).trans
      exact held k
    · cases fruitless with
      | stays stuck heap listed => exact .stays stuck heap listed
      | leaves pending heap listed => exact .leaves pending heap listed

theorem receiveFrom_round {conn : ConnPtr} {r : Option Received}
    (ends : Ends Fortunate (receiveFrom length flags channel conn) s log r t) :
    ∃ c, s.heap.lookup conn = some c ∧
      (c.handsOver ≠ [] → conn ∈ s.pendingDataConnections) ∧
      Round length flags channel s conn c r t := by
  obtain ⟨l, _, u, l', insert, ends, -⟩ := ends_bind.mp ends
  obtain ⟨c, here, eq⟩ := insertDatagram_ends insert
  have inserted : ∀ k, u.buffered k = s.buffered k := by
    rw [eq]
    exact fun k => buffered_insertDatagram conn k c.otherPeer
  have there : conn ∈ u.datagrams := by
    rw [eq, ← AList.lookup_isSome, StdMap.lookup_emplace, if_pos rfl]
    rfl
  have heap : u.heap = s.heap := by rw [eq]
  have closed : u.remoteClosedConnections = s.remoteClosedConnections := by rw [eq]
  have accepting : u.pendingNewConnections = s.pendingNewConnections := by rw [eq]
  have pending : u.pendingDataConnections = s.pendingDataConnections := by rw [eq]
  clear eq insert
  refine ⟨c, here, ?_⟩
  obtain ⟨l, ⟨buf, retval⟩, v, l', read, rest, -⟩ := ends_bind.mp ends
  obtain ⟨c', here', takes⟩ := readAll_takes read
  cases (heap ▸ here').symm.trans here
  have none_handed : c.handsOver = [] → List.take (Int.toNat 0) ([] : Bytes) =
      c.handsOver.take (asInt c.handsOver.length).toNat ∧ ¬ asInt c.handsOver.length < 0 := by
    intro nothing
    rw [nothing, List.take_nil, List.take_nil]
    exact ⟨rfl, by decide⟩
  dsimp only at rest
  cases takes with
  | connecting status =>
    obtain ⟨same, counted⟩ := none_handed (if_pos status)
    rw [if_neg (by decide), ends_modifyTables_bind, same] at rest
    refine ⟨fun hands => absurd (if_pos status) hands, looks_joined (s := s) (v := u) ?_ there
      inserted closed accepting (.stays (Or.inl status) heap pending) (fun _ => ⟨heap, pending⟩)
      counted rest⟩
    rintro ⟨closed, _⟩
    cases status.symm.trans closed
  | empty status empty unlisted =>
    have nothing : c.handsOver = [] := by simp [Connection.handsOver, empty]
    obtain ⟨same, counted⟩ := none_handed nothing
    rw [if_neg (by decide), ends_modifyTables_bind, same] at rest
    refine ⟨fun hands => absurd nothing hands, looks_joined (s := s) (v := u) ?_ there inserted
      closed accepting (.stays (Or.inr (pending ▸ unlisted)) heap pending)
      (fun _ => ⟨heap, pending⟩) counted rest⟩
    rintro ⟨closed, _⟩
    cases status.symm.trans closed
  | closed status empty =>
    rw [if_pos (by decide), ends_modify_bind, humblenetClearError, ends_modify_bind] at rest
    obtain ⟨c', there, rest⟩ := ends_deref_bind.mp rest
    cases here'.symm.trans there
    rw [if_pos status] at rest
    obtain ⟨-, rfl, -⟩ := ends_pure.mp rest
    have nothing : c.handsOver = [] := by simp [Connection.handsOver, empty]
    exact ⟨fun hands => absurd nothing hands, Int.negSucc_ne_zero 0, Or.inl ⟨status, Or.inl empty⟩⟩
  | data status unread listed =>
    refine ⟨fun _ => pending ▸ listed, ?_⟩
    have handed : c.handsOver = c.recvBuffer := if_neg status
    have leaves : Fruitless s.toTables conn c { u.updateConnection conn
        fun c => { c with recvBuffer := [] } with
          pendingDataConnections := StdSet.erase conn u.pendingDataConnections } := by
      refine .leaves (pending ▸ listed) ?_ ?_
      · rw [← heap]
        rfl
      · rw [← pending]
    split at rest
    · rename_i negative
      rw [ends_modify_bind, humblenetClearError, ends_modify_bind] at rest
      obtain ⟨c', there, rest⟩ := ends_deref_bind.mp rest
      obtain ⟨d, old, rfl⟩ := StdMap.lookup_modify_some.mp there
      cases here'.symm.trans old
      rw [if_pos rfl] at rest
      split at rest
      · rename_i closed
        obtain ⟨-, rfl, -⟩ := ends_pure.mp rest
        exact ⟨Int.negSucc_ne_zero 0, Or.inl ⟨closed, Or.inr negative⟩⟩
      · rename_i alive
        obtain ⟨-, rfl, rfl⟩ := ends_pure.mp rest
        have dropped : joined (s.buffered conn) c.handsOver = [] := by
          rw [handed]
          exact if_pos negative
        refine ⟨fun ended => alive ended.1, ?_, ?_, fun k other => ?_, closed, accepting, ?_,
          fun opening => absurd opening status⟩
        · rw [dropped]
          exact Int.negSucc_le_zero 0
        · rw [dropped, Tables.buffered, AList.lookup_erase]
          rfl
        · rw [buffered_eraseDatagram other]
          exact inserted k
        · cases leaves with
          | stays stuck heap listed => exact .stays stuck heap listed
          | leaves pending heap listed => exact .leaves pending heap listed
    · rename_i pos
      have counted : ¬ asInt c.handsOver.length < 0 := by
        rw [handed]
        exact pos
      rw [ends_modifyTables_bind, ← handed] at rest
      refine looks_joined (s := s) (v := { u with toTables := { u.updateConnection conn
        fun c => { c with recvBuffer := [] } with
          pendingDataConnections := StdSet.erase conn u.pendingDataConnections } })
        ?_ there inserted closed accepting leaves (fun opening => absurd opening status) counted
        rest
      rintro ⟨_, empty | negative⟩
      · exact unread empty
      · exact pos negative

theorem receiveFrom_none {conn : ConnPtr}
    (ends : Ends Fortunate (receiveFrom length flags channel conn) s log none t) :
    ¬ Reports length flags channel s.toTables conn ∧
      ∃ c, s.heap.lookup conn = some c ∧ PassedOver length flags channel s conn c t := by
  obtain ⟨c, here, -, passes⟩ := receiveFrom_round ends
  refine ⟨?_, c, here, passes⟩
  rintro ⟨c', there, closed, empty | ⟨small, brings⟩⟩
  · cases here.symm.trans there
    exact passes.alive ⟨closed, Or.inl empty⟩
  · cases here.symm.trans there
    have opened : c.status ≠ .connecting := by
      rw [closed]
      exact nofun
    have handed : c.handsOver = c.recvBuffer := if_neg opened
    have nothing := passes.nothing
    rw [handed, joined_of_small small] at nothing
    exact absurd brings (not_lt.mpr nothing)

/-- A connection with unread data that is still being opened. -/
def Stuck (t : Tables) : Prop :=
  ∃ conn ∈ t.pendingDataConnections, ∃ c, t.heap.lookup conn = some c ∧
    c.status = .connecting ∧ c.recvBuffer ≠ []

def Leaves (length : Nat) (flags channel : UInt8) (t : Tables) : Prop :=
  ¬ Stuck t ∨ ∃ conn ∈ t.remoteClosedConnections, Reports length flags channel t conn

theorem not_stuck_fruitless {s t : Tables} {conn : ConnPtr} {c : Connection} (free : ¬ Stuck s)
    (fruitless : Fruitless s conn c t) : ¬ Stuck t := by
  rintro ⟨k, listed, d, here, status, unread⟩
  cases fruitless with
  | stays stuck heap pending =>
    exact free ⟨k, pending ▸ listed, d, heap ▸ here, status, unread⟩
  | leaves pending heap left =>
    rw [left, StdSet.mem_erase] at listed
    rw [heap] at here
    obtain ⟨old, here', rfl⟩ := StdMap.lookup_modify_some.mp here
    rw [if_neg listed.2] at status unread
    exact free ⟨k, listed.1, old, here', status, unread⟩

theorem reports_fruitless {s t : Tables} {conn k : ConnPtr} {c : Connection}
    (fruitless : Fruitless s conn c t) (other : k ≠ conn)
    (buffered : t.buffered k = s.buffered k) (reports : Reports length flags channel s k) :
    Reports length flags channel t k := by
  obtain ⟨d, here, reports⟩ := reports
  refine ⟨d, ?_, buffered ▸ reports⟩
  cases fruitless with
  | stays stuck heap pending => exact heap ▸ here
  | leaves pending heap left =>
    rw [heap]
    exact StdMap.lookup_modify_some.mpr ⟨d, here, if_neg other⟩

theorem length_fruitless {s t : Tables} {conn : ConnPtr} {c : Connection}
    (fruitless : Fruitless s conn c t) :
    t.pendingDataConnections.length ≤ s.pendingDataConnections.length := by
  cases fruitless with
  | stays stuck heap pending => rw [pending]
  | leaves pending heap left =>
    rw [left]
    exact le_of_lt (length_erase_lt pending)

theorem never_pollLoop
    (enough : s.remoteClosedConnections.length + s.pendingDataConnections.length < fuel)
    (leaves : Leaves length flags channel s.toTables) :
    Never Fortunate (· = .hang) (pollLoop length flags channel fuel) s := by
  induction fuel generalizing s with
  | zero => omega
  | succ fuel ih =>
    refine never_bind.mpr ⟨quick_pollAll s, fun log found u poll => ?_⟩
    have polled := pollAll_ends Fortunate.allowed poll
    cases found with
    | none => exact never_pure
    | some conn =>
      refine never_bind.mpr ⟨quick_receiveFrom length flags channel conn u, ?_⟩
      intro log received t round
      cases received with
      | some received => exact never_pure
      | none =>
        obtain ⟨silent, c, here, passes⟩ := receiveFrom_none round
        have closed := passes.closed
        have buffered := passes.others
        have fruitless := passes.fruitless
        rcases polled with ⟨listed, rfl⟩ | ⟨pending, none, rfl, c', here', unread⟩
        · have fewer := length_erase_lt listed
          apply ih
          · have shrinks := length_fruitless fruitless
            rw [closed]
            dsimp only at shrinks ⊢
            omega
          · rcases leaves with free | ⟨k, listed', reports⟩
            · have free' : ¬ Stuck { s.toTables with
                remoteClosedConnections := StdSet.erase conn s.remoteClosedConnections } := free
              exact Or.inl (not_stuck_fruitless free' fruitless)
            · have other : k ≠ conn := by
                rintro rfl
                exact silent reports
              have reports' : Reports length flags channel { s.toTables with
                remoteClosedConnections := StdSet.erase conn s.remoteClosedConnections } k := reports
              refine Or.inr ⟨k, closed ▸ StdSet.mem_erase.mpr ⟨listed', other⟩, ?_⟩
              exact reports_fruitless fruitless other (buffered k other) reports'
        · cases here.symm.trans here'
          have free : ¬ Stuck u.toTables := by
            rcases leaves with free | ⟨k, listed, _⟩
            · exact free
            · rw [none] at listed
              exact absurd listed List.not_mem_nil
          apply ih
          · cases fruitless with
            | stays stuck heap same =>
              rcases stuck with status | unlisted
              · exact absurd ⟨conn, pending, c, here, status, unread⟩ free
              · exact absurd pending unlisted
            | leaves pending heap left =>
              have fewer := length_erase_lt pending
              rw [closed, left]
              omega
          · exact Or.inl (not_stuck_fruitless free fruitless)

theorem pollLoop_none (ends : Ends Fortunate (pollLoop length flags channel fuel) s log none t) :
    t.pendingNewConnections = s.pendingNewConnections := by
  induction fuel generalizing s log with
  | zero => exact absurd ends ends_fault
  | succ fuel ih =>
    obtain ⟨l, found, u, l', poll, next, -⟩ := ends_bind.mp ends
    have polled := pollAll_ends Fortunate.allowed poll
    have same : u.pendingNewConnections = s.pendingNewConnections := by
      cases found with
      | none => rw [polled.1]
      | some conn =>
        rcases polled with ⟨_, rfl⟩ | ⟨_, _, rfl, _⟩
        · rfl
        · rfl
    cases found with
    | none =>
      obtain ⟨-, -, rfl⟩ := ends_pure.mp next
      exact same
    | some conn =>
      obtain ⟨l, received, v, l', round, next, -⟩ := ends_bind.mp next
      cases received with
      | some received =>
        have some_none := (ends_pure.mp next).2.1
        cases some_none
      | none =>
        obtain ⟨-, c, here, passes⟩ := receiveFrom_none round
        exact (ih next).trans (passes.accepting.trans same)

/-- The call is over before it polls a connection that is still being opened: an entry has a
message, or a closed connection has something to tell, or there is no such connection. -/
def Attended (length : Nat) (flags channel : UInt8) (t : Tables) : Prop :=
  ¬ Stuck t ∨
  (∃ conn dg, t.datagrams.lookup conn = some dg ∧
    0 < (datagramGetMessage dg.bufIn length flags channel).1) ∨
  ∃ conn ∈ t.remoteClosedConnections, ∃ c, t.heap.lookup conn = some c ∧
    (c.recvBuffer = [] ∨ c.recvBuffer.length < 2 ^ 31 ∧
      0 < (datagramGetMessage ((t.look length flags channel conn).2.1 ++ c.recvBuffer)
        length flags channel).1)

def ClosedListed (t : Tables) : Prop :=
  ∀ conn ∈ t.remoteClosedConnections, ∃ c, t.heap.lookup conn = some c ∧ c.status = .closed

theorem never_sift (enough : s.datagrams.keys.toFinset.card ≤ fuel)
    (rounds : s.remoteClosedConnections.length + s.pendingDataConnections.length < fuel)
    (accepts : s.pendingNewConnections.length < fuel) (listed : ClosedListed s.toTables)
    (attended : Attended length flags channel s.toTables) :
    Never Fortunate (· = .hang) (sift fuel length flags channel) s := by
  refine never_get_bind.mpr (never_bind.mpr
    ⟨never_drainFrom (affords_first s.toTables enough), fun log drained u drain => ?_⟩)
  cases drained with
  | some received => exact never_pure
  | none =>
    obtain ⟨only, looked⟩ := drain_none drain
    have leaves : Leaves length flags channel u.toTables := by
      rcases attended with free | ⟨conn, dg, entry, brings⟩ | ⟨conn, closed, c, here, tells⟩
      · rw [only]
        exact Or.inl free
      · have nothing := (looked conn).1
        rw [Tables.look, buffered_of_entry entry] at nothing
        exact absurd brings (not_lt.mpr nothing)
      · obtain ⟨c', here', status⟩ := listed conn closed
        cases here.symm.trans here'
        rw [only]
        refine Or.inr ⟨conn, closed, c, here, status, tells.imp id fun more => ⟨more.1, ?_⟩⟩
        have left := (looked conn).2
        rw [only] at left
        rw [left]
        exact more.2
    refine never_bind.mpr ⟨never_pollLoop ?_ leaves, fun log polled v poll => ?_⟩
    · rw [only]
      exact rounds
    · cases polled with
      | some received => exact never_pure
      | none =>
        refine never_bind.mpr ⟨never_acceptLoop ?_, fun _ _ _ _ => never_pure⟩
        rw [pollLoop_none poll, only]
        exact accepts

theorem never_datagramRecv (env : Externals) (enough : s.datagrams.keys.toFinset.card ≤ fuel)
    (rounds : s.remoteClosedConnections.length + s.pendingDataConnections.length < fuel)
    (accepts : s.pendingNewConnections.length < fuel) (listed : ClosedListed s.toTables)
    (attended : Attended length flags channel s.toTables) :
    Never Fortunate (· = .hang) (humblenetDatagramRecv env fuel length flags channel) s := by
  rw [humblenetDatagramRecv_eq]
  refine never_get_bind.mpr (never_bind.mpr ⟨never_autoFlush env enough, fun log _ t flush => ?_⟩)
  obtain ⟨outward, -⟩ := autoFlush_outward flush
  have heap := outward.heap
  have closed : t.remoteClosedConnections = s.remoteClosedConnections := by rw [outward.only]
  have pending : t.pendingDataConnections = s.pendingDataConnections := by rw [outward.only]
  have accepting : t.pendingNewConnections = s.pendingNewConnections := by rw [outward.only]
  apply never_sift
  · have keys : t.datagrams.keys.toFinset = s.datagrams.keys.toFinset := by
      ext k
      rw [List.mem_toFinset, List.mem_toFinset, ← AList.mem_keys, ← AList.mem_keys, outward.mem]
    rw [keys]
    exact enough
  · rw [closed, pending]
    exact rounds
  · rw [accepting]
    exact accepts
  · rw [ClosedListed, closed, heap]
    exact listed
  · rcases attended with free | ⟨conn, dg, entry, brings⟩ | ⟨conn, there, c, here, tells⟩
    · refine Or.inl ?_
      rw [Stuck, pending, heap]
      exact free
    · obtain ⟨dg', entry', same⟩ := outward.symm_entry entry
      have bufIn : dg'.received.bufIn = dg.received.bufIn := congrArg DatagramConnection.bufIn same
      refine Or.inr (Or.inl ⟨conn, dg', entry', ?_⟩)
      change 0 < (datagramGetMessage dg'.received.bufIn length flags channel).1
      rw [bufIn]
      exact brings
    · refine Or.inr (Or.inr ⟨conn, closed ▸ there, c, heap ▸ here, ?_⟩)
      rw [Tables.look, outward.buffered conn]
      exact tells

end loops

/-! ### The loop that polls one connection for ever -/

section stuck

variable {s : State} {length fuel : Nat} {flags channel : UInt8} {conn : ConnPtr} {c : Connection}

theorem pollAll_pending (closed : s.remoteClosedConnections = [])
    (listed : conn ∈ s.pendingDataConnections) (here : s.heap.lookup conn = some c)
    (unread : c.recvBuffer ≠ []) : ∃ log, Ends Fortunate humblenetPollAll s log (some conn) s := by
  have perm := (List.perm_cons_erase listed).symm
  have tail : Ends Fortunate (do
      let c ← deref conn
      assert (c.recvBuffer ≠ []) .pollAll
      pure (some conn)) s [] (some conn) s :=
    ends_deref_bind.mpr ⟨c, here, ends_assert_bind.mpr ⟨unread, ends_pure.mpr ⟨rfl, rfl, rfl⟩⟩⟩
  have first : Ends Fortunate firstPendingData s
      [⟨.order s.pendingDataConnections, conn :: List.erase s.pendingDataConnections conn⟩]
      (some conn) s :=
    ends_get_bind.mpr (ends_ask_bind.mpr ⟨_, [], perm, tail, rfl⟩)
  have opened : List.Perm [] s.remoteClosedConnections := by rw [closed]
  exact ⟨_, ends_get_bind.mpr (ends_ask_bind.mpr
    ⟨[], _, opened, ends_bind.mpr ⟨_, _, _, _, first, ends_pure.mpr ⟨rfl, rfl, rfl⟩, rfl⟩, rfl⟩)⟩

theorem receiveFrom_stuck (length : Nat) (flags channel : UInt8)
    (here : s.heap.lookup conn = some c) (status : c.status = .connecting)
    (empty : s.buffered conn = []) : ∃ log t,
      Ends Fortunate (receiveFrom length flags channel conn) s log none t ∧ t.heap = s.heap ∧
        t.pendingDataConnections = s.pendingDataConnections ∧
        t.remoteClosedConnections = s.remoteClosedConnections ∧ t.buffered conn = [] := by
  let u : State := { s with
    datagrams := StdMap.emplace conn (DatagramConnection.new conn c.otherPeer) s.datagrams }
  have insert : Ends Fortunate (insertDatagram conn) s [] () u :=
    ends_deref_bind.mpr ⟨c, here, ends_modify.mpr ⟨rfl, rfl⟩⟩
  have read : Ends Fortunate (humblenetConnectionReadAll conn 0) u [] ([], 0) u := by
    refine ends_deref_bind.mpr ⟨c, here, ?_⟩
    rw [if_pos status]
    exact ends_pure.mpr ⟨rfl, rfl, rfl⟩
  have entry : conn ∈ u.datagrams :=
    StdMap.mem_iff_lookup.mpr ⟨_, (StdMap.lookup_emplace _ _ _ _).trans (if_pos rfl)⟩
  let v : State := { u with toTables := u.updateDatagram conn fun dg =>
    { dg with bufIn := dg.bufIn ++ List.take (Int.toNat 0) [] } }
  have nothing : v.buffered conn = [] := by
    have same : u.buffered conn = s.buffered conn := buffered_insertDatagram conn conn c.otherPeer
    have more : v.buffered conn = u.buffered conn ++ List.take (Int.toNat 0) [] := buffered_more entry
    rw [more, same, empty, List.take_nil, List.append_nil]
  have there : conn ∈ v.datagrams := StdMap.mem_modify.mpr entry
  have look : v.look length flags channel conn = (-1, [], []) := by
    rw [Tables.look, nothing]
    rfl
  have get : Ends Fortunate (getMessage conn length flags channel) v [] (-1, [])
      { v with toTables := v.looked length flags channel conn } := by
    have runs : Ends Fortunate (getMessage conn length flags channel) v []
        ((v.look length flags channel conn).1, (v.look length flags channel conn).2.2)
        { v with toTables := v.looked length flags channel conn } :=
      getMessage_runs length flags channel there
    rw [look] at runs
    exact runs
  have look' : Ends Fortunate (do
      mark (.bufferedIn conn)
      let (ret, data) ← getMessage conn length flags channel
      if 0 < ret then
        let dg ← derefDatagram conn
        pure (some (ret, some dg.conn, data))
      else pure none) v _ (none : Option Received)
      { v with toTables := v.looked length flags channel conn } :=
    ends_ask_bind.mpr ⟨(), _, trivial, ends_bind.mpr
      ⟨_, _, _, _, get, ends_pure.mpr ⟨rfl, rfl, rfl⟩, rfl⟩, rfl⟩
  have round : Ends Fortunate (receiveFrom length flags channel conn) s _ none
      { v with toTables := v.looked length flags channel conn } :=
    ends_bind.mpr ⟨_, _, _, _, insert, ends_bind.mpr
      ⟨_, _, _, _, read, ends_modifyTables_bind.mpr look', rfl⟩, rfl⟩
  refine ⟨_, _, round, rfl, rfl, rfl, ?_⟩
  have left : (v.looked length flags channel conn).buffered conn =
      (v.look length flags channel conn).2.1 := buffered_looked there
  rw [look] at left
  exact left

theorem pollLoop_hangs (closed : s.remoteClosedConnections = [])
    (listed : conn ∈ s.pendingDataConnections) (here : s.heap.lookup conn = some c)
    (status : c.status = .connecting) (unread : c.recvBuffer ≠ []) (empty : s.buffered conn = []) :
    ¬ Never Fortunate (· = .hang) (pollLoop length flags channel fuel) s := by
  induction fuel generalizing s with
  | zero => exact fun never => never rfl
  | succ fuel ih =>
    intro never
    obtain ⟨log, poll⟩ := pollAll_pending closed listed here unread
    have polled := (never_bind.mp never).2 _ _ _ poll
    obtain ⟨log', t, round, heap, pending, still, nothing⟩ :=
      receiveFrom_stuck length flags channel here status empty
    have again := (never_bind.mp polled).2 _ _ _ round
    exact ih (still.trans closed) (pending ▸ listed) (heap ▸ here) nothing again

theorem drainFrom_silent {key : Option ConnPtr} (there : ∀ k, key = some k → k ∈ s.datagrams)
    (silent : ∀ k, (∃ first, key = some first ∧ first ≤ k) →
      (s.look length flags channel k).1 ≤ 0)
    (never : Never Fortunate (· = .hang) (drainFrom length flags channel fuel key) s) :
    ∃ log t, Ends Fortunate (drainFrom length flags channel fuel key) s log none t := by
  induction fuel generalizing key s with
  | zero =>
    cases key with
    | none => exact ⟨_, _, .done _ _⟩
    | some k => exact absurd rfl never
  | succ fuel ih =>
    cases key with
    | none => exact ⟨_, _, .done _ _⟩
    | some key =>
      have entered := there key rfl
      have brings := silent key ⟨key, rfl, le_refl key⟩
      obtain ⟨dg, entry⟩ := StdMap.mem_iff_lookup.mp entered
      have get : Ends Fortunate (getMessage key length flags channel) s []
          ((s.look length flags channel key).1, (s.look length flags channel key).2.2)
          { s with toTables := s.looked length flags channel key } :=
        getMessage_runs length flags channel entered
      have found : Ends Fortunate (derefDatagram key) s [] dg s := by
        rw [← bind_pure (derefDatagram key)]
        exact ends_derefDatagram_bind.mpr ⟨dg, entry, .done _ _⟩
      have rest := (never_bind.mp ((never_bind.mp never).2 _ _ _ found)).2 _ _ _ get
      dsimp only at rest
      rw [if_neg (not_lt.mpr brings)] at rest
      have later : ∀ k, (∃ first, leastKey (fun k => decide (key < k))
          (s.looked length flags channel key).datagrams = some first ∧ first ≤ k) →
          ((s.looked length flags channel key).look length flags channel k).1 ≤ 0 := by
        rintro k ⟨first, least, le⟩
        have after : key < k :=
          lt_of_lt_of_le (of_decide_eq_true (leastKey_some least).1) le
        have other : (s.looked length flags channel key).buffered k = s.buffered k :=
          buffered_updateDatagram (Nat.ne_of_gt after)
        rw [Tables.look, other]
        exact silent k ⟨key, rfl, le_of_lt after⟩
      obtain ⟨log, t, drained⟩ := ih (fun _ => leastKey_mem) later rest
      refine ⟨[] ++ ([] ++ log), t, ends_bind.mpr ⟨_, _, _, _, found, ends_bind.mpr
        ⟨_, _, _, _, get, ?_, rfl⟩, rfl⟩⟩
      dsimp only
      rw [if_neg (not_lt.mpr brings)]
      exact drained

theorem datagramRecv_hangs (env : Externals) (unqueued : s.queuedPackets = false)
    (silent : ∀ k, (s.look length flags channel k).1 ≤ 0) (closed : s.remoteClosedConnections = [])
    (listed : conn ∈ s.pendingDataConnections) (here : s.heap.lookup conn = some c)
    (status : c.status = .connecting) (unread : c.recvBuffer ≠ []) (empty : s.buffered conn = []) :
    ¬ Never Fortunate (· = .hang) (humblenetDatagramRecv env fuel length flags channel) s := by
  intro never
  have unflushed : Ends Fortunate (doWhen (s.queuedPackets = true) (flushAll env fuel)) s [] () s := by
    rw [unqueued]
    exact .done _ _
  have sifted := (never_bind.mp (never_get_bind.mp never)).2 _ _ _ unflushed
  obtain ⟨drains, rest⟩ := never_bind.mp (never_get_bind.mp sifted)
  obtain ⟨log, t, drain⟩ := drainFrom_silent (fun _ => leastKey_mem) (fun k _ => silent k) drains
  obtain ⟨only, looked⟩ := drain_none drain
  have polls := (never_bind.mp (rest _ _ _ drain)).1
  have left := (looked conn).2
  have here' : t.heap.lookup conn = some c := by
    rw [only]
    exact here
  apply pollLoop_hangs _ _ here' status unread _ polls
  · rw [only]
    exact closed
  · rw [only]
    exact listed
  · rw [left, Tables.look, empty]
    rfl

end stuck

/-! ### In every state of a run -/

theorem ClosedListed.keeps {ok : Point → Tables → Prop} {scope : Scope} {s t : Tables}
    (listed : ClosedListed s) (does : Does ok scope s t) : ClosedListed t := by
  have new : ∀ {conn : ConnPtr} {c : Connection}, conn ∉ s.heap →
      ∀ k ∈ s.remoteClosedConnections, ∃ d, (s.heap.insert conn c).lookup k = some d ∧
        d.status = .closed := by
    intro conn c fresh k closed
    obtain ⟨d, here, status⟩ := listed k closed
    have other : k ≠ conn := by
      rintro rfl
      exact fresh (StdMap.mem_iff_lookup.mpr ⟨d, here⟩)
    exact ⟨d, (AList.lookup_insert_ne other).trans here, status⟩
  have modified : ∀ {conn : ConnPtr} {f : Connection → Connection},
      (∀ c, s.heap.lookup conn = some c → c.status = .closed → (f c).status = .closed) →
      ∀ k ∈ s.remoteClosedConnections, ∃ d, (StdMap.modify conn f s.heap).lookup k = some d ∧
        d.status = .closed := by
    intro conn f same k closed
    obtain ⟨d, here, status⟩ := listed k closed
    refine ⟨_, StdMap.lookup_modify_some.mpr ⟨d, here, rfl⟩, ?_⟩
    split
    · rename_i eq
      exact same d (eq ▸ here) status
    · exact status
  cases does with
  | dial fresh => exact new fresh
  | invite fresh => exact new fresh
  | createAlias fresh => exact new fresh
  | resolve => exact modified fun _ _ status => status
  | openSocket => exact modified fun _ _ status => status
  | connected here status =>
    refine modified fun c here' closed => ?_
    cases here.symm.trans here'
    rw [status] at closed
    cases closed
  | @close conn c here =>
    intro k closed
    rcases StdSet.mem_insert.mp closed with rfl | closed
    · exact ⟨_, StdMap.lookup_modify_some.mpr ⟨c, here, if_pos rfl⟩, rfl⟩
    · exact modified (fun _ _ _ => rfl) k closed
  | @delete conn c here =>
    intro k closed
    obtain ⟨there, other⟩ := StdSet.mem_erase.mp closed
    have closed : ∃ d, (StdMap.modify conn (fun c =>
        { c with socket := none, status := .closed }) s.heap).lookup k = some d ∧
          d.status = .closed :=
      modified (fun _ _ _ => rfl) k ((StdSet.mem_insert.mp there).resolve_left other)
    obtain ⟨d, here', status⟩ := closed
    exact ⟨d, (AList.lookup_erase_ne other).trans here', status⟩
  | receive => exact modified fun _ _ status => status
  | relay => exact modified fun _ _ status => status
  | read => exact modified fun _ _ status => status
  | pollClosed conn => exact fun k closed => listed k (StdSet.mem_erase.mp closed).1
  | _ => exact listed

theorem closedListed_of_run (env : Externals) {ok : Point → Tables → Prop}
    {pool : Pool Caller State Fault Query Query.Answer Unit}
    (run : Run env ok (.running pool)) : ClosedListed pool.state.toTables := by
  have kept : Kept ok ClosedListed (.running pool) :=
    kept_of_run env (fun _ h => by cases h) (fun _ _ _ listed => listed.keeps) run
  exact kept

/-- In every state that a run comes to, a call with its allocations granted finishes when
it does not poll a connection that is still being opened. -/
theorem datagramRecv_finishes (env : Externals)
    {pool : Pool Caller State Fault Query Query.Answer Unit}
    (run : Run env (fun _ _ => True) (.running pool)) (length : Nat) (flags channel : UInt8)
    (attended : Attended length flags channel pool.state.toTables) :
    Finishes (fun fuel => humblenetDatagramRecv env fuel length flags channel) pool.state := by
  have listed := closedListed_of_run env run
  refine ⟨pool.state.datagrams.keys.toFinset.card + pool.state.remoteClosedConnections.length +
    pool.state.pendingDataConnections.length + pool.state.pendingNewConnections.length + 1, ?_⟩
  intro fuel enough
  apply never_datagramRecv env _ _ _ listed attended
  · omega
  · omega
  · omega

theorem datagramRecv_finishes_connected : ∃ pool,
    Run offerThenRelay (fun _ _ => True) (.running pool) ∧
      history offerThenRelay (fun _ _ => True) (introduction ++ [.webrtc 1 .established,
        .webrtc 1 .channelAccepted, .signal [1]]) = some (.running pool) ∧
      Finishes (fun fuel => humblenetDatagramRecv offerThenRelay fuel 100 0 0) pool.state := by
  have held : ((history offerThenRelay (fun _ _ => True) (introduction ++
      [.webrtc 1 .established, .webrtc 1 .channelAccepted, .signal [1]])).bind Config.now).map
        (fun s => (s.pendingDataConnections, s.heap.lookup 1)) =
          some ([1], some ⟨.incoming, .connected, 9, [7], true, some 1⟩) := by decide +kernel
  obtain ⟨s, now, eq⟩ := Option.map_eq_some_iff.mp held
  obtain ⟨c, h, running⟩ := Option.bind_eq_some_iff.mp now
  cases c with
  | crashed tag e s => cases running
  | running pool =>
    cases running
    obtain ⟨pending, here⟩ := Prod.mk.inj eq
    refine ⟨pool, run_history _ h, h, datagramRecv_finishes _ (run_history _ h) 100 0 0
      (Or.inl ?_)⟩
    rintro ⟨conn, listed, c, there, status, unread⟩
    rw [pending, List.mem_singleton] at listed
    subst listed
    cases here.symm.trans there
    cases status

/-- Before the connection is open, the byte keeps the next call for ever. -/
theorem datagramRecv_hangs_connecting : ∃ pool,
    Run offerThenRelay (fun _ _ => True) (.running pool) ∧
      history offerThenRelay (fun _ _ => True) (introduction ++ [.webrtc 1 .established,
        .signal [1]]) = some (.running pool) ∧
      ∀ length flags channel, ¬ Finishes
        (fun fuel => humblenetDatagramRecv offerThenRelay fuel length flags channel)
        pool.state := by
  have held : ((history offerThenRelay (fun _ _ => True) (introduction ++
      [.webrtc 1 .established, .signal [1]])).bind Config.now).map
        (fun s => (s.pendingDataConnections, s.heap.lookup 1, s.queuedPackets,
          s.remoteClosedConnections, s.datagrams.keys)) =
          some ([1], some ⟨.incoming, .connecting, 9, [7], true, some 1⟩, false, [], []) := by
    decide +kernel
  obtain ⟨s, now, eq⟩ := Option.map_eq_some_iff.mp held
  obtain ⟨c, h, running⟩ := Option.bind_eq_some_iff.mp now
  cases c with
  | crashed tag e s => cases running
  | running pool =>
    cases running
    simp only [Prod.mk.injEq] at eq
    obtain ⟨pending, here, unqueued, closed, entries⟩ := eq
    refine ⟨pool, run_history _ h, h, fun length flags channel finishes => ?_⟩
    obtain ⟨bound, finishes⟩ := finishes
    have absent : ∀ k, k ∉ pool.state.datagrams := by
      intro k there
      rw [AList.mem_keys, entries] at there
      exact absurd there List.not_mem_nil
    apply datagramRecv_hangs _ unqueued _ closed _ here rfl _ _ (finishes bound (le_refl bound))
    · intro k
      rw [(look_absent length flags channel (absent k)).2.1]
      decide
    · rw [pending]
      exact List.mem_singleton.mpr rfl
    · exact List.cons_ne_nil 7 []
    · exact (look_absent length flags channel (absent 1)).1

end HumbleNet.Client
