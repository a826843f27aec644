import HumbleNet.Client.Packets
import HumbleNet.Client.Runs
import HumbleNet.Lib.Trace

/-! What a call of `humblenet_datagram_recv` does once the queued packets are flushed. Its
loops take the steps of `SiftStep`, and what it returns is what the last of them brought. -/
namespace HumbleNet.Client

open Guarded

def Tables.buffered (t : Tables) (conn : ConnPtr) : Bytes :=
  ((t.datagrams.lookup conn).map DatagramConnection.bufIn).getD []

def Tables.unread (t : Tables) (conn : ConnPtr) : Bytes :=
  ((t.heap.lookup conn).map Connection.recvBuffer).getD []

/-- The bytes that have arrived and are not returned. -/
def Tables.stream (t : Tables) (conn : ConnPtr) : Bytes := t.buffered conn ++ t.unread conn

def Tables.move (t : Tables) (conn : ConnPtr) (data : Bytes) : Tables :=
  { (t.updateConnection conn fun c => { c with recvBuffer := [] }).updateDatagram conn
      fun dg => { dg with bufIn := dg.bufIn ++ data } with
    pendingDataConnections := StdSet.erase conn t.pendingDataConnections }

/-- Nothing is lost when the bytes of a connection find no memory: it is still open, and its
entry is empty. -/
def Spared (size : Nat) (t : Tables) : Prop :=
  ∀ conn c, t.heap.lookup conn = some c → c.recvBuffer.length = size → c.status ≠ .closed ∧
    ∀ dg, t.datagrams.lookup conn = some dg → dg.bufIn = [] ∧ dg.bufOut = []

def Granted (size : Nat) (t : Tables) : Bool → Prop
  | true => size < 2 ^ 31
  | false => Spared size t

/-- One step of the loops, with the packet that leaves a buffer; `untold` are the closed
connections that have not been reported. -/
inductive SiftStep (untold : StdSet ConnPtr) (channel : UInt8) :
    Tables → Option (ConnPtr × Packet) → Tables → Prop where
  | take {s : Tables} {conn : ConnPtr} {dg : DatagramConnection} {skipped : List Packet}
    {p : Packet} {after : Bytes} (entry : s.datagrams.lookup conn = some dg)
    (here : dg.bufIn = packetCodec.encodeAll skipped ++ (p.bytes ++ after))
    (others : ∀ q ∈ skipped, q.channel ≠ channel) (wanted : p.channel = channel) :
    SiftStep untold channel s (some (conn, p)) (s.updateDatagram conn fun dg =>
      { dg with bufIn := packetCodec.encodeAll skipped ++ after })
  | insert {s : Tables} {conn : ConnPtr} {c : Connection} (here : s.heap.lookup conn = some c) :
    SiftStep untold channel s none
      { s with
        datagrams :=
          StdMap.emplace conn (DatagramConnection.new conn c.otherPeer) s.datagrams }
  | move {s : Tables} {conn : ConnPtr} {c : Connection} {dg : DatagramConnection}
    (here : s.heap.lookup conn = some c) (entry : s.datagrams.lookup conn = some dg)
    (unread : c.recvBuffer ≠ []) (listed : conn ∈ s.pendingDataConnections) :
    SiftStep untold channel s none (s.move conn c.recvBuffer)
  | refuse {s : Tables} {conn : ConnPtr}
    (empty : ∀ dg, s.datagrams.lookup conn = some dg → dg.bufIn = [] ∧ dg.bufOut = []) :
    SiftStep untold channel s none { s with datagrams := s.datagrams.erase conn }
  | report {s : Tables} {conn : ConnPtr} {c : Connection} (here : s.heap.lookup conn = some c)
    (closed : c.status = .closed) (empty : c.recvBuffer = []) (listed : conn ∈ untold) :
    SiftStep untold channel s none { s with datagrams := s.datagrams.erase conn }
  | polled {s : Tables} (conn : ConnPtr) :
    SiftStep untold channel s none
      { s with remoteClosedConnections := StdSet.erase conn s.remoteClosedConnections }
  | accepted {s : Tables} (conn : ConnPtr) :
    SiftStep untold channel s none
      { s with pendingNewConnections := StdSet.erase conn s.pendingNewConnections }

abbrev Steps : Type := List (Tables × Option (ConnPtr × Packet))

def taken (past : Steps) : List (ConnPtr × Packet) := past.filterMap Prod.snd

@[simp] theorem taken_append (later past : Steps) :
    taken (later ++ past) = taken later ++ taken past := List.filterMap_append

structure Sifts (untold : StdSet ConnPtr) (channel : UInt8) (s : State) (past : Steps)
    (t : State) : Prop where
  only : t = { s with toTables := t.toTables, errorString := t.errorString }
  steps : Trace (· = s.toTables) (SiftStep untold channel) past t.toTables

namespace Sifts

variable {untold : StdSet ConnPtr} {channel : UInt8} {s t u : State} {past later : Steps}

theorem refl (s : State) : Sifts untold channel s [] s := ⟨rfl, .start rfl⟩

theorem trans (h : Sifts untold channel s past t) (k : Sifts untold channel t later u) :
    Sifts untold channel s (later ++ past) u where
  only := k.only.trans (by rw [h.only])
  steps := h.steps.append k.steps

theorem single {label : Option (ConnPtr × Packet)} {tables : Tables}
    (step : SiftStep untold channel s.toTables label tables) :
    Sifts untold channel s [(s.toTables, label)] { s with toTables := tables } :=
  ⟨rfl, .next (.start rfl) step⟩

theorem error (s : State) (e : Option String) :
    Sifts untold channel s [] { s with errorString := e } := ⟨rfl, .start rfl⟩

theorem keeps {I : Tables → Prop} (h : Sifts untold channel s past t)
    (step : ∀ s label t, I s → SiftStep untold channel s label t → I t) (start : I s.toTables) :
    I t.toTables := by
  refine Trace.invariant (I := fun _ u => I u) ?_ ?_ h.steps
  · rintro u rfl
    exact start
  · intro _ u label v _ held taken
    exact step u label v held taken

theorem closed_subset (h : Sifts untold channel s past t) :
    t.remoteClosedConnections ⊆ s.remoteClosedConnections := by
  refine h.keeps (I := fun u => u.remoteClosedConnections ⊆ s.remoteClosedConnections) ?_
    (List.Subset.refl _)
  intro u label v sub step
  cases step with
  | polled conn => exact fun k hk => sub (StdSet.mem_erase.mp hk).1
  | _ => exact sub

end Sifts

/-- No packet with a payload leaves a buffer, and none at all when the call only peeks. -/
structure Idle (flags : UInt8) (past : Steps) : Prop where
  empty : ∀ m ∈ taken past, m.2.payload = []
  peek : flags &&& msgPeek ≠ 0 → taken past = []

theorem idle_of_none {flags : UInt8} {past : Steps} (h : taken past = []) : Idle flags past :=
  ⟨fun _ hm => absurd (h ▸ hm) List.not_mem_nil, fun _ => h⟩

theorem Idle.append {flags : UInt8} {later past : Steps} (h : Idle flags later)
    (k : Idle flags past) : Idle flags (later ++ past) where
  empty m hm := by
    rw [taken_append] at hm
    exact (List.mem_append.mp hm).elim (h.empty m) (k.empty m)
  peek peeks := by rw [taken_append, h.peek peeks, k.peek peeks, List.append_nil]

inductive Yields (untold : StdSet ConnPtr) (length : Nat) (flags : UInt8) :
    Steps → Received → Tables → Prop where
  | read {past : Steps} {s t : Tables} {conn sender : ConnPtr} {dg : DatagramConnection}
    {p : Packet} (reads : flags &&& msgPeek = 0) (entry : t.datagrams.lookup conn = some dg)
    (same : dg.conn = sender) (full : p.payload ≠ []) (before : Idle flags past) :
    Yields untold length flags ((s, some (conn, p)) :: past)
      (p.payload.length, some sender, p.payload.take length) t
  | seen {past : Steps} {t : Tables} {conn : ConnPtr} {dg : DatagramConnection}
    {skipped : List Packet} {p : Packet} {after : Bytes} (peeks : flags &&& msgPeek ≠ 0)
    (entry : t.datagrams.lookup conn = some dg)
    (here : dg.bufIn = packetCodec.encodeAll skipped ++ (p.bytes ++ after))
    (full : p.payload ≠ []) (before : Idle flags past) :
    Yields untold length flags past (p.payload.length, some dg.conn, []) t
  | told {past : Steps} {t : Tables} {conn : ConnPtr} {c : Connection}
    (here : t.heap.lookup conn = some c) (closed : c.status = .closed)
    (empty : c.recvBuffer = []) (listed : conn ∈ untold) (gone : conn ∉ t.datagrams)
    (polled : conn ∉ t.remoteClosedConnections) (before : Idle flags past) :
    Yields untold length flags past (-1, some conn, []) t

theorem Yields.after {untold : StdSet ConnPtr} {length : Nat} {flags : UInt8}
    {later past : Steps} {r : Received}
    {t : Tables} (h : Yields untold length flags later r t) (idle : Idle flags past) :
    Yields untold length flags (later ++ past) r t := by
  cases h with
  | read reads entry same full before =>
    exact .read reads entry same full (before.append idle)
  | seen peeks entry here full before => exact .seen peeks entry here full (before.append idle)
  | told here closed empty listed gone polled before =>
    exact .told here closed empty listed gone polled (before.append idle)

/-- What a loop brings: something to hand on, or else, when no packet has left a buffer
either, what is said of the end. -/
def Brings (untold : StdSet ConnPtr) (length : Nat) (flags : UInt8) (past : Steps)
    (t : Tables) (quiet : Prop) :
    Option Received → Prop
  | some received => Yields untold length flags past received t
  | none => Idle flags past ∧ (taken past = [] → quiet)

theorem Brings.after {untold : StdSet ConnPtr} {length : Nat} {flags : UInt8}
    {later past : Steps} {t : Tables}
    {quiet quiet' : Prop} {r : Option Received} (h : Brings untold length flags later t quiet r)
    (idle : Idle flags past) (both : taken past = [] → quiet → quiet') :
    Brings untold length flags (later ++ past) t quiet' r := by
  cases r with
  | some received => exact Yields.after h idle
  | none =>
    refine ⟨h.1.append idle, fun none => ?_⟩
    rw [taken_append, List.append_eq_nil_iff] at none
    exact both none.2 (h.2 none.1)

theorem Brings.mono {untold : StdSet ConnPtr} {length : Nat} {flags : UInt8} {past : Steps}
    {t : Tables}
    {quiet quiet' : Prop} {r : Option Received} (h : Brings untold length flags past t quiet r)
    (weaker : quiet → quiet') : Brings untold length flags past t quiet' r := by
  cases r with
  | some received => exact h
  | none => exact ⟨h.1, fun none => weaker (h.2 none)⟩

def AllSilent (channel : UInt8) (t : Tables) : Prop :=
  ∀ conn dg, t.datagrams.lookup conn = some dg → Silent channel dg.bufIn

section programs

variable {allowed : (q : Query) → State → q.Answer → State → Prop} {untold : StdSet ConnPtr}
  {channel flags : UInt8} {length : Nat} {s t : State} {log : ClientLog}

theorem getMessage_ends {conn : ConnPtr} {ret : Int} {data : Bytes}
    (ends : Ends allowed (getMessage conn length flags channel) s log (ret, data) t) :
    ∃ dg past, s.datagrams.lookup conn = some dg ∧ Sifts untold channel s past t ∧
      (∀ dg', t.datagrams.lookup conn = some dg' → dg'.conn = dg.conn) ∧
      (0 < ret ∧ Yields untold length flags past (ret, some dg.conn, data) t.toTables ∨
        ret ≤ 0 ∧ Idle flags past ∧
          (taken past = [] → t = s ∧ Silent channel dg.bufIn)) := by
  obtain ⟨dg, entry, ends⟩ := ends_derefDatagram_bind.mp ends
  have got := datagramGetMessage_got dg.bufIn length flags channel
  generalize datagramGetMessage dg.bufIn length flags channel = r at got ends
  obtain ⟨ret', left, data'⟩ := r
  simp only [ends_modifyTables_bind, ends_pure, Prod.mk.injEq] at ends
  obtain ⟨-, ⟨rfl, rfl⟩, rfl⟩ := ends
  have only : ∀ dg', s.datagrams.lookup conn = some dg' → dg'.conn = dg.conn := by
    intro dg' entry'
    cases entry.symm.trans entry'
    rfl
  have unchanged : s.updateDatagram conn (fun dg' => { dg' with bufIn := dg.bufIn }) =
      s.toTables := by
    have same : StdMap.modify conn (fun dg' => { dg' with bufIn := dg.bufIn }) s.datagrams =
        s.datagrams := by
      apply StdMap.modify_same
      intro v here
      cases entry.symm.trans here
      rfl
    unfold Tables.updateDatagram
    rw [same]
  cases got with
  | nothing silent =>
    dsimp only
    rw [unchanged]
    exact ⟨dg, [], entry, .refl s, only,
      Or.inr ⟨by decide, idle_of_none rfl, fun _ => ⟨rfl, silent⟩⟩⟩
  | @seen skipped p after here others wanted peeks silent =>
    dsimp only
    rw [unchanged]
    refine ⟨dg, [], entry, .refl s, only, ?_⟩
    by_cases full : p.payload = []
    · rw [full]
      exact Or.inr ⟨le_refl 0, idle_of_none rfl, fun _ => ⟨rfl, silent full⟩⟩
    · refine Or.inl ⟨?_, .seen peeks entry here full (idle_of_none rfl)⟩
      exact Int.natCast_pos.mpr (List.length_pos_iff.mpr full)
  | @taken skipped p after here others wanted reads =>
    have step : SiftStep untold channel s.toTables (some (conn, p)) _ :=
      .take entry here others wanted
    have entry' : (s.updateDatagram conn fun dg' =>
        { dg' with bufIn := packetCodec.encodeAll skipped ++ after }).datagrams.lookup conn =
          some { dg with bufIn := packetCodec.encodeAll skipped ++ after } :=
      StdMap.lookup_modify_some.mpr ⟨dg, entry, if_pos rfl⟩
    refine ⟨dg, _, entry, .single step, ?_, ?_⟩
    · intro dg' there
      cases entry'.symm.trans there
      rfl
    by_cases full : p.payload = []
    · refine Or.inr ⟨by rw [full]; exact le_refl 0, ⟨?_, fun peeks => absurd reads peeks⟩, ?_⟩
      · intro m hm
        cases List.mem_singleton.mp hm
        exact full
      · rintro ⟨⟩
    · refine Or.inl ⟨Int.natCast_pos.mpr (List.length_pos_iff.mpr full), ?_⟩
      exact .read reads entry' rfl full (idle_of_none rfl)

theorem drainFrom_ends {fuel : Nat} {key : Option ConnPtr} {r : Option Received}
    (ends : Ends allowed (drainFrom length flags channel fuel key) s log r t) :
    ∃ past, Sifts untold channel s past t ∧ Brings untold length flags past t.toTables (t = s ∧
      ∀ conn dg, s.datagrams.lookup conn = some dg → (∃ k, key = some k ∧ k ≤ conn) →
        Silent channel dg.bufIn) r := by
  induction fuel generalizing key s log with
  | zero =>
    cases key with
    | none =>
      obtain ⟨-, rfl, rfl⟩ := ends_pure.mp ends
      refine ⟨[], .refl _, idle_of_none rfl, fun _ => ⟨rfl, ?_⟩⟩
      rintro conn dg _ ⟨_, ⟨⟩, _⟩
    | some conn => exact absurd ends ends_fault
  | succ fuel ih =>
    cases key with
    | none =>
      obtain ⟨-, rfl, rfl⟩ := ends_pure.mp ends
      refine ⟨[], .refl _, idle_of_none rfl, fun _ => ⟨rfl, ?_⟩⟩
      rintro conn dg _ ⟨_, ⟨⟩, _⟩
    | some key =>
      obtain ⟨dg, entry, ends⟩ := ends_derefDatagram_bind.mp ends
      obtain ⟨l, ⟨ret, data⟩, u, l', look, rest, -⟩ := ends_bind.mp ends
      obtain ⟨dg', past, entry', sifts, -, outcome⟩ := getMessage_ends look
      cases entry.symm.trans entry'
      dsimp only at rest
      rcases outcome with ⟨pos, yields⟩ | ⟨le, idle, quiet⟩
      · rw [if_pos pos] at rest
        obtain ⟨-, rfl, rfl⟩ := ends_pure.mp rest
        exact ⟨past, sifts, yields⟩
      · rw [if_neg (not_lt.mpr le), ends_get_bind] at rest
        obtain ⟨later, sifts', brings⟩ := ih rest
        refine ⟨later ++ past, sifts.trans sifts', brings.after idle fun none quiet' => ?_⟩
        obtain ⟨rfl, silent⟩ := quiet none
        obtain ⟨rfl, silent'⟩ := quiet'
        refine ⟨rfl, ?_⟩
        rintro conn dg' there ⟨_, ⟨⟩, ge⟩
        rcases Nat.eq_or_lt_of_le ge with rfl | gt
        · cases entry.symm.trans there
          exact silent
        · have mem : conn ∈ t.datagrams := StdMap.mem_iff_lookup.mpr ⟨dg', there⟩
          refine silent' conn dg' there ?_
          cases least : leastKey (fun k => decide (key < k)) t.datagrams with
          | none => exact absurd (leastKey_none least conn mem) (by simpa using gt)
          | some k => exact ⟨k, rfl, (leastKey_some least).2 conn mem (by simpa using gt)⟩

theorem drain_ends {fuel : Nat} {r : Option Received} (ends : Ends allowed
    (drainFrom length flags channel fuel (leastKey (fun _ => true) s.datagrams)) s log r t) :
    ∃ past, Sifts untold channel s past t ∧
      Brings untold length flags past t.toTables (t = s ∧ AllSilent channel s.toTables) r := by
  obtain ⟨past, sifts, brings⟩ := drainFrom_ends ends
  refine ⟨past, sifts, brings.mono fun quiet => ⟨quiet.1, fun conn dg there => ?_⟩⟩
  refine quiet.2 conn dg there ?_
  have mem : conn ∈ s.datagrams := StdMap.mem_iff_lookup.mpr ⟨dg, there⟩
  cases least : leastKey (fun _ => true) s.datagrams with
  | none => exact absurd (leastKey_none least conn mem) (by decide)
  | some k => exact ⟨k, rfl, (leastKey_some least).2 conn mem rfl⟩

theorem insertDatagram_ends {conn : ConnPtr} {x : Unit}
    (ends : Ends allowed (insertDatagram conn) s log x t) :
    ∃ c, s.heap.lookup conn = some c ∧ t = { s with
      datagrams := StdMap.emplace conn (DatagramConnection.new conn c.otherPeer) s.datagrams } := by
  obtain ⟨c, here, ends⟩ := ends_deref_bind.mp ends
  exact ⟨c, here, (ends_modify.mp ends).2⟩

theorem getBuffered_ends {conn : ConnPtr} {r : Option Received} (ends : Ends allowed (do
      mark (.bufferedIn conn)
      let (ret, data) ← getMessage conn length flags channel
      if 0 < ret then
        let dg ← derefDatagram conn
        pure (some (ret, some dg.conn, data))
      else pure none) s log r t) :
    ∃ past, Sifts untold channel s past t ∧ Brings untold length flags past t.toTables (t = s ∧
      ∀ dg, s.datagrams.lookup conn = some dg → Silent channel dg.bufIn) r := by
  obtain ⟨_, l, _, ends, -⟩ := ends_ask_bind.mp ends
  obtain ⟨l, ⟨ret, data⟩, u, l', look, rest, -⟩ := ends_bind.mp ends
  obtain ⟨dg, past, entry, sifts, only, outcome⟩ := getMessage_ends look
  dsimp only at rest
  rcases outcome with ⟨pos, yields⟩ | ⟨le, idle, quiet⟩
  · rw [if_pos pos] at rest
    obtain ⟨dg', entry', rest⟩ := ends_derefDatagram_bind.mp rest
    obtain ⟨-, rfl, rfl⟩ := ends_pure.mp rest
    rw [only dg' entry']
    exact ⟨past, sifts, yields⟩
  · rw [if_neg (not_lt.mpr le)] at rest
    obtain ⟨-, rfl, rfl⟩ := ends_pure.mp rest
    refine ⟨past, sifts, idle, fun none => ?_⟩
    obtain ⟨rfl, silent⟩ := quiet none
    refine ⟨rfl, fun dg' entry' => ?_⟩
    cases entry.symm.trans entry'
    exact silent

inductive ReadsAll (s : State) (conn : ConnPtr) : Bytes × Int → State → Prop where
  | nothing {c : Connection} (here : s.heap.lookup conn = some c) : ReadsAll s conn ([], 0) s
  | closed {c : Connection} (here : s.heap.lookup conn = some c) (closed : c.status = .closed)
    (empty : c.recvBuffer = []) (unlisted : conn ∉ s.pendingDataConnections) :
    ReadsAll s conn ([], -1) { s with errorString := some "Connection closed" }
  | data {c : Connection} (here : s.heap.lookup conn = some c) (unread : c.recvBuffer ≠ [])
    (listed : conn ∈ s.pendingDataConnections) :
    ReadsAll s conn (c.recvBuffer, c.recvBuffer.length)
      { s with
        toTables :=
          { s.updateConnection conn fun c => { c with recvBuffer := [] } with
            pendingDataConnections := StdSet.erase conn s.pendingDataConnections } }
  | failed {c : Connection} (here : s.heap.lookup conn = some c)
    (spared : Spared c.recvBuffer.length s.toTables) :
    ReadsAll s conn ([], -1) { s with errorString := some "Memory allocation failed" }

section granted

variable (fair : ∀ {q : Query} {s : State} {a : q.Answer} {t : State},
    allowed q s a t → q.Allowed s a t)
  (granted : ∀ {size : Nat} {s : State} {a : Bool} {t : State},
    allowed (.malloc size) s a t → Granted size s.toTables a)

include granted

theorem readAll_ends {conn : ConnPtr} {r : Bytes × Int}
    (ends : Ends allowed (humblenetConnectionReadAll conn 0) s log r t) :
    ReadsAll s conn r t := by
  obtain ⟨c, here, ends⟩ := ends_deref_bind.mp ends
  split at ends
  · obtain ⟨-, rfl, rfl⟩ := ends_pure.mp ends
    exact .nothing here
  split at ends
  · rename_i empty
    obtain ⟨unlisted, ends⟩ := ends_assert_bind.mp (ends_get_bind.mp ends)
    split at ends
    · rename_i closed
      rw [humblenetSetError, ends_modify_bind, ends_pure] at ends
      obtain ⟨-, rfl, rfl⟩ := ends
      exact .closed here closed (List.isEmpty_iff.mp empty) unlisted
    · obtain ⟨-, rfl, rfl⟩ := ends_pure.mp ends
      exact .nothing here
  · rename_i nonempty
    have unread : c.recvBuffer ≠ [] := fun empty => nonempty (List.isEmpty_iff.mpr empty)
    obtain ⟨enough, l, answer, ends, -⟩ := ends_ask_bind.mp ends
    have given := granted answer
    cases enough with
    | true =>
      rw [if_pos rfl] at ends
      obtain ⟨listed, ends⟩ := ends_assert_bind.mp
        (ends_get_bind.mp (ends_modifyTables_bind.mp ends))
      rw [ends_modify_bind, ends_pure] at ends
      obtain ⟨-, rfl, rfl⟩ := ends
      rw [asInt_of_small given]
      exact .data here unread listed
    | false =>
      rw [if_neg Bool.false_ne_true] at ends
      rw [humblenetSetError, ends_modify_bind, ends_pure] at ends
      obtain ⟨-, rfl, rfl⟩ := ends
      exact .failed here given

theorem receiveFrom_ends {conn : ConnPtr} {r : Option Received}
    (polled : conn ∈ untold ∧ conn ∉ s.remoteClosedConnections ∨
      conn ∈ s.pendingDataConnections)
    (ends : Ends allowed (receiveFrom length flags channel conn) s log r t) :
    ∃ past, Sifts untold channel s past t ∧ Brings untold length flags past t.toTables
      (AllSilent channel s.toTables → AllSilent channel t.toTables) r := by
  obtain ⟨l, _, u, l', insert, ends, -⟩ := ends_bind.mp ends
  obtain ⟨c, here, rfl⟩ := insertDatagram_ends insert
  have inserted : Sifts untold channel s _ _ := .single (.insert here)
  have silent' : ∀ {k dg}, AllSilent channel s.toTables →
      (StdMap.emplace conn (DatagramConnection.new conn c.otherPeer) s.datagrams).lookup k =
        some dg → Silent channel dg.bufIn := by
    intro k dg silent entry
    rcases lookup_insertDatagram entry with ⟨_, rfl⟩ | entry
    · exact silent_nil channel
    · exact silent k dg entry
  have entry : ∃ dg, (StdMap.emplace conn (DatagramConnection.new conn c.otherPeer)
      s.datagrams).lookup conn = some dg := by
    rw [StdMap.lookup_emplace, if_pos rfl]
    exact ⟨_, rfl⟩
  obtain ⟨l, ⟨buf, retval⟩, v, l', read, rest, -⟩ := ends_bind.mp ends
  have reads := readAll_ends granted read
  dsimp only at rest
  cases reads with
  | nothing =>
    rw [if_neg (by decide), ends_modifyTables_bind] at rest
    have same : StdMap.modify conn (fun dg : DatagramConnection =>
        { dg with bufIn := dg.bufIn ++ List.take (Int.toNat 0) [] })
        (StdMap.emplace conn (DatagramConnection.new conn c.otherPeer) s.datagrams) = _ :=
      StdMap.modify_same fun v _ => by rw [List.take_nil, List.append_nil]
    unfold Tables.updateDatagram at rest
    rw [same] at rest
    obtain ⟨past, sifts, brings⟩ := getBuffered_ends rest
    refine ⟨_, inserted.trans sifts, brings.after (idle_of_none rfl) ?_⟩
    rintro - ⟨rfl, _⟩ silent k dg entry
    exact silent' silent entry
  | closed here closed empty unlisted =>
    obtain ⟨listed, forgotten⟩ := polled.resolve_right unlisted
    rw [if_pos (by decide), ends_modify_bind, humblenetClearError, ends_modify_bind] at rest
    obtain ⟨c', here', rest⟩ := ends_deref_bind.mp rest
    cases here.symm.trans here'
    rw [if_pos closed] at rest
    obtain ⟨-, rfl, rfl⟩ := ends_pure.mp rest
    have reported := inserted.trans (.single (.report here closed empty listed))
    refine ⟨_, reported.trans (.error _ none),
      .told here closed empty listed ?_ forgotten (idle_of_none rfl)⟩
    exact fun there => (AList.mem_erase.mp there).1 rfl
  | @data c' here unread listed =>
    have pos : ¬ ((c'.recvBuffer.length : Int) < 0) := not_lt.mpr (Int.natCast_nonneg _)
    rw [if_neg pos, ends_modifyTables_bind, Int.toNat_natCast, List.take_length] at rest
    obtain ⟨dg, there⟩ := entry
    obtain ⟨past, sifts, brings⟩ := getBuffered_ends rest
    have moved := inserted.trans (.single (.move here there unread listed))
    refine ⟨_, moved.trans sifts, brings.after (idle_of_none rfl) ?_⟩
    rintro - ⟨rfl, quiet⟩ silent k dg' entry'
    by_cases eq : k = conn
    · subst eq
      exact quiet dg' entry'
    · obtain ⟨old, there', rfl⟩ := StdMap.lookup_modify_some.mp entry'
      rw [if_neg eq]
      exact silent' silent there'
  | @failed c' here spared =>
    rw [if_pos (by decide), ends_modify_bind, humblenetClearError, ends_modify_bind] at rest
    obtain ⟨c'', here', rest⟩ := ends_deref_bind.mp rest
    cases here.symm.trans here'
    obtain ⟨alive, empty⟩ := spared conn c' here rfl
    rw [if_neg alive] at rest
    obtain ⟨-, rfl, rfl⟩ := ends_pure.mp rest
    have refused := inserted.trans (.single (.refuse empty))
    refine ⟨_, refused.trans (.error _ none), idle_of_none rfl, fun _ silent k dg entry => ?_⟩
    exact silent' silent (StdMap.lookup_erase_some entry).2

end granted

theorem acceptLoop_ends {fuel : Nat} {x : Unit} (ends : Ends allowed (acceptLoop fuel) s log x t) :
    ∃ past, Sifts untold channel s past t ∧ taken past = [] ∧
      (AllSilent channel s.toTables → AllSilent channel t.toTables) ∧
      t.remoteClosedConnections = s.remoteClosedConnections ∧
      t.pendingDataConnections = s.pendingDataConnections := by
  induction fuel generalizing s log with
  | zero => exact absurd ends ends_fault
  | succ fuel ih =>
    obtain ⟨l, found, u, l', accept, next, -⟩ := ends_bind.mp ends
    obtain ⟨walked, l, answer, accept, -⟩ := ends_ask_bind.mp (ends_get_bind.mp accept)
    cases walked with
    | nil =>
      obtain ⟨-, rfl, rfl⟩ := ends_pure.mp accept
      obtain ⟨-, rfl, rfl⟩ := ends_pure.mp next
      exact ⟨[], .refl _, rfl, id, rfl, rfl⟩
    | cons conn rest =>
      dsimp only at accept
      rw [ends_modify_bind, ends_pure] at accept
      obtain ⟨-, rfl, rfl⟩ := accept
      obtain ⟨c, here, next⟩ := ends_deref_bind.mp next
      have accepted : Sifts untold channel s _ _ := .single (.accepted conn)
      obtain ⟨l, _, u, l', insert, next, -⟩ := ends_bind.mp next
      unfold doWhen at insert
      split at insert
      · obtain ⟨c', here', rfl⟩ := insertDatagram_ends insert
        obtain ⟨past, sifts, none, silent, closed, pending⟩ := ih next
        have inserted := accepted.trans (.single (.insert here'))
        refine ⟨_, inserted.trans sifts, ?_, fun quiet => silent ?_, closed, pending⟩
        · rw [taken_append, none]
          rfl
        · intro k dg entry
          rcases lookup_insertDatagram entry with ⟨_, rfl⟩ | entry
          · exact silent_nil channel
          · exact quiet k dg entry
      · obtain ⟨-, rfl, rfl⟩ := ends_pure.mp insert
        obtain ⟨past, sifts, none, silent, closed, pending⟩ := ih next
        refine ⟨_, accepted.trans sifts, ?_, silent, closed, pending⟩
        rw [taken_append, none]
        rfl

section fair

variable (fair : ∀ {q : Query} {s : State} {a : q.Answer} {t : State},
    allowed q s a t → q.Allowed s a t)

include fair

theorem firstPendingData_ends {r : Option ConnPtr}
    (ends : Ends allowed firstPendingData s log r t) : t = s ∧
      match r with
      | none => s.pendingDataConnections = []
      | some conn => conn ∈ s.pendingDataConnections ∧
        ∃ c, s.heap.lookup conn = some c ∧ c.recvBuffer ≠ [] := by
  obtain ⟨walked, l, answer, ends, -⟩ := ends_ask_bind.mp (ends_get_bind.mp ends)
  have perm : List.Perm walked s.pendingDataConnections := fair answer
  cases walked with
  | nil =>
    obtain ⟨-, rfl, rfl⟩ := ends_pure.mp ends
    exact ⟨rfl, perm.symm.eq_nil⟩
  | cons conn rest =>
    obtain ⟨c, here, ends⟩ := ends_deref_bind.mp ends
    obtain ⟨unread, ends⟩ := ends_assert_bind.mp ends
    obtain ⟨-, rfl, rfl⟩ := ends_pure.mp ends
    exact ⟨rfl, perm.subset List.mem_cons_self, c, here, unread⟩

theorem pollAll_ends {r : Option ConnPtr} (ends : Ends allowed humblenetPollAll s log r t) :
    match r with
    | none => t = s ∧ s.remoteClosedConnections = [] ∧ s.pendingDataConnections = []
    | some conn =>
      conn ∈ s.remoteClosedConnections ∧ t =
        { s with remoteClosedConnections := StdSet.erase conn s.remoteClosedConnections } ∨
      conn ∈ s.pendingDataConnections ∧ s.remoteClosedConnections = [] ∧ t = s ∧
        ∃ c, s.heap.lookup conn = some c ∧ c.recvBuffer ≠ [] := by
  obtain ⟨walked, l, answer, ends, -⟩ := ends_ask_bind.mp (ends_get_bind.mp ends)
  have perm : List.Perm walked s.remoteClosedConnections := fair answer
  cases walked with
  | cons conn rest =>
    dsimp only at ends
    rw [ends_modify_bind, ends_pure] at ends
    obtain ⟨-, rfl, rfl⟩ := ends
    exact Or.inl ⟨perm.subset List.mem_cons_self, rfl⟩
  | nil =>
    have open' : s.remoteClosedConnections = [] := perm.symm.eq_nil
    obtain ⟨l, found, u, l', first, ends, -⟩ := ends_bind.mp ends
    obtain ⟨rfl, pending⟩ := firstPendingData_ends fair first
    cases found with
    | some conn =>
      obtain ⟨-, rfl, rfl⟩ := ends_pure.mp ends
      exact Or.inr ⟨pending.1, open', rfl, pending.2⟩
    | none =>
      obtain ⟨rfl, -⟩ := firstPendingData_ends fair ends
      cases r with
      | none => exact ⟨rfl, open', pending⟩
      | some conn =>
        have again := (firstPendingData_ends fair ends).2
        dsimp only at again pending
        rw [pending] at again
        cases again.1

variable (granted : ∀ {size : Nat} {s : State} {a : Bool} {t : State},
    allowed (.malloc size) s a t → Granted size s.toTables a)

include granted

theorem pollLoop_ends {fuel : Nat} {r : Option Received}
    (known : ∀ conn ∈ s.remoteClosedConnections, conn ∈ untold)
    (ends : Ends allowed (pollLoop length flags channel fuel) s log r t) :
    ∃ past, Sifts untold channel s past t ∧ Brings untold length flags past t.toTables
      ((AllSilent channel s.toTables → AllSilent channel t.toTables) ∧
        t.remoteClosedConnections = [] ∧ t.pendingDataConnections = []) r := by
  induction fuel generalizing s log with
  | zero => exact absurd ends ends_fault
  | succ fuel ih =>
    obtain ⟨l, found, u, l', poll, next, -⟩ := ends_bind.mp ends
    have polled := pollAll_ends fair poll
    cases found with
    | none =>
      obtain ⟨rfl, closed, pending⟩ := polled
      obtain ⟨-, rfl, rfl⟩ := ends_pure.mp next
      exact ⟨[], .refl _, idle_of_none rfl, fun _ => ⟨id, closed, pending⟩⟩
    | some conn =>
      obtain ⟨l, received, v, l', round, next, -⟩ := ends_bind.mp next
      obtain ⟨before, reached, none, silent, found, known'⟩ : ∃ before,
          Sifts untold channel s before u ∧ taken before = [] ∧
          (AllSilent channel s.toTables → AllSilent channel u.toTables) ∧
          (conn ∈ untold ∧ conn ∉ u.remoteClosedConnections ∨
            conn ∈ u.pendingDataConnections) ∧
          ∀ k ∈ u.remoteClosedConnections, k ∈ untold := by
        rcases polled with ⟨closed, rfl⟩ | ⟨pending, _, rfl, _⟩
        · exact ⟨_, .single (.polled conn), rfl, id,
            Or.inl ⟨known conn closed, fun still => (StdSet.mem_erase.mp still).2 rfl⟩,
            fun k hk => known k (StdSet.mem_erase.mp hk).1⟩
        · exact ⟨[], .refl _, rfl, id, Or.inr pending, known⟩
      obtain ⟨past, sifts, brings⟩ := receiveFrom_ends granted found round
      have reached' := reached.trans sifts
      have brings' := brings.after (idle_of_none none) fun _ quiet all => quiet (silent all)
      cases received with
      | some received =>
        obtain ⟨-, rfl, rfl⟩ := ends_pure.mp next
        exact ⟨_, reached', brings'⟩
      | none =>
        have still : ∀ k ∈ v.remoteClosedConnections, k ∈ untold :=
          fun k hk => known' k (sifts.closed_subset hk)
        obtain ⟨later, sifts', last⟩ := ih still next
        refine ⟨_, reached'.trans sifts', last.after brings'.1 fun quiet rest => ?_⟩
        exact ⟨fun all => rest.1 (brings'.2 quiet all), rest.2⟩

end fair

end programs

def sift (fuel length : Nat) (flags channel : UInt8) : ClientM Received := do
  let s ← get
  match ← drainFrom length flags channel fuel (leastKey (fun _ => true) s.datagrams) with
  | some received => pure received
  | none =>
    match ← pollLoop length flags channel fuel with
    | some received => pure received
    | none =>
      acceptLoop fuel
      pure (0, none, [])

theorem humblenetDatagramRecv_eq (env : Externals) (fuel length : Nat) (flags channel : UInt8) :
    humblenetDatagramRecv env fuel length flags channel = (do
      let s ← get
      doWhen (s.queuedPackets = true) (flushAll env fuel)
      sift fuel length flags channel) := rfl

structure Exhausted (channel : UInt8) (t : Tables) : Prop where
  silent : AllSilent channel t
  closed : t.remoteClosedConnections = []
  pending : t.pendingDataConnections = []

theorem sift_ends {allowed : (q : Query) → State → q.Answer → State → Prop}
    (fair : ∀ {q : Query} {s : State} {a : q.Answer} {t : State},
      allowed q s a t → q.Allowed s a t)
    (granted : ∀ {size : Nat} {s : State} {a : Bool} {t : State},
      allowed (.malloc size) s a t → Granted size s.toTables a)
    {channel flags : UInt8} {fuel length : Nat} {s t : State} {log : ClientLog} {r : Received}
    (ends : Ends allowed (sift fuel length flags channel) s log r t) :
    ∃ past, Sifts s.remoteClosedConnections channel s past t ∧
      (Yields s.remoteClosedConnections length flags past r t.toTables ∨
      r = (0, none, []) ∧ Idle flags past ∧
        (taken past = [] → Exhausted channel t.toTables)) := by
  obtain ⟨l, drained, u, l', drain, ends, -⟩ := ends_bind.mp (ends_get_bind.mp ends)
  obtain ⟨past, sifts, brings⟩ := drain_ends drain
  cases drained with
  | some received =>
    obtain ⟨-, rfl, rfl⟩ := ends_pure.mp ends
    exact ⟨past, sifts, Or.inl brings⟩
  | none =>
    obtain ⟨l, polled, v, l', poll, ends, -⟩ := ends_bind.mp ends
    have known : ∀ k ∈ u.remoteClosedConnections, k ∈ s.remoteClosedConnections :=
      fun _ hk => sifts.closed_subset hk
    obtain ⟨past', sifts', brings'⟩ := pollLoop_ends fair granted known poll
    have sifted := sifts.trans sifts'
    have last := brings'.after brings.1 fun quiet found =>
      (⟨found.1 ((brings.2 quiet).1 ▸ (brings.2 quiet).2), found.2⟩ :
        AllSilent channel v.toTables ∧ v.remoteClosedConnections = [] ∧
          v.pendingDataConnections = [])
    cases polled with
    | some received =>
      obtain ⟨-, rfl, rfl⟩ := ends_pure.mp ends
      exact ⟨_, sifted, Or.inl last⟩
    | none =>
      obtain ⟨l, _, w, l', accept, ends, -⟩ := ends_bind.mp ends
      obtain ⟨-, rfl, rfl⟩ := ends_pure.mp ends
      obtain ⟨past'', sifts'', none, silent, closed, pending⟩ := acceptLoop_ends accept
      refine ⟨_, sifted.trans sifts'', Or.inr ⟨rfl, ?_, fun quiet => ?_⟩⟩
      · exact (idle_of_none none).append last.1
      · rw [taken_append, none, List.nil_append] at quiet
        obtain ⟨all, closed', pending'⟩ := last.2 quiet
        exact ⟨silent all, closed.trans closed', pending.trans pending'⟩

end HumbleNet.Client
