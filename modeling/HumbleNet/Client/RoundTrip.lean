import HumbleNet.Client.Encoding
import HumbleNet.Client.Transmission
import Mathlib.Logic.Equiv.Bool
import Mathlib.Logic.Equiv.Prod

/-! Messages between the connections of several clients. What has been sent over a connection
and is not returned is, byte for byte, what the receiver holds, what is on its way and what
waits in the buffer of the sender. -/
namespace HumbleNet.Client

open Guarded Relay

/-! ### A receiving call and one stream -/

def takenFrom (conn : ConnPtr) (past : Steps) : List Packet :=
  (taken past).reverse.filterMap fun m => if m.1 = conn then some m.2 else none

def leaving (conn : ConnPtr) : Option (ConnPtr × Packet) → List Packet
  | some (k, p) => if k = conn then [p] else []
  | none => []

@[simp] theorem takenFrom_cons (conn : ConnPtr) (s : Tables) (label : Option (ConnPtr × Packet))
    (past : Steps) :
    takenFrom conn ((s, label) :: past) = takenFrom conn past ++ leaving conn label := by
  cases label with
  | none => simp [takenFrom, taken, leaving]
  | some m =>
    obtain ⟨k, p⟩ := m
    by_cases same : k = conn <;> simp [takenFrom, taken, leaving, same]

theorem takenFrom_of_idle {conn : ConnPtr} {flags : UInt8} {past : Steps} (idle : Idle flags past)
    (full : ∀ p ∈ takenFrom conn past, p.payload ≠ []) : takenFrom conn past = [] := by
  apply List.eq_nil_iff_forall_not_mem.mpr
  intro p there
  obtain ⟨m, mem, own⟩ := List.mem_filterMap.mp there
  split at own
  · cases own
    exact full m.2 there (idle.empty m (List.mem_reverse.mp mem))
  · cases own

/-- All connections are open, their unread data is listed, and the entries are theirs. -/
structure Connected (t : Tables) : Prop where
  status : ∀ conn c, t.heap.lookup conn = some c → c.status = .connected
  listed : ∀ conn c, t.heap.lookup conn = some c → c.recvBuffer ≠ [] →
    conn ∈ t.pendingDataConnections
  keyed : ∀ conn dg, t.datagrams.lookup conn = some dg → dg.conn = conn

section steps

variable {untold : StdSet ConnPtr} {channel : UInt8} {s t : Tables}
  {label : Option (ConnPtr × Packet)}

theorem Connected.step (h : Connected s) (step : SiftStep untold channel s label t) :
    Connected t := by
  cases step with
  | take entry =>
    refine ⟨h.status, h.listed, fun k dg there => ?_⟩
    obtain ⟨old, before, rfl⟩ := StdMap.lookup_modify_some.mp there
    split <;> exact h.keyed k old before
  | insert here =>
    refine ⟨h.status, h.listed, fun k dg there => ?_⟩
    rcases lookup_insertDatagram there with ⟨rfl, rfl⟩ | there
    · rfl
    · exact h.keyed k dg there
  | @move conn c dg here entry unread listed =>
    refine ⟨fun k d there => ?_, fun k d there unread => ?_, fun k dg there => ?_⟩
    · obtain ⟨old, before, rfl⟩ := StdMap.lookup_modify_some.mp there
      split <;> exact h.status k old before
    · obtain ⟨old, before, rfl⟩ := StdMap.lookup_modify_some.mp there
      split at unread
      · exact absurd rfl unread
      · rename_i other
        exact StdSet.mem_erase.mpr ⟨h.listed k old before unread, other⟩
    · obtain ⟨old, before, rfl⟩ := StdMap.lookup_modify_some.mp there
      split <;> exact h.keyed k old before
  | refuse => exact ⟨h.status, h.listed, fun k dg there =>
      h.keyed k dg (StdMap.lookup_erase_some there).2⟩
  | report => exact ⟨h.status, h.listed, fun k dg there =>
      h.keyed k dg (StdMap.lookup_erase_some there).2⟩
  | polled => exact ⟨h.status, h.listed, h.keyed⟩
  | accepted => exact ⟨h.status, h.listed, h.keyed⟩

theorem waiting_step (h : Connected s) (step : SiftStep untold channel s label t) (k : ConnPtr) :
    t.waiting k = s.waiting k := by
  have modified : ∀ {conn : ConnPtr} {f : DatagramConnection → DatagramConnection},
      (∀ dg, (f dg).bufOut = dg.bufOut) → (s.updateDatagram conn f).waiting k = s.waiting k := by
    intro conn f same
    simp only [Tables.waiting, Tables.updateDatagram, StdMap.lookup_modify]
    split
    · rename_i eq
      rw [eq, Option.map_map]
      congr 2
      exact funext same
    · rfl
  cases step with
  | take => exact modified fun _ => rfl
  | insert => exact waiting_insertDatagram _ _ _
  | move => exact modified fun _ => rfl
  | @refuse conn empty =>
    by_cases same : k = conn
    · subst same
      have nothing : s.waiting k = [] := by
        cases entry : s.datagrams.lookup k with
        | none => simp [Tables.waiting, entry]
        | some dg => rw [waiting_of_entry entry, (empty dg entry).2]
      rw [nothing]
      simp [Tables.waiting]
    · simp only [Tables.waiting, AList.lookup_erase_ne same]
  | @report conn c here closed =>
    rw [h.status conn c here] at closed
    cases closed
  | polled => rfl
  | accepted => rfl

theorem leaving_channel (step : SiftStep untold channel s label t) {k : ConnPtr} {p : Packet}
    (leaves : p ∈ leaving k label) : p.channel = channel := by
  cases step with
  | @take conn dg skipped q after entry here others wanted =>
    simp only [leaving] at leaves
    split at leaves
    · exact List.mem_singleton.mp leaves ▸ wanted
    · exact absurd leaves List.not_mem_nil
  | _ => exact absurd leaves List.not_mem_nil

theorem remaining_step (h : Connected s) (step : SiftStep untold channel s label t)
    {k : ConnPtr} {tail : Bytes} {ps : List Packet}
    (whole : s.stream k ++ tail = packetCodec.encodeAll ps) :
    ∃ qs, t.stream k ++ tail = packetCodec.encodeAll qs ∧
      (∀ c, ofChannel c ps = ofChannel c (leaving k label) ++ ofChannel c qs) ∧
      ∀ p, p ∈ leaving k label ∨ p ∈ qs → p ∈ ps := by
  cases through_step step k with
  | @out skipped p more before others wanted after =>
    have parts : ps = skipped ++ p :: packets (more ++ tail) := by
      have decoded := packetCodec.records_encodeAll ps
      rw [← whole, before, List.append_assoc, Codec.records_encodeAll_append, List.append_assoc]
        at decoded
      rw [← decoded]
      exact congrArg (skipped ++ ·) (packets_bytes p (more ++ tail))
    have rest : more ++ tail = packetCodec.encodeAll (packets (more ++ tail)) := by
      rw [before, parts, Codec.encodeAll_append, Codec.encodeAll_cons] at whole
      simp only [List.append_assoc, List.append_cancel_left_eq] at whole
      exact List.append_cancel_left whole
    have gone : leaving k (some (k, p)) = [p] := if_pos rfl
    refine ⟨skipped ++ packets (more ++ tail), ?_, fun c => ?_, fun q there => ?_⟩
    · rw [after, List.append_assoc, Codec.encodeAll_append, ← rest]
    · rw [gone, parts, ofChannel_append, ofChannel_append, ofChannel_cons, ofChannel_cons]
      by_cases own : p.channel = c
      · have none := ofChannel_eq_nil.mpr (own ▸ wanted ▸ others)
        rw [if_pos own, if_pos own, none]
        rfl
      · rw [if_neg own, if_neg own]
        rfl
    · rw [gone] at there
      rw [parts]
      simp only [List.mem_append, List.mem_cons] at there ⊢
      tauto
  | same other same =>
    have none : leaving k label = [] := by
      cases label with
      | none => rfl
      | some m => exact if_neg fun own => other m.2 (by rw [← own])
    rw [none]
    exact ⟨ps, by rw [same, whole], fun c => rfl, fun q there => there.resolve_left
      List.not_mem_nil⟩
  | gone here closed listed =>
    rw [h.status k _ here] at closed
    cases closed

end steps

structure TakesOut (channel : UInt8) (s t : Tables) (out : ConnPtr → List Packet) : Prop where
  connected : Connected t
  waiting : ∀ k, t.waiting k = s.waiting k
  own : ∀ k, ∀ p ∈ out k, p.channel = channel
  remaining : ∀ k tail ps, s.stream k ++ tail = packetCodec.encodeAll ps →
    ∃ qs, t.stream k ++ tail = packetCodec.encodeAll qs ∧
      (∀ c, ofChannel c ps = ofChannel c (out k) ++ ofChannel c qs) ∧
      ∀ p, p ∈ out k ∨ p ∈ qs → p ∈ ps

theorem sifts_from {untold : StdSet ConnPtr} {channel : UInt8} {s t : State} {past : Steps}
    (sifts : Sifts untold channel s past t) (h : Connected s.toTables) :
    TakesOut channel s.toTables t.toTables fun k => takenFrom k past := by
  refine Trace.invariant (I := fun past u => TakesOut channel s.toTables u fun k =>
    takenFrom k past) ?_ ?_ sifts.steps
  · rintro u rfl
    refine ⟨h, fun _ => rfl, fun _ p there => absurd there List.not_mem_nil, ?_⟩
    exact fun k tail ps whole => ⟨ps, whole, fun _ => rfl, fun p there =>
      there.resolve_left List.not_mem_nil⟩
  · intro past u label v _ held step
    refine ⟨held.connected.step step, fun k => ?_, fun k p there => ?_, ?_⟩
    · exact (waiting_step held.connected step k).trans (held.waiting k)
    · rw [takenFrom_cons] at there
      rcases List.mem_append.mp there with there | there
      · exact held.own k p there
      · exact leaving_channel step there
    · intro k tail ps whole
      obtain ⟨qs, whole', order, sub⟩ := held.remaining k tail ps whole
      obtain ⟨rs, whole'', order', sub'⟩ := remaining_step held.connected step whole'
      refine ⟨rs, whole'', fun c => ?_, fun p there => ?_⟩
      · rw [order c, order' c, takenFrom_cons, ofChannel_append, List.append_assoc]
      · rw [takenFrom_cons, List.mem_append, or_assoc] at there
        rcases there with there | there
        · exact sub p (Or.inl there)
        · exact sub p (Or.inr (sub' p there))

inductive Sifted (channel : UInt8) (length : Nat) (s t : Tables) : Received → Prop where
  | read {conn : ConnPtr} {p : Packet}
    (takes : TakesOut channel s t fun k => if k = conn then [p] else []) (full : p.payload ≠ []) :
    Sifted channel length s t (p.payload.length, some conn, p.payload.take length)
  | nothing (takes : TakesOut channel s t fun _ => []) (exhausted : Exhausted channel t) :
    Sifted channel length s t (0, none, [])

theorem sift_sifted {allowed : (q : Query) → State → q.Answer → State → Prop}
    (fair : ∀ {q : Query} {s : State} {a : q.Answer} {t : State},
      allowed q s a t → q.Allowed s a t)
    (granted : ∀ {size : Nat} {s : State} {a : Bool} {t : State},
      allowed (.malloc size) s a t → Granted size s.toTables a)
    {channel flags : UInt8} {fuel length : Nat} {s t : State} {log : ClientLog} {r : Received}
    (reads : flags &&& msgPeek = 0) (connected : Connected s.toTables)
    (streams : ∀ k, ∃ tail ps, s.stream k ++ tail = packetCodec.encodeAll ps ∧
      ∀ p ∈ ps, p.payload ≠ [])
    (ends : Ends allowed (sift fuel length flags channel) s log r t) :
    Sifted channel length s.toTables t.toTables r := by
  obtain ⟨past, sifts, outcome⟩ := sift_ends fair granted ends
  have takes := sifts_from sifts connected
  have full : ∀ k, ∀ p ∈ takenFrom k past, p.payload ≠ [] := by
    intro k p there
    obtain ⟨tail, ps, whole, full⟩ := streams k
    obtain ⟨qs, -, -, sub⟩ := takes.remaining k tail ps whole
    exact full p (sub p (Or.inl there))
  rcases outcome with yields | ⟨rfl, idle, exhausted⟩
  · cases yields with
    | @read past u _ conn sender dg p reads entry same full' before =>
      have none : ∀ k, takenFrom k past = [] := fun k => takenFrom_of_idle before fun p there =>
        full k p (by rw [takenFrom_cons]; exact List.mem_append_left _ there)
      have own : dg.conn = conn := takes.connected.keyed conn dg entry
      subst same
      rw [own]
      refine .read ?_ full'
      have all : (fun k => takenFrom k ((u, some (conn, p)) :: past)) =
          fun k => if k = conn then [p] else [] := by
        funext k
        rw [takenFrom_cons, none, List.nil_append, leaving]
        simp only [eq_comm]
      rw [all] at takes
      exact takes
    | seen peeks => exact absurd reads peeks
    | told here closed =>
      rw [takes.connected.status _ _ here] at closed
      cases closed
  · have none : ∀ k, takenFrom k past = [] := fun k => takenFrom_of_idle idle (full k)
    have quiet : taken past = [] := by
      apply List.eq_nil_iff_forall_not_mem.mpr
      intro m there
      have mem : m.2 ∈ takenFrom m.1 past :=
        List.mem_filterMap.mpr ⟨m, List.mem_reverse.mpr there, if_pos rfl⟩
      rw [none] at mem
      exact absurd mem List.not_mem_nil
    refine .nothing ?_ (exhausted quiet)
    simp only [none] at takes
    exact takes

/-! ### Clients and what is between them -/

def overChannel (channel : UInt8) (messages : List (UInt8 × Bytes)) : List Bytes :=
  (messages.filter fun m => decide (m.1 = channel)).map Prod.snd

theorem overChannel_append (channel : UInt8) (l m : List (UInt8 × Bytes)) :
    overChannel channel (l ++ m) = overChannel channel l ++ overChannel channel m := by
  simp [overChannel]

def Packet.message (p : Packet) : UInt8 × Bytes := (p.channel, p.payload)

theorem overChannel_messages (channel : UInt8) (ps : List Packet) :
    overChannel channel (ps.map Packet.message) =
      (ofChannel channel ps).map Packet.payload := by
  unfold overChannel ofChannel
  rw [List.filter_map, List.map_map]
  rfl

def only {α : Type} (conn : ConnPtr) (xs : List α) (k : ConnPtr) : List α :=
  if k = conn then xs else []

def handedTo (env : Externals) (conn : ConnPtr) : Option ConnPtr → ClientLog → Bytes
  | _, [] => []
  | _, ⟨.mark (.visit k), _⟩ :: log => handedTo env conn (some k) log
  | visited, entry :: log =>
    (if visited = some conn then handedOf env entry else []) ++ handedTo env conn visited log

/-- What a client is called for: the application sends, flushes and receives, and bytes
arrive at a connection. -/
inductive Call where
  | send (message : Bytes) (flags : UInt8) (conn : ConnPtr) (channel : UInt8)
  | flush
  | recv (channel : UInt8)
  | arrive (conn : ConnPtr) (data : Bytes)

/-- What a call comes to: its result, the bytes that arrive and those that the transport
accepts, the messages sent and those returned, connection by connection. -/
structure Deed where
  result : Int
  arrives : ConnPtr → Bytes
  accepted : ConnPtr → Bytes
  sent : ConnPtr → List (UInt8 × Bytes)
  returned : ConnPtr → List (UInt8 × Bytes)

def Received.messages (channel : UInt8) : Received → ConnPtr → List (UInt8 × Bytes)
  | (ret, some conn, data) => if 0 < ret then only conn [(channel, data)] else fun _ => []
  | (_, none, _) => fun _ => []

/-- The transport accepts what leaves the buffer, once the new packet is in it. -/
def AcceptsSent (env : Externals) (message : Bytes) (flags : UInt8) (conn : ConnPtr)
    (channel : UInt8) (s : State) (log : ClientLog) (t : State) : Prop :=
  ∃ l₁ v l₂ u l₃, log = l₁ ++ (l₂ ++ l₃) ∧ Runs (insertDatagram conn) s l₁ () v ∧
    Runs (enqueue conn message channel) v l₂ () u ∧
    Runs (flushOrQueue env flags conn) u l₃ () t ∧
    handed env log ++ t.waiting conn = u.waiting conn

def AllAccepted (env : Externals) (s : State) (log : ClientLog) (t : State) : Prop :=
  ∀ k, handedTo env k none log ++ t.waiting k = s.waiting k

inductive Performs (env : Externals)
    (allowed : (q : Query) → State → q.Answer → State → Prop) (s : State) :
    Call → Deed → State → Prop where
  | send {message : Bytes} {flags channel : UInt8} {conn : ConnPtr} {log : ClientLog} {ret : Int}
    {t : State} (long : 1 ≤ message.length) (short : message.length ≤ 65527)
    (ends : Runs (humblenetDatagramSend env message flags conn channel) s log ret t)
    (accepts : AcceptsSent env message flags conn channel s log t) :
    Performs env allowed s (.send message flags conn channel)
      { result := ret
        arrives := fun _ => []
        accepted := only conn (handed env log)
        sent := only conn [(channel, message)]
        returned := fun _ => [] } t
  | flush {fuel : Nat} {log : ClientLog} {flushed : Bool} {t : State}
    (ends : Runs (humblenetDatagramFlush env fuel) s log flushed t)
    (accepts : AllAccepted env s log t) :
    Performs env allowed s .flush
      { result := if flushed then 1 else 0
        arrives := fun _ => []
        accepted := fun k => handedTo env k none log
        sent := fun _ => []
        returned := fun _ => [] } t
  | recv {fuel length : Nat} {flags channel : UInt8} {log : ClientLog} {r : Received} {t : State}
    (reads : flags &&& msgPeek = 0) (room : r.1 ≤ (length : Int))
    (ends : Ends allowed (humblenetDatagramRecv env fuel length flags channel) s log r t)
    (accepts : AllAccepted env s log t) :
    Performs env allowed s (.recv channel)
      { result := r.1
        arrives := fun _ => []
        accepted := fun k => handedTo env k none log
        sent := fun _ => []
        returned := Received.messages channel r } t
  | data {conn : ConnPtr} {data : Bytes} {log : ClientLog} {ret : Int} {t : State}
    (ends : Runs (onData data (some conn)) s log ret t) :
    Performs env allowed s (.arrive conn data)
      { result := ret
        arrives := only conn data
        accepted := fun _ => []
        sent := fun _ => []
        returned := fun _ => [] } t
  | relayed {conn : ConnPtr} {data : Bytes} {msg : Option P2PRelayData} {log : ClientLog}
    {processed : Bool} {t : State} (ends : Runs (processP2PRelayData msg) s log processed t)
    (arrives : (⟨.mark (.arrive conn data), ()⟩ : (q : Query) × q.Answer) ∈ log) :
    Performs env allowed s (.arrive conn data)
      { result := 0
        arrives := only conn data
        accepted := fun _ => []
        sent := fun _ => []
        returned := fun _ => [] } t

/-! ### What a call does to the packets -/

theorem Connected.outward {s t : State} (h : Connected s.toTables) (o : Outward s t) :
    Connected t.toTables where
  status conn c here := h.status conn c (o.heap ▸ here)
  listed conn c here unread := by
    have pending : t.pendingDataConnections = s.pendingDataConnections := by rw [o.only]
    rw [pending]
    exact h.listed conn c (o.heap ▸ here) unread
  keyed conn dg there := by
    obtain ⟨old, before, same⟩ := o.entry there
    have conns := congrArg DatagramConnection.conn same
    exact conns.symm.trans (h.keyed conn old before)

structure Shifts (s : Tables) (deed : Deed) (t : Tables) (put out : ConnPtr → List Packet) :
    Prop where
  connected : Connected t
  full : ∀ k, ∀ p ∈ put k, p.payload ≠ []
  sent : ∀ k, deed.sent k = (put k).map Packet.message
  returned : ∀ k, deed.returned k = (out k).map Packet.message
  waiting : ∀ k, deed.accepted k ++ t.waiting k = s.waiting k ++ packetCodec.encodeAll (put k)
  remaining : ∀ k tail ps, s.stream k ++ (deed.arrives k ++ tail) = packetCodec.encodeAll ps →
    ∃ qs, t.stream k ++ tail = packetCodec.encodeAll qs ∧
      (∀ c, ofChannel c ps = ofChannel c (out k) ++ ofChannel c qs) ∧ ∀ p ∈ qs, p ∈ ps

section calls

variable {env : Externals} {s t : State} {log : ClientLog}

theorem remaining_grown {s t : Tables} {k : ConnPtr} (data : Bytes)
    (grown : t.stream k = s.stream k ++ data) (tail : Bytes) (ps : List Packet)
    (whole : s.stream k ++ (data ++ tail) = packetCodec.encodeAll ps) :
    ∃ qs, t.stream k ++ tail = packetCodec.encodeAll qs ∧
      (∀ c, ofChannel c ps = ofChannel c [] ++ ofChannel c qs) ∧ ∀ p ∈ qs, p ∈ ps := by
  refine ⟨ps, ?_, fun _ => rfl, fun _ there => there⟩
  rw [grown, List.append_assoc]
  exact whole

theorem send_shifts {message : Bytes} {flags channel : UInt8} {conn : ConnPtr} {ret : Int}
    (connected : Connected s.toTables) (long : 1 ≤ message.length)
    (short : message.length ≤ 65527)
    (accepts : AcceptsSent env message flags conn channel s log t) :
    ∃ put, Shifts s.toTables
      { result := ret
        arrives := fun _ => []
        accepted := only conn (handed env log)
        sent := only conn [(channel, message)]
        returned := fun _ => [] } t.toTables put fun _ => [] := by
  obtain ⟨l₁, v, l₂, u, l₃, -, insert, enqueued, flush, accepted⟩ := accepts
  have outward := (enqueue_outwardAt enqueued).trans (flushOrQueue_outwardAt flush)
  obtain ⟨⟨padding, seq, waiting⟩, -, -⟩ := enqueue_poised enqueued
  obtain ⟨c, here, rfl⟩ := insertDatagram_ends insert
  have step : SiftStep [] channel s.toTables none _ := .insert here
  let p : Packet := ⟨channel, padding, seq, message, by omega⟩
  refine ⟨only conn [p], (connected.step step).outward outward.toOutward, ?_, ?_, fun _ => rfl,
    ?_, ?_⟩
  · intro k q there
    unfold only at there
    split at there
    · rw [List.mem_singleton.mp there]
      exact List.length_pos_iff.mp long
    · exact absurd there List.not_mem_nil
  · intro k
    by_cases same : k = conn
    · simp only [only, if_pos same]
      rfl
    · simp only [only, if_neg same]
      rfl
  · intro k
    have inserted : ∀ k, _ = s.waiting k := fun k => waiting_step connected step k
    by_cases same : k = conn
    · subst same
      simp only [only, if_pos]
      rw [accepted, waiting, inserted]
      exact congrArg (s.waiting k ++ ·) (List.append_nil p.bytes).symm
    · simp only [only, if_neg same]
      refine Eq.trans ?_ ((inserted k).trans (List.append_nil _).symm)
      simp only [List.nil_append, Tables.waiting, outward.elsewhere k same]
  · intro k
    refine remaining_grown _ ?_
    rw [outward.stream, List.append_nil]
    cases through_step step k with
    | same _ same => exact same
    | gone here closed listed => exact absurd listed List.not_mem_nil

theorem flush_shifts {result : Int} (connected : Connected s.toTables) (outward : Outward s t)
    (accepts : AllAccepted env s log t) : Shifts s.toTables
      { result := result
        arrives := fun _ => []
        accepted := fun k => handedTo env k none log
        sent := fun _ => []
        returned := fun _ => [] } t.toTables (fun _ => []) fun _ => [] where
  connected := connected.outward outward
  full _ _ there := absurd there List.not_mem_nil
  sent _ := rfl
  returned _ := rfl
  waiting k := (accepts k).trans (List.append_nil _).symm
  remaining k := remaining_grown _ ((outward.stream k).trans (List.append_nil _).symm)

theorem sifted_shifts {channel : UInt8} {u : State} {r : Received}
    (outward : Outward s u) (accepts : AllAccepted env s log t)
    {out : ConnPtr → List Packet} (takes : TakesOut channel u.toTables t.toTables out)
    (returned : ∀ k, Received.messages channel r k = (out k).map Packet.message) :
    Shifts s.toTables
      { result := r.1
        arrives := fun _ => []
        accepted := fun k => handedTo env k none log
        sent := fun _ => []
        returned := Received.messages channel r } t.toTables (fun _ => []) out where
  connected := takes.connected
  full _ _ there := absurd there List.not_mem_nil
  sent _ := rfl
  returned := returned
  waiting k := (accepts k).trans (List.append_nil _).symm
  remaining k tail ps whole := by
    rw [← outward.stream k] at whole
    obtain ⟨qs, whole', order, sub⟩ := takes.remaining k tail ps whole
    exact ⟨qs, whole', order, fun p there => sub p (Or.inr there)⟩

theorem Sifted.shifts {channel : UInt8} {length : Nat} {u : State} {r : Received}
    (sifted : Sifted channel length u.toTables t.toTables r) (outward : Outward s u)
    (accepts : AllAccepted env s log t) (room : r.1 ≤ (length : Int)) :
    ∃ out, Shifts s.toTables
      { result := r.1
        arrives := fun _ => []
        accepted := fun k => handedTo env k none log
        sent := fun _ => []
        returned := Received.messages channel r } t.toTables (fun _ => []) out := by
  cases sifted with
  | @read conn p takes full =>
    refine ⟨_, sifted_shifts outward accepts takes fun k => ?_⟩
    have own : p.channel = channel := takes.own conn p (by simp)
    have pos : (0 : Int) < p.payload.length :=
      Int.natCast_pos.mpr (List.length_pos_iff.mpr full)
    have whole : p.payload.take length = p.payload :=
      List.take_of_length_le (Int.ofNat_le.mp room)
    dsimp only [Received.messages]
    rw [if_pos pos, whole, ← own]
    unfold only
    split <;> rfl
  | nothing takes => exact ⟨_, sifted_shifts outward accepts takes fun _ => rfl⟩

theorem arrive_shifts {conn : ConnPtr} {c : Connection} {data : Bytes} {result : Int}
    {pending : StdSet ConnPtr} (connected : Connected s.toTables)
    (here : s.heap.lookup conn = some c)
    (tables : t.toTables =
      { s.arrive conn data with pendingDataConnections := pending })
    (kept : ∀ k ∈ s.pendingDataConnections, k ∈ pending) (listed : conn ∈ pending) :
    Shifts s.toTables
      { result := result
        arrives := only conn data
        accepted := fun _ => []
        sent := fun _ => []
        returned := fun _ => [] } t.toTables (fun _ => []) fun _ => [] where
  connected := by
    rw [tables]
    refine ⟨fun k d there => ?_, fun k d there unread => ?_, fun k dg there => ?_⟩
    · obtain ⟨old, before, rfl⟩ := StdMap.lookup_modify_some.mp there
      split <;> exact connected.status k old before
    · obtain ⟨old, before, rfl⟩ := StdMap.lookup_modify_some.mp there
      split at unread
      · rename_i same
        exact same ▸ listed
      · exact kept k (connected.listed k old before unread)
    · exact connected.keyed k dg there
  full _ _ there := absurd there List.not_mem_nil
  sent _ := rfl
  returned _ := rfl
  waiting k := by
    rw [tables]
    exact (List.append_nil _).symm
  remaining k := by
    refine remaining_grown (only conn data k) ?_
    have stream : t.stream k = s.buffered k ++ (s.arrive conn data).unread k := by
      rw [tables]
      rfl
    rw [stream]
    by_cases same : k = conn
    · subst same
      have grown : (s.arrive k data).heap.lookup k =
          some { c with recvBuffer := c.recvBuffer ++ data } :=
        StdMap.lookup_modify_some.mpr ⟨c, here, if_pos rfl⟩
      rw [only, if_pos rfl, unread_of_here grown, Tables.stream, unread_of_here here,
        List.append_assoc]
    · have unread : (s.arrive conn data).unread k = s.unread k :=
        unread_updateConnection fun eq => absurd eq same
      rw [only, if_neg same, List.append_nil, unread]
      rfl

theorem onData_shifts {conn : ConnPtr} {data : Bytes} {ret : Int}
    (connected : Connected s.toTables) (ends : Runs (onData data (some conn)) s log ret t) :
    Shifts s.toTables
      { result := ret
        arrives := only conn data
        accepted := fun _ => []
        sent := fun _ => []
        returned := fun _ => [] } t.toTables (fun _ => []) fun _ => [] := by
  obtain ⟨c, here, rest⟩ := ends_deref_bind.mp ends
  obtain ⟨-, rest⟩ := ends_assert_bind.mp rest
  obtain ⟨_, l, -, rest, -⟩ := ends_ask_bind.mp rest
  obtain ⟨l₁, _, u, l₂, lists, rest, -⟩ := ends_bind.mp rest
  rw [ends_modifyTables_bind] at rest
  obtain ⟨-, rfl, rfl⟩ := ends_pure.mp rest
  unfold doWhen at lists
  split at lists
  · obtain ⟨-, lists⟩ := ends_assert_bind.mp (ends_get_bind.mp lists)
    obtain ⟨-, rfl⟩ := ends_modify.mp lists
    exact arrive_shifts connected here rfl (fun k there => StdSet.mem_insert.mpr (Or.inr there))
      (StdSet.mem_insert.mpr (Or.inl rfl))
  · rename_i unread
    obtain ⟨-, -, rfl⟩ := ends_pure.mp lists
    exact arrive_shifts connected here rfl (fun k there => there)
      (connected.listed conn c here unread)

theorem findOtherPeer_found {peer : PeerId} {conns : List ConnPtr} {found : Option ConnPtr}
    (ends : Runs (findOtherPeer peer conns) s log found t) :
    log = [] ∧ t = s ∧ ∀ conn ∈ found, ∃ c, s.heap.lookup conn = some c := by
  induction conns with
  | nil =>
    obtain ⟨rfl, rfl, rfl⟩ := ends_pure.mp ends
    exact ⟨rfl, rfl, fun _ none => by cases none⟩
  | cons conn rest ih =>
    obtain ⟨c, here, ends⟩ := ends_deref_bind.mp ends
    split at ends
    · obtain ⟨rfl, rfl, rfl⟩ := ends_pure.mp ends
      refine ⟨rfl, rfl, fun k same => ?_⟩
      cases same
      exact ⟨c, here⟩
    · exact ih ends

theorem relayData_shifts {conn : ConnPtr} {data : Bytes} {msg : Option P2PRelayData}
    {processed : Bool} {result : Int} (connected : Connected s.toTables)
    (ends : Runs (processP2PRelayData msg) s log processed t)
    (arrives : (⟨.mark (.arrive conn data), ()⟩ : (q : Query) × q.Answer) ∈ log) :
    Shifts s.toTables
      { result := result
        arrives := only conn data
        accepted := fun _ => []
        sent := fun _ => []
        returned := fun _ => [] } t.toTables (fun _ => []) fun _ => [] := by
  obtain ⟨relay, -, ends⟩ := runs_field_bind.mp ends
  obtain ⟨bytes, -, ends⟩ := runs_field_bind.mp ends
  obtain ⟨walked, l, -, finds, rfl⟩ := runs_walk_bind.mp (ends_get_bind.mp ends)
  obtain ⟨l₁, found, u, l₂, search, marks, rfl⟩ := ends_bind.mp finds
  obtain ⟨rfl, rfl, live⟩ := findOtherPeer_found search
  cases found with
  | none =>
    obtain ⟨rfl, -, -⟩ := ends_pure.mp marks
    simp at arrives
  | some k =>
    obtain ⟨c, here⟩ := live k rfl
    obtain ⟨l₃, last, rfl⟩ := runs_mark_bind.mp marks
    simp only [ends_modifyTables_bind, ends_modify_bind] at last
    obtain ⟨rfl, rfl, rfl⟩ := ends_pure.mp last
    obtain ⟨rfl, rfl⟩ : conn = k ∧ data = bytes := by simpa using arrives
    exact arrive_shifts connected here rfl (fun k there => StdSet.mem_insert.mpr (Or.inr there))
      (StdSet.mem_insert.mpr (Or.inl rfl))

end calls

/-- The calls are answered as they may be, and an allocation that fails does no harm. -/
def Spares : (q : Query) → State → q.Answer → State → Prop
  | .malloc size, s, granted, _ => Granted size s.toTables granted
  | q, s, a, t => q.Allowed s a t

theorem Spares.allowed {q : Query} {s t : State} {a : q.Answer} (h : Spares q s a t) :
    q.Allowed s a t := by
  cases q with
  | malloc size => trivial
  | _ => exact h

def Streaming (t : Tables) : Prop :=
  ∀ k, ∃ tail ps, t.stream k ++ tail = packetCodec.encodeAll ps ∧ ∀ p ∈ ps, p.payload ≠ []

theorem datagramRecv_sifted {env : Externals} {fuel length : Nat} {flags channel : UInt8}
    {s t : State} {log : ClientLog} {r : Received} (connected : Connected s.toTables)
    (streaming : Streaming s.toTables) (reads : flags &&& msgPeek = 0)
    (ends : Ends Spares (humblenetDatagramRecv env fuel length flags channel) s log r t) :
    ∃ u, Outward s u ∧ Sifted channel length u.toTables t.toTables r := by
  rw [humblenetDatagramRecv_eq] at ends
  obtain ⟨l, _, u, l', flush, ends, -⟩ := ends_bind.mp (ends_get_bind.mp ends)
  have outward := (autoFlush_outward flush).1
  refine ⟨u, outward, ?_⟩
  apply sift_sifted Spares.allowed (fun granted => granted) reads
    (connected.outward outward) ?_ ends
  intro k
  rw [outward.stream k]
  exact streaming k

theorem performs_shifts {env : Externals} {s t : State} {call : Call} {deed : Deed}
    (connected : Connected s.toTables) (streaming : Streaming s.toTables)
    (performs : Performs env Spares s call deed t) :
    ∃ put out, Shifts s.toTables deed t.toTables put out := by
  cases performs with
  | send long short ends accepts =>
    obtain ⟨put, shifts⟩ := send_shifts connected long short accepts
    exact ⟨put, _, shifts⟩
  | @flush fuel log flushed t ends accepts =>
    have outward : Outward s t := by
      replace ends := ends_get_bind.mp ends
      split at ends
      · obtain ⟨l, _, u, l', flush, last, -⟩ := ends_bind.mp ends
        obtain ⟨-, -, rfl⟩ := ends_pure.mp last
        exact (flushAll_outward flush).1
      · obtain ⟨-, -, rfl⟩ := ends_pure.mp ends
        exact .refl _
    exact ⟨_, _, flush_shifts connected outward accepts⟩
  | recv reads room ends accepts =>
    obtain ⟨u, outward, sifted⟩ := datagramRecv_sifted connected streaming reads ends
    obtain ⟨out, shifts⟩ := sifted.shifts outward accepts room
    exact ⟨_, out, shifts⟩
  | data ends => exact ⟨_, _, onData_shifts connected ends⟩
  | relayed ends arrives => exact ⟨_, _, relayData_shifts connected ends arrives⟩

/-! ### Several clients -/

/-- An end of a connection: a client, and the address of the connection there. -/
abbrev End (ι : Type) : Type := ι × ConnPtr

/-- Several clients, the bytes that the transport has accepted at an end and not delivered,
and what has been sent and what has been returned there. -/
structure World (ι : Type) where
  client : ι → State
  wire : End ι → Bytes
  sent : End ι → List (UInt8 × Bytes)
  returned : End ι → List (UInt8 × Bytes)

section world

variable {ι : Type}

structure World.Fresh (w : World ι) : Prop where
  connected : ∀ i, Connected (w.client i).toTables
  unread : ∀ i k, (w.client i).stream k = []
  waiting : ∀ i k, (w.client i).waiting k = []
  wire : ∀ e, w.wire e = []
  sent : ∀ e, w.sent e = []
  returned : ∀ e, w.returned e = []

/-- The stream of a connection, from what its receiver holds to what waits with its sender. -/
def World.line (line : Equiv.Perm (End ι)) (w : World ι) (e : End ι) : Bytes :=
  (w.client (line e).1).stream (line e).2 ++ (w.wire e ++ (w.client e.1).waiting e.2)

structure Carried (line : Equiv.Perm (End ι)) (w : World ι) (e : End ι) (ps : List Packet) :
    Prop where
  whole : w.line line e = packetCodec.encodeAll ps
  full : ∀ p ∈ ps, p.payload ≠ []
  order : ∀ channel, overChannel channel (w.sent e) =
    overChannel channel (w.returned (line e)) ++ (ofChannel channel ps).map Packet.payload

/-- Nothing is lost, doubled or mixed. -/
structure Conserved (line : Equiv.Perm (End ι)) (w : World ι) : Prop where
  connected : ∀ i, Connected (w.client i).toTables
  carried : ∀ e, ∃ ps, Carried line w e ps

theorem Carried.order_nil {line : Equiv.Perm (End ι)} {w : World ι} {e : End ι}
    (whole : w.line line e = []) (sent : w.sent e = []) (returned : w.returned (line e) = []) :
    Carried line w e [] where
  whole := whole
  full _ there := absurd there List.not_mem_nil
  order channel := by
    rw [sent, returned]
    rfl

theorem World.Fresh.conserved {line : Equiv.Perm (End ι)} {w : World ι} (fresh : w.Fresh) :
    Conserved line w where
  connected := fresh.connected
  carried e := by
    refine ⟨[], Carried.order_nil ?_ (fresh.sent e) (fresh.returned (line e))⟩
    unfold World.line
    rw [fresh.unread, fresh.wire, fresh.waiting]
    rfl

theorem Conserved.streaming {line : Equiv.Perm (End ι)} {w : World ι} (h : Conserved line w)
    (i : ι) : Streaming (w.client i).toTables := by
  intro k
  obtain ⟨ps, carried⟩ := h.carried (line.symm (i, k))
  have whole := carried.whole
  unfold World.line at whole
  rw [Equiv.apply_symm_apply] at whole
  exact ⟨_, ps, whole, carried.full⟩

variable [DecidableEq ι]

def ofClient {α : Type} (i : ι) (f : ConnPtr → List α) (e : End ι) : List α :=
  if e.1 = i then f e.2 else []

/-- One client carries out a call. The transport delivers at the other end of a connection, in
order and in pieces of any size, what it has accepted at this one. -/
structure WorldStep (env : Externals) (allowed : (q : Query) → State → q.Answer → State → Prop)
    (line : Equiv.Perm (End ι)) (w : World ι) (d : ι × Call × Deed) (w' : World ι) : Prop where
  performs : Performs env allowed (w.client d.1) d.2.1 d.2.2 (w'.client d.1)
  others : ∀ i, i ≠ d.1 → w'.client i = w.client i
  wire : ∀ e, w.wire e ++ ofClient d.1 d.2.2.accepted e =
    ofClient d.1 d.2.2.arrives (line e) ++ w'.wire e
  sent : ∀ e, w'.sent e = w.sent e ++ ofClient d.1 d.2.2.sent e
  returned : ∀ e, w'.returned e = w.returned e ++ ofClient d.1 d.2.2.returned e

section step

variable {env : Externals} {line : Equiv.Perm (End ι)} {w w' : World ι} {d : ι × Call × Deed}

theorem waiting_passes (passes : WorldStep env Spares line w d w') {put out : ConnPtr → List Packet}
    (shifts : Shifts (w.client d.1).toTables d.2.2 (w'.client d.1).toTables put out) (e : End ι) :
    ofClient d.1 d.2.2.accepted e ++ (w'.client e.1).waiting e.2 =
      (w.client e.1).waiting e.2 ++ packetCodec.encodeAll (ofClient d.1 put e) := by
  unfold ofClient
  by_cases own : e.1 = d.1
  · rw [if_pos own, if_pos own, own]
    exact shifts.waiting e.2
  · rw [if_neg own, if_neg own, passes.others e.1 own]
    exact (List.append_nil _).symm

theorem stream_passes (passes : WorldStep env Spares line w d w') {put out : ConnPtr → List Packet}
    (shifts : Shifts (w.client d.1).toTables d.2.2 (w'.client d.1).toTables put out) (e : End ι)
    {tail : Bytes} {ps : List Packet} (whole : (w.client e.1).stream e.2 ++
      (ofClient d.1 d.2.2.arrives e ++ tail) = packetCodec.encodeAll ps) :
    ∃ qs, (w'.client e.1).stream e.2 ++ tail = packetCodec.encodeAll qs ∧
      (∀ c, ofChannel c ps = ofChannel c (ofClient d.1 out e) ++ ofChannel c qs) ∧
      ∀ p ∈ qs, p ∈ ps := by
  unfold ofClient at whole ⊢
  by_cases own : e.1 = d.1
  · rw [if_pos own] at whole ⊢
    rw [own] at whole ⊢
    exact shifts.remaining e.2 tail ps whole
  · rw [if_neg own] at whole ⊢
    rw [passes.others e.1 own]
    exact ⟨ps, whole, fun _ => rfl, fun _ there => there⟩

theorem messages_ofClient {i : ι} {f : ConnPtr → List (UInt8 × Bytes)}
    {g : ConnPtr → List Packet} (same : ∀ k, f k = (g k).map Packet.message) (e : End ι) :
    ofClient i f e = (ofClient i g e).map Packet.message := by
  unfold ofClient
  split
  · exact same e.2
  · rfl

theorem Conserved.passes (h : Conserved line w) (passes : WorldStep env Spares line w d w') :
    Conserved line w' := by
  obtain ⟨put, out, shifts⟩ :=
    performs_shifts (h.connected d.1) (h.streaming d.1) passes.performs
  refine ⟨fun i => ?_, fun e => ?_⟩
  · by_cases own : i = d.1
    · exact own ▸ shifts.connected
    · rw [passes.others i own]
      exact h.connected i
  · obtain ⟨ps, carried⟩ := h.carried e
    -- the new packets go behind those that are on their way
    have longer : (w.client (line e).1).stream (line e).2 ++
        (ofClient d.1 d.2.2.arrives (line e) ++ (w'.wire e ++ (w'.client e.1).waiting e.2)) =
        packetCodec.encodeAll (ps ++ ofClient d.1 put e) := by
      calc _ = (w.client (line e).1).stream (line e).2 ++ (w.wire e ++
            (ofClient d.1 d.2.2.accepted e ++ (w'.client e.1).waiting e.2)) := by
            rw [← List.append_assoc (w.wire e), passes.wire e, List.append_assoc]
        _ = w.line line e ++ packetCodec.encodeAll (ofClient d.1 put e) := by
            rw [waiting_passes passes shifts]
            simp only [World.line, List.append_assoc]
        _ = _ := by rw [carried.whole, Codec.encodeAll_append]
    obtain ⟨qs, whole, order, sub⟩ := stream_passes passes shifts (line e) longer
    refine ⟨qs, whole, fun p there => ?_, fun c => ?_⟩
    · rcases List.mem_append.mp (sub p there) with old | new
      · exact carried.full p old
      · unfold ofClient at new
        split at new
        · exact shifts.full e.2 p new
        · exact absurd new List.not_mem_nil
    · have moved := order c
      rw [ofChannel_append] at moved
      rw [passes.sent, passes.returned, overChannel_append, overChannel_append,
        messages_ofClient shifts.sent, messages_ofClient shifts.returned, overChannel_messages,
        overChannel_messages, carried.order c, List.append_assoc, List.append_assoc,
        ← List.map_append, moved, List.map_append]

theorem conserved_of_trace {past : List (World ι × (ι × Call × Deed))}
    (run : Trace World.Fresh (WorldStep env Spares line) past w) : Conserved line w :=
  Trace.invariant (I := fun _ w => Conserved line w) (fun _ fresh => fresh.conserved)
    (fun _ _ _ _ _ conserved passes => conserved.passes passes) run

theorem recv_zero {s t : State} {channel : UInt8} {deed : Deed}
    (connected : Connected s.toTables) (streaming : Streaming s.toTables)
    (performs : Performs env Spares s (.recv channel) deed t) (zero : deed.result = 0) :
    Exhausted channel t.toTables := by
  cases performs with
  | recv reads room ends accepts =>
    obtain ⟨u, -, sifted⟩ := datagramRecv_sifted connected streaming reads ends
    cases sifted with
    | read takes full =>
      exact absurd (List.length_eq_zero_iff.mp (Int.natCast_eq_zero.mp zero)) full
    | nothing takes exhausted => exact exhausted

theorem Exhausted.arrived {t : Tables} {channel : UInt8} (h : Exhausted channel t)
    (connected : Connected t) {k : ConnPtr} {ps : List Packet}
    (whole : t.stream k = packetCodec.encodeAll ps) (full : ∀ p ∈ ps, p.payload ≠ [])
    (short : (t.buffered k).length < 2 ^ 16) : ofChannel channel ps = [] := by
  have read : t.unread k = [] := by
    cases here : t.heap.lookup k with
    | none => simp only [Tables.unread, here, Option.map_none, Option.getD_none]
    | some c =>
      rw [unread_of_here here]
      by_contra unread
      exact List.not_mem_nil (h.pending ▸ connected.listed k c here unread)
  have silent : Silent channel (t.buffered k) := by
    cases entry : t.datagrams.lookup k with
    | none =>
      simp only [Tables.buffered, entry, Option.map_none, Option.getD_none]
      exact silent_nil channel
    | some dg =>
      rw [buffered_of_entry entry]
      exact h.silent k dg entry
  have held : packets (t.buffered k) = ps := by
    rw [Tables.stream, read, List.append_nil] at whole
    rw [whole]
    exact packetCodec.records_encodeAll ps
  rw [← held] at full ⊢
  exact silent.packets short full

end step

end world

/-- The payloads returned are the first ones sent, on every channel of every connection; and
they are all of them, when everything has arrived and a receiving call returns zero, as long
as the buffer can be counted by sixteen bits. -/
def RoundTrips {ι : Type} [DecidableEq ι] (env : Externals)
    (allowed : (q : Query) → State → q.Answer → State → Prop) (line : Equiv.Perm (End ι))
    (w : World ι) : Prop :=
  (∀ e channel, overChannel channel (w.returned (line e)) <+: overChannel channel (w.sent e)) ∧
    ∀ i channel deed w', WorldStep env allowed line w (i, .recv channel, deed) w' →
      deed.result = 0 → ∀ e, (line e).1 = i →
      ((w'.client i).buffered (line e).2).length < 2 ^ 16 →
      w'.wire e = [] → (w'.client e.1).waiting e.2 = [] →
      overChannel channel (w'.returned (line e)) = overChannel channel (w'.sent e)

/-- However the transport cuts what it delivers, and whatever the clients send and receive:
every message makes the trip, when no allocation fails where the bytes of a buffer would be
lost with it. -/
theorem datagrams_round_trip {ι : Type} [DecidableEq ι] {env : Externals}
    {line : Equiv.Perm (End ι)} {past : List (World ι × (ι × Call × Deed))} {w : World ι}
    (run : Trace World.Fresh (WorldStep env Spares line) past w) :
    RoundTrips env Spares line w := by
  have conserved := conserved_of_trace run
  refine ⟨fun e channel => ?_, ?_⟩
  · obtain ⟨ps, carried⟩ := conserved.carried e
    exact ⟨_, (carried.order channel).symm⟩
  · intro i channel deed w' passes zero e receiver short arrived gone
    have exhausted :=
      recv_zero (conserved.connected i) (conserved.streaming i) passes.performs zero
    have after := conserved.passes passes
    obtain ⟨ps, carried⟩ := after.carried e
    have whole := carried.whole
    unfold World.line at whole
    rw [arrived, gone, List.append_nil, List.append_nil, receiver] at whole
    have none := exhausted.arrived (after.connected i) whole carried.full short
    rw [carried.order channel, none]
    exact (List.append_nil _).symm

/-! ### Two clients -/

def twoAnswers (granted : Nat → State → Option Bool) : (q : Query) → State → Option q.Answer
  | .malloc size, s => granted size s
  | .libwebrtcWrite _ buf, _ => some buf.length
  | .order elements, _ => some elements
  | .padding, _ => some 0
  | .mark _, _ => some ()
  | .pause, _ => some ()
  | _, _ => none

theorem twoAnswers_allowed (granted : Nat → State → Option Bool) (q : Query) (s : State)
    (a : q.Answer) (h : twoAnswers granted q s = some a) : q.Allowed s a s := by
  cases q with
  | libwebrtcWrite socket buf =>
    cases h
    exact ⟨Int.le_trans (b := 0) (by simp) (Int.natCast_nonneg _), le_refl _⟩
  | order elements =>
    cases h
    exact List.Perm.refl elements
  | newConnection => cases h
  | newInternalSocket => cases h
  | libwebsocketWrite wsi buf => cases h
  | _ => trivial

def generous (size : Nat) (_ : State) : Option Bool := if size < 2 ^ 31 then some true else none

/-- Those fail that would add to a part of a packet. -/
def grudging (_ : Nat) (s : State) : Option Bool := some (decide (s.buffered 1 = []))

theorem twoAnswers_spares (q : Query) (s : State) (a : q.Answer)
    (h : twoAnswers generous q s = some a) : Spares q s a s := by
  cases q with
  | malloc size =>
    change generous size s = some a at h
    unfold generous at h
    split at h
    · cases h
      assumption
    · cases h
  | _ => exact twoAnswers_allowed generous _ s a h

def openEnd : State :=
  { State.initial with
    heap := StdMap.emplace 1 (endTo 2) ∅
    sockets := StdMap.emplace 7 { InternalSocket.new with webrtcChannel := true } ∅ }

def twoClients : World Bool := ⟨fun _ => openEnd, fun _ => [], fun _ => [], fun _ => []⟩

def across : Equiv.Perm (End Bool) := Equiv.boolNot.prodCongr (Equiv.refl ConnPtr)

theorem openEnd_heap {conn : ConnPtr} {c : Connection} (here : openEnd.heap.lookup conn = some c) :
    c = endTo 2 := by
  rcases StdMap.lookup_emplace_entry here with ⟨-, same⟩ | none
  · exact same
  · cases none

theorem openEnd_connected : Connected openEnd.toTables where
  status conn c here := openEnd_heap here ▸ rfl
  listed conn c here unread := absurd (openEnd_heap here ▸ rfl) unread
  keyed conn dg there := by cases there

theorem twoClients_fresh : twoClients.Fresh where
  connected _ := openEnd_connected
  unread _ k := by
    have none : openEnd.unread k = [] := by
      unfold Tables.unread
      cases here : openEnd.heap.lookup k with
      | none => rfl
      | some c => exact openEnd_heap here ▸ rfl
    exact congrArg (openEnd.buffered k ++ ·) none
  waiting _ _ := rfl
  wire _ := rfl
  sent _ := rfl
  returned _ := rfl

def World.after {ι : Type} [DecidableEq ι] (line : Equiv.Perm (End ι)) (w : World ι) (i : ι)
    (deed : Deed) (t : State) : World ι where
  client := Function.update w.client i t
  wire e := (w.wire e ++ ofClient i deed.accepted e).drop (ofClient i deed.arrives (line e)).length
  sent e := w.sent e ++ ofClient i deed.sent e
  returned e := w.returned e ++ ofClient i deed.returned e

theorem World.passes_after {ι : Type} [DecidableEq ι] {env : Externals}
    {allowed : (q : Query) → State → q.Answer → State → Prop} (line : Equiv.Perm (End ι))
    (w : World ι) {i : ι} {call : Call} {deed : Deed} {t : State}
    (performs : Performs env allowed (w.client i) call deed t)
    (first : ∀ e, ofClient i deed.arrives (line e) <+: w.wire e ++ ofClient i deed.accepted e) :
    WorldStep env allowed line w (i, call, deed) (w.after line i deed t) where
  performs := by
    simpa only [World.after, Function.update_self] using performs
  others j other := by
    dsimp only [World.after] at other ⊢
    exact Function.update_of_ne other t w.client
  wire e := by
    obtain ⟨rest, whole⟩ := first e
    have left : (w.after line i deed t).wire e = rest := by
      simp only [World.after, ← whole, List.drop_left]
    rw [left]
    exact whole.symm
  sent _ := rfl
  returned _ := rfl

theorem ofClient_nil {ι : Type} [DecidableEq ι] {α : Type} (i : ι) (e : End ι) :
    ofClient i (fun _ => ([] : List α)) e = [] := ite_self _

theorem first_arrives {ι : Type} [DecidableEq ι] (line : Equiv.Perm (End ι)) {w : World ι}
    {e : End ι} {data : Bytes} (first : data <+: w.wire e) (k : End ι) :
    ofClient (line e).1 (only (line e).2 data) (line k) <+:
      w.wire k ++ ofClient (line e).1 (fun _ => []) k := by
  rw [ofClient_nil, List.append_nil]
  unfold ofClient only
  split
  · split
    · rename_i conn
      have same : line k = line e := Prod.ext (by assumption) conn
      exact line.injective same ▸ first
    · exact List.nil_prefix
  · exact List.nil_prefix

def byteRecord : Bytes := [1, 0, 0, 0, 0, 0, 0, 0, 7]

def sendsByte : Deed where
  result := 1
  arrives _ := []
  accepted := only 1 byteRecord
  sent := only 1 [(0, [7])]
  returned _ := []

def sendStages : Option (ClientLog × State × ClientLog × State × ClientLog × State) :=
  ((insertDatagram 1 openEnd).answered (twoAnswers generous)).bind fun a =>
    ((enqueue 1 [7] 0 a.2.2).answered (twoAnswers generous)).bind fun b =>
      ((flushOrQueue welcome 0 1 b.2.2).answered (twoAnswers generous)).map fun c =>
        (a.1, a.2.2, b.1, b.2.2, c.1, c.2.2)

theorem byte_sent (allowed : (q : Query) → State → q.Answer → State → Prop) :
    ∃ t, Performs welcome allowed openEnd (.send [7] 0 1 0) sendsByte t ∧ t.waiting 1 = [] := by
  have ran : sendStages.any (fun x => decide (handed welcome (x.1 ++ (x.2.2.1 ++ x.2.2.2.2.1)) =
      byteRecord) && decide (x.2.2.2.1.waiting 1 = byteRecord) &&
        decide (x.2.2.2.2.2.waiting 1 = [])) = true := by decide +kernel
  obtain ⟨⟨l₁, v, l₂, u, l₃, t⟩, stages, check⟩ := (Option.any_eq_true _ _).mp ran
  simp only [Bool.and_eq_true, decide_eq_true_eq] at check
  obtain ⟨⟨given, queued⟩, gone⟩ := check
  obtain ⟨a, inserts, stages⟩ := Option.bind_eq_some_iff.mp stages
  obtain ⟨b, enqueues, stages⟩ := Option.bind_eq_some_iff.mp stages
  obtain ⟨c, flushes, same⟩ := Option.map_eq_some_iff.mp stages
  cases same
  have insert := Course.ends_of_answered (twoAnswers_allowed generous) inserts
  have enqueued := Course.ends_of_answered (twoAnswers_allowed generous) enqueues
  have flush := Course.ends_of_answered (twoAnswers_allowed generous) flushes
  have queue : Runs (datagramQueue welcome [7] 0 1 0) openEnd (a.1 ++ (b.1 ++ c.1)) 1 c.2.2 := by
    refine ends_bind.mpr ⟨_, _, _, _, insert, ends_bind.mpr ⟨_, _, _, _, enqueued,
      ends_bind.mpr ⟨_, _, _, [], flush, ends_pure.mpr ⟨rfl, rfl, rfl⟩, ?_⟩, rfl⟩, rfl⟩
    exact (List.append_nil _).symm
  have sends : Runs (humblenetDatagramSend welcome [7] 0 1 0) openEnd (a.1 ++ (b.1 ++ c.1)) 1
      c.2.2 := ends_deref_bind.mpr ⟨endTo 2, rfl, queue⟩
  have accepts : AcceptsSent welcome [7] 0 1 0 openEnd (a.1 ++ (b.1 ++ c.1)) c.2.2 :=
    ⟨_, _, _, _, _, rfl, insert, enqueued, flush, by rw [given, gone, queued, List.append_nil]⟩
  have performs : Performs welcome allowed openEnd (.send [7] 0 1 0) _ c.2.2 :=
    Performs.send (by decide) (by decide) sends accepts
  rw [given] at performs
  exact ⟨c.2.2, performs, gone⟩

def hears (granted : Nat → State → Option Bool) (data : Bytes) (s : State) :
    Option (Int × State × ClientLog × Received × State) :=
  ((onData data (some 1) s).answered (twoAnswers granted)).bind fun a =>
    ((humblenetDatagramRecv welcome 4 100 0 0 a.2.2).answered (twoAnswers granted)).map fun b =>
      (a.2.1, a.2.2, b)

def Tables.idle (t : Tables) : Bool := t.datagrams.entries.all fun e => decide (e.2.bufOut = [])

theorem waiting_of_idle {t : Tables} (idle : t.idle = true) (k : ConnPtr) : t.waiting k = [] := by
  cases entry : t.datagrams.lookup k with
  | none => simp only [Tables.waiting, entry, Option.map_none, Option.getD_none]
  | some dg =>
    rw [waiting_of_entry entry]
    have mem := (StdMap.lookup_eq_some_iff k dg t.datagrams).mp entry
    exact of_decide_eq_true (List.all_eq_true.mp idle _ mem)

theorem handedTo_nothing {env : Externals} {k : ConnPtr} {log : ClientLog}
    (nothing : ∀ e ∈ log, handedOf env e = []) (visited : Option ConnPtr) :
    handedTo env k visited log = [] := by
  induction log generalizing visited with
  | nil => rfl
  | cons e log ih =>
    have rest := ih fun e there => nothing e (List.mem_cons_of_mem _ there)
    have here := nothing e List.mem_cons_self
    unfold handedTo
    split
    · rename_i none
      cases none
    · rename_i eq
      cases eq
      exact rest _
    · rename_i eq
      cases eq
      rw [here, rest, ite_self]
      rfl

def arrived (ret : Int) (data : Bytes) : Deed where
  result := ret
  arrives := only 1 data
  accepted _ := []
  sent _ := []
  returned _ := []

def received (r : Received) : Deed where
  result := r.1
  arrives _ := []
  accepted _ := []
  sent _ := []
  returned := Received.messages 0 r

def settled (r : Int × State × ClientLog × Received × State) : Bool :=
  r.2.1.idle && r.2.2.2.2.idle && r.2.2.1.all (fun e => decide (handedOf welcome e = [])) &&
    decide (r.2.2.2.1.1 ≤ 100)

theorem hears_performs {allowed : (q : Query) → State → q.Answer → State → Prop}
    {granted : Nat → State → Option Bool}
    (may : ∀ q s a, twoAnswers granted q s = some a → allowed q s a s) {data : Bytes} {s : State}
    {r : Int × State × ClientLog × Received × State} (h : hears granted data s = some r)
    (check : settled r = true) :
    Performs welcome allowed s (.arrive 1 data) (arrived r.1 data) r.2.1 ∧
      Performs welcome allowed r.2.1 (.recv 0) (received r.2.2.2.1) r.2.2.2.2 := by
  obtain ⟨a, hearing, receiving⟩ := Option.bind_eq_some_iff.mp h
  obtain ⟨b, receives, same⟩ := Option.map_eq_some_iff.mp receiving
  cases same
  simp only [settled, Bool.and_eq_true, decide_eq_true_eq, List.all_eq_true] at check
  obtain ⟨⟨⟨before, after⟩, nothing⟩, room⟩ := check
  have handed : ∀ k, handedTo welcome k none b.1 = [] := fun k => handedTo_nothing nothing none
  have accepts : AllAccepted welcome a.2.2 b.1 b.2.2 := by
    intro k
    rw [handed, waiting_of_idle before, waiting_of_idle after]
    rfl
  have ends : Ends allowed (humblenetDatagramRecv welcome 4 100 0 0) a.2.2 b.1 b.2.1 b.2.2 :=
    Course.ends_of_answered may receives
  have recv := Performs.recv (by decide) room ends accepts
  simp only [handed] at recv
  exact ⟨.data (Course.ends_of_answered (twoAnswers_allowed granted) hearing), recv⟩

theorem two_passes {allowed : (q : Query) → State → q.Answer → State → Prop}
    {granted : Nat → State → Option Bool}
    (w : World Bool) (may : ∀ q s a, twoAnswers granted q s = some a → allowed q s a s)
    {data : Bytes} {r : Int × State × ClientLog × Received × State}
    (h : hears granted data (w.client true) = some r) (check : settled r = true)
    (first : data <+: w.wire (false, 1)) :
    WorldStep welcome allowed across w (true, .arrive 1 data, arrived r.1 data)
        (w.after across true (arrived r.1 data) r.2.1) ∧
      WorldStep welcome allowed across (w.after across true (arrived r.1 data) r.2.1)
        (true, .recv 0, received r.2.2.2.1)
        ((w.after across true (arrived r.1 data) r.2.1).after across true
          (received r.2.2.2.1) r.2.2.2.2) := by
  obtain ⟨arrives, receives⟩ := hears_performs may h check
  refine ⟨World.passes_after across w arrives (first_arrives across first), ?_⟩
  refine World.passes_after across _ ?_ fun e => ?_
  · simpa only [World.after, Function.update_self] using receives
  · exact (ofClient_nil true (across e)).symm ▸ List.nil_prefix

/-- A message of a byte is sent, arrives in one piece, and is returned. -/
theorem datagrams_round_trip_byte : ∃ past w,
    Trace World.Fresh (WorldStep welcome Spares across) past w ∧
      overChannel 0 (w.returned (true, 1)) = [[7]] ∧ RoundTrips welcome Spares across w := by
  obtain ⟨t, sends, -⟩ := byte_sent Spares
  have sent := World.passes_after across twoClients sends fun e =>
    (ofClient_nil false (across e)).symm ▸ List.nil_prefix
  have heard : (hears generous byteRecord openEnd).any (fun r => settled r &&
      decide (r.2.2.2.1 = (1, some 1, [7]))) = true := by decide +kernel
  obtain ⟨r, hearing, check⟩ := (Option.any_eq_true _ _).mp heard
  simp only [Bool.and_eq_true, decide_eq_true_eq] at check
  obtain ⟨arrives, receives⟩ := two_passes (twoClients.after across false sendsByte t)
    twoAnswers_spares hearing check.1 List.prefix_rfl
  have run := ((Trace.start twoClients_fresh).next sent).next arrives |>.next receives
  refine ⟨_, _, run, ?_, datagrams_round_trip run⟩
  rw [check.2]
  rfl

/-- It arrives in two pieces, the first of which is in the buffer when there is no memory for
the second; the receiving call drops it, and returns zero with nothing left. -/
theorem datagrams_lost : ∃ past w,
    Trace World.Fresh (WorldStep welcome Query.Allowed across) past w ∧
      ¬ RoundTrips welcome Query.Allowed across w := by
  obtain ⟨t, sends, gone⟩ := byte_sent Query.Allowed
  have sent := World.passes_after across twoClients sends fun e =>
    (ofClient_nil false (across e)).symm ▸ List.nil_prefix
  have heard : ((hears grudging (byteRecord.take 4) openEnd).bind fun r =>
      (hears grudging (byteRecord.drop 4) r.2.2.2.2).map fun r' => (r, r')).any (fun x =>
        settled x.1 && settled x.2 && decide (x.1.2.2.2.1 = (0, none, [])) &&
          decide (x.2.2.2.2.1 = (0, none, [])) &&
          decide ((x.2.2.2.2.2.buffered 1).length = 5)) = true := by decide +kernel
  obtain ⟨⟨r, r'⟩, hearing, check⟩ := (Option.any_eq_true _ _).mp heard
  obtain ⟨x, first, hearing⟩ := Option.bind_eq_some_iff.mp hearing
  obtain ⟨y, second, same⟩ := Option.map_eq_some_iff.mp hearing
  cases same
  simp only [Bool.and_eq_true, decide_eq_true_eq] at check
  obtain ⟨⟨⟨⟨settles, settles'⟩, none⟩, none'⟩, five⟩ := check
  obtain ⟨arrives, receives⟩ := two_passes (twoClients.after across false sendsByte t)
    (twoAnswers_allowed grudging) first settles (List.take_prefix 4 byteRecord)
  obtain ⟨arrives', receives'⟩ := two_passes
    (((twoClients.after across false sendsByte t).after across true
      (arrived r.1 (byteRecord.take 4)) r.2.1).after across true (received r.2.2.2.1) r.2.2.2.2)
    (twoAnswers_allowed grudging) second settles' List.prefix_rfl
  refine ⟨_, _, (((Trace.start twoClients_fresh).next sent).next arrives |>.next receives).next
    arrives', fun trips => ?_⟩
  have all := trips.2 true 0 _ _ receives' (congrArg Prod.fst none') (false, 1) rfl ?_ rfl gone
  · rw [none, none'] at all
    change ([] : List Bytes) = [[7]] at all
    cases all
  · change (r'.2.2.2.2.buffered 1).length < 2 ^ 16
    rw [five]
    decide

end HumbleNet.Client
