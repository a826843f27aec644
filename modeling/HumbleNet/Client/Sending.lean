import HumbleNet.Client.Streams

/-! What the sending half of the datagram layer does, called on its own: the packets of an
entry go to the connection in one write, and nothing else of the tables changes. -/
namespace HumbleNet.Client

open Guarded

def DatagramConnection.received (dg : DatagramConnection) : DatagramConnection :=
  { dg with bufOut := [], queued := 0, seqOut := 0 }

/-- Only the outgoing packets, the flag for them and the error string differ. -/
structure Outward (s t : State) : Prop where
  only : t = { s with
    datagrams := t.datagrams
    queuedPackets := t.queuedPackets
    errorString := t.errorString }
  entries : ∀ k, (t.datagrams.lookup k).map DatagramConnection.received =
    (s.datagrams.lookup k).map DatagramConnection.received

namespace Outward

variable {s t u : State}

theorem refl (s : State) : Outward s s := ⟨rfl, fun _ => rfl⟩

theorem trans (h : Outward s t) (k : Outward t u) : Outward s u where
  only := k.only.trans (by rw [h.only])
  entries conn := (k.entries conn).trans (h.entries conn)

theorem heap (h : Outward s t) : t.heap = s.heap := by rw [h.only]

theorem buffered (h : Outward s t) (conn : ConnPtr) :
    t.buffered conn = s.buffered conn := by
  have same : ∀ o : Option DatagramConnection, o.map DatagramConnection.bufIn =
      (o.map DatagramConnection.received).map DatagramConnection.bufIn := by
    intro o
    rw [Option.map_map]
    rfl
  rw [Tables.buffered, Tables.buffered, same, h.entries conn, ← same]

theorem stream (h : Outward s t) (conn : ConnPtr) : t.stream conn = s.stream conn := by
  rw [Tables.stream, Tables.stream, h.buffered conn, Tables.unread, Tables.unread, h.heap]

theorem entry (h : Outward s t) {conn : ConnPtr} {dg : DatagramConnection}
    (there : t.datagrams.lookup conn = some dg) :
    ∃ old, s.datagrams.lookup conn = some old ∧ old.received = dg.received := by
  have same := h.entries conn
  rw [there, Option.map_some] at same
  exact Option.map_eq_some_iff.mp same.symm

theorem symm_entry (h : Outward s t) {conn : ConnPtr} {dg : DatagramConnection}
    (there : s.datagrams.lookup conn = some dg) :
    ∃ new, t.datagrams.lookup conn = some new ∧ new.received = dg.received := by
  have same := h.entries conn
  rw [there, Option.map_some] at same
  exact Option.map_eq_some_iff.mp same

theorem updateDatagram {conn : ConnPtr} {f : DatagramConnection → DatagramConnection}
    (same : ∀ dg, (f dg).received = dg.received) (s : State) :
    Outward s { s with toTables := s.updateDatagram conn f } where
  only := rfl
  entries k := by
    change (AList.lookup k (StdMap.modify conn f s.datagrams)).map _ = _
    rw [StdMap.lookup_modify]
    split
    · rename_i eq
      subst eq
      rw [Option.map_map]
      congr 1
      exact funext same
    · rfl

end Outward

structure OutwardAt (conn : ConnPtr) (s t : State) : Prop extends Outward s t where
  elsewhere : ∀ k, k ≠ conn → t.datagrams.lookup k = s.datagrams.lookup k

namespace OutwardAt

variable {conn : ConnPtr} {s t u : State}

theorem refl (s : State) : OutwardAt conn s s := ⟨.refl s, fun _ _ => rfl⟩

theorem trans (h : OutwardAt conn s t) (k : OutwardAt conn t u) : OutwardAt conn s u :=
  ⟨h.toOutward.trans k.toOutward, fun j other =>
    (k.elsewhere j other).trans (h.elsewhere j other)⟩

theorem updateDatagram {f : DatagramConnection → DatagramConnection}
    (same : ∀ dg, (f dg).received = dg.received) (s : State) :
    OutwardAt conn s { s with toTables := s.updateDatagram conn f } :=
  ⟨.updateDatagram same s, fun _ other => (StdMap.lookup_modify ..).trans (if_neg other)⟩

end OutwardAt

section programs

variable {env : Externals} {allowed : (q : Query) → State → q.Answer → State → Prop}
  {s t : State} {log : ClientLog}

theorem sendP2PMessage_same {msg : Message} {sent : Bool}
    (ends : Ends allowed (sendP2PMessage env msg) s log sent t) : t = s := by
  rw [sendP2PMessage, ends_get_bind] at ends
  split at ends
  · exact (ends_pure.mp ends).2.2
  · split at ends
    · exact (ends_pure.mp ends).2.2
    · obtain ⟨ret, l, answer, ends, -⟩ := ends_unguarded_bind.mp ends
      exact (ends_pure.mp ends).2.2

theorem internalWriteSocket_same {socket : Option SocketPtr} {buf : Bytes} {ret : Int}
    (ends : Ends allowed (internalWriteSocket socket buf) s log ret t) : t = s := by
  cases socket with
  | none => exact absurd ends ends_fault
  | some socket =>
    rw [internalWriteSocket, derefSocket, bind_assoc, ends_get_bind] at ends
    obtain ⟨it, there, ends⟩ := ends_through_bind.mp ends
    split at ends
    · cases ends with
      | released answer ends =>
        cases ends
        rfl
    · obtain ⟨_, l, answer, ends, -⟩ := ends_unguarded_bind.mp ends
      exact (ends_pure.mp ends).2.2

theorem connectionWrite_same {conn : ConnPtr} {buf : Bytes} {size : UInt32} {ret : Int}
    (ends : Ends allowed (humblenetConnectionWrite env conn buf size) s log ret t) : t = s := by
  obtain ⟨c, here, ends⟩ := ends_deref_bind.mp ends
  split at ends
  · obtain ⟨-, ends⟩ := ends_assert_bind.mp ends
    exact (ends_pure.mp ends).2.2
  · obtain ⟨-, ends⟩ := ends_assert_bind.mp ends
    exact (ends_pure.mp ends).2.2
  · obtain ⟨-, ends⟩ := ends_assert_bind.mp ends
    rw [ends_get_bind] at ends
    split at ends
    · obtain ⟨l, sent, u, l', send, ends, -⟩ := ends_bind.mp ends
      cases sendP2PMessage_same send
      split at ends
      · exact (ends_pure.mp ends).2.2
      · exact (ends_pure.mp ends).2.2
    · exact internalWriteSocket_same ends

theorem datagramFlush_outwardAt {conn : ConnPtr} {x : Unit}
    (ends : Ends allowed (datagramFlush env conn) s log x t) : OutwardAt conn s t := by
  obtain ⟨dg, entry, ends⟩ := ends_derefDatagram_bind.mp ends
  split at ends
  · obtain ⟨-, -, rfl⟩ := ends_pure.mp ends
    exact .refl _
  · obtain ⟨l, writable, u, l', test, next, -⟩ := ends_bind.mp ends
    have same : u = s := by
      obtain ⟨c, here, test⟩ := ends_deref_bind.mp test
      split at test
      · exact (ends_pure.mp test).2.2
      · exact (ends_pure.mp test).2.2
    subst same
    split at next
    · obtain ⟨l, ret, v, l', write, next, -⟩ := ends_bind.mp next
      cases connectionWrite_same write
      obtain ⟨l, _, w, l', clear, last, -⟩ := ends_bind.mp next
      have cleared : OutwardAt conn u w := by
        unfold doWhen at clear
        split at clear
        · obtain ⟨-, rfl⟩ := ends_modify.mp clear
          exact ⟨⟨rfl, fun _ => rfl⟩, fun _ _ => rfl⟩
        · obtain ⟨-, -, rfl⟩ := ends_pure.mp clear
          exact .refl _
      obtain ⟨dg', entry', last⟩ := ends_derefDatagram_bind.mp last
      obtain ⟨-, rfl⟩ := ends_modify.mp last
      refine cleared.trans (.updateDatagram (f := fun dg => { dg with bufOut := [], queued := 0 })
        ?_ w)
      exact fun _ => rfl
    · obtain ⟨-, -, rfl⟩ := ends_pure.mp next
      exact .refl _

theorem datagramFlush_outward {conn : ConnPtr} {x : Unit}
    (ends : Ends allowed (datagramFlush env conn) s log x t) : Outward s t :=
  (datagramFlush_outwardAt ends).toOutward

theorem enqueue_outwardAt {conn : ConnPtr} {message : Bytes} {channel : UInt8} {x : Unit}
    (ends : Ends allowed (enqueue conn message channel) s log x t) : OutwardAt conn s t := by
  obtain ⟨dg, entry, ends⟩ := ends_derefDatagram_bind.mp ends
  obtain ⟨padding, l, -, put, -⟩ := ends_ask_bind.mp ends
  obtain ⟨-, rfl⟩ := ends_modify.mp put
  apply OutwardAt.updateDatagram (f := fun dg' =>
    { dg' with
      bufOut := dg'.bufOut ++ datagramHeader message.length channel padding dg.seqOut ++ message
      queued := dg'.queued + 1
      seqOut := dg'.seqOut + 1 })
  exact fun _ => rfl

theorem flushOrQueue_outwardAt {flags : UInt8} {conn : ConnPtr} {x : Unit}
    (ends : Ends allowed (flushOrQueue env flags conn) s log x t) : OutwardAt conn s t := by
  obtain ⟨dg, entry, ends⟩ := ends_derefDatagram_bind.mp ends
  split at ends
  · exact datagramFlush_outwardAt ends
  split at ends
  · obtain ⟨_, l, -, flush, -⟩ := ends_ask_bind.mp ends
    exact datagramFlush_outwardAt flush
  · obtain ⟨-, rfl⟩ := ends_modify.mp ends
    exact ⟨⟨rfl, fun _ => rfl⟩, fun _ _ => rfl⟩

theorem flushFrom_outward {fuel : Nat} {key : Option ConnPtr} {x : Unit}
    (ends : Ends allowed (flushFrom env fuel key) s log x t) : Outward s t := by
  induction fuel generalizing key s log with
  | zero =>
    cases key with
    | none =>
      obtain ⟨-, -, rfl⟩ := ends_pure.mp ends
      exact .refl _
    | some conn => exact absurd ends ends_fault
  | succ fuel ih =>
    cases key with
    | none =>
      obtain ⟨-, -, rfl⟩ := ends_pure.mp ends
      exact .refl _
    | some conn =>
      obtain ⟨_, l, answer, next, -⟩ := ends_ask_bind.mp ends
      obtain ⟨l, _, u, l', flush, next, -⟩ := ends_bind.mp next
      obtain ⟨dg, entry, next⟩ := ends_derefDatagram_bind.mp next
      exact (datagramFlush_outward flush).trans (ih (ends_get_bind.mp next))

theorem flushAll_outward {fuel : Nat} {x : Unit}
    (ends : Ends allowed (flushAll env fuel) s log x t) :
    Outward s t ∧ t.queuedPackets = false := by
  obtain ⟨l, _, u, l', flush, ends, -⟩ := ends_bind.mp (ends_get_bind.mp ends)
  obtain ⟨-, rfl⟩ := ends_modify.mp ends
  exact ⟨(flushFrom_outward flush).trans ⟨rfl, fun _ => rfl⟩, rfl⟩

theorem autoFlush_outward {fuel : Nat} {x : Unit} (ends : Ends allowed
    (doWhen (s.queuedPackets = true) (flushAll env fuel)) s log x t) :
    Outward s t ∧ t.queuedPackets = false := by
  unfold doWhen at ends
  split at ends
  · exact flushAll_outward ends
  · rename_i unflagged
    obtain ⟨-, -, rfl⟩ := ends_pure.mp ends
    exact ⟨.refl _, Bool.not_eq_true _ ▸ unflagged⟩

end programs

end HumbleNet.Client
