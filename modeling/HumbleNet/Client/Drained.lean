import HumbleNet.Client.Termination

/-! What is still in the buffers when `humblenet_datagram_recv` returns zero. A look that finds
an empty message takes it away and goes on as if there were none, so that what is behind it
stays. -/
namespace HumbleNet.Client

open Guarded

/-- A message of the channel that is not empty is there as a whole. -/
def Carries (channel : UInt8) (b : Bytes) : Prop :=
  ∃ p ∈ packets b, p.channel = channel ∧ p.payload ≠ []

/-- What a look leaves that brings nothing: an empty message that it finds is gone. -/
def passed (channel : UInt8) (b : Bytes) : Bytes := (datagramGetMessage b 0 0 channel).2.1

section look

variable {length : Nat} {flags channel : UInt8} {b : Bytes}

theorem not_carries_nil : ¬ Carries channel [] := by
  rintro ⟨p, there, _⟩
  exact absurd there List.not_mem_nil

theorem look_nothing : (datagramGetMessage b length flags channel).1 ≤ 0 ↔ Silent channel b := by
  unfold datagramGetMessage Silent
  cases found : findMessage b channel b.length 0 with
  | none => simp
  | some r =>
    obtain ⟨i, size⟩ := r
    simp only [Option.some.injEq, Prod.mk.injEq, and_imp]
    have brings : ∀ x y : Int × Bytes × Bytes, x.1 = size → y.1 = size →
        ((if flags &&& msgPeek ≠ 0 then x else y).1 ≤ 0 ↔ size = 0) := by
      intro x y hx hy
      split <;> omega
    rw [brings _ _ rfl rfl]
    constructor
    · rintro zero _ _ rfl rfl
      exact zero
    · intro all
      exact all i size rfl rfl

theorem look_left (reads : flags &&& msgPeek = 0) :
    (datagramGetMessage b length flags channel).2.1 = passed channel b := by
  unfold passed datagramGetMessage
  cases findMessage b channel b.length 0 with
  | none => rfl
  | some r =>
    dsimp only
    rw [if_neg (not_not.mpr reads), if_neg (by decide)]

theorem carries_passed (silent : Silent channel b) (more : Bytes) :
    Carries channel (passed channel b ++ more) ↔ Carries channel (b ++ more) := by
  have brings : (datagramGetMessage b 0 0 channel).1 ≤ 0 := look_nothing.mpr silent
  have got := datagramGetMessage_got b 0 0 channel
  unfold passed
  generalize datagramGetMessage b 0 0 channel = r at brings got
  cases got with
  | nothing => exact Iff.rfl
  | seen _ _ _ peek => exact absurd (by decide) peek
  | @taken skipped p after here others wanted reads =>
    have empty : p.payload = [] := List.length_eq_zero_iff.mp (by simpa using brings)
    have all : packets (b ++ more) = skipped ++ p :: packets (after ++ more) := by
      have split : b ++ more = packetCodec.encodeAll (skipped ++ [p]) ++ (after ++ more) := by
        simp only [here, Codec.encodeAll_append, Codec.encodeAll_cons, Codec.encodeAll_nil,
          List.append_nil, List.append_assoc]
        rfl
      rw [split, packets, Codec.records_encodeAll_append]
      simp
    have rest : packets (packetCodec.encodeAll skipped ++ after ++ more) =
        skipped ++ packets (after ++ more) := by
      rw [List.append_assoc, packets, Codec.records_encodeAll_append]
    simp only [Carries, all, rest, List.mem_append, List.mem_cons]
    constructor
    · rintro ⟨q, there, full⟩
      exact ⟨q, there.imp id Or.inr, full⟩
    · rintro ⟨q, there | rfl | there, own, full⟩
      · exact ⟨q, Or.inl there, own, full⟩
      · exact absurd empty full
      · exact ⟨q, Or.inr there, own, full⟩

theorem carries_joined (silent : Silent channel b) (data : Bytes) :
    Carries channel (joined (passed channel b) data) ↔ Carries channel (joined b data) := by
  unfold joined
  split
  · exact Iff.rfl
  · exact carries_passed silent _

end look

/-- What keeps the loop that polls from finding nothing, when the entries hold `held`. -/
inductive Awaits (channel : UInt8) (t : Tables) (held : ConnPtr → Bytes) : Prop where
  | opening (stuck : Stuck t)
  | closed {conn : ConnPtr} {c : Connection} (here : t.heap.lookup conn = some c)
    (listed : conn ∈ t.remoteClosedConnections ∨ conn ∈ t.pendingDataConnections)
    (ended : c.Ended)
  | message {conn : ConnPtr} (listed : conn ∈ t.pendingDataConnections)
    (found : ¬ Silent channel (joined (held conn) (t.unread conn)))

/-- The call has something to tell its caller: a look at an entry finds a message, or the loop
that polls does. -/
def Notices (channel : UInt8) (t : Tables) : Prop :=
  (∃ conn, ¬ Silent channel (t.buffered conn)) ∨
    Awaits channel t fun conn => passed channel (t.buffered conn)

/-- What a connection is to hold when what it has received is moved to its entry. -/
def Tables.arrived (t : Tables) (conn : ConnPtr) : Bytes :=
  if conn ∈ t.pendingDataConnections then joined (t.buffered conn) (t.unread conn)
  else t.buffered conn

section loops

variable {s t : State} {log : ClientLog} {length fuel : Nat} {flags channel : UInt8}

theorem drainFrom_some {allowed : (q : Query) → State → q.Answer → State → Prop}
    {key : Option ConnPtr} {received : Received}
    (ends : Ends allowed (drainFrom length flags channel fuel key) s log (some received) t) :
    0 < received.1 ∧ ∃ k, (∃ first, key = some first ∧ first ≤ k) ∧
      ¬ Silent channel (s.buffered k) := by
  induction fuel generalizing key s log with
  | zero =>
    cases key with
    | none => cases (ends_pure.mp ends).2.1
    | some conn => exact absurd ends ends_fault
  | succ fuel ih =>
    cases key with
    | none => cases (ends_pure.mp ends).2.1
    | some key =>
      obtain ⟨dg, entry, ends⟩ := ends_derefDatagram_bind.mp ends
      obtain ⟨l, ⟨ret, data⟩, u, l', look, rest, -⟩ := ends_bind.mp ends
      obtain ⟨there, rfl, rfl⟩ := getMessage_looks look
      dsimp only at rest
      split at rest
      · rename_i brings
        cases (ends_pure.mp rest).2.1
        refine ⟨brings, key, ⟨key, rfl, le_refl key⟩, fun silent => ?_⟩
        exact absurd brings (not_lt.mpr (look_nothing.mpr silent))
      · obtain ⟨pos, k, ⟨first, least, le⟩, found⟩ := ih (ends_get_bind.mp rest)
        have later : key < k :=
          lt_of_lt_of_le (of_decide_eq_true (leastKey_some least).1) le
        refine ⟨pos, k, ⟨key, rfl, le_of_lt later⟩, ?_⟩
        rw [Tables.looked, buffered_updateDatagram (Nat.ne_of_gt later)] at found
        exact found

theorem acceptLoop_buffered {allowed : (q : Query) → State → q.Answer → State → Prop} {x : Unit}
    (ends : Ends allowed (acceptLoop fuel) s log x t) (k : ConnPtr) :
    t.buffered k = s.buffered k := by
  induction fuel generalizing s log with
  | zero => exact absurd ends ends_fault
  | succ fuel ih =>
    obtain ⟨l, found, u, l', accept, next, -⟩ := ends_bind.mp ends
    obtain ⟨walked, l, answer, accept, -⟩ := ends_ask_bind.mp (ends_get_bind.mp accept)
    cases walked with
    | nil =>
      obtain ⟨-, rfl, rfl⟩ := ends_pure.mp accept
      rw [(ends_pure.mp next).2.2]
    | cons conn rest =>
      dsimp only at accept
      rw [ends_modify_bind, ends_pure] at accept
      obtain ⟨-, rfl, rfl⟩ := accept
      obtain ⟨c, here, next⟩ := ends_deref_bind.mp next
      obtain ⟨l, _, v, l', insert, next, -⟩ := ends_bind.mp next
      apply (ih next).trans
      unfold doWhen at insert
      split at insert
      · obtain ⟨c', here', rfl⟩ := insertDatagram_ends insert
        exact buffered_insertDatagram conn k c'.otherPeer
      · rw [(ends_pure.mp insert).2.2]
        rfl

structure Emptied (channel : UInt8) (s : Tables) (conn : ConnPtr) (c : Connection) (t : Tables) :
    Prop where
  here : s.heap.lookup conn = some c
  opened : c.status ≠ .connecting
  alive : ¬ c.Ended
  silent : Silent channel (joined (s.buffered conn) c.recvBuffer)
  listed : conn ∈ s.pendingDataConnections
  heap : t.heap = StdMap.modify conn (fun c => { c with recvBuffer := [] }) s.heap
  pending : t.pendingDataConnections = StdSet.erase conn s.pendingDataConnections
  closed : t.remoteClosedConnections = StdSet.erase conn s.remoteClosedConnections
  left : t.buffered conn = passed channel (joined (s.buffered conn) c.recvBuffer)
  others : ∀ k, k ≠ conn → t.buffered k = s.buffered k

namespace Emptied

variable {s t : Tables} {conn : ConnPtr} {c : Connection}

theorem lookup (h : Emptied channel s conn c t) {k : ConnPtr} (other : k ≠ conn) :
    t.heap.lookup k = s.heap.lookup k := by
  rw [h.heap, StdMap.lookup_modify, if_neg other]

theorem unread (h : Emptied channel s conn c t) {k : ConnPtr} (other : k ≠ conn) :
    t.unread k = s.unread k := by
  rw [Tables.unread, Tables.unread, h.lookup other]

theorem unread_self (h : Emptied channel s conn c t) : s.unread conn = c.recvBuffer := by
  rw [Tables.unread, h.here]
  rfl

theorem closedListed (h : Emptied channel s conn c t) (listed : ClosedListed s) :
    ClosedListed t := by
  intro k there
  rw [h.closed, StdSet.mem_erase] at there
  rw [h.lookup there.2]
  exact listed k there.1

theorem awaits (h : Emptied channel s conn c t) :
    Awaits channel t t.buffered ↔ Awaits channel s s.buffered := by
  constructor
  · intro awaits
    cases awaits with
    | opening stuck =>
      obtain ⟨k, listed, d, here, status, unread⟩ := stuck
      rw [h.pending, StdSet.mem_erase] at listed
      rw [h.lookup listed.2] at here
      exact .opening ⟨k, listed.1, d, here, status, unread⟩
    | @closed k d here listed ended =>
      rw [h.pending, h.closed, StdSet.mem_erase, StdSet.mem_erase, ← or_and_right] at listed
      rw [h.lookup listed.2] at here
      exact .closed here listed.1 ended
    | @message k listed found =>
      rw [h.pending, StdSet.mem_erase] at listed
      rw [h.others k listed.2, h.unread listed.2] at found
      exact .message listed.1 found
  · intro awaits
    cases awaits with
    | opening stuck =>
      obtain ⟨k, listed, d, here, status, unread⟩ := stuck
      have other : k ≠ conn := by
        rintro rfl
        cases here.symm.trans h.here
        exact h.opened status
      refine .opening ⟨k, ?_, d, (h.lookup other).trans here, status, unread⟩
      rw [h.pending, StdSet.mem_erase]
      exact ⟨listed, other⟩
    | @closed k d here listed ended =>
      have other : k ≠ conn := by
        rintro rfl
        cases here.symm.trans h.here
        exact h.alive ended
      refine .closed ((h.lookup other).trans here) ?_ ended
      rw [h.pending, h.closed, StdSet.mem_erase, StdSet.mem_erase, ← or_and_right]
      exact ⟨listed, other⟩
    | @message k listed found =>
      have other : k ≠ conn := by
        rintro rfl
        rw [h.unread_self] at found
        exact found h.silent
      apply Awaits.message
      · rw [h.pending, StdSet.mem_erase]
        exact ⟨listed, other⟩
      · rw [h.others k other, h.unread other]
        exact found

end Emptied

theorem emptied_of_passedOver {u v : State} {conn : ConnPtr} {c : Connection}
    (reads : flags &&& msgPeek = 0) (here : u.heap.lookup conn = some c)
    (opened : c.status ≠ .connecting) (unread : c.recvBuffer ≠ [])
    (listed : c.handsOver ≠ [] → conn ∈ u.pendingDataConnections)
    (passed : PassedOver length flags channel u conn c v)
    (same : { s with remoteClosedConnections := StdSet.erase conn s.remoteClosedConnections } = u) :
    Emptied channel s.toTables conn c v.toTables := by
  have handed : c.handsOver = c.recvBuffer := if_neg opened
  have heap : u.heap = s.heap := by rw [← same]
  have pending : u.pendingDataConnections = s.pendingDataConnections := by rw [← same]
  have closed : u.remoteClosedConnections = StdSet.erase conn s.remoteClosedConnections := by
    rw [← same]
  have held : ∀ k, u.buffered k = s.buffered k := by
    intro k
    rw [← same]
    rfl
  rw [handed] at listed
  have nothing := look_nothing.mp passed.nothing
  have left := passed.left
  rw [look_left reads] at left
  rw [handed, held] at nothing left
  obtain ⟨heap', pending'⟩ : v.heap = StdMap.modify conn (fun c => { c with recvBuffer := [] })
      u.heap ∧ v.pendingDataConnections = StdSet.erase conn u.pendingDataConnections := by
    cases passed.fruitless with
    | stays stuck _ _ =>
      rcases stuck with status | unlisted
      · exact absurd status opened
      · exact absurd (listed unread) unlisted
    | leaves _ heap pending => exact ⟨heap, pending⟩
  exact ⟨heap ▸ here, opened, passed.alive, nothing, pending ▸ listed unread, heap ▸ heap',
    pending ▸ pending', passed.closed.trans closed, left,
    fun k other => (passed.others k other).trans (held k)⟩

def Polled (channel : UInt8) (s : Tables) : Option Received → Tables → Prop
  | some received, _ => received.1 ≠ 0 ∧ Awaits channel s s.buffered
  | none, t => ¬ Awaits channel s s.buffered ∧ ∀ k, t.buffered k =
    if k ∈ s.pendingDataConnections then passed channel (joined (s.buffered k) (s.unread k))
    else s.buffered k

theorem polled_after {u t : Tables} {v : Tables} {conn : ConnPtr} {c : Connection}
    {r : Option Received} (emptied : Emptied channel u conn c v) (rest : Polled channel v r t) :
    Polled channel u r t := by
  cases r with
  | some received => exact ⟨rest.1, emptied.awaits.mp rest.2⟩
  | none =>
    obtain ⟨nothing, left⟩ := rest
    refine ⟨fun awaits => nothing (emptied.awaits.mpr awaits), fun k => ?_⟩
    have still : k ∈ v.pendingDataConnections ↔ k ∈ u.pendingDataConnections ∧ k ≠ conn := by
      rw [emptied.pending, StdSet.mem_erase]
    rw [left k]
    by_cases other : k = conn
    · subst other
      rw [if_neg fun h => (still.mp h).2 rfl, if_pos emptied.listed, emptied.left,
        emptied.unread_self]
    · simp only [still, other, ne_eq, not_false_eq_true, and_true, emptied.others k other,
        emptied.unread other]

theorem pollLoop_polled (reads : flags &&& msgPeek = 0) {r : Option Received}
    (listed : ClosedListed s.toTables)
    (ends : Ends Fortunate (pollLoop length flags channel fuel) s log r t) :
    Polled channel s.toTables r t.toTables := by
  induction fuel generalizing s log with
  | zero => exact absurd ends ends_fault
  | succ fuel ih =>
    obtain ⟨l, found, u, l', poll, next, -⟩ := ends_bind.mp ends
    have polled := pollAll_ends Fortunate.allowed poll
    cases found with
    | none =>
      obtain ⟨rfl, closed, pending⟩ := polled
      obtain ⟨-, rfl, rfl⟩ := ends_pure.mp next
      refine ⟨fun awaits => ?_, fun k => ?_⟩
      · cases awaits with
        | opening stuck =>
          obtain ⟨k, there, _⟩ := stuck
          rw [pending] at there
          exact absurd there List.not_mem_nil
        | closed _ there _ =>
          rw [pending, closed] at there
          exact there.elim List.not_mem_nil List.not_mem_nil
        | message there _ =>
          rw [pending] at there
          exact absurd there List.not_mem_nil
      · rw [pending, if_neg List.not_mem_nil]
    | some conn =>
      obtain ⟨l, received, v, l', round, next, -⟩ := ends_bind.mp next
      obtain ⟨c, here, handed, outcome⟩ := receiveFrom_round round
      have same : { s with
          remoteClosedConnections := StdSet.erase conn s.remoteClosedConnections } = u := by
        rcases polled with ⟨_, rfl⟩ | ⟨_, none, eq, _⟩
        · rfl
        · have still : StdSet.erase conn s.remoteClosedConnections = s.remoteClosedConnections := by
            rw [none]
            rfl
          rw [still, eq]
      have there : s.heap.lookup conn = some c := by
        rw [← here, ← same]
      have told : conn ∈ s.remoteClosedConnections ∧ c.status = .closed ∨
          conn ∈ s.pendingDataConnections ∧ c.recvBuffer ≠ [] := by
        rcases polled with ⟨closed, _⟩ | ⟨pending, _, _, c', here', unread⟩
        · obtain ⟨c', here', status⟩ := listed conn closed
          cases there.symm.trans here'
          exact Or.inl ⟨closed, status⟩
        · cases there.symm.trans here'
          exact Or.inr ⟨pending, unread⟩
      have unread : ¬ c.Ended → c.recvBuffer ≠ [] := by
        rintro alive empty
        rcases told with ⟨_, status⟩ | ⟨_, unread⟩
        · exact alive ⟨status, Or.inl empty⟩
        · exact unread empty
      by_cases opening : c.status = .connecting
      · -- the connection stays where it is, and the loop does not come to its end
        have pending : conn ∈ s.pendingDataConnections ∧ c.recvBuffer ≠ [] := by
          rcases told with ⟨_, status⟩ | pending
          · cases opening.symm.trans status
          · exact pending
        have stuck : Stuck s.toTables := ⟨conn, pending.1, c, there, opening, pending.2⟩
        cases received with
        | some received =>
          obtain ⟨-, rfl, rfl⟩ := ends_pure.mp next
          exact ⟨outcome.1, .opening stuck⟩
        | none =>
          obtain ⟨heap, pendingData⟩ := outcome.waits opening
          have closed : ClosedListed v.toTables := by
            intro k closed
            rw [outcome.closed, ← same] at closed
            rw [heap, ← same]
            exact listed k (StdSet.mem_erase.mp closed).1
          have rest := ih closed next
          have stuck' : Stuck v.toTables := by
            rw [Stuck, heap, pendingData, ← same]
            exact stuck
          cases r with
          | some received => exact ⟨rest.1, .opening stuck⟩
          | none => exact absurd (.opening stuck') rest.1
      · have pending : c.recvBuffer ≠ [] → conn ∈ s.pendingDataConnections := by
          intro unread
          have hands : c.handsOver ≠ [] := by rwa [Connection.handsOver, if_neg opening]
          have pending := handed hands
          rw [← same] at pending
          exact pending
        cases received with
        | some received =>
          obtain ⟨-, rfl, rfl⟩ := ends_pure.mp next
          by_cases ended : c.Ended
          · exact ⟨outcome.1, .closed there (told.imp And.left And.left) ended⟩
          · refine ⟨outcome.1, .message (pending (unread ended)) fun silent => ?_⟩
            have its : s.unread conn = c.recvBuffer := by
              rw [Tables.unread, there]
              rfl
            rw [its] at silent
            have brings := outcome.2.resolve_left ended
            have held : u.buffered conn = s.buffered conn := by
              rw [← same]
              rfl
            rw [Connection.handsOver, if_neg opening, held] at brings
            exact absurd brings (not_lt.mpr (look_nothing.mpr silent))
        | none =>
          have emptied := emptied_of_passedOver reads here opening (unread outcome.alive) handed
            outcome same
          exact polled_after emptied (ih (emptied.closedListed listed) next)

theorem Awaits.of_same {s t : Tables} {held : ConnPtr → Bytes} (heap : t.heap = s.heap)
    (closed : t.remoteClosedConnections = s.remoteClosedConnections)
    (pending : t.pendingDataConnections = s.pendingDataConnections)
    (h : Awaits channel s held) : Awaits channel t held := by
  cases h with
  | opening stuck =>
    apply Awaits.opening
    rw [Stuck, heap, pending]
    exact stuck
  | closed here listed ended => exact .closed (heap ▸ here) (closed ▸ pending ▸ listed) ended
  | @message conn listed found =>
    apply Awaits.message (pending ▸ listed)
    rw [Tables.unread, heap]
    exact found

theorem Notices.of_same {s t : Tables} (heap : t.heap = s.heap)
    (closed : t.remoteClosedConnections = s.remoteClosedConnections)
    (pending : t.pendingDataConnections = s.pendingDataConnections)
    (held : t.buffered = s.buffered) (h : Notices channel s) : Notices channel t := by
  unfold Notices
  rw [held]
  exact h.imp id (Awaits.of_same heap closed pending)

theorem sift_returns (reads : flags &&& msgPeek = 0) {r : Received}
    (listed : ClosedListed s.toTables)
    (ends : Ends Fortunate (sift fuel length flags channel) s log r t) :
    r.1 ≠ 0 ∧ Notices channel s.toTables ∨ r.1 = 0 ∧ ¬ Notices channel s.toTables ∧
      ∀ k, t.buffered k = if k ∈ s.pendingDataConnections then
        passed channel (joined (passed channel (s.buffered k)) (s.unread k))
      else passed channel (s.buffered k) := by
  obtain ⟨l, drained, u, l', drain, ends, -⟩ := ends_bind.mp (ends_get_bind.mp ends)
  cases drained with
  | some received =>
    obtain ⟨pos, k, -, found⟩ := drainFrom_some drain
    obtain ⟨-, rfl, -⟩ := ends_pure.mp ends
    exact Or.inl ⟨ne_of_gt pos, Or.inl ⟨k, found⟩⟩
  | none =>
    obtain ⟨only, looked⟩ := drain_none drain
    have silent : ∀ k, Silent channel (s.buffered k) := fun k => look_nothing.mp (looked k).1
    have held : u.buffered = fun k => passed channel (s.buffered k) := by
      funext k
      rw [(looked k).2, Tables.look, look_left reads]
    have heap : u.heap = s.heap := by rw [only]
    have closed : u.remoteClosedConnections = s.remoteClosedConnections := by rw [only]
    have pending : u.pendingDataConnections = s.pendingDataConnections := by rw [only]
    have unread : ∀ k, u.unread k = s.unread k := by
      intro k
      rw [Tables.unread, heap]
      rfl
    obtain ⟨l, received, v, l', poll, ends, -⟩ := ends_bind.mp ends
    have listed' : ClosedListed u.toTables := by
      rw [ClosedListed, closed, heap]
      exact listed
    have polled := pollLoop_polled reads listed' poll
    cases received with
    | some received =>
      obtain ⟨-, rfl, -⟩ := ends_pure.mp ends
      have awaits := polled.2
      rw [held] at awaits
      exact Or.inl ⟨polled.1, Or.inr (awaits.of_same heap.symm closed.symm pending.symm)⟩
    | none =>
      obtain ⟨nothing, left⟩ := polled
      obtain ⟨l, _, w, l', accept, ends, -⟩ := ends_bind.mp ends
      obtain ⟨-, rfl, rfl⟩ := ends_pure.mp ends
      refine Or.inr ⟨rfl, ?_, fun k => ?_⟩
      · rintro (⟨k, found⟩ | awaits)
        · exact found (silent k)
        · apply nothing
          rw [held]
          exact awaits.of_same heap closed pending
      · rw [acceptLoop_buffered accept, left k, held, unread, pending]

theorem datagramRecv_returns {env : Externals} (reads : flags &&& msgPeek = 0) {r : Received}
    (listed : ClosedListed s.toTables)
    (ends : Ends Fortunate (humblenetDatagramRecv env fuel length flags channel) s log r t) :
    r.1 ≠ 0 ∧ Notices channel s.toTables ∨ r.1 = 0 ∧ ¬ Notices channel s.toTables ∧
      ∀ k, t.buffered k = if k ∈ s.pendingDataConnections then
        passed channel (joined (passed channel (s.buffered k)) (s.unread k))
      else passed channel (s.buffered k) := by
  rw [humblenetDatagramRecv_eq] at ends
  obtain ⟨l, _, u, l', flush, sifts, -⟩ := ends_bind.mp (ends_get_bind.mp ends)
  obtain ⟨outward, -⟩ := autoFlush_outward flush
  have heap := outward.heap
  have closed : u.remoteClosedConnections = s.remoteClosedConnections := by rw [outward.only]
  have pending : u.pendingDataConnections = s.pendingDataConnections := by rw [outward.only]
  have held : u.buffered = s.buffered := funext outward.buffered
  have unread : ∀ k, u.unread k = s.unread k := by
    intro k
    rw [Tables.unread, heap]
    rfl
  have listed' : ClosedListed u.toTables := by
    rw [ClosedListed, closed, heap]
    exact listed
  rcases sift_returns reads listed' sifts with ⟨some_, notices⟩ | ⟨zero, nothing, left⟩
  · exact Or.inl ⟨some_, notices.of_same heap.symm closed.symm pending.symm held.symm⟩
  · refine Or.inr ⟨zero, fun notices => nothing (notices.of_same heap closed pending held), ?_⟩
    intro k
    rw [left k, pending, held, unread]

theorem carries_left {s t : Tables} (nothing : ¬ Notices channel s)
    (left : ∀ k, t.buffered k = if k ∈ s.pendingDataConnections then
        passed channel (joined (passed channel (s.buffered k)) (s.unread k))
      else passed channel (s.buffered k)) (k : ConnPtr) :
    Carries channel (t.buffered k) ↔ Carries channel (s.arrived k) := by
  have silent : ∀ k, Silent channel (s.buffered k) := fun k =>
    by_contra fun found => nothing (Or.inl ⟨k, found⟩)
  rw [left k, Tables.arrived]
  split
  · rename_i listed
    have silent' : Silent channel (joined (passed channel (s.buffered k)) (s.unread k)) :=
      by_contra fun found => nothing (Or.inr (.message listed found))
    have once := carries_passed silent' []
    rw [List.append_nil, List.append_nil] at once
    exact once.trans (carries_joined (silent k) _)
  · have once := carries_passed (silent k) []
    rw [List.append_nil, List.append_nil] at once
    exact once

end loops

/-- In every state that a run comes to, a receive that returns zero has drained the buffers of
the channel exactly when it has something to tell, and does not return zero, or no connection
has received a message. -/
theorem zero_means_drained_iff (env : Externals)
    {pool : Pool Caller State Fault Query Query.Answer Unit}
    (run : Run env (fun _ _ => True) (.running pool)) {fuel length : Nat} {flags channel : UInt8}
    (reads : flags &&& msgPeek = 0) {log : ClientLog} {r : Received} {t : State}
    (ends : Ends Fortunate (humblenetDatagramRecv env fuel length flags channel) pool.state
      log r t) :
    (r.1 = 0 → ∀ conn dg, t.datagrams.lookup conn = some dg → ¬ Carries channel dg.bufIn) ↔
      Notices channel pool.state.toTables ∨
      ∀ conn, ¬ Carries channel (pool.state.arrived conn) := by
  constructor
  · intro drained
    refine or_iff_not_imp_left.mpr fun nothing conn carries => ?_
    rcases datagramRecv_returns reads (closedListed_of_run env run) ends with
      ⟨_, notices⟩ | ⟨zero, _, left⟩
    · exact nothing notices
    · have there := (carries_left nothing left conn).mpr carries
      cases entry : t.datagrams.lookup conn with
      | none =>
        rw [Tables.buffered, entry] at there
        exact not_carries_nil there
      | some dg =>
        rw [buffered_of_entry entry] at there
        exact drained zero conn dg entry there
  · intro condition zero conn dg entry carries
    rcases datagramRecv_returns reads (closedListed_of_run env run) ends with
      ⟨some_, _⟩ | ⟨_, nothing, left⟩
    · exact some_ zero
    · refine condition.elim nothing fun none => none conn ?_
      rw [← carries_left nothing left, buffered_of_entry entry]
      exact carries

def receiving (env : Externals) (channel : UInt8) :
    Config Caller State Fault Query Query.Answer Unit → Option (State × Received × State)
  | .running ⟨s, []⟩ =>
    ((humblenetDatagramRecv env 4 100 0 channel s).answered
      fun q t => answers (fun _ _ => True) q t t).map fun r => (s, r.2.1, r.2.2)
  | _ => none

theorem receiving_ends {env : Externals} {channel : UInt8}
    {c : Config Caller State Fault Query Query.Answer Unit} {s t : State} {r : Received}
    (h : receiving env channel c = some (s, r, t)) : c = .running ⟨s, []⟩ ∧
      ∃ log, Ends Fortunate (humblenetDatagramRecv env 4 100 0 channel) s log r t := by
  unfold receiving at h
  split at h
  · obtain ⟨x, ran, eq⟩ := Option.map_eq_some_iff.mp h
    cases eq
    have fortunate : ∀ (q : Query) (u : State) (a : q.Answer),
        answers (fun _ _ => True) q u u = some a → Fortunate q u a u := by
      intro q u a answer
      have permitted : (setting env fun _ _ => True).allowed q u a u :=
        answers_allowed env q u u a answer
      cases q with
      | malloc size => exact (Option.some.inj answer).symm
      | _ => exact permitted.1
    exact ⟨rfl, x.1, Course.ends_of_answered fortunate ran⟩
  · cases h

/-- A byte has come, less than a message: the receive returns zero. -/
theorem zero_means_drained_byte : ∃ s log r t, history offerThenRelay (fun _ _ => True)
      (introduction ++ [.webrtc 1 .established, .webrtc 1 .channelAccepted,
        .webrtc 1 (.channelReceive [7])]) = some (.running ⟨s, []⟩) ∧
    Ends Fortunate (humblenetDatagramRecv offerThenRelay 4 100 0 0) s log r t ∧ r.1 = 0 ∧
    ((r.1 = 0 → ∀ conn dg, t.datagrams.lookup conn = some dg → ¬ Carries 0 dg.bufIn) ↔
      Notices 0 s.toTables ∨ ∀ conn, ¬ Carries 0 (s.arrived conn)) := by
  have returned : ((history offerThenRelay (fun _ _ => True) (introduction ++
      [.webrtc 1 .established, .webrtc 1 .channelAccepted,
        .webrtc 1 (.channelReceive [7])])).bind (receiving offerThenRelay 0)).any (fun x =>
          decide (x.2.1.1 = 0)) = true := by decide +kernel
  obtain ⟨⟨s, r, t⟩, receives, zero⟩ := (Option.any_eq_true _ _).mp returned
  obtain ⟨c, h, receives⟩ := Option.bind_eq_some_iff.mp receives
  obtain ⟨rfl, log, ends⟩ := receiving_ends receives
  exact ⟨s, log, r, t, h, ends, of_decide_eq_true zero,
    zero_means_drained_iff _ (run_history _ h) (by decide) ends⟩

/-- An empty message and one of a byte, as a peer sends them. -/
def emptyThenFull : Packet × Packet := (⟨0, 0, 0, [], by decide⟩, ⟨0, 0, 1, [7], by decide⟩)

/-- The empty message is taken, the receive returns zero, and the other stays. -/
theorem zero_not_drained : ∃ s log r t, history offerThenRelay (fun _ _ => True)
      (introduction ++ [.webrtc 1 .established, .webrtc 1 .channelAccepted,
        .webrtc 1 (.channelReceive (emptyThenFull.1.bytes ++ emptyThenFull.2.bytes))]) =
        some (.running ⟨s, []⟩) ∧
    Run offerThenRelay (fun _ _ => True) (.running ⟨s, []⟩) ∧
    (∀ conn dg, s.datagrams.lookup conn = some dg → dg.bufIn.length < 2 ^ 16) ∧
    Ends Fortunate (humblenetDatagramRecv offerThenRelay 4 100 0 0) s log r t ∧
    ¬ (r.1 = 0 → ∀ conn dg, t.datagrams.lookup conn = some dg → ¬ Carries 0 dg.bufIn) := by
  have returned : ((history offerThenRelay (fun _ _ => True) (introduction ++
      [.webrtc 1 .established, .webrtc 1 .channelAccepted, .webrtc 1 (.channelReceive
        (emptyThenFull.1.bytes ++ emptyThenFull.2.bytes))])).bind
          (receiving offerThenRelay 0)).any (fun x => decide (x.1.datagrams.keys = []) &&
            decide (x.2.1.1 = 0) && (x.2.2.datagrams.lookup 1).any fun dg =>
              decide (dg.bufIn = emptyThenFull.2.bytes)) = true := by decide +kernel
  obtain ⟨⟨s, r, t⟩, receives, left⟩ := (Option.any_eq_true _ _).mp returned
  obtain ⟨c, h, receives⟩ := Option.bind_eq_some_iff.mp receives
  obtain ⟨rfl, log, ends⟩ := receiving_ends receives
  simp only [Bool.and_eq_true, decide_eq_true_eq] at left
  obtain ⟨⟨new, zero⟩, entry⟩ := left
  obtain ⟨dg, there, held⟩ := (Option.any_eq_true _ _).mp entry
  refine ⟨s, log, r, t, h, run_history _ h, fun conn dg there => ?_, ends, fun drained => ?_⟩
  · have mem : conn ∈ s.datagrams := StdMap.mem_iff_lookup.mpr ⟨dg, there⟩
    rw [AList.mem_keys, new] at mem
    exact absurd mem List.not_mem_nil
  · apply drained zero 1 dg there
    have one : packets dg.bufIn = [emptyThenFull.2] := by
      have whole : dg.bufIn = packetCodec.encodeAll [emptyThenFull.2] := by
        rw [of_decide_eq_true held, Codec.encodeAll_cons, Codec.encodeAll_nil, List.append_nil]
        rfl
      rw [whole, packets, Codec.records_encodeAll]
    exact ⟨emptyThenFull.2, one ▸ List.mem_singleton.mpr rfl, rfl, List.cons_ne_nil 7 []⟩

end HumbleNet.Client
