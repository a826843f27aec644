import HumbleNet.Client.Sending
import HumbleNet.Client.Turns
import HumbleNet.Relay

/-! What a flush hands to the outside, and what it keeps. The buffer is emptied after every
write, whatever the write has come to. -/
namespace HumbleNet.Client

open Guarded Relay

variable {env : Externals} {s t : State} {log : ClientLog}

/-- What the outside takes of the bytes of a connection: of a write to its channel the part
that is accepted, of a relay message that is accepted whole the data that its reader gets. -/
def handedOf (env : Externals) : (q : Query) × q.Answer → Bytes
  | ⟨.libwebrtcWrite _ buf, retval⟩ => buf.take (Int.toNat retval)
  | ⟨.libwebsocketWrite _ buf, retval⟩ =>
    if retval = (buf.length : Int) then
      match env.getMessage (buf.drop peerOffsetSize) with
      | .p2pRelayData (some ⟨_, some data⟩) => data
      | _ => []
    else []
  | _ => []

def handed (env : Externals) (log : ClientLog) : Bytes := log.flatMap (handedOf env)

/-- The outside is offered the whole buffer in one call, and accepts all of it. The length of
a relay message is a `uint16_t`. -/
def TakesAll (env : Externals) (s : State) (c : Connection) (buf : Bytes) (log : ClientLog) :
    Prop :=
  if usesRelay s.hints then
    buf.length < 2 ^ 16 ∧ ∃ wsi, (⟨.libwebsocketWrite wsi (frame env (relayMsg c.otherPeer buf)),
      ((frame env (relayMsg c.otherPeer buf)).length : Int)⟩ : (q : Query) × q.Answer) ∈ log
  else ∃ socket, (⟨.libwebrtcWrite socket buf, (buf.length : Int)⟩ : (q : Query) × q.Answer) ∈ log

theorem handedOf_relay (decodes : Decodes env) {peer : PeerId} {data : Bytes}
    (short : data.length < 2 ^ 16) (wsi : Wsi) (retval : Int) :
    handedOf env ⟨.libwebsocketWrite wsi (frame env (relayMsg peer data)), retval⟩ =
      if retval = ((frame env (relayMsg peer data)).length : Int) then data else [] := by
  have body : (frame env (relayMsg peer data)).drop peerOffsetSize =
      (env.finish (relayMsg peer data)).bytes := by
    unfold frame p2pMessageFrame
    exact List.drop_left' (by simp only [List.length_append, writeScalar32_length, peerOffsetSize])
  dsimp only [handedOf]
  rw [body, decodes peer data short]
  rfl

/-! ### One write -/

theorem internalWriteSocket_log {socket : Option SocketPtr} {buf : Bytes} {ret : Int}
    (ends : Runs (internalWriteSocket socket buf) s log ret t) :
    (∃ socket' retval, log = [⟨.libwebrtcWrite socket' buf, retval⟩] ∧
      retval ≤ (buf.length : Int)) ∨ log = [⟨.pause, ()⟩] := by
  cases socket with
  | none => exact absurd ends ends_fault
  | some socket =>
    rw [internalWriteSocket, derefSocket, bind_assoc] at ends
    obtain ⟨it, there, ends⟩ := ends_through_bind.mp (ends_get_bind.mp ends)
    split at ends
    · cases ends with
      | released answer ends =>
        cases ends
        exact Or.inl ⟨_, _, rfl, answer.2⟩
    · obtain ⟨_, l, answer, last, rfl⟩ := ends_unguarded_bind.mp ends
      obtain ⟨rfl, -, -⟩ := ends_pure.mp last
      exact Or.inr rfl

theorem sendP2PMessage_log {msg : Message} {sent : Bool}
    (ends : Runs (sendP2PMessage env msg) s log sent t) :
    log = [] ∨ ∃ wsi retval, log = [⟨.libwebsocketWrite wsi (frame env msg), retval⟩] := by
  replace ends := ends_get_bind.mp ends
  split at ends
  · exact Or.inl (ends_pure.mp ends).1
  · split at ends
    · exact Or.inl (ends_pure.mp ends).1
    · obtain ⟨ret, l, answer, last, rfl⟩ := ends_unguarded_bind.mp ends
      obtain ⟨rfl, -, -⟩ := ends_pure.mp last
      exact Or.inr ⟨_, _, rfl⟩

theorem handed_channel_iff {socket : SocketPtr} {buf : Bytes} {n : Nat} {retval : Int}
    (bound : retval ≤ ((buf.take n).length : Int)) (nonempty : buf ≠ []) :
    handed env [⟨.libwebrtcWrite socket (buf.take n), retval⟩] = buf ↔
      ∃ socket', (⟨.libwebrtcWrite socket' buf, (buf.length : Int)⟩ : (q : Query) × q.Answer) ∈
        ([⟨.libwebrtcWrite socket (buf.take n), retval⟩] : ClientLog) := by
  have pos : 0 < buf.length := List.length_pos_iff.mpr nonempty
  have eq : handed env [⟨.libwebrtcWrite socket (buf.take n), retval⟩] =
      (buf.take n).take retval.toNat := List.append_nil _
  constructor
  · intro all
    rw [eq] at all
    have length := congrArg List.length all
    rw [List.length_take, List.length_take] at length
    rw [List.length_take] at bound
    have whole : buf.take n = buf := List.take_of_length_le (by omega)
    have accepted : retval = (buf.length : Int) := by omega
    exact ⟨socket, by rw [whole, accepted]; exact List.mem_singleton_self _⟩
  · rintro ⟨socket', mem⟩
    have same := congrArg (handedOf env) (List.mem_singleton.mp mem)
    have all : handedOf env ⟨.libwebrtcWrite socket' buf, (buf.length : Int)⟩ = buf :=
      List.take_length
    rw [eq]
    exact same.symm.trans all

theorem handed_relay_iff (decodes : Decodes env) {wsi : Wsi} {peer : PeerId} {buf : Bytes}
    {n : UInt16} {retval : Int} (nonempty : buf ≠ []) :
    handed env [⟨.libwebsocketWrite wsi (frame env (relayMsg peer (buf.take n.toNat))), retval⟩] =
        buf ↔
      buf.length < 2 ^ 16 ∧ ∃ wsi', (⟨.libwebsocketWrite wsi' (frame env (relayMsg peer buf)),
        ((frame env (relayMsg peer buf)).length : Int)⟩ : (q : Query) × q.Answer) ∈
        ([⟨.libwebsocketWrite wsi (frame env (relayMsg peer (buf.take n.toNat))), retval⟩] :
          ClientLog) := by
  have part : (buf.take n.toNat).length < 2 ^ 16 := by
    have := n.toNat_lt
    rw [List.length_take]
    omega
  have eq : handed env
      [⟨.libwebsocketWrite wsi (frame env (relayMsg peer (buf.take n.toNat))), retval⟩] =
      if retval = ((frame env (relayMsg peer (buf.take n.toNat))).length : Int)
        then buf.take n.toNat else [] :=
    (List.append_nil _).trans (handedOf_relay decodes part wsi retval)
  constructor
  · intro all
    rw [eq] at all
    split at all
    · rename_i accepted
      refine ⟨all ▸ part, wsi, ?_⟩
      rw [accepted, all]
      exact List.mem_singleton_self _
    · exact absurd all.symm nonempty
  · rintro ⟨short, wsi', mem⟩
    have same := congrArg (handedOf env) (List.mem_singleton.mp mem)
    rw [handedOf_relay decodes short, if_pos rfl, handedOf_relay decodes part] at same
    rw [eq]
    exact same.symm

theorem write_handed_iff (decodes : Decodes env) {conn : ConnPtr} {c : Connection} {buf : Bytes}
    {ret : Int} (here : s.heap.lookup conn = some c) (connected : c.status = .connected)
    (nonempty : buf ≠ [])
    (ends : Runs (humblenetConnectionWrite env conn buf (UInt32.ofNat buf.length)) s log ret t) :
    handed env log = buf ↔ TakesAll env s c buf log := by
  obtain ⟨c', here', ends⟩ := ends_deref_bind.mp ends
  rw [here] at here'
  cases here'
  rw [connected] at ends
  obtain ⟨-, ends⟩ := ends_assert_bind.mp ends
  replace ends := ends_get_bind.mp ends
  unfold TakesAll
  split at ends
  · rename_i relays
    rw [if_pos relays]
    obtain ⟨l, sent, u, l', send, last, rfl⟩ := ends_bind.mp ends
    have nothing : l' = [] := by
      split at last
      · exact (ends_pure.mp last).1
      · exact (ends_pure.mp last).1
    rw [nothing, List.append_nil]
    rcases sendP2PMessage_log send with rfl | ⟨wsi, retval, rfl⟩
    · refine iff_of_false (fun all => nonempty all.symm) ?_
      rintro ⟨_, _, mem⟩
      exact absurd mem List.not_mem_nil
    · exact handed_relay_iff decodes nonempty
  · rename_i direct
    rw [if_neg direct]
    rcases internalWriteSocket_log ends with ⟨socket, retval, rfl, bound⟩ | rfl
    · exact handed_channel_iff bound nonempty
    · refine iff_of_false (fun all => nonempty all.symm) ?_
      rintro ⟨socket, mem⟩
      have same := congrArg Sigma.fst (List.mem_singleton.mp mem)
      cases same

/-! ### The flush -/

/-- After a flush the bytes that the outside has taken, and then what is still queued, are
what was queued before, exactly when nothing was to be sent, the connection could not be
written to, or the outside took all of it. -/
theorem flush_conserves_iff (decodes : Decodes env) {conn : ConnPtr} {dg : DatagramConnection}
    {c : Connection} (there : s.datagrams.lookup conn = some dg)
    (here : s.heap.lookup dg.conn = some c)
    (ends : Runs (datagramFlush env conn) s log () t) :
    ∃ dg', t.datagrams.lookup conn = some dg' ∧
      (handed env log ++ dg'.bufOut = dg.bufOut ↔
        dg.bufOut = [] ∨ ¬ (c.status = .connected ∧ c.writable = true) ∨
          TakesAll env s c dg.bufOut log) := by
  obtain ⟨dg', there', ends⟩ := ends_derefDatagram_bind.mp ends
  rw [there] at there'
  cases there'
  split at ends
  · rename_i empty
    obtain ⟨rfl, -, rfl⟩ := ends_pure.mp ends
    exact ⟨dg, there, iff_of_true rfl (Or.inl (List.isEmpty_iff.mp empty))⟩
  rename_i nonempty
  have nonempty : dg.bufOut ≠ [] := fun empty => nonempty (List.isEmpty_iff.mpr empty)
  obtain ⟨l, writable, u, l', test, next, rfl⟩ := ends_bind.mp ends
  obtain ⟨rfl, rfl, open'⟩ : l = [] ∧ u = s ∧
      (writable = true ↔ c.status = .connected ∧ c.writable = true) := by
    obtain ⟨c', here', test⟩ := ends_deref_bind.mp test
    rw [here] at here'
    cases here'
    split at test
    · rename_i connected
      obtain ⟨rfl, rfl, rfl⟩ := ends_pure.mp test
      exact ⟨rfl, rfl, by simp [connected]⟩
    · rename_i unconnected
      obtain ⟨rfl, rfl, rfl⟩ := ends_pure.mp test
      exact ⟨rfl, rfl, by simp [unconnected]⟩
  rw [List.nil_append]
  split at next
  · rename_i writes
    have opened := open'.mp writes
    obtain ⟨l, ret, v, l', write, next, rfl⟩ := ends_bind.mp next
    cases connectionWrite_same write
    obtain ⟨l'', _, w, l''', clear, last, rfl⟩ := ends_bind.mp next
    obtain ⟨rfl, same⟩ : l'' = [] ∧ w.datagrams = u.datagrams := by
      unfold doWhen at clear
      split at clear
      · obtain ⟨rfl, rfl⟩ := ends_modify.mp clear
        exact ⟨rfl, rfl⟩
      · obtain ⟨rfl, -, rfl⟩ := ends_pure.mp clear
        exact ⟨rfl, rfl⟩
    obtain ⟨dg', entry, last⟩ := ends_derefDatagram_bind.mp last
    obtain ⟨rfl, rfl⟩ := ends_modify.mp last
    rw [List.nil_append, List.append_nil]
    refine ⟨_, StdMap.lookup_modify_some.mpr ⟨dg', entry, if_pos rfl⟩, ?_⟩
    rw [List.append_nil, write_handed_iff decodes here opened.1 nonempty write]
    constructor
    · exact fun all => Or.inr (Or.inr all)
    · rintro (empty | closed | all)
      · exact absurd empty nonempty
      · exact absurd opened closed
      · exact all
  · rename_i waits
    obtain ⟨rfl, -, rfl⟩ := ends_pure.mp next
    exact ⟨dg, there, iff_of_true rfl (Or.inr (Or.inl fun opened => waits (open'.mpr opened)))⟩

def writeAnswers (retval : Int) : (q : Query) → State → Option q.Answer
  | .libwebrtcWrite _ _, _ => some retval
  | _, _ => none

theorem writeAnswers_allowed {retval : Int} (low : -1 ≤ retval) (high : retval ≤ 0) (q : Query)
    (s : State) (a : q.Answer) (h : writeAnswers retval q s = some a) : q.Allowed s a s := by
  cases q with
  | libwebrtcWrite socket buf =>
    cases h
    exact ⟨low, Int.le_trans high (Int.natCast_nonneg _)⟩
  | _ => cases h

def queuedPacket : State :=
  { State.initial with
    heap := StdMap.emplace 1 (endTo 2) ∅
    sockets := StdMap.emplace 7 { InternalSocket.new with webrtcChannel := true } ∅
    datagrams := StdMap.emplace 1 { DatagramConnection.new 1 2 with bufOut := [5], queued := 1 } ∅ }

theorem flush_of_queuedPacket : ∃ log t dg',
    Runs (datagramFlush relaying 1) queuedPacket log () t ∧ t.datagrams.lookup 1 = some dg' ∧
      (handed relaying log ++ dg'.bufOut = [5] ↔
        ([5] : Bytes) = [] ∨ ¬ ((endTo 2).status = .connected ∧ (endTo 2).writable = true) ∨
          TakesAll relaying queuedPacket (endTo 2) [5] log) := by
  have ran : ((datagramFlush relaying 1 queuedPacket).answered (writeAnswers 0)).isSome = true := by
    decide +kernel
  obtain ⟨r, h⟩ := Option.isSome_iff_exists.mp ran
  have ends : Runs (datagramFlush relaying 1) queuedPacket r.1 () r.2.2 :=
    Course.ends_of_answered (writeAnswers_allowed (by decide) (by decide)) h
  obtain ⟨dg', there, kept⟩ := flush_conserves_iff relaying_decodes rfl rfl ends
  exact ⟨r.1, r.2.2, dg', ends, there, kept⟩

def refusedFlush : Config Caller State Fault Query Query.Answer Unit → Option (Bytes × Bytes × Bytes)
  | .running ⟨s, []⟩ =>
    (s.datagrams.lookup 1).bind fun dg =>
      ((datagramFlush welcome 1 s).answered (writeAnswers (-1))).bind fun r =>
        (r.2.2.datagrams.lookup 1).bind fun dg' =>
          if (r.2.2.heap.lookup 1).any fun c => decide (c.status = .connected) then
            some (dg.bufOut, handed welcome r.1, dg'.bufOut)
          else none
  | _ => none

/-- A reliable message waits for the connection, the channel refuses it, and it is gone, while
the connection stays open. -/
theorem flush_drops : ∃ s dg log t dg' c,
    history welcome (fun _ _ => True) (introduction ++ [.sendto [1] 9 1 0, .webrtc 1 .established,
      .webrtc 1 .channelConnected]) = some (.running ⟨s, []⟩) ∧
    Run welcome (fun _ _ => True) (.running ⟨s, []⟩) ∧ s.datagrams.lookup 1 = some dg ∧
    Runs (datagramFlush welcome 1) s log () t ∧ t.datagrams.lookup 1 = some dg' ∧
    t.heap.lookup 1 = some c ∧ c.status = .connected ∧
    handed welcome log ++ dg'.bufOut ≠ dg.bufOut := by
  have dropped : ((history welcome (fun _ _ => True) (introduction ++ [.sendto [1] 9 1 0,
      .webrtc 1 .established, .webrtc 1 .channelConnected])).bind refusedFlush) =
      some ([1, 0, 0, 0, 0, 0, 0, 0, 1], [], []) := by decide +kernel
  obtain ⟨c, h, refused⟩ := Option.bind_eq_some_iff.mp dropped
  unfold refusedFlush at refused
  split at refused
  · rename_i s
    obtain ⟨dg, there, refused⟩ := Option.bind_eq_some_iff.mp refused
    obtain ⟨r, ran, refused⟩ := Option.bind_eq_some_iff.mp refused
    obtain ⟨dg', there', refused⟩ := Option.bind_eq_some_iff.mp refused
    have ends : Runs (datagramFlush welcome 1) s r.1 () r.2.2 :=
      Course.ends_of_answered (writeAnswers_allowed (by decide) (by decide)) ran
    split at refused
    · rename_i opened
      obtain ⟨c, here, connected⟩ := (Option.any_eq_true _ _).mp opened
      simp only [Option.some.injEq, Prod.mk.injEq] at refused
      obtain ⟨before, given, after⟩ := refused
      refine ⟨s, dg, r.1, r.2.2, dg', c, h, run_history _ h, there, ends, there', here,
        of_decide_eq_true connected, ?_⟩
      rw [before, given, after]
      decide
    · cases refused
  · cases refused

end HumbleNet.Client
