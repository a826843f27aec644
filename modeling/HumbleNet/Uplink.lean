import HumbleNet.Client.SignalStream
import HumbleNet.PeerServer.Arrivals

/-! The signaling stream from a client to the server. The client writes a frame for each message
it sends, the transport carries the bytes that were accepted and cuts them as it likes, and the
server processes the messages it can read: in the order of sending, none of them twice, and none
is passed over. -/
namespace HumbleNet.Uplink

open Program Incremental Fragmentation Client PeerServer

section

variable {env : Externals} {wsi : Client.Wsi} {past : List (State × SignalAct)} {c : State}

theorem reported_accepted (run : SignalRun env wsi past c) (unbroken : Unbroken past) :
    (reportedSent past).flatMap (frame env) <+: accepted past := by
  induction run with
  | start here => exact List.nil_prefix
  | @next past s t act before step ih =>
    obtain ⟨earlier, whole⟩ := unbroken
    have sofar := ih earlier
    have longer : accepted past <+: accepted ((s, act) :: past) := List.prefix_append _ _
    cases step with
    | send ends accepts =>
      rcases (sendP2PMessage_ends ends).2 with ⟨rfl, rfl⟩ | ⟨w, retval, rfl, rfl⟩
      · simpa [reportedSent] using sofar.trans longer
      · rename_i msg
        by_cases all : retval = (frame env msg).length
        · have taken : (frame env msg).take retval.toNat = frame env msg := by
            rw [all, Int.toNat_natCast, List.take_length]
          -- something was accepted, so no frame had been cut off
          have unbroken : ¬ Broken past := by
            intro broken
            have nothing := whole broken
            have pos : 0 < (frame env msg).length := frame_pos msg
            simp only [SignalAct.accepted, SignalAct.log, List.flatMap_cons, List.flatMap_nil,
              acceptedOf, List.append_nil, taken] at nothing
            rw [nothing] at pos
            exact Nat.lt_irrefl 0 pos
          rcases run_ends before earlier with ⟨_, eq, _⟩ | ⟨broken, _⟩
          · simp [reportedSent, accepted, SignalAct.accepted, SignalAct.log, acceptedOf, all, eq]
          · exact absurd broken unbroken
        · simpa [reportedSent, all] using sofar.trans longer
    | writable ends accepts => exact sofar.trans longer
    | other same => exact sofar.trans longer

/-- A reader gets back what the client has built. -/
def Readable (env : Externals) (m : Message) : Prop :=
  env.verifyMessageBuffer (env.finish m).bytes = true ∧ env.getMessage (env.finish m).bytes = m

theorem frame_reads {m : Message} (readable : Readable env m) (more : Bytes) :
    (frameReader env.verifyMessageBuffer).read (frame env m ++ more) =
      .item (env.finish m).bytes (frame env m).length :=
  frame_read env.verifyMessageBuffer (env.finish m) readable.1 more

theorem whole_frames {kept sent : List Message} (readable : ∀ m ∈ kept, Readable env m)
    (among : sent <+: kept) {n : Nat} {rest : Bytes} (waits : Waits env rest)
    (written : sent.flatMap (frame env) <+: (kept.take n).flatMap (frame env) ++ rest) :
    sent <+: kept.take n := by
  rcases Nat.le_total sent.length (kept.take n).length with le | le
  · exact List.prefix_of_prefix_length_le among (List.take_prefix n kept) le
  · obtain ⟨later, rfl⟩ := List.prefix_of_prefix_length_le (List.take_prefix n kept) among le
    cases later with
    | nil => simp
    | cons m later =>
      -- then a whole frame would be left over
      have front : frame env m ++ later.flatMap (frame env) <+: rest := by
        simpa using written
      obtain ⟨more, rfl⟩ := front
      have there : m ∈ kept := among.subset (by simp)
      have item := frame_reads (readable m there) (later.flatMap (frame env) ++ more)
      rw [← List.append_assoc, waits.read] at item
      cases item

theorem sent_front (run : SignalRun env wsi past c) (unbroken : Unbroken past)
    (readable : ∀ m ∈ offered past, Readable env m) {bytes : Bytes}
    (arrived : bytes <+: accepted past) :
    ∃ kept n rest, kept.Sublist (offered past) ∧ reportedSent past <+: kept ∧
      bytes = (kept.take n).flatMap (frame env) ++ rest ∧ Waits env rest ∧
      (bytes = accepted past → reportedSent past <+: kept.take n) := by
  have framed : Framed env past := by
    rcases run_ends run unbroken with ⟨_, eq, sub⟩ | ⟨_, msg, le, sub⟩
    · exact ⟨_, List.prefix_refl _, sub, eq ▸ List.prefix_refl _⟩
    · exact ⟨_, List.prefix_append _ _, sub, le⟩
  obtain ⟨kept, reported, sub, le⟩ := framed
  have readable' : ∀ m ∈ kept, Readable env m := fun m there => readable m (sub.subset there)
  obtain ⟨n, rest, split, more⟩ := encoded_prefix (frameReader env.verifyMessageBuffer)
    (frame env) (fun m => (env.finish m).bytes) kept
    (fun m there => frame_reads (readable' m there)) (arrived.trans le)
  have waits : Waits env rest := waits_of_read more
  refine ⟨kept, n, rest, sub, reported, split, waits, fun all => ?_⟩
  refine whole_frames readable' reported waits ?_
  rw [← split, all]
  exact reported_accepted run unbroken

/-- The client's messages reach the server. What it processes is a front part of what was
sent, in that order; and once all accepted bytes are there, every message that was reported as
sent has been processed. -/
theorem sent_messages_processed (run : SignalRun env wsi past c) (unbroken : Unbroken past)
    (readable : ∀ m ∈ offered past, Readable env m) (bits : env.sizeBits = 64) {s : Server}
    {w : PeerServer.Wsi} {conn : PeerServer.ConnPtr} {peer : PeerServer.P2PSignalConnection}
    (owned : s.signalConnections.lookup w = some conn)
    (live : s.connections.lookup conn = some peer) (empty : peer.recvBuf = [])
    (chunks : List Chunk) (arrived : (chunks.map Chunk.bytes).flatten <+: accepted past) :
    ∃ kept processed rest, kept.Sublist (offered past) ∧ reportedSent past <+: kept ∧
      processed <+: kept ∧
      ((chunks.map Chunk.bytes).flatten = accepted past → reportedSent past <+: processed) ∧
      Matched (Alongside conn) Eq (receiveAll env w chunks s) (processAll env conn processed s) ∧
      ∀ t, Returns (processAll env conn processed) s true t →
        Returns (receiveAll env w chunks) s true (t.withBuf conn rest) := by
  obtain ⟨kept, n, rest, sub, reported, split, waits, whole⟩ :=
    sent_front run unbroken readable arrived
  have readable' : ∀ m ∈ kept, Readable env m := fun m there => readable m (sub.subset there)
  have cut : (chunks.map Chunk.bytes).flatten =
      (((kept.take n).map env.finish).map fun b => p2pMessageFrame b.bytes).flatten ++ rest := by
    rw [split, List.flatMap_def, List.map_map]
    rfl
  have back : ((kept.take n).map env.finish).map (fun b => env.getMessage b.bytes) =
      kept.take n := by
    have each : ∀ m ∈ kept.take n, env.getMessage (env.finish m).bytes = m :=
      fun m mem => (readable' m (List.mem_of_mem_take mem)).2
    rw [List.map_map]
    exact (List.map_congr_left each).trans (List.map_id _)
  have good : ∀ b ∈ (kept.take n).map env.finish, env.verifyMessageBuffer b.bytes = true := by
    intro b there
    obtain ⟨m, mem, rfl⟩ := List.mem_map.mp there
    exact (readable' m (List.mem_of_mem_take mem)).1
  have received := receive_frames bits owned live empty _ good waits chunks cut
  rw [back] at received
  exact ⟨kept, kept.take n, rest, sub, reported, List.take_prefix n kept, whole, received.1,
    received.2⟩

end

def hailing : Externals := { terse with getMessage := fun _ => greeting }

/-- A client says hello; the frame arrives in two pieces and the server processes it. -/
theorem hello_processed : ∃ t, Returns (receiveAll hailing 1
    [⟨(frame hailing greeting).take 3, fun _ => [255]⟩,
      ⟨(frame hailing greeting).drop 3, fun _ => []⟩]) oneOpened true t := by
  have sends : Runs (sendP2PMessage hailing greeting) signalOpened
      [⟨.libwebsocketWrite 1 (frame hailing greeting), (9 : Int)⟩] true signalOpened :=
    .released ⟨by decide, by decide⟩ (.done _ _)
  have accepts : ∀ call ∈ ([⟨.libwebsocketWrite 1 (frame hailing greeting), (9 : Int)⟩] :
      ClientLog), Accepts call := by
    intro call mem
    rw [List.mem_singleton.mp mem]
    exact ⟨by decide, by decide⟩
  have run : SignalRun hailing 1 [(signalOpened, .send greeting _ true)] signalOpened :=
    .next (.start ⟨0, [], rfl⟩) (.send sends accepts)
  have unbroken : Unbroken [(signalOpened, SignalAct.send greeting
      [⟨.libwebsocketWrite 1 (frame hailing greeting), (9 : Int)⟩] true)] := by
    refine ⟨trivial, fun ⟨m, mem, _⟩ => ?_⟩
    cases mem
  have readable : ∀ m ∈ ([greeting] : List Message), Readable hailing m := by
    intro m mem
    rw [List.mem_singleton.mp mem]
    exact ⟨rfl, rfl⟩
  obtain ⟨kept, processed, rest, sub, _, among, all, _, returns⟩ :=
    @sent_messages_processed _ _ _ _ run unbroken readable rfl oneOpened 1 10 _ rfl rfl rfl
      [⟨(frame hailing greeting).take 3, fun _ => [255]⟩,
        ⟨(frame hailing greeting).drop 3, fun _ => []⟩] (by decide)
  have whole : [greeting] <+: processed := all (by decide)
  have short : processed.Sublist [greeting] := among.sublist.trans sub
  have only : processed = [greeting] :=
    (whole.sublist.eq_of_length_le short.length_le).symm
  subst only
  exact ⟨_, returns _ rfl⟩

end HumbleNet.Uplink
