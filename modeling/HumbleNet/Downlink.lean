import HumbleNet.Client.Arrivals
import HumbleNet.Client.Run
import HumbleNet.PeerServer.Wire
import HumbleNet.Uplink

/-! The signaling stream from the server to a client. What the server queues for a connection
leaves it in frames as the websocket accepts bytes, and the client at the other end processes
the messages it can read: in the order of queueing, none of them twice, and none is passed
over. -/
namespace HumbleNet.Downlink

open Program Incremental Fragmentation PeerServer

section

variable {env : Externals} {conn : ConnPtr} {s : Server} {past : List (Server × Deed)}

theorem front_processed {msgs : List Message} {accepted left : Bytes}
    (account : accepted ++ left = msgs.flatMap (Client.frame env)) (bits : env.sizeBits = 64)
    (readable : ∀ m ∈ msgs, Uplink.Readable env m) {v : Client.State}
    {signal : Client.P2PSignalConnection} {wsi : Client.Wsi} (here : v.p2pConn = some signal)
    (open_wsi : signal.wsi = some wsi) (empty : signal.recvBuf = []) (fuel : Nat)
    (chunks : List Chunk) (arrived : (chunks.map Chunk.bytes).flatten <+: accepted)
    (enough : (chunks.map Chunk.bytes).flatten.length ≤ fuel) :
    ∃ processed rest, processed <+: msgs ∧
      ((chunks.map Chunk.bytes).flatten = accepted → left = [] → processed = msgs) ∧
      ∀ log ok w, Client.Runs (Client.receiveAll env wsi fuel chunks) v log ok w ↔
        ∃ u, Client.Runs (Client.processAll env processed) v log ok u ∧
          w = if ok then u.withRecv rest else { u with p2pConn := none } := by
  have reads : ∀ m ∈ msgs, ∀ more, _ := fun m there => Uplink.frame_reads (readable m there)
  have front : (chunks.map Chunk.bytes).flatten <+: msgs.flatMap (Client.frame env) :=
    arrived.trans ⟨left, account⟩
  obtain ⟨n, rest, split, more⟩ := encoded_prefix (frameReader env.verifyMessageBuffer)
    (Client.frame env) (fun m => (env.finish m).bytes) msgs reads front
  have among : ∀ m ∈ msgs.take n, m ∈ msgs := fun m there => List.mem_of_mem_take there
  have found : Client.heard env (chunks.map Chunk.bytes).flatten =
      ⟨(msgs.take n).map fun m => (env.finish m).bytes, rest, true⟩ := by
    rw [split]
    exact collect_encoded _ _ _ (fun m there => reads m (among m there)) more
  have back : ((msgs.take n).map fun m => (env.finish m).bytes).map env.getMessage =
      msgs.take n := by
    rw [List.map_map]
    exact (List.map_congr_left fun m there => (readable m (among m there)).2).trans
      (List.map_id _)
  refine ⟨msgs.take n, rest, List.take_prefix n msgs, fun all drained => ?_, ?_⟩
  · have whole : (msgs.take n).flatMap (Client.frame env) ++ rest =
        msgs.flatMap (Client.frame env) := by
      rw [← split, all, ← account, drained, List.append_nil]
    have sent := Uplink.whole_frames readable (List.prefix_refl msgs) (waits_of_read more)
      ⟨[], (List.append_nil _).trans whole.symm⟩
    exact (sent.eq_of_length_le (List.take_prefix n msgs).length_le).symm
  · intro log ok w
    have run := @Client.receiveAll_iff env v w log signal bits here wsi open_wsi fuel chunks []
      (frameReader env.verifyMessageBuffer).read_nil enough ok
    have blank : v.withRecv [] = v := empty ▸ Client.withRecv_self here
    rw [blank, List.nil_append] at run
    rw [run, Client.Hears, found, back]
    simp only [Client.afterStream, found, Bool.and_true]
    constructor
    · rintro ⟨_, u, ends, rfl, rfl⟩
      exact ⟨u, ends, rfl⟩
    · rintro ⟨u, ends, rfl⟩
      exact ⟨ok, u, ends, rfl, rfl⟩

/-- What the server has queued for a connection reaches its client. Whenever the client has
been given the accepted bytes up to some point, cut anyhow, and nobody interrupts it, it has
processed the first of the queued messages, one after the other, unless it refused one; and all
of them if everything has been accepted and has arrived. -/
theorem queued_messages_processed (history : History env past s)
    {c : PeerServer.P2PSignalConnection} (live : s.connections.lookup conn = some c) :
    ∃ msgs, Talk env conn past s msgs ∧
      acceptedAt conn past ++ c.sendBuf = msgs.flatMap (Client.frame env) ∧
      ∀ (v : Client.State) (signal : Client.P2PSignalConnection) (wsi : Client.Wsi) (fuel : Nat)
        (chunks : List Chunk), env.sizeBits = 64 → (∀ m ∈ msgs, Uplink.Readable env m) →
        v.p2pConn = some signal → signal.wsi = some wsi → signal.recvBuf = [] →
        (chunks.map Chunk.bytes).flatten <+: acceptedAt conn past →
        (chunks.map Chunk.bytes).flatten.length ≤ fuel →
        ∃ processed rest, processed <+: msgs ∧
          ((chunks.map Chunk.bytes).flatten = acceptedAt conn past → c.sendBuf = [] →
            processed = msgs) ∧
          ∀ log ok w, Client.Runs (Client.receiveAll env wsi fuel chunks) v log ok w ↔
            ∃ u, Client.Runs (Client.processAll env processed) v log ok u ∧
              w = if ok then u.withRecv rest else { u with p2pConn := none } := by
  obtain ⟨msgs, talk, account⟩ := history_accounts history live
  refine ⟨msgs, talk, account, ?_⟩
  intro v signal wsi fuel chunks bits readable here open_wsi empty arrived enough
  exact front_processed account bits readable here open_wsi empty fuel chunks arrived enough

theorem readable_of_bodies {msgs : List Message} {bytes : Bytes} {bodies : List Bytes}
    (verified : ∀ b, env.verifyMessageBuffer b = true)
    (known : ∀ m, (env.finish m).bytes ∈ bodies → Uplink.Readable env m)
    (account : bytes = msgs.flatMap (Client.frame env))
    (found : (collect (frameReader env.verifyMessageBuffer) bytes).items = bodies) :
    ∀ m ∈ msgs, Uplink.Readable env m := by
  have reads : ∀ m ∈ msgs, ∀ more, (frameReader env.verifyMessageBuffer).read
      (Client.frame env m ++ more) = .item (env.finish m).bytes (Client.frame env m).length :=
    fun m _ more => frame_read env.verifyMessageBuffer (env.finish m) (verified _) more
  have all := collect_encoded (Client.frame env) (fun m => (env.finish m).bytes) msgs reads
    (frameReader env.verifyMessageBuffer).read_nil
  rw [List.append_nil, ← account] at all
  rw [all] at found
  exact fun m there => known m (found ▸ List.mem_map_of_mem there)

end

theorem postal_reads (m : Message) (known : (postal.finish m).bytes ∈ ([[4], [3]] : List Bytes)) :
    Uplink.Readable postal m := by
  refine ⟨rfl, ?_⟩
  revert known
  change ((if m = greeting then oneByte 1 else if m = relayed 2 then oneByte 2
    else if m = relayed 1 then oneByte 3 else if m = welcomed then oneByte 4
    else oneByte 0).bytes ∈ _) → postal.getMessage (if m = greeting then oneByte 1
    else if m = relayed 2 then oneByte 2 else if m = relayed 1 then oneByte 3
    else if m = welcomed then oneByte 4 else oneByte 0).bytes = m
  split_ifs with first second third fourth
  · exact fun _ => first.symm
  · exact fun _ => second.symm
  · exact fun _ => third.symm
  · exact fun _ => fourth.symm
  · exact fun known => absurd known (by decide)

def receiver : Client.State :=
  { Client.signalOpened with
    context := some ⟨true, []⟩
    heap := Client.signalOpened.heap.insert 1
      { Client.Connection.new .incoming with status := .connected, otherPeer := 1 }
    connections := Client.signalOpened.connections.insert 5 1 }

/-- The second of two peers is greeted and is to get something from the first; 13 of the 18 bytes
for it are accepted. -/
def delivering : List Deed :=
  [.opened 1 10, .opened 2 20, .message 10 greeting, .message 20 greeting, .message 10 (relayed 2),
    .writeable 2 13]

def pieces : List Chunk :=
  [⟨(p2pMessageFrame [4]).take 5, fun _ => [255]⟩,
    ⟨(p2pMessageFrame [4]).drop 5 ++ (p2pMessageFrame [3]).take 4, fun _ => []⟩]

/-- They arrive in two pieces, and the client is greeted. -/
theorem greeting_on_its_way : ∃ past s c msgs processed log u, History postal past s ∧
    s.connections.lookup 20 = some c ∧ c.sendBuf.length = 5 ∧ Talk postal 20 past s msgs ∧
    processed <+: msgs ∧ Client.Runs (Client.processAll postal processed) receiver log true u ∧
    u.myPeerId = 2 := by
  have run : (play postal delivering).any (fun r => (r.2.connections.lookup 20).any fun c =>
      decide (acceptedAt 20 r.1 = p2pMessageFrame [4] ++ (p2pMessageFrame [3]).take 4 ∧
        c.sendBuf = (p2pMessageFrame [3]).drop 4)) = true := by
    decide +kernel
  obtain ⟨past, s, history, facts⟩ := played run
  obtain ⟨c, live, facts⟩ := (Option.any_eq_true _ _).mp facts
  obtain ⟨accepted, left⟩ := of_decide_eq_true facts
  obtain ⟨msgs, talk, account, receives⟩ := queued_messages_processed history live
  rw [accepted, left] at account
  have readable := readable_of_bodies (fun _ => rfl) postal_reads account (by decide +kernel)
  have arrived : (pieces.map Chunk.bytes).flatten <+: acceptedAt 20 past := by
    rw [accepted]
    exact ⟨[], by decide⟩
  have computed : (Client.outcome (Client.receiveAll postal 1 13 pieces) receiver).any
      (fun r => r.2.1 && decide (r.2.2.myPeerId = 2)) = true := by
    decide +kernel
  obtain ⟨⟨log, ok, w⟩, ends, known⟩ := (Option.any_eq_true _ _).mp computed
  obtain ⟨rfl, identity⟩ := Bool.and_eq_true_iff.mp known
  obtain ⟨processed, rest, front, -, runs⟩ := receives receiver ⟨0, some 1, [], []⟩ 1 13
    pieces rfl readable rfl rfl rfl arrived (by decide)
  obtain ⟨u, took, rfl⟩ := (runs log true w).mp (Client.runs_of_outcome ends)
  exact ⟨past, s, c, msgs, processed, log, u, history, live, left ▸ rfl, talk, front, took,
    of_decide_eq_true identity⟩

end HumbleNet.Downlink
