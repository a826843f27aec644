import HumbleNet.Downlink
import HumbleNet.PeerServer.Wire

/-! From one client to another. Candidates and relayed data go up the stream of the one, through
the server, and down the stream of the other. -/
namespace HumbleNet.PeerToPeer

open Program Incremental Fragmentation PeerServer Uplink

section

variable {env : Externals} {s : Server} {calls : List (Server × LwsEvent × Int)} {x y : ConnPtr}
  {g : GameId} {p q : PeerId} {c : PeerServer.P2PSignalConnection}

theorem heardOn_front {kept : List Message} {n : Nat} {rest : Bytes}
    (readable : ∀ m ∈ kept, Readable env m) (waits : Waits env rest)
    (split : arrivedOn x calls = (kept.take n).flatMap (Client.frame env) ++ rest) :
    heardOn env x calls = kept.take n := by
  have among : ∀ m ∈ kept.take n, Readable env m :=
    fun m there => readable m (List.mem_of_mem_take there)
  have found : collect (frameReader env.verifyMessageBuffer)
      ((kept.take n).flatMap (Client.frame env) ++ rest) =
      ⟨(kept.take n).map fun m => (env.finish m).bytes, rest, true⟩ :=
    collect_encoded _ _ _ (fun m there => frame_reads (among m there)) waits.read
  rw [heardOn, split, found, List.map_map]
  exact (List.map_congr_left fun m there => (among m there).2).trans (List.map_id _)

/-- What a client has sent for another reaches it. A client `x` sends, the server conveys, and
a client at the connection `y` is given some front of the bytes its websocket has accepted, cut
anyhow: the parcels under the id of `x` among the messages that it processes are the first of
those that `x` has sent since both are in the game. They are all of them, those of every message
that was reported as sent included, if all that was accepted has arrived on both ways and nothing
is left in the queue. -/
theorem sent_parcels_processed (bits : env.sizeBits = 64)
    (few : ∀ g, s.idsHandedOut g < 2 ^ 32 - 1) (run : CallRun env calls s) (sx : Seat s x g p)
    (sy : Seat s y g q) (live : s.connections.lookup y = some c) (unrefused : Unrefused x calls)
    {past : List (Client.State × Client.SignalAct)} {sender : Client.State} {wsi : Client.Wsi}
    (sending : Client.SignalRun env wsi past sender) (unbroken : Client.Unbroken past)
    (readable : ∀ m ∈ Client.offered past, Readable env m)
    (up : arrivedOn x calls <+: Client.accepted past) :
    ∃ early late msgs : List Message, (early ++ late).Sublist (Client.offered past) ∧
      (arrivedOn x calls = Client.accepted past →
        Client.reportedSent past <+: early ++ late) ∧
      NoLater env calls x y g p q early ∧
      acceptedOn y calls ++ c.sendBuf = msgs.flatMap (frameOf env) ∧
      ∀ (v : Client.State) (signal : Client.P2PSignalConnection) (wsi : Client.Wsi) (fuel : Nat)
        (chunks : List Chunk), (∀ m ∈ msgs, Readable env m) →
        v.p2pConn = some signal → signal.wsi = some wsi → signal.recvBuf = [] →
        (chunks.map Chunk.bytes).flatten <+: acceptedOn y calls →
        (chunks.map Chunk.bytes).flatten.length ≤ fuel →
        ∃ processed rest, parcels p processed <+: (parcels q late).map Parcel.copied ∧
          ((chunks.map Chunk.bytes).flatten = acceptedOn y calls → c.sendBuf = [] →
            parcels p processed = (parcels q late).map Parcel.copied) ∧
          ∀ log ok w, Client.Runs (Client.receiveAll env wsi fuel chunks) v log ok w ↔
            ∃ u, Client.Runs (Client.processAll env processed) v log ok u ∧
              w = if ok then u.withRecv rest else { u with p2pConn := none } := by
  obtain ⟨deeds, unfolds, along⟩ := calls_unfold bits run
  obtain ⟨msgs, talk, account⟩ := history_accounts unfolds.history live
  rw [unfolds.accepted] at account
  obtain ⟨early, late, all, carried, bound⟩ :=
    parcels_of_sender few unfolds along talk sx sy unrefused
  obtain ⟨kept, n, rest, sub, reported, split, waits, whole⟩ :=
    sent_front sending unbroken readable up
  have readable' : ∀ m ∈ kept, Readable env m := fun m there => readable m (sub.subset there)
  have heard : early ++ late = kept.take n := by rw [← all, heardOn_front readable' waits split]
  refine ⟨early, late, msgs, ?_, fun drained => heard ▸ whole drained, bound, account, ?_⟩
  · rw [heard]
    exact (List.take_sublist n kept).trans sub
  · intro v signal wsi fuel chunks known here open_wsi empty arrived enough
    obtain ⟨processed, rest, front, drained, runs⟩ :=
      Downlink.front_processed account bits known here open_wsi empty fuel chunks arrived enough
    refine ⟨processed, rest, ?_, fun all nothing => ?_, runs⟩
    · rw [← carried]
      exact front.filterMap _
    · rw [drained all nothing, carried]

end

def sendsWhole (m : Message) : Client.SignalAct :=
  .send m [⟨.libwebsocketWrite 1 (Client.frame postal m), ((Client.frame postal m).length : Int)⟩]
    (decide (((Client.frame postal m).length : Int) = (Client.frame postal m).length))

theorem sendsWhole_step (m : Message) :
    Client.SignalStep postal 1 Client.signalOpened (sendsWhole m) Client.signalOpened := by
  have nonneg : (0 : Int) ≤ (Client.frame postal m).length := Int.natCast_nonneg _
  have least : (-1 : Int) ≤ (Client.frame postal m).length := by omega
  refine .send (.released ⟨least, Int.le_refl _⟩ (.done _ _)) ?_
  intro call mem
  rw [List.mem_singleton.mp mem]
  exact ⟨nonneg, Int.le_refl _⟩

/-- A hello, and something for the peer 2. -/
def errand : List (Client.State × Client.SignalAct) :=
  [(Client.signalOpened, sendsWhole (relayed 2)), (Client.signalOpened, sendsWhole greeting)]

theorem errand_unbroken : Client.Unbroken errand := by
  refine ⟨⟨trivial, fun ⟨_, mem, _⟩ => absurd mem List.not_mem_nil⟩, ?_⟩
  rintro ⟨m, mem, call, log, part⟩
  rw [List.mem_singleton.mp mem] at log
  rw [List.mem_singleton.mp log] at part
  exact absurd part.2 (Int.lt_irrefl _)

def parts : List Chunk :=
  [⟨p2pMessageFrame [4] ++ (p2pMessageFrame [3]).take 4, fun _ => [255]⟩,
    ⟨(p2pMessageFrame [3]).drop 4, fun _ => []⟩]

/-- A client runs the errand; the other peer is in the game by then, and what was sent for it
comes to the connection that it has to the first. -/
theorem parcel_on_its_way : ∃ calls s early late processed log u, CallRun postal calls s ∧
    early ++ late = [greeting, relayed 2] ∧ parcels 2 late = [.data [0x68]] ∧
    parcels 1 processed = [.data [0x68]] ∧
    Client.Runs (Client.processAll postal processed) Downlink.receiver log true u ∧
    u.myPeerId = 2 ∧ (u.heap.lookup 1).map (·.recvBuffer) = some [0x68] := by
  obtain ⟨calls, s, c, called, few, s₁, s₂, live, drained, unrefused, arrived, given, _, short⟩ :=
    posted
  have sending : Client.SignalRun postal 1 errand Client.signalOpened :=
    .next (.next (.start ⟨0, [], rfl⟩) (sendsWhole_step greeting)) (sendsWhole_step (relayed 2))
  have readable : ∀ m ∈ Client.offered errand, Readable postal m := by
    intro m mem
    have two : m = greeting ∨ m = relayed 2 := by
      simpa [errand, sendsWhole, Client.offered] using mem
    rcases two with rfl | rfl <;> exact ⟨rfl, rfl⟩
  have sent : Client.accepted errand = p2pMessageFrame [1] ++ p2pMessageFrame [2] := by
    decide +kernel
  have all_up := arrived.trans sent.symm
  obtain ⟨early, late, msgs, sub, all, bound, account, receives⟩ := sent_parcels_processed rfl few
    called s₁ s₂ live unrefused sending errand_unbroken readable (all_up ▸ List.prefix_refl _)
  have heard : early ++ late = [greeting, relayed 2] :=
    ((all all_up).sublist.eq_of_length_le sub.length_le).symm
  have parcel := parcel_is_late heard (short early bound)
  rw [given, drained] at account
  have readable' := Downlink.readable_of_bodies (fun _ => rfl) Downlink.postal_reads account
    (by decide +kernel)
  have all_down : (parts.map Chunk.bytes).flatten = acceptedOn 20 calls := by
    rw [given]
    decide
  have computed : (Client.outcome (Client.receiveAll postal 1 18 parts) Downlink.receiver).any
      (fun r => r.2.1 && decide (r.2.2.myPeerId = 2 ∧
        (r.2.2.heap.lookup 1).map (·.recvBuffer) = some [0x68])) = true := by
    decide +kernel
  obtain ⟨⟨log, ok, w⟩, ends, known⟩ := (Option.any_eq_true _ _).mp computed
  obtain ⟨rfl, known⟩ := Bool.and_eq_true_iff.mp known
  obtain ⟨processed, rest, -, whole, runs⟩ := receives Downlink.receiver ⟨0, some 1, [], []⟩ 1 18
    parts readable' rfl rfl rfl (all_down ▸ List.prefix_refl _) (by decide)
  obtain ⟨u, took, rfl⟩ := (runs log true w).mp (Client.runs_of_outcome ends)
  obtain ⟨identity, buffer⟩ := of_decide_eq_true known
  refine ⟨calls, s, early, late, processed, log, u, called, heard, parcel, ?_, took, identity,
    buffer⟩
  rw [whole all_down drained, parcel]
  decide

end HumbleNet.PeerToPeer
