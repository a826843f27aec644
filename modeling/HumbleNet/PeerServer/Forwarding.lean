import HumbleNet.PeerServer.Touched

/-! What one message makes the server queue. At most one message, and what is not a reply
to the sender carries the sender's own id to the peer that was named. -/
namespace HumbleNet.PeerServer

open Program

/-! ### What is queued -/

/-- Every connection keeps what it had queued, and one of them may get a message. -/
def Queues (env : Externals) (s t : Server) (out : Option (ConnPtr × Message)) : Prop :=
  ∀ conn, (t.connections.lookup conn).map (·.sendBuf) =
    (s.connections.lookup conn).map fun c => c.sendBuf ++ queuedOn env out conn

def Reply (self : ConnPtr) (msg : Message) (dest : ConnPtr) (out : Message) : Prop :=
  dest = self ∧ ((out.messageType = .HelloClient ∧ msg.messageType = .HelloServer) ∨
    (out.messageType = .AliasResolved ∧ msg.messageType = .AliasLookup) ∨
    out.messageType = .P2PReject)

/-- A message for the one open connection of the sender's game that has the id the message
of the sender named, under the sender's own id. -/
def Forwarded (s : Server) (this : P2PSignalConnection) (msg : Message) (dest : ConnPtr)
    (out : Message) : Prop :=
  out.messageType.forwarded ∧ out.messageType = msg.messageType ∧
    out.peerId = some this.peerId ∧ ∃ named g game, msg.peerId = some named ∧
      this.game = some g ∧ s.games.lookup g = some game ∧
      game.peers.lookup named = some dest ∧ OpenAs s dest g named ∧
      ∀ other, OpenAs s other g named → other = dest

section classification

variable {env : Externals} {s : Server} {self : ConnPtr} {this : P2PSignalConnection}

theorem Effect.queues (e : Effect) :
    Queues env s (e.apply env self this s) (e.output env self s) := by
  intro conn
  rw [apply_lookup, Option.map_map]
  refine Option.map_congr fun c _ => ?_
  simp only [Function.comp, Effect.leaves]
  split
  · cases e with
    | _ => rfl
  · rfl

theorem found_openAs (linked : s.registry.Linked) (exact_s : s.registry.Exact) {game : Game}
    {named : PeerId} {dest : ConnPtr} {msg out : Message} (gameOf : GameOf s this game)
    (found : game.peers.lookup named = some dest) (names : msg.peerId = some named)
    (forwarded : out.messageType.forwarded) (kind : out.messageType = msg.messageType)
    (own : out.peerId = some this.peerId) : Forwarded s this msg dest out := by
  obtain ⟨g, hg, known⟩ := gameOf
  obtain ⟨nonzero, openAs⟩ := (peers_iff_openAs linked exact_s known named dest).mp found
  refine ⟨forwarded, kind, own, named, g, game, names, hg, known, found, openAs, ?_⟩
  intro other h
  have listed := (peers_iff_openAs linked exact_s known named other).mpr ⟨nonzero, h⟩
  rw [found] at listed
  exact (Option.some.inj listed).symm

theorem reacts_output (linked : s.registry.Linked) (exact_s : s.registry.Exact) {m : Message}
    {b : Bool} {e : Effect} (reacts : Reacts env s self this m b e) {dest : ConnPtr}
    {out : Message} (queued : e.output env self s = some (dest, out)) :
    Reply self m dest out ∨ Forwarded s this m dest out := by
  cases reacts with
  | offerForwarded direct gameOf found live able present =>
    cases queued
    exact Or.inr (found_openAs linked exact_s gameOf found rfl rfl rfl rfl)
  | answerForwarded gameOf found live right asked present =>
    cases queued
    exact Or.inr (found_openAs linked exact_s gameOf found rfl rfl rfl rfl)
  | candidateForwarded gameOf found live present =>
    cases queued
    exact Or.inr (found_openAs linked exact_s gameOf found rfl rfl rfl rfl)
  | rejectForwarded gameOf found live reason =>
    cases queued
    exact Or.inr (found_openAs linked exact_s gameOf found rfl rfl rfl rfl)
  | relayForwarded present gameOf found live =>
    cases queued
    exact Or.inr (found_openAs linked exact_s gameOf found rfl rfl rfl rfl)
  | helloAdmitted =>
    cases queued
    exact Or.inl ⟨rfl, Or.inl ⟨rfl, rfl⟩⟩
  | lookedUp =>
    cases queued
    exact Or.inl ⟨rfl, Or.inr (Or.inl ⟨rfl, rfl⟩)⟩
  | offerEmulated | offerMissing | offerRefused | answerMissing | answerUnasked
  | candidateMissing | relayMissing =>
    cases queued
    exact Or.inl ⟨rfl, Or.inr (Or.inr rfl)⟩
  | rejectMissing | rejectUnknown | helloAgain | helloWithoutWebRTC | helloRefused
  | registerTaken | registered | unregistered | unregisterRejected | unregisteredAll
  | ignored => cases queued

theorem filled_ready (open_under : ∀ peer conn, Target s this peer conn →
      ∃ c, s.connections.lookup conn = some c ∧ c.peerId = peer) {m : Message}
    (filled : m.filled) : MsgReady s self this m := by
  unfold MsgReady
  split
  · rintro rfl
    cases filled
  · cases m with
    | p2pOffer body =>
      cases body with
      | none => cases filled
      | some p =>
        refine ⟨p, rfl, fun _ conn found => ?_⟩
        obtain ⟨c, live, _⟩ := open_under _ conn found
        exact ⟨c, live, fun _ => Option.isSome_iff_ne_none.mp filled⟩
    | p2pAnswer body =>
      cases body with
      | none => cases filled
      | some p =>
        refine ⟨p, rfl, fun conn found => ?_⟩
        obtain ⟨c, live, id⟩ := open_under _ conn found
        exact ⟨c, live, id, fun _ => Option.isSome_iff_ne_none.mp filled⟩
    | iceCandidate body =>
      cases body with
      | none => cases filled
      | some p =>
        refine ⟨p, rfl, fun conn found => ⟨Option.isSome_iff_ne_none.mp filled, ?_⟩⟩
        obtain ⟨c, live, _⟩ := open_under _ conn found
        exact StdMap.mem_iff_lookup.mpr ⟨c, live⟩
    | p2pReject body =>
      obtain ⟨p, rfl⟩ := Option.isSome_iff_exists.mp filled
      refine ⟨p, rfl, fun conn found _ => ?_⟩
      obtain ⟨c, live, _⟩ := open_under _ conn found
      exact StdMap.mem_iff_lookup.mpr ⟨c, live⟩
    | p2pRelayData body =>
      cases body with
      | none => cases filled
      | some p =>
        refine ⟨p, rfl, Option.isSome_iff_ne_none.mp filled, fun conn found => ?_⟩
        obtain ⟨c, live, _⟩ := open_under _ conn found
        exact StdMap.mem_iff_lookup.mpr ⟨c, live⟩
    | aliasRegister body => exact Option.isSome_iff_ne_none.mp filled
    | aliasUnregister body => exact Option.isSome_iff_ne_none.mp filled
    | aliasLookup body => exact Option.isSome_iff_ne_none.mp filled
    | _ => trivial

theorem greeting_output {m : Message} {b : Bool} {e : Effect}
    (kind : m.messageType = .HelloServer) (reacts : Reacts env s self this m b e)
    {dest : ConnPtr} {out : Message} (queued : e.output env self s = some (dest, out)) :
    dest = self ∧ out.messageType = .HelloClient := by
  cases reacts with
  | helloAdmitted =>
    cases queued
    exact ⟨rfl, rfl⟩
  | helloAgain | helloWithoutWebRTC | helloRefused => cases queued
  | ignored other =>
    cases queued
  | _ => cases kind

/-- At every moment of a run in which no game has handed out all its ids: a message with
its fields present is processed, at most one message is queued for it, and that is a reply
to the sender, or a message of the same kind, under the id of the sender, for the one peer
it names. A connection that has not been greeted gets the greeting at most. -/
theorem forwarding_is_authentic {past : List (Server × Deed)} (history : History env past s)
    (few : ∀ g, s.idsHandedOut g < 2 ^ 32 - 1) (here : s.connections.lookup self = some this)
    {m : Message} (filled : m.filled) :
    ∃ b t out, Returns (processMsg env self m) s b t ∧ Queues env s t out ∧
      ∀ dest msg, out = some (dest, msg) →
        (Reply self m dest msg ∨ Forwarded s this m dest msg) ∧
        (this.peerId = 0 → dest = self ∧ msg.messageType = .HelloClient) := by
  have linked := history_linked history
  have exact_s := history_exact history few
  have ready : MsgReady s self this m := filled_ready (linked.open_under exact_s) filled
  have completes : Completes (processMsg env self m) s :=
    (processMsg_completes here (linked.seat here) m).mpr ready
  obtain ⟨b, t, returns⟩ := completes
  refine ⟨b, t, ?_⟩
  rcases processMsg_cases here returns with ⟨unseated, other, rfl, rfl⟩ | ⟨heard, e, reacts, rfl⟩
  · refine ⟨none, returns, ?_, by simp⟩
    intro conn
    simp only [queuedOn, List.append_nil]
  · refine ⟨e.output env self s, returns, e.queues, ?_⟩
    intro dest msg queued
    refine ⟨reacts_output linked exact_s reacts queued, fun unseated => ?_⟩
    have kind : m.messageType = .HelloServer := by
      by_contra other
      exact heard ⟨unseated, other⟩
    exact greeting_output kind reacts queued

end classification

/-- One of two peers that have met offers a connection to the other. -/
theorem forwarding_of_an_offer : ∃ past s b t out, History plain past s ∧
    Returns (processMsg plain 10 (.p2pOffer (some ⟨2, 0, some [0x6f]⟩))) s b t ∧
    Queues plain s t out := by
  have run : (play plain meeting).any (fun r =>
      (r.2.connections.lookup 10).isSome && decide (r.2.handedOut.length < 2 ^ 32 - 1)) = true := by
    decide +kernel
  obtain ⟨past, s, history, seen⟩ := played run
  rw [Bool.and_eq_true, decide_eq_true_eq] at seen
  obtain ⟨this, here⟩ := Option.isSome_iff_exists.mp seen.1
  obtain ⟨b, t, out, returns, queues, _⟩ := forwarding_is_authentic history
    (few_of_length seen.2) here
    (show Message.filled (.p2pOffer (some ⟨2, 0, some [0x6f]⟩)) from rfl)
  exact ⟨past, s, b, t, out, history, returns, queues⟩

end HumbleNet.PeerServer
