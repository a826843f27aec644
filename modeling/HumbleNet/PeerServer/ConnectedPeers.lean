import HumbleNet.PeerServer.Aliases

/-! The `connectedPeers` of a connection: the addresses it has sent an offer or an answer
to. No close takes an address out of another connection's set, so what the set says about
a peer holds only while the peers it names stay. -/
namespace HumbleNet.PeerServer

open Program

/-- Every member of an open connection's set is open, in the same game. -/
def NoDangling (s : Server) : Prop :=
  ∀ conn c, s.connections.lookup conn = some c → ∀ other ∈ c.connectedPeers,
    ∃ g peerId, c.game = some g ∧ Seat s other g peerId

/-- A connection that is closed is in the set of no other. -/
def ClosesUnlisted (s : Server) (d : Deed) : Prop :=
  ∀ wsi conn, d = .closed wsi → s.signalConnections.lookup wsi = some conn →
    ∀ other c, s.connections.lookup other = some c → conn ∈ c.connectedPeers → other = conn

def OpensUnlisted (s : Server) (d : Deed) : Prop :=
  ∀ wsi conn, d = .opened wsi conn →
    ∀ other c, s.connections.lookup other = some c → conn ∉ c.connectedPeers

/-- Whom the game of the sender lists under the id a message names, is open there with it. -/
def NamesOpen (s : Server) (d : Deed) : Prop :=
  ∀ self msg this named conn, d = .message self msg → s.connections.lookup self = some this →
    msg.peerId = some named → Target s this named conn →
    ∃ g, this.game = some g ∧ Seat s conn g named

section

variable {env : Externals} {s t : Server} {d : Deed} {conn : ConnPtr}
  {c c' : P2PSignalConnection} {past : List (Server × Deed)}

theorem namesOpen_of_few (history : History env past s)
    (few : ∀ g, s.idsHandedOut g < 2 ^ 32 - 1) : NamesOpen s d := by
  rintro self msg this named conn _ _ _ ⟨game, ⟨g, hg, known⟩, listed⟩
  obtain ⟨nonzero, openAs⟩ :=
    (peers_iff_openAs (history_linked history) (history_exact history few) known named conn).mp
      listed
  exact ⟨g, hg, nonzero, openAs⟩

theorem names_of_few (history : History env past s)
    (few : ∀ g, s.idsHandedOut g < 2 ^ 32 - 1) : ∀ m ∈ past, NamesOpen m.1 m.2 := by
  induction history with
  | start _ => simp
  | @next past s t d before step ih =>
    have earlier : ∀ g, s.idsHandedOut g < 2 ^ 32 - 1 := fun g =>
      Nat.lt_of_le_of_lt (books_issued (step_books step) g) (few g)
    intro m hm
    rcases List.mem_cons.mp hm with rfl | hm
    · exact namesOpen_of_few before earlier
    · exact ih earlier m hm

inductive Meets (s : Server) (conn : ConnPtr) (c : P2PSignalConnection) (d : Deed)
    (other : ConnPtr) : Prop where
  | offers {p : P2POffer} (deed : d = .message conn (.p2pOffer (some p)))
    (target : Target s c p.peerId other)
  | answers {p : P2PAnswer} {o : P2PSignalConnection}
    (deed : d = .message conn (.p2pAnswer (some p))) (target : Target s c p.peerId other)
    (live : s.connections.lookup other = some o) (asked : conn ∈ o.connectedPeers)

theorem Touched.peers (touched : Touched env s d conn c c') {other : ConnPtr}
    (member : other ∈ c'.connectedPeers) :
    other ∈ c.connectedPeers ∨ c.peerId ≠ 0 ∧ Meets s conn c d other := by
  cases touched with
  | buffers wsi peerId game peers => exact Or.inl (peers ▸ member)
  | sender deed heard reacts =>
    simp only [Effect.leaves, if_true] at member
    cases reacts with
    | offerForwarded direct gameOf found live able present =>
      rcases StdSet.mem_insert.mp member with rfl | before
      · refine Or.inr ⟨fun unseated => heard ⟨unseated, by simp [Message.messageType]⟩, ?_⟩
        exact .offers deed ⟨_, gameOf, found⟩
      · exact Or.inl before
    | answerForwarded gameOf found live right asked present =>
      rcases StdSet.mem_insert.mp member with rfl | before
      · refine Or.inr ⟨fun unseated => heard ⟨unseated, by simp [Message.messageType]⟩, ?_⟩
        exact .answers deed ⟨_, gameOf, found⟩ live asked
      · exact Or.inl before
    | _ => exact Or.inl member

theorem Meets.seat {other : ConnPtr} (names : NamesOpen s d)
    (live : s.connections.lookup conn = some c) (meets : Meets s conn c d other) :
    ∃ g peerId, c.game = some g ∧ Seat s other g peerId := by
  cases meets with
  | offers deed target =>
    obtain ⟨g, hg, seat⟩ := names conn _ c _ other deed live rfl target
    exact ⟨g, _, hg, seat⟩
  | answers deed target =>
    obtain ⟨g, hg, seat⟩ := names conn _ c _ other deed live rfl target
    exact ⟨g, _, hg, seat⟩

def SeatedSets (s : Server) : Prop :=
  ∀ conn c, s.connections.lookup conn = some c → ∀ other ∈ c.connectedPeers, c.peerId ≠ 0

theorem step_seatedSets (step : Step env s d t) (seated : SeatedSets s) : SeatedSets t := by
  intro conn c' live other member
  rcases step_origin step live with ⟨wsi, _, _, rfl⟩ | ⟨c, before, touched⟩
  · cases member
  · have nonzero : c.peerId ≠ 0 := by
      rcases touched.peers member with listed | ⟨nonzero, _⟩
      · exact seated conn c before other listed
      · exact nonzero
    rw [(touched.seat nonzero).1]
    exact nonzero

theorem step_noDangling (linked' : t.registry.Linked) (step : Step env s d t)
    (unlisted : ClosesUnlisted s d) (names : NamesOpen s d) (seated : SeatedSets s)
    (none_dangles : NoDangling s) : NoDangling t := by
  intro conn c' live' other member
  rcases step_origin step live' with ⟨wsi, _, _, rfl⟩ | ⟨c, live, touched⟩
  · cases member
  · have nonzero : c.peerId ≠ 0 := by
      rcases touched.peers member with listed | ⟨nonzero, _⟩
      · exact seated conn c live other listed
      · exact nonzero
    have before : ∃ g peerId, c.game = some g ∧ Seat s other g peerId := by
      rcases touched.peers member with listed | ⟨_, meets⟩
      · exact none_dangles conn c live other listed
      · exact meets.seat names live
    obtain ⟨g, peerId, hg, seat⟩ := before
    refine ⟨g, peerId, (touched.seat nonzero).2.trans hg, seat.1, ?_⟩
    rcases step_openAs linked' step seat.1 seat.2 with still | ⟨wsi, rfl, closes⟩
    · exact still
    · -- the owner of the set is the one that closes, and it is not there any more
      have listed : other ∈ c.connectedPeers := by
        rcases touched.peers member with listed | ⟨_, meets⟩
        · exact listed
        · cases meets with
          | offers deed => cases deed
          | answers deed => cases deed
      have own : conn = other := unlisted wsi other rfl closes conn c live listed
      subst own
      rw [step_closes step closes] at live'
      cases live'

theorem history_seatedSets (history : History env past s) : SeatedSets s := by
  refine history.invariant (I := fun _ s => SeatedSets s) ?_ ?_
  · rintro _ ⟨gameDB, stunServerAddress, _, rfl⟩ conn c live
    cases live
  · intro past s d t _ seated step
    exact step_seatedSets step seated

/-- In a run in which whoever is closed is in no other open connection's set, and no id a
message names is listed for the wrong connection, no set dangles. -/
theorem connectedPeers_stay_open (history : History env past s)
    (clean : ∀ m ∈ past, ClosesUnlisted m.1 m.2 ∧ NamesOpen m.1 m.2) : NoDangling s := by
  induction history with
  | start initial =>
    obtain ⟨gameDB, stunServerAddress, _, rfl⟩ := initial
    intro conn c live
    cases live
  | @next past s t d before step ih =>
    have now := clean (s, d) List.mem_cons_self
    exact step_noDangling (history_linked (before.next step)) step now.1 now.2
      (history_seatedSets before) (ih fun m hm => clean m (List.mem_cons_of_mem _ hm))

end

def offering : List Deed := meeting ++ [.message 20 (.p2pOffer (some ⟨1, 0, some [0x6f]⟩))]

def Deed.closes : Deed → Bool
  | .closed _ => true
  | _ => false

/-- While nobody leaves, the set of the peer that offers is right. -/
theorem connectedPeers_after_offer : ∃ past s, History plain past s ∧ NoDangling s := by
  have run : (play plain offering).any (fun r =>
      r.1.all (fun m => !m.2.closes) && decide (r.2.handedOut.length < 2 ^ 32 - 1)) = true := by
    decide +kernel
  obtain ⟨past, s, history, seen⟩ := played run
  rw [Bool.and_eq_true, decide_eq_true_eq, List.all_eq_true] at seen
  refine ⟨past, s, history, connectedPeers_stay_open history ?_⟩
  intro m hm
  refine ⟨fun wsi conn deed => ?_, names_of_few history (few_of_length seen.2) m hm⟩
  have stays := seen.1 m hm
  rw [deed] at stays
  cases stays

/-- The first peer closes, and stays in the set of the second. -/
theorem connectedPeers_dangle : ∃ past s, History plain past s ∧ ¬ NoDangling s := by
  have run : (play plain (offering ++ [.closed 1])).any (fun r =>
      (r.2.connections.lookup 20).any (fun c => decide (10 ∈ c.connectedPeers)) &&
        decide (r.2.connections.lookup 10 = none)) = true := by
    decide +kernel
  obtain ⟨past, s, history, seen⟩ := played run
  rw [Bool.and_eq_true, decide_eq_true_eq, Option.any_eq_true] at seen
  obtain ⟨⟨c, live, member⟩, gone⟩ := seen
  refine ⟨past, s, history, fun none_dangles => ?_⟩
  obtain ⟨_, _, _, _, _, o, _, there, _⟩ :=
    none_dangles 20 c live 10 (decide_eq_true_eq.mp member)
  rw [gone] at there
  cases there

/-! ### Answers -/

def Offers (y x : ConnPtr) (m : Server × Deed) : Prop :=
  ∃ p g peerId, m.2 = .message y (.p2pOffer (some p)) ∧ Seat m.1 y g peerId ∧
    Seat m.1 x g p.peerId

/-- `y` sends an answer that names `x`, and `x` has `y` in its set, so it is forwarded. -/
def Answers (y x : ConnPtr) (m : Server × Deed) : Prop :=
  ∃ p g peerId c, m.2 = .message y (.p2pAnswer (some p)) ∧ Seat m.1 y g peerId ∧
    Seat m.1 x g p.peerId ∧ m.1.connections.lookup x = some c ∧ y ∈ c.connectedPeers

def Stays (y x : ConnPtr) (m : Server × Deed) : Prop :=
  ∀ wsi, m.2 ≠ .opened wsi y ∧ m.2 ≠ .opened wsi x

/-- `y` has sent an offer that names `x`, both being the connections they are now. -/
def HasOffered (past : List (Server × Deed)) (y x : ConnPtr) : Prop :=
  Since (Stays y x) (Offers y x) past

def HasAnswered (past : List (Server × Deed)) (y x : ConnPtr) : Prop :=
  Since (Stays y x) (Answers y x) past

/-- An answer of `x` makes the server queue something on `y`. -/
def ForwardsAnswer (env : Externals) (s : Server) (x y : ConnPtr) : Prop :=
  ∃ body b t out, Returns (processMsg env x (.p2pAnswer body)) s b t ∧
    Queues env s t (some (y, out))

section answers

variable {env : Externals} {s t : Server} {d : Deed} {past : List (Server × Deed)} {x y : ConnPtr}

/-- Whoever is in a set was offered to, or answered, by its owner. -/
def Acquainted (past : List (Server × Deed)) (s : Server) : Prop :=
  ∀ y c, s.connections.lookup y = some c → ∀ x ∈ c.connectedPeers,
    HasOffered past y x ∨ HasAnswered past y x

theorem Meets.now {c : P2PSignalConnection} (linked : s.registry.Linked) (names : NamesOpen s d)
    (live : s.connections.lookup y = some c) (seated : c.peerId ≠ 0) (meets : Meets s y c d x) :
    Offers y x (s, d) ∨ Answers y x (s, d) := by
  cases meets with
  | offers deed target =>
    obtain ⟨g, hg, seat⟩ := names y _ c _ x deed live rfl target
    exact Or.inl ⟨_, g, c.peerId, deed, ⟨seated, openAs_of_live linked live hg⟩, seat⟩
  | answers deed target live' asked =>
    obtain ⟨g, hg, seat⟩ := names y _ c _ x deed live rfl target
    exact Or.inr ⟨_, g, c.peerId, _, deed, ⟨seated, openAs_of_live linked live hg⟩, seat, live',
      asked⟩

theorem step_acquainted (linked : s.registry.Linked) (step : Step env s d t)
    (unlisted : OpensUnlisted s d) (names : NamesOpen s d) (acquainted : Acquainted past s) :
    Acquainted ((s, d) :: past) t := by
  intro y c' live' x member
  rcases step_origin step live' with ⟨wsi, _, _, rfl⟩ | ⟨c, live, touched⟩
  · cases member
  · rcases touched.peers member with listed | ⟨seated, meets⟩
    · -- neither address can be new: one is open, the other is in a set
      have stays : Stays y x (s, d) := by
        refine fun wsi => ⟨?_, ?_⟩
        · rintro rfl
          exact step_opened_fresh step (StdMap.mem_iff_lookup.mpr ⟨c, live⟩)
        · rintro rfl
          exact unlisted wsi x rfl y c live listed
      rcases acquainted y c live x listed with offered | answered
      · exact Or.inl (Or.inr ⟨stays, offered⟩)
      · exact Or.inr (Or.inr ⟨stays, answered⟩)
    · rcases meets.now linked names live seated with offers | answers
      · exact Or.inl (Or.inl offers)
      · exact Or.inr (Or.inl answers)

theorem history_acquainted (history : History env past s)
    (clean : ∀ m ∈ past, OpensUnlisted m.1 m.2 ∧ NamesOpen m.1 m.2) : Acquainted past s := by
  induction history with
  | start initial =>
    obtain ⟨gameDB, stunServerAddress, _, rfl⟩ := initial
    intro y c live
    cases live
  | @next past s t d before step ih =>
    have now := clean (s, d) List.mem_cons_self
    exact step_acquainted (history_linked before) step now.1 now.2
      (ih fun m hm => clean m (List.mem_cons_of_mem _ hm))

theorem ForwardsAnswer.asked (other : x ≠ y) {c : P2PSignalConnection}
    (live : s.connections.lookup y = some c) (forwards : ForwardsAnswer env s x y) :
    x ∈ c.connectedPeers := by
  obtain ⟨body, b, t, out, returns, queues⟩ := forwards
  obtain ⟨this, here, _⟩ := returns_deref_bind.mp returns
  have frame : ∀ out' : Option (ConnPtr × Message), Queues env s t out' →
      queuedOn env out' y = p2pMessageFrame (env.finish out).bytes := by
    intro out' queues'
    have same := (queues' y).symm.trans (queues y)
    rw [live, Option.map_some, Option.map_some, Option.some.injEq] at same
    rw [List.append_cancel_left same, queuedOn, if_pos rfl]
  have some_bytes : p2pMessageFrame (env.finish out).bytes ≠ [] := by
    intro empty
    have length := congrArg List.length empty
    simp only [p2pMessageFrame, List.length_append, writeScalar32_length, List.length_nil] at length
    omega
  rcases processMsg_cases here returns with ⟨_, _, _, rfl⟩ | ⟨_, e, reacts, rfl⟩
  · have nothing := frame none fun conn => by simp [queuedOn]
    exact absurd nothing.symm some_bytes
  · have sent := frame _ e.queues
    cases reacts with
    | answerForwarded gameOf found live' right asked present =>
      simp only [Effect.output, queuedOn] at sent
      split at sent
      · rename_i own
        subst own
        rw [live] at live'
        cases live'
        exact asked
      · exact absurd sent.symm some_bytes
    | answerMissing | answerUnasked =>
      simp only [Effect.output, sendNoSuchPeer, queuedOn, if_neg other.symm] at sent
      exact absurd sent.symm some_bytes
    | ignored kind => simp [Message.messageType] at kind

/-- In a run in which nothing is opened at an address that a set still holds, and no id a
message names is listed for the wrong connection: an answer is forwarded to a peer only if
that peer has offered, or has answered itself. -/
theorem answer_follows_offer (history : History env past s)
    (clean : ∀ m ∈ past, OpensUnlisted m.1 m.2 ∧ NamesOpen m.1 m.2) (other : x ≠ y)
    (there : y ∈ s.connections) (forwards : ForwardsAnswer env s x y)
    (unanswered : HasAnswered past y x → HasOffered past y x) : HasOffered past y x := by
  obtain ⟨c, live⟩ := StdMap.mem_iff_lookup.mp there
  rcases history_acquainted history clean y c live x (forwards.asked other live) with
    offered | answered
  · exact offered
  · exact unanswered answered

theorem forwardsAnswer_of {this c : P2PSignalConnection} {p : P2PAnswer} {offer : Bytes}
    (here : s.connections.lookup x = some this) (seated : this.peerId ≠ 0)
    (target : Target s this p.peerId y) (live : s.connections.lookup y = some c)
    (right : c.peerId = p.peerId) (asked : x ∈ c.connectedPeers) (present : p.offer = some offer) :
    ForwardsAnswer env s x y := by
  obtain ⟨game, gameOf, found⟩ := target
  have only : ∀ {game' : Game} {other : ConnPtr}, GameOf s this game' →
      game'.peers.lookup p.peerId = some other → other = y := by
    intro game' other gameOf' found'
    rw [gameOf'.unique gameOf, found] at found'
    exact (Option.some.inj found').symm
  have ready : MsgReady s x this (.p2pAnswer (some p)) := by
    simp only [MsgReady, if_neg seated]
    refine ⟨p, rfl, ?_⟩
    rintro conn ⟨game', gameOf', found'⟩
    rw [only gameOf' found']
    exact ⟨c, live, right, fun _ => by rw [present]; exact Option.some_ne_none _⟩
  have completes : Completes (processMsg env x (.p2pAnswer (some p))) s :=
    (processMsg_completes here (fun _ => ⟨game, gameOf⟩) _).mpr ready
  obtain ⟨b, t, returns⟩ := completes
  rcases processMsg_cases here returns with ⟨unseated, _⟩ | ⟨_, e, reacts, rfl⟩
  · exact absurd unseated seated
  · have queues : Queues env s (e.apply env x this s) (e.output env x s) := e.queues
    cases reacts with
    | answerForwarded gameOf' found' =>
      rw [← only gameOf' found']
      exact ⟨_, _, _, _, returns, queues⟩
    | answerMissing gameOf' missing =>
      rw [gameOf'.unique gameOf, found] at missing
      cases missing
    | answerUnasked gameOf' found' live' _ unasked =>
      rw [only gameOf' found', live] at live'
      cases live'
      exact absurd asked unasked
    | ignored kind => simp [Message.messageType] at kind

end answers

def canAnswer (s : Server) : Bool :=
  (s.connections.lookup 10).any (fun c => decide (c.peerId = 1 ∧ c.game = some 1)) &&
  (s.games.lookup 1).any (fun game => decide (game.peers.lookup 2 = some 20)) &&
  (s.connections.lookup 20).any (fun c => decide (c.peerId = 2 ∧ 10 ∈ c.connectedPeers))

theorem forwards_of_canAnswer {s : Server} (can : canAnswer s = true) :
    20 ∈ s.connections ∧ ForwardsAnswer plain s 10 20 := by
  simp only [canAnswer, Bool.and_eq_true, Option.any_eq_true, decide_eq_true_eq] at can
  obtain ⟨⟨⟨this, here, id, hg⟩, game, known, found⟩, c, live, right, asked⟩ := can
  refine ⟨StdMap.mem_iff_lookup.mpr ⟨c, live⟩, ?_⟩
  exact forwardsAnswer_of (p := ⟨2, some [0x61]⟩) here (by rw [id]; decide)
    ⟨game, ⟨1, hg, known⟩, found⟩ live right asked rfl

def Deed.answers (y : ConnPtr) : Deed → Bool
  | .message self (.p2pAnswer _) => decide (self = y)
  | _ => false

def Deed.offers (y : ConnPtr) : Deed → Bool
  | .message self (.p2pOffer _) => decide (self = y)
  | _ => false

def Deed.opens : Deed → Bool
  | .opened _ _ => true
  | _ => false

/-- The first peer answers the offer of the second. -/
theorem answer_after_offer : ∃ past s, History plain past s ∧ ForwardsAnswer plain s 10 20 ∧
    HasOffered past 20 10 := by
  have run : (play plain offering).any (fun r => canAnswer r.2 &&
      (r.1.all (fun m => !m.2.answers 20 &&
        (!m.2.opens || m.1.connections.entries.all (·.2.connectedPeers.isEmpty))) &&
      decide (r.2.handedOut.length < 2 ^ 32 - 1))) = true := by
    decide +kernel
  obtain ⟨past, s, history, seen⟩ := played run
  simp only [Bool.and_eq_true, decide_eq_true_eq, List.all_eq_true] at seen
  obtain ⟨can, quiet, few⟩ := seen
  obtain ⟨there, forwards⟩ := forwards_of_canAnswer can
  refine ⟨past, s, history, forwards, ?_⟩
  refine answer_follows_offer history ?_ (by decide) there forwards ?_
  · intro m hm
    refine ⟨fun wsi conn deed other c live listed => ?_,
      names_of_few history (few_of_length few) m hm⟩
    have empty := (quiet m hm).2
    rw [deed, Deed.opens, Bool.not_true, Bool.false_or, List.all_eq_true] at empty
    have none_listed := empty ⟨other, c⟩ ((StdMap.lookup_eq_some_iff _ _ _).mp live)
    rw [List.isEmpty_iff.mp none_listed] at listed
    cases listed
  · intro answered
    obtain ⟨m, hm, p, g, peerId, c, deed, _⟩ := answered.exists_mem
    have silent := (quiet m hm).1
    rw [deed] at silent
    cases silent

/-- The first peer offers, the second answers, and then the first answers as well: that is
forwarded to the second, which has offered nothing. -/
theorem answer_without_offer : ∃ past s, History plain past s ∧ ForwardsAnswer plain s 10 20 ∧
    ¬ HasOffered past 20 10 := by
  have run : (play plain (meeting ++ [.message 10 (.p2pOffer (some ⟨2, 0, some [0x6f]⟩)),
      .message 20 (.p2pAnswer (some ⟨1, some [0x61]⟩))])).any (fun r => canAnswer r.2 &&
        r.1.all (fun m => !m.2.offers 20)) = true := by
    decide +kernel
  obtain ⟨past, s, history, seen⟩ := played run
  simp only [Bool.and_eq_true, List.all_eq_true] at seen
  refine ⟨past, s, history, (forwards_of_canAnswer seen.1).2, fun offered => ?_⟩
  obtain ⟨m, hm, p, g, peerId, deed, _⟩ := offered.exists_mem
  have silent := seen.2 m hm
  rw [deed] at silent
  cases silent

end HumbleNet.PeerServer
