import HumbleNet.PeerIds
import HumbleNet.PeerServer.Draining
import HumbleNet.PeerServer.Talk

/-! Candidates and relayed data on their way from peer to peer. What one peer hands in for
another is queued for it under the id of the sender, in the order in which it was handed in, once
each, and nothing else is queued under that id. -/
namespace HumbleNet.PeerServer

open Program

inductive Parcel where
  | candidate (offer : Bytes)
  | data (bytes : Bytes)
  deriving DecidableEq

def parcelOf (peer : PeerId) : Message → Option Parcel
  | .iceCandidate (some p) => if p.peerId = peer then p.offer.map .candidate else none
  | .p2pRelayData (some p) => if p.peerId = peer then p.data.map .data else none
  | _ => none

/-- What `sendICECandidate` and `sendP2PRelayData` copy. -/
def Parcel.copied : Parcel → Parcel
  | .candidate offer => .candidate (cStr offer)
  | .data bytes => .data (bytes.take (UInt16.ofNat bytes.length).toNat)

/-- Candidates are strings of C, and the length of relayed data is passed as `uint16_t`. -/
def Parcel.Intact : Parcel → Prop
  | .candidate offer => 0 ∉ offer
  | .data bytes => bytes.length < 2 ^ 16

theorem Parcel.Intact.copied {parcel : Parcel} (intact : parcel.Intact) :
    parcel.copied = parcel := by
  cases parcel with
  | candidate offer => exact congrArg _ (cStr_of_no_nul intact)
  | data bytes =>
    have length : (UInt16.ofNat bytes.length).toNat = bytes.length :=
      UInt16.toNat_ofNat_of_lt intact
    rw [Parcel.copied, length, List.take_length]

/-- The connection that a peer reaches under an id of its game. -/
def Server.reachedBy (s : Server) (self : ConnPtr) (peer : PeerId) : Option ConnPtr :=
  (s.connections.lookup self).bind fun this =>
    if this.peerId = 0 then none else this.game.bind fun g => s.peerOf g peer

/-- The parcel that `x` hands in for `y` with a message. -/
def handedIn (s : Server) (x y : ConnPtr) (peer : PeerId) (self : ConnPtr) (m : Message) :
    Option Parcel :=
  if self = x ∧ s.reachedBy x peer = some y then (parcelOf peer m).map Parcel.copied else none

/-- All that `x` has handed in for `y` while they were both open. -/
def handedOver (x y : ConnPtr) (peer : PeerId) : List (Server × Deed) → List Parcel
  | [] => []
  | (s, .message self m) :: past =>
    handedOver x y peer past ++ (handedIn s x y peer self m).toList
  | (_, .opened _ conn) :: past => if conn = x ∨ conn = y then [] else handedOver x y peer past
  | _ :: past => handedOver x y peer past

def processedOn (conn : ConnPtr) : List (Server × Deed) → List Message
  | [] => []
  | (_, .opened _ other) :: past => if other = conn then [] else processedOn conn past
  | (_, .message self m) :: past => processedOn conn past ++ if self = conn then [m] else []
  | _ :: past => processedOn conn past

def parcels (peer : PeerId) (msgs : List Message) : List Parcel := msgs.filterMap (parcelOf peer)

def saidTo (y : ConnPtr) : Option (ConnPtr × Message) → List Message
  | some (dest, msg) => if dest = y then [msg] else []
  | none => []

section

variable {env : Externals} {s t : Server} {past : List (Server × Deed)} {d : Deed}
  {x y self : ConnPtr} {this : P2PSignalConnection} {g : GameId} {p q : PeerId} {m : Message}

/-! ### Seats -/

theorem seat_of_live (linked : s.registry.Linked) (here : s.connections.lookup self = some this)
    (seated : this.peerId ≠ 0) (game : this.game = some g) : Seat s self g this.peerId :=
  ⟨seated, openAs_of_live linked here game⟩

theorem seat_fields (seat : Seat s self g p) (here : s.connections.lookup self = some this) :
    this.peerId = p ∧ this.game = some g ∧ this.peerId ≠ 0 := by
  obtain ⟨nonzero, w, c, _, live, game, rfl⟩ := seat
  cases live.symm.trans here
  exact ⟨rfl, game, nonzero⟩

theorem seat_unique (linked : s.registry.Linked) (exact_s : s.registry.Exact)
    (one : Seat s x g p) (two : Seat s y g p) : x = y :=
  openAs_unique linked exact_s one.1 one.2 two.2

theorem seat_counted (linked : s.registry.Linked) (exact_s : s.registry.Exact)
    (seat : Seat s self g p) : p.toNat ≤ s.idsHandedOut g := by
  obtain ⟨nonzero, w, c, _, live, game, rfl⟩ := seat
  have member := registry_member live
  obtain ⟨ro, known⟩ := Option.ne_none_iff_exists'.mp (linked.known self _ g member game)
  have below := exact_s.below self _ g ro member game nonzero known
  have counted : ro.next.toNat = s.idsHandedOut g + 1 := exact_s.counted g ro known
  simp only at below
  omega

theorem reachedBy_iff (linked : s.registry.Linked) (exact_s : s.registry.Exact) :
    s.reachedBy x q = some y ↔ ∃ g p, Seat s x g p ∧ Seat s y g q := by
  constructor
  · intro reached
    obtain ⟨this, here, reached⟩ := Option.bind_eq_some_iff.mp reached
    split at reached
    · cases reached
    · rename_i seated
      obtain ⟨g, game, listed⟩ := Option.bind_eq_some_iff.mp reached
      exact ⟨g, _, seat_of_live linked here seated game, (peerOf_iff linked exact_s).mp listed⟩
  · rintro ⟨g, p, sx, sy⟩
    obtain ⟨w, c, _, here, _⟩ := id sx.2
    obtain ⟨_, game, nonzero⟩ := seat_fields sx here
    have listed := (peerOf_iff linked exact_s).mpr sy
    simp [Server.reachedBy, here, nonzero, game, listed]

theorem unseated_before (linked' : t.registry.Linked)
    (step : Step env s d t) {c' : P2PSignalConnection} (live' : t.connections.lookup x = some c')
    (unseated : ∀ g p, ¬ Seat t x g p) :
    (∃ wsi, d = .opened wsi x) ∨
      (∃ c, s.connections.lookup x = some c) ∧ ∀ g p, ¬ Seat s x g p := by
  rcases step_origin step live' with ⟨wsi, rfl, _⟩ | ⟨c, live, _⟩
  · exact Or.inl ⟨wsi, rfl⟩
  · refine Or.inr ⟨⟨c, live⟩, fun g p seat => ?_⟩
    rcases step_openAs linked' step seat.1 seat.2 with still | ⟨wsi, rfl, owned⟩
    · exact unseated g p ⟨seat.1, still⟩
    · rw [step_closes step owned] at live'
      cases live'

theorem admits_next (history : History env past s) (few : ∀ g, s.idsHandedOut g < 2 ^ 32 - 1)
    {hello : HelloServer} (deed : d = .message self (.helloServer (some hello)))
    {c : P2PSignalConnection} (live : s.connections.lookup self = some c) (unseated : c.peerId = 0)
    (able : hello.flags &&& 0x01 ≠ 0) (found : (getVerifiedGame env hello s).1 = some g) :
    (s.admits env hello g).toNat = s.idsHandedOut g + 1 := by
  obtain ⟨_, _, exist⟩ := getVerifiedGame_books env s hello
  obtain ⟨game, there⟩ := exist g found
  have issues : Issues env s d g game := ⟨self, c, hello, deed, live, unseated, able, found, there⟩
  have next : game.nextPeerId = UInt32.ofNat (s.idsHandedOut g + 1) :=
    (issues_counts history issues).next
  have small := few g
  rw [Server.admits, there, Option.map_some, Option.getD_some, next]
  exact UInt32.toNat_ofNat_of_lt (by change _ < 2 ^ 32; omega)

theorem seat_before (history : History env past s) (linked : s.registry.Linked)
    (few : ∀ g, s.idsHandedOut g < 2 ^ 32 - 1) (step : Step env s d t) (seat : Seat t x g p) :
    Seat s x g p ∨ (∃ c, s.connections.lookup x = some c) ∧ (∀ g p, ¬ Seat s x g p) ∧
      s.idsHandedOut g < p.toNat ∧ ∃ hello, d = .message x (.helloServer (some hello)) := by
  obtain ⟨nonzero, w, c', _, live', game, rfl⟩ := seat
  rcases step_origin step live' with ⟨wsi, rfl, _, rfl⟩ | ⟨c, live, touched⟩
  · exact absurd rfl nonzero
  · by_cases seated : c.peerId = 0
    · refine Or.inr ⟨⟨c, live⟩, fun g p before => ?_, ?_⟩
      · exact (seat_fields before live).2.2 seated
      · cases touched with
        | buffers _ peerId => exact absurd (peerId.trans seated) nonzero
        | sender deed heard reacts =>
          simp only [Effect.leaves, if_true] at nonzero game ⊢
          cases reacts with
          | @helloAdmitted hello h unseated able found =>
            cases game
            have id := admits_next history few deed live seated able found
            refine ⟨?_, hello, deed⟩
            change _ < (s.admits env hello g).toNat
            omega
          | _ => exact absurd seated nonzero
    · obtain ⟨same, stays⟩ := touched.seat seated
      rw [same]
      exact Or.inl (seat_of_live linked live seated (stays ▸ game))

/-! ### What a message hands over -/

theorem found_seat (linked : s.registry.Linked) (exact_s : s.registry.Exact)
    (here : s.connections.lookup self = some this) (seated : this.peerId ≠ 0) {game : Game}
    (gameOf : GameOf s this game) {dest : ConnPtr} {named : PeerId}
    (found : game.peers.lookup named = some dest) :
    ∃ g, Seat s self g this.peerId ∧ Seat s dest g named := by
  obtain ⟨g, hg, known⟩ := gameOf
  exact ⟨g, seat_of_live linked here seated hg,
    (peers_iff_openAs linked exact_s known _ _).mp found⟩

theorem told_seats (linked : s.registry.Linked) (exact_s : s.registry.Exact)
    (here : s.connections.lookup self = some this)
    (heard : ¬ (this.peerId = 0 ∧ m.messageType ≠ .HelloServer)) {b : Bool} {e : Effect}
    (reacts : Reacts env s self this m b e) {msg : Message}
    (out : e.output env self s = some (y, msg)) {parcel : Parcel}
    (found : parcelOf p msg = some parcel) :
    ∃ g q, Seat s self g p ∧ Seat s y g q := by
  cases reacts with
  | candidateForwarded gameOf there live present =>
    have seated : this.peerId ≠ 0 := fun zero => heard ⟨zero, by simp [Message.messageType]⟩
    cases out
    obtain ⟨g, mine, other⟩ := found_seat linked exact_s here seated gameOf there
    simp only [parcelOf, sendICECandidate, id] at found
    split at found
    · rename_i same
      exact ⟨g, _, same ▸ mine, other⟩
    · cases found
  | relayForwarded present gameOf there live =>
    have seated : this.peerId ≠ 0 := fun zero => heard ⟨zero, by simp [Message.messageType]⟩
    cases out
    obtain ⟨g, mine, other⟩ := found_seat linked exact_s here seated gameOf there
    simp only [parcelOf, sendP2PRelayData, id] at found
    split at found
    · rename_i same
      exact ⟨g, _, same ▸ mine, other⟩
    · cases found
  | _ => cases out <;> cases found

theorem destined_iff (linked : s.registry.Linked) (exact_s : s.registry.Exact)
    (here : s.connections.lookup self = some this) (seated : this.peerId ≠ 0) {game : Game}
    (gameOf : GameOf s this game) {dest : ConnPtr} {named : PeerId}
    (found : game.peers.lookup named = some dest) (sx : Seat s x g p) (sy : Seat s y g q) :
    (dest = y ∧ this.peerId = p) ↔ (self = x ∧ named = q) := by
  obtain ⟨h, mine, other⟩ := found_seat linked exact_s here seated gameOf found
  constructor
  · rintro ⟨rfl, rfl⟩
    obtain ⟨w, c, _, live, _⟩ := id sy.2
    obtain ⟨named_eq, hg, _⟩ := seat_fields other live
    obtain ⟨q_eq, hg', _⟩ := seat_fields sy live
    cases hg.symm.trans hg'
    exact ⟨seat_unique linked exact_s mine sx, named_eq.symm.trans q_eq⟩
  · rintro ⟨rfl, rfl⟩
    obtain ⟨same, hg, _⟩ := seat_fields sx here
    obtain ⟨_, hg', _⟩ := seat_fields mine here
    cases hg.symm.trans hg'
    exact ⟨seat_unique linked exact_s other sy, same⟩

theorem not_destined (linked : s.registry.Linked) (exact_s : s.registry.Exact)
    (here : s.connections.lookup self = some this) {game : Game} (gameOf : GameOf s this game)
    {named : PeerId} (missing : game.peers.lookup named = none) (sx : Seat s x g p)
    (sy : Seat s y g q) : ¬ (self = x ∧ named = q) := by
  rintro ⟨rfl, rfl⟩
  obtain ⟨h, hg, known⟩ := gameOf
  obtain ⟨_, hg', _⟩ := seat_fields sx here
  cases hg.symm.trans hg'
  have listed := (peers_iff_openAs linked exact_s known _ _).mpr sy
  cases missing.symm.trans listed

theorem parcels_saidTo {dest : ConnPtr} {msg : Message} {parcel : Parcel} {sender : PeerId}
    (carries : parcelOf p msg = if sender = p then some parcel else none) :
    parcels p (saidTo y (some (dest, msg))) = if dest = y ∧ sender = p then [parcel] else [] := by
  by_cases own : dest = y <;> by_cases mine : sender = p <;>
    simp [parcels, saidTo, carries, own, mine]

theorem parcels_reply {out : Option (ConnPtr × Message)}
    (quiet : (out.bind fun r => parcelOf p r.2) = none) : parcels p (saidTo y out) = [] := by
  cases out with
  | none => rfl
  | some r =>
    have nothing : parcelOf p r.2 = none := quiet
    by_cases own : r.1 = y <;> simp [parcels, saidTo, nothing, own]

theorem handedIn_named (reached : s.reachedBy x q = some y) {named : PeerId} {parcel : Parcel}
    (carries : (parcelOf q m).map Parcel.copied = if named = q then some parcel else none) :
    (handedIn s x y q self m).toList = if self = x ∧ named = q then [parcel] else [] := by
  by_cases own : self = x <;> by_cases other : named = q <;>
    simp [handedIn, reached, carries, own, other]

theorem handedIn_other (other : self = x → parcelOf q m = none) :
    (handedIn s x y q self m).toList = [] := by
  by_cases own : self = x <;> simp_all [handedIn]

theorem parcelOf_named {named : PeerId} {parcel : Option Parcel}
    (carries : parcelOf q m = if named = q then parcel else none)
    (apart : ¬ (self = x ∧ named = q)) :
    self = x → parcelOf q m = none := by
  intro own
  rw [carries, if_neg fun other => apart ⟨own, other⟩]

theorem told_handedIn (linked : s.registry.Linked) (exact_s : s.registry.Exact)
    (here : s.connections.lookup self = some this)
    (heard : ¬ (this.peerId = 0 ∧ m.messageType ≠ .HelloServer)) {b : Bool} {e : Effect}
    (reacts : Reacts env s self this m b e) (sx : Seat s x g p) (sy : Seat s y g q) :
    parcels p (saidTo y (e.output env self s)) = (handedIn s x y q self m).toList := by
  have reached : s.reachedBy x q = some y := (reachedBy_iff linked exact_s).mpr ⟨g, p, sx, sy⟩
  cases reacts with
  | @candidateForwarded c game dest other offer gameOf found live present =>
    have seated : this.peerId ≠ 0 := fun zero => heard ⟨zero, by simp [Message.messageType]⟩
    have carried : (parcelOf q (.iceCandidate (some c))).map Parcel.copied =
        if c.peerId = q then some (.candidate (cStr offer)) else none := by
      simp only [parcelOf, present]
      split <;> rfl
    rw [Effect.output, handedIn_named reached carried]
    exact (parcels_saidTo rfl).trans
      (if_congr (destined_iff linked exact_s here seated gameOf found sx sy) rfl rfl)
  | @relayForwarded c game bytes dest other present gameOf found live =>
    have seated : this.peerId ≠ 0 := fun zero => heard ⟨zero, by simp [Message.messageType]⟩
    have carried : (parcelOf q (.p2pRelayData (some c))).map Parcel.copied =
        if c.peerId = q then some (Parcel.copied (.data bytes)) else none := by
      simp only [parcelOf, present]
      split <;> rfl
    rw [Effect.output, handedIn_named reached carried]
    exact (parcels_saidTo rfl).trans
      (if_congr (destined_iff linked exact_s here seated gameOf found sx sy) rfl rfl)
  | candidateMissing gameOf missing =>
    have apart := not_destined linked exact_s here gameOf missing sx sy
    rw [handedIn_other (parcelOf_named rfl apart)]
    exact parcels_reply rfl
  | relayMissing present gameOf missing =>
    have apart := not_destined linked exact_s here gameOf missing sx sy
    rw [handedIn_other (parcelOf_named rfl apart)]
    exact parcels_reply rfl
  | ignored kind =>
    have nothing : parcelOf q m = none := by
      cases m <;> simp_all [Message.messageType, parcelOf]
    rw [handedIn_other fun _ => nothing]
    exact parcels_reply rfl
  | _ =>
    rw [handedIn_other fun _ => rfl]
    exact parcels_reply rfl

/-! ### Whole histories -/

def Waiting (s : Server) (conn : ConnPtr) : Prop :=
  (∃ c, s.connections.lookup conn = some c) ∧ ∀ g p, ¬ Seat s conn g p

theorem few_before (step : Step env s d t) (few : ∀ g, t.idsHandedOut g < 2 ^ 32 - 1) (g : GameId) :
    s.idsHandedOut g < 2 ^ 32 - 1 :=
  Nat.lt_of_le_of_lt (books_issued (step_books step) g) (few g)

theorem waiting_before (linked' : t.registry.Linked) (step : Step env s d t)
    (waiting : Waiting t x) : (∃ wsi, d = .opened wsi x) ∨ Waiting s x := by
  obtain ⟨⟨c, live⟩, unseated⟩ := waiting
  exact unseated_before linked' step live unseated

theorem handedOver_waiting (history : History env past s)
    (few : ∀ g, s.idsHandedOut g < 2 ^ 32 - 1) (waiting : Waiting s x ∨ Waiting s y) :
    handedOver x y q past = [] := by
  induction history with
  | start initial => rfl
  | @next past s t d before step ih =>
    have few' := few_before step few
    have linked := history_linked before
    have exact_s := history_exact before few'
    have linked' := history_linked (before.next step)
    have earlier : (∃ wsi, d = .opened wsi x ∨ d = .opened wsi y) ∨ Waiting s x ∨ Waiting s y := by
      rcases waiting with wx | wy
      · rcases waiting_before linked' step wx with ⟨wsi, rfl⟩ | was
        · exact .inl ⟨wsi, .inl rfl⟩
        · exact .inr (.inl was)
      · rcases waiting_before linked' step wy with ⟨wsi, rfl⟩ | was
        · exact .inl ⟨wsi, .inr rfl⟩
        · exact .inr (.inr was)
    rcases earlier with ⟨wsi, rfl | rfl⟩ | was
    · simp [handedOver]
    · simp [handedOver]
    · have nothing := ih few' was
      cases d with
      | message self m =>
        have apart : ¬ s.reachedBy x q = some y := by
          rw [reachedBy_iff linked exact_s]
          rintro ⟨g, p, sx, sy⟩
          exact was.elim (fun w => w.2 g p sx) (fun w => w.2 g q sy)
        simp [handedOver, handedIn, apart, nothing]
      | _ => simp [handedOver, nothing]

/-- How the messages for `y` are sorted by their senders. -/
structure Sorted (past : List (Server × Deed)) (s : Server) (y : ConnPtr) (msgs : List Message) :
    Prop where
  nobody : parcels 0 msgs = []
  waiting : Waiting s y → ∀ p, parcels p msgs = []
  fresh : ∀ g q, Seat s y g q → ∀ p, s.idsHandedOut g < p.toNat → parcels p msgs = []
  seated : ∀ g q, Seat s y g q → ∀ x p, Seat s x g p → parcels p msgs = handedOver x y q past

theorem Sorted.step {msgs more : List Message} (sorted : Sorted past s y msgs)
    (history : History env past s) (few : ∀ g, t.idsHandedOut g < 2 ^ 32 - 1)
    (step : Step env s d t) (open_before : ∀ wsi, d ≠ .opened wsi y)
    (told : ∀ g q, Seat s y g q → ∀ x p, Seat s x g p →
      handedOver x y q past ++ parcels p more = handedOver x y q ((s, d) :: past))
    (seats : ∀ p, parcels p more ≠ [] → ∃ g q self, Seat s self g p ∧ Seat s y g q) :
    Sorted ((s, d) :: past) t y (msgs ++ more) := by
  have few' := few_before step few
  have linked := history_linked history
  have exact_s := history_exact history few'
  have next := history.next step
  have linked' := history_linked next
  have both : ∀ p, parcels p msgs = [] → (¬ ∃ g q self, Seat s self g p ∧ Seat s y g q) →
      parcels p (msgs ++ more) = [] := by
    intro p before nobody
    have after : parcels p more = [] := by_contra fun some_more => nobody (seats p some_more)
    simp_all [parcels]
  -- an id that is new is nobody's
  have nobody : ∀ {g q p}, Seat s y g q → s.idsHandedOut g < p.toNat →
      ¬ ∃ g q self, Seat s self g p ∧ Seat s y g q := by
    rintro g q p sy unused ⟨h, q', self, seat, sy'⟩
    obtain ⟨w, c, _, live, _⟩ := id sy.2
    obtain ⟨_, game, _⟩ := seat_fields sy live
    obtain ⟨_, game', _⟩ := seat_fields sy' live
    cases game.symm.trans game'
    exact Nat.lt_irrefl _ (Nat.lt_of_lt_of_le unused (seat_counted linked exact_s seat))
  have unplaced : Waiting s y → ∀ p, ¬ ∃ g q self, Seat s self g p ∧ Seat s y g q := by
    rintro waiting p ⟨g, q, self, _, sy⟩
    exact waiting.2 g q sy
  constructor
  · exact both 0 sorted.nobody fun ⟨_, _, _, seat, _⟩ => seat.1 rfl
  · intro waiting p
    rcases waiting_before linked' step waiting with ⟨wsi, opened⟩ | was
    · exact absurd opened (open_before wsi)
    · exact both p (sorted.waiting was p) (unplaced was p)
  · intro g q sy p unused
    have unused_s := Nat.lt_of_le_of_lt (books_issued (step_books step) g) unused
    rcases seat_before history linked few' step sy with was | ⟨live, unseated, _⟩
    · exact both p (sorted.fresh g q was p unused_s) (nobody was unused_s)
    · exact both p (sorted.waiting ⟨live, unseated⟩ p) (unplaced ⟨live, unseated⟩ p)
  · intro g q sy x p sx
    have greeted : ∀ z hello, d = .message z (.helloServer (some hello)) →
        handedOver x y q ((s, d) :: past) = handedOver x y q past := by
      rintro z hello rfl
      simp [handedOver, handedIn, parcelOf]
    rcases seat_before history linked few' step sy with old_y | ⟨live, unseated, _, hello, deed⟩
    · rcases seat_before history linked few' step sx with
        old_x | ⟨live, unseated, unused, hello, deed⟩
      · rw [← told g q old_y x p old_x, ← sorted.seated g q old_y x p old_x]
        exact List.filterMap_append
      · rw [greeted x hello deed, handedOver_waiting history few' (.inl ⟨live, unseated⟩)]
        exact both p (sorted.fresh g q old_y p unused) (nobody old_y unused)
    · rw [greeted y hello deed, handedOver_waiting history few' (.inr ⟨live, unseated⟩)]
      exact both p (sorted.waiting ⟨live, unseated⟩ p) (unplaced ⟨live, unseated⟩ p)

theorem silent_handedIn (linked : s.registry.Linked) (exact_s : s.registry.Exact) {b : Bool}
    (returns : Returns (processMsg env self m) s b t)
    (silent : ∀ msg, ¬ Tells env s self m t y msg) (sx : Seat s x g p) (sy : Seat s y g q) :
    handedIn s x y q self m = none := by
  obtain ⟨this, here, _⟩ := returns_deref_bind.mp returns
  rcases processMsg_cases here returns with ⟨unseated, _, _, rfl⟩ | ⟨heard, e, reacts, same⟩
  · refine if_neg ?_
    rintro ⟨rfl, _⟩
    exact (seat_fields sx here).2.2 unseated
  · have told := told_handedIn linked exact_s here heard reacts sx sy
    cases out : e.output env self s with
    | none => simpa [out, saidTo, parcels] using told.symm
    | some r =>
      obtain ⟨dest, msg⟩ := r
      by_cases own : dest = y
      · exact absurd ⟨this, b, e, here, heard, reacts, same, own ▸ out⟩ (silent msg)
      · simpa [out, saidTo, parcels, own] using told.symm

theorem talk_sorted {msgs : List Message} (history : History env past s)
    (few : ∀ g, s.idsHandedOut g < 2 ^ 32 - 1) (talk : Talk env y past s msgs) :
    Sorted past s y msgs := by
  induction talk with
  | opened step =>
    refine ⟨rfl, fun _ _ => rfl, fun _ _ _ _ _ => rfl, fun g q _ x p _ => ?_⟩
    simp [handedOver, parcels]
  | @queued past s t msgs self m msg talk step tells ih =>
    cases history with
    | next before _ =>
      have few' := few_before step few
      have linked := history_linked before
      have exact_s := history_exact before few'
      obtain ⟨this, b, e, here, heard, reacts, _, out⟩ := tells
      refine (ih before few').step before few step (fun _ => nofun) ?_ ?_
      · intro g q sy x p sx
        have told := told_handedIn linked exact_s here heard reacts sx sy
        simp only [out, saidTo, if_true] at told
        rw [handedOver, told]
      · intro p some_parcel
        cases found : parcelOf p msg with
        | none => exact absurd (by simp [parcels, found]) some_parcel
        | some parcel =>
          obtain ⟨g, q, seats⟩ := told_seats linked exact_s here heard reacts out found
          exact ⟨g, q, self, seats⟩
  | @other past s t msgs d talk step still silent ih =>
    cases history with
    | next before _ =>
      have few' := few_before step few
      have linked := history_linked before
      have exact_s := history_exact before few'
      have sorted : Sorted ((s, d) :: past) t y (msgs ++ []) := by
        refine (ih before few').step before few step still ?_ fun _ h => absurd rfl h
        intro g q sy x p sx
        cases d with
        | message self m =>
          cases step with
          | message returns =>
            rw [handedOver, silent_handedIn linked exact_s returns (silent _ _ · rfl) sx sy]
            rfl
        | opened wsi conn =>
          have fresh := step_opened_fresh step
          have not_x : conn ≠ x := by
            rintro rfl
            obtain ⟨w, c, _, live, _⟩ := sx.2
            exact fresh (StdMap.mem_iff_lookup.mpr ⟨c, live⟩)
          have not_y : conn ≠ y := fun same => still wsi (same ▸ rfl)
          simp [handedOver, parcels, not_x, not_y]
        | _ => simp [handedOver, parcels]
      rwa [List.append_nil] at sorted

/-! ### Since both are in the game -/

theorem reaches_handedOut {later : List (Server × Deed)} (run : Trace (· = s) (Step env) later t)
    (g : GameId) : s.idsHandedOut g ≤ t.idsHandedOut g := by
  induction run with
  | start initial => exact Nat.le_of_eq (congrArg (·.idsHandedOut g) initial.symm)
  | next _ step ih => exact Nat.le_trans ih (books_issued (step_books step) g)

theorem step_handedOver (linked : s.registry.Linked) (exact_s : s.registry.Exact)
    (step : Step env s d t) (sx : Seat s x g p) (sy : Seat s y g q) :
    ∃ more, processedOn x ((s, d) :: past) = processedOn x past ++ more ∧
      handedOver x y q ((s, d) :: past) =
        handedOver x y q past ++ (more.filterMap (parcelOf q)).map Parcel.copied := by
  cases d with
  | message self m =>
    refine ⟨if self = x then [m] else [], rfl, ?_⟩
    have reached : s.reachedBy x q = some y := (reachedBy_iff linked exact_s).mpr ⟨g, p, sx, sy⟩
    by_cases own : self = x
    · cases found : parcelOf q m <;> simp [handedOver, handedIn, own, reached, found]
    · simp [handedOver, handedIn, own]
  | opened wsi conn =>
    have fresh := step_opened_fresh step
    have still : ∀ {z i}, Seat s z g i → conn ≠ z := by
      rintro z i ⟨_, w, c, _, live, _⟩ rfl
      exact fresh (StdMap.mem_iff_lookup.mpr ⟨c, live⟩)
    exact ⟨[], by simp [processedOn, still sx], by simp [handedOver, still sx, still sy]⟩
  | _ => exact ⟨[], by simp [processedOn], by simp [handedOver]⟩

/-- What `x` hands over to `y` are the parcels among its last messages; those before them had been
processed at any moment at which both were in the game. -/
theorem handedOver_processed (history : History env past s)
    (few : ∀ g, s.idsHandedOut g < 2 ^ 32 - 1) (sx : Seat s x g p) (sy : Seat s y g q) :
    ∃ early late, processedOn x past = early ++ late ∧
      handedOver x y q past = (late.filterMap (parcelOf q)).map Parcel.copied ∧
      ∀ later before u, past = later ++ before → History env before u →
        Trace (· = u) (Step env) later s → Seat u x g p → Seat u y g q →
        early.length ≤ (processedOn x before).length := by
  induction history with
  | start initial => exact ⟨[], [], rfl, rfl, fun _ _ _ _ _ _ _ _ => Nat.zero_le _⟩
  | @next past s t d history step ih =>
    have few' := few_before step few
    have linked := history_linked history
    have exact_s := history_exact history few'
    -- an id that is new was nobody's before
    have never : ∀ {z i}, s.idsHandedOut g < i.toNat → ∀ {later before u}, History env before u →
        Trace (· = u) (Step env) later s → ¬ Seat u z g i := by
      intro z i unused later before u earlier run seat
      have less := reaches_handedOut run g
      have few_u : ∀ g, u.idsHandedOut g < 2 ^ 32 - 1 := fun g =>
        Nat.lt_of_le_of_lt (reaches_handedOut run g) (few' g)
      have counted := seat_counted (history_linked earlier) (history_exact earlier few_u) seat
      omega
    have alone : handedOver x y q ((s, d) :: past) = [] →
        (∀ later before u, History env before u → Trace (· = u) (Step env) later s →
          ¬ (Seat u x g p ∧ Seat u y g q)) →
        ∃ early late, processedOn x ((s, d) :: past) = early ++ late ∧
          handedOver x y q ((s, d) :: past) = (late.filterMap (parcelOf q)).map Parcel.copied ∧
          ∀ later before u, (s, d) :: past = later ++ before → History env before u →
            Trace (· = u) (Step env) later t → Seat u x g p → Seat u y g q →
            early.length ≤ (processedOn x before).length := by
      intro nothing apart
      refine ⟨processedOn x ((s, d) :: past), [], by simp, by simp [nothing], ?_⟩
      intro later before u split earlier run ux uy
      cases run with
      | start => rw [split, List.nil_append]
      | next run _ =>
        cases split
        exact absurd ⟨ux, uy⟩ (apart _ _ _ earlier run)
    have greeted : ∀ z hello, d = .message z (.helloServer (some hello)) →
        handedOver x y q ((s, d) :: past) = handedOver x y q past := by
      rintro z hello rfl
      simp [handedOver, handedIn, parcelOf]
    rcases seat_before history linked few' step sx with
      old_x | ⟨live, unseated, unused, hello, deed⟩
    · rcases seat_before history linked few' step sy with
        old_y | ⟨live, unseated, unused, hello, deed⟩
      · obtain ⟨early, late, all, handed, bound⟩ := ih few' old_x old_y
        obtain ⟨more, processed, grown⟩ :=
          @step_handedOver env s t past d x y g p q linked exact_s step old_x old_y
        refine ⟨early, late ++ more, by simp [processed, all], by simp [grown, handed], ?_⟩
        intro later before u split earlier run ux uy
        cases run with
        | start =>
          rw [← List.nil_append before, ← split, processed, all]
          simp only [List.length_append]
          omega
        | next run _ =>
          cases split
          exact bound _ _ _ rfl earlier run ux uy
      · refine alone ?_ fun _ _ _ earlier run seats => never unused earlier run seats.2
        rw [greeted y hello deed, handedOver_waiting history few' (.inr ⟨live, unseated⟩)]
    · refine alone ?_ fun _ _ _ earlier run seats => never unused earlier run seats.1
      rw [greeted x hello deed, handedOver_waiting history few' (.inl ⟨live, unseated⟩)]

end

end HumbleNet.PeerServer
