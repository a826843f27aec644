import HumbleNet.PeerServer.Aliases

/-! What is left when websockets close. Whichever of them close, and in whatever order, the
others keep what they have, and nothing remains of those that closed: no connection, no peer,
no alias. A server whose websockets have all closed holds its games and their counters only. -/
namespace HumbleNet.PeerServer

open Program Ownership

def closeAll : List Wsi → ServerM Unit
  | [] => pure ()
  | wsi :: wsis => do
    discard (closed wsi)
    closeAll wsis

def Server.peerOf (s : Server) (g : GameId) (peerId : PeerId) : Option ConnPtr :=
  (s.games.lookup g).bind fun game => game.peers.lookup peerId

def Server.numbersOf (s : Server) (g : GameId) : Option (GameId × PeerId) :=
  (s.games.lookup g).map fun game => (game.gameId, game.nextPeerId)

/-- The connection is open on a websocket that stays. -/
def StaysOpen (s : Server) (gone : List Wsi) (conn : ConnPtr) : Prop :=
  ∃ c, s.connections.lookup conn = some c ∧ c.wsi ∉ gone

/-- The second server is the first one without the websockets that are gone. -/
structure Without (s : Server) (gone : List Wsi) (t : Server) : Prop where
  websockets : ∀ wsi, t.signalConnections.lookup wsi =
    if wsi ∈ gone then none else s.signalConnections.lookup wsi
  connections : ∀ conn c, t.connections.lookup conn = some c ↔
    s.connections.lookup conn = some c ∧ c.wsi ∉ gone
  numbers : ∀ g, t.numbersOf g = s.numbersOf g
  gameDB : t.gameDB = s.gameDB
  stunServerAddress : t.stunServerAddress = s.stunServerAddress
  writable : t.writable = s.writable
  handedOut : t.handedOut = s.handedOut
  admitted : t.admitted = s.admitted
  peers : ∀ g p conn, t.peerOf g p = some conn ↔
    s.peerOf g p = some conn ∧ StaysOpen s gone conn
  aliases : ∀ g a p, t.aliasOwner g a = some p ↔
    s.aliasOwner g a = some p ∧ ∃ conn, s.peerOf g p = some conn ∧ StaysOpen s gone conn

section

variable {env : Externals} {s t : Server} {past : List (Server × Deed)} {wsi : Wsi} {retval : Int}

theorem peerOf_iff (linked : s.registry.Linked) (exact_s : s.registry.Exact) {g : GameId}
    {p : PeerId} {conn : ConnPtr} : s.peerOf g p = some conn ↔ Seat s conn g p := by
  constructor
  · intro listed
    obtain ⟨game, known, there⟩ := Option.bind_eq_some_iff.mp listed
    exact (peers_iff_openAs linked exact_s known p conn).mp there
  · rintro ⟨nonzero, openAs⟩
    obtain ⟨w, c, owned, live, hg, same⟩ := id openAs
    obtain ⟨_, hro⟩ := Option.ne_none_iff_exists'.mp
      (linked.known conn _ g (registry_member live) hg)
    obtain ⟨game, known, _⟩ := Option.map_eq_some_iff.mp hro
    exact Option.bind_eq_some_iff.mpr
      ⟨game, known, (peers_iff_openAs linked exact_s known p conn).mpr ⟨nonzero, openAs⟩⟩

theorem closed_rest (returns : Returns (closed wsi) s retval t) :
    ∃ signalConnections connections games,
      t = { s with signalConnections, connections, games } := by
  rcases closed_cases returns with ⟨_, rfl⟩ | ⟨_, _, _, _, ends⟩
  · exact ⟨_, _, _, rfl⟩
  · rcases ends with ⟨_, rfl⟩ | ⟨_, _, _, _, _, rfl⟩ <;> exact ⟨_, _, _, rfl⟩

theorem closed_handedOut (returns : Returns (closed wsi) s retval t) :
    t.handedOut = s.handedOut := by
  obtain ⟨_, _, _, rfl⟩ := closed_rest returns
  rfl

theorem closed_websockets (returns : Returns (closed wsi) s retval t) (w : Wsi) :
    t.signalConnections.lookup w = if w = wsi then none else s.signalConnections.lookup w := by
  rcases closed_cases returns with ⟨missing, rfl⟩ | ⟨_, _, _, _, ends⟩
  · split
    · rename_i same
      rw [same, missing]
    · rfl
  · rcases ends with ⟨_, rfl⟩ | ⟨_, _, _, _, _, rfl⟩ <;> exact StdMap.lookup_erase_if _ _ _

theorem closed_connections (linked : s.registry.Linked) (returns : Returns (closed wsi) s retval t)
    (conn : ConnPtr) (c : P2PSignalConnection) : t.connections.lookup conn = some c ↔
      s.connections.lookup conn = some c ∧ c.wsi ≠ wsi := by
  have owns := fun live => linked.owns conn _ (registry_member (c := c) live)
  have owned_wsi := fun held live => linked.owned wsi conn _ held (registry_member (c := c) live)
  -- the connection that goes is the one whose websocket closes
  have drop : ∀ gone, s.signalConnections.lookup wsi = some gone →
      ((s.connections.erase gone).lookup conn = some c ↔
        s.connections.lookup conn = some c ∧ c.wsi ≠ wsi) := by
    intro gone held
    rw [StdMap.lookup_erase_if]
    constructor
    · intro there
      split at there
      · cases there
      · rename_i other
        refine ⟨there, fun same => other ?_⟩
        have back := owns there
        simp only [same] at back
        exact Option.some.inj (back.symm.trans held)
    · rintro ⟨there, other⟩
      rw [if_neg, there]
      rintro rfl
      exact other (owned_wsi held there)
  rcases closed_cases returns with ⟨missing, rfl⟩ | ⟨gone, _, held, _, ends⟩
  · refine ⟨fun there => ⟨there, fun same => ?_⟩, And.left⟩
    have back := owns there
    simp only [same] at back
    cases missing.symm.trans back
  · rcases ends with ⟨_, rfl⟩ | ⟨_, _, _, _, _, rfl⟩
    · exact drop gone held
    · exact drop gone held

theorem closed_numbers (returns : Returns (closed wsi) s retval t) (g : GameId) :
    t.numbersOf g = s.numbersOf g := by
  rcases closed_cases returns with ⟨_, rfl⟩ | ⟨_, _, _, _, ends⟩
  · rfl
  · rcases ends with ⟨_, rfl⟩ | ⟨h, game, _, _, known, rfl⟩
    · rfl
    · simp only [Server.numbersOf, Server.drop, Server.updateGame, StdMap.lookup_modify]
      split
      · rename_i same
        rw [same, known]
        rfl
      · rfl

theorem closed_aliases (linked : s.registry.Linked) (exact_s : s.registry.Exact)
    (held : AliasesHeld t) (returns : Returns (closed wsi) s retval t) (g : GameId) (a : Bytes)
    (p : PeerId) :
    t.aliasOwner g a = some p ↔
      s.aliasOwner g a = some p ∧ ∃ conn c, Seat s conn g p ∧
        s.connections.lookup conn = some c ∧ c.wsi ≠ wsi := by
  have serves := closed_serves linked returns g
  constructor
  · intro after
    have before : s.aliasOwner g a = some p := by
      rcases serves with same | ⟨r, asks, served⟩
      · rw [same] at after
        exact after
      · rw [served] at after
        rcases owner_after after with ⟨before, _⟩ | rfl
        · exact before
        · obtain ⟨_, _, _, deed, _⟩ := asks
          cases deed
    obtain ⟨conn, nonzero, w, c, owned, live, hg, same⟩ := held g a p after
    obtain ⟨live', other⟩ := (closed_connections linked returns conn c).mp live
    exact ⟨before, conn, c, ⟨nonzero, same ▸ openAs_of_live linked live' hg⟩, live', other⟩
  · rintro ⟨before, conn, c, seat, live, other⟩
    rcases serves with same | ⟨r, asks, served⟩
    · rw [same]
      exact before
    · by_contra taken
      rw [served] at taken
      rcases (lost before taken).2 with rfl | rfl
      · obtain ⟨_, _, _, _, deed, _⟩ := asks
        cases deed
      · obtain ⟨conn', seat', leaves⟩ := asks
        rcases leaves with ⟨_, deed, _⟩ | ⟨_, deed, owned⟩
        · cases deed
        · cases deed
          have one := openAs_unique linked exact_s seat.1 seat.2 seat'.2
          subst one
          exact other (linked.owned wsi conn _ owned (registry_member live))

theorem closeAll_cons {wsis : List Wsi} :
    Returns (closeAll (wsi :: wsis)) s () t ↔
      ∃ retval u, Returns (closed wsi) s retval u ∧ Returns (closeAll wsis) u () t := by
  constructor
  · intro returns
    obtain ⟨_, u, first, rest⟩ := returns_bind.mp returns
    obtain ⟨retval, ran⟩ := returns_discard first
    exact ⟨retval, u, ran, rest⟩
  · rintro ⟨retval, u, first, rest⟩
    exact returns_bind.mpr ⟨(), u, returns_map.mpr ⟨retval, first, rfl⟩, rest⟩

theorem seat_stays (linked : s.registry.Linked) (linked' : t.registry.Linked) {gone : List Wsi}
    (connections : ∀ conn c, t.connections.lookup conn = some c ↔
      s.connections.lookup conn = some c ∧ c.wsi ∉ gone) {conn : ConnPtr} {g : GameId}
    {p : PeerId} : Seat t conn g p ↔ Seat s conn g p ∧ StaysOpen s gone conn := by
  constructor
  · rintro ⟨nonzero, w, c, _, live, hg, rfl⟩
    obtain ⟨before, stays⟩ := (connections conn c).mp live
    exact ⟨⟨nonzero, openAs_of_live linked before hg⟩, c, before, stays⟩
  · rintro ⟨⟨nonzero, w, c, _, live, hg, rfl⟩, c', live', stays⟩
    cases live.symm.trans live'
    exact ⟨nonzero, openAs_of_live linked' ((connections conn c).mpr ⟨live, stays⟩) hg⟩

theorem closed_without (history : History env past s) (few : ∀ g, s.idsHandedOut g < 2 ^ 32 - 1)
    (returns : Returns (closed wsi) s retval t) : Without s [wsi] t := by
  have next := history.next (.closed returns)
  have few' : ∀ g, t.idsHandedOut g < 2 ^ 32 - 1 := by
    intro g
    rw [Server.idsHandedOut, closed_handedOut returns]
    exact few g
  have linked := history_linked history
  have exact_s := history_exact history few
  have connections : ∀ conn c, t.connections.lookup conn = some c ↔
      s.connections.lookup conn = some c ∧ c.wsi ∉ [wsi] := by
    simpa using closed_connections linked returns
  obtain ⟨signalConnections, connections', games, rest⟩ := closed_rest returns
  constructor
  case websockets => simpa using closed_websockets returns
  case connections => exact connections
  case numbers => exact closed_numbers returns
  case peers =>
    intro g p conn
    rw [peerOf_iff (history_linked next) (history_exact next few'), peerOf_iff linked exact_s]
    exact seat_stays linked (history_linked next) connections
  case aliases =>
    intro g a p
    simp only [peerOf_iff linked exact_s, StaysOpen, List.mem_singleton]
    rw [closed_aliases linked exact_s (history_aliasesHeld next) returns]
    constructor
    · rintro ⟨before, conn, c, seat, live, other⟩
      exact ⟨before, conn, seat, c, live, other⟩
    · rintro ⟨before, conn, seat, c, live, other⟩
      exact ⟨before, conn, c, seat, live, other⟩
  all_goals rw [rest]

variable {gone more : List Wsi} {u : Server}

theorem Without.stays (h : Without s gone t) (conn : ConnPtr) :
    StaysOpen s gone conn ∧ StaysOpen t more conn ↔ StaysOpen s (gone ++ more) conn := by
  constructor
  · rintro ⟨⟨c, live, one⟩, c', live', two⟩
    cases live.symm.trans ((h.connections conn c').mp live').1
    exact ⟨c, live, by simp [one, two]⟩
  · rintro ⟨c, live, both⟩
    simp only [List.mem_append, not_or] at both
    exact ⟨⟨c, live, both.1⟩, c, (h.connections conn c).mpr ⟨live, both.1⟩, both.2⟩

theorem Without.trans (h : Without s gone t) (k : Without t more u) :
    Without s (gone ++ more) u := by
  have stays : ∀ conn, StaysOpen s gone conn ∧ StaysOpen t more conn ↔
      StaysOpen s (gone ++ more) conn := fun conn => h.stays conn
  constructor
  case websockets =>
    intro wsi
    rw [k.websockets, h.websockets]
    by_cases one : wsi ∈ gone
    · simp [one]
    · simp [one]
  case connections =>
    intro conn c
    rw [k.connections, h.connections]
    simp [and_assoc]
  case numbers => exact fun g => (k.numbers g).trans (h.numbers g)
  case gameDB => exact k.gameDB.trans h.gameDB
  case stunServerAddress => exact k.stunServerAddress.trans h.stunServerAddress
  case writable => exact k.writable.trans h.writable
  case handedOut => exact k.handedOut.trans h.handedOut
  case admitted => exact k.admitted.trans h.admitted
  case peers =>
    intro g p conn
    rw [k.peers, h.peers, and_assoc, stays]
  case aliases =>
    intro g a p
    rw [k.aliases, h.aliases]
    simp only [h.peers]
    constructor
    · rintro ⟨⟨before, _⟩, conn, ⟨listed, one⟩, two⟩
      exact ⟨before, conn, listed, (stays conn).mp ⟨one, two⟩⟩
    · rintro ⟨before, conn, listed, both⟩
      obtain ⟨one, two⟩ := (stays conn).mpr both
      exact ⟨⟨before, conn, listed, one⟩, conn, ⟨listed, one⟩, two⟩

theorem without_nobody (history : History env past s) (few : ∀ g, s.idsHandedOut g < 2 ^ 32 - 1) :
    Without s [] s := by
  have linked := history_linked history
  have exact_s := history_exact history few
  have all : ∀ {g p conn}, s.peerOf g p = some conn → StaysOpen s [] conn := by
    intro g p conn listed
    obtain ⟨_, _, c, _, live, _⟩ := (peerOf_iff linked exact_s).mp listed
    exact ⟨c, live, List.not_mem_nil⟩
  constructor
  case websockets => simp
  case connections => simp
  case peers => exact fun g p conn => ⟨fun listed => ⟨listed, all listed⟩, And.left⟩
  case aliases =>
    intro g a p
    refine ⟨fun owned => ⟨owned, ?_⟩, And.left⟩
    obtain ⟨conn, seat⟩ := history_aliasesHeld history g a p owned
    have listed := (peerOf_iff linked exact_s).mpr seat
    exact ⟨conn, listed, all listed⟩
  all_goals intros; rfl

theorem closeAll_without (history : History env past s)
    (few : ∀ g, s.idsHandedOut g < 2 ^ 32 - 1) (wsis : List Wsi) :
    ∃ t, Returns (closeAll wsis) s () t ∧ Without s wsis t := by
  induction wsis generalizing past s with
  | nil => exact ⟨s, returns_pure.mpr ⟨rfl, rfl⟩, without_nobody history few⟩
  | cons wsi wsis ih =>
    obtain ⟨retval, t, returns⟩ :=
      closed_completes (history_linked history) (history_exact history few) wsi
    have few' : ∀ g, t.idsHandedOut g < 2 ^ 32 - 1 := by
      intro g
      rw [Server.idsHandedOut, closed_handedOut returns]
      exact few g
    obtain ⟨u, rest, left⟩ := ih (history.next (.closed returns)) few'
    exact ⟨u, closeAll_cons.mpr ⟨retval, t, returns, rest⟩,
      (closed_without history few returns).trans left⟩

theorem Without.nothing (linked : s.registry.Linked) (h : Without s gone t)
    (all : ∀ wsi ∈ s.signalConnections, wsi ∈ gone) :
    t.signalConnections = ∅ ∧ t.connections = ∅ ∧
      ∀ g game, t.games.lookup g = some game → game.peers = ∅ ∧ game.aliases = ∅ := by
  have nobody : ∀ conn, ¬ StaysOpen s gone conn := by
    rintro conn ⟨c, live, stays⟩
    have owned := linked.owns conn _ (registry_member live)
    exact stays (all c.wsi (StdMap.mem_iff_lookup.mpr ⟨conn, owned⟩))
  refine ⟨StdMap.eq_empty_of_lookup fun wsi => ?_, StdMap.eq_empty_of_lookup fun conn => ?_,
    fun g game known => ⟨StdMap.eq_empty_of_lookup fun p => ?_,
      StdMap.eq_empty_of_lookup fun a => ?_⟩⟩
  · rw [h.websockets]
    split
    · rfl
    · rename_i absent
      exact AList.lookup_eq_none.mpr fun there => absent (all wsi there)
  · refine Option.eq_none_iff_forall_ne_some.mpr fun c live => ?_
    exact nobody conn ⟨c, (h.connections conn c).mp live⟩
  · refine Option.eq_none_iff_forall_ne_some.mpr fun conn listed => ?_
    have there : t.peerOf g p = some conn := Option.bind_eq_some_iff.mpr ⟨game, known, listed⟩
    exact nobody conn ((h.peers g p conn).mp there).2
  · refine Option.eq_none_iff_forall_ne_some.mpr fun p owned => ?_
    obtain ⟨_, conn, _, stays⟩ :=
      (h.aliases g a p).mp (Option.bind_eq_some_iff.mpr ⟨game, known, owned⟩)
    exact nobody conn stays

/-- Whichever websockets close, in whatever order: every close completes and the server is left
without these websockets and as it was otherwise. If it was all of them, nothing remains open,
and no game has a peer or an alias. -/
theorem closing_drains (history : History env past s)
    (few : ∀ g, s.idsHandedOut g < 2 ^ 32 - 1) (wsis : List Wsi) :
    ∃ t, Returns (closeAll wsis) s () t ∧ Without s wsis t ∧
      ((∀ wsi ∈ s.signalConnections, wsi ∈ wsis) →
        t.signalConnections = ∅ ∧ t.connections = ∅ ∧
        ∀ g game, t.games.lookup g = some game → game.peers = ∅ ∧ game.aliases = ∅) := by
  obtain ⟨t, returns, without⟩ := closeAll_without history few wsis
  exact ⟨t, returns, without, without.nothing (history_linked history)⟩

/-- Two peers of a game, one of them with an alias; the other one closes first. -/
theorem two_peers_leave : ∃ s t, Returns (closeAll [2, 1]) s () t ∧ Without s [2, 1] t ∧
    s.aliasOwner 1 [0x61] = some 1 ∧ t.connections = ∅ := by
  have run : (play plain (meeting ++ [.message 10 (.aliasRegister (some ⟨[0x61]⟩))])).any
      (fun r => decide (r.2.aliasOwner 1 [0x61] = some 1 ∧
        r.2.signalConnections.keys = [2, 1] ∧ r.2.handedOut.length = 2)) = true := by
    decide +kernel
  obtain ⟨past, s, history, facts⟩ := played run
  obtain ⟨owned, keys, two⟩ := of_decide_eq_true facts
  have few := few_of_length (s := s) (by rw [two]; decide)
  obtain ⟨t, returns, without, nothing⟩ := closing_drains history few [2, 1]
  have all : ∀ wsi ∈ s.signalConnections, wsi ∈ ([2, 1] : List Wsi) := by
    intro wsi there
    rw [← keys]
    exact AList.mem_keys.mp there
  exact ⟨s, t, returns, without, owned, (nothing all).2.1⟩

end

end HumbleNet.PeerServer
