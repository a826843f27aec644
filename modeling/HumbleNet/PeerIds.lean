import HumbleNet.Client.Run
import HumbleNet.PeerServer.Admission

/-! The ids that a game hands out. Its counter goes through all 32-bit values, of which the
server gives 0 a meaning and the client those with the highest bit. -/
namespace HumbleNet.PeerServer

open Program Function

/-! ### The counter, in the books -/

section books

variable {W C G : Type} {n : Nat} {ro : Roster C}

structure Roster.Counts (n : Nat) (ro : Roster C) : Prop where
  next : ro.next = UInt32.ofNat (n + 1)
  ids : ∀ id c, ro.peers id = some c → ∃ k, 0 < k ∧ k ≤ n ∧ id = UInt32.ofNat k

theorem counts_new : (Registry.newRoster : Roster C).Counts 0 := ⟨rfl, nofun⟩

theorem Roster.Counts.join (counts : ro.Counts n) (c : C) :
    (Registry.Roster.join ro c).Counts (n + 1) where
  next := by
    change ro.next + 1 = _
    rw [counts.next]
    exact (UInt32.ofNat_add _ _).symm
  ids id c' there := by
    change update ro.peers ro.next _ id = some c' at there
    rw [update_apply] at there
    split at there
    · rename_i own
      exact ⟨n + 1, Nat.succ_pos n, Nat.le_refl _, own.trans counts.next⟩
    · obtain ⟨k, pos, le, eq⟩ := counts.ids id c' there
      exact ⟨k, pos, Nat.le_succ_of_le le, eq⟩

theorem Roster.Counts.leave (counts : ro.Counts n) (gone : PeerId) :
    (Registry.Roster.leave ro gone).Counts n where
  next := counts.next
  ids id c there := by
    rw [Registry.Roster.leave_peers] at there
    split at there
    · cases there
    · exact counts.ids id c there

def Registry.Counted (r : Registry W C G) : Prop :=
  ∀ g, match r.roster g with
    | none => r.issued g = 0
    | some ro => ro.Counts (r.issued g)

theorem counted_empty : (Registry.empty : Registry W C G).Counted := fun _ => rfl

variable [DecidableEq W] [DecidableEq C] [DecidableEq G]

theorem Registry.Counted.step {r r' : Registry W C G} (counted : r.Counted)
    (step : Registry.Step r r') : r'.Counted := by
  intro h
  have before := counted h
  cases step with
  | opened newWsi newConn => exact before
  | named there unseated exist => exact before
  | dropped owned there unseated => exact before
  | @created g newGame =>
    by_cases same : h = g
    · subst same
      rw [newGame] at before
      simp only [update_self]
      rw [before]
      exact counts_new
    · simp only [update_of_ne same]
      exact before
  | @joined c m g ro there unseated game known =>
    by_cases same : h = g
    · subst same
      rw [known] at before
      simp only [update_self]
      exact before.join c
    · simp only [update_of_ne same]
      exact before
  | @left w c m g ro owned there seated game known =>
    by_cases same : h = g
    · subst same
      rw [known] at before
      simp only [update_self]
      exact before.leave m.peerId
    · simp only [update_of_ne same]
      exact before

theorem Registry.Counted.run {r r' : Registry W C G} (counted : r.Counted)
    (run : Registry.Run r r') : r'.Counted := by
  induction run with
  | refl => exact counted
  | tail _ step ih => exact ih.step step

end books

/-! ### A hello that is accepted -/

/-- The connection has no id yet and supports WebRTC, and its hello leads to this game. -/
def Issues (env : Externals) (s : Server) (d : Deed) (g : GameId) (game : Game) : Prop :=
  ∃ self this hello, d = .message self (.helloServer (some hello)) ∧
    s.connections.lookup self = some this ∧ this.peerId = 0 ∧ hello.flags &&& 0x01 ≠ 0 ∧
    (getVerifiedGame env hello s).1 = some g ∧
    (getVerifiedGame env hello s).2.games.lookup g = some game

/-- An id that is not that of a connection without one, nor another peer's, and that no client
takes for an alias. -/
def Usable (game : Game) (peerId : PeerId) : Prop :=
  peerId ≠ 0 ∧ peerId ∉ game.peers ∧ Client.internalAliasIsVirtualPeer peerId = false

section

variable {env : Externals} {s t : Server} {self : ConnPtr} {this : P2PSignalConnection}
  {past : List (Server × Deed)} {g : GameId} {d : Deed}

theorem effect_idsHandedOut {e : Effect} (issues : ∀ hello g, e ≠ .accept hello g) (g : GameId) :
    (e.apply env self this s).idsHandedOut g = s.idsHandedOut g := by
  have queued : ∀ (u : Server) dest msg, (u.queue env dest msg).idsHandedOut g = u.idsHandedOut g :=
    fun u dest msg => congrArg (Registry.issued · g) (registry_queue dest msg)
  have aliases : ∀ f, (s.updateGameOf this f).idsHandedOut g = s.idsHandedOut g := by
    intro f
    unfold Server.updateGameOf
    split
    · rfl
    · rfl
  cases e with
  | idle => rfl
  | send dest msg => exact queued s dest msg
  | connect dest msg => exact queued _ dest msg
  | register aliasName => exact aliases _
  | unregister aliasName => exact aliases _
  | unregisterAll => exact aliases _
  | refuse hello =>
    obtain ⟨gameDB, games, found⟩ := getVerifiedGame_frame env s hello
    simp only [Effect.apply, found]
    rfl
  | accept hello h => exact absurd rfl (issues hello h)

theorem accept_idsHandedOut (hello : HelloServer) (h g : GameId) :
    (Effect.apply env self this s (.accept hello h)).idsHandedOut g =
      s.idsHandedOut g + if h = g then 1 else 0 := by
  obtain ⟨gameDB, games, found⟩ := getVerifiedGame_frame env s hello
  apply (congrArg (Registry.issued · g) (registry_queue self _)).trans
  change (((h, s.admits env hello h) :: (getVerifiedGame env hello s).2.handedOut).countP
    fun x => decide (x.1 = g)) = _
  rw [List.countP_cons, found]
  simp only [decide_eq_true_eq]
  rfl

theorem step_issues (step : Step env s d t) (g : GameId) : t.idsHandedOut g = s.idsHandedOut g ∨
    (∃ game, Issues env s d g game) ∧ t.idsHandedOut g = s.idsHandedOut g + 1 := by
  cases step with
  | opened allowed returns =>
    rw [returns_established allowed returns]
    exact Or.inl rfl
  | closed returns =>
    rcases closed_cases returns with ⟨_, rfl⟩ | ⟨_, _, _, _, ⟨_, rfl⟩ | ⟨_, _, _, _, _, rfl⟩⟩
    · exact Or.inl rfl
    · exact Or.inl rfl
    · exact Or.inl rfl
  | arrived conn data => exact Or.inl rfl
  | erased conn size => exact Or.inl rfl
  | writeable returns =>
    rcases writeable_cases returns with ⟨rfl, _⟩ | ⟨_, _, _, _, _, _, _, rfl⟩
    · exact Or.inl rfl
    · exact Or.inl rfl
  | message returns =>
    obtain ⟨this, here, _⟩ := returns_deref_bind.mp returns
    rcases processMsg_cases here returns with ⟨_, _, _, rfl⟩ | ⟨_, e, reacts, rfl⟩
    · exact Or.inl rfl
    · cases reacts with
      | @helloAdmitted hello h unseated able found =>
        by_cases same : h = g
        · subst same
          obtain ⟨_, _, exist⟩ := getVerifiedGame_books env s hello
          obtain ⟨game, there⟩ := exist h found
          refine Or.inr ⟨⟨game, _, this, hello, rfl, here, unseated, able, found, there⟩, ?_⟩
          rw [accept_idsHandedOut, if_pos rfl]
        · refine Or.inl ?_
          rw [accept_idsHandedOut, if_neg same, Nat.add_zero]
      | _ => exact Or.inl (effect_idsHandedOut (by intros; exact nofun) g)

theorem issues_step {game : Game} (step : Step env s d t) (issues : Issues env s d g game) :
    t.idsHandedOut g = s.idsHandedOut g + 1 := by
  obtain ⟨self, this, hello, rfl, here, unseated, able, found, -⟩ := issues
  cases step with
  | message returns =>
    rcases processMsg_cases here returns with ⟨_, other, _⟩ | ⟨_, e, reacts, rfl⟩
    · exact absurd rfl other
    · cases reacts with
      | helloAgain seated => exact absurd unseated seated
      | helloWithoutWebRTC _ without => exact absurd without able
      | helloRefused _ _ refused =>
        rw [found] at refused
        cases refused
      | helloAdmitted _ _ found' =>
        rw [found] at found'
        cases found'
        rw [accept_idsHandedOut, if_pos rfl]
      | ignored kind => simp [Message.messageType] at kind

theorem issues_counts (history : History env past s) {game : Game}
    (issues : Issues env s d g game) :
    (⟨game.nextPeerId, fun peerId => game.peers.lookup peerId⟩ : Roster ConnPtr).Counts
      (s.idsHandedOut g) := by
  obtain ⟨self, this, hello, -, -, -, -, -, there⟩ := issues
  have run := (history_books history).trans (getVerifiedGame_books env s hello).1
  have counted := counted_empty.run run g
  obtain ⟨gameDB, games, same⟩ := getVerifiedGame_frame env s hello
  rw [registry_roster there] at counted
  rw [same] at counted
  exact counted

theorem history_moment (history : History env past s) (g : GameId) : ∀ m ∈ past,
    (∃ earlier, History env earlier m.1) ∧ m.1.idsHandedOut g ≤ s.idsHandedOut g ∧
      ∀ game, Issues env m.1 m.2 g game → m.1.idsHandedOut g < s.idsHandedOut g := by
  refine history.invariant (I := fun past s => ∀ m ∈ past, (∃ earlier, History env earlier m.1) ∧
    m.1.idsHandedOut g ≤ s.idsHandedOut g ∧
      ∀ game, Issues env m.1 m.2 g game → m.1.idsHandedOut g < s.idsHandedOut g) ?_ ?_
  · exact fun _ _ _ there => absurd there List.not_mem_nil
  · intro past s d t before ih step m there
    have grows := books_issued (step_books step) g
    rcases List.mem_cons.mp there with rfl | there
    · refine ⟨⟨past, before⟩, grows, fun game issues => ?_⟩
      rw [issues_step step issues]
      exact Nat.lt_succ_self _
    · obtain ⟨earlier, le, lt⟩ := ih m there
      exact ⟨earlier, le.trans grows, fun game issues => (lt game issues).trans_le grows⟩

theorem history_passes (history : History env past s) (g : GameId) : ∀ n < s.idsHandedOut g,
    ∃ m ∈ past, m.1.idsHandedOut g = n ∧ ∃ game, Issues env m.1 m.2 g game := by
  refine history.invariant (I := fun past s => ∀ n < s.idsHandedOut g,
    ∃ m ∈ past, m.1.idsHandedOut g = n ∧ ∃ game, Issues env m.1 m.2 g game) ?_ ?_
  · rintro _ ⟨gameDB, stunServerAddress, -, rfl⟩ n below
    exact absurd below (Nat.not_lt_zero n)
  · intro past s d t before ih step n below
    have earlier : ∀ n < s.idsHandedOut g, ∃ m ∈ (s, d) :: past, m.1.idsHandedOut g = n ∧
        ∃ game, Issues env m.1 m.2 g game := by
      intro n below
      obtain ⟨m, there, rest⟩ := ih n below
      exact ⟨m, List.mem_cons_of_mem _ there, rest⟩
    rcases step_issues step g with same | ⟨issues, more⟩
    · exact earlier n (same ▸ below)
    · by_cases now : n = s.idsHandedOut g
      · exact ⟨(s, d), List.mem_cons_self, now.symm, issues⟩
      · exact earlier n (by omega)

/-! ### Which ids are usable -/

theorem not_virtual {k : Nat} (small : k < 2 ^ 31) :
    Client.internalAliasIsVirtualPeer (UInt32.ofNat k) = false := by
  unfold Client.internalAliasIsVirtualPeer
  rw [decide_eq_false_iff_not]
  intro same
  have bits := congrArg (fun id : UInt32 => id.toNat.testBit 31) same
  simp only [UInt32.toNat_and, Nat.testBit_and] at bits
  have high : (UInt32.ofNat k).toNat.testBit 31 = false := by
    rw [UInt32.toNat_ofNat_of_lt' (by change k < 2 ^ 32; omega)]
    exact Nat.testBit_lt_two_pow small
  rw [high] at bits
  revert bits
  decide

theorem usable_of_few {game : Game} {n : Nat} (few : n + 1 < 2 ^ 31)
    (counts :
      (⟨game.nextPeerId, fun peerId => game.peers.lookup peerId⟩ : Roster ConnPtr).Counts n) :
    Usable game game.nextPeerId := by
  have next : game.nextPeerId = UInt32.ofNat (n + 1) := counts.next
  have value : ∀ k, k < 2 ^ 31 → (UInt32.ofNat k).toNat = k := fun k small =>
    UInt32.toNat_ofNat_of_lt' (by change k < 2 ^ 32; omega)
  refine ⟨fun zero => ?_, fun there => ?_, next ▸ not_virtual few⟩
  · have same := congrArg UInt32.toNat (next.symm.trans zero)
    rw [value _ few] at same
    exact absurd same (Nat.succ_ne_zero n)
  · obtain ⟨conn, there⟩ := StdMap.mem_iff_lookup.mp there
    obtain ⟨k, -, le, eq⟩ := counts.ids _ conn there
    have same := congrArg UInt32.toNat (next.symm.trans eq)
    rw [value _ few, value k (by omega)] at same
    omega

/-- Every id that a game hands out is usable just when it hands out less than 2^31 of them. -/
theorem peer_ids_usable_iff (history : History env past s) (g : GameId) :
    (∀ m ∈ past, ∀ game, Issues env m.1 m.2 g game → Usable game game.generateNewPeerId.1) ↔
      s.idsHandedOut g < 2 ^ 31 := by
  constructor
  · intro usable
    by_contra many
    obtain ⟨m, there, count, game, issues⟩ :=
      history_passes history g (2 ^ 31 - 1) (by omega)
    obtain ⟨⟨earlier, before⟩, -⟩ := history_moment history g m there
    have next : game.nextPeerId = UInt32.ofNat (m.1.idsHandedOut g + 1) :=
      (issues_counts before issues).next
    have clear := (usable m there game issues).2.2
    change Client.internalAliasIsVirtualPeer game.nextPeerId = false at clear
    rw [next, count] at clear
    exact absurd clear (by decide)
  · intro few m there game issues
    obtain ⟨⟨earlier, before⟩, -, lt⟩ := history_moment history g m there
    have below := lt game issues
    exact usable_of_few (by omega) (issues_counts before issues)

end

/-- The two hellos of a meeting get usable ids. -/
theorem peer_ids_usable_meeting : ∃ past s, History plain past s ∧ s.idsHandedOut 1 = 2 ∧
    ∀ m ∈ past, ∀ game, Issues plain m.1 m.2 1 game → Usable game game.generateNewPeerId.1 := by
  have met : (play plain meeting).any (fun r => decide (r.2.idsHandedOut 1 = 2)) = true := by
    decide +kernel
  obtain ⟨past, s, history, two⟩ := played met
  have count := of_decide_eq_true two
  exact ⟨past, s, history, count,
    (peer_ids_usable_iff history 1).mpr (count ▸ (by decide : 2 < 2 ^ 31))⟩

/-! ### Visitors that come and go -/

def openHouse : GameDB := .flatFile (StdMap.emplace [0x67] ⟨1, [], false⟩ ∅)

structure Visited (n : Nat) (s : Server) : Prop where
  gone : 1 ∉ s.signalConnections
  gameDB : s.gameDB = openHouse
  count : s.idsHandedOut 1 = n
  bound : ∀ g, s.idsHandedOut g ≤ n

theorem openHouse_welcomes {s : Server} (gameDB : s.gameDB = openHouse) :
    (getVerifiedGame plain ⟨0, 1, [0x67], [], none, none, none⟩ s).1 = some 1 := by
  have found : (s.gameDB.findByToken (cStr [0x67])).1 = some ⟨1, [], false⟩ := by
    rw [gameDB]
    decide
  unfold getVerifiedGame
  dsimp only
  rw [found]
  dsimp only
  split
  · rename_i refused
    cases refused
  · split
    · rfl
    · rfl

section

variable {s t : Server} {past : List (Server × Deed)} {conn : ConnPtr}

theorem visitor_opens (gone : 1 ∉ s.signalConnections) : ∃ conn t, Step plain s (.opened 1 conn) t ∧
    t.connections.lookup conn = some (P2PSignalConnection.new 1) ∧ t.gameDB = s.gameDB ∧
    ∀ g, t.idsHandedOut g = s.idsHandedOut g := by
  have fresh := Client.freshKey_not_mem s.connections
  have allowed : Allowed s (.established 1 (Client.freshKey s.connections)) := ⟨gone, fresh⟩
  obtain ⟨r, t, returns⟩ : ∃ r t, Returns (established 1 (Client.freshKey s.connections)) s r t :=
    ⟨_, _, rfl⟩
  have step : Step plain s (.opened 1 (Client.freshKey s.connections)) t := .opened allowed returns
  rw [returns_established allowed returns] at step
  exact ⟨_, _, step, AList.lookup_insert s.connections, rfl, fun _ => rfl⟩

theorem visitor_greets (here : s.connections.lookup conn = some (P2PSignalConnection.new 1))
    (gameDB : s.gameDB = openHouse) : ∃ t, Step plain s (.message conn greeting) t ∧
      t.gameDB = openHouse ∧ t.idsHandedOut 1 = s.idsHandedOut 1 + 1 := by
  have ready : MsgReady s conn (P2PSignalConnection.new 1) greeting := by
    have unseated : (P2PSignalConnection.new 1).peerId = 0 := rfl
    unfold MsgReady
    rw [if_pos unseated]
    exact nofun
  have completes : Completes (processMsg plain conn greeting) s :=
    (processMsg_completes here (fun seated => absurd rfl seated) greeting).mpr ready
  obtain ⟨b, t, returns⟩ := completes
  have step : Step plain s (.message conn greeting) t := .message returns
  have found := openHouse_welcomes gameDB
  obtain ⟨_, _, exist⟩ := getVerifiedGame_books plain s ⟨0, 1, [0x67], [], none, none, none⟩
  obtain ⟨game, there⟩ := exist 1 found
  have fixed := (step_grows step).fixed (by rw [gameDB]; rfl)
  have issues : Issues plain s (.message conn greeting) 1 game :=
    ⟨conn, _, _, rfl, here, rfl, by decide, found, there⟩
  exact ⟨t, step, fixed.trans gameDB, issues_step step issues⟩

theorem visitor_leaves (history : History plain past s) (few : ∀ g, s.idsHandedOut g < 2 ^ 32 - 1) :
    ∃ t, Step plain s (.closed 1) t ∧ 1 ∉ t.signalConnections ∧ t.gameDB = s.gameDB ∧
      ∀ g, t.idsHandedOut g = s.idsHandedOut g := by
  obtain ⟨r, t, returns⟩ :=
    closed_completes (history_linked history) (history_exact history few) 1
  refine ⟨t, .closed returns, ?_⟩
  rcases closed_cases returns with ⟨gone, rfl⟩ | ⟨_, _, _, _, ⟨_, rfl⟩ | ⟨_, _, _, _, _, rfl⟩⟩
  · exact ⟨AList.lookup_eq_none.mp gone, rfl, fun _ => rfl⟩
  · exact ⟨fun there => (AList.mem_erase.mp there).1 rfl, rfl, fun _ => rfl⟩
  · exact ⟨fun there => (AList.mem_erase.mp there).1 rfl, rfl, fun _ => rfl⟩

theorem Visited.again {n : Nat} (history : History plain past s) (visited : Visited n s)
    (few : n + 1 < 2 ^ 32 - 1) : ∃ past' t, History plain past' t ∧ Visited (n + 1) t := by
  obtain ⟨conn, u, opens, here, same, count⟩ := visitor_opens visited.gone
  obtain ⟨v, greets, gameDB, more⟩ := visitor_greets here (same.trans visited.gameDB)
  have history' : History plain _ v := .next (.next history opens) greets
  have bound : ∀ g, v.idsHandedOut g ≤ n + 1 := by
    intro g
    have before := visited.bound g
    rcases step_issues greets g with eq | ⟨-, eq⟩
    · rw [eq, count]
      omega
    · rw [eq, count]
      omega
  obtain ⟨t, leaves, gone, same', count'⟩ :=
    visitor_leaves history' fun g => (bound g).trans_lt few
  refine ⟨_, t, .next history' leaves, gone, same'.trans gameDB, ?_, fun g => count' g ▸ bound g⟩
  rw [count', more, count, visited.count]

theorem visits (n : Nat) (few : n < 2 ^ 32 - 1) :
    ∃ past s, History plain past s ∧ Visited n s := by
  induction n with
  | zero =>
    refine ⟨[], Server.new openHouse [], .start ⟨openHouse, [], trivial, rfl⟩, ?_⟩
    exact ⟨List.not_mem_nil, rfl, rfl, fun _ => Nat.le_refl 0⟩
  | succ n ih =>
    obtain ⟨past, s, history, visited⟩ := ih (Nat.lt_of_succ_lt few)
    exact visited.again history few

end

/-- The hello of visitor number 2^31 is given an id that every client takes for an alias. -/
theorem peer_ids_run_out : ∃ past s m game, History plain past s ∧ m ∈ past ∧
    Issues plain m.1 m.2 1 game ∧ game.generateNewPeerId.1 = 0x80000000 ∧
    ¬ Usable game game.generateNewPeerId.1 := by
  obtain ⟨past, s, history, visited⟩ := visits (2 ^ 31) (by decide)
  obtain ⟨m, there, count, game, issues⟩ :=
    history_passes history 1 (2 ^ 31 - 1) (by have count := visited.count; omega)
  obtain ⟨⟨earlier, before⟩, -⟩ := history_moment history 1 m there
  have next : game.generateNewPeerId.1 = 0x80000000 := by
    have counts := (issues_counts before issues).next
    rw [count] at counts
    exact counts
  refine ⟨past, s, m, game, history, there, issues, next, fun usable => ?_⟩
  have clear := usable.2.2
  rw [next] at clear
  exact absurd clear (by decide)

end HumbleNet.PeerServer
