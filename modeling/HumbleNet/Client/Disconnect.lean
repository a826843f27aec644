import HumbleNet.Client.Release

/-! Which connections a disconnect closes: those that are registered under an id. Connections
also come about in other ways, by an offer of the other side or before the first message. -/
namespace HumbleNet.Client

open Guarded

/-- Just the chosen connections have been closed; whose they are is as before. -/
structure ClosesThose (chosen : ConnPtr → Prop) (s t : State) : Prop where
  peers : t.p2pconnections = s.p2pconnections
  virtual : t.virtualPeerConnections = s.virtualPeerConnections
  live : ∀ k, k ∈ t.heap ↔ k ∈ s.heap
  heap : ∀ k c, s.heap.lookup k = some c → ∃ d, t.heap.lookup k = some d ∧
    d.otherPeer = c.otherPeer ∧ (d.status = .closed ↔ c.status = .closed ∨ chosen k)

section

variable {env : Externals} {s t u : State} {conn : ConnPtr} {c : Connection}
  {chosen others : ConnPtr → Prop}

theorem ClosesThose.none (s : State) (nobody : ∀ k, ¬ chosen k) : ClosesThose chosen s s :=
  ⟨rfl, rfl, fun _ => Iff.rfl, fun k c here => ⟨c, here, rfl, (or_iff_left (nobody k)).symm⟩⟩

theorem ClosesThose.trans (first : ClosesThose chosen s u) (rest : ClosesThose others u t) :
    ClosesThose (fun k => chosen k ∨ others k) s t where
  peers := rest.peers.trans first.peers
  virtual := rest.virtual.trans first.virtual
  live k := (rest.live k).trans (first.live k)
  heap k c here := by
    obtain ⟨d, there, peer, closed⟩ := first.heap k c here
    obtain ⟨e, there', peer', closed'⟩ := rest.heap k d there
    refine ⟨e, there', peer'.trans peer, ?_⟩
    rw [closed', closed, or_assoc]

theorem ClosesThose.congr (h : ClosesThose chosen s t) (same : ∀ k, chosen k ↔ others k) :
    ClosesThose others s t := by
  refine ⟨h.peers, h.virtual, h.live, fun k c here => ?_⟩
  obtain ⟨d, there, peer, closed⟩ := h.heap k c here
  exact ⟨d, there, peer, closed.trans (or_congr_right (same k))⟩

theorem setClosed_live {deleted : Bool}
    (ends : Amid (Alone env) (setClosed conn deleted) s () t) :
    ∃ c, s.heap.lookup conn = some c := by
  obtain ⟨u, closes, -⟩ := amid_setClosed.mp ends
  obtain ⟨c, here, -⟩ := amid_deref_bind.mp closes
  exact ⟨c, here⟩

theorem setClosed_closesThose
    (ends : Amid (Alone env) (humblenetConnectionSetClosed conn) s () t) :
    ClosesThose (· = conn) s t := by
  obtain ⟨c, here⟩ := setClosed_live ends
  obtain ⟨-, m, eq, -⟩ := setClosed_alone here ends
  rw [eq]
  refine ⟨rfl, rfl, fun k => StdMap.mem_modify, fun k c here => ?_⟩
  refine ⟨_, StdMap.lookup_modify_some.mpr ⟨c, here, rfl⟩, ?_⟩
  by_cases same : k = conn
  · rw [if_pos same]
    exact ⟨rfl, iff_of_true rfl (Or.inr same)⟩
  · rw [if_neg same]
    exact ⟨rfl, (or_iff_left same).symm⟩

theorem from_leastKey {after : PeerId → Bool} {m : StdMap PeerId ConnPtr} {k : ConnPtr}
    (upward : ∀ key key', key ≤ key' → after key = true → after key' = true) :
    (∃ first ∈ leastKey after m, ∃ key, first ≤ key ∧ m.lookup key = some k) ↔
      ∃ key, after key = true ∧ m.lookup key = some k := by
  constructor
  · rintro ⟨first, least, key, later, there⟩
    exact ⟨key, upward first key later (leastKey_some least).1, there⟩
  · rintro ⟨key, passed, there⟩
    have mem : key ∈ m := StdMap.mem_iff_lookup.mpr ⟨k, there⟩
    cases least : leastKey after m with
    | none => exact absurd passed (Bool.eq_false_iff.mp (leastKey_none least key mem))
    | some first => exact ⟨first, rfl, key, (leastKey_some least).2 key mem passed, there⟩

theorem disconnectFrom_closes {fuel : Nat} {key : Option PeerId}
    (ends : Amid (Alone env) (disconnectFrom fuel key) s () t) :
    ClosesThose (fun k => ∃ first ∈ key, ∃ peer, first ≤ peer ∧
      s.p2pconnections.lookup peer = some k) s t := by
  induction fuel generalizing key s with
  | zero =>
    cases key with
    | none =>
      obtain ⟨-, rfl⟩ := amid_pure.mp ends
      exact .none _ fun k chosen => absurd chosen (by simp)
    | some first => exact absurd ends amid_fault
  | succ fuel ih =>
    cases key with
    | none =>
      obtain ⟨-, rfl⟩ := amid_pure.mp ends
      exact .none _ fun k chosen => absurd chosen (by simp)
    | some first =>
      replace ends := amid_get_bind.mp ends
      split at ends
      · exact absurd ends amid_fault
      · rename_i conn registered
        obtain ⟨_, u, closes, ends⟩ := amid_bind.mp ends
        have one := setClosed_closesThose closes
        replace ends := amid_get_bind.mp ends
        split at ends
        · have rest := ih ends
          rw [one.peers] at rest
          refine (one.trans rest).congr fun k => ?_
          have later : (∃ next ∈ leastKey (fun key => decide (first < key)) s.p2pconnections,
              ∃ key, next ≤ key ∧ s.p2pconnections.lookup key = some k) ↔
              ∃ key, decide (first < key) = true ∧ s.p2pconnections.lookup key = some k :=
            from_leastKey fun key key' le passed =>
              decide_eq_true (UInt32.lt_of_lt_of_le (of_decide_eq_true passed) le)
          simp only [later, decide_eq_true_eq, Option.mem_some_iff, exists_eq_left']
          constructor
          · rintro (rfl | ⟨peer, after, there⟩)
            · exact ⟨first, UInt32.le_refl _, registered⟩
            · exact ⟨peer, UInt32.le_of_lt after, there⟩
          · rintro ⟨peer, le, there⟩
            by_cases same : first = peer
            · subst same
              cases registered.symm.trans there
              exact Or.inl rfl
            · exact Or.inr ⟨peer, UInt32.lt_of_le_of_ne le same, there⟩
        · exact absurd ends amid_fault

/-- Listed where the call looks: under the id, or under any. -/
def Listed (s : State) (peer : PeerId) (conn : ConnPtr) : Prop :=
  s.initialized = true ∧ ∃ key, s.p2pconnections.lookup key = some conn ∧ (peer = 0 ∨ key = peer)

/-- Meant by the call: any connection, or one to the peer that stands for no name. -/
def Meant (s : State) (peer : PeerId) (conn : ConnPtr) (c : Connection) : Prop :=
  peer = 0 ∨ c.otherPeer = peer ∧ s.virtualPeerConnections.listB.lookup conn = none

theorem disconnect_closes {fuel : Nat} {peer : PeerId} {r : Bool}
    (ends : Amid (Alone env) (humblenetP2PDisconnect fuel peer) s r t) :
    ClosesThose (Listed s peer) s t := by
  replace ends := amid_get_bind.mp ends
  split at ends
  · rename_i initialized
    replace ends := amid_get_bind.mp ends
    split at ends
    · rename_i all
      obtain ⟨_, u, closes, last⟩ := amid_bind.mp ends
      obtain ⟨-, rfl⟩ := amid_pure.mp last
      refine (disconnectFrom_closes closes).congr fun k => ?_
      rw [from_leastKey fun _ _ _ _ => rfl]
      simp only [Listed, initialized, all, true_and, true_or, and_true]
    · rename_i one
      split at ends
      · rename_i conn registered
        obtain ⟨_, u, closes, last⟩ := amid_bind.mp ends
        obtain ⟨-, rfl⟩ := amid_pure.mp last
        refine (setClosed_closesThose closes).congr fun k => ?_
        constructor
        · rintro rfl
          exact ⟨initialized, peer, registered, Or.inr rfl⟩
        · rintro ⟨-, key, there, zero | rfl⟩
          · exact absurd zero one
          · exact Option.some.inj (there.symm.trans registered)
      · rename_i unregistered
        obtain ⟨-, rfl⟩ := amid_pure.mp ends
        refine .none _ fun k chosen => ?_
        obtain ⟨-, key, there, zero | rfl⟩ := chosen
        · exact one zero
        · cases there.symm.trans unregistered
  · rename_i missing
    replace ends := amid_modify_bind.mp ends
    obtain ⟨-, rfl⟩ := amid_pure.mp ends
    have same : ClosesThose (Listed s peer) s s :=
      ClosesThose.none s fun k chosen => missing chosen.1
    exact ⟨same.peers, same.virtual, same.live, same.heap⟩

/-- After a disconnect every connection that it is meant for is closed just when those that
were not are registered under an id that the call looks for. -/
theorem disconnect_reaches_iff {fuel : Nat} {peer : PeerId} {r : Bool}
    (ends : Amid (Alone env) (humblenetP2PDisconnect fuel peer) s r t) :
    (∀ conn d, t.heap.lookup conn = some d → Meant t peer conn d → d.status = .closed) ↔
      ∀ conn c, s.heap.lookup conn = some c → Meant s peer conn c → c.status ≠ .closed →
        Listed s peer conn := by
  have closes := disconnect_closes ends
  have meant : ∀ conn c d, d.otherPeer = c.otherPeer →
      (Meant t peer conn d ↔ Meant s peer conn c) := by
    intro conn c d same
    unfold Meant
    rw [same, closes.virtual]
  constructor
  · intro reached conn c here for_ open_
    obtain ⟨d, there, same, closed⟩ := closes.heap conn c here
    have shut := reached conn d there ((meant conn c d same).mpr for_)
    exact (closed.mp shut).resolve_left open_
  · intro registered conn d there for_
    obtain ⟨c, here⟩ := StdMap.mem_iff_lookup.mp
      ((closes.live conn).mp (StdMap.mem_iff_lookup.mpr ⟨d, there⟩))
    obtain ⟨d', there', same, closed⟩ := closes.heap conn c here
    cases there.symm.trans there'
    refine closed.mpr (or_iff_not_imp_left.mpr fun open_ => ?_)
    exact registered conn c here ((meant conn c d same).mp for_) open_

/-! ### It comes to an end -/

def Closable (s : State) : Prop :=
  ∀ peer conn, s.p2pconnections.lookup peer = some conn → ∃ c, s.heap.lookup conn = some c ∧
    ∀ socket ∈ c.socket, socket ∈ s.sockets

theorem closable_setClosed (closable : Closable s) {peer : PeerId}
    (registered : s.p2pconnections.lookup peer = some conn) :
    ∃ t, Amid (Alone env) (humblenetConnectionSetClosed conn) s () t ∧ Closable t ∧
      t.p2pconnections = s.p2pconnections := by
  obtain ⟨c, here, live⟩ := closable peer conn registered
  obtain ⟨t, ends, sockets⟩ : ∃ t, Amid (Alone env) (setClosed conn false) s () t ∧
      ∀ k, k ∈ t.sockets ↔ k ∈ s.sockets := setClosed_ends_quietly here live
  refine ⟨t, ends, ?_, (setClosed_closesThose ends).peers⟩
  obtain ⟨-, m, eq, -⟩ := setClosed_alone here ends
  intro peer' k registered'
  rw [eq] at registered'
  obtain ⟨d, there, live'⟩ := closable peer' k registered'
  have after : t.heap.lookup k = some (if k = conn then
      { d with socket := none, status := .closed } else d) := by
    rw [eq]
    exact StdMap.lookup_modify_some.mpr ⟨d, there, rfl⟩
  refine ⟨_, after, fun socket its => ?_⟩
  rw [sockets]
  split at its
  · cases its
  · exact live' socket its

def idsFrom (m : StdMap PeerId ConnPtr) (first : PeerId) : List PeerId :=
  m.keys.filter fun key => decide (first ≤ key)

theorem idsFrom_next {m : StdMap PeerId ConnPtr} {first next : PeerId} (there : first ∈ m)
    (least : leastKey (fun key => decide (first < key)) m = some next) :
    (idsFrom m next).length < (idsFrom m first).length := by
  have later : first < next := of_decide_eq_true (leastKey_some least).1
  have nested : idsFrom m next = (idsFrom m first).filter fun key => decide (next ≤ key) := by
    unfold idsFrom
    rw [List.filter_filter]
    apply List.filter_congr
    intro key _
    have upward : next ≤ key → first ≤ key :=
      fun le => UInt32.le_of_lt (UInt32.lt_of_lt_of_le later le)
    by_cases le : next ≤ key
    · simp [le, upward le]
    · simp [le]
  rw [nested, List.length_filter_lt_length_iff_exists]
  refine ⟨first, List.mem_filter.mpr ⟨AList.mem_keys.mpr there, ?_⟩, ?_⟩
  · exact decide_eq_true (UInt32.le_refl first)
  · simpa using later

theorem disconnectFrom_ends {fuel : Nat} {key : Option PeerId} (closable : Closable s)
    (enough : ∀ first ∈ key, first ∈ s.p2pconnections ∧
      (idsFrom s.p2pconnections first).length ≤ fuel) :
    ∃ t, Amid (Alone env) (disconnectFrom fuel key) s () t := by
  induction fuel generalizing key s with
  | zero =>
    cases key with
    | none => exact ⟨s, amid_pure.mpr ⟨rfl, rfl⟩⟩
    | some first =>
      obtain ⟨there, none_⟩ := enough first rfl
      have mem : first ∈ idsFrom s.p2pconnections first :=
        List.mem_filter.mpr ⟨AList.mem_keys.mpr there, decide_eq_true (UInt32.le_refl first)⟩
      rw [List.length_eq_zero_iff.mp (Nat.le_zero.mp none_)] at mem
      cases mem
  | succ fuel ih =>
    cases key with
    | none => exact ⟨s, amid_pure.mpr ⟨rfl, rfl⟩⟩
    | some first =>
      obtain ⟨there, some_⟩ := enough first rfl
      obtain ⟨conn, registered⟩ := StdMap.mem_iff_lookup.mp there
      obtain ⟨u, closes, closable', peers⟩ : ∃ u,
          Amid (Alone env) (humblenetConnectionSetClosed conn) s () u ∧ Closable u ∧
            u.p2pconnections = s.p2pconnections := closable_setClosed closable registered
      have rest : ∃ t, Amid (Alone env) (disconnectFrom fuel
          (leastKey (fun key => decide (first < key)) u.p2pconnections)) u () t := by
        apply ih closable'
        intro next least
        rw [peers] at least ⊢
        have := idsFrom_next there least
        exact ⟨leastKey_mem least, by omega⟩
      obtain ⟨t, rest⟩ := rest
      refine ⟨t, amid_get_bind.mpr ?_⟩
      rw [registered]
      refine amid_bind.mpr ⟨(), u, closes, amid_get_bind.mpr ?_⟩
      rw [if_pos (peers ▸ there)]
      exact rest

theorem disconnect_ends {fuel : Nat} (closable : Closable s) (initialized : s.initialized = true)
    (enough : s.p2pconnections.keys.length ≤ fuel) (peer : PeerId) :
    ∃ t, Amid (Alone env) (humblenetP2PDisconnect fuel peer) s true t := by
  unfold humblenetP2PDisconnect initGuard
  simp only [amid_get_bind, if_pos initialized]
  split
  · obtain ⟨t, closes⟩ : ∃ t, Amid (Alone env)
        (disconnectFrom fuel (leastKey (fun _ => true) s.p2pconnections)) s () t :=
      disconnectFrom_ends closable fun first least =>
        ⟨leastKey_mem least, (List.length_filter_le _ _).trans enough⟩
    exact ⟨t, amid_bind.mpr ⟨(), t, closes, amid_pure.mpr ⟨rfl, rfl⟩⟩⟩
  · cases registered : s.p2pconnections.lookup peer with
    | none => exact ⟨s, amid_pure.mpr ⟨rfl, rfl⟩⟩
    | some conn =>
      obtain ⟨t, closes, -, -⟩ : ∃ t,
          Amid (Alone env) (humblenetConnectionSetClosed conn) s () t ∧ Closable t ∧
            t.p2pconnections = s.p2pconnections := closable_setClosed closable registered
      exact ⟨t, amid_bind.mpr ⟨(), t, closes, amid_pure.mpr ⟨rfl, rfl⟩⟩⟩

end

def closableNow (s : State) : Bool :=
  s.initialized && s.p2pconnections.entries.all fun e => (s.heap.lookup e.2).any fun c =>
    c.socket.all fun socket => decide (socket ∈ s.sockets)

theorem closable_of_now {s : State} (h : closableNow s = true) :
    s.initialized = true ∧ Closable s := by
  rw [closableNow, Bool.and_eq_true, List.all_eq_true] at h
  refine ⟨h.1, fun peer conn registered => ?_⟩
  have entry := h.2 ⟨peer, conn⟩ (AList.mem_lookup_iff.mp registered)
  obtain ⟨c, here, live⟩ := (Option.any_eq_true _ _).mp entry
  refine ⟨c, here, fun socket its => ?_⟩
  rw [Option.mem_def.mp its, Option.all_some] at live
  exact of_decide_eq_true live

/-- A message has been sent to peer 9, and all are disconnected. -/
theorem disconnect_sent : ∃ s t, history welcome InOrder (introduction ++ [.sendto [1] 9 1 0]) =
      some (.running ⟨s, []⟩) ∧
    Amid (Alone welcome) (humblenetP2PDisconnect 4 0) s true t ∧
    ((∀ conn d, t.heap.lookup conn = some d → Meant t 0 conn d → d.status = .closed) ↔
      ∀ conn c, s.heap.lookup conn = some c → Meant s 0 conn c → c.status ≠ .closed →
        Listed s 0 conn) := by
  have ready : ((history welcome InOrder (introduction ++ [.sendto [1] 9 1 0])).bind
      Config.resting).any (fun s => closableNow s && decide (s.p2pconnections.keys.length ≤ 4)) =
      true := by decide +kernel
  obtain ⟨s, now, ready⟩ := (Option.any_eq_true _ _).mp ready
  obtain ⟨c, h, resting⟩ := Option.bind_eq_some_iff.mp now
  cases Config.resting_some resting
  rw [Bool.and_eq_true, decide_eq_true_eq] at ready
  obtain ⟨initialized, closable⟩ := closable_of_now ready.1
  obtain ⟨t, ends⟩ : ∃ t, Amid (Alone welcome) (humblenetP2PDisconnect 4 0) s true t :=
    disconnect_ends closable initialized ready.2 0
  exact ⟨s, t, h, ends, disconnect_reaches_iff ends⟩

/-- Peer 9 has opened a connection, and nothing has come over it yet: to disconnect peer 9, or
all, leaves it open. -/
theorem disconnect_misses : ∃ s, history offerThenRelay InOrder (introduction ++
      [.webrtc 1 .established, .webrtc 1 .channelAccepted]) = some (.running ⟨s, []⟩) ∧
    TurnRun offerThenRelay InOrder (.running ⟨s, []⟩) ∧
    ∀ peer, peer = 0 ∨ peer = 9 →
      (∃ t, Amid (Alone offerThenRelay) (humblenetP2PDisconnect 4 peer) s true t) ∧
      ∀ r t, Amid (Alone offerThenRelay) (humblenetP2PDisconnect 4 peer) s r t →
        ∃ d, t.heap.lookup 1 = some d ∧ Meant t peer 1 d ∧ d.status ≠ .closed := by
  have opened : ((history offerThenRelay InOrder (introduction ++
      [.webrtc 1 .established, .webrtc 1 .channelAccepted])).bind Config.resting).any (fun s =>
        closableNow s && decide (s.p2pconnections.keys.length ≤ 0) &&
          ((s.heap.lookup 1).any fun c => decide (c.status = .connected ∧ c.otherPeer = 9)) &&
          decide (s.virtualPeerConnections.listB.lookup 1 = none)) = true := by decide +kernel
  obtain ⟨s, now, opened⟩ := (Option.any_eq_true _ _).mp opened
  obtain ⟨c, h, resting⟩ := Option.bind_eq_some_iff.mp now
  cases Config.resting_some resting
  simp only [Bool.and_eq_true, decide_eq_true_eq] at opened
  obtain ⟨⟨⟨closable, empty⟩, live⟩, unnamed⟩ := opened
  obtain ⟨initialized, closable⟩ := closable_of_now closable
  obtain ⟨c, here, connected⟩ := (Option.any_eq_true _ _).mp live
  obtain ⟨status, its⟩ := of_decide_eq_true connected
  refine ⟨s, h, turnRun_history _ h, fun peer meant => ⟨?_, fun r t ends => ?_⟩⟩
  · exact disconnect_ends closable initialized (empty.trans (Nat.zero_le 4)) peer
  · have closes := disconnect_closes ends
    obtain ⟨d, there, same, closed⟩ := closes.heap 1 c here
    refine ⟨d, there, ?_, fun shut => ?_⟩
    · rcases meant with rfl | rfl
      · exact Or.inl rfl
      · exact Or.inr ⟨same.trans its, closes.virtual ▸ unnamed⟩
    · rcases closed.mp shut with was | ⟨-, key, registered, -⟩
      · rw [status] at was
        cases was
      · have mem := AList.mem_keys.mp (StdMap.mem_iff_lookup.mpr ⟨1, registered⟩)
        rw [List.length_eq_zero_iff.mp (Nat.le_zero.mp empty)] at mem
        cases mem

end HumbleNet.Client
