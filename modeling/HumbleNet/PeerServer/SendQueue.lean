import HumbleNet.PeerServer.Touched

/-! The send queues. `sendMessage` appends and asks for a report when the queue was empty;
a report takes off what the websocket accepts and asks again while something is left. -/
namespace HumbleNet.PeerServer

open Program

inductive Act where
  | opened (wsi : Wsi) (conn : ConnPtr)
  | closed (wsi : Wsi)
  | send (conn : ConnPtr) (buff : Bytes)
  | writeable (wsi : Wsi) (accepted : Nat)
  | other

def P2PSignalConnection.outlet (c : P2PSignalConnection) : Wsi × Bytes := (c.wsi, c.sendBuf)

/-- `libwebsocket_write` does not fail: it accepts some bytes, no more than it is offered.
A step of another kind leaves queues and requests alone. -/
inductive QueueStep (env : Externals) : Server → Act → Server → Prop where
  | opened {s t : Server} {wsi : Wsi} {conn : ConnPtr} {retval : Int}
    (allowed : Allowed s (.established wsi conn))
    (returns : Returns (established wsi conn) s retval t) : QueueStep env s (.opened wsi conn) t
  | closed {s t : Server} {wsi : Wsi} {retval : Int} (returns : Returns (closed wsi) s retval t) :
    QueueStep env s (.closed wsi) t
  | send {s t : Server} {conn : ConnPtr} {buff : Bytes} {u : Unit}
    (returns : Returns (sendMessage conn buff) s u t) : QueueStep env s (.send conn buff) t
  | writeable {s t : Server} {wsi : Wsi} {accepted : Nat} {retval : Int}
    (returns : Returns (callbackHumblepeer env (.writeable wsi accepted)) s retval t) :
    QueueStep env s (.writeable wsi accepted) t
  | other {s t : Server} (signals : t.signalConnections = s.signalConnections)
    (requests : t.writable = s.writable)
    (outlets : ∀ conn, (t.connections.lookup conn).map (·.outlet) =
      (s.connections.lookup conn).map (·.outlet)) : QueueStep env s .other t

/-- All that was passed to `sendMessage` for the connection at an address, since it was
opened. -/
def sentTo (conn : ConnPtr) : List (Server × Act) → Bytes
  | [] => []
  | (_, .opened _ conn') :: past => if conn' = conn then [] else sentTo conn past
  | (_, .send conn' buff) :: past => sentTo conn past ++ if conn' = conn then buff else []
  | _ :: past => sentTo conn past

def acceptedFrom (conn : ConnPtr) (s : Server) (wsi : Wsi) (accepted : Nat) : Bytes :=
  if s.signalConnections.lookup wsi = some conn then
    match s.connections.lookup conn with
    | some c => c.sendBuf.take accepted
    | none => []
  else []

def acceptedBy (conn : ConnPtr) : List (Server × Act) → Bytes
  | [] => []
  | (_, .opened _ conn') :: past => if conn' = conn then [] else acceptedBy conn past
  | (s, .writeable wsi accepted) :: past =>
    acceptedBy conn past ++ acceptedFrom conn s wsi accepted
  | _ :: past => acceptedBy conn past

def Wired (s : Server) : Prop :=
  ∀ wsi conn, s.signalConnections.lookup wsi = some conn ↔
    ∃ c, s.connections.lookup conn = some c ∧ c.wsi = wsi

/-- What the queues keep: nothing is lost, and what is left will be asked for. -/
def Draining (past : List (Server × Act)) (s : Server) : Prop :=
  ∀ conn c, s.connections.lookup conn = some c →
    acceptedBy conn past ++ c.sendBuf = sentTo conn past ∧
    (c.sendBuf ≠ [] → c.wsi ∈ s.writable)

section

variable {env : Externals} {s t : Server} {a : Act} {past : List (Server × Act)}

theorem returns_sendMessage {conn : ConnPtr} {buff : Bytes} {u : Unit}
    (h : Returns (sendMessage conn buff) s u t) :
    ∃ c, s.connections.lookup conn = some c ∧
      t = { s.updateConnection conn fun c => { c with sendBuf := c.sendBuf ++ buff } with
        writable := if c.sendBuf.isEmpty then StdSet.insert c.wsi s.writable else s.writable } := by
  simp only [sendMessage, returns_bind, returns_deref, returns_modify] at h
  obtain ⟨c, _, ⟨live, rfl⟩, _, _, rfl, h⟩ := h
  refine ⟨c, live, ?_⟩
  split at h
  · rename_i empty
    rw [if_pos empty]
    exact returns_modify.mp h
  · rename_i waiting
    rw [if_neg waiting]
    exact (returns_pure.mp h).2

/-! ### Websockets -/

theorem wired_of_same (signals : t.signalConnections = s.signalConnections)
    (same : ∀ conn, (t.connections.lookup conn).map (·.wsi) =
      (s.connections.lookup conn).map (·.wsi)) (wired : Wired s) : Wired t := by
  intro wsi conn
  have iff : ∀ u : Server, (∃ c, u.connections.lookup conn = some c ∧ c.wsi = wsi) ↔
      (u.connections.lookup conn).map (·.wsi) = some wsi := fun u =>
    Option.map_eq_some_iff.symm
  rw [signals, wired, iff, iff, same]

theorem updateConnection_map {β : Type} (conn other : ConnPtr)
    {f : P2PSignalConnection → P2PSignalConnection} {g : P2PSignalConnection → β}
    (same : ∀ c, g (f c) = g c) :
    ((s.updateConnection conn f).connections.lookup other).map g =
      (s.connections.lookup other).map g := by
  rw [updateConnection_lookup, Option.map_map]
  refine Option.map_congr fun c _ => ?_
  simp only [Function.comp]
  split
  · exact same c
  · rfl

theorem step_wired (step : QueueStep env s a t) (wired : Wired s) : Wired t := by
  cases step with
  | @opened _ wsi conn _ allowed returns =>
    rw [returns_established allowed returns]
    intro w conn'
    have newWsi : s.signalConnections.lookup wsi = none := AList.lookup_eq_none.mpr allowed.1
    have newConn : s.connections.lookup conn = none := AList.lookup_eq_none.mpr allowed.2
    simp only [StdMap.lookup_emplace_new _ _ _ _ newWsi, StdMap.lookup_insert_if]
    by_cases own : conn' = conn
    · subst own
      simp only [if_true, Option.some.injEq, exists_eq_left']
      split
      · rename_i same
        simp [same, P2PSignalConnection.new]
      · rename_i differ
        rw [wired, newConn]
        simp [P2PSignalConnection.new, Ne.symm differ]
    · simp only [if_neg own]
      split
      · rename_i same
        subst same
        rw [← wired, newWsi]
        simp [Ne.symm own]
      · exact wired w conn'
  | @closed _ wsi _ returns =>
    have gone : ∀ conn, s.signalConnections.lookup wsi = some conn → ∀ u : Server,
        u.signalConnections = s.signalConnections → u.connections = s.connections →
        Wired (u.drop wsi conn) := by
      intro conn owned u signals conns w conn'
      simp only [Server.drop, signals, conns, StdMap.lookup_erase_if]
      by_cases own : conn' = conn
      · subst own
        simp only [if_true, reduceCtorEq, false_and, exists_false, iff_false]
        split
        · simp
        · rename_i differ
          intro owned'
          obtain ⟨c, live, rfl⟩ := (wired wsi conn').mp owned
          obtain ⟨c', live', rfl⟩ := (wired w conn').mp owned'
          rw [live] at live'
          cases live'
          exact differ rfl
      · simp only [if_neg own]
        split
        · rename_i same
          subst same
          rw [← wired, owned]
          simp [Ne.symm own]
        · exact wired w conn'
    rcases closed_cases returns with
      ⟨_, rfl⟩ | ⟨conn, c, owned, _, ⟨_, rfl⟩ | ⟨g, game, _, _, _, rfl⟩⟩
    · exact wired
    · exact gone conn owned s rfl rfl
    · exact gone conn owned _ rfl rfl
  | send returns =>
    obtain ⟨c, _, rfl⟩ := returns_sendMessage returns
    refine wired_of_same (s := s) rfl (fun other => ?_) wired
    apply updateConnection_map
    exact fun _ => rfl
  | writeable returns =>
    rcases writeable_cases returns with ⟨rfl, _⟩ | ⟨conn, _, _, _, _, _, _, rfl⟩
    · exact wired_of_same (s := s) rfl (fun _ => rfl) wired
    · refine wired_of_same (s := s) rfl (fun other => ?_) wired
      apply updateConnection_map
      exact fun _ => rfl
  | other signals requests outlets =>
    refine wired_of_same signals (fun conn => ?_) wired
    have same := congrArg (Option.map Prod.fst) (outlets conn)
    rw [Option.map_map, Option.map_map] at same
    exact same

/-! ### Queues -/

theorem opened_draining {wsi : Wsi} {conn : ConnPtr} {retval : Int}
    (allowed : Allowed s (.established wsi conn))
    (returns : Returns (established wsi conn) s retval t) (draining : Draining past s) :
    Draining ((s, .opened wsi conn) :: past) t := by
  rw [returns_established allowed returns]
  intro conn' c live
  simp only [StdMap.lookup_insert_if] at live
  split at live
  · rename_i own
    cases live
    simp [acceptedBy, sentTo, own, P2PSignalConnection.new]
  · rename_i differ
    simp only [acceptedBy, sentTo, if_neg (Ne.symm differ)]
    exact draining conn' c live

theorem closed_draining {wsi : Wsi} {retval : Int} (returns : Returns (closed wsi) s retval t)
    (draining : Draining past s) : Draining ((s, .closed wsi) :: past) t := by
  have rest : ∀ conn, ∀ u : Server, u.connections = s.connections → u.writable = s.writable →
      Draining ((s, .closed wsi) :: past) (u.drop wsi conn) := by
    intro conn u conns requests conn' c live
    simp only [Server.drop, conns, StdMap.lookup_erase_if] at live
    split at live
    · cases live
    · simp only [acceptedBy, sentTo, Server.drop, requests]
      exact draining conn' c live
  rcases closed_cases returns with ⟨_, rfl⟩ | ⟨conn, c, _, _, ⟨_, rfl⟩ | ⟨g, game, _, _, _, rfl⟩⟩
  · exact draining
  · exact rest conn s rfl rfl
  · exact rest conn _ rfl rfl

theorem send_draining {conn : ConnPtr} {buff : Bytes} {u : Unit}
    (returns : Returns (sendMessage conn buff) s u t) (draining : Draining past s) :
    Draining ((s, .send conn buff) :: past) t := by
  obtain ⟨c, live, rfl⟩ := returns_sendMessage returns
  intro conn' c' live'
  simp only [updateConnection_lookup, Option.map_eq_some_iff] at live'
  obtain ⟨c₀, before, rfl⟩ := live'
  obtain ⟨account, asked⟩ := draining conn' c₀ before
  have requested : c₀.sendBuf ≠ [] → c₀.wsi ∈
      (if c.sendBuf.isEmpty then StdSet.insert c.wsi s.writable else s.writable) := by
    intro waiting
    split
    · exact StdSet.mem_insert.mpr (Or.inr (asked waiting))
    · exact asked waiting
  by_cases own : conn' = conn
  · subst own
    rw [live] at before
    cases before
    simp only [if_true, acceptedBy, sentTo]
    refine ⟨by rw [← account, List.append_assoc], fun _ => ?_⟩
    cases queued : c.sendBuf with
    | nil => exact StdSet.mem_insert.mpr (Or.inl rfl)
    | cons b bs =>
      rw [queued] at requested
      exact requested (List.cons_ne_nil b bs)
  · simp only [if_neg own, if_neg (Ne.symm own), acceptedBy, sentTo, List.append_nil]
    exact ⟨account, requested⟩

theorem writeable_draining {wsi : Wsi} {accepted : Nat} {retval : Int}
    (returns : Returns (callbackHumblepeer env (.writeable wsi accepted)) s retval t)
    (wired : Wired s) (draining : Draining past s) :
    Draining ((s, .writeable wsi accepted) :: past) t := by
  -- a connection of another websocket is left as it is
  have foreign : ∀ conn c, s.connections.lookup conn = some c →
      s.signalConnections.lookup wsi ≠ some conn →
      acceptedFrom conn s wsi accepted = [] ∧ c.wsi ≠ wsi := by
    intro conn c live differ
    refine ⟨by rw [acceptedFrom, if_neg differ], ?_⟩
    rintro rfl
    exact differ ((wired c.wsi conn).mpr ⟨c, live, rfl⟩)
  rcases writeable_cases returns with ⟨rfl, idle⟩ | ⟨conn, c, owned, live, own, _, within, rfl⟩
  · intro conn c live
    obtain ⟨account, asked⟩ := draining conn c live
    by_cases owned : s.signalConnections.lookup wsi = some conn
    · have empty : c.sendBuf = [] := by
        obtain ⟨c', live', same⟩ := (wired wsi conn).mp owned
        rw [live] at live'
        cases live'
        rcases idle conn c owned live with differ | empty | failed
        · exact absurd same differ
        · exact empty
        · exact absurd failed (Int.not_lt.mpr (Int.natCast_nonneg accepted))
      simp only [acceptedBy, sentTo, acceptedFrom, if_pos owned, live, empty, List.take_nil,
        List.append_nil, ne_eq, not_true, false_imp_iff, and_true]
      rw [empty, List.append_nil] at account
      exact account
    · obtain ⟨nothing, differ⟩ := foreign conn c live owned
      simp only [acceptedBy, sentTo, nothing, List.append_nil]
      exact ⟨account, fun waiting => StdSet.mem_erase.mpr ⟨asked waiting, differ⟩⟩
  · intro conn' c' live'
    simp only [updateConnection_lookup, Option.map_eq_some_iff] at live'
    obtain ⟨c₀, before, rfl⟩ := live'
    obtain ⟨account, asked⟩ := draining conn' c₀ before
    by_cases same : conn' = conn
    · subst same
      rw [live] at before
      cases before
      simp only [if_true, acceptedBy, sentTo, acceptedFrom, if_pos owned, live, Int.toNat_natCast]
      refine ⟨by rw [← account, List.append_assoc, List.take_append_drop], fun waiting => ?_⟩
      have left : ¬ c.sendBuf.length = accepted := by
        intro all
        rw [← all, List.drop_length] at waiting
        exact waiting rfl
      rw [if_neg left, own]
      exact StdSet.mem_insert.mpr (Or.inl rfl)
    · have differ : s.signalConnections.lookup wsi ≠ some conn' := by
        rw [owned]
        exact fun eq => same (Option.some.inj eq).symm
      obtain ⟨nothing, apart⟩ := foreign conn' c₀ before differ
      simp only [if_neg same, acceptedBy, sentTo, nothing, List.append_nil]
      refine ⟨account, fun waiting => ?_⟩
      have kept : c₀.wsi ∈ StdSet.erase wsi s.writable :=
        StdSet.mem_erase.mpr ⟨asked waiting, apart⟩
      split
      · exact kept
      · exact StdSet.mem_insert.mpr (Or.inr kept)

theorem step_draining (step : QueueStep env s a t) (wired : Wired s)
    (draining : Draining past s) : Draining ((s, a) :: past) t := by
  cases step with
  | opened allowed returns => exact opened_draining allowed returns draining
  | closed returns => exact closed_draining returns draining
  | send returns => exact send_draining returns draining
  | writeable returns => exact writeable_draining returns wired draining
  | other signals requests outlets =>
    intro conn c live
    have outlet := outlets conn
    rw [live, Option.map_some, eq_comm, Option.map_eq_some_iff] at outlet
    obtain ⟨c₀, before, same⟩ := outlet
    obtain ⟨wsi, sendBuf⟩ := Prod.mk.inj same
    rw [requests, ← wsi, ← sendBuf]
    exact draining conn c₀ before

/-! ### The callbacks are such runs -/

theorem queue_act (dest : ConnPtr) (msg : Message) :
    Trace.Reaches (QueueStep env) s (s.queue env dest msg) := by
  cases live : s.connections.lookup dest with
  | none =>
    have same : s.queue env dest msg = s := by simp only [Server.queue, live]
    rw [same]
    exact .refl s
  | some c =>
    have returns : Returns (sendP2PMessage env dest msg) s () (s.queue env dest msg) :=
      returns_sendP2PMessage.mpr ⟨⟨c, live⟩, rfl⟩
    exact .single (.send returns)

theorem other_act (signals : t.signalConnections = s.signalConnections)
    (requests : t.writable = s.writable) (outlets : ∀ conn,
      (t.connections.lookup conn).map (·.outlet) = (s.connections.lookup conn).map (·.outlet)) :
    Trace.Reaches (QueueStep env) s t :=
  .single (.other signals requests outlets)

theorem assign_act {conn : ConnPtr} {f : P2PSignalConnection → P2PSignalConnection}
    (same : ∀ c, (f c).outlet = c.outlet) :
    Trace.Reaches (QueueStep env) s (s.updateConnection conn f) :=
  other_act rfl rfl fun other => updateConnection_map conn other same

theorem effect_acts (self : ConnPtr) (this : P2PSignalConnection) (e : Effect) :
    Trace.Reaches (QueueStep env) s (e.apply env self this s) := by
  have aliases : ∀ f, Trace.Reaches (QueueStep env) s (s.updateGameOf this f) := by
    intro f
    unfold Server.updateGameOf
    split
    · exact other_act rfl rfl fun _ => rfl
    · exact .refl s
  cases e with
  | idle => exact .refl s
  | send dest msg => exact queue_act dest msg
  | connect dest msg =>
    refine Trace.Reaches.trans _ _ _ ?_ (queue_act dest msg)
    apply assign_act
    exact fun _ => rfl
  | register aliasName => exact aliases _
  | unregister aliasName => exact aliases _
  | unregisterAll => exact aliases _
  | refuse hello =>
    obtain ⟨gameDB, games, found⟩ := getVerifiedGame_frame env s hello
    rw [Effect.apply, found]
    refine other_act rfl rfl fun other => ?_
    apply updateConnection_map (s := s)
    exact fun _ => rfl
  | accept hello g =>
    obtain ⟨gameDB, games, found⟩ := getVerifiedGame_frame env s hello
    rw [Effect.apply]
    refine Trace.Reaches.trans _ _ _ ?_ (queue_act self _)
    rw [found]
    refine other_act rfl rfl fun other => ?_
    apply updateConnection_map (s := s)
    exact fun _ => rfl

theorem step_acts {d : Deed} (step : Step env s d t)
    (succeeds : ∀ wsi written, d = .writeable wsi written → 0 ≤ written) :
    Trace.Reaches (QueueStep env) s t := by
  cases step with
  | opened allowed returns => exact .single (.opened allowed returns)
  | closed returns => exact .single (.closed returns)
  | arrived conn data =>
    apply assign_act
    exact fun _ => rfl
  | erased conn size =>
    apply assign_act
    exact fun _ => rfl
  | message returns =>
    obtain ⟨this, here, _⟩ := returns_deref_bind.mp returns
    rcases processMsg_cases here returns with ⟨_, _, _, rfl⟩ | ⟨_, e, _, rfl⟩
    · exact .refl _
    · exact effect_acts _ this e
  | writeable returns =>
    obtain ⟨accepted, rfl⟩ := Int.eq_ofNat_of_zero_le (succeeds _ _ rfl)
    exact .single (.writeable returns)

theorem history_acts {past : List (Server × Deed)} (history : History env past s)
    (succeeds : ∀ m ∈ past, ∀ wsi written, m.2 = .writeable wsi written → 0 ≤ written) :
    ∃ acts, Trace Started (QueueStep env) acts s := by
  induction history with
  | start initial => exact ⟨[], .start initial⟩
  | next _ step ih =>
    obtain ⟨acts, run⟩ := ih fun m hm => succeeds m (List.mem_cons_of_mem _ hm)
    have after := (step_acts step (succeeds _ List.mem_cons_self)).extend run
    obtain ⟨later, run⟩ := after
    exact ⟨_, run⟩

/-- In every run of `sendMessage` calls and reports, among openings, closings and whatever
else leaves the queues alone: what was accepted, followed by the queue, is what was sent;
and while the queue is not empty, a report of its websocket is asked for. -/
theorem send_queue_drains (run : Trace Started (QueueStep env) past s) {conn : ConnPtr}
    {c : P2PSignalConnection} (live : s.connections.lookup conn = some c) :
    acceptedBy conn past ++ c.sendBuf = sentTo conn past ∧
      (c.sendBuf ≠ [] → c.wsi ∈ s.writable) := by
  have kept : Wired s ∧ Draining past s := by
    refine run.invariant (I := fun past s => Wired s ∧ Draining past s) ?_ ?_
    · rintro _ ⟨gameDB, stunServerAddress, _, rfl⟩
      refine ⟨fun wsi conn => ?_, fun conn c live => by cases live⟩
      simp [Server.new]
    · intro past s a t _ before step
      exact ⟨step_wired step before.1, step_draining step before.1 before.2⟩
  exact kept.2 conn c live

end

/-- Three bytes are sent and one of them is accepted: two are left, and asked for. -/
theorem queue_after_partial_write : ∃ past s c, Trace Started (QueueStep plain) past s ∧
    s.connections.lookup 10 = some c ∧ c.sendBuf = [2, 3] ∧
    acceptedBy 10 past ++ c.sendBuf = [1, 2, 3] ∧ c.wsi ∈ s.writable := by
  have start : Trace Started (QueueStep plain) [] (Server.new (.anonymous 0 ∅) []) :=
    .start ⟨.anonymous 0 ∅, [], ⟨rfl, rfl⟩, rfl⟩
  have opened : Trace Started (QueueStep plain) _ _ := start.next (.opened
    (show Allowed _ (.established 1 10) from ⟨by decide, by decide⟩) rfl)
  have sent : Trace Started (QueueStep plain) _ _ :=
    opened.next (.send (show Returns (sendMessage 10 [1, 2, 3]) _ () _ from rfl))
  have written : Trace Started (QueueStep plain) _ _ := sent.next (.writeable
    (show Returns (callbackHumblepeer plain (.writeable 1 (1 : Nat))) _ 0 _ from rfl))
  obtain ⟨account, asked⟩ := @send_queue_drains plain _ _ written 10 _ rfl
  exact ⟨_, _, _, written, rfl, rfl, account, asked (List.cons_ne_nil 2 [3])⟩

end HumbleNet.PeerServer
