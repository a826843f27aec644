import HumbleNet.Client.Run

/-! The attempts to connect to a peer, and the tables in which the replies to them are looked
up. What the tables hold is still being opened as long as no connection is opened that they
hold; what is being opened is held as long as no table has the peer already. -/
namespace HumbleNet.Client

open Guarded

abbrev values {K : Type} [DecidableEq K] (m : StdMap K ConnPtr) : List ConnPtr :=
  m.entries.map Sigma.snd

theorem mem_values {K : Type} [DecidableEq K] {m : StdMap K ConnPtr} {conn : ConnPtr} :
    conn ∈ values m ↔ ∃ k, m.lookup k = some conn := by
  constructor
  · intro listed
    obtain ⟨⟨k, _⟩, there, rfl⟩ := List.mem_map.mp listed
    exact ⟨k, (StdMap.lookup_eq_some_iff _ _ _).mpr there⟩
  · rintro ⟨k, there⟩
    exact List.mem_map_of_mem ((StdMap.lookup_eq_some_iff _ _ _).mp there)

/-! ### What the tables hold is being opened -/

/-- No callback opens a connection that is in a pending table. -/
def Unpended : Point → Tables → Prop
  | .connected conn, t => conn ∉ values t.pendingPeerConnectionsOut ∧
      conn ∉ values t.pendingPeerConnectionsIn ∧ conn ∉ values t.pendingAliasConnectionsOut
  | _, _ => True

instance (point : Point) (t : Tables) : Decidable (Unpended point t) := by
  unfold Unpended
  split <;> infer_instance

def Opening (t : Tables) (peer : PeerId) (conn : ConnPtr) : Prop :=
  ∃ c, t.heap.lookup conn = some c ∧ c.status = .connecting ∧ c.otherPeer = peer

/-- Everything in the pending tables is being opened; a name stands for a connection that is
nowhere else. -/
structure Pending (t : Tables) : Prop where
  out : ∀ peer conn, t.pendingPeerConnectionsOut.lookup peer = some conn → Opening t peer conn
  incoming : ∀ peer conn, t.pendingPeerConnectionsIn.lookup peer = some conn → Opening t peer conn
  named : ∀ name conn, t.pendingAliasConnectionsOut.lookup name = some conn →
    ∃ c, t.heap.lookup conn = some c ∧ c.status = .connecting
  single : ∀ name name' conn, t.pendingAliasConnectionsOut.lookup name = some conn →
    t.pendingAliasConnectionsOut.lookup name' = some conn → name = name'
  apart : ∀ name conn, t.pendingAliasConnectionsOut.lookup name = some conn → ∀ peer,
    t.pendingPeerConnectionsOut.lookup peer ≠ some conn ∧
      t.pendingPeerConnectionsIn.lookup peer ≠ some conn

theorem pending_initial : Pending .initial where
  out _ _ h := by cases h
  incoming _ _ h := by cases h
  named _ _ h := by cases h
  single _ _ _ h := by cases h
  apart _ _ h := by cases h

def Pended (t : Tables) (conn : ConnPtr) : Prop :=
  (∃ peer, t.pendingPeerConnectionsOut.lookup peer = some conn) ∨
  (∃ peer, t.pendingPeerConnectionsIn.lookup peer = some conn) ∨
  ∃ name, t.pendingAliasConnectionsOut.lookup name = some conn

section steps

variable {s t : Tables} {conn : ConnPtr} {c : Connection}

theorem Pending.carry (pending : Pending s)
    (kept : ∀ k c, Pended t k → s.heap.lookup k = some c → c.status = .connecting →
      ∃ c', t.heap.lookup k = some c' ∧ c'.status = .connecting ∧ c'.otherPeer = c.otherPeer)
    (out : ∀ peer k, t.pendingPeerConnectionsOut.lookup peer = some k →
      s.pendingPeerConnectionsOut.lookup peer = some k)
    (incoming : ∀ peer k, t.pendingPeerConnectionsIn.lookup peer = some k →
      s.pendingPeerConnectionsIn.lookup peer = some k)
    (named : ∀ name k, t.pendingAliasConnectionsOut.lookup name = some k →
      s.pendingAliasConnectionsOut.lookup name = some k) : Pending t where
  out peer k h := by
    obtain ⟨c, here, opening, same⟩ := pending.out peer k (out peer k h)
    obtain ⟨c', here', opening', same'⟩ := kept k c (Or.inl ⟨peer, h⟩) here opening
    exact ⟨c', here', opening', same'.trans same⟩
  incoming peer k h := by
    obtain ⟨c, here, opening, same⟩ := pending.incoming peer k (incoming peer k h)
    obtain ⟨c', here', opening', same'⟩ := kept k c (Or.inr (Or.inl ⟨peer, h⟩)) here opening
    exact ⟨c', here', opening', same'.trans same⟩
  named name k h := by
    obtain ⟨c, here, opening⟩ := pending.named name k (named name k h)
    obtain ⟨c', here', opening', _⟩ := kept k c (Or.inr (Or.inr ⟨name, h⟩)) here opening
    exact ⟨c', here', opening'⟩
  single name name' k h h' := pending.single name name' k (named name k h) (named name' k h')
  apart name k h peer := by
    obtain ⟨noOut, noIn⟩ := pending.apart name k (named name k h) peer
    exact ⟨fun there => noOut (out peer k there), fun there => noIn (incoming peer k there)⟩

theorem Pending.live (pending : Pending s) (held : Pended s conn) : conn ∈ s.heap := by
  rcases held with ⟨peer, h⟩ | ⟨peer, h⟩ | ⟨name, h⟩
  · obtain ⟨c, here, _⟩ := pending.out peer conn h
    exact StdMap.mem_iff_lookup.mpr ⟨c, here⟩
  · obtain ⟨c, here, _⟩ := pending.incoming peer conn h
    exact StdMap.mem_iff_lookup.mpr ⟨c, here⟩
  · obtain ⟨c, here, _⟩ := pending.named name conn h
    exact StdMap.mem_iff_lookup.mpr ⟨c, here⟩

theorem Pending.modify (pending : Pending s) {f : Connection → Connection}
    (status : ∀ c, (f c).status = c.status) (peer : ∀ c, (f c).otherPeer = c.otherPeer) :
    Pending (s.updateConnection conn f) := by
  refine pending.carry ?_ (fun _ _ h => h) (fun _ _ h => h) (fun _ _ h => h)
  intro k c _ here opening
  refine ⟨_, StdMap.lookup_modify_some.mpr ⟨c, here, rfl⟩, ?_⟩
  split
  · exact ⟨(status c).trans opening, peer c⟩
  · exact ⟨opening, rfl⟩

theorem Pending.modify_unpended (pending : Pending s) (free : ¬ Pended s conn)
    {f : Connection → Connection} : Pending (s.updateConnection conn f) := by
  refine pending.carry ?_ (fun _ _ h => h) (fun _ _ h => h) (fun _ _ h => h)
  intro k c held here opening
  have other : k ≠ conn := by
    rintro rfl
    exact free held
  exact ⟨c, StdMap.lookup_modify_some.mpr ⟨c, here, if_neg other⟩, opening, rfl⟩

theorem Pending.new (pending : Pending s) (fresh : conn ∉ s.heap) (c : Connection)
    (peer : Option PeerId) : Pending (s.make conn c peer) ∧ ¬ Pended s conn := by
  have free : ¬ Pended s conn := fun held => fresh (pending.live held)
  refine ⟨?_, free⟩
  refine pending.carry ?_ (fun _ _ h => h) (fun _ _ h => h) (fun _ _ h => h)
  intro k d held here opening
  have other : k ≠ conn := by
    rintro rfl
    exact free held
  exact ⟨d, (AList.lookup_insert_ne other).trans here, opening, rfl⟩

theorem Pending.close (pending : Pending s) (conn : ConnPtr) : Pending (s.close conn) := by
  apply pending.carry
  · intro k c held here opening
    have other : k ≠ conn := by
      rcases held with ⟨_, h⟩ | ⟨_, h⟩ | ⟨_, h⟩
      · exact (StdMap.lookup_eraseValue_some.mp h).2
      · exact (StdMap.lookup_eraseValue_some.mp h).2
      · exact (StdMap.lookup_eraseValue_some.mp h).2
    exact ⟨c, StdMap.lookup_modify_some.mpr ⟨c, here, if_neg other⟩, opening, rfl⟩
  · exact fun _ _ h => (StdMap.lookup_eraseValue_some.mp h).1
  · exact fun _ _ h => (StdMap.lookup_eraseValue_some.mp h).1
  · exact fun _ _ h => (StdMap.lookup_eraseValue_some.mp h).1

theorem Pending.delete (pending : Pending s) (conn : ConnPtr) : Pending (s.delete conn) := by
  have closed := pending.close conn
  refine closed.carry ?_ (fun _ _ h => h) (fun _ _ h => h) (fun _ _ h => h)
  intro k c held here opening
  have other : k ≠ conn := by
    rcases held with ⟨_, h⟩ | ⟨_, h⟩ | ⟨_, h⟩
    · exact (StdMap.lookup_eraseValue_some.mp h).2
    · exact (StdMap.lookup_eraseValue_some.mp h).2
    · exact (StdMap.lookup_eraseValue_some.mp h).2
  exact ⟨c, (AList.lookup_erase_ne other).trans here, opening, rfl⟩

theorem Pending.register (pending : Pending s)
    (unnamed : ∀ name, s.pendingAliasConnectionsOut.lookup name ≠ some conn) {peer : PeerId}
    (opening : Opening s peer conn) :
    Pending { s with
      pendingPeerConnectionsOut := StdMap.emplace peer conn s.pendingPeerConnectionsOut } where
  out p k h := by
    rcases StdMap.lookup_emplace_entry h with ⟨rfl, rfl⟩ | there
    · exact opening
    · exact pending.out p k there
  incoming := pending.incoming
  named := pending.named
  single := pending.single
  apart name k h p := by
    refine ⟨fun there => ?_, (pending.apart name k h p).2⟩
    rcases StdMap.lookup_emplace_some there with rfl | there
    · exact unnamed name h
    · exact (pending.apart name k h p).1 there

theorem Pending.registerIn (pending : Pending s)
    (unnamed : ∀ name, s.pendingAliasConnectionsOut.lookup name ≠ some conn) {peer : PeerId}
    (opening : Opening s peer conn) :
    Pending { s with
      pendingPeerConnectionsIn := StdMap.emplace peer conn s.pendingPeerConnectionsIn } where
  out := pending.out
  incoming p k h := by
    rcases StdMap.lookup_emplace_entry h with ⟨rfl, rfl⟩ | there
    · exact opening
    · exact pending.incoming p k there
  named := pending.named
  single := pending.single
  apart name k h p := by
    refine ⟨(pending.apart name k h p).1, fun there => ?_⟩
    rcases StdMap.lookup_emplace_some there with rfl | there
    · exact unnamed name h
    · exact (pending.apart name k h p).2 there

theorem Pending.name (pending : Pending s) (free : ¬ Pended s conn)
    (here : s.heap.lookup conn = some c) (opening : c.status = .connecting) (name : Bytes) :
    Pending { s with
      pendingAliasConnectionsOut := StdMap.emplace name conn s.pendingAliasConnectionsOut } where
  out := pending.out
  incoming := pending.incoming
  named name' k h := by
    rcases StdMap.lookup_emplace_some h with rfl | there
    · exact ⟨c, here, opening⟩
    · exact pending.named name' k there
  single x y k h h' := by
    rcases StdMap.lookup_emplace_entry h with ⟨rfl, rfl⟩ | there
    · rcases StdMap.lookup_emplace_entry h' with ⟨rfl, _⟩ | there'
      · rfl
      · exact absurd (Or.inr (Or.inr ⟨y, there'⟩)) free
    · rcases StdMap.lookup_emplace_entry h' with ⟨rfl, rfl⟩ | there'
      · exact absurd (Or.inr (Or.inr ⟨x, there⟩)) free
      · exact pending.single x y k there there'
  apart x k h p := by
    rcases StdMap.lookup_emplace_some h with rfl | there
    · exact ⟨fun out => free (Or.inl ⟨p, out⟩), fun inc => free (Or.inr (Or.inl ⟨p, inc⟩))⟩
    · exact pending.apart x k there p

theorem Pending.unname (pending : Pending s) (name : Bytes) :
    Pending { s with
      pendingAliasConnectionsOut := s.pendingAliasConnectionsOut.erase name } := by
  refine pending.carry ?_ (fun _ _ h => h) (fun _ _ h => h) ?_
  · exact fun _ c _ here opening => ⟨c, here, opening, rfl⟩
  · exact fun _ _ h => (StdMap.lookup_erase_some h).2

end steps

theorem Pending.keeps {scope : Scope} {s t : Tables} (pending : Pending s)
    (does : Does Unpended scope s t) : Pending t := by
  cases does with
  | @dial conn c fresh empty status =>
    obtain ⟨inserted, free⟩ := pending.new fresh c (some c.otherPeer)
    refine inserted.register (fun name h => free (Or.inr (Or.inr ⟨name, h⟩))) ?_
    exact ⟨c, AList.lookup_insert _, status, rfl⟩
  | @invite conn c fresh empty writable passed status =>
    obtain ⟨inserted, free⟩ := pending.new fresh c none
    refine inserted.registerIn (fun name h => free (Or.inr (Or.inr ⟨name, h⟩))) ?_
    exact ⟨c, AList.lookup_insert _, status, rfl⟩
  | @createAlias conn fresh name vpeer =>
    obtain ⟨inserted, free⟩ := pending.new fresh (Connection.new .outgoing) (some vpeer)
    have named :=
      inserted.name (c := Connection.new .outgoing) free (AList.lookup_insert _) rfl name
    exact { named with }
  | unpend name => exact pending.unname name
  | @resolve conn c name there here peer =>
    obtain ⟨d, here', opening⟩ := pending.named name conn there
    cases here.symm.trans here'
    have unnamed := pending.unname name
    have free : ¬ Pended { s with
        pendingAliasConnectionsOut := s.pendingAliasConnectionsOut.erase name } conn := by
      rintro (⟨p, h⟩ | ⟨p, h⟩ | ⟨name', h⟩)
      · exact (pending.apart name conn there p).1 h
      · exact (pending.apart name conn there p).2 h
      · obtain ⟨other, h⟩ := StdMap.lookup_erase_some h
        exact other (pending.single name' name conn h there)
    have resolved := unnamed.modify_unpended free (f := fun c => { c with otherPeer := peer })
    refine resolved.register (fun name' h => free (Or.inr (Or.inr ⟨name', h⟩))) ?_
    exact ⟨_, StdMap.lookup_modify_some.mpr ⟨c, here, if_pos rfl⟩, opening, rfl⟩
  | openSocket conn socket => exact pending.modify (fun _ => rfl) fun _ => rfl
  | @connected conn c socket it here status there its passed =>
    obtain ⟨noOut, noIn, noName⟩ := passed
    have reported : Pending (s.updateSocket socket fun it => { it with stage := .opened }) :=
      { pending with }
    refine reported.modify_unpended ?_
    rintro (there | there | there)
    · exact noOut (mem_values.mpr there)
    · exact noIn (mem_values.mpr there)
    · exact noName (mem_values.mpr there)
  | close => exact pending.close _
  | delete => exact pending.delete _
  | @receive conn c data =>
    have arrived : Pending (s.arrive conn data) := pending.modify (fun _ => rfl) fun _ => rfl
    exact { arrived with }
  | @relay conn c data =>
    have arrived : Pending (s.arrive conn data) := pending.modify (fun _ => rfl) fun _ => rfl
    exact { arrived with }
  | @read conn c here left =>
    have taken : Pending (s.updateConnection conn fun c => { c with recvBuffer := left }) :=
      pending.modify (fun _ => rfl) fun _ => rfl
    exact { taken with }
  | _ => exact { pending with }

/-- The condition leaves out only callbacks after which a table is wrong. -/
theorem not_opening_connected {t : Tables} (peer : PeerId) (conn : ConnPtr) :
    ¬ Opening (t.updateConnection conn fun c => { c with status := .connected }) peer conn := by
  rintro ⟨c, here, opening, _⟩
  obtain ⟨d, _, rfl⟩ := StdMap.lookup_modify_some.mp here
  rw [if_pos rfl] at opening
  cases opening

/-- What is expected of a configuration: whenever the lock is free, both tables of peers hold
only connections that are being opened to the peer. -/
def PendingUnestablished : Config Caller State Fault Query Query.Answer Unit → Prop
  | .running pool => ∀ peer conn,
      pool.state.pendingPeerConnectionsOut.lookup peer = some conn ∨
        pool.state.pendingPeerConnectionsIn.lookup peer = some conn →
      Opening pool.state.toTables peer conn
  | .crashed _ _ _ => True

theorem pending_unestablished (env : Externals)
    {c : Config Caller State Fault Query Query.Answer Unit} (run : Run env Unpended c) :
    PendingUnestablished c := by
  have kept : Kept Unpended Pending c :=
    kept_of_run env pending_initial (fun _ _ _ pending => pending.keeps) run
  cases c with
  | crashed tag e s => trivial
  | running pool =>
    have pending : Pending pool.state.toTables := kept
    intro peer conn held
    rcases held with h | h
    · exact pending.out peer conn h
    · exact pending.incoming peer conn h

/-- An offer of peer 9 has been answered, and the connection is not open yet. -/
theorem pending_unestablished_offer :
    ∃ c, Run offerThenRelay Unpended c ∧
      history offerThenRelay Unpended (introduction ++ [.webrtc 1 .established]) = some c ∧
      PendingUnestablished c := by
  have running : ((history offerThenRelay Unpended (introduction ++
      [.webrtc 1 .established])).bind Config.now).isSome = true := by decide +kernel
  obtain ⟨s, now⟩ := Option.isSome_iff_exists.mp running
  obtain ⟨c, h, _⟩ := Option.bind_eq_some_iff.mp now
  exact ⟨c, run_history _ h, h, pending_unestablished _ (run_history _ h)⟩

/-- Once its channel is there the connection is established, and stays in the table. -/
theorem pending_established :
    ∃ c, Run offerThenRelay (fun _ _ => True) c ∧
      history offerThenRelay (fun _ _ => True) (introduction ++
        [.webrtc 1 .established, .webrtc 1 .channelAccepted]) = some c ∧
      ¬ PendingUnestablished c := by
  have wrong : ((history offerThenRelay (fun _ _ => True) (introduction ++
      [.webrtc 1 .established, .webrtc 1 .channelAccepted])).bind Config.now).map (fun s =>
        (s.pendingPeerConnectionsIn.lookup 9, s.heap.lookup 1)) =
          some (some 1, some ⟨.incoming, .connected, 9, [], true, some 1⟩) := by decide +kernel
  obtain ⟨s, now, eq⟩ := Option.map_eq_some_iff.mp wrong
  obtain ⟨c, h, running⟩ := Option.bind_eq_some_iff.mp now
  refine ⟨c, run_history _ h, h, fun right => ?_⟩
  cases c with
  | crashed tag e s => cases running
  | running pool =>
    cases running
    obtain ⟨entry, here⟩ := Prod.mk.inj eq
    obtain ⟨c, there, opening, _⟩ := right 9 1 (Or.inr entry)
    cases here.symm.trans there
    cases opening

/-! ### What is being opened is in the tables -/

/-- No attempt is registered for a peer that the table has already. -/
def Unclaimed : Point → Tables → Prop
  | .pend .outgoing peer, t => peer ∉ t.pendingPeerConnectionsOut
  | .pend .incoming peer, t => peer ∉ t.pendingPeerConnectionsIn
  | _, _ => True

instance (point : Point) (t : Tables) : Decidable (Unclaimed point t) := by
  rcases point with _ | _ | _ | _ | _ | _ | _ | _ | _ | ⟨_ | _, _⟩ <;> unfold Unclaimed <;>
    infer_instance

def Registered (t : Tables) (conn : ConnPtr) (c : Connection) : Prop :=
  match c.inOrOut with
  | .outgoing => t.pendingPeerConnectionsOut.lookup c.otherPeer = some conn
  | .incoming => t.pendingPeerConnectionsIn.lookup c.otherPeer = some conn

/-- Every attempt to a peer is registered; a name stands for an outgoing one. -/
structure Attempts (t : Tables) : Prop where
  registered : ∀ conn c, t.heap.lookup conn = some c → c.status = .connecting →
    c.otherPeer ≠ 0 → Registered t conn c
  named : ∀ name conn, t.pendingAliasConnectionsOut.lookup name = some conn →
    ∃ c, t.heap.lookup conn = some c ∧ c.inOrOut = .outgoing

theorem attempts_initial : Attempts .initial where
  registered _ _ h := by cases h
  named _ _ h := by cases h

section steps

variable {s t : Tables} {conn : ConnPtr}

theorem Attempts.carry (attempts : Attempts s)
    (before : ∀ k c', t.heap.lookup k = some c' → c'.status = .connecting →
      ∃ c, s.heap.lookup k = some c ∧ c.status = .connecting ∧ c.otherPeer = c'.otherPeer ∧
        c.inOrOut = c'.inOrOut ∧ (Registered s k c → Registered t k c'))
    (named : ∀ name k, t.pendingAliasConnectionsOut.lookup name = some k →
      s.pendingAliasConnectionsOut.lookup name = some k ∧
        ∀ c, s.heap.lookup k = some c → ∃ c', t.heap.lookup k = some c' ∧
          c'.inOrOut = c.inOrOut) : Attempts t where
  registered k c' here opening peer := by
    obtain ⟨c, there, opening', same, _, still⟩ := before k c' here opening
    exact still (attempts.registered k c there opening' (same ▸ peer))
  named name k h := by
    obtain ⟨there, kept⟩ := named name k h
    obtain ⟨c, here, outgoing⟩ := attempts.named name k there
    obtain ⟨c', here', same⟩ := kept c here
    exact ⟨c', here', same.trans outgoing⟩

theorem Attempts.modify (attempts : Attempts s) {f : Connection → Connection}
    (same : ∀ c, (f c).status = .connecting → c.status = .connecting ∧
      (f c).otherPeer = c.otherPeer) (way : ∀ c, (f c).inOrOut = c.inOrOut) :
    Attempts (s.updateConnection conn f) := by
  apply attempts.carry
  · intro k c' here opening
    obtain ⟨c, there, rfl⟩ := StdMap.lookup_modify_some.mp here
    refine ⟨c, there, ?_⟩
    split
    · rename_i eq
      rw [if_pos eq] at opening
      obtain ⟨opening', peer⟩ := same c opening
      refine ⟨opening', peer.symm, (way c).symm, fun registered => ?_⟩
      rw [Registered, way c, peer]
      exact registered
    · rename_i other
      rw [if_neg other] at opening
      exact ⟨opening, rfl, rfl, id⟩
  · intro name k h
    refine ⟨h, fun c here => ⟨_, StdMap.lookup_modify_some.mpr ⟨c, here, rfl⟩, ?_⟩⟩
    split
    · exact way c
    · rfl

theorem Attempts.live (attempts : Attempts s) {name : Bytes}
    (h : s.pendingAliasConnectionsOut.lookup name = some conn) : conn ∈ s.heap := by
  obtain ⟨c, here, _⟩ := attempts.named name conn h
  exact StdMap.mem_iff_lookup.mpr ⟨c, here⟩

theorem Attempts.new (attempts : Attempts s) (fresh : conn ∉ s.heap) {c : Connection}
    (heap : t.heap = s.heap.insert conn c) (registered : c.otherPeer ≠ 0 → Registered t conn c)
    (out : ∀ peer k, s.pendingPeerConnectionsOut.lookup peer = some k →
      t.pendingPeerConnectionsOut.lookup peer = some k)
    (incoming : ∀ peer k, s.pendingPeerConnectionsIn.lookup peer = some k →
      t.pendingPeerConnectionsIn.lookup peer = some k)
    (named : ∀ name k, t.pendingAliasConnectionsOut.lookup name = some k →
      s.pendingAliasConnectionsOut.lookup name = some k ∨ k = conn ∧ c.inOrOut = .outgoing) :
    Attempts t where
  registered k d here opening peer := by
    rw [heap, StdMap.lookup_insert_if] at here
    split at here
    · rename_i eq
      cases here
      rw [eq]
      exact registered peer
    · have before := attempts.registered k d here opening peer
      unfold Registered at before ⊢
      split at before
      · exact out _ _ before
      · exact incoming _ _ before
  named name k h := by
    rw [heap]
    rcases named name k h with there | ⟨rfl, outgoing⟩
    · obtain ⟨d, here, way⟩ := attempts.named name k there
      have other : k ≠ conn := by
        rintro rfl
        exact fresh (attempts.live there)
      exact ⟨d, (AList.lookup_insert_ne other).trans here, way⟩
    · exact ⟨c, AList.lookup_insert _, outgoing⟩

theorem registered_close {k : ConnPtr} {c : Connection} (other : k ≠ conn)
    (registered : Registered s k c) : Registered (s.close conn) k c := by
  unfold Registered at registered ⊢
  split at registered
  · exact StdMap.lookup_eraseValue_some.mpr ⟨registered, other⟩
  · exact StdMap.lookup_eraseValue_some.mpr ⟨registered, other⟩

theorem Attempts.close (attempts : Attempts s) (conn : ConnPtr) : Attempts (s.close conn) := by
  apply attempts.carry
  · intro k c' here opening
    obtain ⟨c, there, rfl⟩ := StdMap.lookup_modify_some.mp here
    by_cases eq : k = conn
    · rw [if_pos eq] at opening
      cases opening
    · rw [if_neg eq] at opening ⊢
      exact ⟨c, there, opening, rfl, rfl, registered_close eq⟩
  · intro name k h
    obtain ⟨there, other⟩ := StdMap.lookup_eraseValue_some.mp h
    exact ⟨there, fun c here => ⟨c, StdMap.lookup_modify_some.mpr ⟨c, here, if_neg other⟩, rfl⟩⟩

theorem Attempts.delete (attempts : Attempts s) (conn : ConnPtr) : Attempts (s.delete conn) := by
  have closed := attempts.close conn
  apply closed.carry
  · intro k c' here opening
    obtain ⟨other, there⟩ := StdMap.lookup_erase_some here
    exact ⟨c', there, opening, rfl, rfl, id⟩
  · intro name k h
    have other : k ≠ conn := (StdMap.lookup_eraseValue_some.mp h).2
    exact ⟨h, fun c here => ⟨c, (AList.lookup_erase_ne other).trans here, rfl⟩⟩

end steps

theorem Attempts.keeps {scope : Scope} {s t : Tables} (attempts : Attempts s)
    (does : Does Unclaimed scope s t) : Attempts t := by
  cases does with
  | @dial conn c fresh empty status socket writable passed outgoing pends =>
    apply attempts.new fresh rfl
    · intro _
      rw [Registered, outgoing]
      exact (StdMap.lookup_emplace_new _ _ _ _ (AList.lookup_eq_none.mpr pends)).trans (if_pos rfl)
    · exact fun _ _ h => StdMap.lookup_emplace_old h
    · exact fun _ _ h => h
    · exact fun _ _ h => Or.inl h
  | @invite conn c fresh empty writable passed status incoming pends =>
    apply attempts.new fresh rfl
    · intro _
      rw [Registered, incoming]
      exact (StdMap.lookup_emplace_new _ _ _ _ (AList.lookup_eq_none.mpr pends)).trans (if_pos rfl)
    · exact fun _ _ h => h
    · exact fun _ _ h => StdMap.lookup_emplace_old h
    · exact fun _ _ h => Or.inl h
  | @createAlias conn fresh name vpeer =>
    apply attempts.new fresh rfl
    · exact fun peer => absurd rfl peer
    · exact fun _ _ h => h
    · exact fun _ _ h => h
    · intro name' k h
      rcases StdMap.lookup_emplace_some h with rfl | there
      · exact Or.inr ⟨rfl, rfl⟩
      · exact Or.inl there
  | unpend name =>
    apply attempts.carry
    · exact fun k c here opening => ⟨c, here, opening, rfl, rfl, id⟩
    · exact fun _ _ h => ⟨(StdMap.lookup_erase_some h).2, fun c here => ⟨c, here, rfl⟩⟩
  | @resolve conn c name there here peer pends =>
    obtain ⟨d, here', outgoing⟩ := attempts.named name conn there
    cases here.symm.trans here'
    constructor
    · intro k e here' opening p
      obtain ⟨old, before, rfl⟩ := StdMap.lookup_modify_some.mp here'
      by_cases eq : k = conn
      · subst eq
        cases here.symm.trans before
        rw [if_pos rfl, Registered, outgoing]
        exact (StdMap.lookup_emplace_new _ _ _ _ (AList.lookup_eq_none.mpr pends)).trans
          (if_pos rfl)
      · rw [if_neg eq] at opening p ⊢
        have registered := attempts.registered k old before opening p
        unfold Registered at registered ⊢
        split at registered
        · exact StdMap.lookup_emplace_old registered
        · exact registered
    · intro name' k h
      obtain ⟨e, here', way⟩ := attempts.named name' k (StdMap.lookup_erase_some h).2
      refine ⟨_, StdMap.lookup_modify_some.mpr ⟨e, here', rfl⟩, ?_⟩
      split
      · exact way
      · exact way
  | openSocket conn socket => exact attempts.modify (fun _ h => ⟨h, rfl⟩) fun _ => rfl
  | @connected conn c socket =>
    have reported : Attempts (s.updateSocket socket fun it => { it with stage := .opened }) :=
      { attempts with }
    exact reported.modify (fun _ h => by cases h) fun _ => rfl
  | close => exact attempts.close _
  | delete => exact attempts.delete _
  | @receive conn c data =>
    have arrived : Attempts (s.arrive conn data) :=
      attempts.modify (fun _ h => ⟨h, rfl⟩) fun _ => rfl
    exact ⟨arrived.registered, arrived.named⟩
  | @relay conn c data =>
    have arrived : Attempts (s.arrive conn data) :=
      attempts.modify (fun _ h => ⟨h, rfl⟩) fun _ => rfl
    exact ⟨arrived.registered, arrived.named⟩
  | @read conn c here left =>
    have taken : Attempts (s.updateConnection conn fun c => { c with recvBuffer := left }) :=
      attempts.modify (fun _ h => ⟨h, rfl⟩) fun _ => rfl
    exact ⟨taken.registered, taken.named⟩
  | _ => exact ⟨attempts.registered, attempts.named⟩

/-- What is expected of a configuration: whenever the lock is free, an attempt with a socket
is found by the replies to it. -/
def AttemptsFound : Config Caller State Fault Query Query.Answer Unit → Prop
  | .running pool => ∀ conn c, pool.state.heap.lookup conn = some c → c.status = .connecting →
      c.socket ≠ none → c.otherPeer ≠ 0 →
      (c.inOrOut = .outgoing →
        pool.state.pendingPeerConnectionsOut.lookup c.otherPeer = some conn) ∧
      (c.inOrOut = .incoming →
        pool.state.pendingPeerConnectionsIn.lookup c.otherPeer = some conn)
  | .crashed _ _ _ => True

theorem attempts_found (env : Externals)
    {c : Config Caller State Fault Query Query.Answer Unit} (run : Run env Unclaimed c) :
    AttemptsFound c := by
  have kept : Kept Unclaimed Attempts c :=
    kept_of_run env attempts_initial (fun _ _ _ attempts => attempts.keeps) run
  cases c with
  | crashed tag e s => trivial
  | running pool =>
    have attempts : Attempts pool.state.toTables := kept
    intro conn c here opening _ peer
    have registered := attempts.registered conn c here opening peer
    unfold Registered at registered
    constructor
    · intro outgoing
      rw [outgoing] at registered
      exact registered
    · intro incoming
      rw [incoming] at registered
      exact registered

/-- Two names are looked up, and both turn out to stand for peer 9. -/
def twoNames : Externals :=
  reading fun buff =>
    if buff = [] then .helloClient (some ⟨5, none, none⟩)
    else .aliasResolved (some ⟨buff, 9⟩)

def sendToNames : List Event :=
  introduction ++ [.virtualPeerForAlias [1], .virtualPeerForAlias [2],
    .sendto [7] 0x80000001 0 0, .sendto [7] 0x80000002 0 0, .signal [1]]

/-- The attempt under the first name is found. -/
theorem attempts_found_name :
    ∃ c, Run twoNames Unclaimed c ∧ history twoNames Unclaimed sendToNames = some c ∧
      AttemptsFound c := by
  have running : ((history twoNames Unclaimed sendToNames).bind Config.now).isSome = true := by
    decide +kernel
  obtain ⟨s, now⟩ := Option.isSome_iff_exists.mp running
  obtain ⟨c, h, _⟩ := Option.bind_eq_some_iff.mp now
  exact ⟨c, run_history _ h, h, attempts_found _ (run_history _ h)⟩

/-- The attempt under the second name has a socket, and no reply reaches it. -/
theorem attempt_not_found :
    ∃ c, Run twoNames (fun _ _ => True) c ∧
      history twoNames (fun _ _ => True) (sendToNames ++ [.signal [2]]) = some c ∧
      ¬ AttemptsFound c := by
  have wrong : ((history twoNames (fun _ _ => True) (sendToNames ++ [.signal [2]])).bind
      Config.now).map (fun s => (s.pendingPeerConnectionsOut.lookup 9, s.heap.lookup 2)) =
        some (some 1, some ⟨.outgoing, .connecting, 9, [], true, some 2⟩) := by decide +kernel
  obtain ⟨s, now, eq⟩ := Option.map_eq_some_iff.mp wrong
  obtain ⟨c, h, running⟩ := Option.bind_eq_some_iff.mp now
  refine ⟨c, run_history _ h, h, fun right => ?_⟩
  cases c with
  | crashed tag e s => cases running
  | running pool =>
    cases running
    obtain ⟨entry, here⟩ := Prod.mk.inj eq
    have found := (right 2 _ here rfl (Option.some_ne_none 2) (by decide)).1 rfl
    rw [entry] at found
    cases found

end HumbleNet.Client
