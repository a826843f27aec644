import HumbleNet.Client.Run

/-! The containers that hold a `Connection *`. All they hold is alive, as long as a
connection is deleted only when neither `p2pconnections` nor the packets know it. -/
namespace HumbleNet.Client

open Guarded

structure Registries (live : ConnPtr → Prop) (t : Tables) : Prop where
  connections : ∀ socket conn, t.connections.lookup socket = some conn → live conn
  pendingNew : ∀ conn ∈ t.pendingNewConnections, live conn
  pendingData : ∀ conn ∈ t.pendingDataConnections, live conn
  remoteClosed : ∀ conn ∈ t.remoteClosedConnections, live conn
  pendingOut : ∀ peer conn, t.pendingPeerConnectionsOut.lookup peer = some conn → live conn
  pendingIn : ∀ peer conn, t.pendingPeerConnectionsIn.lookup peer = some conn → live conn
  pendingAlias : ∀ name conn, t.pendingAliasConnectionsOut.lookup name = some conn → live conn
  p2p : ∀ peer conn, t.p2pconnections.lookup peer = some conn → live conn
  virtualA : ∀ vpeer conn, t.virtualPeerConnections.listA.lookup vpeer = some conn → live conn
  virtualB : ∀ conn ∈ t.virtualPeerConnections.listB, live conn
  datagrams : ∀ conn dg, t.datagrams.lookup conn = some dg → live conn ∧ live dg.conn

theorem Registries.mono {live live' : ConnPtr → Prop} {t : Tables} (r : Registries live t)
    (h : ∀ conn, live conn → live' conn) : Registries live' t where
  connections socket conn m := h conn (r.connections socket conn m)
  pendingNew conn m := h conn (r.pendingNew conn m)
  pendingData conn m := h conn (r.pendingData conn m)
  remoteClosed conn m := h conn (r.remoteClosed conn m)
  pendingOut peer conn m := h conn (r.pendingOut peer conn m)
  pendingIn peer conn m := h conn (r.pendingIn peer conn m)
  pendingAlias name conn m := h conn (r.pendingAlias name conn m)
  p2p peer conn m := h conn (r.p2p peer conn m)
  virtualA vpeer conn m := h conn (r.virtualA vpeer conn m)
  virtualB conn m := h conn (r.virtualB conn m)
  datagrams conn dg m := ⟨h conn (r.datagrams conn dg m).1, h dg.conn (r.datagrams conn dg m).2⟩

/-- No container keeps a deleted connection. -/
abbrev AllLive (t : Tables) : Prop := Registries (· ∈ t.heap) t

structure Clean (t : Tables) : Prop where
  live : AllLive t
  covered : t.virtualPeerConnections.Covered
  keyed : ∀ conn dg, t.datagrams.lookup conn = some dg → dg.conn = conn

/-- A connection is deleted when `p2pconnections` and the packets have let it go. -/
def Forgotten : Point → Tables → Prop
  | .delete conn, t => conn ∉ t.p2pconnections.entries.map Sigma.snd ∧ conn ∉ t.datagrams
  | _, _ => True

instance (point : Point) (t : Tables) : Decidable (Forgotten point t) := by
  unfold Forgotten
  split <;> infer_instance

theorem clean_initial : Clean .initial where
  live := by
    constructor <;> intros <;> rename_i h <;> cases h
  covered := BidirectionalMap.covered_empty
  keyed conn dg h := by cases h

theorem Registries.close {live : ConnPtr → Prop} {t : Tables} (r : Registries live t)
    {conn : ConnPtr} (alive : live conn) : Registries live (t.close conn) where
  connections socket k h := r.connections socket k (StdMap.lookup_eraseValue_some.mp h).1
  pendingNew k h := r.pendingNew k (StdSet.mem_erase.mp h).1
  pendingData k h := r.pendingData k (StdSet.mem_erase.mp h).1
  remoteClosed k h := by
    rcases StdSet.mem_insert.mp h with rfl | h
    · exact alive
    · exact r.remoteClosed k h
  pendingOut peer k h := r.pendingOut peer k (StdMap.lookup_eraseValue_some.mp h).1
  pendingIn peer k h := r.pendingIn peer k (StdMap.lookup_eraseValue_some.mp h).1
  pendingAlias name k h := r.pendingAlias name k (StdMap.lookup_eraseValue_some.mp h).1
  p2p := r.p2p
  virtualA := r.virtualA
  virtualB := r.virtualB
  datagrams := r.datagrams

theorem Registries.release {live : ConnPtr → Prop} {t : Tables} (r : Registries live t)
    (covered : t.virtualPeerConnections.Covered)
    (keyed : ∀ conn dg, t.datagrams.lookup conn = some dg → dg.conn = conn) {conn : ConnPtr}
    (forgotten : Forgotten (.delete conn) (t.release conn)) :
    Registries (fun k => live k ∧ k ≠ conn) (t.release conn) where
  connections socket k h := by
    obtain ⟨there, ne⟩ := StdMap.lookup_eraseValue_some.mp h
    exact ⟨r.connections socket k there, ne⟩
  pendingNew k h := by
    obtain ⟨there, ne⟩ := StdSet.mem_erase.mp h
    exact ⟨r.pendingNew k there, ne⟩
  pendingData k h := by
    obtain ⟨there, ne⟩ := StdSet.mem_erase.mp h
    exact ⟨r.pendingData k there, ne⟩
  remoteClosed k h := by
    obtain ⟨there, ne⟩ := StdSet.mem_erase.mp h
    exact ⟨r.remoteClosed k ((StdSet.mem_insert.mp there).resolve_left ne), ne⟩
  pendingOut peer k h := by
    obtain ⟨there, ne⟩ := StdMap.lookup_eraseValue_some.mp h
    exact ⟨r.pendingOut peer k there, ne⟩
  pendingIn peer k h := by
    obtain ⟨there, ne⟩ := StdMap.lookup_eraseValue_some.mp h
    exact ⟨r.pendingIn peer k there, ne⟩
  pendingAlias name k h := by
    obtain ⟨there, ne⟩ := StdMap.lookup_eraseValue_some.mp h
    exact ⟨r.pendingAlias name k there, ne⟩
  p2p peer k h := by
    refine ⟨r.p2p peer k h, ?_⟩
    rintro rfl
    exact forgotten.1 (List.mem_map_of_mem ((StdMap.lookup_eq_some_iff _ _ _).mp h))
  virtualA vpeer k h := by
    refine ⟨r.virtualA vpeer k (BidirectionalMap.lookup_of_eraseB h), ?_⟩
    rintro rfl
    exact covered.lookup_eraseB k vpeer h
  virtualB k h := by
    obtain ⟨there, ne⟩ := BidirectionalMap.mem_of_eraseB h
    exact ⟨r.virtualB k there, ne⟩
  datagrams k dg h := by
    have ne : k ≠ conn := by
      rintro rfl
      exact forgotten.2 (StdMap.mem_iff_lookup.mpr ⟨dg, h⟩)
    obtain ⟨there, field⟩ := r.datagrams k dg h
    refine ⟨⟨there, ne⟩, field, ?_⟩
    rw [keyed k dg h]
    exact ne

theorem Clean.delete {t : Tables} (clean : Clean t) {conn : ConnPtr}
    (forgotten : Forgotten (.delete conn) (t.release conn)) : Clean (t.delete conn) where
  live := by
    have released := Registries.release clean.live clean.covered clean.keyed forgotten
    have r : Registries (· ∈ (t.delete conn).heap) (t.release conn) :=
      released.mono fun k h => AList.mem_erase.mpr ⟨h.2, StdMap.mem_modify.mpr h.1⟩
    exact { r with }
  covered := clean.covered.eraseB conn
  keyed := clean.keyed

theorem Registries.keeps {ok : Point → Tables → Prop} {scope : Scope} {live : ConnPtr → Prop}
    {s t : Tables} (r : Registries live s) (does : Does ok scope s t)
    (before : ∀ conn ∈ s.heap, live conn) (after : ∀ conn ∈ t.heap, live conn) :
    Registries live t := by
  have there : ∀ {conn : ConnPtr} {c : Connection}, s.heap.lookup conn = some c → live conn :=
    fun here => before _ (StdMap.mem_iff_lookup.mpr ⟨_, here⟩)
  cases does with
  | @dial conn c fresh =>
    refine { r with pendingOut := fun peer k h => ?_ }
    rcases StdMap.lookup_emplace_some h with rfl | h
    · exact after k ((AList.mem_insert _).mpr (Or.inl rfl))
    · exact r.pendingOut peer k h
  | @invite conn c fresh =>
    refine { r with pendingIn := fun peer k h => ?_ }
    rcases StdMap.lookup_emplace_some h with rfl | h
    · exact after k ((AList.mem_insert _).mpr (Or.inl rfl))
    · exact r.pendingIn peer k h
  | @createAlias conn fresh name vpeer _ =>
    have new : live conn := after conn ((AList.mem_insert _).mpr (Or.inl rfl))
    refine { r with pendingAlias := ?_, virtualA := ?_, virtualB := ?_ }
    · intro name' k h
      rcases StdMap.lookup_emplace_some h with rfl | h
      · exact new
      · exact r.pendingAlias name' k h
    · intro vpeer' k h
      rcases StdMap.lookup_emplace_some h with rfl | h
      · exact new
      · exact r.virtualA vpeer' k h
    · intro k h
      rcases BidirectionalMap.mem_of_insert h with rfl | h
      · exact new
      · exact r.virtualB k h
  | unpend name =>
    refine { r with pendingAlias := fun name' k h => ?_ }
    exact r.pendingAlias name' k (StdMap.lookup_erase_some h).2
  | @resolve conn c name pending here peer =>
    refine { r with pendingOut := ?_, pendingAlias := ?_ }
    · intro peer' k h
      rcases StdMap.lookup_emplace_some h with rfl | h
      · exact there here
      · exact r.pendingOut peer' k h
    · intro name' k h
      exact r.pendingAlias name' k (StdMap.lookup_erase_some h).2
  | detach socket =>
    refine { r with connections := fun socket' k h => ?_ }
    exact r.connections socket' k (StdMap.lookup_erase_some h).2
  | attach here status socket =>
    refine { r with connections := fun socket' k h => ?_ }
    rcases StdMap.lookup_emplace_some h with rfl | h
    · exact there here
    · exact r.connections socket' k h
  | close here => exact r.close (there here)
  | @delete conn c here =>
    have closed := r.close (there here)
    refine { closed with virtualA := ?_, virtualB := ?_, remoteClosed := ?_ }
    · exact fun k h => closed.remoteClosed k (StdSet.mem_erase.mp h).1
    · exact fun vpeer k h => r.virtualA vpeer k (BidirectionalMap.lookup_of_eraseB h)
    · exact fun k h => r.virtualB k (BidirectionalMap.mem_of_eraseB h).1
  | receive here =>
    refine { r with pendingData := fun k h => ?_ }
    split at h
    · rcases StdSet.mem_insert.mp h with rfl | h
      · exact there here
      · exact r.pendingData k h
    · exact r.pendingData k h
  | relay here =>
    refine { r with pendingData := fun k h => ?_ }
    rcases StdSet.mem_insert.mp h with rfl | h
    · exact there here
    · exact r.pendingData k h
  | read here left =>
    refine { r with pendingData := fun k h => ?_ }
    split at h
    · exact r.pendingData k (StdSet.mem_erase.mp h).1
    · rcases StdSet.mem_insert.mp h with rfl | h
      · exact there here
      · exact r.pendingData k h
  | pollClosed conn =>
    refine { r with remoteClosed := fun k h => ?_ }
    exact r.remoteClosed k (StdSet.mem_erase.mp h).1
  | accept conn =>
    refine { r with pendingNew := fun k h => ?_ }
    exact r.pendingNew k (StdSet.mem_erase.mp h).1
  | track here peer =>
    refine { r with p2p := fun peer' k h => ?_ }
    rcases StdMap.lookup_emplace_some h with rfl | h
    · exact there here
    · exact r.p2p peer' k h
  | untrack peer =>
    refine { r with p2p := fun peer' k h => ?_ }
    exact r.p2p peer' k (StdMap.lookup_erase_some h).2
  | unalias peer =>
    refine { r with virtualA := ?_, virtualB := ?_ }
    · exact fun vpeer k h => r.virtualA vpeer k (BidirectionalMap.lookup_of_eraseA h)
    · exact fun k h => r.virtualB k (BidirectionalMap.mem_of_eraseA h)
  | insertDatagram here =>
    refine { r with datagrams := fun k dg h => ?_ }
    rcases lookup_insertDatagram h with ⟨rfl, rfl⟩ | h
    · exact ⟨there here, there here⟩
    · exact r.datagrams k dg h
  | updateDatagram conn f same =>
    refine { r with datagrams := fun k dg h => ?_ }
    obtain ⟨old, h, eq⟩ := lookup_updateDatagram same h
    exact eq ▸ r.datagrams k old h
  | eraseDatagram conn =>
    refine { r with datagrams := fun k dg h => ?_ }
    exact r.datagrams k dg (StdMap.lookup_erase_some h).2
  | _ => exact { r with }

theorem Does.deletes {ok : Point → Tables → Prop} {scope : Scope} {s t : Tables}
    (does : Does ok scope s t) :
    (∃ conn, ok (.delete conn) (s.release conn) ∧ t = s.delete conn) ∨
      ∀ conn ∈ s.heap, conn ∈ t.heap := by
  cases does with
  | @delete conn c here closes passed => exact Or.inl ⟨conn, passed, rfl⟩
  | dial => exact Or.inr fun k h => (AList.mem_insert _).mpr (Or.inr h)
  | invite => exact Or.inr fun k h => (AList.mem_insert _).mpr (Or.inr h)
  | createAlias => exact Or.inr fun k h => (AList.mem_insert _).mpr (Or.inr h)
  | resolve => exact Or.inr fun k h => StdMap.mem_modify.mpr h
  | openSocket => exact Or.inr fun k h => StdMap.mem_modify.mpr h
  | connected => exact Or.inr fun k h => StdMap.mem_modify.mpr h
  | close => exact Or.inr fun k h => StdMap.mem_modify.mpr h
  | receive => exact Or.inr fun k h => StdMap.mem_modify.mpr h
  | relay => exact Or.inr fun k h => StdMap.mem_modify.mpr h
  | read => exact Or.inr fun k h => StdMap.mem_modify.mpr h
  | _ => exact Or.inr fun k h => h

theorem Clean.keeps {scope : Scope} {s t : Tables} (clean : Clean s)
    (does : Does Forgotten scope s t) : Clean t := by
  rcases does.deletes with ⟨conn, forgotten, rfl⟩ | grows
  · exact clean.delete forgotten
  obtain ⟨live, covered, keyed⟩ := clean
  refine ⟨(Registries.mono live grows).keeps does grows fun _ h => h, ?_, ?_⟩
  · cases does with
    | @createAlias conn fresh name vpeer _ =>
      refine covered.insert vpeer _ (AList.lookup_eq_none.mpr fun h => ?_)
      exact fresh (live.virtualB _ h)
    | unalias peer => exact covered.eraseA peer
    | @delete conn => exact covered.eraseB conn
    | _ => exact covered
  · cases does with
    | insertDatagram here =>
      intro k dg h
      rcases lookup_insertDatagram h with ⟨rfl, rfl⟩ | h
      · rfl
      · exact keyed k dg h
    | updateDatagram conn f same =>
      intro k dg h
      obtain ⟨old, h, eq⟩ := lookup_updateDatagram same h
      exact eq ▸ keyed k old h
    | eraseDatagram conn => exact fun k dg h => keyed k dg (StdMap.lookup_erase_some h).2
    | _ => exact keyed

/-- The condition leaves out only deletions after which a container is wrong. -/
theorem not_allLive_delete {t : Tables} {conn : ConnPtr}
    (known : ¬ Forgotten (.delete conn) (t.release conn)) : ¬ AllLive (t.delete conn) := by
  intro live
  have gone : conn ∉ (t.delete conn).heap := fun here => (AList.mem_erase.mp here).1 rfl
  refine known ⟨fun tracked => ?_, fun entry => ?_⟩
  · obtain ⟨⟨peer, _⟩, there, rfl⟩ := List.mem_map.mp tracked
    exact gone (live.p2p peer _ ((StdMap.lookup_eq_some_iff _ _ _).mpr there))
  · obtain ⟨dg, there⟩ := StdMap.mem_iff_lookup.mp entry
    exact gone (live.datagrams conn dg there).1

theorem registries_live (env : Externals)
    {pool : Pool Caller State Fault Query Query.Answer Unit}
    (run : Run env Forgotten (.running pool)) : AllLive pool.state.toTables := by
  have kept : Kept Forgotten Clean (.running pool) :=
    kept_of_run env clean_initial (fun _ _ _ clean => clean.keeps) run
  exact kept.live

/-- A message is queued while its connection is being opened, and the application gives the
peer up; when it is received from, the connection is forgotten everywhere. -/
def giveUp (last : Event) : List Event :=
  introduction ++ [.sendto [1] 9 1 0, .disconnect 1 9, last]

theorem registries_live_after_receive :
    ∃ pool, history welcome Forgotten (giveUp (.recvfrom 4 100 0)) = some (.running pool) ∧
      Run welcome Forgotten (.running pool) ∧ AllLive pool.state.toTables := by
  have running : ((history welcome Forgotten (giveUp (.recvfrom 4 100 0))).bind
      Config.now).isSome = true := by decide +kernel
  obtain ⟨s, now⟩ := Option.isSome_iff_exists.mp running
  obtain ⟨c, h, running⟩ := Option.bind_eq_some_iff.mp now
  cases c with
  | crashed tag e s => cases running
  | running pool => exact ⟨pool, h, run_history _ h, registries_live _ (run_history _ h)⟩

/-- When another message is sent instead, the packets keep the connection it deletes. -/
theorem send_keeps_deleted :
    ∃ pool, history welcome (fun _ _ => True) (giveUp (.sendto [2] 9 1 0)) =
        some (.running pool) ∧
      Run welcome (fun _ _ => True) (.running pool) ∧
      1 ∈ pool.state.datagrams ∧ 1 ∉ pool.state.heap ∧ ¬ AllLive pool.state.toTables := by
  have wrong : ((history welcome (fun _ _ => True) (giveUp (.sendto [2] 9 1 0))).bind
      Config.now).map (fun s => (decide (1 ∈ s.datagrams), decide (1 ∈ s.heap))) =
        some (true, false) := by decide +kernel
  obtain ⟨s, now, eq⟩ := Option.map_eq_some_iff.mp wrong
  obtain ⟨c, h, running⟩ := Option.bind_eq_some_iff.mp now
  cases c with
  | crashed tag e s => cases running
  | running pool =>
    cases running
    obtain ⟨entry, gone⟩ := Prod.mk.inj eq
    have entry : 1 ∈ pool.state.datagrams := of_decide_eq_true entry
    have gone : 1 ∉ pool.state.heap := of_decide_eq_false gone
    refine ⟨pool, h, run_history _ h, entry, gone, fun live => ?_⟩
    obtain ⟨dg, there⟩ := StdMap.mem_iff_lookup.mp entry
    exact gone (live.datagrams 1 dg there).1

end HumbleNet.Client
