import HumbleNet.Client.Turns

/-! The peer that a result of `humblenet_p2p_recvfrom` is reported to come from: the one that
the connection was made for, whatever has become of its name since. -/
namespace HumbleNet.Client

open Guarded

/-- No address is that of an earlier connection, and no peer has an id that is virtual. -/
def Identified : Point → Tables → Prop
  | .new conn, t => conn ∉ t.made
  | .pend _ peer, _ => internalAliasIsVirtualPeer peer = false
  | _, _ => True

instance (point : Point) (t : Tables) : Decidable (Identified point t) :=
  match point with
  | .new _ | .setClosed .. | .delete _ | .arrive .. | .answer _ | .bufferedIn _ | .visit _
  | .maxLength _ | .connected _ | .pend .. | .beginSession | .greet _ | .callback .. | .opening _
  | .adopt _ | .read _ => by
    unfold Identified
    infer_instance

/-- A connection made for a peer goes by its id: the virtual one, or its own. -/
def GoesBy (t : Tables) (conn : ConnPtr) (id : PeerId) (c : Connection) : Prop :=
  t.virtualPeerConnections.listB.lookup conn = some id ∨
    conn ∉ t.virtualPeerConnections.listB ∧ c.otherPeer = id

structure Known (t : Tables) : Prop where
  made : ∀ conn ∈ t.heap, conn ∈ t.made
  covered : t.virtualPeerConnections.Covered
  matched : t.virtualPeerConnections.Matched
  virtual : ∀ conn vpeer, t.virtualPeerConnections.listB.lookup conn = some vpeer →
    conn ∈ t.made ∧ internalAliasIsVirtualPeer vpeer = true
  pending : ∀ name conn, t.pendingAliasConnectionsOut.lookup name = some conn →
    conn ∈ t.made ∧ (conn ∈ t.heap → conn ∈ t.virtualPeerConnections.listB)
  real : ∀ conn c, t.heap.lookup conn = some c → internalAliasIsVirtualPeer c.otherPeer = false
  named : ∀ conn c session id, t.heap.lookup conn = some c →
    t.made.lookup conn = some ⟨session, some id⟩ → GoesBy t conn id c
  told : ∀ conn frompeer, (conn, frompeer) ∈ t.told → conn ∈ t.made ∧
    ∀ session id, t.made.lookup conn = some ⟨session, some id⟩ → frompeer = id

theorem known_initial : Known .initial where
  made conn h := absurd h (AList.notMem_empty conn)
  covered := BidirectionalMap.covered_empty
  matched := BidirectionalMap.matched_empty
  virtual _ _ h := by cases h
  pending _ _ h := by cases h
  real _ _ h := by cases h
  named _ _ _ _ h := by cases h
  told _ _ h := by cases h

section steps

variable {s t : Tables} {conn : ConnPtr}

theorem Known.carry (known : Known s) (made : t.made = s.made) (told : t.told = s.told)
    (names : t.virtualPeerConnections = s.virtualPeerConnections)
    (pending : ∀ name k, t.pendingAliasConnectionsOut.lookup name = some k →
      s.pendingAliasConnectionsOut.lookup name = some k)
    (heap : ∀ k c', t.heap.lookup k = some c' → ∃ c, s.heap.lookup k = some c ∧
      internalAliasIsVirtualPeer c'.otherPeer = false ∧
      (k ∉ s.virtualPeerConnections.listB → c'.otherPeer = c.otherPeer)) : Known t where
  made k h := by
    obtain ⟨c', here⟩ := StdMap.mem_iff_lookup.mp h
    obtain ⟨c, before, _⟩ := heap k c' here
    exact made ▸ known.made k (StdMap.mem_iff_lookup.mpr ⟨c, before⟩)
  covered := names ▸ known.covered
  matched := names ▸ known.matched
  virtual := by
    rw [names, made]
    exact known.virtual
  pending name k h := by
    obtain ⟨there, named⟩ := known.pending name k (pending name k h)
    refine ⟨made ▸ there, fun live => ?_⟩
    obtain ⟨c', here⟩ := StdMap.mem_iff_lookup.mp live
    obtain ⟨c, before, _⟩ := heap k c' here
    rw [names]
    exact named (StdMap.mem_iff_lookup.mpr ⟨c, before⟩)
  real k c' here := by
    obtain ⟨c, _, real, _⟩ := heap k c' here
    exact real
  named k c' session id here origin := by
    obtain ⟨c, before, _, same⟩ := heap k c' here
    unfold GoesBy
    rw [names]
    rcases known.named k c session id before (made ▸ origin) with there | ⟨unnamed, peer⟩
    · exact Or.inl there
    · exact Or.inr ⟨unnamed, (same unnamed).trans peer⟩
  told := by
    rw [told, made]
    exact known.told

theorem Known.modify (known : Known s) {f : Connection → Connection}
    (peer : ∀ c, (f c).otherPeer = c.otherPeer) : Known (s.updateConnection conn f) := by
  refine known.carry rfl rfl rfl (fun _ _ h => h) ?_
  intro k c' here
  obtain ⟨c, before, rfl⟩ := StdMap.lookup_modify_some.mp here
  refine ⟨c, before, ?_⟩
  split
  · rw [peer c]
    exact ⟨known.real k c before, fun _ => rfl⟩
  · exact ⟨known.real k c before, fun _ => rfl⟩

theorem Known.close (known : Known s) (conn : ConnPtr) : Known (s.close conn) := by
  have closed : Known (s.updateConnection conn
      fun c => { c with socket := none, status := .closed }) := known.modify fun _ => rfl
  refine closed.carry rfl rfl rfl ?_ ?_
  · exact fun _ _ h => (StdMap.lookup_eraseValue_some.mp h).1
  · exact fun k c here => ⟨c, here, closed.real k c here, fun _ => rfl⟩

theorem Known.fresh (known : Known s) (new : conn ∉ s.made) :
    conn ∉ s.heap ∧ s.virtualPeerConnections.listB.lookup conn = none := by
  refine ⟨fun live => new (known.made conn live), ?_⟩
  cases there : s.virtualPeerConnections.listB.lookup conn with
  | none => rfl
  | some vpeer => exact absurd (known.virtual conn vpeer there).1 new

theorem origin_make {k : ConnPtr} {c : Connection} {peer : Option PeerId} {origin : Origin}
    (h : (s.make conn c peer).made.lookup k = some origin) :
    k = conn ∧ origin = ⟨s.session, peer⟩ ∨ s.made.lookup k = some origin := by
  have entry : AList.lookup k (s.made.insert conn ⟨s.session, peer⟩) = some origin := h
  rw [StdMap.lookup_insert_if] at entry
  split at entry
  · exact Or.inl ⟨‹_›, (Option.some.inj entry).symm⟩
  · exact Or.inr entry

theorem Known.told_make (known : Known s) (new : conn ∉ s.made) (c : Connection)
    (peer : Option PeerId) : ∀ k frompeer, (k, frompeer) ∈ s.told →
      k ∈ (s.make conn c peer).made ∧ ∀ session id,
        (s.make conn c peer).made.lookup k = some ⟨session, some id⟩ → frompeer = id := by
  intro k frompeer reported
  obtain ⟨there, right⟩ := known.told k frompeer reported
  refine ⟨(AList.mem_insert _).mpr (Or.inr there), fun session id origin => ?_⟩
  rcases origin_make origin with ⟨rfl, _⟩ | before
  · exact absurd there new
  · exact right session id before

theorem Known.make (known : Known s) (new : conn ∉ s.made) {c : Connection}
    {peer : Option PeerId} (real : internalAliasIsVirtualPeer c.otherPeer = false)
    (own : ∀ id, peer = some id → c.otherPeer = id) : Known (s.make conn c peer) where
  made k h := by
    refine (AList.mem_insert _).mpr ?_
    rcases (AList.mem_insert _).mp h with rfl | there
    · exact Or.inl rfl
    · exact Or.inr (known.made k there)
  covered := known.covered
  matched := known.matched
  virtual k vpeer h := by
    obtain ⟨there, virtual⟩ := known.virtual k vpeer h
    exact ⟨(AList.mem_insert _).mpr (Or.inr there), virtual⟩
  pending name k h := by
    obtain ⟨there, named⟩ := known.pending name k h
    refine ⟨(AList.mem_insert _).mpr (Or.inr there), fun live => ?_⟩
    rcases (AList.mem_insert _).mp live with rfl | before
    · exact absurd there new
    · exact named before
  real k c' here := by
    rcases StdMap.lookup_insert_some here with rfl | before
    · exact real
    · exact known.real k c' before
  named k c' session id here origin := by
    have entry : AList.lookup k (s.heap.insert conn c) = some c' := here
    rw [StdMap.lookup_insert_if] at entry
    rcases origin_make origin with ⟨rfl, made⟩ | before
    · rw [if_pos rfl] at entry
      cases entry
      cases made
      exact Or.inr ⟨AList.lookup_eq_none.mp (known.fresh new).2, own id rfl⟩
    · have other : k ≠ conn := by
        rintro rfl
        exact new (StdMap.mem_iff_lookup.mpr ⟨_, before⟩)
      rw [if_neg other] at entry
      exact known.named k c' session id entry before
  told := known.told_make new c peer

theorem Known.alias (known : Known s) (new : conn ∉ s.made) {c : Connection} {vpeer : PeerId}
    (virtual : internalAliasIsVirtualPeer vpeer = true)
    (free : s.virtualPeerConnections.listA.lookup vpeer = none)
    (real : internalAliasIsVirtualPeer c.otherPeer = false) (name : Bytes) :
    Known { s.make conn c (some vpeer) with
      pendingAliasConnectionsOut := StdMap.emplace name conn s.pendingAliasConnectionsOut
      virtualPeerConnections := s.virtualPeerConnections.insert vpeer conn } := by
  have unlisted := (known.fresh new).2
  have here : (s.virtualPeerConnections.insert vpeer conn).listB.lookup conn = some vpeer := by
    rw [BidirectionalMap.lookup_listB_insert, if_pos rfl, unlisted, Option.getD_none]
  have others : ∀ k, k ≠ conn → (s.virtualPeerConnections.insert vpeer conn).listB.lookup k =
      s.virtualPeerConnections.listB.lookup k := by
    intro k other
    rw [BidirectionalMap.lookup_listB_insert, if_neg other]
  have added : ∀ k, k ∈ s.made → k ∈ s.made.insert conn ⟨s.session, some vpeer⟩ :=
    fun k there => (AList.mem_insert _).mpr (Or.inr there)
  constructor
  · intro k live
    rcases (AList.mem_insert _).mp live with rfl | there
    · exact (AList.mem_insert _).mpr (Or.inl rfl)
    · exact added k (known.made k there)
  · exact known.covered.insert vpeer conn unlisted
  · exact known.matched.insert free unlisted
  · intro k v h
    by_cases eq : k = conn
    · subst eq
      cases here.symm.trans h
      exact ⟨(AList.mem_insert _).mpr (Or.inl rfl), virtual⟩
    · obtain ⟨there, isVirtual⟩ := known.virtual k v ((others k eq).symm.trans h)
      exact ⟨added k there, isVirtual⟩
  · intro name' k h
    have listed : k = conn → k ∈ (s.virtualPeerConnections.insert vpeer conn).listB := by
      rintro rfl
      exact StdMap.mem_iff_lookup.mpr ⟨vpeer, here⟩
    rcases StdMap.lookup_emplace_some h with rfl | before
    · exact ⟨(AList.mem_insert _).mpr (Or.inl rfl), fun _ => listed rfl⟩
    · obtain ⟨there, named⟩ := known.pending name' k before
      refine ⟨added k there, fun live => ?_⟩
      rcases (AList.mem_insert _).mp live with eq | old
      · exact listed eq
      · obtain ⟨v, entry⟩ := StdMap.mem_iff_lookup.mp (named old)
        by_cases eq : k = conn
        · exact listed eq
        · exact StdMap.mem_iff_lookup.mpr ⟨v, (others k eq).trans entry⟩
  · intro k c' h
    rcases StdMap.lookup_insert_some h with rfl | before
    · exact real
    · exact known.real k c' before
  · intro k c' session id h origin
    rcases origin_make (c := c) origin with ⟨rfl, made⟩ | before
    · cases made
      exact Or.inl here
    · have other : k ≠ conn := by
        rintro rfl
        exact new (StdMap.mem_iff_lookup.mpr ⟨_, before⟩)
      have entry : AList.lookup k (s.heap.insert conn c) = some c' := h
      rw [StdMap.lookup_insert_if, if_neg other] at entry
      rcases known.named k c' session id entry before with there | ⟨unnamed, peer⟩
      · exact Or.inl ((others k other).trans there)
      · refine Or.inr ⟨?_, peer⟩
        rw [← AList.lookup_eq_none] at unnamed ⊢
        exact (others k other).trans unnamed
  · exact known.told_make new c (some vpeer)

theorem Known.forget (known : Known s) (made : t.made = s.made) (told : t.told = s.told)
    (names : t.virtualPeerConnections = s.virtualPeerConnections.eraseB conn)
    (pending : t.pendingAliasConnectionsOut = s.pendingAliasConnectionsOut)
    (heap : t.heap = s.heap.erase conn) : Known t := by
  have kept : ∀ k, k ≠ conn → (s.virtualPeerConnections.eraseB conn).listB.lookup k =
      s.virtualPeerConnections.listB.lookup k := fun k => BidirectionalMap.lookup_listB_eraseB
  have live : ∀ k ∈ t.heap, k ≠ conn ∧ k ∈ s.heap := by
    intro k h
    rw [heap] at h
    exact AList.mem_erase.mp h
  constructor
  · intro k h
    exact made ▸ known.made k (live k h).2
  · exact names ▸ known.covered.eraseB conn
  · exact names ▸ known.matched.eraseB conn
  · intro k v h
    rw [names] at h
    have other : k ≠ conn := (BidirectionalMap.mem_of_eraseB (StdMap.mem_iff_lookup.mpr ⟨v, h⟩)).2
    rw [kept k other] at h
    exact made ▸ known.virtual k v h
  · intro name k h
    rw [pending] at h
    obtain ⟨there, named⟩ := known.pending name k h
    refine ⟨made ▸ there, fun here => ?_⟩
    obtain ⟨other, before⟩ := live k here
    obtain ⟨v, entry⟩ := StdMap.mem_iff_lookup.mp (named before)
    rw [names]
    exact StdMap.mem_iff_lookup.mpr ⟨v, (kept k other).trans entry⟩
  · intro k c here
    rw [heap] at here
    exact known.real k c (StdMap.lookup_erase_some here).2
  · intro k c session id here origin
    rw [heap] at here
    obtain ⟨other, before⟩ := StdMap.lookup_erase_some here
    unfold GoesBy
    rw [names, kept k other]
    rcases known.named k c session id before (made ▸ origin) with there | ⟨unnamed, peer⟩
    · exact Or.inl there
    · refine Or.inr ⟨fun listed => unnamed ?_, peer⟩
      exact (BidirectionalMap.mem_of_eraseB listed).1
  · rw [told, made]
    exact known.told

end steps

theorem Known.keeps {scope : Scope} {s t : Tables} (other : scope.peers = false)
    (known : Known s) (does : Does Identified scope s t) : Known t := by
  have apart : scope.peers = true → Known t := by
    intro own
    rw [other] at own
    cases own
  cases does with
  | @dial conn c fresh empty status socket writable new outgoing pends =>
    have made : Known (s.make conn c (some c.otherPeer)) :=
      known.make new pends fun _ => Option.some.inj
    exact { made with }
  | @invite conn c fresh empty writable new status incoming pends =>
    have made : Known (s.make conn c none) := known.make new pends fun _ h => by cases h
    exact { made with }
  | createAlias _ _ _ _ own => exact apart own
  | unpend name =>
    refine known.carry rfl rfl rfl (fun _ _ h => (StdMap.lookup_erase_some h).2) ?_
    exact fun k c here => ⟨c, here, known.real k c here, fun _ => rfl⟩
  | @resolve conn c name there here peer pends =>
    refine known.carry rfl rfl rfl (fun _ _ h => (StdMap.lookup_erase_some h).2) ?_
    intro k c' here'
    obtain ⟨d, before, rfl⟩ := StdMap.lookup_modify_some.mp here'
    refine ⟨d, before, ?_⟩
    split
    · rename_i eq
      refine ⟨pends, fun unnamed => absurd ?_ unnamed⟩
      rw [eq]
      exact (known.pending name conn there).2 (StdMap.mem_iff_lookup.mpr ⟨c, here⟩)
    · exact ⟨known.real k d before, fun _ => rfl⟩
  | openSocket => exact known.modify fun _ => rfl
  | @connected conn =>
    have opened : Known (s.updateConnection conn fun c => { c with status := .connected }) :=
      known.modify fun _ => rfl
    exact { opened with }
  | close => exact known.close _
  | delete => exact (known.close _).forget rfl rfl rfl rfl rfl
  | @receive conn c data =>
    have arrived : Known (s.arrive conn data) := known.modify fun _ => rfl
    exact { arrived with }
  | @relay conn c data =>
    have arrived : Known (s.arrive conn data) := known.modify fun _ => rfl
    exact { arrived with }
  | @read conn c here left =>
    have taken : Known (s.updateConnection conn fun c => { c with recvBuffer := left }) :=
      known.modify fun _ => rfl
    exact { taken with }
  | track _ _ own => exact apart own
  | untrack _ own => exact apart own
  | unalias _ own => exact apart own
  | report _ _ own => exact apart own
  | _ => exact { known with }

structure Lasts (s t : Tables) : Prop where
  source : t.source = s.source
  made : ∀ conn ∈ s.made, t.made.lookup conn = s.made.lookup conn

theorem Lasts.refl (s : Tables) : Lasts s s := ⟨rfl, fun _ _ => rfl⟩

theorem Lasts.trans {s t u : Tables} (h : Lasts s t) (h' : Lasts t u) : Lasts s u where
  source := h'.source.trans h.source
  made conn before := by
    have same := h.made conn before
    obtain ⟨origin, entry⟩ := StdMap.mem_iff_lookup.mp before
    exact (h'.made conn (StdMap.mem_iff_lookup.mpr ⟨origin, same.trans entry⟩)).trans same

theorem lasts_make {s : Tables} {conn : ConnPtr} (new : conn ∉ s.made) (c : Connection)
    (peer : Option PeerId) : Lasts s (s.make conn c peer) := by
  refine ⟨rfl, fun k before => AList.lookup_insert_ne ?_⟩
  rintro rfl
  exact new before

/-- What goes on beside the calls of the application leaves the peers it knows alone. -/
structure Steady (s t : Tables) : Prop where
  p2p : t.p2pconnections = s.p2pconnections
  names : ∀ vpeer conn, t.virtualPeerConnections.listA.lookup vpeer = some conn →
    s.virtualPeerConnections.listA.lookup vpeer = some conn
  lasts : Lasts s t

theorem Steady.refl (s : Tables) : Steady s s := ⟨rfl, fun _ _ h => h, .refl s⟩

theorem Steady.trans {s t u : Tables} (h : Steady s t) (h' : Steady t u) : Steady s u where
  p2p := h'.p2p.trans h.p2p
  names vpeer conn there := h.names vpeer conn (h'.names vpeer conn there)
  lasts := h.lasts.trans h'.lasts

theorem Does.steady {scope : Scope} {s t : Tables} (other : scope.peers = false)
    (does : Does Identified scope s t) : Steady s t := by
  have apart : scope.peers = true → Steady s t := by
    intro own
    rw [other] at own
    cases own
  have same : Lasts s s := .refl s
  cases does with
  | @dial conn c _ _ _ _ _ new =>
    exact ⟨rfl, fun _ _ h => h, (lasts_make new c (some c.otherPeer)).source,
      (lasts_make new c (some c.otherPeer)).made⟩
  | @invite conn c _ _ _ new =>
    exact ⟨rfl, fun _ _ h => h, (lasts_make new c none).source, (lasts_make new c none).made⟩
  | createAlias _ _ _ _ own => exact apart own
  | delete => exact ⟨rfl, fun _ _ h => BidirectionalMap.lookup_of_eraseB h, same.source, same.made⟩
  | track _ _ own => exact apart own
  | untrack _ own => exact apart own
  | unalias _ own => exact apart own
  | report _ _ own => exact apart own
  | _ => exact ⟨rfl, fun _ _ h => h, same.source, same.made⟩

theorem Evolves.steady {scope : Scope} {s t : Tables} (other : scope.peers = false)
    (evolves : Evolves Identified scope s t) : Steady s t := by
  induction evolves with
  | refl => exact .refl s
  | tail _ does ih => exact ih.trans (does.steady other)

/-- A virtual id stands for the connection that the application knows by it. -/
def Tracked (t : Tables) : Prop :=
  ∀ vpeer conn, t.virtualPeerConnections.listA.lookup vpeer = some conn →
    t.p2pconnections.lookup vpeer = some conn

/-- The peer with this id is the one that the last result came from. -/
def Due (frompeer : PeerId) (t : Tables) : Prop :=
  ∀ conn, t.source = some conn → conn ∈ t.made ∧
    ∀ session id, t.made.lookup conn = some ⟨session, some id⟩ → frompeer = id

theorem Lasts.due {s t : Tables} (lasts : Lasts s t) {frompeer : PeerId}
    (due : Due frompeer s) : Due frompeer t := by
  intro conn source
  obtain ⟨before, right⟩ := due conn (lasts.source.symm.trans source)
  have same := lasts.made conn before
  obtain ⟨origin, entry⟩ := StdMap.mem_iff_lookup.mp before
  refine ⟨StdMap.mem_iff_lookup.mpr ⟨origin, same.trans entry⟩, fun session id its => ?_⟩
  exact right session id (same.symm.trans its)

def TrackedBut (k : ConnPtr) (t : Tables) : Prop :=
  ∀ vpeer conn, t.virtualPeerConnections.listA.lookup vpeer = some conn →
    t.p2pconnections.lookup vpeer = some conn ∨ conn = k

def Steadfast (R : Tables → Prop) : Prop := ∀ s t, Steady s t → R s → R t

theorem steadfast_tracked : Steadfast Tracked := by
  intro s t steady tracked vpeer conn there
  rw [steady.p2p]
  exact tracked vpeer conn (steady.names vpeer conn there)

theorem steadfast_trackedBut (k : ConnPtr) : Steadfast (TrackedBut k) := by
  intro s t steady tracked vpeer conn there
  rw [steady.p2p]
  exact tracked vpeer conn (steady.names vpeer conn there)

theorem steadfast_lookup (topeer : PeerId) (found : Option ConnPtr) :
    Steadfast fun t => t.p2pconnections.lookup topeer = found := by
  intro s t steady h
  rw [steady.p2p]
  exact h

theorem steadfast_due (frompeer : PeerId) : Steadfast (Due frompeer) :=
  fun _ _ steady due => steady.lasts.due due

theorem steadfast_source : Steadfast fun t => t.source = none :=
  fun _ _ steady none => steady.lasts.source.trans none

theorem Steadfast.and {R R' : Tables → Prop} (h : Steadfast R) (h' : Steadfast R') :
    Steadfast fun t => R t ∧ R' t :=
  fun s t steady holds => ⟨h s t steady holds.1, h' s t steady holds.2⟩

/-! ### The calls of the application -/

def callTerms : Caller → Terms State Fault Query Query.Answer
  | .application =>
    { allowed := (terms Identified Caller.application.scope).allowed
      rely := fun s t => (Known s.toTables → Known t.toTables) ∧ Steady s.toTables t.toTables
      guar := fun s t => Known s.toTables → Known t.toTables
      blame := fun _ _ => True
      refl := fun _ => id
      trans := fun _ _ _ h h' known => h' (h known) }
  | tag => terms Identified tag.scope

section judgement

variable {α β : Type} {R R' R'' : Tables → Prop}

abbrev Calls (R R' : Tables → Prop) (x : ClientM α) : Prop :=
  Settles (callTerms .application) (fun s => Known s.toTables ∧ R s.toTables)
    (fun s => Known s.toTables ∧ R' s.toTables) x

def Scope.traffic : Scope := { Caller.application.scope with peers := false }

theorem calls_acts (steadfast : Steadfast R) {x : ClientM α}
    (acts : ∀ s, Acts Identified Scope.traffic s (x s)) : Calls R R x := by
  rintro s ⟨known, r⟩
  have meets : (x s).Meets (terms Identified Scope.traffic) (fun _ _ => True) s := acts s
  have kept : ∀ s t : State, Known s.toTables ∧ R s.toTables →
      Evolves Identified Scope.traffic s.toTables t.toTables →
      Known t.toTables ∧ R t.toTables := by
    intro s t h evolves
    exact ⟨evolves_keeps (fun _ _ => Known.keeps rfl) evolves h.1,
      steadfast _ _ (evolves.steady rfl) h.2⟩
  have relied : ∀ s t : State, Known s.toTables ∧ R s.toTables →
      (callTerms .application).rely s t → Known t.toTables ∧ R t.toTables :=
    fun s t h rely => ⟨rely.1 h.1, steadfast _ _ rely.2 h.2⟩
  have guar : ∀ s t : State, (terms Identified Scope.traffic).guar s t →
      (callTerms .application).guar s t :=
    fun s t evolves known => evolves_keeps (fun _ _ => Known.keeps rfl) evolves known
  have allowed : ∀ q (s : State) a t, (callTerms .application).allowed q s a t →
      (terms Identified Scope.traffic).allowed q s a t := fun _ _ _ _ h => h
  have carried := meets.carry allowed guar (fun _ _ _ => trivial) (fun _ _ _ => trivial) kept
    relied ⟨known, r⟩
  exact carried.mono fun _ _ h => h.2

theorem calls_quiet (steadfast : Steadfast R) {x : ClientM α} (quiet : Quiet x) : Calls R R x :=
  calls_acts steadfast fun _ => quiet.acts evolves_refl

end judgement

section calls

variable (env : Externals) {α : Type} {R : Tables → Prop}

theorem acts_setClosed (conn : ConnPtr) (deleted : Bool) {scope : Scope} (s : State) :
    Acts Identified scope s (setClosed conn deleted s) := by
  apply acts_last
  apply acts_setClosed_bind evolves_refl
  intro t u c here _ same
  apply acts_pure
  rw [same]
  exact Relation.ReflTransGen.single (.close here trivial)

def Tables.forget (conn : ConnPtr) (t : Tables) : Tables :=
  { t with
    virtualPeerConnections := t.virtualPeerConnections.eraseB conn
    remoteClosedConnections := StdSet.erase conn t.remoteClosedConnections
    heap := t.heap.erase conn }

theorem calls_connectionClose {R' : Tables → Prop} (steadfast : Steadfast R) (conn : ConnPtr)
    (after : ∀ t, Known t → R t → R' (t.forget conn)) :
    Calls R R' (humblenetConnectionClose conn) := by
  apply settles_bind (calls_acts steadfast (acts_setClosed conn true))
  rintro _ s ⟨known, r⟩
  apply meets_modify
  apply meets_modify
  apply meets_ask
  intro _ _
  have forgotten : Known (s.forget conn) := known.forget rfl rfl rfl rfl rfl
  exact meets_modify_last (fun _ => forgotten) ⟨forgotten, after s.toTables known r⟩

theorem calls_closeTracked (conn : ConnPtr) :
    Calls (TrackedBut conn) Tracked (humblenetConnectionClose conn) := by
  apply calls_connectionClose (steadfast_trackedBut conn)
  intro t known tracked vpeer k there
  rcases tracked vpeer k (BidirectionalMap.lookup_of_eraseB there) with known_by | rfl
  · exact known_by
  · exact absurd there (known.covered.lookup_eraseB k vpeer)

def Own (conn : ConnPtr) (peer : PeerId) (t : Tables) : Prop :=
  internalAliasIsVirtualPeer peer = true →
    ∀ k, t.virtualPeerConnections.listA.lookup peer = some k → k = conn

theorem calls_untrack (conn : ConnPtr) (peer other : PeerId) :
    Calls (fun t => TrackedBut conn t ∧ Own conn peer t ∧ Own conn other t)
      (fun t => TrackedBut conn t ∧ Own conn other t)
      (modify fun s => { s with p2pconnections := s.p2pconnections.erase peer }) := by
  apply settles_modify
  · exact fun s _ known => { known with }
  · rintro s ⟨known, tracked, own, own'⟩
    refine ⟨{ known with }, fun vpeer k there => ?_, own'⟩
    rcases tracked vpeer k there with known_by | eq
    · by_cases same : vpeer = peer
      · subst same
        have virtual := (known.virtual k vpeer (known.covered vpeer k there)).2
        exact Or.inr (own virtual k there)
      · exact Or.inl ((AList.lookup_erase_ne same).trans known_by)
    · exact Or.inr eq

theorem calls_letGo (conn : ConnPtr) (peer other : PeerId) (next : ClientM α)
    (h : Calls Tracked Tracked next) :
    Calls (fun t => Tracked t ∧ Own conn peer t ∧ Own conn other t) Tracked (do
      modify fun s => { s with p2pconnections := s.p2pconnections.erase peer }
      modify fun s => { s with p2pconnections := s.p2pconnections.erase other }
      humblenetConnectionClose conn
      next : ClientM α) := by
  have first := calls_untrack conn peer other
  have second := calls_untrack conn other other
  have close : Calls (fun t => TrackedBut conn t ∧ Own conn other t) Tracked
      (humblenetConnectionClose conn) :=
    (calls_closeTracked conn).mono fun s holds => ⟨holds.1, holds.2.1⟩
  have twice : ∀ s : State, Known s.toTables ∧ TrackedBut conn s.toTables ∧
      Own conn other s.toTables → Known s.toTables ∧ TrackedBut conn s.toTables ∧
      Own conn other s.toTables ∧ Own conn other s.toTables :=
    fun s holds => ⟨holds.1, holds.2.1, holds.2.2, holds.2.2⟩
  have rest := settles_bind (second.mono twice) fun _ => settles_bind close fun _ => h
  rintro s ⟨known, tracked, own, own'⟩
  have but : TrackedBut conn s.toTables := fun vpeer k there => Or.inl (tracked vpeer k there)
  exact settles_bind first (fun _ => rest) s ⟨known, but, own, own'⟩

theorem not_virtual_zero {vpeer : PeerId} (virtual : internalAliasIsVirtualPeer vpeer = true) :
    vpeer ≠ 0 := by
  rintro rfl
  cases virtual

theorem GoesBy.reported {t : Tables} {conn : ConnPtr} {c : Connection} {id : PeerId}
    (known : Known t) (goes : GoesBy t conn id c) {vpeer : PeerId}
    (found : vpeer = (t.virtualPeerConnections.listB.lookup conn).getD 0) :
    (if vpeer ≠ 0 then vpeer else c.otherPeer) = id := by
  rcases goes with there | ⟨unnamed, peer⟩
  · rw [there, Option.getD_some] at found
    have virtual := (known.virtual conn id there).2
    rw [found, if_pos (not_virtual_zero virtual)]
  · rw [AList.lookup_eq_none.mpr unnamed, Option.getD_none] at found
    rw [found, if_neg (not_not.mpr rfl), peer]

theorem Known.due {t : Tables} (known : Known t) {conn : ConnPtr} {c : Connection}
    (here : t.heap.lookup conn = some c) {frompeer : PeerId}
    (right : ∀ id, GoesBy t conn id c → frompeer = id) :
    Due frompeer { t with source := some conn } := by
  rintro _ ⟨⟩
  refine ⟨known.made conn (StdMap.mem_iff_lookup.mpr ⟨c, here⟩), fun session id origin => ?_⟩
  exact right id (known.named conn c session id here origin)

theorem Known.tell {t : Tables} (known : Known t) {frompeer : PeerId} (due : Due frompeer t) :
    Known { t with told := (t.source.map fun conn => (conn, frompeer)).toList ++ t.told } := by
  have told : ∀ k peer, (k, peer) ∈ (t.source.map fun conn => (conn, frompeer)).toList ++ t.told →
      k ∈ t.made ∧ ∀ session id, t.made.lookup k = some ⟨session, some id⟩ → peer = id := by
    intro k peer reported
    rcases List.mem_append.mp reported with now | before
    · obtain ⟨conn, source, eq⟩ := Option.map_eq_some_iff.mp (Option.mem_toList.mp now)
      cases eq
      exact due k source
    · exact known.told k peer before
  exact { known with told := told }

theorem calls_trackOrClose (ret : Int) (conn : ConnPtr) (frompeer peer : PeerId) :
    Calls (fun t => Tracked t ∧ Own conn frompeer t ∧ Own conn peer t) Tracked
      (trackOrClose ret conn frompeer peer) := by
  unfold trackOrClose
  split
  · apply settles_modify
    · exact fun s _ known => { known with }
    · rintro s ⟨known, tracked, _⟩
      exact ⟨{ known with }, fun vpeer k there =>
        StdMap.lookup_emplace_old (tracked vpeer k there)⟩
  · have last := calls_letGo conn frompeer peer (pure ()) (settles_pure (fun _ => id) ())
    rw [bind_pure] at last
    exact last

theorem Known.own_peer {t : Tables} (known : Known t) {conn : ConnPtr} {c : Connection}
    (here : t.heap.lookup conn = some c) : Own conn c.otherPeer t := by
  intro virtual
  rw [known.real conn c here] at virtual
  cases virtual

theorem calls_trackOrClose_due (due frompeer peer : PeerId) (ret : Int) (conn : ConnPtr) :
    Calls (Due due) (Due due) (trackOrClose ret conn frompeer peer) := by
  have free : ∀ m : State → StdMap PeerId ConnPtr, Calls (Due due) (Due due)
      (modify fun s => { s with p2pconnections := m s }) := by
    intro m
    apply settles_modify
    · exact fun s _ known => { known with }
    · exact fun s holds => ⟨{ holds.1 with }, holds.2⟩
  unfold trackOrClose
  split
  · exact free fun s => StdMap.emplace frompeer conn s.p2pconnections
  · apply settles_bind (free fun s => s.p2pconnections.erase frompeer)
    intro _
    apply settles_bind (free fun s => s.p2pconnections.erase peer)
    intro _
    exact calls_connectionClose (steadfast_due due) conn fun _ _ holds => holds

theorem meets_reportFrom (ret : Int) (conn : ConnPtr) {s : State} (known : Known s.toTables)
    (tracked : Tracked s.toTables) : (reportFrom ret conn s).Meets (callTerms .application)
      (fun frompeer t => Due frompeer t.toTables ∧ Known t.toTables ∧ Tracked t.toTables) s := by
  have vpeers : (internalAliasGetVirtualPeer conn s).Meets (callTerms .application)
      (fun vpeer t => t = s ∧
        vpeer = (s.virtualPeerConnections.listB.lookup conn).getD 0) s := by
    apply meets_get
    cases s.virtualPeerConnections.listB.lookup conn with
    | none => exact meets_pure id ⟨rfl, rfl⟩
    | some vpeer => exact meets_pure id ⟨rfl, rfl⟩
  apply meets_bind vpeers
  rintro vpeer _ ⟨rfl, found⟩
  rename_i s
  apply meets_deref fun _ => trivial
  intro c here
  have due := known.due here fun id goes => goes.reported known found
  have own : Own conn (if vpeer ≠ 0 then vpeer else c.otherPeer) s.toTables := by
    split
    · rename_i nonzero
      intro _ k there
      cases entry : s.virtualPeerConnections.listB.lookup conn with
      | none =>
        rw [entry] at found
        exact absurd found nonzero
      | some v =>
        rw [entry, Option.getD_some] at found
        have back := known.matched conn v entry
        rw [← found, there] at back
        exact Option.some.inj back
    · exact known.own_peer here
  have noted : Known { s.toTables with source := some conn } := { known with }
  apply meets_modify
  have track := calls_trackOrClose ret conn (if vpeer ≠ 0 then vpeer else c.otherPeer) c.otherPeer
    { s with source := some conn } ⟨noted, tracked, own, known.own_peer here⟩
  have tells := calls_trackOrClose_due (if vpeer ≠ 0 then vpeer else c.otherPeer)
    (if vpeer ≠ 0 then vpeer else c.otherPeer) c.otherPeer ret conn
    { s with source := some conn } ⟨noted, due⟩
  refine Course.Meets.earlier (b := { s with source := some conn }) (fun _ => noted) ?_
  apply meets_bind (tells.and track)
  rintro _ t ⟨⟨-, due⟩, known, tracked⟩
  exact meets_pure id ⟨due, known, tracked⟩

theorem calls_deref {R R' : Tables → Prop} {conn : ConnPtr} {f : Connection → ClientM α}
    (h : ∀ c, Calls (fun t => R t ∧ t.heap.lookup conn = some c) R' (f c)) :
    Calls R R' (deref conn >>= f) := by
  rintro s ⟨known, r⟩
  apply meets_deref fun _ => trivial
  exact fun c here => h c s ⟨known, r, here⟩

theorem calls_sendOver (conn : ConnPtr) (message : Bytes) (topeer : PeerId)
    (sendmode channel : UInt8) :
    Calls (fun t => Tracked t ∧ t.p2pconnections.lookup topeer = some conn) Tracked
      (sendOver env conn message topeer sendmode channel) := by
  have steadfast := steadfast_tracked.and (steadfast_lookup topeer (some conn))
  apply calls_deref
  rintro c s ⟨known, holds, _⟩
  refine settles_bind (calls_acts steadfast fun s =>
    acts_datagramSend env rfl message _ conn channel evolves_refl) ?_ s ⟨known, holds⟩
  intro ret
  split
  · refine calls_deref (R := fun t => Tracked t ∧ t.p2pconnections.lookup topeer = some conn) ?_
    intro c
    split
    · have letGo := calls_letGo (α := Int) conn c.otherPeer topeer
        (do
          humblenetSetError "Connection to peer was closed"
          pure (-1))
        (calls_quiet steadfast_tracked (quiet_bind (quiet_setError _) fun _ => quiet_pure _))
      apply letGo.mono
      rintro s ⟨known, ⟨tracked, goes⟩, here⟩
      refine ⟨known, tracked, known.own_peer here, fun _ k there => ?_⟩
      have same := tracked topeer k there
      rw [goes] at same
      exact (Option.some.inj same).symm
    · exact settles_pure (fun s holds => ⟨holds.1, holds.2.1.1⟩) ret
  · exact settles_pure (fun s holds => ⟨holds.1, holds.2.1⟩) ret

def Reached (topeer : PeerId) (conn : ConnPtr) (t : Tables) : Prop :=
  ∀ vpeer k, t.virtualPeerConnections.listA.lookup vpeer = some k →
    t.p2pconnections.lookup vpeer = some k ∨ vpeer = topeer ∧ k = conn

theorem Tracked.reached {t : Tables} (tracked : Tracked t) (topeer : PeerId) (conn : ConnPtr) :
    Reached topeer conn t := fun vpeer k there => Or.inl (tracked vpeer k there)

theorem Reached.track {t : Tables} {topeer : PeerId} {conn : ConnPtr}
    (reached : Reached topeer conn t)
    (found : t.p2pconnections.lookup topeer = none ∨ t.p2pconnections.lookup topeer = some conn) :
    AList.lookup topeer (StdMap.emplace topeer conn t.p2pconnections) = some conn ∧
      Tracked { t with p2pconnections := StdMap.emplace topeer conn t.p2pconnections } := by
  have own : AList.lookup topeer (StdMap.emplace topeer conn t.p2pconnections) = some conn := by
    rw [StdMap.lookup_emplace, if_pos rfl]
    rcases found with none | there
    · rw [none, Option.getD_none]
    · rw [there, Option.getD_some]
  refine ⟨own, fun vpeer k there => ?_⟩
  rcases reached vpeer k there with known_by | ⟨rfl, rfl⟩
  · exact StdMap.lookup_emplace_old known_by
  · exact own

def Found (topeer : PeerId) (before : Option ConnPtr) (found : Option ConnPtr) (t : Tables) :
    Prop :=
  match found with
  | none => Tracked t
  | some conn => t.p2pconnections.lookup topeer = before ∧ (before = none ∨ before = some conn) ∧
      Reached topeer conn t

theorem meets_aliasCreateConnection (topeer : PeerId)
    (virtual : internalAliasIsVirtualPeer topeer = true) {s : State} (known : Known s.toTables)
    (tracked : Tracked s.toTables) (unknown : s.p2pconnections.lookup topeer = none) :
    (internalAliasCreateConnection env topeer s).Meets (callTerms .application)
      (fun found t => Known t.toTables ∧ Found topeer none found t.toTables) s := by
  have free : ∀ {t : Tables}, Tracked t → t.p2pconnections.lookup topeer = none →
      t.virtualPeerConnections.listA.lookup topeer = none := by
    intro t tracked unknown
    cases there : t.virtualPeerConnections.listA.lookup topeer with
    | none => rfl
    | some k => exact absurd ((tracked topeer k there).symm.trans unknown) (Option.some_ne_none k)
  have steadfast := steadfast_tracked.and (steadfast_lookup topeer none)
  unfold internalAliasCreateConnection internalAliasFindConnection
  rw [if_pos virtual, bind_assoc]
  apply meets_get
  rw [free tracked unknown, pure_bind]
  apply meets_get
  cases s.virtualPeerNames.listA.lookup topeer with
  | none => exact meets_modify (meets_pure id ⟨known, tracked⟩)
  | some name =>
    apply meets_bind (calls_acts steadfast (fun s => acts_sendP2PMessage env _ evolves_refl)
      s ⟨known, tracked, unknown⟩)
    rintro sent t ⟨known, tracked, unknown⟩
    split
    · unfold newConnection
      simp only [bind_assoc, pure_bind]
      apply meets_ask
      intro conn _
      apply meets_ask
      rintro _ ⟨_, passed⟩
      have new : conn ∉ t.made := passed _ rfl
      apply meets_modify
      apply meets_modify
      apply meets_modify
      have made := known.alias new (c := Connection.new .outgoing) virtual (free tracked unknown)
        rfl name
      refine meets_pure (fun _ => made) ⟨made, unknown, Or.inl rfl, fun vpeer k there => ?_⟩
      have entry : (t.virtualPeerConnections.insert topeer conn).listA.lookup vpeer = some k :=
        there
      rw [BidirectionalMap.lookup_listA_insert] at entry
      by_cases own : vpeer = topeer
      · rw [if_pos own, free tracked unknown, Option.getD_none] at entry
        exact Or.inr ⟨own, (Option.some.inj entry).symm⟩
      · rw [if_neg own] at entry
        exact Or.inl (tracked vpeer k entry)
    · exact meets_pure id ⟨known, tracked⟩

theorem meets_connectionTo (topeer : PeerId) {s : State} (known : Known s.toTables)
    (tracked : Tracked s.toTables) :
    (connectionTo env topeer s).Meets (callTerms .application) (fun found t =>
      Known t.toTables ∧ Found topeer (s.p2pconnections.lookup topeer) found t.toTables) s := by
  apply meets_get
  cases before : s.p2pconnections.lookup topeer with
  | some conn =>
    exact meets_pure id ⟨known, before, Or.inr rfl, tracked.reached topeer conn⟩
  | none =>
    dsimp only
    split
    · rename_i virtual
      unfold internalAliasFindConnection
      rw [if_pos virtual, bind_assoc]
      apply meets_get
      cases there : s.virtualPeerConnections.listA.lookup topeer with
      | some k => exact absurd ((tracked topeer k there).symm.trans before) (Option.some_ne_none k)
      | none =>
        rw [pure_bind]
        exact meets_aliasCreateConnection env topeer virtual known tracked before
    · have dialled := calls_acts (steadfast_tracked.and (steadfast_lookup topeer none))
        (fun s => acts_connectPeer topeer evolves_refl) s ⟨known, tracked, before⟩
      apply dialled.mono
      rintro found t ⟨known, tracked, unknown⟩
      cases found with
      | none => exact ⟨known, tracked⟩
      | some conn => exact ⟨known, unknown, Or.inl rfl, tracked.reached topeer conn⟩

theorem calls_initGuard {otherwise : α} {call : ClientM α} (h : Calls Tracked Tracked call) :
    Calls Tracked Tracked (initGuard otherwise call) := by
  apply settles_get
  intro s
  split
  · exact h
  · exact calls_quiet steadfast_tracked
      (quiet_bind (quiet_setError _) fun _ => quiet_pure otherwise)

theorem calls_sendto (message : Bytes) (topeer : PeerId) (sendmode channel : UInt8) :
    Calls Tracked Tracked (humblenetP2PSendto env message topeer sendmode channel) := by
  apply calls_initGuard
  rintro s ⟨known, tracked⟩
  apply meets_get
  apply meets_bind (meets_connectionTo env topeer known tracked)
  rintro found t ⟨known, holds⟩
  cases found with
  | none =>
    exact (calls_quiet steadfast_tracked (quiet_bind (quiet_setError _) fun _ => quiet_pure _))
      t ⟨known, holds⟩
  | some conn =>
    obtain ⟨same, cit, reached⟩ := holds
    have goesOver := calls_sendOver env conn message topeer sendmode channel
    dsimp only
    unfold doWhen
    split
    · rename_i none
      obtain ⟨own, tracked⟩ := reached.track (Or.inl (same.trans none))
      have known' : Known { t.toTables with
          p2pconnections := StdMap.emplace topeer conn t.p2pconnections } := { known with }
      have track : Settles (callTerms .application) (· = t) (fun s => Known s.toTables ∧
          Tracked s.toTables ∧ s.p2pconnections.lookup topeer = some conn) (modify fun s : State =>
            { s with p2pconnections := StdMap.emplace topeer conn s.p2pconnections }) := by
        apply settles_modify
        · rintro _ rfl _
          exact known'
        · rintro _ rfl
          exact ⟨known', tracked, own⟩
      exact settles_bind track (fun _ => goesOver) t rfl
    · rename_i some_
      rw [pure_bind]
      have there := cit.resolve_left some_
      have goes := same.trans there
      refine goesOver t ⟨known, fun vpeer k listed => ?_, goes⟩
      rcases reached vpeer k listed with known_by | ⟨rfl, rfl⟩
      · exact known_by
      · exact goes

theorem meets_recvfrom (fuel : Nat) (length : UInt32) (channel : UInt8) {s : State}
    (known : Known s.toTables) (tracked : Tracked s.toTables) (unheard : s.source = none) :
    (humblenetP2PRecvfrom env fuel length channel s).Meets (callTerms .application)
      (fun r t => Due r.2.1 t.toTables ∧ Known t.toTables ∧ Tracked t.toTables) s := by
  have nothing : ∀ {frompeer : PeerId} {t : Tables}, t.source = none → Due frompeer t := by
    intro frompeer t none conn source
    cases none.symm.trans source
  have steadfast := steadfast_tracked.and steadfast_source
  apply meets_get
  dsimp only
  split
  · apply meets_bind (calls_acts steadfast (fun s =>
      acts_datagramRecv env rfl fuel length.toNat 0 channel evolves_refl) s ⟨known, tracked, unheard⟩)
    rintro ⟨ret, conn, data⟩ t ⟨known, tracked, unheard⟩
    cases conn with
    | none => exact meets_pure id ⟨nothing unheard, known, tracked⟩
    | some conn =>
      dsimp only
      split
      · exact meets_pure id ⟨nothing unheard, known, tracked⟩
      · apply meets_bind (meets_reportFrom ret conn known tracked)
        exact fun frompeer u told => meets_pure id told
  · exact meets_modify (meets_pure id ⟨nothing unheard, known, tracked⟩)

theorem calls_recvfrom (fuel : Nat) (length : UInt32) (channel : UInt8) :
    Calls Tracked Tracked (handle env (.recvfrom fuel length channel)) := by
  rintro s ⟨known, tracked⟩
  have reset : Known { s.toTables with source := none } := { known with }
  apply meets_modify
  refine Course.Meets.earlier (b := { s with source := none }) (fun _ => reset) ?_
  apply meets_bind (meets_recvfrom env fuel length channel (s := { s with source := none }) reset
    tracked rfl)
  rintro ⟨ret, frompeer, data⟩ t ⟨due, known, tracked⟩
  exact meets_modify_last (fun _ => known.tell due) ⟨known.tell due, tracked⟩

theorem calls_handle (event : Event) (caller : event.caller = .application) :
    Calls Tracked Tracked (handle env event) := by
  have last : ∀ {β : Type} {x : ClientM β}, Calls Tracked Tracked x →
      Calls Tracked Tracked (do let _ ← x) := by
    intro β x h
    exact settles_bind h fun _ => settles_pure (fun _ => id) ()
  have calm : ∀ {β : Type} {x : ClientM β},
      (∀ s, Acts Identified Scope.traffic s (x s)) → Calls Tracked Tracked x :=
    fun acts => calls_acts steadfast_tracked acts
  cases event with
  | init server gameToken gameSecret authToken => exact last (calm fun s => acts_p2pInit _ _ _ _)
  | shutdown fuel => exact calm fun s => acts_shutdown fuel
  | registerAlias name =>
    exact last (calls_initGuard (calm fun s => acts_aliasRegister env name evolves_refl))
  | unregisterAlias name =>
    exact last (calls_initGuard (calm fun s => acts_aliasUnregister env name evolves_refl))
  | virtualPeerForAlias name =>
    exact last (calls_initGuard (calls_quiet steadfast_tracked (quiet_aliasLookup name)))
  | sendto message topeer sendmode channel => exact last (calls_sendto env _ _ _ _)
  | peek fuel channel => exact last (calm fun s => acts_peek env rfl _ _)
  | recvfrom fuel length channel => exact calls_recvfrom env fuel length channel
  | disconnect fuel peer => exact last (calm fun s => acts_disconnect _ _)
  | setHint name value => exact calm fun s => acts_modify_last evolves_refl
  | connectionRead conn bufsize =>
    exact last (calm fun s => acts_connectionRead _ _ evolves_refl)
  | datagramSend message flags conn channel =>
    exact last (calm fun s => acts_datagramSend env rfl _ _ _ _ evolves_refl)
  | datagramRecv fuel length flags channel =>
    exact last (calm fun s => acts_datagramRecv env rfl _ _ _ _ evolves_refl)
  | datagramFlush fuel =>
    exact last (calm fun s => acts_humblenetDatagramFlush env rfl fuel evolves_refl)
  | signalConnect wsi => cases caller
  | signalData wsi data pastEnd fuel => cases caller
  | signalWritable wsi => cases caller
  | signalDisconnect wsi => cases caller
  | webrtc socket reason => cases caller

end calls

theorem Caller.scope_peers {tag : Caller} (other : tag ≠ .application) :
    tag.scope.peers = false := by
  cases tag with
  | application => exact absurd rfl other
  | websocket => rfl
  | transport => rfl

theorem callTerms_other {tag : Caller} (other : tag ≠ .application) :
    callTerms tag = terms Identified tag.scope := by
  cases tag with
  | application => exact absurd rfl other
  | websocket => rfl
  | transport => rfl

theorem beside_calls {tag : Caller} (other : tag ≠ .application) {s t : State}
    (guar : (callTerms tag).guar s t) :
    (Known s.toTables → Known t.toTables) ∧ Steady s.toTables t.toTables := by
  rw [callTerms_other other] at guar
  have apart := Caller.scope_peers other
  exact ⟨fun known => evolves_keeps (fun _ _ => Known.keeps apart) guar known, guar.steady apart⟩

/-- Identities as a discipline: known at any time, and the virtual ones tracked whenever the
application is outside its calls. -/
def identityDiscipline (env : Externals) : Discipline (turns env Identified) where
  terms := callTerms
  inv s := Known s.toTables
  exclusive tag := tag = .application
  idle tag s := tag = .application → Tracked s.toTables
  allowed_eq tag := by cases tag <;> rfl
  alone _ _ _ _ begins exclusive := begins.2 exclusive
  keeps tag s t known guar := by
    by_cases caller : tag = .application
    · subst caller
      exact guar known
    · exact (beside_calls caller guar).1 known
  rely_refl tag s _ := by
    cases tag with
    | application => exact ⟨id, .refl s.toTables⟩
    | websocket => trivial
    | transport => trivial
  rely_trans tag s t u h h' := by
    cases tag with
    | application => exact ⟨fun known => h'.1 (h.1 known), h.2.trans h'.2⟩
    | websocket => trivial
    | transport => trivial
  others := by
    rintro tag tag' s t apart _ _ guar
    cases tag' with
    | application => exact beside_calls (apart.elim id id) guar
    | websocket => trivial
    | transport => trivial
  idle_others := by
    rintro tag tag' s t ne _ guar tracked rfl
    exact steadfast_tracked _ _ (beside_calls ne guar).2 (tracked rfl)
  idle_shared tag s shared eq := absurd eq shared
  entry := by
    rintro tag tags s x ⟨⟨event, rfl, rfl, _⟩, _⟩ known tracked
    by_cases caller : event.caller = .application
    · rw [caller]
      have meets := calls_handle env event caller s ⟨known, tracked caller⟩
      exact meets.mono fun _ _ h _ => h.2
    · rw [callTerms_other caller]
      have meets : (handle env event s).Meets (terms Identified event.caller.scope)
          (fun _ _ => True) s := acts_handle env event
      exact meets.mono fun _ _ _ eq => absurd eq caller

end HumbleNet.Client
