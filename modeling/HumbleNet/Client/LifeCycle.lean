import HumbleNet.Client.QueuedPackets

/-! The life of a connection: CONNECTING, CONNECTED, CLOSED, with a socket while it is open.
It is led as long as nothing happens to a connection whose closing has begun, or that its
alias is being resolved for. -/
namespace HumbleNet.Client

open Guarded

/-- What the transport may report of a socket, after what it has reported before. -/
def WebrtcReason.Follows : WebrtcReason → Stage → Prop
  | .localDescription _, stage => stage = .negotiating ∨ stage = .established
  | .established, stage => stage = .negotiating
  | .channelAccepted, stage => stage = .established
  | .channelConnected, stage => stage = .established
  | .channelReceive _, stage => stage = .opened
  | _, _ => True

/-- The transport reports of sockets that are there, in its order. -/
def InOrder : Point → Tables → Prop
  | .callback socket reason, t => ∃ it ∈ t.sockets.lookup socket, reason.Follows it.stage
  | _, _ => True

def WebrtcReason.Advances : WebrtcReason → Bool
  | .established => true
  | .channelAccepted => true
  | .channelConnected => true
  | _ => false

def Named (t : Tables) (conn : ConnPtr) : Prop :=
  ∃ entry ∈ t.sockets.entries, entry.2.userData = some conn

/-- A connection comes along only while its socket knows it; it gets its socket from an alias
while it waits for one, and is told to the socket before the channel is there; it is closed
when no socket knows it; what arrives is not empty, unless there is unread data already; and
nobody reads below the packets from a connection that waits for a socket. -/
def Undisturbed : Point → Tables → Prop
  | .callback socket reason, t => ∃ it ∈ t.sockets.lookup socket,
      reason.Follows it.stage ∧ (reason.Advances = true → it.userData ≠ none)
  | .opening conn, t => ∀ c ∈ t.heap.lookup conn, c.status = .connecting ∧ c.socket = none
  | .adopt conn, t => ∀ c ∈ t.heap.lookup conn, c.status = .connecting ∧
      ∀ socket ∈ c.socket, ∀ it ∈ t.sockets.lookup socket, it.stage ≠ .opened
  | .setClosed conn _ _, t => ¬ Named t conn
  | .arrive conn data, t => data ≠ [] ∨ ∃ c ∈ t.heap.lookup conn, c.recvBuffer ≠ []
  | .read conn, t => ∀ c ∈ t.heap.lookup conn, c.status = .connecting → c.socket ≠ none
  | _, _ => True

instance (reason : WebrtcReason) (stage : Stage) : Decidable (reason.Follows stage) := by
  cases reason <;> unfold WebrtcReason.Follows <;> infer_instance

instance (point : Point) (t : Tables) : Decidable (InOrder point t) := by
  unfold InOrder
  split <;> infer_instance

instance (t : Tables) (conn : ConnPtr) : Decidable (Named t conn) := by
  unfold Named
  infer_instance

instance (point : Point) (t : Tables) : Decidable (Undisturbed point t) :=
  match point with
  | .new _ | .setClosed .. | .delete _ | .arrive .. | .answer _ | .bufferedIn _ | .visit _
  | .maxLength _ | .connected _ | .pend .. | .beginSession | .greet _ | .callback .. | .opening _
  | .adopt _ | .read _ => by
    unfold Undisturbed
    infer_instance

theorem named_of_lookup {t : Tables} {socket : SocketPtr} {it : InternalSocket} {conn : ConnPtr}
    (there : t.sockets.lookup socket = some it) (its : it.userData = some conn) : Named t conn :=
  ⟨⟨socket, it⟩, (StdMap.lookup_eq_some_iff _ _ _).mp there, its⟩

/-- A connection has a socket while it is open, and none when it is closed. -/
structure Connection.Settled (c : Connection) : Prop where
  closed : c.status = .closed → c.socket = none
  connected : c.status = .connected → c.socket ≠ none

theorem Connection.settled_connecting {c : Connection} (status : c.status = .connecting) :
    c.Settled where
  closed h := by
    rw [status] at h
    cases h
  connected h := by
    rw [status] at h
    cases h

/-- A socket and the connection that is its user data. -/
structure Fits (socket : SocketPtr) (it : InternalSocket) (c : Connection) : Prop where
  own : c.socket = some socket
  alive : c.status ≠ .closed
  opening : it.stage = .negotiating ∨ it.stage = .established → c.status = .connecting
  opened : it.stage = .opened → c.status = .connected

structure Orderly (t : Tables) : Prop where
  settled : ∀ conn c, t.heap.lookup conn = some c → c.Settled
  attached : ∀ socket it conn, t.sockets.lookup socket = some it → it.userData = some conn →
    ∃ c, t.heap.lookup conn = some c ∧ Fits socket it c
  unread : ∀ conn ∈ t.pendingDataConnections,
    ∃ c, t.heap.lookup conn = some c ∧ c.recvBuffer ≠ []

theorem orderly_initial : Orderly .initial where
  settled _ _ h := by cases h
  attached _ _ _ h := by cases h
  unread _ h := by cases h

section steps

variable {s t : Tables} {conn : ConnPtr}

theorem Orderly.carry (orderly : Orderly s) (sockets : t.sockets = s.sockets)
    (settled : ∀ k c, t.heap.lookup k = some c → c.Settled)
    (named : ∀ k c, s.heap.lookup k = some c → Named s k →
      ∃ c', t.heap.lookup k = some c' ∧ c'.socket = c.socket ∧ c'.status = c.status)
    (unread : ∀ k ∈ t.pendingDataConnections,
      ∃ c, t.heap.lookup k = some c ∧ c.recvBuffer ≠ []) : Orderly t where
  settled := settled
  attached socket it k there its := by
    rw [sockets] at there
    obtain ⟨c, here, fits⟩ := orderly.attached socket it k there its
    obtain ⟨c', here', own, status⟩ := named k c here (named_of_lookup there its)
    refine ⟨c', here', own.trans fits.own, ?_, ?_, ?_⟩
    · rw [status]
      exact fits.alive
    · rw [status]
      exact fits.opening
    · rw [status]
      exact fits.opened
  unread := unread

theorem Orderly.report (orderly : Orderly s) (heap : t.heap = s.heap)
    (pending : t.pendingDataConnections = s.pendingDataConnections)
    (attached : ∀ socket it k, t.sockets.lookup socket = some it → it.userData = some k →
      ∃ c, s.heap.lookup k = some c ∧ Fits socket it c) : Orderly t where
  settled := by
    rw [heap]
    exact orderly.settled
  attached := by
    rw [heap]
    exact attached
  unread := by
    rw [heap, pending]
    exact orderly.unread

theorem Orderly.new (orderly : Orderly s) (fresh : conn ∉ s.heap) {c : Connection}
    (status : c.status = .connecting) (sockets : t.sockets = s.sockets)
    (heap : t.heap = s.heap.insert conn c)
    (pending : t.pendingDataConnections = s.pendingDataConnections) : Orderly t := by
  have old : ∀ k d, s.heap.lookup k = some d → (s.heap.insert conn c).lookup k = some d := by
    intro k d here
    refine (AList.lookup_insert_ne ?_).trans here
    rintro rfl
    exact fresh (StdMap.mem_iff_lookup.mpr ⟨d, here⟩)
  apply orderly.carry sockets
  · intro k d here
    rw [heap] at here
    rcases StdMap.lookup_insert_some here with rfl | before
    · exact Connection.settled_connecting status
    · exact orderly.settled k d before
  · intro k d here _
    rw [heap]
    exact ⟨d, old k d here, rfl, rfl⟩
  · intro k listed
    rw [pending] at listed
    obtain ⟨d, here, nonempty⟩ := orderly.unread k listed
    rw [heap]
    exact ⟨d, old k d here, nonempty⟩

theorem Orderly.modify (orderly : Orderly s) {f : Connection → Connection}
    (sockets : t.sockets = s.sockets) (heap : t.heap = StdMap.modify conn f s.heap)
    (settles : ∀ c, s.heap.lookup conn = some c → (f c).Settled)
    (kept : ∀ c, s.heap.lookup conn = some c → Named s conn →
      (f c).socket = c.socket ∧ (f c).status = c.status)
    (unread : ∀ k ∈ t.pendingDataConnections, ∃ c, s.heap.lookup k = some c ∧
      (if k = conn then f c else c).recvBuffer ≠ []) : Orderly t := by
  apply orderly.carry sockets
  · intro k d here
    rw [heap] at here
    obtain ⟨c, before, rfl⟩ := StdMap.lookup_modify_some.mp here
    split
    · rename_i eq
      exact settles c (eq ▸ before)
    · exact orderly.settled k c before
  · intro k c here named
    rw [heap]
    refine ⟨_, StdMap.lookup_modify_some.mpr ⟨c, here, rfl⟩, ?_⟩
    split
    · rename_i eq
      subst eq
      exact kept c here named
    · exact ⟨rfl, rfl⟩
  · intro k listed
    obtain ⟨c, here, nonempty⟩ := unread k listed
    rw [heap]
    exact ⟨_, StdMap.lookup_modify_some.mpr ⟨c, here, rfl⟩, nonempty⟩

theorem Orderly.unread_same (orderly : Orderly s) {f : Connection → Connection}
    (buffer : ∀ c, (f c).recvBuffer = c.recvBuffer) :
    ∀ k ∈ s.pendingDataConnections, ∃ c, s.heap.lookup k = some c ∧
      (if k = conn then f c else c).recvBuffer ≠ [] := by
  intro k listed
  obtain ⟨c, here, nonempty⟩ := orderly.unread k listed
  refine ⟨c, here, ?_⟩
  split
  · rw [buffer c]
    exact nonempty
  · exact nonempty

theorem Orderly.assign (orderly : Orderly s) {f : Connection → Connection}
    (sockets : t.sockets = s.sockets) (heap : t.heap = StdMap.modify conn f s.heap)
    (socket : ∀ c, (f c).socket = c.socket) (status : ∀ c, (f c).status = c.status)
    (unread : ∀ k ∈ t.pendingDataConnections, ∃ c, s.heap.lookup k = some c ∧
      (if k = conn then f c else c).recvBuffer ≠ []) : Orderly t := by
  refine orderly.modify sockets heap (fun c here => ?_) (fun c _ _ => ⟨socket c, status c⟩) unread
  obtain ⟨closed, connected⟩ := orderly.settled conn c here
  constructor
  · rw [status c, socket c]
    exact closed
  · rw [status c, socket c]
    exact connected

theorem Orderly.fill (orderly : Orderly s) {c : Connection}
    (here : s.heap.lookup conn = some c) (f : Bytes → Bytes) {pending : StdSet ConnPtr}
    (listed : ∀ k ∈ pending, k ≠ conn → k ∈ s.pendingDataConnections)
    (nonempty : conn ∈ pending → f c.recvBuffer ≠ []) :
    Orderly { s.updateConnection conn fun c => { c with recvBuffer := f c.recvBuffer } with
      pendingDataConnections := pending } := by
  refine orderly.assign rfl rfl (fun _ => rfl) (fun _ => rfl) ?_
  intro k there
  by_cases eq : k = conn
  · subst eq
    refine ⟨c, here, ?_⟩
    rw [if_pos rfl]
    exact nonempty there
  · obtain ⟨d, before, unread⟩ := orderly.unread k (listed k there eq)
    refine ⟨d, before, ?_⟩
    rw [if_neg eq]
    exact unread

theorem Orderly.arrive (orderly : Orderly s) {c : Connection} {data : Bytes}
    (here : s.heap.lookup conn = some c) (passed : Undisturbed (.arrive conn data) s)
    {pending : StdSet ConnPtr}
    (listed : ∀ k ∈ pending, k ≠ conn → k ∈ s.pendingDataConnections) :
    Orderly { s.arrive conn data with pendingDataConnections := pending } := by
  refine orderly.fill here (fun buffer => buffer ++ data) listed fun _ empty => ?_
  obtain ⟨read, no_data⟩ := List.append_eq_nil_iff.mp empty
  rcases passed with some_data | ⟨c', here', unread⟩
  · exact some_data no_data
  · cases here.symm.trans here'
    exact unread read

theorem Orderly.updateSocket (orderly : Orderly s) {socket : SocketPtr}
    {f : InternalSocket → InternalSocket}
    (attached : ∀ it k, s.sockets.lookup socket = some it → (f it).userData = some k →
      ∃ c, s.heap.lookup k = some c ∧ Fits socket (f it) c) :
    Orderly (s.updateSocket socket f) := by
  refine orderly.report (t := s.updateSocket socket f) rfl rfl ?_
  intro socket' it' k there its
  obtain ⟨it, before, rfl⟩ := StdMap.lookup_modify_some.mp there
  by_cases eq : socket' = socket
  · subst eq
    rw [if_pos rfl] at its ⊢
    exact attached it k before its
  · rw [if_neg eq] at its ⊢
    exact orderly.attached socket' it k before its

theorem Orderly.attach (orderly : Orderly s) {socket : SocketPtr} {c : Connection}
    (here : s.heap.lookup conn = some c) (own : c.socket = some socket)
    (status : c.status = .connecting)
    (unopened : ∀ it, s.sockets.lookup socket = some it → it.stage ≠ .opened) :
    Orderly (s.updateSocket socket fun it => { it with userData := some conn }) := by
  apply orderly.updateSocket
  rintro it _ there ⟨⟩
  refine ⟨c, here, own, ?_, fun _ => status, fun opened => absurd opened (unopened it there)⟩
  rw [status]
  exact ConnectionStatus.noConfusion

theorem Orderly.connect (orderly : Orderly s) {c : Connection} {socket : SocketPtr}
    {it : InternalSocket} (here : s.heap.lookup conn = some c)
    (there : s.sockets.lookup socket = some it) (its : it.userData = some conn) :
    Orderly ((s.updateSocket socket fun it => { it with stage := .opened }).updateConnection conn
      fun c => { c with status := .connected }) := by
  obtain ⟨c', here', fits⟩ := orderly.attached socket it conn there its
  cases here.symm.trans here'
  constructor
  · intro k d known
    obtain ⟨e, before, rfl⟩ := StdMap.lookup_modify_some.mp known
    split
    · rename_i eq
      subst eq
      cases here.symm.trans before
      constructor
      · intro h
        cases h
      · intro _ none_
        cases none_.symm.trans fits.own
    · exact orderly.settled k e before
  · intro socket' it' k known knows
    obtain ⟨old, before, rfl⟩ := StdMap.lookup_modify_some.mp known
    by_cases eq : socket' = socket
    · subst eq
      cases there.symm.trans before
      rw [if_pos rfl] at knows ⊢
      cases its.symm.trans knows
      refine ⟨_, StdMap.lookup_modify_some.mpr ⟨c, here, rfl⟩, ?_⟩
      rw [if_pos rfl]
      exact ⟨fits.own, ConnectionStatus.noConfusion,
        fun h => h.elim Stage.noConfusion Stage.noConfusion, fun _ => rfl⟩
    · rw [if_neg eq] at knows ⊢
      obtain ⟨d, known', fits'⟩ := orderly.attached socket' old k before knows
      have other : k ≠ conn := by
        rintro rfl
        cases here.symm.trans known'
        exact eq (Option.some.inj (fits'.own.symm.trans fits.own))
      refine ⟨_, StdMap.lookup_modify_some.mpr ⟨d, known', rfl⟩, ?_⟩
      rw [if_neg other]
      exact fits'
  · intro k listed
    obtain ⟨d, before, nonempty⟩ := orderly.unread k listed
    refine ⟨_, StdMap.lookup_modify_some.mpr ⟨d, before, rfl⟩, ?_⟩
    split
    · exact nonempty
    · exact nonempty

theorem Orderly.close (orderly : Orderly s) (unnamed : ¬ Named s conn) :
    Orderly (s.close conn) := by
  refine orderly.modify rfl rfl (fun c _ => ⟨fun _ => rfl, fun h => by cases h⟩)
    (fun c _ named => absurd named unnamed) ?_
  intro k listed
  obtain ⟨before, other⟩ := StdSet.mem_erase.mp listed
  obtain ⟨c, here, nonempty⟩ := orderly.unread k before
  refine ⟨c, here, ?_⟩
  rw [if_neg other]
  exact nonempty

theorem Orderly.delete (orderly : Orderly s) (unnamed : ¬ Named s conn) :
    Orderly (s.delete conn) := by
  have closed := orderly.close unnamed
  have kept : ∀ k, k ≠ conn →
      (s.delete conn).heap.lookup k = (s.close conn).heap.lookup k :=
    fun k other => AList.lookup_erase_ne other
  apply closed.carry (t := s.delete conn) rfl
  · intro k c here
    obtain ⟨_, before⟩ := StdMap.lookup_erase_some here
    exact closed.settled k c before
  · intro k c here named
    have other : k ≠ conn := by
      rintro rfl
      exact unnamed named
    exact ⟨c, (kept k other).trans here, rfl, rfl⟩
  · intro k listed
    have other : k ≠ conn := (StdSet.mem_erase.mp listed).2
    obtain ⟨c, here, nonempty⟩ := closed.unread k listed
    exact ⟨c, (kept k other).trans here, nonempty⟩

end steps

theorem Orderly.keeps {scope : Scope} {s t : Tables} (orderly : Orderly s)
    (does : Does Undisturbed scope s t) : Orderly t := by
  cases does with
  | dial fresh empty status => exact orderly.new fresh status rfl rfl rfl
  | invite fresh empty writable passed status => exact orderly.new fresh status rfl rfl rfl
  | createAlias fresh =>
    exact orderly.new (c := Connection.new .outgoing) fresh rfl rfl rfl rfl
  | resolve =>
    exact orderly.assign rfl rfl (fun _ => rfl) (fun _ => rfl) (orderly.unread_same fun _ => rfl)
  | openSocket conn socket passed =>
    refine orderly.modify rfl rfl (fun c here => ?_) (fun c here named => ?_)
      (orderly.unread_same fun _ => rfl)
    · exact Connection.settled_connecting (passed c here).1
    · obtain ⟨⟨socket', it⟩, there, its⟩ := named
      have entry := (StdMap.lookup_eq_some_iff _ _ _).mpr there
      obtain ⟨c', here', fits⟩ := orderly.attached socket' it conn entry its
      cases here.symm.trans here'
      cases fits.own.symm.trans (passed c here).2
  | @adopt conn c socket here its passed =>
    obtain ⟨status, unopened⟩ := passed c here
    exact orderly.attach here its status (unopened socket its)
  | connected here status there its => exact orderly.connect here there its
  | close here passed => exact orderly.close passed
  | delete here closes => exact orderly.delete closes
  | receive here passed =>
    apply orderly.arrive here passed
    intro k there other
    split at there
    · exact (StdSet.mem_insert.mp there).resolve_left other
    · exact there
  | relay here passed =>
    apply orderly.arrive here passed
    exact fun k there other => (StdSet.mem_insert.mp there).resolve_left other
  | @read conn c here left =>
    refine orderly.fill here (fun _ => left) ?_ ?_
    · intro k there other
      split at there
      · exact (StdSet.mem_erase.mp there).1
      · exact (StdSet.mem_insert.mp there).resolve_left other
    · rintro there rfl
      exact (StdSet.mem_erase.mp there).2 rfl
  | @createSocket socket =>
    refine orderly.report (t := { s with sockets := s.sockets.insert socket .new }) rfl rfl ?_
    intro socket' it k there its
    rcases StdMap.lookup_insert_some there with rfl | before
    · cases its
    · exact orderly.attached socket' it k before its
  | setData here its status new =>
    apply orderly.attach here its status
    intro it there
    cases new.symm.trans there
    exact Stage.noConfusion
  | clearData socket =>
    apply orderly.updateSocket
    rintro it k there ⟨⟩
  | updateSocket socket f data stage =>
    apply orderly.updateSocket
    intro it k there its
    obtain ⟨c, here, fits⟩ := orderly.attached socket it k there ((data it).symm.trans its)
    refine ⟨c, here, fits.own, fits.alive, ?_, ?_⟩
    · rcases stage it with eq | eq
      · rw [eq]
        exact fits.opening
      · rw [eq]
        exact fun h => h.elim Stage.noConfusion Stage.noConfusion
    · rcases stage it with eq | eq
      · rw [eq]
        exact fits.opened
      · rw [eq]
        exact Stage.noConfusion
  | established socket passed =>
    apply orderly.updateSocket
    intro it k there its
    obtain ⟨it', there', follows, _⟩ := passed
    cases there.symm.trans there'
    obtain ⟨c, here, fits⟩ := orderly.attached socket it k there its
    exact ⟨c, here, fits.own, fits.alive, fun _ => fits.opening (Or.inl follows),
      Stage.noConfusion⟩
  | destroy socket =>
    refine orderly.report (t := { s with sockets := s.sockets.erase socket }) rfl rfl ?_
    intro socket' it k there its
    exact orderly.attached socket' it k (StdMap.lookup_erase_some there).2 its
  | _ => exact ⟨orderly.settled, orderly.attached, orderly.unread⟩

/-- A connection that has not been made since was there before, in a status that leads to the
present one. -/
structure Onward (s t : Tables) : Prop where
  lives : ∀ conn, s.lives conn ≤ t.lives conn
  status : ∀ conn c', t.lives conn = s.lives conn → t.heap.lookup conn = some c' →
    ∃ c, s.heap.lookup conn = some c ∧ c.status.Leads c'.status

theorem Onward.refl (s : Tables) : Onward s s where
  lives _ := Nat.le_refl _
  status _ c _ here := ⟨c, here, .refl c.status⟩

theorem Onward.trans {s t u : Tables} (h : Onward s t) (h' : Onward t u) : Onward s u where
  lives conn := (h.lives conn).trans (h'.lives conn)
  status conn c'' same here := by
    have first := h.lives conn
    have second := h'.lives conn
    obtain ⟨c', there, leads'⟩ := h'.status conn c'' (by omega) here
    obtain ⟨c, before, leads⟩ := h.status conn c' (by omega) there
    exact ⟨c, before, leads.trans leads'⟩

section onward

variable {s t : Tables} {conn : ConnPtr}

theorem onward_same (lives : t.lives = s.lives) (heap : t.heap = s.heap) : Onward s t where
  lives _ := lives ▸ Nat.le_refl _
  status _ c _ here := ⟨c, heap ▸ here, .refl c.status⟩

theorem onward_modify (lives : t.lives = s.lives) {f : Connection → Connection}
    (heap : t.heap = StdMap.modify conn f s.heap)
    (leads : ∀ c, s.heap.lookup conn = some c → c.status.Leads (f c).status) : Onward s t where
  lives _ := lives ▸ Nat.le_refl _
  status k c' _ here := by
    rw [heap] at here
    obtain ⟨c, before, rfl⟩ := StdMap.lookup_modify_some.mp here
    refine ⟨c, before, ?_⟩
    split
    · rename_i eq
      exact leads c (eq ▸ before)
    · exact .refl c.status

theorem onward_make (c : Connection) (peer : Option PeerId) : Onward s (s.make conn c peer) where
  lives k := by
    simp only [Tables.make, Function.update_apply]
    split
    · rename_i eq
      rw [eq]
      exact Nat.le_succ _
    · exact Nat.le_refl _
  status k c' same here := by
    by_cases eq : k = conn
    · subst eq
      simp only [Tables.make, Function.update_self] at same
      omega
    · exact ⟨c', (AList.lookup_insert_ne eq).symm.trans here, .refl c'.status⟩

theorem Onward.erase (onward : Onward s t) (conn : ConnPtr) :
    Onward s { t with heap := t.heap.erase conn } where
  lives := onward.lives
  status k c same here := onward.status k c same (StdMap.lookup_erase_some here).2

end onward

theorem Does.onward {ok : Point → Tables → Prop} {scope : Scope} {s t : Tables}
    (does : Does ok scope s t) : Onward s t := by
  cases does with
  | @dial conn c =>
    have made : Onward s (s.make conn c (some c.otherPeer)) := onward_make c _
    exact ⟨made.lives, made.status⟩
  | @invite conn c =>
    have made : Onward s (s.make conn c none) := onward_make c none
    exact ⟨made.lives, made.status⟩
  | @createAlias conn _ _ vpeer =>
    have made : Onward s (s.make conn (Connection.new .outgoing) (some vpeer)) := onward_make _ _
    exact ⟨made.lives, made.status⟩
  | resolve => exact onward_modify rfl rfl fun c _ => .refl c.status
  | openSocket => exact onward_modify rfl rfl fun c _ => .refl c.status
  | connected here status =>
    refine onward_modify rfl rfl fun c here' => ?_
    cases here.symm.trans here'
    rw [status]
    trivial
  | close => exact onward_modify rfl rfl fun c _ => c.status.leads_closed
  | @delete conn =>
    have released : Onward s (s.release conn) :=
      onward_modify rfl rfl fun c _ => c.status.leads_closed
    exact released.erase conn
  | receive => exact onward_modify rfl rfl fun c _ => .refl c.status
  | relay => exact onward_modify rfl rfl fun c _ => .refl c.status
  | read => exact onward_modify rfl rfl fun c _ => .refl c.status
  | _ => exact onward_same rfl rfl

theorem Evolves.onward {ok : Point → Tables → Prop} {scope : Scope} {s t : Tables}
    (evolves : Evolves ok scope s t) : Onward s t := by
  induction evolves with
  | refl => exact .refl s
  | tail _ does ih => exact ih.trans does.onward

/-- What a run may come to later. -/
def Later (env : Externals) (ok : Point → Tables → Prop) :
    Pool Caller State Fault Query Query.Answer Unit →
      Pool Caller State Fault Query Query.Answer Unit → Prop :=
  Relation.ReflTransGen fun pool pool' => (setting env ok).Step pool (.running pool')

theorem Later.onward {env : Externals} {ok : Point → Tables → Prop}
    {pool pool' : Pool Caller State Fault Query Query.Answer Unit} (later : Later env ok pool pool')
    (run : Run env ok (.running pool)) :
    Run env ok (.running pool') ∧ Onward pool.state.toTables pool'.state.toTables := by
  induction later with
  | refl => exact ⟨run, .refl _⟩
  | tail _ step ih =>
    obtain ⟨run', onward⟩ := ih
    obtain ⟨scope, evolves⟩ := evolves_of_step env run' step
    exact ⟨.step run' step, onward.trans evolves.onward⟩

/-- What is expected of a configuration: whenever the lock is free, a connection that is open
has a socket and one that is closed has none; whatever the run comes to later, no connection
has gone back from one status to an earlier one; and none of the assertions about the statuses
fails. -/
def LifeCycle (env : Externals) (ok : Point → Tables → Prop) :
    Config Caller State Fault Query Query.Answer Unit → Prop
  | .running pool =>
    (∀ conn c, pool.state.heap.lookup conn = some c →
      (c.status = .closed → c.socket = none) ∧ (c.status = .connected → c.socket ≠ none)) ∧
    ∀ pool', Later env ok pool pool' → Onward pool.state.toTables pool'.state.toTables
  | .crashed _ e _ => e ∉ [.assertion .onSdp, .assertion .onConnect, .assertion .onAcceptChannel,
      .assertion .onConnectChannel, .assertion .onData, .assertion .onDataPending,
      .assertion .connectionRead, .assertion .connectionWrite]

section blame

variable {t : Tables}

theorem not_unattached {reason : WebrtcReason} (advances : reason.Advances = true) :
    ¬ Unattached Undisturbed reason t := by
  rintro ⟨socket, it, ⟨it', there, _, known⟩, there', absent⟩
  cases there.symm.trans there'
  exact known advances absent

theorem Orderly.of_unexpected (orderly : Orderly t) {reason : WebrtcReason}
    {status : ConnectionStatus} (unexpected : Unexpected Undisturbed reason status t) :
    ∃ socket it c, reason.Follows it.stage ∧ Fits socket it c ∧ c.status ≠ status := by
  obtain ⟨socket, it, conn, c, ⟨it', there, follows, _⟩, there', its, here, wrong⟩ := unexpected
  cases there.symm.trans there'
  obtain ⟨c', here', fits⟩ := orderly.attached socket it conn there its
  cases here.symm.trans here'
  exact ⟨socket, it, c, follows, fits, wrong⟩

theorem Orderly.not_blamed (orderly : Orderly t) {e : Fault} (blame : Blame Undisturbed e t) :
    e ∉ [.assertion .onSdp, .assertion .onConnect, .assertion .onAcceptChannel,
      .assertion .onConnectChannel, .assertion .onData, .assertion .onDataPending,
      .assertion .connectionRead, .assertion .connectionWrite] := by
  intro mem
  simp only [List.mem_cons, List.not_mem_nil, or_false] at mem
  rcases mem with rfl | rfl | rfl | rfl | rfl | rfl | rfl | rfl
  · obtain ⟨offer, unexpected⟩ := blame
    obtain ⟨socket, it, c, follows, fits, wrong⟩ := orderly.of_unexpected unexpected
    exact wrong (fits.opening follows)
  · rcases blame with unattached | unexpected
    · exact not_unattached rfl unattached
    · obtain ⟨socket, it, c, follows, fits, wrong⟩ := orderly.of_unexpected unexpected
      exact wrong (fits.opening (Or.inl follows))
  · rcases blame with unattached | unexpected
    · exact not_unattached rfl unattached
    · obtain ⟨socket, it, c, follows, fits, wrong⟩ := orderly.of_unexpected unexpected
      exact wrong (fits.opening (Or.inr follows))
  · rcases blame with unattached | unexpected
    · exact not_unattached rfl unattached
    · obtain ⟨socket, it, c, follows, fits, wrong⟩ := orderly.of_unexpected unexpected
      exact wrong (fits.opening (Or.inr follows))
  · obtain ⟨data, unexpected⟩ := blame
    obtain ⟨socket, it, c, follows, fits, wrong⟩ := orderly.of_unexpected unexpected
    exact wrong (fits.opened follows)
  · obtain ⟨conn, c, here, pending, empty⟩ := blame
    obtain ⟨c', here', unread⟩ := orderly.unread conn pending
    cases here.symm.trans here'
    exact unread empty
  · obtain ⟨conn, c, reads, here, wrong⟩ := blame
    obtain ⟨closed, connected⟩ := orderly.settled conn c here
    refine wrong ⟨closed, fun none_ => ?_⟩
    cases status : c.status with
    | closed => rfl
    | connecting => exact absurd none_ (reads c here status)
    | connected => exact absurd none_ (connected status)
  · obtain ⟨conn, c, here, status, none_⟩ := blame
    exact (orderly.settled conn c here).connected status none_

end blame

theorem life_cycle (env : Externals) {c : Config Caller State Fault Query Query.Answer Unit}
    (run : Run env Undisturbed c) : LifeCycle env Undisturbed c := by
  have kept : Kept Undisturbed Orderly c :=
    kept_of_run env orderly_initial (fun _ _ _ orderly => orderly.keeps) run
  cases c with
  | running pool =>
    have orderly : Orderly pool.state.toTables := kept
    constructor
    · intro conn c here
      exact ⟨(orderly.settled conn c here).closed, (orderly.settled conn c here).connected⟩
    · exact fun pool' later => (later.onward run).2
  | crashed tag e s =>
    obtain ⟨t, orderly, blame⟩ := kept
    exact orderly.not_blamed blame

def wholeLife : List Event :=
  introduction ++ [.sendto [1] 9 1 0, .webrtc 1 (.localDescription []), .webrtc 1 .established,
    .webrtc 1 .channelConnected, .webrtc 1 (.channelReceive [7]), .recvfrom 4 100 0,
    .webrtc 1 .disconnected, .recvfrom 4 100 0]

theorem life_cycle_whole :
    ∃ c, Run welcome Undisturbed c ∧ history welcome Undisturbed wholeLife = some c ∧
      LifeCycle welcome Undisturbed c := by
  have running : ((history welcome Undisturbed wholeLife).bind Config.now).isSome = true := by
    decide +kernel
  obtain ⟨s, now⟩ := Option.isSome_iff_exists.mp running
  obtain ⟨c, h, _⟩ := Option.bind_eq_some_iff.mp now
  exact ⟨c, run_history _ h, h, life_cycle _ (run_history _ h)⟩

/-- The application gives peer 9 up, and before the transport has stopped it reports that the
connection is established. -/
def closedAsItOpens : Option (Config Caller State Fault Query Query.Answer Unit) :=
  (history welcome InOrder (introduction ++ [.sendto [1] 9 1 0])).bind fun c =>
    (beginning welcome InOrder (.disconnect 1 9) c).bind
      (meanwhile welcome InOrder (.webrtc 1 .established))

/-- The application gives a name up, and then the socket for its peer has been made. -/
def closedAsItResolves : Option (Config Caller State Fault Query Query.Answer Unit) :=
  (history resolver InOrder (introduction ++
    [.virtualPeerForAlias [65], .sendto [1] 0x80000001 1 0])).bind fun c =>
      (beginning resolver InOrder (.signal [1]) c).bind fun c =>
        (meanwhile resolver InOrder (.disconnect 1 0x80000001) c).bind
          (Config.settle (answers InOrder) 1)

/-- In the transport's own order, an assertion of `on_connect` fails, or a connection that is
closed is given a socket. -/
theorem life_cycle_disturbed :
    (∃ c, Run welcome InOrder c ∧ closedAsItOpens = some c ∧ ¬ LifeCycle welcome InOrder c) ∧
    ∃ c, Run resolver InOrder c ∧ closedAsItResolves = some c ∧
      ¬ LifeCycle resolver InOrder c := by
  constructor
  · have crash : closedAsItOpens.bind Config.stopped = some (.assertion .onConnect) := by
      decide +kernel
    obtain ⟨c, h, stopped⟩ := Option.bind_eq_some_iff.mp crash
    obtain ⟨c₀, called, h'⟩ := Option.bind_eq_some_iff.mp h
    obtain ⟨c₁, closing, reports⟩ := Option.bind_eq_some_iff.mp h'
    have run := run_beginning welcome (run_history welcome called) closing
    refine ⟨c, run_meanwhile welcome (by decide) run reports, h, fun right => ?_⟩
    cases c with
    | running pool => cases stopped
    | crashed tag e s =>
      cases stopped
      exact right (by decide)
  · have wrong : (closedAsItResolves.bind Config.now).bind (fun s => s.heap.lookup 1) =
        some ⟨.outgoing, .closed, 9, [], true, some 1⟩ := by decide +kernel
    obtain ⟨s, now, here⟩ := Option.bind_eq_some_iff.mp wrong
    obtain ⟨c, h, running⟩ := Option.bind_eq_some_iff.mp now
    obtain ⟨c₀, called, h'⟩ := Option.bind_eq_some_iff.mp h
    obtain ⟨c₁, resolves, h''⟩ := Option.bind_eq_some_iff.mp h'
    obtain ⟨c₂, closes, settled⟩ := Option.bind_eq_some_iff.mp h''
    have run := run_beginning resolver (run_history resolver called) resolves
    have run := run_meanwhile resolver (by decide) run closes
    have reach := Setting.Reach.settle (answers_allowed resolver) run settled
    refine ⟨c, reach, h, fun right => ?_⟩
    cases c with
    | crashed tag e s => cases running
    | running pool =>
      cases running
      cases (right.1 1 _ here).1 rfl

end HumbleNet.Client
