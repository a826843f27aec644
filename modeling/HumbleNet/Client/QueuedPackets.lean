import HumbleNet.Client.Run

/-! `queuedPackets`. The flag is right between the calls of the application, as long as no
flush of all entries passes over a connection that is not open yet. -/
namespace HumbleNet.Client

open Guarded

def Unsent (t : Tables) (conn : ConnPtr) : Prop :=
  ∃ dg, t.datagrams.lookup conn = some dg ∧ dg.bufOut ≠ []

/-- Packets to a connection that is not closed are flagged. -/
def NoneForgotten (t : Tables) : Prop :=
  ∀ conn c, Unsent t conn → t.heap.lookup conn = some c → c.status ≠ .closed →
    t.queuedPackets = true

/-- No connection is being opened under this address. -/
def Opened (t : Tables) (conn : ConnPtr) : Prop :=
  ∀ c ∈ t.heap.lookup conn, c.status ≠ .connecting

/-- A flush of all entries finds no packets to a connection that is being opened, a buffer
grows too long for one only when the flag is set, and a new connection is not taken for a
deleted one with packets. -/
def Flushable : Point → Tables → Prop
  | .visit conn, t => (∀ dg ∈ t.datagrams.lookup conn, dg.bufOut = []) ∨ Opened t conn
  | .maxLength conn, t => t.queuedPackets = true ∨ Opened t conn
  | .new conn, t => ∀ dg ∈ t.datagrams.lookup conn, dg.bufOut = []
  | _, _ => True

instance (t : Tables) (conn : ConnPtr) : Decidable (Opened t conn) := by
  unfold Opened
  infer_instance

instance (point : Point) (t : Tables) : Decidable (Flushable point t) := by
  unfold Flushable
  split <;> infer_instance

def ConnectionStatus.Leads : ConnectionStatus → ConnectionStatus → Prop
  | .connecting, _ => True
  | .connected, next => next ≠ .connecting
  | .closed, next => next = .closed

theorem ConnectionStatus.Leads.refl (a : ConnectionStatus) : a.Leads a := by
  cases a <;> simp [ConnectionStatus.Leads]

theorem ConnectionStatus.Leads.trans {a b c : ConnectionStatus} (h : a.Leads b)
    (h' : b.Leads c) : a.Leads c := by
  cases a <;> cases b <;> cases c <;> simp_all [ConnectionStatus.Leads]

theorem ConnectionStatus.leads_closed (a : ConnectionStatus) : a.Leads .closed := by
  cases a <;> simp [ConnectionStatus.Leads]

/-- What the callbacks may do while the application waits inside a call. -/
structure Beside (s t : Tables) : Prop where
  datagrams : t.datagrams = s.datagrams
  queued : t.queuedPackets = s.queuedPackets
  forward : ∀ conn c', Unsent s conn → t.heap.lookup conn = some c' →
    ∃ c, s.heap.lookup conn = some c ∧ c.status.Leads c'.status

theorem Beside.unsent {s t : Tables} (h : Beside s t) (conn : ConnPtr) :
    Unsent t conn ↔ Unsent s conn := by
  unfold Unsent
  rw [h.datagrams]

theorem Beside.refl (s : Tables) : Beside s s where
  datagrams := rfl
  queued := rfl
  forward _ c _ here := ⟨c, here, .refl c.status⟩

theorem Beside.trans {s t u : Tables} (h : Beside s t) (h' : Beside t u) : Beside s u where
  datagrams := h'.datagrams.trans h.datagrams
  queued := h'.queued.trans h.queued
  forward conn c'' unsent here := by
    obtain ⟨c', there, leads'⟩ := h'.forward conn c'' ((h.unsent conn).mpr unsent) here
    obtain ⟨c, before, leads⟩ := h.forward conn c' unsent there
    exact ⟨c, before, leads.trans leads'⟩

theorem Beside.noneForgotten {s t : Tables} (h : Beside s t) (flagged : NoneForgotten s) :
    NoneForgotten t := by
  intro conn c' unsent here alive
  have unsent := (h.unsent conn).mp unsent
  obtain ⟨c, before, leads⟩ := h.forward conn c' unsent here
  rw [h.queued]
  refine flagged conn c unsent before fun closed => alive ?_
  rw [closed] at leads
  exact leads

theorem Beside.opened {s t : Tables} (h : Beside s t) {conn : ConnPtr} (unsent : Unsent s conn)
    (opened : Opened s conn) : Opened t conn := by
  intro c' here connecting
  obtain ⟨c, before, leads⟩ := h.forward conn c' unsent here
  have ahead := opened c before
  rw [connecting] at leads
  cases status : c.status with
  | connecting => exact ahead status
  | connected =>
    rw [status] at leads
    exact leads rfl
  | closed =>
    rw [status] at leads
    cases leads

theorem beside_modify {s t : Tables} (datagrams : t.datagrams = s.datagrams)
    (queued : t.queuedPackets = s.queuedPackets) {conn : ConnPtr} {f : Connection → Connection}
    (heap : t.heap = StdMap.modify conn f s.heap)
    (leads : ∀ c, s.heap.lookup conn = some c → c.status.Leads (f c).status) : Beside s t where
  datagrams := datagrams
  queued := queued
  forward k c' _ here := by
    rw [heap] at here
    obtain ⟨c, before, rfl⟩ := StdMap.lookup_modify_some.mp here
    refine ⟨c, before, ?_⟩
    split
    · rename_i eq
      exact leads c (eq ▸ before)
    · exact .refl c.status

theorem beside_insert {s t : Tables} (datagrams : t.datagrams = s.datagrams)
    (queued : t.queuedPackets = s.queuedPackets) {conn : ConnPtr} {c : Connection}
    (heap : t.heap = s.heap.insert conn c) (passed : Flushable (.new conn) s) : Beside s t where
  datagrams := datagrams
  queued := queued
  forward k c' unsent here := by
    rw [heap, StdMap.lookup_insert_if] at here
    split at here
    · rename_i eq
      obtain ⟨dg, entry, nonempty⟩ := unsent
      exact absurd (passed dg (eq ▸ entry)) nonempty
    · exact ⟨c', here, .refl c'.status⟩

theorem beside_same {s t : Tables} (datagrams : t.datagrams = s.datagrams)
    (queued : t.queuedPackets = s.queuedPackets) (heap : t.heap = s.heap) : Beside s t where
  datagrams := datagrams
  queued := queued
  forward _ c' _ here := ⟨c', heap ▸ here, .refl c'.status⟩

theorem Does.beside {scope : Scope} {s t : Tables} (does : Does Flushable scope s t)
    (other : scope.packets = false) : Beside s t := by
  have apart : scope.packets = true → Beside s t := by
    intro own
    rw [other] at own
    cases own
  cases does with
  | dial _ _ _ _ _ passed => exact beside_insert rfl rfl rfl passed
  | invite _ _ _ passed => exact beside_insert rfl rfl rfl passed
  | createAlias _ _ _ passed => exact beside_insert rfl rfl rfl passed
  | resolve => exact beside_modify rfl rfl rfl fun c _ => .refl c.status
  | openSocket => exact beside_modify rfl rfl rfl fun c _ => .refl c.status
  | connected here status =>
    refine beside_modify rfl rfl rfl fun c' here' => ?_
    cases here.symm.trans here'
    rw [status]
    trivial
  | close => exact beside_modify rfl rfl rfl fun c _ => c.status.leads_closed
  | @delete conn c here =>
    refine ⟨rfl, rfl, fun k c' unsent after => ?_⟩
    have closed : Beside s (s.release conn) :=
      beside_modify rfl rfl rfl fun c _ => c.status.leads_closed
    exact closed.forward k c' unsent (StdMap.lookup_erase_some after).2
  | receive => exact beside_modify rfl rfl rfl fun c _ => .refl c.status
  | relay => exact beside_modify rfl rfl rfl fun c _ => .refl c.status
  | read => exact beside_modify rfl rfl rfl fun c _ => .refl c.status
  | insertDatagram _ own => exact apart own
  | updateDatagram _ _ _ own => exact apart own
  | eraseDatagram _ own => exact apart own
  | queue _ own => exact apart own
  | _ => exact beside_same rfl rfl rfl

theorem Evolves.beside {scope : Scope} {s t : Tables} (evolves : Evolves Flushable scope s t)
    (other : scope.packets = false) : Beside s t := by
  induction evolves with
  | refl => exact .refl s
  | tail _ does ih => exact ih.trans (does.beside other)

theorem Caller.scope_packets {tag : Caller} (other : tag ≠ .application) :
    tag.scope.packets = false := by
  cases tag with
  | application => exact absurd rfl other
  | websocket => rfl
  | transport => rfl

def Scope.calls : Scope := { Caller.application.scope with packets := false }

theorem Scope.calls_within : Scope.calls.Within Caller.application.scope := by
  constructor
  · exact fun _ => rfl
  · exact id
  · exact id

structure Sound (t : Tables) : Prop where
  writable : ∀ conn c, t.heap.lookup conn = some c → c.writable = true
  keyed : ∀ conn dg, t.datagrams.lookup conn = some dg → dg.conn = conn

theorem sound_initial : Sound .initial where
  writable conn c here := by cases here
  keyed conn dg entry := by cases entry

theorem Sound.modify {s t : Tables} (sound : Sound s) (datagrams : t.datagrams = s.datagrams)
    {conn : ConnPtr} {f : Connection → Connection} (heap : t.heap = StdMap.modify conn f s.heap)
    (same : ∀ c, (f c).writable = c.writable) : Sound t where
  writable k c here := by
    rw [heap] at here
    obtain ⟨c, before, rfl⟩ := StdMap.lookup_modify_some.mp here
    split
    · exact (same c).trans (sound.writable k c before)
    · exact sound.writable k c before
  keyed := datagrams ▸ sound.keyed

theorem Sound.insert {s t : Tables} (sound : Sound s) (datagrams : t.datagrams = s.datagrams)
    {conn : ConnPtr} {c : Connection} (heap : t.heap = s.heap.insert conn c)
    (writable : c.writable = true) : Sound t where
  writable k c' here := by
    rw [heap] at here
    rcases StdMap.lookup_insert_some here with rfl | here
    · exact writable
    · exact sound.writable k c' here
  keyed := datagrams ▸ sound.keyed

theorem Sound.keeps {ok : Point → Tables → Prop} {scope : Scope} {s t : Tables} (sound : Sound s)
    (does : Does ok scope s t) : Sound t := by
  cases does with
  | dial _ _ _ _ writable => exact sound.insert rfl rfl writable
  | invite _ _ writable => exact sound.insert rfl rfl writable
  | createAlias => exact sound.insert rfl rfl rfl
  | resolve => exact sound.modify rfl rfl fun _ => rfl
  | openSocket => exact sound.modify rfl rfl fun _ => rfl
  | connected => exact sound.modify rfl rfl fun _ => rfl
  | close => exact sound.modify rfl rfl fun _ => rfl
  | @delete conn =>
    have closed : Sound (s.release conn) := sound.modify rfl rfl fun _ => rfl
    exact ⟨fun k c here => closed.writable k c (StdMap.lookup_erase_some here).2, sound.keyed⟩
  | receive => exact sound.modify rfl rfl fun _ => rfl
  | relay => exact sound.modify rfl rfl fun _ => rfl
  | read => exact sound.modify rfl rfl fun _ => rfl
  | insertDatagram =>
    refine ⟨sound.writable, fun k dg entry => ?_⟩
    rcases lookup_insertDatagram entry with ⟨rfl, rfl⟩ | entry
    · rfl
    · exact sound.keyed k dg entry
  | updateDatagram conn f same =>
    refine ⟨sound.writable, fun k dg entry => ?_⟩
    obtain ⟨old, entry, eq⟩ := lookup_updateDatagram same entry
    exact eq ▸ sound.keyed k old entry
  | eraseDatagram =>
    exact ⟨sound.writable, fun k dg entry => sound.keyed k dg (StdMap.lookup_erase_some entry).2⟩
  | _ => exact ⟨sound.writable, sound.keyed⟩

end HumbleNet.Client
