import HumbleNet.Client.QueuedPackets

/-! What the programs of `humblenet_datagram.cpp` leave of the packets that have not gone
out, while the callbacks run beside them. -/
namespace HumbleNet.Client

open Guarded

def turnTerms (tag : Caller) : Terms State Fault Query Query.Answer :=
  { terms Flushable tag.scope with
    rely := fun s t => tag = .application →
      (Sound s.toTables → Sound t.toTables) ∧ Beside s.toTables t.toTables }

section judgement

variable {α β : Type} {R R' R'' : Tables → Prop}

def Tends (R R' : Tables → Prop) (x : ClientM α) : Prop :=
  ∀ s : State, Sound s.toTables → R s.toTables →
    (x s).Meets (turnTerms .application) (fun _ t => Sound t.toTables ∧ R' t.toTables) s

def Stable (R : Tables → Prop) : Prop := ∀ s t, Beside s t → R s → R t

theorem tends_pure (imp : ∀ t, R t → R' t) (a : α) : Tends R R' (pure a : ClientM α) := by
  intro s sound r
  exact meets_pure Relation.ReflTransGen.refl ⟨sound, imp _ r⟩

theorem tends_bind {x : ClientM α} {f : α → ClientM β} (hx : Tends R R' x)
    (hf : ∀ a, Tends R' R'' (f a)) : Tends R R'' (x >>= f) := by
  intro s sound r
  apply meets_bind (hx s sound r)
  intro a t h
  exact hf a t h.1 h.2

theorem tends_get {f : State → ClientM β} (h : ∀ a, Tends R R' (f a)) :
    Tends R R' (get >>= f) := by
  intro s sound r
  exact meets_get (h s s sound r)

theorem tends_doWhen {c : Prop} [Decidable c] {x : ClientM Unit} (h : Tends R R x) :
    Tends R R (doWhen c x) := by
  unfold doWhen
  split
  · exact h
  · exact tends_pure (fun _ r => r) ()

theorem tends_fault {e : Fault} (free : ∀ t, Blame Flushable e t) :
    Tends R R' (fault e : ClientM α) := by
  intro s sound r
  exact meets_fault Relation.ReflTransGen.refl (free s.toTables)

theorem meets_acts (stable : Stable R) {x : ClientM α} {s : State} (sound : Sound s.toTables)
    (r : R s.toTables) (acts : Acts Flushable Scope.calls s (x s)) :
    (x s).Meets (turnTerms .application) (fun _ t => Sound t.toTables ∧ R t.toTables) s := by
  have meets : (x s).Meets (terms Flushable Scope.calls) (fun _ _ => True) s := acts
  have kept : ∀ s t : State, Sound s.toTables ∧ R s.toTables →
      Evolves Flushable Scope.calls s.toTables t.toTables → Sound t.toTables ∧ R t.toTables := by
    intro s t h evolves
    have beside := evolves.beside rfl
    exact ⟨evolves_keeps (fun _ _ => Sound.keeps) evolves h.1, stable _ _ beside h.2⟩
  have relied : ∀ s t : State, Sound s.toTables ∧ R s.toTables →
      (turnTerms .application).rely s t → Sound t.toTables ∧ R t.toTables := by
    intro s t h rely
    exact ⟨(rely rfl).1 h.1, stable _ _ (rely rfl).2 h.2⟩
  have guar : ∀ s t : State, (terms Flushable Scope.calls).guar s t →
      (turnTerms .application).guar s t := by
    intro s t evolves
    exact Relation.ReflTransGen.mono (fun _ _ => Does.mono Scope.calls_within) _ _ evolves
  have blame : ∀ e (s : State), (terms Flushable Scope.calls).blame e s →
      (turnTerms .application).blame e s := fun _ _ h => h
  have allowed : ∀ q (s : State) a t, (turnTerms .application).allowed q s a t →
      (terms Flushable Scope.calls).allowed q s a t := fun _ _ _ _ h => h
  have carried := meets.carry allowed guar blame (fun _ _ _ => trivial) kept relied
    ⟨sound, r⟩
  exact carried.mono fun _ _ h => h.2

theorem tends_acts (stable : Stable R) {x : ClientM α}
    (acts : ∀ s, Acts Flushable Scope.calls s (x s)) : Tends R R x := by
  intro s sound r
  exact meets_acts stable sound r (acts s)

theorem tends_quiet (stable : Stable R) {x : ClientM α} (quiet : Quiet x) : Tends R R x :=
  tends_acts stable fun _ => quiet.acts evolves_refl

theorem tends_modifyTables {g : Tables → Tables}
    (does : ∀ s, Does Flushable Caller.application.scope s (g s)) (imp : ∀ s, R s → R' (g s)) :
    Tends R R' (modifyTables g) := by
  intro s sound r
  exact meets_modify_last (Relation.ReflTransGen.single (does s.toTables))
    ⟨sound.keeps (does s.toTables), imp _ r⟩

theorem tends_updateDatagram {conn : ConnPtr} {f : DatagramConnection → DatagramConnection}
    (same : ∀ dg, (f dg).conn = dg.conn) (imp : ∀ t, R t → R' (t.updateDatagram conn f)) :
    Tends R R' (modifyTables fun s => s.updateDatagram conn f) :=
  tends_modifyTables (fun _ => .updateDatagram conn f same rfl) imp

theorem tends_derefDatagram {conn : ConnPtr} {f : DatagramConnection → ClientM β}
    (h : ∀ dg, Tends R R' (f dg)) : Tends R R' (derefDatagram conn >>= f) := by
  intro s sound r
  exact meets_derefDatagram (fun _ => trivial) fun dg _ => h dg s sound r

end judgement

variable (env : Externals) {R R' : Tables → Prop}

def Tables.sent (conn : ConnPtr) (t : Tables) : Tables :=
  t.updateDatagram conn fun dg => { dg with bufOut := [], queued := 0 }

theorem tends_datagramFlush (conn : ConnPtr) (stable : Stable R)
    (empty : ∀ t, R t → ¬ Unsent t conn → R' t)
    (declined : ∀ t c, R t → t.heap.lookup conn = some c → c.status ≠ .connected → R' t)
    (sent : ∀ t, R t → R' (t.sent conn)) : Tends R R' (datagramFlush env conn) := by
  have written : ∀ ret : Int, Tends R R' (do
      doWhen (ret < 0) humblenetClearError
      let _ ← derefDatagram conn
      modifyTables fun s => s.sent conn) := by
    intro ret
    apply tends_bind (tends_doWhen (tends_quiet stable quiet_clearError))
    intro _
    apply tends_derefDatagram
    intro _
    exact tends_updateDatagram (fun _ => rfl) sent
  intro s sound r
  apply meets_derefDatagram fun _ => trivial
  intro dg entry
  split
  · rename_i nothing
    refine meets_pure Relation.ReflTransGen.refl ⟨sound, empty _ r ?_⟩
    rintro ⟨dg', entry', nonempty⟩
    cases entry.symm.trans entry'
    exact nonempty (List.isEmpty_iff.mp nothing)
  · rw [sound.keyed conn dg entry]
    unfold humblenetConnectionIsWritable
    rw [bind_assoc]
    apply meets_deref fun _ => trivial
    intro c here
    split
    · rename_i status
      rw [sound.writable conn c here, pure_bind]
      apply meets_bind
      · apply meets_acts stable sound r
        apply acts_connectionWrite env conn _ _ evolves_refl
        intro c' here'
        cases here.symm.trans here'
        exact status
      · exact fun ret t h => written ret t h.1 h.2
    · rename_i status
      rw [pure_bind]
      exact meets_pure Relation.ReflTransGen.refl ⟨sound, declined _ c r here status⟩

/-! ### A flush of all entries -/

/-- Packets to a connection that is not closed are in an entry still to come. -/
def Ahead (next : Option ConnPtr) (t : Tables) : Prop :=
  ∀ conn c, Unsent t conn → t.heap.lookup conn = some c → c.status ≠ .closed →
    ∃ k, next = some k ∧ k ≤ conn

/-- The entry itself has been dealt with. -/
def Behind (key : ConnPtr) (t : Tables) : Prop :=
  ∀ conn c, Unsent t conn → t.heap.lookup conn = some c → c.status ≠ .closed → key < conn

theorem stable_unsent (P : ConnPtr → Prop) : Stable fun t =>
    ∀ conn c, Unsent t conn → t.heap.lookup conn = some c → c.status ≠ .closed → P conn := by
  intro s t beside h conn c' unsent here alive
  have unsent := (beside.unsent conn).mp unsent
  obtain ⟨c, before, leads⟩ := beside.forward conn c' unsent here
  refine h conn c unsent before fun closed => alive ?_
  rw [closed] at leads
  exact leads

theorem stable_ahead (next : Option ConnPtr) : Stable (Ahead next) :=
  stable_unsent fun conn => ∃ k, next = some k ∧ k ≤ conn

/-- The connection of an entry with packets is not being opened. -/
def Ready (conn : ConnPtr) (t : Tables) : Prop := Unsent t conn → Opened t conn

theorem stable_ready (conn : ConnPtr) : Stable (Ready conn) := by
  intro s t beside ready unsent
  have unsent := (beside.unsent conn).mp unsent
  exact beside.opened unsent (ready unsent)

theorem Stable.and (hR : Stable R) (hR' : Stable R') : Stable fun t => R t ∧ R' t :=
  fun s t beside h => ⟨hR s t beside h.1, hR' s t beside h.2⟩

theorem unsent_sent {t : Tables} {conn k : ConnPtr} (h : Unsent (t.sent conn) k) :
    k ≠ conn ∧ Unsent t k := by
  obtain ⟨dg, entry, nonempty⟩ := h
  obtain ⟨old, there, rfl⟩ := StdMap.lookup_modify_some.mp entry
  split at nonempty
  · exact absurd rfl nonempty
  · exact ⟨‹_›, old, there, nonempty⟩

theorem tends_visit (conn : ConnPtr) :
    Tends (fun t => Ahead (some conn) t ∧ Ready conn t) (Behind conn)
      (datagramFlush env conn) := by
  have after : ∀ {k}, (∃ k', some conn = some k' ∧ k' ≤ k) → k ≠ conn → conn < k := by
    rintro k ⟨_, ⟨⟩, le⟩ ne
    exact Nat.lt_of_le_of_ne le (Ne.symm ne)
  apply tends_datagramFlush env conn ((stable_ahead _).and (stable_ready conn))
  · rintro t ⟨ahead, _⟩ sent k c unsent here alive
    refine after (ahead k c unsent here alive) ?_
    rintro rfl
    exact sent unsent
  · rintro t c ⟨ahead, ready⟩ here status k c' unsent here' alive
    refine after (ahead k c' unsent here' alive) ?_
    rintro rfl
    cases here.symm.trans here'
    have open' := ready unsent c here
    cases eq : c.status with
    | closed => exact alive eq
    | connecting => exact open' eq
    | connected => exact status eq
  · rintro t ⟨ahead, _⟩ k c unsent here alive
    obtain ⟨ne, unsent⟩ := unsent_sent unsent
    exact after (ahead k c unsent here alive) ne

theorem tends_flushFrom (fuel : Nat) (key : Option ConnPtr) :
    Tends (Ahead key) (Ahead none) (flushFrom env fuel key) := by
  induction fuel generalizing key with
  | zero =>
    cases key with
    | none => exact tends_pure (fun _ r => r) ()
    | some conn => exact tends_fault fun _ => trivial
  | succ fuel ih =>
    cases key with
    | none => exact tends_pure (fun _ r => r) ()
    | some conn =>
      have next : Tends (Behind conn) (Ahead none) (do
          let _ ← derefDatagram conn
          let s ← get
          flushFrom env fuel (leastKey (fun key => decide (conn < key)) s.datagrams)) := by
        apply tends_derefDatagram
        intro _ s sound behind
        apply meets_get
        refine ih _ s sound fun k c unsent here alive => ?_
        have gt := behind k c unsent here alive
        obtain ⟨dg, entry, _⟩ := unsent
        have there : k ∈ s.datagrams := StdMap.mem_iff_lookup.mpr ⟨dg, entry⟩
        cases least : leastKey (fun key => decide (conn < key)) s.datagrams with
        | none => exact absurd (leastKey_none least k there) (by simpa using gt)
        | some k' => exact ⟨k', rfl, (leastKey_some least).2 k there (by simpa using gt)⟩
      intro s sound ahead
      apply meets_ask
      intro _ answer
      have passed : Flushable (.visit conn) s.toTables := answer.2 _ rfl
      refine (tends_bind (tends_visit env conn) fun _ => next) s sound ⟨ahead, ?_⟩
      rintro ⟨dg, entry, nonempty⟩
      exact passed.resolve_left fun empty => nonempty (empty dg entry)

theorem tends_flushAll (fuel : Nat) : Tends R NoneForgotten (flushAll env fuel) := by
  intro s sound _
  apply meets_get
  have rest : Tends (Ahead none) NoneForgotten
      (modifyTables fun s => { s with queuedPackets := false }) := by
    apply tends_modifyTables (fun s => .queue false rfl)
    intro t none k c unsent here alive
    obtain ⟨_, ⟨⟩, _⟩ := none k c unsent here alive
  refine (tends_bind (tends_flushFrom env fuel _) fun _ => rest) s sound ?_
  intro k c unsent _ _
  obtain ⟨dg, entry, _⟩ := unsent
  have there : k ∈ s.datagrams := StdMap.mem_iff_lookup.mpr ⟨dg, entry⟩
  cases least : leastKey (fun _ => true) s.datagrams with
  | none => exact absurd (leastKey_none least k there) (by decide)
  | some k' => exact ⟨k', rfl, (leastKey_some least).2 k there rfl⟩

/-! ### Sending -/

/-- Packets are flagged, but for the entry that is being written. -/
def NoneForgottenBut (conn : ConnPtr) (t : Tables) : Prop :=
  ∀ k c, Unsent t k → t.heap.lookup k = some c → c.status ≠ .closed → k ≠ conn →
    t.queuedPackets = true

theorem stable_noneForgotten : Stable NoneForgotten := fun _ _ beside => beside.noneForgotten

theorem stable_noneForgottenBut (conn : ConnPtr) : Stable (NoneForgottenBut conn) := by
  intro s t beside flagged
  have kept := stable_unsent (fun k => k ≠ conn → s.queuedPackets = true) s t beside flagged
  intro k c unsent here alive ne
  rw [beside.queued]
  exact kept k c unsent here alive ne

theorem noneForgotten_updateDatagram {t : Tables} {conn : ConnPtr}
    {f : DatagramConnection → DatagramConnection} (same : ∀ dg, (f dg).bufOut = dg.bufOut)
    (flagged : NoneForgotten t) : NoneForgotten (t.updateDatagram conn f) := by
  rintro k c ⟨dg, entry, nonempty⟩ here alive
  obtain ⟨old, there, rfl⟩ := StdMap.lookup_modify_some.mp entry
  refine flagged k c ⟨old, there, ?_⟩ here alive
  split at nonempty
  · exact same old ▸ nonempty
  · exact nonempty

theorem noneForgotten_erase {t : Tables} (conn : ConnPtr) (flagged : NoneForgotten t) :
    NoneForgotten { t with datagrams := t.datagrams.erase conn } := by
  rintro k c ⟨dg, entry, nonempty⟩ here alive
  exact flagged k c ⟨dg, (StdMap.lookup_erase_some entry).2, nonempty⟩ here alive

theorem noneForgotten_insert {t : Tables} (conn : ConnPtr) (peer : PeerId)
    (flagged : NoneForgotten t) :
    NoneForgotten { t with
      datagrams := StdMap.emplace conn (DatagramConnection.new conn peer) t.datagrams } := by
  rintro k c ⟨dg, entry, nonempty⟩ here alive
  rcases lookup_insertDatagram entry with ⟨_, rfl⟩ | entry
  · exact absurd rfl nonempty
  · exact flagged k c ⟨dg, entry, nonempty⟩ here alive

theorem noneForgottenBut_updateDatagram {t : Tables} {conn : ConnPtr}
    {f : DatagramConnection → DatagramConnection} (flagged : NoneForgotten t) :
    NoneForgottenBut conn (t.updateDatagram conn f) := by
  rintro k c ⟨dg, entry, nonempty⟩ here alive ne
  obtain ⟨old, there, rfl⟩ := StdMap.lookup_modify_some.mp entry
  rw [if_neg ne] at nonempty
  exact flagged k c ⟨old, there, nonempty⟩ here alive

theorem tends_flush (conn : ConnPtr) :
    Tends NoneForgotten NoneForgotten (datagramFlush env conn) := by
  apply tends_datagramFlush env conn stable_noneForgotten
  · exact fun t flagged _ => flagged
  · exact fun t _ flagged _ _ => flagged
  · intro t flagged k c unsent here alive
    exact flagged k c (unsent_sent unsent).2 here alive

theorem tends_flush_new (conn : ConnPtr) :
    Tends (fun t => NoneForgottenBut conn t ∧ Ready conn t) NoneForgotten
      (datagramFlush env conn) := by
  apply tends_datagramFlush env conn ((stable_noneForgottenBut conn).and (stable_ready conn))
  · rintro t ⟨flagged, _⟩ sent k c unsent here alive
    refine flagged k c unsent here alive ?_
    rintro rfl
    exact sent unsent
  · rintro t c ⟨flagged, ready⟩ here status k c' unsent here' alive
    refine flagged k c' unsent here' alive ?_
    rintro rfl
    cases here.symm.trans here'
    cases eq : c.status with
    | closed => exact alive eq
    | connecting => exact ready unsent c here eq
    | connected => exact status eq
  · rintro t ⟨flagged, _⟩ k c unsent here alive
    obtain ⟨ne, unsent⟩ := unsent_sent unsent
    exact flagged k c unsent here alive ne

theorem tends_insertDatagram (conn : ConnPtr)
    (imp : ∀ t peer, R t → R' { t with
      datagrams := StdMap.emplace conn (DatagramConnection.new conn peer) t.datagrams }) :
    Tends R R' (insertDatagram conn) := by
  intro s sound r
  apply meets_deref fun _ => trivial
  intro c here
  have does : Does Flushable Caller.application.scope s.toTables _ := .insertDatagram here rfl
  exact meets_modify_last (Relation.ReflTransGen.single does)
    ⟨sound.keeps does, imp _ c.otherPeer r⟩

theorem tends_enqueue (conn : ConnPtr) (message : Bytes) (channel : UInt8)
    (imp : ∀ t f, R t → R' (t.updateDatagram conn f)) :
    Tends R R' (enqueue conn message channel) := by
  apply tends_derefDatagram
  intro dg s sound r
  apply meets_ask
  intro padding _
  refine tends_updateDatagram ?_ ?_ s sound r
  · exact fun _ => rfl
  · exact fun t r => imp t _ r

theorem noneForgotten_flagged {t : Tables} (queued : t.queuedPackets = true) :
    NoneForgotten t := fun _ _ _ _ _ => queued

theorem tends_flushOrQueue (flags : UInt8) (conn : ConnPtr) :
    Tends (fun t => NoneForgottenBut conn t ∧
      (flags &&& msgBuffered = 0 → Ready conn t)) NoneForgotten (flushOrQueue env flags conn) := by
  intro s sound h
  apply meets_derefDatagram fun _ => trivial
  intro dg entry
  split
  · rename_i direct
    exact tends_flush_new env conn s sound ⟨h.1, h.2 direct⟩
  split
  · apply meets_ask
    intro _ answer
    have passed : Flushable (.maxLength conn) s.toTables := answer.2 _ rfl
    rcases passed with queued | opened
    · exact tends_flush env conn s sound (noneForgotten_flagged queued)
    · exact tends_flush_new env conn s sound ⟨h.1, fun _ => opened⟩
  · have does : Does Flushable Caller.application.scope s.toTables _ := .queue true rfl
    exact meets_modify_last (Relation.ReflTransGen.single does)
      ⟨sound.keeps does, noneForgotten_flagged rfl⟩

theorem tends_datagramQueue (message : Bytes) (flags : UInt8) (conn : ConnPtr)
    (channel : UInt8) :
    Tends (fun t => NoneForgotten t ∧ (flags &&& msgBuffered = 0 → Opened t conn))
      NoneForgotten (datagramQueue env message flags conn channel) := by
  have insert : Tends (fun t => NoneForgotten t ∧ (flags &&& msgBuffered = 0 → Opened t conn))
      (fun t => NoneForgotten t ∧ (flags &&& msgBuffered = 0 → Opened t conn))
      (insertDatagram conn) :=
    tends_insertDatagram conn fun t peer h => ⟨noneForgotten_insert conn peer h.1, h.2⟩
  have write : Tends (fun t => NoneForgotten t ∧ (flags &&& msgBuffered = 0 → Opened t conn))
      (fun t => NoneForgottenBut conn t ∧ (flags &&& msgBuffered = 0 → Ready conn t))
      (enqueue conn message channel) :=
    tends_enqueue conn message channel fun t f h =>
      ⟨noneForgottenBut_updateDatagram h.1, fun direct _ => h.2 direct⟩
  apply tends_bind insert
  intro _
  apply tends_bind write
  intro _
  apply tends_bind (tends_flushOrQueue env flags conn)
  intro _
  exact tends_pure (fun _ r => r) _

theorem tends_datagramSend (message : Bytes) (flags : UInt8) (conn : ConnPtr)
    (channel : UInt8) :
    Tends NoneForgotten NoneForgotten (humblenetDatagramSend env message flags conn channel) := by
  intro s sound flagged
  apply meets_deref fun _ => trivial
  intro c here
  have silent : ∀ (error : String) (ret : Int), Tends NoneForgotten NoneForgotten (do
      humblenetSetError error
      pure ret : ClientM Int) := by
    intro error ret
    exact tends_quiet stable_noneForgotten (quiet_bind (quiet_setError error)
      fun _ => quiet_pure ret)
  cases status : c.status with
  | connecting =>
    dsimp only
    split
    · rename_i buffered
      exact tends_datagramQueue env message flags conn channel s sound
        ⟨flagged, fun direct => absurd direct buffered⟩
    · exact silent _ _ s sound flagged
  | closed => exact silent _ _ s sound flagged
  | connected =>
    refine tends_datagramQueue env message flags conn channel s sound ⟨flagged, fun _ => ?_⟩
    intro c' here' connecting
    cases here.symm.trans here'
    rw [status] at connecting
    cases connecting

/-! ### Receiving -/

theorem tends_bufIn {α : Type} {conn : ConnPtr} {f : Bytes → Bytes} {next : Unit → ClientM α}
    (h : Tends NoneForgotten R' (next ())) : Tends NoneForgotten R'
      (modifyTables (fun s => s.updateDatagram conn fun dg => { dg with bufIn := f dg.bufIn }) >>=
        next) := by
  have kept : Tends NoneForgotten NoneForgotten
      (modifyTables fun s => s.updateDatagram conn fun dg => { dg with bufIn := f dg.bufIn }) :=
    tends_updateDatagram (fun _ => rfl)
      fun t r => noneForgotten_updateDatagram (fun _ => rfl) r
  exact tends_bind kept fun _ => h

theorem tends_getMessage (conn : ConnPtr) (length : Nat) (flags channel : UInt8) :
    Tends NoneForgotten NoneForgotten (getMessage conn length flags channel) := by
  apply tends_derefDatagram
  intro dg
  exact tends_bufIn (f := fun _ => _) (tends_pure (fun _ r => r) _)

theorem tends_drainFrom (length : Nat) (flags channel : UInt8) (fuel : Nat)
    (key : Option ConnPtr) :
    Tends NoneForgotten NoneForgotten (drainFrom length flags channel fuel key) := by
  induction fuel generalizing key with
  | zero =>
    cases key with
    | none => exact tends_pure (fun _ r => r) _
    | some conn => exact tends_fault fun _ => trivial
  | succ fuel ih =>
    cases key with
    | none => exact tends_pure (fun _ r => r) _
    | some conn =>
      apply tends_derefDatagram
      intro dg
      apply tends_bind (tends_getMessage conn length flags channel)
      rintro ⟨ret, data⟩
      dsimp only
      split
      · exact tends_pure (fun _ r => r) _
      · exact tends_get fun s => ih _

theorem tends_receiveFrom (length : Nat) (flags channel : UInt8) (conn : ConnPtr) :
    Tends NoneForgotten NoneForgotten (receiveFrom length flags channel conn) := by
  apply tends_bind (tends_insertDatagram conn fun t peer r => noneForgotten_insert conn peer r)
  intro _
  apply tends_bind (tends_acts stable_noneForgotten fun s =>
    acts_connectionReadAll conn 0 evolves_refl)
  rintro ⟨buf, retval⟩
  dsimp only
  split
  · apply tends_bind (tends_modifyTables (fun s => .eraseDatagram conn rfl)
      fun s r => noneForgotten_erase conn r)
    intro _
    apply tends_quiet stable_noneForgotten
    apply quiet_bind quiet_clearError
    intro _
    apply quiet_bind (quiet_deref conn)
    intro c
    split
    · exact quiet_pure _
    · exact quiet_pure _
  · apply tends_bufIn (f := fun old => old ++ buf.take retval.toNat)
    apply tends_bind (tends_quiet stable_noneForgotten (quiet_ask _))
    intro _
    apply tends_bind (tends_getMessage conn length flags channel)
    rintro ⟨ret, data⟩
    dsimp only
    split
    · exact tends_derefDatagram fun dg => tends_pure (fun _ r => r) _
    · exact tends_pure (fun _ r => r) _

theorem tends_pollLoop (length : Nat) (flags channel : UInt8) (fuel : Nat) :
    Tends NoneForgotten NoneForgotten (pollLoop length flags channel fuel) := by
  induction fuel with
  | zero => exact tends_fault fun _ => trivial
  | succ fuel ih =>
    apply tends_bind (tends_acts stable_noneForgotten fun s => acts_pollAll evolves_refl)
    intro polled
    cases polled with
    | none => exact tends_pure (fun _ r => r) _
    | some conn =>
      apply tends_bind (tends_receiveFrom length flags channel conn)
      intro received
      cases received with
      | some received => exact tends_pure (fun _ r => r) _
      | none => exact ih

theorem tends_acceptLoop (fuel : Nat) :
    Tends NoneForgotten NoneForgotten (acceptLoop fuel) := by
  induction fuel with
  | zero => exact tends_fault fun _ => trivial
  | succ fuel ih =>
    apply tends_bind (tends_acts stable_noneForgotten fun s => acts_connectionAccept evolves_refl)
    intro accepted
    cases accepted with
    | none => exact tends_pure (fun _ r => r) _
    | some conn =>
      apply tends_bind (tends_quiet stable_noneForgotten (quiet_deref conn))
      intro c
      apply tends_bind (tends_doWhen (tends_insertDatagram conn fun t peer r =>
        noneForgotten_insert conn peer r))
      intro _
      exact ih

theorem tends_datagramRecv (fuel length : Nat) (flags channel : UInt8) :
    Tends NoneForgotten NoneForgotten (humblenetDatagramRecv env fuel length flags channel) := by
  apply tends_get
  intro s
  apply tends_bind (tends_doWhen (tends_flushAll env fuel))
  intro _
  apply tends_get
  intro s
  apply tends_bind (tends_drainFrom length flags channel fuel _)
  intro drained
  cases drained with
  | some received => exact tends_pure (fun _ r => r) _
  | none =>
    apply tends_bind (tends_pollLoop length flags channel fuel)
    intro polled
    cases polled with
    | some received => exact tends_pure (fun _ r => r) _
    | none => exact tends_bind (tends_acceptLoop fuel) fun _ => tends_pure (fun _ r => r) _

theorem tends_humblenetDatagramFlush (fuel : Nat) :
    Tends NoneForgotten NoneForgotten (humblenetDatagramFlush env fuel) := by
  apply tends_get
  intro s
  split
  · exact tends_bind (tends_flushAll env fuel) fun _ => tends_pure (fun _ r => r) _
  · exact tends_pure (fun _ r => r) _

end HumbleNet.Client
