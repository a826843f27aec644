import HumbleNet.Client.Refusal

/-! The attempts to connect to a name: what the calls of a client do to the table in which the
replies to its lookups are looked up. Only a message to a virtual peer enters something, and
only what a lookup has been sent for. -/
namespace HumbleNet.Client

open Guarded

/-- What waits for a reply is there and has not been closed. -/
def Waiting (t : Tables) : Prop :=
  ∀ name conn, t.pendingAliasConnectionsOut.lookup name = some conn →
    ∃ c, t.heap.lookup conn = some c ∧ c.status ≠ .closed

def Narrows (s t : Tables) : Prop :=
  ∀ name conn, t.pendingAliasConnectionsOut.lookup name = some conn →
    s.pendingAliasConnectionsOut.lookup name = some conn

theorem Narrows.refl (s : Tables) : Narrows s s := fun _ _ h => h

theorem Narrows.trans {s t u : Tables} (h : Narrows s t) (h' : Narrows t u) : Narrows s u :=
  fun name conn there => h name conn (h' name conn there)

section

variable {ok : Point → Tables → Prop} {scope : Scope} {s t : Tables}

theorem Waiting.carry (waiting : Waiting s) (narrows : Narrows s t)
    (kept : ∀ name k c, t.pendingAliasConnectionsOut.lookup name = some k →
      s.heap.lookup k = some c → c.status ≠ .closed →
      ∃ c', t.heap.lookup k = some c' ∧ c'.status ≠ .closed) : Waiting t := by
  intro name conn there
  obtain ⟨c, here, alive⟩ := waiting name conn (narrows name conn there)
  exact kept name conn c there here alive

theorem Waiting.modify (waiting : Waiting s) {conn : ConnPtr} {f : Connection → Connection}
    (opens : ∀ c, c.status ≠ .closed → (f c).status ≠ .closed) :
    Waiting (s.updateConnection conn f) := by
  refine waiting.carry (fun _ _ there => there) ?_
  intro name k c _ here alive
  refine ⟨_, StdMap.lookup_modify_some.mpr ⟨c, here, rfl⟩, ?_⟩
  split
  · exact opens c alive
  · exact alive

theorem Waiting.new (waiting : Waiting s) {conn : ConnPtr} (fresh : conn ∉ s.heap)
    (c : Connection) (peer : Option PeerId) : Waiting (s.make conn c peer) := by
  refine waiting.carry (fun _ _ there => there) ?_
  intro name k d _ here alive
  have other : k ≠ conn := by
    rintro rfl
    exact fresh (StdMap.mem_iff_lookup.mpr ⟨d, here⟩)
  exact ⟨d, (AList.lookup_insert_ne other).trans here, alive⟩

theorem Waiting.close (waiting : Waiting s) (conn : ConnPtr) : Waiting (s.close conn) := by
  refine waiting.carry (fun _ _ there => (StdMap.lookup_eraseValue_some.mp there).1) ?_
  intro name k c there here alive
  have other := (StdMap.lookup_eraseValue_some.mp there).2
  exact ⟨c, StdMap.lookup_modify_some.mpr ⟨c, here, if_neg other⟩, alive⟩

theorem Waiting.keeps (waiting : Waiting s) (does : Does ok scope s t) : Waiting t := by
  cases does with
  | @dial conn c fresh empty status =>
    exact waiting.new fresh c (some c.otherPeer)
  | @invite conn c fresh empty writable passed status => exact waiting.new fresh c none
  | @createAlias conn fresh name vpeer _ =>
    intro name' k there
    rcases StdMap.lookup_emplace_some there with rfl | before
    · exact ⟨Connection.new .outgoing, AList.lookup_insert _, nofun⟩
    · exact waiting.new fresh (Connection.new .outgoing) (some vpeer) name' k before
  | unpend name =>
    exact waiting.carry (fun _ _ there => (StdMap.lookup_erase_some there).2)
      fun _ _ c _ here alive => ⟨c, here, alive⟩
  | @resolve conn c name pending here peer =>
    have assigned : Waiting (s.updateConnection conn fun c => { c with otherPeer := peer }) :=
      waiting.modify fun _ alive => alive
    exact assigned.carry (fun _ _ there => (StdMap.lookup_erase_some there).2)
      fun _ _ c _ here alive => ⟨c, here, alive⟩
  | openSocket conn socket => exact waiting.modify fun _ alive => alive
  | connected here status there its => exact waiting.modify fun _ _ => nofun
  | close here => exact waiting.close _
  | @delete conn c here =>
    refine (waiting.close conn).carry (fun _ _ there => there) ?_
    intro name k d there here' alive
    have other := (StdMap.lookup_eraseValue_some.mp there).2
    exact ⟨d, (AList.lookup_erase_ne other).trans here', alive⟩
  | receive here => exact waiting.modify fun _ alive => alive
  | relay here => exact waiting.modify fun _ alive => alive
  | read here left => exact waiting.modify fun _ alive => alive
  | _ => exact waiting

theorem Does.narrows (other : scope.peers = false) (does : Does ok scope s t) : Narrows s t := by
  cases does with
  | createAlias _ _ _ _ own =>
    rw [other] at own
    cases own
  | unpend name => exact fun _ _ there => (StdMap.lookup_erase_some there).2
  | resolve => exact fun _ _ there => (StdMap.lookup_erase_some there).2
  | close => exact fun _ _ there => (StdMap.lookup_eraseValue_some.mp there).1
  | delete => exact fun _ _ there => (StdMap.lookup_eraseValue_some.mp there).1
  | _ => exact .refl _

theorem Evolves.narrows (other : scope.peers = false) (evolves : Evolves ok scope s t) :
    Narrows s t := by
  induction evolves with
  | refl => exact .refl s
  | tail _ does ih => exact ih.trans (does.narrows other)

end

/-! ### Calls -/

def Narrow {α : Type} (x : ClientM α) : Prop :=
  ∀ s log a t, Runs x s log a t → Narrows s.toTables t.toTables

theorem evolves_of_runs {α : Type} {scope : Scope} {x : ClientM α} {s t : State} {log : ClientLog}
    {a : α} (acts : Acts Anyhow scope s (x s)) (ran : Runs x s log a t) :
    Evolves Anyhow scope s.toTables t.toTables := by
  have may : ∀ q (s : State) a, Query.Allowed q s a s → (terms Anyhow scope).allowed q s a s :=
    fun q s a answer => ⟨answer, fun _ _ => trivial⟩
  exact (Course.Meets.of_ends may (fun _ => trivial) acts ran).1

section

variable {α β : Type} {s t : State} {log : ClientLog}

theorem narrow_acts {x : ClientM α} (acts : ∀ s, Acts Anyhow Scope.traffic s (x s)) : Narrow x :=
  fun s _ _ _ ran => (evolves_of_runs (acts s) ran).narrows rfl

theorem narrow_heard {x : ClientM α}
    (acts : ∀ s, Acts Anyhow Caller.websocket.scope s (x s)) : Narrow x :=
  fun s _ _ _ ran => (evolves_of_runs (acts s) ran).narrows rfl

theorem narrow_quiet {x : ClientM α} (quiet : Quiet x) : Narrow x :=
  narrow_acts fun _ => quiet.acts evolves_refl

theorem narrow_pure (a : α) : Narrow (pure a : ClientM α) := narrow_quiet (quiet_pure a)

theorem narrow_bind {x : ClientM α} {f : α → ClientM β} (first : Narrow x)
    (rest : ∀ a, Narrow (f a)) : Narrow (x >>= f) := by
  intro s log b t ran
  obtain ⟨l, a, u, l', ran, ran', -⟩ := ends_bind.mp ran
  exact (first s l a u ran).trans (rest a u l' b t ran')

theorem narrow_get {f : State → ClientM β} (rest : ∀ s, Narrow (f s)) : Narrow (get >>= f) :=
  fun s log b t ran => rest s s log b t ran

theorem narrow_modify {g : State → State}
    (same : ∀ s, (g s).pendingAliasConnectionsOut = s.pendingAliasConnectionsOut) :
    Narrow (modify g : ClientM Unit) := by
  intro s log a t ran
  obtain ⟨-, rfl⟩ := ends_modify.mp ran
  intro name conn there
  rwa [same] at there

theorem narrow_modify_bind {g : State → State} {f : Unit → ClientM β}
    (same : ∀ s, (g s).pendingAliasConnectionsOut = s.pendingAliasConnectionsOut)
    (rest : ∀ a, Narrow (f a)) : Narrow (modify g >>= f) :=
  narrow_bind (narrow_modify same) rest

theorem narrow_initGuard {otherwise : α} {call : ClientM α} (h : Narrow call) :
    Narrow (initGuard otherwise call) := by
  apply narrow_get
  intro s
  split
  · exact h
  · exact narrow_quiet (quiet_bind (quiet_setError _) fun _ => quiet_pure otherwise)

variable (env : Externals)

theorem narrow_sendOver (conn : ConnPtr) (message : Bytes) (topeer : PeerId)
    (sendmode channel : UInt8) : Narrow (sendOver env conn message topeer sendmode channel) := by
  apply narrow_bind (narrow_quiet (quiet_deref conn))
  intro c
  apply narrow_bind (narrow_acts fun s => acts_datagramSend env rfl _ _ _ _ evolves_refl)
  intro ret
  split
  · apply narrow_bind (narrow_quiet (quiet_deref conn))
    intro c
    split
    · refine narrow_modify_bind (fun _ => rfl) fun _ => ?_
      refine narrow_modify_bind (fun _ => rfl) fun _ => ?_
      apply narrow_bind (narrow_acts fun s => acts_connectionClose evolves_refl)
      intro _
      exact narrow_quiet (quiet_bind (quiet_setError _) fun _ => quiet_pure _)
    · exact narrow_pure _
  · exact narrow_pure _

theorem narrow_trackOrClose (ret : Int) (conn : ConnPtr) (frompeer peer : PeerId) :
    Narrow (trackOrClose ret conn frompeer peer) := by
  unfold trackOrClose
  split
  · exact narrow_modify fun _ => rfl
  · refine narrow_modify_bind (fun _ => rfl) fun _ => ?_
    refine narrow_modify_bind (fun _ => rfl) fun _ => ?_
    exact narrow_acts fun s => acts_connectionClose evolves_refl

theorem narrow_reportFrom (ret : Int) (conn : ConnPtr) : Narrow (reportFrom ret conn) := by
  have named : Narrow (internalAliasGetVirtualPeer conn) := by
    apply narrow_get
    intro s
    split
    · exact narrow_pure _
    · exact narrow_pure _
  apply narrow_bind named
  intro vpeer
  apply narrow_bind (narrow_quiet (quiet_deref conn))
  intro c
  refine narrow_modify_bind (fun _ => rfl) fun _ => ?_
  exact narrow_bind (narrow_trackOrClose ret conn _ _) fun _ => narrow_pure _

theorem narrow_recvfrom (fuel : Nat) (length : UInt32) (channel : UInt8) :
    Narrow (humblenetP2PRecvfrom env fuel length channel) := by
  apply narrow_initGuard
  apply narrow_bind (narrow_acts fun s => acts_datagramRecv env rfl fuel _ 0 channel evolves_refl)
  rintro ⟨ret, conn, data⟩
  cases conn with
  | none => exact narrow_pure _
  | some conn =>
    dsimp only
    split
    · exact narrow_pure _
    · exact narrow_bind (narrow_reportFrom ret conn) fun _ => narrow_pure _

theorem narrow_handle (event : Event)
    (apart : ∀ message topeer sendmode channel, event ≠ .sendto message topeer sendmode channel) :
    Narrow (handle env event) := by
  have last : ∀ {α : Type} {x : ClientM α}, Narrow x → Narrow (do let _ ← x) :=
    fun h => narrow_bind h fun _ => narrow_pure ()
  cases event with
  | init server gameToken gameSecret authToken =>
    exact last (narrow_acts fun s => acts_p2pInit _ _ _ _)
  | shutdown fuel => exact narrow_acts fun s => acts_shutdown fuel
  | registerAlias name =>
    exact last (narrow_initGuard (narrow_acts fun s => acts_aliasRegister env name evolves_refl))
  | unregisterAlias name =>
    exact last (narrow_initGuard (narrow_acts fun s => acts_aliasUnregister env name evolves_refl))
  | virtualPeerForAlias name =>
    exact last (narrow_initGuard (narrow_quiet (quiet_aliasLookup name)))
  | sendto message topeer sendmode channel =>
    exact absurd rfl (apart message topeer sendmode channel)
  | peek fuel channel => exact last (narrow_acts fun s => acts_peek env rfl _ _)
  | recvfrom fuel length channel =>
    refine narrow_modify_bind (fun _ => rfl) fun _ => ?_
    exact narrow_bind (narrow_recvfrom env fuel length channel) fun _ => narrow_modify fun _ => rfl
  | disconnect fuel peer => exact last (narrow_acts fun s => acts_disconnect _ _)
  | setHint name value => exact narrow_modify fun _ => rfl
  | connectionRead conn bufsize =>
    exact last (narrow_acts fun s => acts_connectionRead _ _ evolves_refl)
  | datagramSend message flags conn channel =>
    exact last (narrow_acts fun s => acts_datagramSend env rfl _ _ _ _ evolves_refl)
  | datagramRecv fuel length flags channel =>
    exact last (narrow_acts fun s => acts_datagramRecv env rfl _ _ _ _ evolves_refl)
  | datagramFlush fuel =>
    exact last (narrow_acts fun s => acts_humblenetDatagramFlush env rfl fuel evolves_refl)
  | signalConnect wsi => exact last (narrow_acts fun s => acts_signalOnConnect env wsi)
  | signalData wsi data pastEnd fuel =>
    exact last (narrow_heard fun s => acts_signalOnData env rfl wsi data pastEnd fuel)
  | signalWritable wsi => exact last (narrow_acts fun s => acts_signalOnWritable wsi)
  | signalDisconnect wsi => exact last (narrow_acts fun s => acts_signalOnDisconnect wsi)
  | webrtc socket reason => exact last (narrow_acts fun s => acts_webrtcProtocol env socket reason)

theorem narrow_signalProcess (msg : Message) : Narrow (p2pSignalProcess env msg) :=
  narrow_heard fun _ => acts_signalProcess env rfl msg evolves_refl

end

/-! ### Messages -/

def madeIn (log : ClientLog) : List ConnPtr :=
  log.filterMap fun
    | ⟨.newConnection, conn⟩ => some conn
    | _ => none

section

variable {α : Type} {s t : State} {log : ClientLog}

theorem madeIn_append (l l' : ClientLog) : madeIn (l ++ l') = madeIn l ++ madeIn l' :=
  List.filterMap_append

theorem madeIn_of_only {x : ClientM α} {a : α} (only : Only (· ≠ .newConnection) x)
    (ran : Runs x s log a t) : madeIn log = [] := by
  apply List.filterMap_eq_nil_iff.mpr
  rintro ⟨q, b⟩ there
  have other : q ≠ .newConnection := Course.Ends.only ran (only s) _ there
  cases q with
  | newConnection => exact absurd rfl other
  | _ => rfl

variable (env : Externals)

theorem only_derefDatagram {p : Query → Prop} (conn : ConnPtr) : Only p (derefDatagram conn) :=
  only_get fun _ => only_through _ _

theorem unmade_sendP2PMessage (msg : Message) :
    Only (· ≠ .newConnection) (sendP2PMessage env msg) := by
  apply only_get
  intro s
  split
  · exact only_pure _
  · split
    · exact only_pure _
    · exact only_bind (only_unguarded nofun) fun _ => only_pure _

theorem unmade_connectionWrite (conn : ConnPtr) (buf : Bytes) (bufsize : UInt32) :
    Only (· ≠ .newConnection) (humblenetConnectionWrite env conn buf bufsize) := by
  apply only_bind (only_deref conn)
  intro c
  split
  · exact only_bind (only_assert _) fun _ => only_pure _
  · exact only_bind (only_assert _) fun _ => only_pure _
  · apply only_bind (only_assert _)
    intro _
    apply only_get
    intro s
    split
    · apply only_bind (unmade_sendP2PMessage env _)
      intro sent
      split
      · exact only_pure _
      · exact only_pure _
    · cases c.socket with
      | none => exact only_fault _
      | some socket =>
        apply only_bind (only_derefSocket socket)
        intro it
        split
        · exact only_unguarded nofun
        · exact only_bind (only_unguarded nofun) fun _ => only_pure _

theorem unmade_datagramFlush (conn : ConnPtr) :
    Only (· ≠ .newConnection) (datagramFlush env conn) := by
  apply only_bind (only_derefDatagram conn)
  intro dg
  split
  · exact only_pure _
  · refine only_bind ?_ fun writable => ?_
    · apply only_bind (only_deref dg.conn)
      intro c
      split
      · exact only_pure _
      · exact only_pure _
    · split
      · apply only_bind (unmade_connectionWrite env _ _ _)
        intro ret
        apply only_bind (only_doWhen (only_modify _))
        intro _
        exact only_bind (only_derefDatagram conn) fun _ => only_modify _
      · exact only_pure _

theorem unmade_datagramQueue (message : Bytes) (flags : UInt8) (conn : ConnPtr)
    (channel : UInt8) :
    Only (· ≠ .newConnection) (datagramQueue env message flags conn channel) := by
  apply only_bind (only_bind (only_deref conn) fun _ => only_modify _)
  intro _
  refine only_bind ?_ fun _ => ?_
  · apply only_bind (only_derefDatagram conn)
    intro dg
    exact only_bind (only_ask nofun) fun _ => only_modify _
  · refine only_bind ?_ fun _ => only_pure _
    apply only_bind (only_derefDatagram conn)
    intro dg
    split
    · exact unmade_datagramFlush env conn
    · split
      · exact only_bind (only_mark nofun) fun _ => unmade_datagramFlush env conn
      · exact only_modify _

theorem unmade_sendOver (conn : ConnPtr) (message : Bytes) (topeer : PeerId)
    (sendmode channel : UInt8) :
    Only (· ≠ .newConnection) (sendOver env conn message topeer sendmode channel) := by
  apply only_bind (only_deref conn)
  intro c
  refine only_bind ?_ fun ret => ?_
  · apply only_bind (only_deref conn)
    intro c
    split
    · split
      · exact unmade_datagramQueue env _ _ _ _
      · exact only_bind (only_modify _) fun _ => only_pure _
    · exact only_bind (only_modify _) fun _ => only_pure _
    · exact unmade_datagramQueue env _ _ _ _
  · split
    · apply only_bind (only_deref conn)
      intro c
      split
      · apply only_bind (only_modify _)
        intro _
        apply only_bind (only_modify _)
        intro _
        apply only_bind (only_close (fun _ _ other => other) conn)
        intro _
        exact only_bind (only_modify _) fun _ => only_pure _
      · exact only_pure _
    · exact only_pure _

theorem runs_sendP2PMessage {msg : Message} {sent : Bool}
    (ran : Runs (sendP2PMessage env msg) s log sent t) : t = s ∧ madeIn log = [] ∧
      (sent = true → ∃ wsi, (⟨.libwebsocketWrite wsi (frame env msg),
        ((frame env msg).length : Int)⟩ : (q : Query) × q.Answer) ∈ log) := by
  have unmade := madeIn_of_only (unmade_sendP2PMessage env msg) ran
  replace ran := ends_get_bind.mp ran
  split at ran
  · obtain ⟨rfl, rfl, rfl⟩ := ends_pure.mp ran
    exact ⟨rfl, unmade, nofun⟩
  · split at ran
    · obtain ⟨rfl, rfl, rfl⟩ := ends_pure.mp ran
      exact ⟨rfl, unmade, nofun⟩
    · rename_i wsi _
      obtain ⟨ret, l, -, rest, rfl⟩ := ends_unguarded_bind.mp ran
      obtain ⟨rfl, rfl, rfl⟩ := ends_pure.mp rest
      refine ⟨rfl, unmade, fun whole => ⟨wsi, ?_⟩⟩
      have full : ret = ((frame env msg).length : Int) := of_decide_eq_true whole
      rw [full]
      exact List.mem_singleton_self _

theorem runs_newConnection {c : Connection} {peer : Option PeerId} {conn : ConnPtr}
    (ran : Runs (newConnection c peer) s log conn t) :
    conn ∉ s.heap ∧ madeIn log = [conn] ∧ t = { s with toTables := s.make conn c peer } := by
  obtain ⟨k, l, fresh, marks, rfl⟩ := ends_ask_bind.mp ran
  obtain ⟨l', rest, rfl⟩ := runs_mark_bind.mp marks
  have last := ends_modifyTables_bind.mp rest
  obtain ⟨rfl, rfl, rfl⟩ := ends_pure.mp last
  exact ⟨fresh, rfl, rfl⟩

theorem runs_findConnection {peer : PeerId} {found : Option ConnPtr}
    (ran : Runs (internalAliasFindConnection peer) s log found t) : log = [] ∧
      t.pendingAliasConnectionsOut = s.pendingAliasConnectionsOut ∧
      t.virtualPeerNames = s.virtualPeerNames := by
  unfold internalAliasFindConnection at ran
  split at ran
  · replace ran := ends_get_bind.mp ran
    split at ran
    · obtain ⟨rfl, rfl, rfl⟩ := ends_pure.mp ran
      exact ⟨rfl, rfl, rfl⟩
    · obtain ⟨c, here, ran⟩ := runs_deref_bind.mp ran
      split at ran
      · replace ran := ends_modify_bind.mp ran
        obtain ⟨rfl, rfl, rfl⟩ := ends_pure.mp ran
        exact ⟨rfl, rfl, rfl⟩
      · obtain ⟨rfl, rfl, rfl⟩ := ends_pure.mp ran
        exact ⟨rfl, rfl, rfl⟩
  · obtain ⟨rfl, rfl, rfl⟩ := ends_pure.mp ran
    exact ⟨rfl, rfl, rfl⟩

/-- An attempt begins: the lookup of the name has been written whole, and the connection that is
made waits for the reply. -/
structure Begins (env : Externals) (s : State) (name : Bytes) (conn : ConnPtr) (log : ClientLog)
    (t : State) : Prop where
  made : madeIn log = [conn]
  written : ∃ wsi, (⟨.libwebsocketWrite wsi (frame env (sendAliasLookup id name)),
    ((frame env (sendAliasLookup id name)).length : Int)⟩ : (q : Query) × q.Answer) ∈ log
  waits : ∀ k c, t.pendingAliasConnectionsOut.lookup k = some c →
    s.pendingAliasConnectionsOut.lookup k = some c ∨ k = name ∧ c = conn

theorem runs_createConnection {peer : PeerId} {found : Option ConnPtr}
    (ran : Runs (internalAliasCreateConnection env peer) s log found t) :
    (madeIn log = [] ∧ Narrows s.toTables t.toTables) ∨
      ∃ name conn, s.virtualPeerNames.listA.lookup peer = some name ∧
        Begins env s name conn log t := by
  obtain ⟨l, known, u, l', finds, ran, rfl⟩ := ends_bind.mp ran
  obtain ⟨rfl, same, names⟩ := runs_findConnection finds
  have narrows : Narrows s.toTables u.toTables := by
    intro name conn there
    rwa [same] at there
  rw [List.nil_append]
  cases known with
  | some conn =>
    obtain ⟨rfl, rfl, rfl⟩ := ends_pure.mp ran
    exact Or.inl ⟨rfl, narrows⟩
  | none =>
    replace ran := ends_get_bind.mp ran
    rw [names] at ran
    cases entry : s.virtualPeerNames.listA.lookup peer with
    | none =>
      rw [entry] at ran
      replace ran := ends_modify_bind.mp ran
      obtain ⟨rfl, rfl, rfl⟩ := ends_pure.mp ran
      exact Or.inl ⟨rfl, narrows⟩
    | some name =>
      rw [entry] at ran
      obtain ⟨w, sent, v, w', sends, ran, rfl⟩ := ends_bind.mp ran
      obtain ⟨rfl, unmade, written⟩ := runs_sendP2PMessage env sends
      cases sent with
      | false =>
        obtain ⟨rfl, rfl, rfl⟩ := ends_pure.mp ran
        rw [List.append_nil]
        exact Or.inl ⟨unmade, narrows⟩
      | true =>
        rw [if_pos rfl] at ran
        obtain ⟨m, conn, x, m', makes, ran, rfl⟩ := ends_bind.mp ran
        obtain ⟨fresh, made, rfl⟩ := runs_newConnection makes
        replace ran := ends_modify_bind.mp ran
        replace ran := ends_modify_bind.mp ran
        obtain ⟨rfl, rfl, rfl⟩ := ends_pure.mp ran
        refine Or.inr ⟨name, conn, rfl, ?_, ?_, ?_⟩
        · rw [madeIn_append, madeIn_append, unmade, made]
          rfl
        · obtain ⟨wsi, there⟩ := written rfl
          exact ⟨wsi, List.mem_append_left _ there⟩
        · intro k c there
          rcases StdMap.lookup_emplace_entry there with ⟨rfl, rfl⟩ | before
          · exact Or.inr ⟨rfl, rfl⟩
          · exact Or.inl (narrows k c before)

def NoAttempt (virtual : Bool) (s : State) (log : ClientLog) (t : State) : Prop :=
  Narrows s.toTables t.toTables ∧ (virtual = true → madeIn log = [])

def Tries (env : Externals) (topeer : PeerId) (s : State) (log : ClientLog) (t : State) : Prop :=
  NoAttempt (internalAliasIsVirtualPeer topeer) s log t ∨
    internalAliasIsVirtualPeer topeer = true ∧ ∃ name conn,
      s.virtualPeerNames.listA.lookup topeer = some name ∧ Begins env s name conn log t

variable {env} in
theorem Tries.then {topeer : PeerId} {u : State} {l l' : ClientLog} (tries : Tries env topeer s l u)
    (narrows : Narrows u.toTables t.toTables) (unmade : madeIn l' = []) :
    Tries env topeer s (l ++ l') t := by
  have all : madeIn (l ++ l') = madeIn l := by
    rw [madeIn_append, unmade, List.append_nil]
  rcases tries with ⟨before, none⟩ | ⟨virtual, name, conn, entry, begins⟩
  · exact Or.inl ⟨before.trans narrows, fun virtual => all.trans (none virtual)⟩
  · obtain ⟨wsi, written⟩ := begins.written
    refine Or.inr ⟨virtual, name, conn, entry, all.trans begins.made, ?_, ?_⟩
    · exact ⟨wsi, List.mem_append_left _ written⟩
    · exact fun k c there => begins.waits k c (narrows k c there)

theorem tries_connectionTo {topeer : PeerId} {found : Option ConnPtr}
    (ran : Runs (connectionTo env topeer) s log found t) : Tries env topeer s log t := by
  replace ran := ends_get_bind.mp ran
  split at ran
  · obtain ⟨rfl, rfl, rfl⟩ := ends_pure.mp ran
    exact Or.inl ⟨.refl _, fun _ => rfl⟩
  · split at ran
    · rename_i virtual
      obtain ⟨l, known, u, l', finds, ran, rfl⟩ := ends_bind.mp ran
      obtain ⟨rfl, same, names⟩ := runs_findConnection finds
      have narrows : Narrows s.toTables u.toTables := by
        intro name conn there
        rwa [same] at there
      cases known with
      | some conn =>
        obtain ⟨rfl, rfl, rfl⟩ := ends_pure.mp ran
        exact Or.inl ⟨narrows, fun _ => rfl⟩
      | none =>
        rcases runs_createConnection env ran with ⟨unmade, later⟩ | ⟨name, conn, entry, begins⟩
        · exact Or.inl ⟨narrows.trans later, fun _ => unmade⟩
        · refine Or.inr ⟨virtual, name, conn, names ▸ entry, begins.made, begins.written, ?_⟩
          intro k c there
          rcases begins.waits k c there with before | new
          · exact Or.inl (narrows k c before)
          · exact Or.inr new
    · rename_i real
      refine Or.inl ⟨?_, fun virtual => absurd virtual real⟩
      have evolves : Evolves Anyhow Scope.traffic s.toTables t.toTables :=
        evolves_of_runs (acts_connectPeer topeer evolves_refl) ran
      exact evolves.narrows rfl

theorem tries_sendto {message : Bytes} {topeer : PeerId} {sendmode channel : UInt8} {ret : Int}
    (ran : Runs (humblenetP2PSendto env message topeer sendmode channel) s log ret t) :
    Tries env topeer s log t := by
  replace ran := ends_get_bind.mp ran
  split at ran
  · replace ran := ends_get_bind.mp ran
    obtain ⟨l, found, u, l', finds, ran, rfl⟩ := ends_bind.mp ran
    have tries := tries_connectionTo env finds
    cases found with
    | none =>
      replace ran := ends_modify_bind.mp ran
      obtain ⟨rfl, rfl, rfl⟩ := ends_pure.mp ran
      exact tries.then (.refl _) rfl
    | some conn =>
      obtain ⟨m, _, v, m', tracks, sends, rfl⟩ := ends_bind.mp ran
      have tracked : m = [] ∧ v.pendingAliasConnectionsOut = u.pendingAliasConnectionsOut := by
        unfold doWhen at tracks
        split at tracks
        · obtain ⟨rfl, rfl⟩ := ends_modify.mp tracks
          exact ⟨rfl, rfl⟩
        · obtain ⟨rfl, -, rfl⟩ := ends_pure.mp tracks
          exact ⟨rfl, rfl⟩
      obtain ⟨rfl, same⟩ := tracked
      have later := narrow_sendOver env conn message topeer sendmode channel v m' ret t sends
      have unmade := madeIn_of_only (unmade_sendOver env conn message topeer sendmode channel) sends
      refine tries.then (fun k c there => ?_) unmade
      rw [← same]
      exact later k c there
  · replace ran := ends_modify_bind.mp ran
    obtain ⟨rfl, rfl, rfl⟩ := ends_pure.mp ran
    exact Or.inl ⟨.refl _, fun _ => rfl⟩

end

/-! ### Replies -/

/-- Only one connection has changed, and where the others wait they still do. -/
structure Touches (conn : ConnPtr) (s t : State) : Prop where
  heap : ∀ k, k ≠ conn → t.heap.lookup k = s.heap.lookup k
  out : ∀ peer k, k ≠ conn → (t.pendingPeerConnectionsOut.lookup peer = some k ↔
    s.pendingPeerConnectionsOut.lookup peer = some k)
  incoming : ∀ peer k, k ≠ conn → (t.pendingPeerConnectionsIn.lookup peer = some k ↔
    s.pendingPeerConnectionsIn.lookup peer = some k)
  named : ∀ name k, k ≠ conn → s.pendingAliasConnectionsOut.lookup name = some k →
    t.pendingAliasConnectionsOut.lookup name = some k
  narrows : Narrows s.toTables t.toTables

theorem Touches.refl (conn : ConnPtr) (s : State) : Touches conn s s where
  heap _ _ := rfl
  out _ _ _ := Iff.rfl
  incoming _ _ _ := Iff.rfl
  named _ _ _ there := there
  narrows := .refl _

theorem Touches.trans {conn : ConnPtr} {s t u : State} (h : Touches conn s t)
    (h' : Touches conn t u) : Touches conn s u where
  heap k other := (h'.heap k other).trans (h.heap k other)
  out peer k other := (h'.out peer k other).trans (h.out peer k other)
  incoming peer k other := (h'.incoming peer k other).trans (h.incoming peer k other)
  named name k other there := h'.named name k other (h.named name k other there)
  narrows := h.narrows.trans h'.narrows

theorem Touches.pardons (conn : ConnPtr) : Pardons (Touches conn) where
  refl := .refl conn
  trans _ _ _ := .trans
  error s _ := { Touches.refl conn s with }
  sockets s _ := { Touches.refl conn s with }
  expired s _ := { Touches.refl conn s with }

section

variable {env : Externals} {s t : State} {conn : ConnPtr}

theorem Touches.update (conn : ConnPtr) (s : State) (f : Connection → Connection) :
    Touches conn s { s with toTables := s.updateConnection conn f } :=
  { Touches.refl conn s with
    heap := fun k other => (StdMap.lookup_modify conn k f s.heap).trans (if_neg other) }

theorem Touches.pend (conn : ConnPtr) (s : State) (peer : PeerId) :
    Touches conn s { s with
      pendingPeerConnectionsOut := StdMap.emplace peer conn s.pendingPeerConnectionsOut } :=
  { Touches.refl conn s with
    out := by
      intro p k other
      constructor
      · intro there
        rcases StdMap.lookup_emplace_some there with rfl | before
        · exact absurd rfl other
        · exact before
      · exact StdMap.lookup_emplace_old }

theorem Touches.close (conn : ConnPtr) (s : State) :
    Touches conn s { s with toTables := s.close conn } where
  heap k other := (StdMap.lookup_modify conn k _ s.heap).trans (if_neg other)
  out _ _ other := StdMap.lookup_eraseValue_some.trans (and_iff_left other)
  incoming _ _ other := StdMap.lookup_eraseValue_some.trans (and_iff_left other)
  named _ _ other there := StdMap.lookup_eraseValue_some.mpr ⟨there, other⟩
  narrows _ _ there := (StdMap.lookup_eraseValue_some.mp there).1

theorem touches_setClosed (conn : ConnPtr) :
    Follows (Alone env) (Touches conn) (humblenetConnectionSetClosed conn) := by
  intro s _ t ends
  obtain ⟨u, closes, -⟩ := amid_setClosed.mp ends
  obtain ⟨c, here, -⟩ := amid_deref_bind.mp closes
  obtain ⟨-, m, eq, -⟩ := setClosed_alone here ends
  rw [eq]
  exact { Touches.close conn { s with
    sockets := m, connections := unhook c.socket s.connections } with }

theorem touches_assign (conn : ConnPtr) (f : Connection → Connection) :
    Follows (Alone env) (Touches conn) (assign conn f) := by
  apply follows_bind (Touches.pardons conn).trans
  · exact follows_get fun _ => follows_through (.refl conn) _ _
  · exact fun _ => follows_modify fun s => .update conn s f

def connectResolved (connection : ConnPtr) (peer : PeerId) : ClientM Unit := do
  assign connection fun c => { c with otherPeer := peer }
  mark (.pend .outgoing peer)
  modify fun s =>
    { s with
      pendingPeerConnectionsOut :=
        StdMap.emplace peer connection s.pendingPeerConnectionsOut }
  if ← isPeerBlacklisted peer then
    humblenetSetError "peer blacklisted"
    humblenetConnectionSetClosed connection
  else
    let socket ← internalCreateWebrtc
    mark (.opening connection)
    assign connection fun c => { c with socket := socket }
    unguarded Query.pause
    let c ← deref connection
    mark (.adopt connection)
    internalSetData c.socket (some connection)
    let ret ← internalCreateOffer c.socket
    doWhen (ret = false) (humblenetConnectionSetClosed connection)

theorem touches_connectResolved (conn : ConnPtr) (peer : PeerId) :
    Follows (Alone env) (Touches conn) (connectResolved conn peer) := by
  have o := Touches.pardons conn
  apply follows_bind o.trans (touches_assign conn _)
  intro _
  apply follows_bind o.trans (follows_ask o.refl _)
  intro _
  refine follows_bind o.trans (follows_modify fun s => .pend conn s peer) fun _ => ?_
  apply follows_bind o.trans (o.isPeerBlacklisted peer)
  intro blacklisted
  split
  · exact follows_bind o.trans (o.setError _) fun _ => touches_setClosed conn
  · apply follows_bind o.trans o.createWebrtc
    intro socket
    apply follows_bind o.trans (follows_ask o.refl _)
    intro _
    apply follows_bind o.trans (touches_assign conn _)
    intro _
    have pauses : Follows (Alone env) (Touches conn) (unguarded Query.pause : ClientM Unit) :=
      follows_call o.refl fun _ _ _ answer => answer.2
    apply follows_bind o.trans pauses
    intro _
    apply follows_bind o.trans (follows_get fun _ => follows_through o.refl _ _)
    intro c
    apply follows_bind o.trans (follows_ask o.refl _)
    intro _
    apply follows_bind o.trans (o.setData _ _)
    intro _
    apply follows_bind o.trans (o.createOffer _)
    exact fun ret => follows_doWhen o.refl (touches_setClosed conn)

/-- A reply is applied to the connection that waits for one under the name, and to no other;
when none waits, it changes nothing. -/
theorem resolvedTo_cases {name : Bytes} {peer : PeerId}
    (ends : Amid (Alone env) (internalAliasResolvedTo name peer) s () t) :
    (s.pendingAliasConnectionsOut.lookup name = none ∧ t = s) ∨
      ∃ conn, s.pendingAliasConnectionsOut.lookup name = some conn ∧ Touches conn s t ∧
        t.pendingAliasConnectionsOut.lookup name = none := by
  replace ends := amid_get_bind.mp ends
  cases waits : s.pendingAliasConnectionsOut.lookup name with
  | none =>
    rw [waits] at ends
    exact Or.inl ⟨rfl, (amid_pure.mp ends).2⟩
  | some conn =>
    rw [waits] at ends
    replace ends := amid_modify_bind.mp ends
    have erased : Touches conn s { s with
        pendingAliasConnectionsOut := s.pendingAliasConnectionsOut.erase name } :=
      { Touches.refl conn s with
        named := by
          intro n k other there
          have apart : n ≠ name := by
            rintro rfl
            exact other (Option.some.inj (there.symm.trans waits))
          exact (AList.lookup_erase_ne apart).trans there
        narrows := fun n k there => (StdMap.lookup_erase_some there).2 }
    have rest : Touches conn { s with
        pendingAliasConnectionsOut := s.pendingAliasConnectionsOut.erase name } t := by
      split at ends
      · exact touches_setClosed conn _ _ _ ends
      · exact touches_connectResolved conn peer _ _ _ ends
    refine Or.inr ⟨conn, rfl, erased.trans rest, ?_⟩
    cases after : t.pendingAliasConnectionsOut.lookup name with
    | none => rfl
    | some k => exact absurd rfl (StdMap.lookup_erase_some (rest.narrows name k after)).1

end

end HumbleNet.Client
