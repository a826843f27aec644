import HumbleNet.Client.Flushing

/-! Runs in which the application makes one call at a time: between its calls no packets are
forgotten. -/
namespace HumbleNet.Client

open Guarded

section calls

variable (env : Externals) {α : Type}

theorem tends_initGuard {otherwise : α} {call : ClientM α}
    (h : Tends NoneForgotten NoneForgotten call) :
    Tends NoneForgotten NoneForgotten (initGuard otherwise call) := by
  apply tends_get
  intro s
  split
  · exact h
  · exact tends_quiet stable_noneForgotten
      (quiet_bind (quiet_setError _) fun _ => quiet_pure otherwise)

theorem tends_afterSend (conn : ConnPtr) (topeer : PeerId) (ret : Int) :
    Tends NoneForgotten NoneForgotten (do
      if ret < 0 then
        let c ← deref conn
        if c.status = .closed then
          modify fun s => { s with p2pconnections := s.p2pconnections.erase c.otherPeer }
          modify fun s => { s with p2pconnections := s.p2pconnections.erase topeer }
          humblenetConnectionClose conn
          humblenetSetError "Connection to peer was closed"
          pure (-1)
        else pure ret
      else pure ret : ClientM Int) := by
  split
  · apply tends_acts stable_noneForgotten
    intro s
    apply acts_quiet (quiet_deref conn) evolves_refl
    intro c t g
    split
    · apply acts_modify
      apply acts_modify
      have untracked := evolves_does (evolves_does g (.untrack c.otherPeer rfl)) (.untrack topeer rfl)
      apply acts_bind (acts_connectionClose untracked)
      intro _ u
      exact acts_quiet (quiet_setError _) evolves_refl fun _ _ g => acts_pure g
    · exact acts_pure g
  · exact tends_pure (fun _ r => r) ret

theorem meets_sendOver {conn : ConnPtr} {message : Bytes} {topeer : PeerId}
    {sendmode channel : UInt8} {b s : State} (sound : Sound s.toTables)
    (flagged : NoneForgotten s.toTables) (guar : ∀ c, s.heap.lookup conn = some c →
      Evolves Flushable Caller.application.scope b.toTables s.toTables) :
    (sendOver env conn message topeer sendmode channel s).Meets (turnTerms .application)
      (fun _ t => Sound t.toTables ∧ NoneForgotten t.toTables) b := by
  apply meets_deref fun _ => trivial
  intro c here
  refine Course.Meets.earlier (T := turnTerms .application) (guar c here) ?_
  exact (tends_bind (tends_datagramSend env message _ conn channel)
    fun ret => tends_afterSend conn topeer ret) s sound flagged

theorem tends_sendto (message : Bytes) (topeer : PeerId) (sendmode channel : UInt8) :
    Tends NoneForgotten NoneForgotten
      (humblenetP2PSendto env message topeer sendmode channel) := by
  apply tends_initGuard
  apply tends_get
  intro s
  apply tends_bind (tends_acts stable_noneForgotten fun s =>
    acts_connectionTo env rfl topeer evolves_refl)
  intro found
  cases found with
  | none =>
    exact tends_quiet stable_noneForgotten
      (quiet_bind (quiet_setError _) fun _ => quiet_pure _)
  | some conn =>
    intro t sound flagged
    dsimp only
    unfold doWhen
    split
    · apply meets_modify
      apply meets_sendOver
      · exact ⟨sound.writable, sound.keyed⟩
      · exact flagged
      · intro c here
        have known : t.heap.lookup conn = some c := here
        exact evolves_does evolves_refl (.track known topeer rfl)
    · rw [pure_bind]
      exact meets_sendOver env sound flagged fun _ _ => evolves_refl

theorem tends_peek (fuel : Nat) (channel : UInt8) :
    Tends NoneForgotten NoneForgotten (humblenetP2PPeek env fuel channel) := by
  apply tends_initGuard
  apply tends_bind (tends_datagramRecv env fuel 0 msgPeek channel)
  rintro ⟨ret, conn, data⟩
  exact tends_pure (fun _ r => r) _

theorem tends_recvfrom (fuel : Nat) (length : UInt32) (channel : UInt8) :
    Tends NoneForgotten NoneForgotten (humblenetP2PRecvfrom env fuel length channel) := by
  apply tends_initGuard
  apply tends_bind (tends_datagramRecv env fuel _ 0 channel)
  rintro ⟨ret, conn, data⟩
  cases conn with
  | none => exact tends_pure (fun _ r => r) _
  | some conn =>
    dsimp only
    split
    · exact tends_pure (fun _ r => r) _
    · apply tends_bind (tends_acts stable_noneForgotten fun s =>
        acts_reportFrom rfl ret conn evolves_refl)
      intro frompeer
      exact tends_pure (fun _ r => r) _

theorem tends_handle (event : Event) (caller : event.caller = .application) :
    Tends NoneForgotten NoneForgotten (handle env event) := by
  have last : ∀ {β : Type} {x : ClientM β}, Tends NoneForgotten NoneForgotten x →
      Tends NoneForgotten NoneForgotten (do let _ ← x) := by
    intro β x h
    exact tends_bind h fun _ => tends_pure (fun _ r => r) ()
  have calm := @tends_acts Unit NoneForgotten stable_noneForgotten
  cases event with
  | init server gameToken gameSecret authToken =>
    exact last (tends_acts stable_noneForgotten fun s => acts_p2pInit _ _ _ _)
  | shutdown fuel => exact calm fun s => acts_shutdown fuel
  | registerAlias name =>
    exact last (tends_initGuard (tends_acts stable_noneForgotten fun s =>
      acts_aliasRegister env name evolves_refl))
  | unregisterAlias name =>
    exact last (tends_initGuard (tends_acts stable_noneForgotten fun s =>
      acts_aliasUnregister env name evolves_refl))
  | virtualPeerForAlias name =>
    exact last (tends_initGuard (tends_quiet stable_noneForgotten (quiet_aliasLookup name)))
  | sendto message topeer sendmode channel => exact last (tends_sendto env _ _ _ _)
  | peek fuel channel => exact last (tends_peek env _ _)
  | recvfrom fuel length channel =>
    refine tends_bind (tends_acts stable_noneForgotten fun s => acts_modify_last ?_) fun _ => ?_
    · exact Relation.ReflTransGen.single (.report none s.told rfl)
    · exact tends_bind (tends_recvfrom env _ _ _) fun _ =>
        tends_acts stable_noneForgotten fun s => acts_tell rfl _
  | disconnect fuel peer =>
    exact last (tends_acts stable_noneForgotten fun s => acts_disconnect _ _)
  | setHint name value => exact calm fun s => acts_modify_last evolves_refl
  | connectionRead conn bufsize =>
    exact last (tends_acts stable_noneForgotten fun s => acts_connectionRead _ _ evolves_refl)
  | datagramSend message flags conn channel => exact last (tends_datagramSend env _ _ _ _)
  | datagramRecv fuel length flags channel => exact last (tends_datagramRecv env _ _ _ _)
  | datagramFlush fuel => exact last (tends_humblenetDatagramFlush env fuel)
  | signalConnect wsi => cases caller
  | signalData wsi data pastEnd fuel => cases caller
  | signalWritable wsi => cases caller
  | signalDisconnect wsi => cases caller
  | webrtc socket reason => cases caller

end calls

/-- The runs in which the calls of the application come one after the other. -/
def turns (env : Externals) (ok : Point → Tables → Prop) :
    Setting Caller State Fault Query Query.Answer Unit :=
  { setting env ok with
    begins := fun tag tags s x =>
      (setting env ok).begins tag tags s x ∧ (tag = .application → tag ∉ tags) }

theorem meets_other (env : Externals) (event : Event) (s : State) :
    (handle env event s).Meets (turnTerms event.caller) (fun _ _ => True) s := by
  have meets : (handle env event s).Meets (terms Flushable event.caller.scope) (fun _ _ => True) s :=
    acts_handle env event
  exact meets.relying fun _ _ _ => trivial

def queuedDiscipline (env : Externals) : Discipline (turns env Flushable) where
  terms := turnTerms
  inv s := Sound s.toTables
  exclusive tag := tag = .application
  idle tag s := tag = .application → NoneForgotten s.toTables
  allowed_eq _ := rfl
  alone _ _ _ _ begins exclusive := begins.2 exclusive
  keeps _ _ _ sound evolves := evolves_keeps (fun _ _ => Sound.keeps) evolves sound
  rely_refl _ s _ _ := ⟨id, .refl s.toTables⟩
  rely_trans _ s t u h h' eq := ⟨fun sound => (h' eq).1 ((h eq).1 sound),
    (h eq).2.trans (h' eq).2⟩
  others := by
    rintro tag tag' s t apart _ sound evolves rfl
    have other : tag ≠ .application := apart.elim id id
    exact ⟨fun _ => sound, Evolves.beside evolves (Caller.scope_packets other)⟩
  idle_others := by
    rintro tag tag' s t ne _ evolves flagged rfl
    exact (Evolves.beside evolves (Caller.scope_packets ne)).noneForgotten (flagged rfl)
  idle_shared tag s shared eq := absurd eq shared
  entry := by
    rintro tag tags s x ⟨⟨event, rfl, rfl, _⟩, _⟩ sound flagged
    by_cases caller : event.caller = .application
    · rw [caller]
      have meets := tends_handle env event caller s sound (flagged caller)
      exact meets.mono fun _ _ h _ => h.2
    · exact (meets_other env event s).mono fun _ _ _ eq => absurd eq caller

abbrev TurnRun (env : Externals) (ok : Point → Tables → Prop) :
    Config Caller State Fault Query Query.Answer Unit → Prop :=
  (turns env ok).Reach fun s => s = .initial

theorem turnRun_history (env : Externals) {ok : Point → Tables → Prop}
    [∀ p t, Decidable (ok p t)] {events : List Event}
    {c : Config Caller State Fault Query Query.Answer Unit}
    (h : history env ok events = some c) : TurnRun env ok c :=
  reach_history (E := turns env ok) env (fun _ _ _ _ h => h)
    (fun event _ => ⟨⟨event, rfl, rfl, fun _ => List.not_mem_nil⟩,
      fun _ => List.not_mem_nil⟩) h

/-- Between the calls of the application, packets to a connection that is not closed are
flagged. -/
theorem queued_flagged (env : Externals) {pool : Pool Caller State Fault Query Query.Answer Unit}
    (run : TurnRun env Flushable (.running pool))
    (between : Caller.application ∉ pool.parked.map Parked.tag) :
    ∀ conn dg c, pool.state.datagrams.lookup conn = some dg → dg.bufOut ≠ [] →
      pool.state.heap.lookup conn = some c → c.status ≠ .closed →
      pool.state.queuedPackets = true := by
  have holds := (queuedDiscipline env).good_of_reach
    (fun s (start : s = .initial) => ⟨start ▸ sound_initial, fun _ _ => ?_⟩) run
  · intro conn dg c entry nonempty here alive
    exact holds.idle .application between rfl conn c ⟨dg, entry, nonempty⟩ here alive
  · subst start
    rintro conn c ⟨dg, entry, _⟩
    cases entry

/-- A message is queued, the connection opens, and the next receive sends it. -/
theorem queued_flagged_after_flush :
    ∃ pool, history welcome Flushable (introduction ++ [.sendto [1] 9 1 0,
        .webrtc 1 .established, .webrtc 1 .channelConnected, .recvfrom 4 100 0]) =
        some (.running pool) ∧
      TurnRun welcome Flushable (.running pool) ∧
      ∀ conn dg c, pool.state.datagrams.lookup conn = some dg → dg.bufOut ≠ [] →
        pool.state.heap.lookup conn = some c → c.status ≠ .closed →
        pool.state.queuedPackets = true := by
  have calm : ((history welcome Flushable (introduction ++ [.sendto [1] 9 1 0,
      .webrtc 1 .established, .webrtc 1 .channelConnected, .recvfrom 4 100 0])).map
      Config.quiet) = some true := by decide +kernel
  obtain ⟨c, h, quiet⟩ := Option.map_eq_some_iff.mp calm
  cases c with
  | crashed tag e s => cases quiet
  | running pool =>
    have between : Caller.application ∉ pool.parked.map Parked.tag := by
      rw [List.isEmpty_iff.mp quiet]
      exact List.not_mem_nil
    exact ⟨pool, h, turnRun_history _ h, queued_flagged _ (turnRun_history _ h) between⟩

def forgets (conn : ConnPtr) : Config Caller State Fault Query Query.Answer Unit → Bool
  | .running ⟨s, []⟩ =>
    match s.datagrams.lookup conn, s.heap.lookup conn with
    | some dg, some c =>
      !dg.bufOut.isEmpty && decide (c.status ≠ .closed) && !s.queuedPackets
    | _, _ => false
  | _ => false

theorem forgotten_of_forgets {conn : ConnPtr}
    {c : Config Caller State Fault Query Query.Answer Unit} (h : forgets conn c = true) :
    ∃ s, c = .running ⟨s, []⟩ ∧ ∃ dg c, s.datagrams.lookup conn = some dg ∧ dg.bufOut ≠ [] ∧
      s.heap.lookup conn = some c ∧ c.status ≠ .closed ∧ s.queuedPackets = false := by
  unfold forgets at h
  split at h
  · rename_i s
    split at h
    · rename_i dg c entry here
      simp only [Bool.and_eq_true, Bool.not_eq_true', decide_eq_true_eq] at h
      obtain ⟨⟨nonempty, alive⟩, unflagged⟩ := h
      refine ⟨s, rfl, dg, c, entry, ?_, here, alive, unflagged⟩
      intro empty
      rw [empty] at nonempty
      cases nonempty
    · cases h
  · cases h

def Forgets (events : List Event) : Prop :=
  ∃ s, history welcome (fun _ _ => True) (introduction ++ events) = some (.running ⟨s, []⟩) ∧
    TurnRun welcome (fun _ _ => True) (.running ⟨s, []⟩) ∧
    ∃ dg c, s.datagrams.lookup 1 = some dg ∧ dg.bufOut ≠ [] ∧
      s.heap.lookup 1 = some c ∧ c.status ≠ .closed ∧ s.queuedPackets = false

/-- A message is queued for a connection that is being opened, and received before it is
open; or the first message is a long one. Its packets wait without the flag. -/
theorem queued_forgotten : Forgets [.sendto [1] 9 1 0, .recvfrom 4 100 0] ∧
    Forgets [.sendto (List.replicate 1100 0) 9 1 0] := by
  have ends : ∀ events, (history welcome (fun _ _ => True) (introduction ++ events)).map
      (forgets 1) = some true → Forgets events := by
    intro events computed
    obtain ⟨c, h, forgotten⟩ := Option.map_eq_some_iff.mp computed
    obtain ⟨s, rfl, wrong⟩ := forgotten_of_forgets forgotten
    exact ⟨s, h, turnRun_history _ h, wrong⟩
  constructor
  · exact ends _ (by decide +kernel)
  · exact ends _ (by decide +kernel)

end HumbleNet.Client
