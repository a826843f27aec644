import HumbleNet.PeerServer.Forwarding
import HumbleNet.PeerServer.SendQueue

/-! What the server says to a connection: the messages that were queued for it since it was
opened, and how much of them its websocket has accepted. -/
namespace HumbleNet.PeerServer

open Program

def frameOf (env : Externals) (msg : Message) : Bytes := p2pMessageFrame (env.finish msg).bytes

def Tells (env : Externals) (s : Server) (self : ConnPtr) (m : Message) (t : Server)
    (conn : ConnPtr) (msg : Message) : Prop :=
  ∃ this b e, s.connections.lookup self = some this ∧
    ¬ (this.peerId = 0 ∧ m.messageType ≠ .HelloServer) ∧ Reacts env s self this m b e ∧
    t = e.apply env self this s ∧ e.output env self s = some (conn, msg)

/-- What has been queued for a connection since it was opened. -/
inductive Talk (env : Externals) (conn : ConnPtr) :
    List (Server × Deed) → Server → List Message → Prop where
  | opened {past : List (Server × Deed)} {s t : Server} {wsi : Wsi}
    (step : Step env s (.opened wsi conn) t) : Talk env conn ((s, .opened wsi conn) :: past) t []
  | queued {past : List (Server × Deed)} {s t : Server} {msgs : List Message}
    {self : ConnPtr} {m msg : Message} (before : Talk env conn past s msgs)
    (step : Step env s (.message self m) t) (tells : Tells env s self m t conn msg) :
    Talk env conn ((s, .message self m) :: past) t (msgs ++ [msg])
  | other {past : List (Server × Deed)} {s t : Server} {msgs : List Message} {d : Deed}
    (before : Talk env conn past s msgs) (step : Step env s d t)
    (still : ∀ wsi, d ≠ .opened wsi conn)
    (silent : ∀ self m msg, d = .message self m → ¬ Tells env s self m t conn msg) :
    Talk env conn ((s, d) :: past) t msgs

def acceptedAt (conn : ConnPtr) : List (Server × Deed) → Bytes
  | [] => []
  | (_, .opened _ other) :: past => if other = conn then [] else acceptedAt conn past
  | (s, .writeable wsi written) :: past =>
    acceptedAt conn past ++ acceptedFrom conn s wsi written.toNat
  | _ :: past => acceptedAt conn past

/-- The account of a connection: what was accepted and what is queued are its messages. -/
def Accounts (env : Externals) (conn : ConnPtr) (past : List (Server × Deed)) (s : Server)
    (c : P2PSignalConnection) : Prop :=
  ∃ msgs, Talk env conn past s msgs ∧ acceptedAt conn past ++ c.sendBuf = msgs.flatMap (frameOf env)

section

variable {env : Externals} {conn : ConnPtr} {s t : Server} {past : List (Server × Deed)}

theorem Tells.grows {self : ConnPtr} {m msg : Message} (tells : Tells env s self m t conn msg)
    {c : P2PSignalConnection} (live : s.connections.lookup conn = some c) :
    ∃ c', t.connections.lookup conn = some c' ∧ c'.sendBuf = c.sendBuf ++ frameOf env msg := by
  obtain ⟨this, b, e, here, heard, reacts, rfl, out⟩ := tells
  have queues : Queues env s (e.apply env self this s) (e.output env self s) := e.queues
  have grown := queues conn
  rw [live, out] at grown
  obtain ⟨c', live', longer⟩ := Option.map_eq_some_iff.mp grown
  simp only [queuedOn, if_true] at longer
  exact ⟨c', live', longer⟩

theorem Tells.same {self : ConnPtr} {m msg : Message} (tells : Tells env s self m t conn msg)
    {c c' : P2PSignalConnection} (live : s.connections.lookup conn = some c)
    (live' : t.connections.lookup conn = some c') : c.sendBuf ≠ c'.sendBuf := by
  intro same
  obtain ⟨_, there, grown⟩ := tells.grows live
  cases live'.symm.trans there
  have longer := congrArg List.length (same.trans grown)
  simp only [frameOf, p2pMessageFrame, List.length_append, writeScalar32_length] at longer
  omega

theorem accounts_quiet {d : Deed} {c c' : P2PSignalConnection}
    (before : Accounts env conn past s c) (step : Step env s d t)
    (live : s.connections.lookup conn = some c) (live' : t.connections.lookup conn = some c')
    (same : c.sendBuf = c'.sendBuf) (accepts : acceptedAt conn ((s, d) :: past) =
      acceptedAt conn past) : Accounts env conn ((s, d) :: past) t c' := by
  obtain ⟨msgs, talk, account⟩ := before
  refine ⟨msgs, talk.other step ?_ ?_, by rw [accepts, ← same, account]⟩
  · rintro wsi rfl
    exact step_opened_fresh step (StdMap.mem_iff_lookup.mpr ⟨c, live⟩)
  · rintro self m msg rfl tells
    exact tells.same live live' same

theorem accounts_assign {d : Deed} {c' : P2PSignalConnection} {other : ConnPtr}
    {f : P2PSignalConnection → P2PSignalConnection}
    (before : ∀ c, s.connections.lookup conn = some c → Accounts env conn past s c)
    (step : Step env s d (s.updateConnection other f)) (same : ∀ c, (f c).sendBuf = c.sendBuf)
    (live' : (s.updateConnection other f).connections.lookup conn = some c')
    (accepts : acceptedAt conn ((s, d) :: past) = acceptedAt conn past) :
    Accounts env conn ((s, d) :: past) (s.updateConnection other f) c' := by
  have found := live'
  rw [updateConnection_lookup] at found
  obtain ⟨c, live, rfl⟩ := Option.map_eq_some_iff.mp found
  refine accounts_quiet (before c live) step live live' ?_ accepts
  split
  · exact (same c).symm
  · rfl

theorem accounts_message {self : ConnPtr} {m : Message} {b : Bool} {c' : P2PSignalConnection}
    (before : ∀ c, s.connections.lookup conn = some c → Accounts env conn past s c)
    (returns : Returns (processMsg env self m) s b t)
    (live' : t.connections.lookup conn = some c') :
    Accounts env conn ((s, .message self m) :: past) t c' := by
  obtain ⟨this, here, _⟩ := returns_deref_bind.mp returns
  rcases processMsg_cases here returns with ⟨_, _, _, rfl⟩ | ⟨heard, e, reacts, rfl⟩
  · exact accounts_quiet (before c' live') (.message returns) live' live' rfl rfl
  · have queues : Queues env s (e.apply env self this s) (e.output env self s) := e.queues
    have grown := queues conn
    rw [live'] at grown
    obtain ⟨c, live, sent⟩ := Option.map_eq_some_iff.mp grown.symm
    by_cases own : ∃ msg, e.output env self s = some (conn, msg)
    · obtain ⟨msg, out⟩ := own
      obtain ⟨msgs, talk, account⟩ := before c live
      have tells : Tells env s self m _ conn msg := ⟨this, b, e, here, heard, reacts, rfl, out⟩
      rw [out] at sent
      refine ⟨_, talk.queued (.message returns) tells, ?_⟩
      simp only [queuedOn, if_true] at sent
      change acceptedAt conn past ++ c'.sendBuf = _
      rw [← sent, ← List.append_assoc, account, List.flatMap_append, List.flatMap_singleton]
      rfl
    · have nothing : queuedOn env (e.output env self s) conn = [] := by
        cases out : e.output env self s with
        | none => rfl
        | some r =>
          refine if_neg fun same => own ⟨r.2, ?_⟩
          rw [out, same]
      rw [nothing, List.append_nil] at sent
      exact accounts_quiet (before c live) (.message returns) live live' sent rfl

theorem accounts_writeable {wsi : Wsi} {written retval : Int} {c' : P2PSignalConnection}
    (linked : s.registry.Linked)
    (before : ∀ c, s.connections.lookup conn = some c → Accounts env conn past s c)
    (returns : Returns (callbackHumblepeer env (.writeable wsi written)) s retval t)
    (live' : t.connections.lookup conn = some c') :
    Accounts env conn ((s, .writeable wsi written) :: past) t c' := by
  have closes : ∀ c, s.connections.lookup conn = some c →
      acceptedFrom conn s wsi written.toNat ++ c'.sendBuf = c.sendBuf →
      Accounts env conn ((s, .writeable wsi written) :: past) t c' := by
    intro c live split
    obtain ⟨msgs, talk, account⟩ := before c live
    refine ⟨_, talk.other (.writeable returns) (fun _ => nofun) (fun _ _ _ => nofun), ?_⟩
    rw [acceptedAt, List.append_assoc, split, account]
  rcases writeable_cases returns with ⟨rfl, idle⟩ | ⟨other, c, owned, live, own, _, _, rfl⟩
  · refine closes c' live' ?_
    have nothing : acceptedFrom conn s wsi written.toNat = [] := by
      unfold acceptedFrom
      split
      · rename_i owned
        rw [live']
        rcases idle conn c' owned live' with differ | empty | failed
        · exact absurd (linked.owned wsi conn _ owned (registry_member live')) differ
        · simp only [empty, List.take_nil]
        · simp only [Int.toNat_of_nonpos (Int.le_of_lt failed), List.take_zero]
      · rfl
    rw [nothing, List.nil_append]
  · have found := live'
    simp only [updateConnection_lookup] at found
    obtain ⟨c₀, live₀, rfl⟩ := Option.map_eq_some_iff.mp found
    refine closes c₀ live₀ ?_
    by_cases same : conn = other
    · subst same
      cases live.symm.trans live₀
      simp only [acceptedFrom, if_pos owned, live, if_true, List.take_append_drop]
    · have elsewhere : ¬ s.signalConnections.lookup wsi = some conn := by
        rw [owned]
        exact fun eq => same (Option.some.inj eq).symm
      simp only [acceptedFrom, if_neg elsewhere, if_neg same, List.nil_append]

theorem history_accounts (history : History env past s) {c : P2PSignalConnection}
    (live : s.connections.lookup conn = some c) : Accounts env conn past s c := by
  induction history generalizing c with
  | start initial =>
    obtain ⟨_, _, _, rfl⟩ := initial
    cases live
  | @next past s t d history step ih =>
    have before : ∀ c, s.connections.lookup conn = some c → Accounts env conn past s c :=
      fun _ => ih
    have earlier := step
    cases step with
    | @opened _ wsi other _ allowed returns =>
      rw [returns_established allowed returns] at live earlier ⊢
      have there := live
      simp only [StdMap.lookup_insert_if] at live
      split at live
      · rename_i own
        subst own
        cases live
        exact ⟨[], .opened earlier, by simp [acceptedAt, P2PSignalConnection.new]⟩
      · rename_i differ
        exact accounts_quiet (before c live) earlier live there rfl (if_neg (Ne.symm differ))
    | closed returns =>
      have kept : s.connections.lookup conn = some c := by
        rcases closed_cases returns with ⟨_, rfl⟩ | ⟨_, _, _, _, ends⟩
        · exact live
        · rcases ends with ⟨_, rfl⟩ | ⟨_, _, _, _, _, rfl⟩
          · exact (StdMap.lookup_erase_some live).2
          · exact (StdMap.lookup_erase_some live).2
      exact accounts_quiet (before c kept) earlier kept live rfl rfl
    | arrived => exact accounts_assign before earlier (fun _ => rfl) live rfl
    | erased => exact accounts_assign before earlier (fun _ => rfl) live rfl
    | message returns => exact accounts_message before returns live
    | writeable returns => exact accounts_writeable (history_linked history) before returns live

end

end HumbleNet.PeerServer
