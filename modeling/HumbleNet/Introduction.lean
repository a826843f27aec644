import HumbleNet.Client.Sessions
import HumbleNet.PeerServer.Parcels

/-! Who a client is. The server introduces itself to a connection once, before it says anything
else to it, with the id under which it knows the connection; so the client that is told takes
no other id for its own. -/
namespace HumbleNet.Introduction

open Program PeerServer

/-- What has been said to a connection, depending on its id: nothing, or a hello with the id and
then no other hello. -/
structure Introduced (c : P2PSignalConnection) (msgs : List Message) : Prop where
  stranger : c.peerId = 0 → msgs = []
  seated : c.peerId ≠ 0 → ∃ hello rest, msgs = .helloClient (some hello) :: rest ∧
    hello.peerId = c.peerId ∧ ∀ m ∈ rest, m.messageType ≠ .HelloClient

theorem Introduced.same {c c' : P2PSignalConnection} {msgs : List Message}
    (introduced : Introduced c msgs) (same : c'.peerId = c.peerId) : Introduced c' msgs := by
  constructor
  · rw [same]
    exact introduced.stranger
  · rw [same]
    exact introduced.seated

section

variable {env : Externals} {s t : Server} {past : List (Server × Deed)} {d : Deed}
  {y self : ConnPtr} {m msg : Message}

theorem told_places (linked : s.registry.Linked) (exact_s : s.registry.Exact)
    {this : P2PSignalConnection} (here : s.connections.lookup self = some this)
    (heard : ¬ (this.peerId = 0 ∧ m.messageType ≠ .HelloServer)) {b : Bool} {e : Effect}
    (reacts : Reacts env s self this m b e) (out : e.output env self s = some (y, msg)) :
    (∃ hello g, m = .helloServer (some hello) ∧ e = .accept hello g ∧ y = self ∧
        this.peerId = 0 ∧ hello.flags &&& 0x01 ≠ 0 ∧ (getVerifiedGame env hello s).1 = some g ∧
        msg = sendHelloClient id (s.admits env hello g) [] (populateStunServers s)) ∨
      (∀ hello g, e ≠ .accept hello g) ∧ msg.messageType ≠ .HelloClient ∧
        ∃ c, s.connections.lookup y = some c ∧ c.peerId ≠ 0 := by
  by_cases kind : m.messageType = .HelloServer
  · cases reacts with
    | helloAdmitted unseated able found =>
      cases out
      exact Or.inl ⟨_, _, rfl, rfl, rfl, unseated, able, found, rfl⟩
    | helloAgain | helloWithoutWebRTC | helloRefused => cases out
    | ignored => cases out
    | _ => cases kind
  · have seated : this.peerId ≠ 0 := fun zero => heard ⟨zero, kind⟩
    have other : ∀ hello g, e ≠ .accept hello g := by
      rintro hello g rfl
      cases reacts
      exact kind rfl
    refine Or.inr ⟨other, ?_⟩
    rcases reacts_output linked exact_s reacts out with ⟨rfl, answers⟩ | forwarded
    · refine ⟨?_, this, here, seated⟩
      rcases answers with ⟨_, hello⟩ | ⟨resolved, _⟩ | reject
      · exact absurd hello kind
      · simp [resolved]
      · simp [reject]
    · obtain ⟨passed, _, _, named, g, game, _, hg, known, listed, _⟩ := forwarded
      obtain ⟨nonzero, w, c, _, live, _, same⟩ :=
        (peers_iff_openAs linked exact_s known named y).mp listed
      refine ⟨?_, c, live, same ▸ nonzero⟩
      intro hello
      rw [hello] at passed
      cases passed

theorem leaves_peerId {e : Effect} (c : P2PSignalConnection)
    (other : y = self → ∀ hello g, e ≠ .accept hello g) :
    (e.leaves env self s y c).peerId = c.peerId := by
  simp only [Effect.leaves]
  split
  · rename_i own
    cases e with
    | accept hello g => exact absurd rfl (other own hello g)
    | _ => rfl
  · rfl

theorem admitted_told {this : P2PSignalConnection} {hello : HelloServer} {g : GameId} {b b' : Bool}
    {e : Effect} (admits : Reacts env s self this m b (.accept hello g))
    (reacts : Reacts env s self this m b' e) :
    ∃ out, e.output env self s = some (self, out) := by
  cases admits with
  | helloAdmitted unseated able found =>
    cases reacts with
    | helloAdmitted => exact ⟨_, rfl⟩
    | helloAgain seated => exact absurd unseated seated
    | helloWithoutWebRTC _ without => exact absurd without able
    | helloRefused _ _ missing =>
      rw [missing] at found
      cases found
    | ignored kind => simp [Message.messageType] at kind

theorem introduced (history : History env past s) (few : ∀ g, s.idsHandedOut g < 2 ^ 32 - 1)
    {msgs : List Message} (talk : Talk env y past s msgs) {c : P2PSignalConnection}
    (live : s.connections.lookup y = some c) : Introduced c msgs := by
  induction talk generalizing c with
  | opened step =>
    cases step with
    | opened allowed returns =>
      rw [returns_established allowed returns] at live
      simp only [StdMap.lookup_insert_if, if_true, Option.some.injEq] at live
      subst live
      exact ⟨fun _ => rfl, fun seated => absurd rfl seated⟩
  | @queued past s t msgs self m msg talk step tells ih =>
    cases history with
    | next before _ =>
      have few' := few_before step few
      have linked := history_linked before
      have exact_s := history_exact before few'
      obtain ⟨this, b, e, here, heard, reacts, rfl, out⟩ := tells
      have found := live
      rw [apply_lookup] at found
      obtain ⟨c₀, live₀, rfl⟩ := Option.map_eq_some_iff.mp found
      have sofar := ih before few' live₀
      rcases told_places linked exact_s here heard reacts out with
        ⟨hello, g, deed, rfl, own, unseated, able, game, rfl⟩ | ⟨other, kind, c₁, live₁, seated⟩
      · subst own
        obtain rfl : c₀ = this := Option.some.inj (live₀.symm.trans here)
        have id := admits_next before few' (congrArg _ deed) live₀ unseated able game
        have given : (Effect.leaves env y s (.accept hello g) y c₀).peerId =
            s.admits env hello g := by simp [Effect.leaves, Effect.assigned]
        rw [sofar.stranger unseated]
        refine ⟨fun zero => ?_, fun _ => ⟨_, [], rfl, given.symm, fun _ none => by cases none⟩⟩
        rw [given] at zero
        rw [zero] at id
        cases id
      · cases live₁.symm.trans live₀
        have same : (e.leaves env self s y c₀).peerId = c₀.peerId :=
          leaves_peerId c₀ fun _ => other
        obtain ⟨hello, rest, rfl, named, others⟩ := sofar.seated seated
        refine ⟨fun zero => absurd (same.symm.trans zero) seated, fun _ =>
          ⟨hello, rest ++ [msg], rfl, named.trans same.symm, fun m there => ?_⟩⟩
        rcases List.mem_append.mp there with old | new
        · exact others m old
        · rw [List.mem_singleton.mp new]
          exact kind
  | @other past s t msgs d talk step still silent ih =>
    cases history with
    | next before _ =>
      have few' := few_before step few
      rcases step_origin step live with ⟨wsi, opened, _⟩ | ⟨c₀, live₀, touched⟩
      · exact absurd opened (still wsi)
      · have sofar := ih before few' live₀
        cases touched with
        | buffers _ peerId => exact sofar.same peerId
        | @sender msg b e deed heard reacts =>
          refine sofar.same (leaves_peerId c₀ fun _ hello g accepts => ?_)
          subst deed accepts
          cases step with
          | message returns =>
            rcases processMsg_cases live₀ returns with
              ⟨unseated, kind, _, _⟩ | ⟨heard', e', reacts', same⟩
            · exact absurd ⟨unseated, kind⟩ heard
            · obtain ⟨out, told⟩ := admitted_told reacts reacts'
              exact silent y msg out rfl ⟨c₀, _, e', live₀, heard', reacts', same, told⟩

/-! ### The client -/

/-- The hellos that the client processes are among these messages. -/
def HellosAmong (msgs : List Message) : Client.Point → Client.Tables → Prop
  | .greet peer, _ => ∃ hello, .helloClient (some hello) ∈ msgs ∧ hello.peerId = peer
  | _, _ => True

theorem client_knows {msgs : List Message} {p : PeerId}
    (only : ∀ hello, .helloClient (some hello) ∈ msgs → hello.peerId = p)
    {pool : Pool Client.Caller Client.State Client.Fault Client.Query Client.Query.Answer Unit}
    (run : Client.Run env (HellosAmong msgs) (.running pool)) :
    pool.state.myPeerId = 0 ∨ pool.state.myPeerId = p := by
  refine Client.kept_of_run (I := fun t => t.myPeerId = 0 ∨ t.myPeerId = p) env (Or.inl rfl) ?_ run
  intro scope s t before does
  cases does with
  | greet peer passed =>
    obtain ⟨hello, among, rfl⟩ := passed
    simp only
    split
    · exact before
    · exact Or.inr (only hello among)
  | beginSession _ id known =>
    rcases known with rfl | rfl
    · exact before
    · exact Or.inl rfl
  | _ => exact before

/-- A client and the server agree on who the client is. The first message for a connection that
the server knows under an id is a hello with that id, and no other message for it is a hello; a
connection without an id has got no message. So a client at that connection, whatever else happens
to it, has no other id than this one. -/
theorem identities_agree (history : History env past s)
    (few : ∀ g, s.idsHandedOut g < 2 ^ 32 - 1) {c : P2PSignalConnection}
    (live : s.connections.lookup y = some c) :
    ∃ msgs, acceptedAt y past ++ c.sendBuf = msgs.flatMap (frameOf env) ∧ Introduced c msgs ∧
      ∀ pool, Client.Run env (HellosAmong msgs) (.running pool) →
        pool.state.myPeerId = 0 ∨ pool.state.myPeerId = c.peerId := by
  obtain ⟨msgs, talk, account⟩ := history_accounts history live
  have known := introduced history few talk live
  refine ⟨msgs, account, known, fun pool run => client_knows (fun hello among => ?_) run⟩
  by_cases unseated : c.peerId = 0
  · rw [known.stranger unseated] at among
    cases among
  · obtain ⟨first, rest, rfl, named, others⟩ := known.seated unseated
    rcases List.mem_cons.mp among with same | later
    · cases same
      exact named
    · exact absurd rfl (others _ later)

end

def introducing : Externals := Client.reading fun _ => .helloClient (some ⟨2, none, none⟩)

def OnlyTwo : Client.Point → Client.Tables → Prop
  | .greet peer, _ => peer = 2
  | _, _ => True

instance (point : Client.Point) (t : Client.Tables) : Decidable (OnlyTwo point t) :=
  match point with
  | .new _ | .setClosed .. | .delete _ | .arrive .. | .answer _ | .bufferedIn _ | .visit _
  | .maxLength _ | .connected _ | .pend .. | .beginSession | .greet _ | .callback .. | .opening _
  | .adopt _ | .read _ => by
    unfold OnlyTwo
    infer_instance

/-- The second of two peers is told that it is the peer 2, and a client that is told so takes the
id for its own. -/
theorem second_peer_introduced : ∃ past s c hello rest pool, History introducing past s ∧
    s.connections.lookup 20 = some c ∧ acceptedAt 20 past ++ c.sendBuf =
      (.helloClient (some hello) :: rest).flatMap (frameOf introducing) ∧ hello.peerId = 2 ∧
    Client.Run introducing (HellosAmong (.helloClient (some hello) :: rest)) (.running pool) ∧
    pool.state.myPeerId = 2 ∧ (pool.state.myPeerId = 0 ∨ pool.state.myPeerId = c.peerId) := by
  have run : (play introducing meeting).any (fun r => decide (r.2.handedOut.length = 2) &&
      (r.2.connections.lookup 20).any fun c => decide (c.peerId = 2)) = true := by
    decide +kernel
  obtain ⟨past, s, history, seen⟩ := played run
  simp only [Bool.and_eq_true, Option.any_eq_true, decide_eq_true_eq] at seen
  obtain ⟨count, c, live, second⟩ := seen
  have few := few_of_length (s := s) (by rw [count]; decide)
  obtain ⟨msgs, account, known, agrees⟩ := identities_agree history few live
  obtain ⟨hello, rest, rfl, named, _⟩ := known.seated (by rw [second]; decide)
  have greeted : (Client.history introducing OnlyTwo Client.introduction).bind
      (fun c => c.now.map fun s => s.myPeerId) = some 2 := by
    decide +kernel
  obtain ⟨config, told, now⟩ := Option.bind_eq_some_iff.mp greeted
  cases config with
  | crashed tag e s => cases now
  | running pool =>
    have among : ∀ point t, OnlyTwo point t →
        HellosAmong (.helloClient (some hello) :: rest) point t := by
      intro point t only
      cases point with
      | greet peer => exact ⟨hello, List.mem_cons_self, (named.trans second).trans only.symm⟩
      | _ => trivial
    have taken : Client.Run introducing (HellosAmong (.helloClient (some hello) :: rest))
        (.running pool) :=
      Client.reach_history introducing
        (E := Client.setting introducing (HellosAmong (.helloClient (some hello) :: rest)))
        (fun _ s _ _ h => ⟨h.1, fun point eq => among point s.toTables (h.2 point eq)⟩)
        (fun event _ => ⟨event, rfl, rfl, fun _ => List.not_mem_nil⟩) told
    exact ⟨past, s, c, hello, rest, pool, history, live, account, named.trans second, taken,
      Option.some.inj now, agrees pool taken⟩

end HumbleNet.Introduction
