import HumbleNet.Client.AliasAttempts
import HumbleNet.PeerServer.Aliases
import Mathlib.Data.List.TakeWhile

/-! The lookups of a client and the replies of the peer server, each way in the order in which
they are sent. A reply names the alias and nothing else, so that it is applied to whatever waits
under the name when it comes. -/
namespace HumbleNet

open Guarded Program

/-- A lookup that a client has sent, and the connection it was sent for until that is closed. -/
structure AliasRequest where
  name : Bytes
  conn : Option Client.ConnPtr
  deriving DecidableEq, Repr

def Client.Tables.open (t : Client.Tables) (conn : Client.ConnPtr) : Bool :=
  (t.heap.lookup conn).any fun c => decide (c.status ≠ .closed)

def AliasRequest.after (t : Client.Tables) (a : AliasRequest) : AliasRequest :=
  { a with conn := a.conn.filter t.open }

/-- The lookups of a call, with the connections they are sent for. In a message to a virtual peer
a connection is made just when the lookup of the peer's name has been written. -/
def aliasRequests (s : Client.State) (log : Client.ClientLog) : Client.Event → List AliasRequest
  | .sendto _ topeer _ _ =>
    if Client.internalAliasIsVirtualPeer topeer then
      match s.virtualPeerNames.listA.lookup topeer with
      | some name => (Client.madeIn log).map fun conn => ⟨cStr name, some conn⟩
      | none => []
    else []
  | _ => []

/-- A client, the server, and what is under way between them, oldest first. A reply is kept with
the lookup that it answers. -/
structure Exchange where
  client : Client.State
  server : PeerServer.Server
  lookups : List AliasRequest
  replies : List (AliasRequest × AliasResolved)

namespace Exchange

def outstanding (x : Exchange) : List AliasRequest := x.lookups ++ x.replies.map Prod.fst

def proceed (x : Exchange) (t : Client.State) : Exchange :=
  { x with
    client := t
    lookups := x.lookups.map (·.after t.toTables)
    replies := x.replies.map fun r => (r.1.after t.toTables, r.2) }

def resolved (server : PeerServer.Server) (game : PeerServer.GameId) (name : Bytes) :
    AliasResolved :=
  ⟨cStr name, (server.aliasOwner game (cStr name)).getD 0⟩

inductive Move where
  | call (event : Client.Event) (sent : List AliasRequest)
  | message (msg : Message)
  | deed (d : PeerServer.Deed)
  | answer
  | reply

/-- The steps of the two. `self` is the server's end of the client's connection. Calls and
messages other than the ones at issue happen at any time, and to the server anything. -/
inductive Step (env env' : Externals) (self : PeerServer.ConnPtr) :
    Exchange → Move → Exchange → Prop where
  | call {x : Exchange} {event : Client.Event} {log : Client.ClientLog} {t : Client.State}
    (apart : ∀ wsi data pastEnd fuel, event ≠ .signalData wsi data pastEnd fuel)
    (ran : Client.Runs (Client.handle env event) x.client log () t) :
    Step env env' self x (.call event (aliasRequests x.client log event))
      { x.proceed t with
        lookups := (x.proceed t).lookups ++ aliasRequests x.client log event }
  | message {x : Exchange} {msg : Message} {log : Client.ClientLog} {b : Bool}
    {t : Client.State} (apart : msg.messageType ≠ .AliasResolved)
    (ran : Client.Runs (Client.p2pSignalProcess env msg) x.client log b t) :
    Step env env' self x (.message msg) (x.proceed t)
  | deed {x : Exchange} {d : PeerServer.Deed} {server : PeerServer.Server}
    (apart : ∀ p, d ≠ .message self (.aliasLookup p))
    (step : PeerServer.Step env' x.server d server) :
    Step env env' self x (.deed d) { x with server := server }
  | answer {x : Exchange} {a : AliasRequest} {rest : List AliasRequest}
    {this : PeerServer.P2PSignalConnection} {game : PeerServer.GameId} {server : PeerServer.Server}
    (first : x.lookups = a :: rest) (here : x.server.connections.lookup self = some this)
    (playing : this.game = some game)
    (returns : Returns (PeerServer.processMsg env' self (.aliasLookup (some ⟨a.name⟩))) x.server
      true server) :
    Step env env' self x .answer
      { x with
        server := server
        lookups := rest
        replies := x.replies ++ [(a, resolved x.server game a.name)] }
  | reply {x : Exchange} {a : AliasRequest} {r : AliasResolved}
    {rest : List (AliasRequest × AliasResolved)} {log : Client.ClientLog} {b : Bool}
    {t : Client.State} (first : x.replies = (a, r) :: rest)
    (ran : Client.Runs (Client.p2pSignalProcess env (.aliasResolved (some r))) x.client log b t) :
    Step env env' self x .reply ({ x with replies := rest }.proceed t)

def Initial (x : Exchange) : Prop :=
  x.client = .initial ∧ PeerServer.Started x.server ∧ x.lookups = [] ∧ x.replies = []

abbrev Run (env env' : Externals) (self : PeerServer.ConnPtr) :
    List (Exchange × Move) → Exchange → Prop :=
  Trace Initial (Step env env' self)

/-- The step sends a lookup of a name before the reply to an earlier one has come. -/
def Repeats (m : Exchange × Move) : Prop :=
  match m.2 with
  | .call _ sent => ∃ a ∈ sent, ∃ old ∈ m.1.outstanding, old.name = a.name
  | _ => False

instance (m : Exchange × Move) : Decidable (Repeats m) := by
  unfold Repeats
  split <;> infer_instance

/-- A reply is applied to the connection that its lookup was sent for and leaves all others
alone, and when that connection has been closed it changes nothing. -/
def Applied (a : AliasRequest) (s t : Client.State) : Prop :=
  match a.conn with
  | some conn => Client.Touches conn s t
  | none => t = s

theorem cStr_cStr (bs : Bytes) : cStr (cStr bs) = cStr bs := List.takeWhile_idem

def names (x : Exchange) : List Bytes := x.outstanding.map AliasRequest.name

structure Paired (x : Exchange) : Prop where
  waiting : Client.Waiting x.client.toTables
  asked : ∀ name conn, cStr name = name →
    x.client.pendingAliasConnectionsOut.lookup name = some conn → ⟨name, some conn⟩ ∈ x.outstanding
  once : x.names.Nodup
  strings : ∀ a ∈ x.outstanding, cStr a.name = a.name
  answers : ∀ r ∈ x.replies, r.2.aliasName = r.1.name

section

variable {env env' : Externals} {self : PeerServer.ConnPtr} {x y : Exchange}

theorem paired_initial (initial : Initial x) : Paired x := by
  obtain ⟨client, -, lookups, replies⟩ := initial
  have none : x.outstanding = [] := by
    rw [outstanding, lookups, replies]
    rfl
  constructor
  · intro name conn there
    rw [client] at there
    cases there
  · intro name conn _ there
    rw [client] at there
    cases there
  · rw [names, none]
    exact List.nodup_nil
  · intro a there
    rw [none] at there
    cases there
  · intro r there
    rw [replies] at there
    cases there

theorem outstanding_proceed (x : Exchange) (t : Client.State) :
    (x.proceed t).outstanding = x.outstanding.map (·.after t.toTables) := by
  simp only [outstanding, proceed, List.map_append, List.map_map, Function.comp_def]

theorem names_proceed (x : Exchange) (t : Client.State) : (x.proceed t).names = x.names := by
  simp only [names, outstanding_proceed, List.map_map, Function.comp_def, AliasRequest.after]

theorem after_waiting {t : Client.Tables} (waiting : Client.Waiting t) {name : Bytes}
    {conn : Client.ConnPtr} (there : t.pendingAliasConnectionsOut.lookup name = some conn) :
    (⟨name, some conn⟩ : AliasRequest).after t = ⟨name, some conn⟩ := by
  obtain ⟨c, here, alive⟩ := waiting name conn there
  have opens : t.open conn = true := by
    rw [Client.Tables.open, here]
    exact decide_eq_true alive
  simp only [AliasRequest.after, Option.filter_some, opens, if_true]

theorem paired_proceed {t : Client.State} (waiting : Client.Waiting t.toTables)
    (asked : ∀ name conn, cStr name = name →
      t.pendingAliasConnectionsOut.lookup name = some conn → ⟨name, some conn⟩ ∈ x.outstanding)
    (once : x.names.Nodup) (strings : ∀ a ∈ x.outstanding, cStr a.name = a.name)
    (answers : ∀ r ∈ x.replies, r.2.aliasName = r.1.name) : Paired (x.proceed t) where
  waiting := waiting
  asked name conn isString there := by
    rw [outstanding_proceed, ← after_waiting waiting there]
    exact List.mem_map_of_mem (asked name conn isString there)
  once := by
    rw [names_proceed]
    exact once
  strings a there := by
    rw [outstanding_proceed] at there
    obtain ⟨old, before, rfl⟩ := List.mem_map.mp there
    exact strings old before
  answers r there := by
    obtain ⟨old, before, rfl⟩ := List.mem_map.mp there
    exact answers old before

theorem Paired.proceed (paired : Paired x) {t : Client.State}
    (waiting : Client.Waiting t.toTables)
    (narrows : Client.Narrows x.client.toTables t.toTables) : Paired (x.proceed t) :=
  paired_proceed waiting
    (fun name conn isString there => paired.asked name conn isString (narrows name conn there))
    paired.once paired.strings paired.answers

theorem call_cases {s t : Client.State} {event : Client.Event} {log : Client.ClientLog}
    (ran : Client.Runs (Client.handle env event) s log () t) :
    (aliasRequests s log event = [] ∧ Client.Narrows s.toTables t.toTables) ∨
      ∃ name conn, aliasRequests s log event = [⟨cStr name, some conn⟩] ∧
        Client.Begins env s name conn log t := by
  cases event with
  | sendto message topeer sendmode channel =>
    obtain ⟨l, ret, u, l', sends, last, rfl⟩ := ends_bind.mp ran
    obtain ⟨rfl, -, rfl⟩ := ends_pure.mp last
    rw [List.append_nil]
    rcases Client.tries_sendto env sends with
      ⟨narrows, unmade⟩ | ⟨virtual, name, conn, entry, begins⟩
    · refine Or.inl ⟨?_, narrows⟩
      by_cases virtual : Client.internalAliasIsVirtualPeer topeer = true
      · simp only [aliasRequests, virtual, if_true, unmade virtual, List.map_nil]
        cases s.virtualPeerNames.listA.lookup topeer with
        | none => rfl
        | some name => rfl
      · simp only [aliasRequests, virtual, Bool.false_eq_true, if_false]
    · refine Or.inr ⟨name, conn, ?_, begins⟩
      simp only [aliasRequests, virtual, if_true, entry, begins.made, List.map_cons, List.map_nil]
  | _ =>
    refine Or.inl ⟨rfl, Client.narrow_handle env _ ?_ s log () t ran⟩
    exact fun _ _ _ _ => nofun

theorem waiting_of_runs {α : Type} {scope : Client.Scope} {p : Client.ClientM α}
    {s t : Client.State} {log : Client.ClientLog} {a : α}
    (waiting : Client.Waiting s.toTables) (acts : Client.Acts Client.Anyhow scope s (p s))
    (ran : Client.Runs p s log a t) : Client.Waiting t.toTables :=
  Client.evolves_keeps (fun _ _ => Client.Waiting.keeps) (Client.evolves_of_runs acts ran) waiting

theorem Paired.waiting_of_message (paired : Paired x) {msg : Message} {log : Client.ClientLog}
    {b : Bool} {t : Client.State}
    (ran : Client.Runs (Client.p2pSignalProcess env msg) x.client log b t) :
    Client.Waiting t.toTables := by
  have acts : Client.Acts Client.Anyhow Client.Caller.websocket.scope x.client
      (Client.p2pSignalProcess env msg x.client) :=
    Client.acts_signalProcess env rfl msg Client.evolves_refl
  exact waiting_of_runs paired.waiting acts ran

theorem Paired.call (paired : Paired x) {event : Client.Event} {log : Client.ClientLog}
    {t : Client.State} (ran : Client.Runs (Client.handle env event) x.client log () t)
    (single : ¬ Repeats (x, .call event (aliasRequests x.client log event))) :
    Paired { x.proceed t with
      lookups := (x.proceed t).lookups ++ aliasRequests x.client log event } := by
  have waiting := waiting_of_runs paired.waiting (Client.acts_handle env event) ran
  rcases call_cases ran with ⟨none, narrows⟩ | ⟨name, conn, one, begins⟩
  · rw [none, List.append_nil]
    exact paired.proceed waiting narrows
  · rw [one] at single ⊢
    have new : cStr name ∉ x.names := by
      intro there
      obtain ⟨old, before, same⟩ := List.mem_map.mp there
      exact single ⟨_, List.mem_singleton_self _, old, before, same⟩
    have perm : List.Perm
        ((x.proceed t).lookups ++ [⟨cStr name, some conn⟩] ++ (x.proceed t).replies.map Prod.fst)
        (⟨cStr name, some conn⟩ :: (x.proceed t).outstanding) := by
      rw [outstanding, List.append_assoc]
      exact List.perm_middle
    have goes : ∀ a, a ∈ (x.proceed t).lookups ++ [⟨cStr name, some conn⟩] ++
        (x.proceed t).replies.map Prod.fst ↔
        a = ⟨cStr name, some conn⟩ ∨ a ∈ (x.proceed t).outstanding :=
      fun a => perm.mem_iff.trans List.mem_cons
    constructor
    · exact waiting
    · intro k c isString there
      apply (goes _).mpr
      rcases begins.waits k c there with before | ⟨rfl, rfl⟩
      · right
        rw [outstanding_proceed, ← after_waiting waiting there]
        exact List.mem_map_of_mem (paired.asked k c isString before)
      · left
        rw [isString]
    · change (List.map _ _).Nodup
      rw [outstanding, (perm.map _).nodup_iff, List.map_cons, List.nodup_cons]
      have same := names_proceed x t
      rw [names] at same
      rw [same]
      exact ⟨new, paired.once⟩
    · intro a there
      rcases (goes a).mp there with rfl | before
      · exact cStr_cStr name
      · rw [outstanding_proceed] at before
        obtain ⟨old, listed, rfl⟩ := List.mem_map.mp before
        exact paired.strings old listed
    · intro r there
      obtain ⟨old, before, rfl⟩ := List.mem_map.mp there
      exact paired.answers old before

theorem Paired.answer (paired : Paired x) {a : AliasRequest} {rest : List AliasRequest}
    (first : x.lookups = a :: rest) (server : PeerServer.Server) (game : PeerServer.GameId) :
    Paired { x with
      server := server
      lookups := rest
      replies := x.replies ++ [(a, resolved x.server game a.name)] } := by
  have perm : List.Perm x.outstanding
      (rest ++ (x.replies ++ [(a, resolved x.server game a.name)]).map Prod.fst) := by
    rw [outstanding, first, List.map_append, ← List.append_assoc]
    exact (List.perm_append_singleton a _).symm
  have string : cStr a.name = a.name := by
    apply paired.strings
    rw [outstanding, first]
    exact List.mem_cons_self
  constructor
  · exact paired.waiting
  · exact fun k c isString there => perm.mem_iff.mp (paired.asked k c isString there)
  · exact (perm.map _).nodup_iff.mp paired.once
  · exact fun b there => paired.strings b (perm.mem_iff.mpr there)
  · intro r there
    rcases List.mem_append.mp there with before | new
    · exact paired.answers r before
    · rw [List.mem_singleton.mp new]
      exact string

theorem runs_aliasResolved {r : AliasResolved} {s t : Client.State} {log : Client.ClientLog}
    {b : Bool}
    (ran : Client.Runs (Client.p2pSignalProcess env (.aliasResolved (some r))) s log b t) :
    Amid (Client.Alone env) (Client.internalAliasResolvedTo (cStr r.aliasName) r.peerId) s ()
      t := by
  obtain ⟨p, eq, resolves⟩ := Client.runs_field_bind.mp ran
  cases eq
  obtain ⟨l, _, u, l', resolves, last, -⟩ := ends_bind.mp resolves
  obtain ⟨-, -, rfl⟩ := ends_pure.mp last
  exact Client.amid_of_runs resolves

theorem Paired.applied (paired : Paired x) {a : AliasRequest} {r : AliasResolved}
    {rest : List (AliasRequest × AliasResolved)} (first : x.replies = (a, r) :: rest)
    {log : Client.ClientLog} {b : Bool} {t : Client.State}
    (ran : Client.Runs (Client.p2pSignalProcess env (.aliasResolved (some r))) x.client log b t) :
    Applied a x.client t ∧
      t.pendingAliasConnectionsOut.lookup a.name = none := by
  have here : a ∈ x.outstanding := by
    rw [outstanding, first]
    exact List.mem_append_right _ List.mem_cons_self
  have same : cStr r.aliasName = a.name := by
    have said : r.aliasName = a.name := by
      apply paired.answers (a, r)
      rw [first]
      exact List.mem_cons_self
    rw [said, paired.strings a here]
  rcases Client.resolvedTo_cases (runs_aliasResolved ran) with
    ⟨none, rfl⟩ | ⟨conn, waits, touches, gone⟩
  · refine ⟨?_, same ▸ none⟩
    unfold Applied
    split
    · exact .refl _ _
    · rfl
  · refine ⟨?_, same ▸ gone⟩
    rw [same] at waits
    have asked := paired.asked a.name conn (paired.strings a here) waits
    rw [Applied, List.inj_on_of_nodup_map paired.once here asked rfl]
    exact touches

theorem Paired.reply (paired : Paired x) {a : AliasRequest} {r : AliasResolved}
    {rest : List (AliasRequest × AliasResolved)} (first : x.replies = (a, r) :: rest)
    {log : Client.ClientLog} {b : Bool} {t : Client.State}
    (ran : Client.Runs (Client.p2pSignalProcess env (.aliasResolved (some r))) x.client log b t) :
    Paired ({ x with replies := rest }.proceed t) := by
  have waiting := paired.waiting_of_message ran
  have narrows := Client.narrow_signalProcess env _ _ _ _ _ ran
  obtain ⟨-, gone⟩ := paired.applied first ran
  have perm : List.Perm x.outstanding (a :: (x.lookups ++ rest.map Prod.fst)) := by
    rw [outstanding, first]
    exact List.perm_middle
  apply paired_proceed waiting
  · intro k c isString there
    rcases List.mem_cons.mp (perm.mem_iff.mp (paired.asked k c isString (narrows k c there)))
      with rfl | left
    · cases gone.symm.trans there
    · exact left
  · exact ((perm.map AliasRequest.name).nodup_iff.mp paired.once).of_cons
  · exact fun b there => paired.strings b (perm.mem_iff.mpr (List.mem_cons_of_mem a there))
  · intro p there
    apply paired.answers p
    rw [first]
    exact List.mem_cons_of_mem _ there

theorem Paired.step (paired : Paired x) {m : Move} (single : ¬ Repeats (x, m))
    (step : Step env env' self x m y) : Paired y := by
  cases step with
  | call apart ran => exact paired.call ran single
  | message apart ran =>
    exact paired.proceed (paired.waiting_of_message ran)
      (Client.narrow_signalProcess env _ _ _ _ _ ran)
  | deed apart step => exact { paired with }
  | @answer a rest this game server first here playing returns =>
    exact paired.answer first server game
  | reply first ran => exact paired.reply first ran

theorem run_paired {past : List (Exchange × Move)} (run : Run env env' self past x)
    (single : ∀ m ∈ past, ¬ Repeats m) : Paired x := by
  refine Trace.invariant (I := fun past x => (∀ m ∈ past, ¬ Repeats m) → Paired x) ?_ ?_ run single
  · exact fun _ initial _ => paired_initial initial
  · intro past s m t _ ih step single
    have before := ih fun m' listed => single m' (List.mem_cons_of_mem _ listed)
    exact before.step (single _ List.mem_cons_self) step

/-- In every run in which no lookup of a name is sent before the reply to an earlier one has
come, each reply is applied to the connection that its lookup was sent for. -/
theorem replies_applied {past : List (Exchange × Move)} (run : Run env env' self past x)
    (single : ∀ m ∈ past, ¬ Repeats m) {a : AliasRequest} {r : AliasResolved}
    {rest : List (AliasRequest × AliasResolved)} (first : x.replies = (a, r) :: rest)
    {log : Client.ClientLog} {b : Bool} {t : Client.State}
    (ran : Client.Runs (Client.p2pSignalProcess env (.aliasResolved (some r))) x.client log b t) :
    Applied a x.client t :=
  ((run_paired run single).applied first ran).1

theorem run_server {past : List (Exchange × Move)} (run : Run env env' self past x) :
    ∃ deeds, PeerServer.History env' deeds x.server := by
  induction run with
  | start initial => exact ⟨[], .start initial.2.1⟩
  | next before taken ih =>
    obtain ⟨deeds, history⟩ := ih
    cases taken with
    | call => exact ⟨deeds, history⟩
    | message => exact ⟨deeds, history⟩
    | deed apart step => exact ⟨_, history.next step⟩
    | answer first here playing returns => exact ⟨_, history.next (.message returns)⟩
    | reply => exact ⟨deeds, history⟩

theorem answer_queued {past : List (Exchange × Move)} (run : Run env env' self past x)
    (step : Step env env' self x .answer y) :
    ∃ a r, x.lookups = a :: y.lookups ∧ y.replies = x.replies ++ [(a, r)] ∧
      PeerServer.Queues env' x.server y.server
        (some (self, sendAliasResolved id r.aliasName r.peerId)) := by
  cases step with
  | @answer a rest this game server first here playing returns =>
    refine ⟨a, resolved x.server game a.name, first, rfl, ?_⟩
    obtain ⟨deeds, history⟩ := run_server run
    have seated : this.peerId ≠ 0 := by
      rintro unseated
      rcases PeerServer.processMsg_cases here returns with ⟨-, -, refused, -⟩ | ⟨seated, -⟩
      · cases refused
      · exact seated ⟨unseated, nofun⟩
    obtain ⟨t, returned, queues⟩ := PeerServer.lookup_answered
      (PeerServer.history_linked history) here seated playing ⟨a.name⟩
    cases returned.symm.trans returns
    exact queues

end

/-! ### Computed runs -/

section

variable (env env' : Externals) (self : PeerServer.ConnPtr)

def Move.apart : Move → Bool
  | .call (.signalData _ _ _ _) _ => false
  | .message msg => decide (msg.messageType ≠ .AliasResolved)
  | .deed (.message conn (.aliasLookup _)) => decide (conn ≠ self)
  | _ => true

def next (x : Exchange) (m : Move) : Option Exchange :=
  if m.apart self then
    match m with
    | .call event sent =>
      match Client.outcome (Client.handle env event) x.client with
      | some (log, _, t) =>
        if aliasRequests x.client log event = sent then
          some { x.proceed t with lookups := (x.proceed t).lookups ++ sent }
        else none
      | none => none
    | .message msg =>
      match Client.outcome (Client.p2pSignalProcess env msg) x.client with
      | some (_, _, t) => some (x.proceed t)
      | none => none
    | .deed d => (d.next env' x.server).map fun server => { x with server := server }
    | .answer =>
      match x.lookups, (x.server.connections.lookup self).bind (·.game) with
      | a :: rest, some game =>
        match PeerServer.processMsg env' self (.aliasLookup (some ⟨a.name⟩)) x.server with
        | .ok (true, server) => some { x with
          server := server
          lookups := rest
          replies := x.replies ++ [(a, resolved x.server game a.name)] }
        | _ => none
      | _, _ => none
    | .reply =>
      match x.replies with
      | (_, r) :: rest =>
        match Client.outcome (Client.p2pSignalProcess env (.aliasResolved (some r))) x.client with
        | some (_, _, t) => some ({ x with replies := rest }.proceed t)
        | none => none
      | [] => none
  else none

variable {env env' self} in
theorem next_step {x y : Exchange} {m : Move} (h : next env env' self x m = some y) :
    Step env env' self x m y := by
  unfold next at h
  split at h
  case isFalse => cases h
  rename_i apart
  cases m with
  | call event sent =>
    dsimp only at h
    split at h
    · rename_i log u t ran
      split at h
      · rename_i sends
        cases h
        subst sends
        refine .call ?_ (Client.runs_of_outcome ran)
        rintro wsi data pastEnd fuel rfl
        cases apart
      · cases h
    · cases h
  | message msg =>
    dsimp only at h
    split at h
    · rename_i log b t ran
      cases h
      exact .message (of_decide_eq_true apart) (Client.runs_of_outcome ran)
    · cases h
  | deed d =>
    obtain ⟨server, goes, rfl⟩ := Option.map_eq_some_iff.mp h
    refine .deed ?_ (PeerServer.Deed.next_step goes)
    rintro p rfl
    exact of_decide_eq_true apart rfl
  | answer =>
    dsimp only at h
    split at h
    · rename_i a rest game first plays
      obtain ⟨this, here, playing⟩ := Option.bind_eq_some_iff.mp plays
      split at h
      · rename_i server returns
        cases h
        exact .answer first here playing returns
      · cases h
    · cases h
  | reply =>
    dsimp only at h
    split at h
    · rename_i a r rest first
      split at h
      · rename_i log b t ran
        cases h
        exact .reply first (Client.runs_of_outcome ran)
      · cases h
    · cases h

def play (moves : List Move) : Option (List (Exchange × Move) × Exchange) :=
  Trace.play (next env env' self) ⟨.initial, .new (.anonymous 0 ∅) [], [], []⟩ moves

variable {env env' self} in
theorem run_play {moves : List Move} {r : List (Exchange × Move) × Exchange}
    (played : play env env' self moves = some r) : Run env env' self r.1 r.2 :=
  Trace.of_play (fun _ _ _ => next_step)
    ⟨rfl, ⟨.anonymous 0 ∅, [], ⟨rfl, rfl⟩, rfl⟩, rfl, rfl⟩ played

def replied (env : Externals) (x : Exchange) : Option (AliasRequest × Client.State) :=
  match x.replies with
  | (a, r) :: _ =>
    (Client.outcome (Client.p2pSignalProcess env (.aliasResolved (some r))) x.client).map
      fun o => (a, o.2.2)
  | [] => none

variable {env} in
theorem runs_of_replied {x : Exchange} {a : AliasRequest} {t : Client.State}
    (h : replied env x = some (a, t)) : ∃ r rest log b, x.replies = (a, r) :: rest ∧
      Client.Runs (Client.p2pSignalProcess env (.aliasResolved (some r))) x.client log b t := by
  unfold replied at h
  split at h
  · rename_i a' r rest first
    obtain ⟨⟨log, b, u⟩, ran, eq⟩ := Option.map_eq_some_iff.mp h
    cases eq
    exact ⟨r, rest, log, b, first, Client.runs_of_outcome ran⟩
  · cases h

open PeerServer (plain meeting)

def attempt : List Move :=
  meeting.map .deed ++ [.call (.init (some []) (some []) (some []) none) [],
    .message (.helloClient (some ⟨1, none, none⟩)), .call (.virtualPeerForAlias [0x41]) [],
    .call (.sendto [1] 0x80000001 1 0) [⟨[0x41], some 1⟩]]

/-- The attempt is given up before its reply comes, and peer 2 takes the alias before the next
one is made. -/
def retry : List Move :=
  [.call (.disconnect 1 0x80000001) [], .call (.sendto [1] 0x80000001 1 0) [], .answer,
    .deed (.message 20 (.aliasRegister (some ⟨[0x41]⟩))),
    .call (.sendto [1] 0x80000001 1 0) [⟨[0x41], some 1⟩]]

/-- The reply to the lookup of the closed connection closes the new one. -/
theorem reply_crosses : ¬ ∀ past x, Run plain plain 10 past x → ∀ a r rest,
    x.replies = (a, r) :: rest → ∀ log b t,
      Client.Runs (Client.p2pSignalProcess plain (.aliasResolved (some r))) x.client log b t →
      Applied a x.client t := by
  intro all
  have closes : ((play plain plain 10 (attempt ++ retry)).bind fun run =>
      (replied plain run.2).map fun o => (run, o)).any (fun o =>
        decide (o.2.1.conn = none) &&
        decide ((o.1.2.client.heap.lookup 1).map (·.status) = some .connecting) &&
        decide ((o.2.2.heap.lookup 1).map (·.status) = some .closed)) = true := by decide +kernel
  obtain ⟨⟨⟨past, x⟩, a, t⟩, runs, seen⟩ := (Option.any_eq_true _ _).mp closes
  obtain ⟨run, played, replies⟩ := Option.bind_eq_some_iff.mp runs
  obtain ⟨o, replies, eq⟩ := Option.map_eq_some_iff.mp replies
  cases eq
  obtain ⟨r, rest, log, b, first, ran⟩ := runs_of_replied replies
  simp only [Bool.and_eq_true, decide_eq_true_eq] at seen
  obtain ⟨⟨given, before⟩, after⟩ := seen
  have applied := all past x (run_play played) a r rest first log b t ran
  rw [Applied, given] at applied
  rw [show t = x.client from applied, before] at after
  cases after

/-- The reply to the only lookup closes the connection that it was sent for. -/
theorem reply_applied : ∃ past x a r rest log b t, Run plain plain 10 past x ∧
    x.replies = (a, r) :: rest ∧
    Client.Runs (Client.p2pSignalProcess plain (.aliasResolved (some r))) x.client log b t ∧
    a.conn = some 1 ∧ (t.heap.lookup 1).map (·.status) = some .closed ∧ Applied a x.client t := by
  have closes : ((play plain plain 10 (attempt ++ [.answer])).bind fun run =>
      (replied plain run.2).map fun o => (run, o)).any (fun o =>
        decide (∀ m ∈ o.1.1, ¬ Repeats m) && decide (o.2.1.conn = some 1) &&
        decide ((o.2.2.heap.lookup 1).map (·.status) = some .closed)) = true := by decide +kernel
  obtain ⟨⟨⟨past, x⟩, a, t⟩, runs, seen⟩ := (Option.any_eq_true _ _).mp closes
  obtain ⟨run, played, replies⟩ := Option.bind_eq_some_iff.mp runs
  obtain ⟨o, replies, eq⟩ := Option.map_eq_some_iff.mp replies
  cases eq
  obtain ⟨r, rest, log, b, first, ran⟩ := runs_of_replied replies
  simp only [Bool.and_eq_true, decide_eq_true_eq] at seen
  obtain ⟨⟨single, given⟩, closed⟩ := seen
  exact ⟨past, x, a, r, rest, log, b, t, run_play played, first, ran, given, closed,
    replies_applied (run_play played) single first ran⟩

end

end Exchange

end HumbleNet
