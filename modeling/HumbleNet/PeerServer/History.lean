import HumbleNet.Lib.Trace
import HumbleNet.PeerServer.Safety

/-! The server as a transition system that takes one message at a time. A history is a run
of it; every state the callbacks reach is at the end of one. -/
namespace HumbleNet.PeerServer

open Program

/-- What can happen to the server. The arrival of bytes is taken apart: they are appended,
then each message is processed and its bytes are erased. -/
inductive Deed where
  | opened (wsi : Wsi) (conn : ConnPtr)
  | closed (wsi : Wsi)
  | arrived (conn : ConnPtr) (data : Bytes)
  | message (self : ConnPtr) (msg : Message)
  | erased (conn : ConnPtr) (size : Nat)
  | writeable (wsi : Wsi) (retval : Int)

inductive Step (env : Externals) : Server → Deed → Server → Prop where
  | opened {s t : Server} {wsi : Wsi} {conn : ConnPtr} {retval : Int}
    (allowed : Allowed s (.established wsi conn))
    (returns : Returns (established wsi conn) s retval t) : Step env s (.opened wsi conn) t
  | closed {s t : Server} {wsi : Wsi} {retval : Int} (returns : Returns (closed wsi) s retval t) :
    Step env s (.closed wsi) t
  | arrived (s : Server) (conn : ConnPtr) (data : Bytes) :
    Step env s (.arrived conn data)
      (s.updateConnection conn fun c => { c with recvBuf := c.recvBuf ++ data })
  | message {s t : Server} {self : ConnPtr} {msg : Message} {b : Bool}
    (returns : Returns (processMsg env self msg) s b t) : Step env s (.message self msg) t
  | erased (s : Server) (conn : ConnPtr) (size : Nat) :
    Step env s (.erased conn size)
      (s.updateConnection conn fun c => { c with recvBuf := c.recvBuf.drop size })
  | writeable {s t : Server} {wsi : Wsi} {written retval : Int}
    (returns : Returns (callbackHumblepeer env (.writeable wsi written)) s retval t) :
    Step env s (.writeable wsi written) t

def Started (s : Server) : Prop :=
  ∃ gameDB stunServerAddress, gameDB.Initial ∧ s = Server.new gameDB stunServerAddress

abbrev History (env : Externals) : List (Server × Deed) → Server → Prop :=
  Trace Started (Step env)

section

variable {env : Externals}

/-! ### Callbacks are histories -/

theorem receive_steps {s t : Server} {wsi : Wsi} {data : Bytes} {pastEnd : Bytes → Bytes}
    {retval : Int} (returns : Returns (receive env wsi data pastEnd) s retval t) :
    Trace.Reaches (Step env) s t := by
  apply receive_follows Trace.Reaches.refl Trace.Reaches.trans returns
  · exact fun conn u _ => .single (.arrived u conn data)
  · exact fun conn size u _ => .single (.erased u conn size)
  · exact fun conn msg u b v _ h => .single (.message h)

theorem callback_steps {s t : Server} {event : LwsEvent} {retval : Int}
    (allowed : Allowed s event) (h : Returns (callbackHumblepeer env event) s retval t) :
    Trace.Reaches (Step env) s t := by
  cases event with
  | established wsi conn => exact .single (.opened allowed h)
  | closed wsi => exact .single (.closed h)
  | receive wsi data pastEnd => exact receive_steps h
  | writeable wsi written => exact .single (.writeable h)

theorem reach_history {s : Server} (reached : Reach env s) : ∃ past, History env past s := by
  induction reached with
  | start initial stunServerAddress => exact ⟨[], .start ⟨_, stunServerAddress, initial, rfl⟩⟩
  | callback _ allowed returns ih =>
    obtain ⟨past, before⟩ := ih
    obtain ⟨later, after⟩ := (callback_steps allowed returns).extend before
    exact ⟨_, after⟩

theorem active_history {s : Server} (active : Active env s) : ∃ past, History env past s := by
  induction active with
  | idle reached => exact reach_history reached
  | arrived _ ih =>
    obtain ⟨past, before⟩ := ih
    exact ⟨_, .next before (.arrived _ _ _)⟩
  | processed _ returns ih =>
    obtain ⟨past, before⟩ := ih
    exact ⟨_, .next (.next before (.message returns)) (.erased _ _ _)⟩

theorem writeable_cases {s t : Server} {wsi : Wsi} {written retval : Int}
    (h : Returns (callbackHumblepeer env (.writeable wsi written)) s retval t) :
    (t = { s with writable := StdSet.erase wsi s.writable } ∧
      ∀ conn c, s.signalConnections.lookup wsi = some conn → s.connections.lookup conn = some c →
        c.wsi ≠ wsi ∨ c.sendBuf = [] ∨ written < 0) ∨
    ∃ conn c, s.signalConnections.lookup wsi = some conn ∧ s.connections.lookup conn = some c ∧
      c.wsi = wsi ∧ 0 ≤ written ∧ written.toNat ≤ c.sendBuf.length ∧
      t = { s.updateConnection conn fun c => { c with sendBuf := c.sendBuf.drop written.toNat } with
        writable :=
          if c.sendBuf.length = written.toNat then StdSet.erase wsi s.writable
          else StdSet.insert wsi (StdSet.erase wsi s.writable) } := by
  obtain ⟨_, u, asked, h⟩ := returns_bind.mp h
  simp only [writeable, returns_bind, returns_get] at h
  obtain ⟨_, _, ⟨rfl, rfl⟩, h⟩ := h
  rw [returns_modify.mp asked] at h
  dsimp only at h
  split at h
  · rename_i missing
    obtain ⟨_, rfl⟩ := returns_pure.mp h
    refine Or.inl ⟨rfl, fun conn c owned => ?_⟩
    rw [missing] at owned
    cases owned
  · rename_i conn owned
    obtain ⟨c, live, h⟩ := returns_deref_bind.mp h
    have only : ∀ conn' c', s.signalConnections.lookup wsi = some conn' →
        s.connections.lookup conn' = some c' → c' = c := by
      intro conn' c' owned' live'
      rw [owned] at owned'
      cases owned'
      rw [live] at live'
      exact (Option.some.inj live').symm
    split at h
    · rename_i foreign
      obtain ⟨_, rfl⟩ := returns_pure.mp h
      exact Or.inl ⟨rfl, fun conn' c' o l => only conn' c' o l ▸ Or.inl foreign⟩
    · rename_i own
      split at h
      · rename_i empty
        obtain ⟨_, rfl⟩ := returns_pure.mp h
        exact Or.inl ⟨rfl, fun conn' c' o l =>
          only conn' c' o l ▸ Or.inr (Or.inl (List.isEmpty_iff.mp empty))⟩
      · split at h
        · rename_i failed
          obtain ⟨_, rfl⟩ := returns_pure.mp h
          exact Or.inl ⟨rfl, fun conn' c' o l => Or.inr (Or.inr failed)⟩
        · rename_i accepted
          split at h
          · exact absurd h returns_fault
          · rename_i within
            have same := not_not.mp own
            refine Or.inr ⟨conn, c, owned, live, same, Int.not_lt.mp accepted,
              Nat.not_lt.mp within, ?_⟩
            simp only [returns_bind, returns_modify] at h
            obtain ⟨_, v, rfl, h⟩ := h
            split at h
            · rename_i all
              obtain ⟨_, rfl⟩ := returns_pure.mp h
              rw [if_pos all]
              rfl
            · rename_i some_left
              simp only [triggerWrite, returns_bind, returns_modify, returns_pure] at h
              obtain ⟨_, w, rfl, _, rfl⟩ := h
              rw [if_neg some_left, same]
              rfl

/-! ### Histories keep the books -/

theorem step_books {s t : Server} {d : Deed} (step : Step env s d t) : Books s t := by
  cases step with
  | opened allowed returns => exact established_books allowed returns
  | closed returns => exact closed_books _ s _ t returns
  | arrived conn data =>
    exact Books.of_eq (registry_updateConnection_same fun _ => ⟨rfl, rfl, rfl⟩)
  | message returns => exact processMsg_books _ _ s _ t returns
  | erased conn size =>
    exact Books.of_eq (registry_updateConnection_same fun _ => ⟨rfl, rfl, rfl⟩)
  | writeable returns => exact @callback_books env s t (.writeable _ _) _ trivial returns

variable {past : List (Server × Deed)} {s : Server}

theorem history_books (history : History env past s) :
    Registry.Run Registry.empty s.registry := by
  refine history.invariant (I := fun _ s => Registry.Run Registry.empty s.registry) ?_ ?_
  · rintro _ ⟨gameDB, stunServerAddress, _, rfl⟩
    exact Relation.ReflTransGen.refl
  · intro past s d t _ before step
    exact before.trans (step_books step)

theorem history_linked (history : History env past s) : s.registry.Linked :=
  Registry.linked_empty.run (history_books history)

theorem history_exact (history : History env past s)
    (few : ∀ g, s.idsHandedOut g < 2 ^ 32 - 1) : s.registry.Exact :=
  Registry.exact_empty.run Registry.linked_empty (history_books history) few

theorem few_of_length (few : s.handedOut.length < 2 ^ 32 - 1) (g : GameId) :
    s.idsHandedOut g < 2 ^ 32 - 1 :=
  Nat.lt_of_le_of_lt List.countP_le_length few

theorem books_issued {s t : Server} (books : Books s t) (g : GameId) :
    s.idsHandedOut g ≤ t.idsHandedOut g :=
  Registry.issued_run books g

/-! ### Computed histories -/

def Deed.run (env : Externals) : Deed → ServerM Unit
  | .opened wsi conn => discard (established wsi conn)
  | .closed wsi => discard (PeerServer.closed wsi)
  | .arrived conn data => modify fun s => s.updateConnection conn fun c =>
    { c with recvBuf := c.recvBuf ++ data }
  | .message self msg => discard (processMsg env self msg)
  | .erased conn size => modify fun s => s.updateConnection conn fun c =>
    { c with recvBuf := c.recvBuf.drop size }
  | .writeable wsi retval => discard (callbackHumblepeer env (.writeable wsi retval))

/-- What libwebsockets and the allocator have to respect before a deed. -/
def Deed.possible (s : Server) : Deed → Bool
  | .opened wsi conn => decide (wsi ∉ s.signalConnections) && decide (conn ∉ s.connections)
  | _ => true

theorem returns_discard {α : Type} {x : ServerM α} {s t : Server} {u : Unit}
    (h : Returns (discard x) s u t) : ∃ a, Returns x s a t := by
  obtain ⟨a, ran, _⟩ := returns_map.mp h
  exact ⟨a, ran⟩

theorem Deed.run_step {d : Deed} {s t : Server} {u : Unit} (possible : d.possible s)
    (h : Returns (d.run env) s u t) : Step env s d t := by
  cases d with
  | opened wsi conn =>
    obtain ⟨retval, returns⟩ := returns_discard h
    simp only [Deed.possible, Bool.and_eq_true, decide_eq_true_eq] at possible
    exact .opened possible returns
  | closed wsi =>
    obtain ⟨retval, returns⟩ := returns_discard h
    exact .closed returns
  | arrived conn data =>
    rw [returns_modify.mp h]
    exact .arrived s conn data
  | message self msg =>
    obtain ⟨b, returns⟩ := returns_discard h
    exact .message returns
  | erased conn size =>
    rw [returns_modify.mp h]
    exact .erased s conn size
  | writeable wsi written =>
    obtain ⟨retval, returns⟩ := returns_discard h
    exact .writeable returns

def Deed.next (env : Externals) (s : Server) (d : Deed) : Option Server :=
  if d.possible s then
    match d.run env s with
    | .ok (_, t) => some t
    | .error _ => none
  else none

theorem Deed.next_step {s : Server} {d : Deed} {t : Server} (h : d.next env s = some t) :
    Step env s d t := by
  unfold Deed.next at h
  split at h
  · rename_i possible
    split at h
    · rename_i u t' ran
      cases h
      exact Deed.run_step possible ran
    · cases h
  · cases h

def play (env : Externals) (deeds : List Deed) : Option (List (Server × Deed) × Server) :=
  Trace.play (Deed.next env) (Server.new (.anonymous 0 ∅) []) deeds

theorem play_history {deeds : List Deed} {r : List (Server × Deed) × Server}
    (played : play env deeds = some r) : History env r.1 r.2 :=
  @Trace.of_play _ _ Started (Step env) (Deed.next env) (fun _ _ _ h => Deed.next_step h) _
    ⟨.anonymous 0 ∅, [], ⟨rfl, rfl⟩, rfl⟩ _ _ played

theorem played {deeds : List Deed} {seen : List (Server × Deed) × Server → Bool}
    (h : (play env deeds).any seen = true) :
    ∃ past s, History env past s ∧ seen (past, s) = true := by
  obtain ⟨⟨past, s⟩, run, now⟩ := (Option.any_eq_true _ _).mp h
  exact ⟨past, s, play_history run, now⟩

def plain : Externals :=
  ⟨64, fun _ => true, fun _ => .none, fun _ => Body.empty, fun _ => Digest.zero⟩

def greeting : Message := .helloServer (some ⟨0, 1, [0x67], [], none, none, none⟩)

def meeting : List Deed :=
  [.opened 1 10, .message 10 greeting, .opened 2 20, .message 20 greeting]

end

end HumbleNet.PeerServer
