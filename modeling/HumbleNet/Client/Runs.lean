import HumbleNet.Client.Event
import HumbleNet.Lib.Answered

/-! Rules for calls into the client that nobody interrupts. -/
namespace HumbleNet.Client

open Guarded

abbrev ClientLog := CallLog Query Query.Answer

/-- From `s` a call into the client that nobody interrupts makes these calls, returns `a`
and leaves `t`. -/
abbrev Runs {α : Type} (x : ClientM α) (s : State) (log : ClientLog) (a : α) (t : State) : Prop :=
  Ends Query.Allowed x s log a t

def frame (env : Externals) (msg : Message) : Bytes := p2pMessageFrame (env.finish msg).bytes

section rules

variable {α β : Type} {s t : State} {log : ClientLog} {b : β}

section allowed

variable {allowed : (q : Query) → State → q.Answer → State → Prop}

theorem ends_through_bind {e : Fault} {o : Option α} {f : α → ClientM β} :
    Ends allowed (through e o >>= f) s log b t ↔
      ∃ a, o = some a ∧ Ends allowed (f a) s log b t := by
  cases o with
  | none =>
    constructor
    · intro h
      cases h
    · rintro ⟨a, ⟨⟩, _⟩
  | some a =>
    constructor
    · exact fun h => ⟨a, rfl, h⟩
    · rintro ⟨_, ⟨⟩, h⟩
      exact h

theorem ends_deref_bind {conn : ConnPtr} {f : Connection → ClientM β} :
    Ends allowed (deref conn >>= f) s log b t ↔
      ∃ c, s.heap.lookup conn = some c ∧ Ends allowed (f c) s log b t :=
  ends_through_bind

theorem ends_derefSocket_bind {socket : SocketPtr} {f : InternalSocket → ClientM β} :
    Ends allowed (derefSocket socket >>= f) s log b t ↔
      ∃ it, s.sockets.lookup socket = some it ∧ Ends allowed (f it) s log b t :=
  ends_through_bind

theorem ends_derefDatagram_bind {conn : ConnPtr} {f : DatagramConnection → ClientM β} :
    Ends allowed (derefDatagram conn >>= f) s log b t ↔
      ∃ dg, s.datagrams.lookup conn = some dg ∧ Ends allowed (f dg) s log b t :=
  ends_through_bind

theorem ends_assert_bind {condition : Prop} [Decidable condition] {a : Assertion}
    {f : Unit → ClientM β} : Ends allowed (assert condition a >>= f) s log b t ↔
      condition ∧ Ends allowed (f ()) s log b t := by
  unfold assert
  split
  · rename_i holds
    exact ⟨fun h => ⟨holds, h⟩, fun h => h.2⟩
  · rename_i fails
    constructor
    · intro h
      cases h
    · exact fun h => absurd h.1 fails

@[simp] theorem ends_modifyTables_bind {g : Tables → Tables} {f : Unit → ClientM β} :
    Ends allowed (modifyTables g >>= f) s log b t ↔
      Ends allowed (f ()) { s with toTables := g s.toTables } log b t := Iff.rfl

end allowed

theorem runs_field_bind {o : Option α} {f : α → ClientM β} :
    Runs (field o >>= f) s log b t ↔ ∃ a, o = some a ∧ Runs (f a) s log b t :=
  ends_through_bind

theorem runs_deref_bind {conn : ConnPtr} {f : Connection → ClientM β} :
    Runs (deref conn >>= f) s log b t ↔
      ∃ c, s.heap.lookup conn = some c ∧ Runs (f c) s log b t :=
  ends_through_bind

theorem runs_assert_bind {condition : Prop} [Decidable condition] {a : Assertion}
    {f : Unit → ClientM β} : Runs (assert condition a >>= f) s log b t ↔
      condition ∧ Runs (f ()) s log b t := ends_assert_bind

theorem runs_mark_bind {point : Point} {f : Unit → ClientM β} :
    Runs (mark point >>= f) s log b t ↔
      ∃ l, Runs (f ()) s l b t ∧ log = ⟨.mark point, ()⟩ :: l := by
  constructor
  · intro h
    obtain ⟨_, l, _, rest, rfl⟩ := ends_ask_bind.mp h
    exact ⟨l, rest, rfl⟩
  · rintro ⟨l, rest, rfl⟩
    exact ends_ask_bind.mpr ⟨(), l, trivial, rest, rfl⟩

theorem runs_walk_bind {elements : List ConnPtr} {f : List ConnPtr → ClientM β} :
    Runs (walk elements >>= f) s log b t ↔
      ∃ walked l, List.Perm walked elements ∧ Runs (f walked) s l b t ∧
        log = ⟨.order elements, walked⟩ :: l := by
  constructor
  · intro h
    obtain ⟨walked, l, perm, rest, rfl⟩ := ends_ask_bind.mp h
    exact ⟨walked, l, perm, rest, rfl⟩
  · rintro ⟨walked, l, perm, rest, rfl⟩
    exact ends_ask_bind.mpr ⟨walked, l, perm, rest, rfl⟩

theorem runs_sendP2PMessage_bind {env : Externals} {msg : Message} {signal : P2PSignalConnection}
    {wsi : Wsi} (here : s.p2pConn = some signal) (opened : signal.wsi = some wsi)
    {f : Bool → ClientM β} : Runs (sendP2PMessage env msg >>= f) s log b t ↔
      ∃ (retval : Int) (l : ClientLog), (-1 ≤ retval ∧ retval ≤ (frame env msg).length) ∧
        Runs (f (decide (retval = (frame env msg).length))) s l b t ∧
        log = ⟨.libwebsocketWrite wsi (frame env msg), retval⟩ :: l := by
  constructor
  · intro h
    obtain ⟨l, sent, u, l', sends, rest, rfl⟩ := ends_bind.mp h
    replace sends := ends_get_bind.mp sends
    rw [here] at sends
    dsimp only at sends
    rw [opened] at sends
    obtain ⟨retval, l'', answer, last, rfl⟩ := ends_unguarded_bind.mp sends
    obtain ⟨rfl, rfl, rfl⟩ := ends_pure.mp last
    exact ⟨retval, l', answer, rest, rfl⟩
  · rintro ⟨retval, l, answer, rest, rfl⟩
    have sends : Runs (sendP2PMessage env msg) s [⟨.libwebsocketWrite wsi (frame env msg), retval⟩]
        (decide (retval = (frame env msg).length)) s := by
      refine ends_get_bind.mpr ?_
      rw [here]
      dsimp only
      rw [opened]
      exact ends_unguarded_bind.mpr ⟨retval, [], answer, ends_pure.mpr ⟨rfl, rfl, rfl⟩, rfl⟩
    exact ends_bind.mpr ⟨_, _, _, _, sends, rest, rfl⟩

end rules

end HumbleNet.Client
