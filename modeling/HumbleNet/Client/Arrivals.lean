import HumbleNet.Client.ReceiveBuffer
import HumbleNet.Client.SignalStream
import HumbleNet.Fragmentation

/-! What arrives on the signaling websocket of a client. However the transport cuts it, the
client does what processing the messages in it one after the other does. -/
namespace HumbleNet.Client

open Guarded Incremental Fragmentation

variable (env : Externals)

def processAll : List Message → ClientM Bool
  | [] => pure true
  | m :: ms => do if ← p2pSignalProcess env m then processAll ms else pure false

/-- The pieces of an arrival, one callback each. A callback that returns -1 has its websocket
closed, so that none follows. -/
def receiveAll (wsi : Wsi) (fuel : Nat) : List Chunk → ClientM Bool
  | [] => pure true
  | c :: cs => do
    let retval ← signalOnData env wsi c.bytes c.pastEnd fuel
    if retval = 0 then receiveAll wsi fuel cs else pure false

def parseReceived (serial : Nat) (pastEnd : Bytes → Bytes) (fuel : Nat) : ClientM Bool :=
  parseMessage
    (fun recvBuf => parseHeader env.sizeBits env.verifyMessageBuffer (pastEnd recvBuf) recvBuf)
    (do pure (← derefSignal serial).recvBuf)
    (fun size => assignSignal serial fun c => { c with recvBuf := c.recvBuf.drop size })
    (fault .overrun) (fun buff => p2pSignalProcess env (env.getMessage buff)) fuel

def concludeData (retval : Bool) : ClientM Int :=
  if retval then pure 0
  else do
    resetSignal
    pure (-1)

/-- The messages in a stream, and what is left of it. -/
def heard (bytes : Bytes) : Found UInt8 Bytes := collect (frameReader env.verifyMessageBuffer) bytes

def afterStream (bytes : Bytes) (ok : Bool) (u : State) : State :=
  if ok then u.withRecv (heard env bytes).rest else { u with p2pConn := none }

/-- From `s` the client takes a stream of bytes as the messages in it, and comes to `t`; it is
not `ok` if a message is refused or the stream cannot be read to its end. -/
def Hears (bytes : Bytes) (s : State) (log : ClientLog) (ok : Bool) (t : State) : Prop :=
  ∃ accepted u, Runs (processAll env ((heard env bytes).items.map env.getMessage)) s log accepted
    u ∧ ok = (accepted && (heard env bytes).waits) ∧ t = afterStream env bytes ok u

section

variable {env} {s t : State} {log : ClientLog} {conn : P2PSignalConnection}

theorem unseen_processAll (msgs : List Message) : Unseen (processAll env msgs) := by
  induction msgs with
  | nil => exact unseen_pure true
  | cons m ms ih =>
    refine unseen_bind (unseen_process m) fun ok => ?_
    cases ok
    · exact unseen_pure false
    · exact ih

theorem runs_withRecv {α : Type} {x : ClientM α} (unseen : Unseen x)
    (here : s.p2pConn = some conn) (bytes : Bytes) {a : α} :
    Runs x (s.withRecv bytes) log a t ↔
      ∃ u, Runs x s log a u ∧ u.p2pConn = some conn ∧ t = u.withRecv bytes := by
  constructor
  · intro ends
    obtain ⟨kept, back⟩ := unseen conn.recvBuf _ _ _ _ ends
    rw [withRecv_withRecv, withRecv_self here] at back
    have holds : t.p2pConn = some { conn with recvBuf := bytes } := by
      rw [kept]
      simp only [State.withRecv, here, Option.map_some]
    refine ⟨t.withRecv conn.recvBuf, back, ?_, ?_⟩
    · simp only [State.withRecv, holds, Option.map_some]
    · rw [withRecv_withRecv]
      exact (withRecv_self holds).symm
  · rintro ⟨u, ends, _, rfl⟩
    exact (unseen bytes _ _ _ _ ends).2

theorem runs_derefSignal_bind (here : s.p2pConn = some conn) {β : Type}
    {f : P2PSignalConnection → ClientM β} {b : β} :
    Runs (derefSignal conn.serial >>= f) s log b t ↔ Runs (f conn) s log b t := by
  constructor
  · intro ends
    obtain ⟨l, a, u, l', first, rest, rfl⟩ := ends_bind.mp ends
    simp only [derefSignal, ends_get_bind, here, if_true] at first
    obtain ⟨rfl, rfl, rfl⟩ := ends_pure.mp first
    exact rest
  · intro rest
    refine ends_bind.mpr ⟨[], conn, s, log, ?_, rest, rfl⟩
    simp only [derefSignal, ends_get_bind, here, if_true]
    exact ends_pure.mpr ⟨rfl, rfl, rfl⟩

theorem runs_assignSignal_bind (here : s.p2pConn = some conn) {β : Type}
    {f : P2PSignalConnection → P2PSignalConnection} {g : Unit → ClientM β} {b : β} :
    Runs (assignSignal conn.serial f >>= g) s log b t ↔
      Runs (g ()) { s with p2pConn := some (f conn) } log b t := by
  constructor
  · intro ends
    obtain ⟨l, a, u, l', first, rest, rfl⟩ := ends_bind.mp ends
    obtain ⟨rfl, rfl⟩ := ends_modify.mp ((runs_derefSignal_bind here).mp first)
    exact rest
  · intro rest
    refine ends_bind.mpr ⟨[], (), _, log, ?_, rest, rfl⟩
    exact (runs_derefSignal_bind here).mpr (ends_modify.mpr ⟨rfl, rfl⟩)

theorem here_withRecv (here : s.p2pConn = some conn) (bytes : Bytes) :
    (s.withRecv bytes).p2pConn = some { conn with recvBuf := bytes } := by
  simp only [State.withRecv, here, Option.map_some]

theorem withRecv_assign (here : s.p2pConn = some conn) (bytes : Bytes) (f : Bytes → Bytes) :
    { s.withRecv bytes with p2pConn := some { conn with recvBuf := f bytes } } =
      s.withRecv (f bytes) := by
  simp only [State.withRecv, here, Option.map_some]

theorem runs_concludeData (ok : Bool) {retval : Int} :
    Runs (concludeData ok) s log retval t ↔ log = [] ∧ retval = (if ok then 0 else -1) ∧
      t = if ok then s else { s with p2pConn := none } := by
  cases ok with
  | true => simp [concludeData]
  | false =>
    simp only [concludeData, resetSignal, Bool.false_eq_true, if_false, ends_modify_bind, ends_pure]

theorem conclude_nothing {bytes : Bytes} {waits : Bool}
    (nothing : heard env bytes = ⟨[], bytes, waits⟩) {retval : Int} :
    Runs (concludeData waits) (s.withRecv bytes) log retval t ↔
      ∃ ok, Hears env bytes s log ok t ∧ retval = if ok then 0 else -1 := by
  have ended : (if waits then s.withRecv bytes else { s.withRecv bytes with p2pConn := none }) =
      afterStream env bytes waits s := by
    simp only [afterStream, nothing]
    rfl
  rw [runs_concludeData, ended]
  simp only [Hears, nothing]
  constructor
  · rintro ⟨rfl, rfl, rfl⟩
    exact ⟨waits, ⟨true, s, ends_pure.mpr ⟨rfl, rfl, rfl⟩, rfl, rfl⟩, rfl⟩
  · rintro ⟨_, ⟨accepted, u, ends, rfl, rfl⟩, rfl⟩
    obtain ⟨rfl, rfl, rfl⟩ := ends_pure.mp ends
    exact ⟨rfl, rfl, rfl⟩

theorem processAll_append (ms ms' : List Message) :
    processAll env (ms ++ ms') =
      processAll env ms >>= fun ok => if ok then processAll env ms' else pure false := by
  induction ms with
  | nil => simp only [List.nil_append, processAll, pure_bind, if_true]
  | cons m ms ih =>
    simp only [List.cons_append, processAll, bind_assoc, ih]
    refine congrArg (p2pSignalProcess env m >>= ·) (funext fun ok => ?_)
    cases ok <;> simp

theorem hears_item {bytes buff : Bytes} {size : Nat} {ok : Bool}
    (item : (frameReader env.verifyMessageBuffer).read bytes = .item buff size) :
    Hears env bytes s log ok t ↔ ∃ l accepted u l',
      Runs (p2pSignalProcess env (env.getMessage buff)) s l accepted u ∧ log = l ++ l' ∧
      if accepted then Hears env (bytes.drop size) u l' ok t
      else l' = [] ∧ ok = false ∧ t = { u with p2pConn := none } := by
  have found : heard env bytes = { heard env (bytes.drop size) with
    items := buff :: (heard env (bytes.drop size)).items } := collect_item item
  simp only [Hears, afterStream, found, List.map_cons, processAll]
  constructor
  · rintro ⟨all, w, ends, rfl, rfl⟩
    obtain ⟨l, accepted, u, l', first, rest, rfl⟩ := ends_bind.mp ends
    refine ⟨l, accepted, u, l', first, rfl, ?_⟩
    cases accepted with
    | true => exact ⟨all, w, rest, rfl, rfl⟩
    | false =>
      obtain ⟨rfl, rfl, rfl⟩ := ends_pure.mp rest
      exact ⟨rfl, rfl, rfl⟩
  · rintro ⟨l, accepted, u, l', first, rfl, rest⟩
    cases accepted with
    | true =>
      obtain ⟨all, w, rest, rfl, rfl⟩ := rest
      exact ⟨all, w, ends_bind.mpr ⟨l, true, u, l', first, rest, rfl⟩, rfl, rfl⟩
    | false =>
      obtain ⟨rfl, rfl, rfl⟩ := rest
      exact ⟨false, u, ends_bind.mpr
        ⟨l, false, u, [], first, ends_pure.mpr ⟨rfl, rfl, rfl⟩, rfl⟩, rfl, rfl⟩

theorem parseReceived_iff (bits : env.sizeBits = 64) (here : s.p2pConn = some conn)
    (pastEnd : Bytes → Bytes) (fuel : Nat) (bytes : Bytes) (enough : bytes.length ≤ fuel)
    {retval : Int} :
    Runs (parseReceived env conn.serial pastEnd fuel >>= concludeData) (s.withRecv bytes) log
        retval t ↔ ∃ ok, Hears env bytes s log ok t ∧ retval = if ok then 0 else -1 := by
  induction fuel generalizing s bytes log with
  | zero =>
    have empty : bytes = [] := List.length_eq_zero_iff.mp (by omega)
    exact conclude_nothing (collect_more (by rw [empty]; rfl))
  | succ fuel ih =>
    have look : parseHeader env.sizeBits env.verifyMessageBuffer (pastEnd bytes) bytes =
        parseHeader 64 env.verifyMessageBuffer [] bytes := by rw [bits, header_pastEnd]
    rw [parseReceived, parseMessage]
    simp only [bind_assoc, pure_bind]
    rw [runs_derefSignal_bind (here_withRecv here bytes)]
    simp only [look]
    cases hp : parseHeader 64 env.verifyMessageBuffer [] bytes with
    | wait =>
      have more : (frameReader env.verifyMessageBuffer).read bytes = .more := congrArg verdict hp
      exact conclude_nothing (collect_more more)
    | refuse =>
      have bad : (frameReader env.verifyMessageBuffer).read bytes = .bad := congrArg verdict hp
      exact conclude_nothing (collect_bad bad)
    | overrun => exact absurd hp (header_within _ _)
    | message buff size =>
      have item : (frameReader env.verifyMessageBuffer).read bytes = .item buff size :=
        congrArg verdict hp
      have pos := (frameReader env.verifyMessageBuffer).item_pos item
      have room : (bytes.drop size).length ≤ fuel := by
        rw [List.length_drop]
        omega
      simp only [bind_assoc, hears_item item]
      -- the bytes of the message are erased once it has been accepted
      have after : ∀ (u : State) (accepted : Bool) (l' : ClientLog), u.p2pConn = some conn →
          (Runs ((if accepted then do
              assignSignal conn.serial fun c => { c with recvBuf := c.recvBuf.drop size }
              parseReceived env conn.serial pastEnd fuel
            else pure false) >>= concludeData) (u.withRecv bytes) l' retval t ↔
          ∃ ok, (if accepted then Hears env (bytes.drop size) u l' ok t
            else l' = [] ∧ ok = false ∧ t = { u with p2pConn := none }) ∧
            retval = if ok then 0 else -1) := by
        intro u accepted l' there
        cases accepted with
        | true =>
          simp only [if_true, bind_assoc]
          refine (runs_assignSignal_bind (here_withRecv there bytes)).trans ?_
          simp only [withRecv_assign there bytes (List.drop size)]
          exact ih there (bytes.drop size) room
        | false =>
          simp only [Bool.false_eq_true, if_false, pure_bind]
          refine (runs_concludeData false).trans ?_
          constructor
          · rintro ⟨rfl, rfl, rfl⟩
            exact ⟨false, ⟨rfl, rfl, rfl⟩, rfl⟩
          · rintro ⟨_, ⟨rfl, rfl, rfl⟩, rfl⟩
            exact ⟨rfl, rfl, rfl⟩
      constructor
      · intro ends
        obtain ⟨l, accepted, v, l', front, rest, rfl⟩ := ends_bind.mp ends
        obtain ⟨u, first, there, rfl⟩ := (runs_withRecv (unseen_process _) here bytes).mp front
        obtain ⟨ok, later, eq⟩ := (after u accepted l' there).mp rest
        exact ⟨ok, ⟨l, accepted, u, l', first, rfl, later⟩, eq⟩
      · rintro ⟨ok, ⟨l, accepted, u, l', first, rfl, later⟩, eq⟩
        obtain ⟨kept, swapped⟩ := unseen_process _ bytes _ _ _ _ first
        exact ends_bind.mpr ⟨l, accepted, u.withRecv bytes, l', swapped,
          (after u accepted l' (kept.trans here)).mpr ⟨ok, later, eq⟩, rfl⟩

theorem signalOnData_iff (bits : env.sizeBits = 64) (here : s.p2pConn = some conn) {wsi : Wsi}
    (open_wsi : conn.wsi = some wsi) (c : Chunk) (fuel : Nat) (buf : Bytes)
    (enough : (buf ++ c.bytes).length ≤ fuel) {retval : Int} :
    Runs (signalOnData env wsi c.bytes c.pastEnd fuel) (s.withRecv buf) log retval t ↔
      ∃ ok, Hears env (buf ++ c.bytes) s log ok t ∧ retval = if ok then 0 else -1 := by
  have grown := withRecv_assign here buf fun _ => buf ++ c.bytes
  have parsed : Runs (parseReceived env conn.serial c.pastEnd fuel >>= concludeData)
      (s.withRecv (buf ++ c.bytes)) log retval t ↔ _ :=
    parseReceived_iff bits here c.pastEnd fuel (buf ++ c.bytes) enough
  rw [← parsed, ← grown, signalOnData]
  refine ends_get_bind.trans ?_
  rw [here_withRecv here buf]
  dsimp only
  rw [if_neg (not_not.mpr open_wsi)]
  exact runs_assignSignal_bind (here_withRecv here buf)
    (f := fun o => { o with recvBuf := o.recvBuf ++ c.bytes })
    (g := fun _ => parseReceived env conn.serial c.pastEnd fuel >>= concludeData)

theorem hears_append {buf more : Bytes} {ok : Bool} :
    Hears env (buf ++ more) s log ok t ↔ ∃ l accepted u l',
      Runs (processAll env ((heard env buf).items.map env.getMessage)) s l accepted u ∧
      log = l ++ l' ∧
      if accepted && (heard env buf).waits then Hears env ((heard env buf).rest ++ more) u l' ok t
      else l' = [] ∧ ok = false ∧ t = { u with p2pConn := none } := by
  have found := collect_append (R := frameReader env.verifyMessageBuffer) buf more
  change heard env (buf ++ more) = if (heard env buf).waits then
    { heard env ((heard env buf).rest ++ more) with
      items := (heard env buf).items ++ (heard env ((heard env buf).rest ++ more)).items }
    else ⟨(heard env buf).items, (heard env buf).rest ++ more, false⟩ at found
  simp only [Hears, afterStream, found]
  cases waits : (heard env buf).waits with
  | false =>
    simp only [Bool.false_eq_true, if_false, Bool.and_false]
    constructor
    · rintro ⟨accepted, u, ends, rfl, rfl⟩
      exact ⟨log, accepted, u, [], ends, (List.append_nil _).symm, rfl, rfl, rfl⟩
    · rintro ⟨l, accepted, u, _, ends, rfl, rfl, rfl, rfl⟩
      exact ⟨accepted, u, by simpa using ends, rfl, rfl⟩
  | true =>
    simp only [if_true, Bool.and_true, List.map_append, processAll_append]
    constructor
    · rintro ⟨all, w, ends, rfl, rfl⟩
      obtain ⟨l, accepted, u, l', first, rest, rfl⟩ := ends_bind.mp ends
      refine ⟨l, accepted, u, l', first, rfl, ?_⟩
      cases accepted with
      | true => exact ⟨all, w, rest, rfl, rfl⟩
      | false =>
        obtain ⟨rfl, rfl, rfl⟩ := ends_pure.mp rest
        exact ⟨rfl, rfl, rfl⟩
    · rintro ⟨l, accepted, u, l', first, rfl, rest⟩
      cases accepted with
      | true =>
        obtain ⟨all, w, rest, rfl, rfl⟩ := rest
        exact ⟨all, w, ends_bind.mpr ⟨l, true, u, l', first, rest, rfl⟩, rfl, rfl⟩
      | false =>
        obtain ⟨rfl, rfl, rfl⟩ := rest
        exact ⟨false, u, ends_bind.mpr
          ⟨l, false, u, [], first, ends_pure.mpr ⟨rfl, rfl, rfl⟩, rfl⟩, rfl, rfl⟩

theorem receiveAll_iff (bits : env.sizeBits = 64) (here : s.p2pConn = some conn) {wsi : Wsi}
    (open_wsi : conn.wsi = some wsi) (fuel : Nat) (chunks : List Chunk) (buf : Bytes)
    (waits : (frameReader env.verifyMessageBuffer).read buf = .more)
    (enough : (buf ++ (chunks.map Chunk.bytes).flatten).length ≤ fuel) {ok : Bool} :
    Runs (receiveAll env wsi fuel chunks) (s.withRecv buf) log ok t ↔
      Hears env (buf ++ (chunks.map Chunk.bytes).flatten) s log ok t := by
  induction chunks generalizing s buf log with
  | nil =>
    have nothing : heard env buf = ⟨[], buf, true⟩ := collect_more waits
    simp only [List.map_nil, List.flatten_nil, List.append_nil, Hears, afterStream, nothing,
      processAll, receiveAll]
    constructor
    · intro ends
      obtain ⟨rfl, rfl, rfl⟩ := ends_pure.mp ends
      exact ⟨true, s, ends_pure.mpr ⟨rfl, rfl, rfl⟩, rfl, rfl⟩
    · rintro ⟨accepted, u, ends, rfl, rfl⟩
      obtain ⟨rfl, rfl, rfl⟩ := ends_pure.mp ends
      exact ends_pure.mpr ⟨rfl, rfl, rfl⟩
  | cons c cs ih =>
    have whole : buf ++ ((c :: cs).map Chunk.bytes).flatten =
        (buf ++ c.bytes) ++ (cs.map Chunk.bytes).flatten := by simp
    rw [whole, List.length_append] at enough
    rw [whole, hears_append]
    have one : ∀ (l : ClientLog) (v : State) (retval : Int),
        Runs (signalOnData env wsi c.bytes c.pastEnd fuel) (s.withRecv buf) l retval v ↔ _ :=
      fun _ _ _ => signalOnData_iff bits here open_wsi c fuel buf (by omega)
    have shrinks : (heard env (buf ++ c.bytes)).rest.length ≤ (buf ++ c.bytes).length :=
      collect_rest_le _
    -- the next callback finds what this one has left
    have after : ∀ (accepted : Bool) (u : State) (l' : ClientLog), u.p2pConn = some conn →
        (Runs (if (if accepted && (heard env (buf ++ c.bytes)).waits then (0 : Int) else -1) = 0 then
            receiveAll env wsi fuel cs else pure false)
          (afterStream env (buf ++ c.bytes) (accepted && (heard env (buf ++ c.bytes)).waits) u) l'
          ok t ↔
        if accepted && (heard env (buf ++ c.bytes)).waits then
          Hears env ((heard env (buf ++ c.bytes)).rest ++ (cs.map Chunk.bytes).flatten) u l' ok t
        else l' = [] ∧ ok = false ∧ t = { u with p2pConn := none }) := by
      intro accepted u l' there
      cases go : accepted && (heard env (buf ++ c.bytes)).waits with
      | false => exact ends_pure
      | true =>
        have settled := (Bool.and_eq_true _ _ ▸ go).2
        refine ih there _ (collect_waits settled) ?_
        rw [List.length_append]
        omega
    constructor
    · intro ends
      obtain ⟨l, retval, v, l', front, rest, rfl⟩ := ends_bind.mp ends
      obtain ⟨_, ⟨accepted, u, first, rfl, rfl⟩, rfl⟩ := (one _ _ _).mp front
      have there := (unseen_processAll _ [] _ _ _ _ first).1.trans here
      exact ⟨l, accepted, u, l', first, rfl, (after accepted u l' there).mp rest⟩
    · rintro ⟨l, accepted, u, l', first, rfl, rest⟩
      have there := (unseen_processAll _ [] _ _ _ _ first).1.trans here
      exact ends_bind.mpr ⟨l, _, _, l', (one _ _ _).mpr ⟨_, ⟨accepted, u, first, rfl, rfl⟩, rfl⟩,
        (after accepted u l' there).mpr rest, rfl⟩

/-- What a client does with the bytes that arrive on its signaling websocket, if nobody
interrupts it, does not depend on how they are cut: it takes the messages in them, one after the
other, until one is refused or the stream cannot be read. -/
theorem arrivals_are_heard (bits : env.sizeBits = 64) (here : s.p2pConn = some conn) {wsi : Wsi}
    (open_wsi : conn.wsi = some wsi)
    (waits : (frameReader env.verifyMessageBuffer).read conn.recvBuf = .more) (fuel : Nat)
    (chunks : List Chunk)
    (enough : (conn.recvBuf ++ (chunks.map Chunk.bytes).flatten).length ≤ fuel) (ok : Bool) :
    Runs (receiveAll env wsi fuel chunks) s log ok t ↔
      Hears env (conn.recvBuf ++ (chunks.map Chunk.bytes).flatten) s log ok t := by
  have run := @receiveAll_iff env s t log conn bits here wsi open_wsi fuel chunks conn.recvBuf waits
    enough ok
  rw [withRecv_self here] at run
  exact run

end

def partings : Externals := { terse with getMessage := fun _ => .p2pDisconnect (some ⟨1⟩) }

/-- Two of these and the start of a third, in two pieces: nothing changes but what is left. -/
theorem partings_heard : Runs
    (receiveAll partings 1 19
      [⟨p2pMessageFrame [1] ++ (p2pMessageFrame [2]).take 4, fun _ => [255]⟩,
        ⟨(p2pMessageFrame [2]).drop 4 ++ [1], fun _ => []⟩])
    signalOpened [] true (signalOpened.withRecv [1]) := by
  have frames : ∀ b ∈ ([⟨[1], by decide⟩, ⟨[2], by decide⟩] : List Body), ∀ more, _ :=
    fun b _ => frame_read partings.verifyMessageBuffer b rfl
  have waits : (frameReader partings.verifyMessageBuffer).read [1] = .more := rfl
  have found := collect_encoded (fun b : Body => p2pMessageFrame b.bytes) Body.bytes _ frames waits
  have here : signalOpened.p2pConn = some ⟨0, some 1, [], []⟩ := rfl
  refine (arrivals_are_heard rfl here rfl rfl 19 _ (by decide) true).mpr ?_
  have stream : ([] ++ ([⟨p2pMessageFrame [1] ++ (p2pMessageFrame [2]).take 4, fun _ => [255]⟩,
      ⟨(p2pMessageFrame [2]).drop 4 ++ [1], fun _ => []⟩].map Chunk.bytes).flatten : Bytes) =
      ([⟨[1], by decide⟩, ⟨[2], by decide⟩] : List Body).flatMap
        (fun b => p2pMessageFrame b.bytes) ++ [1] := by
    decide
  rw [stream]
  simp only [Hears, afterStream, heard, found]
  exact ⟨true, signalOpened, .done _ _, rfl, rfl⟩

end HumbleNet.Client
