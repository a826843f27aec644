import HumbleNet.Client.Connection

/-! Packets over connections (`humblenet_datagram.cpp`). -/
namespace HumbleNet.Client

open Guarded

def msgPeek : UInt8 := 0x1
def msgBuffered : UInt8 := 0x02

def headerSize : Nat := 8

/-- The bytes of a header, with the byte of padding that nothing writes. -/
def datagramHeader (size : Nat) (channel padding : UInt8) (seq : UInt32) : Bytes :=
  leBytes 2 size ++ [channel, padding] ++ leBytes 4 seq.toNat

/-- The search of `datagram_get_message`: where the first record of the channel starts, and
its size. `available` is a `uint16_t`. -/
def findMessage (bufIn : Bytes) (channel : UInt8) : Nat → Nat → Option (Nat × Nat)
  | 0, _ => none
  | fuel + 1, start =>
    let rest := bufIn.drop start
    let available := rest.length % 2 ^ 16
    let size := leNat (rest.take 2)
    if available ≤ headerSize then none
    else if available < size + headerSize then none
    else if rest[2]? ≠ some channel then
      -- skip to next packet
      findMessage bufIn channel fuel (start + (headerSize + size))
    else some (start, size)

/-- The result, what is left of the buffer, and the bytes copied. Every record skipped
takes some of the buffer, which bounds the search. -/
def datagramGetMessage (bufIn : Bytes) (length : Nat) (flags channel : UInt8) :
    Int × Bytes × Bytes :=
  match findMessage bufIn channel bufIn.length 0 with
  | none => (-1, bufIn, [])
  | some (start, size) =>
    if flags &&& msgPeek ≠ 0 then (size, bufIn, [])
    else
      let data := (bufIn.drop (start + headerSize)).take (min length size)
      let left := bufIn.take start ++ bufIn.drop (start + (headerSize + size))
      (size, left, data)

def getMessage (conn : ConnPtr) (length : Nat) (flags channel : UInt8) :
    ClientM (Int × Bytes) := do
  let dg ← derefDatagram conn
  let (ret, left, data) := datagramGetMessage dg.bufIn length flags channel
  modifyTables fun s => s.updateDatagram conn fun dg => { dg with bufIn := left }
  pure (ret, data)

variable (env : Externals)

def datagramFlush (conn : ConnPtr) : ClientM Unit := do
  let dg ← derefDatagram conn
  if dg.bufOut.isEmpty then pure ()
  else if ← humblenetConnectionIsWritable dg.conn then
    let ret ← humblenetConnectionWrite env dg.conn dg.bufOut (UInt32.ofNat dg.bufOut.length)
    doWhen (ret < 0) humblenetClearError
    let _ ← derefDatagram conn
    modifyTables fun s => s.updateDatagram conn fun dg => { dg with bufOut := [], queued := 0 }
  else pure ()

def insertDatagram (conn : ConnPtr) : ClientM Unit := do
  let c ← deref conn
  modify fun s =>
    { s with
      datagrams := StdMap.emplace conn (DatagramConnection.new conn c.otherPeer) s.datagrams }

theorem lookup_insertDatagram {m : StdMap ConnPtr DatagramConnection} {conn k : ConnPtr}
    {peer : PeerId} {dg : DatagramConnection}
    (h : (StdMap.emplace conn (DatagramConnection.new conn peer) m).lookup k = some dg) :
    (k = conn ∧ dg = DatagramConnection.new conn peer) ∨ m.lookup k = some dg := by
  unfold StdMap.emplace at h
  split at h
  · exact Or.inr h
  · rw [StdMap.lookup_insert_if] at h
    split at h
    · exact Or.inl ⟨‹_›, (Option.some.inj h).symm⟩
    · exact Or.inr h

def enqueue (conn : ConnPtr) (message : Bytes) (channel : UInt8) : ClientM Unit := do
  let dg ← derefDatagram conn
  let padding ← ask Query.padding
  let hdr := datagramHeader message.length channel padding dg.seqOut
  modifyTables fun s => s.updateDatagram conn fun dg =>
    { dg with
      bufOut := dg.bufOut ++ hdr ++ message
      queued := dg.queued + 1
      seqOut := dg.seqOut + 1 }

def flushOrQueue (flags : UInt8) (conn : ConnPtr) : ClientM Unit := do
  let dg ← derefDatagram conn
  if flags &&& msgBuffered = 0 then datagramFlush env conn
  else if 1024 < dg.bufOut.length then
    mark (.maxLength conn)
    datagramFlush env conn
  else modify fun s => { s with queuedPackets := true }

def datagramQueue (message : Bytes) (flags : UInt8) (conn : ConnPtr) (channel : UInt8) :
    ClientM Int := do
  insertDatagram conn
  enqueue conn message channel
  flushOrQueue env flags conn
  pure (asInt message.length)

def humblenetDatagramSend (message : Bytes) (flags : UInt8) (conn : ConnPtr)
    (channel : UInt8) : ClientM Int := do
  let c ← deref conn
  match c.status with
  | .connecting =>
    -- buffered messages are queued till we are connected
    if flags &&& msgBuffered ≠ 0 then datagramQueue env message flags conn channel
    else
      humblenetSetError "Connection is still being established"
      pure 0
  | .closed =>
    humblenetSetError "Connection is closed"
    pure (-1)
  | .connected => datagramQueue env message flags conn channel

/-- `for (it = connections.begin(); ...) datagram_flush(it->second)`. The lock is released
inside, so that the next key is looked for when the entry is done. -/
def flushFrom : Nat → Option ConnPtr → ClientM Unit
  | _, none => pure ()
  | 0, some _ => fault .hang
  | fuel + 1, some conn => do
    mark (.visit conn)
    datagramFlush env conn
    let _ ← derefDatagram conn
    let s ← get
    flushFrom fuel (leastKey (fun key => decide (conn < key)) s.datagrams)

def flushAll (fuel : Nat) : ClientM Unit := do
  let s ← get
  flushFrom env fuel (leastKey (fun _ => true) s.datagrams)
  modify fun s => { s with queuedPackets := false }

abbrev Received := Int × Option ConnPtr × Bytes

def drainFrom (length : Nat) (flags channel : UInt8) : Nat → Option ConnPtr →
    ClientM (Option Received)
  | _, none => pure none
  | 0, some _ => fault .hang
  | fuel + 1, some key => do
    let dg ← derefDatagram key
    let (ret, data) ← getMessage key length flags channel
    if 0 < ret then pure (some (ret, some dg.conn, data))
    else
      let s ← get
      drainFrom length flags channel fuel (leastKey (fun k => decide (key < k)) s.datagrams)

def receiveFrom (length : Nat) (flags channel : UInt8) (conn : ConnPtr) :
    ClientM (Option Received) := do
  insertDatagram conn
  let (buf, retval) ← humblenetConnectionReadAll conn 0
  if retval < 0 then
    modify fun s => { s with datagrams := s.datagrams.erase conn }
    humblenetClearError
    let c ← deref conn
    if c.status = .closed then pure (some (-1, some conn, []))
    else pure none
  else
    modifyTables fun s => s.updateDatagram conn fun dg =>
      { dg with bufIn := dg.bufIn ++ buf.take retval.toNat }
    mark (.bufferedIn conn)
    let (ret, data) ← getMessage conn length flags channel
    if 0 < ret then
      let dg ← derefDatagram conn
      pure (some (ret, some dg.conn, data))
    else pure none

def pollLoop (length : Nat) (flags channel : UInt8) : Nat → ClientM (Option Received)
  | 0 => fault .hang
  | fuel + 1 => do
    match ← humblenetPollAll with
    | none => pure none
    | some conn =>
      match ← receiveFrom length flags channel conn with
      | some received => pure (some received)
      | none => pollLoop length flags channel fuel

def acceptLoop : Nat → ClientM Unit
  | 0 => fault .hang
  | fuel + 1 => do
    match ← humblenetConnectionAccept with
    | none => pure ()
    | some conn =>
      let c ← deref conn
      doWhen (c.otherPeer ≠ 0) (insertDatagram conn)
      acceptLoop fuel

/-- The loops end of themselves when the library is not changed meanwhile; `fuel` bounds
their rounds. -/
def humblenetDatagramRecv (fuel : Nat) (length : Nat) (flags channel : UInt8) :
    ClientM Received := do
  let s ← get
  doWhen (s.queuedPackets = true) (flushAll env fuel)
  let s ← get
  match ← drainFrom length flags channel fuel (leastKey (fun _ => true) s.datagrams) with
  | some received => pure received
  | none =>
    match ← pollLoop length flags channel fuel with
    | some received => pure received
    | none =>
      acceptLoop fuel
      pure (0, none, [])

def humblenetDatagramFlush (fuel : Nat) : ClientM Bool := do
  let s ← get
  if s.queuedPackets = true then
    flushAll env fuel
    pure true
  else pure false

end HumbleNet.Client
