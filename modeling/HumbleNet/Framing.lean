import HumbleNet.Crc
import HumbleNet.Lib.Incremental

/-! The framing of the signaling stream (`humblepeer.cpp`): a 4 byte size, a 4 byte
checksum, and the flatbuffer. -/
namespace HumbleNet

def peerOffsetSize : Nat := 8

structure Body where
  bytes : Bytes
  size_lt : bytes.length < 2 ^ 32

def Body.empty : Body := ⟨[], by decide⟩

def p2pMessageFrame (buff : Bytes) : Bytes :=
  writeScalar32 (UInt32.ofNat buff.length) ++ writeScalar32 (crcOf buff) ++ buff

inductive Look where
  | wait
  | refuse
  | overrun
  | message (buff : Bytes) (size : Nat)
  deriving DecidableEq

/-- The part of `parseMessage` before the callback. The sum `fbSize + PEER_OFFSET_SIZE`
is taken in a `size_t` of `sizeBits` bits; `pastEnd` is what lies in memory behind the
buffer, read when the buffer is shorter than the size word. -/
def parseHeader (sizeBits : Nat) (verify : Bytes → Bool) (pastEnd recvBuf : Bytes) : Look :=
  if recvBuf.isEmpty then .wait
  else
    let fbSize := (readScalar32 (recvBuf ++ pastEnd)).toNat
    if recvBuf.length < (fbSize + peerOffsetSize) % 2 ^ sizeBits then .wait
    else if recvBuf.length < fbSize + peerOffsetSize then .overrun
    else
      let buff := (recvBuf.drop peerOffsetSize).take fbSize
      if readScalar32 (recvBuf.drop 4) ≠ crcOf buff then .refuse
      else if verify buff then .message buff (fbSize + peerOffsetSize)
      else .refuse

/-- `parseMessage`, over the operations on the vector it was passed by reference.
The recursion is bounded by the number of bytes the vector held on entry. -/
def parseMessage {m : Type → Type} [Monad m] (look : Bytes → Look) (recvBuf : m Bytes)
    (erase : Nat → m Unit) (overrun : m Bool) (processFunc : Bytes → m Bool) : Nat → m Bool
  | 0 => pure true
  | fuel + 1 => do
    match look (← recvBuf) with
    | .wait => pure true
    | .refuse => pure false
    | .overrun => overrun
    | .message buff size =>
      if ← processFunc buff then
        erase size
        parseMessage look recvBuf erase overrun processFunc fuel
      else pure false

end HumbleNet
