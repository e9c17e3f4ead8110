import Mathlib.Algebra.Group.Nat.Defs
import PicoLan.Stream.Socket

/-!
# `SocketStream::write`

The local variables of the function and the pieces of its loop.  The pieces are
cut at `iface->read()`, where the socket can change: `prepare` is what stands
before the call in the body of the burst, `afterSend` what stands behind it, and
`evaluate` is the rest of a pass once the wait for the acknowledgement is over.
-/

namespace PicoLan

/-- An entry of `frame_byte_pos`.  Every entry is assigned from a `uint8_t`
before it is read. -/
structure SeqTuple where
  seq : UInt8
  pos : Nat
deriving DecidableEq, Repr

/-- 12 bytes for packet headers and checksum. -/
def bytesPerFrame : Nat := maxPacketLength - 12

/-- The number of frames sent in a burst before the acks are checked. -/
def frameBurstSz : Nat := 4

/-- Where `write` stands.  `sending` holds the packet of the frame at hand. -/
inductive WritePc where
  | top
  | sending (i : Nat) (pack : DatagramPack)
  | waiting

/-- The locals of `write`; `packetsToSend` to `finalSeq` are those of the burst. -/
structure WriteCall where
  bytes : List UInt8
  bytesPos : Nat := 0
  noAckCount : Nat := 0
  packetsToSend : Nat := 0
  initialBytePos : Nat := 0
  frameBytePos : Nat → SeqTuple := fun _ => ⟨255, 0⟩
  burstSeq : UInt8 := 0
  finalSeq : UInt8 := 0
  pc : WritePc := .top

/-- The number of frames for `n` bytes, constrained to the burst size. -/
def packetsFor (n : Nat) : Nat :=
  let packets := n / bytesPerFrame
  let packets := if n % bytesPerFrame ≠ 0 then packets + 1 else packets
  if packets > frameBurstSz then frameBurstSz else packets

namespace WriteCall

def len (w : WriteCall) : Nat := w.bytes.length

/-- The bytes that go into the next frame. -/
def segment (w : WriteCall) : List UInt8 :=
  (w.bytes.drop w.bytesPos).take (min bytesPerFrame (w.len - w.bytesPos))

/-- The body of the burst loop up to `iface->read()`. -/
def prepare (w : WriteCall) (s : SocketStream) (address : UInt8) (i : Nat) : WriteCall :=
  let burstSeq := w.burstSeq + 1
  let seq := s.sequenceNumber + burstSeq
  { w with
    burstSeq
    finalSeq := seq
    frameBytePos := Function.update w.frameBytePos i { w.frameBytePos i with seq }
    bytesPos := w.bytesPos + w.segment.length
    pc := .sending i (s.message address ([MessageType.data, seq] ++ w.segment)) }

/-- The head of the burst loop. -/
def burst (w : WriteCall) (s : SocketStream) (address : UInt8) (i : Nat) : WriteCall :=
  if i < w.packetsToSend then w.prepare s address i else { w with pc := .waiting }

/-- What follows the sending of frame `i`. -/
def afterSend (w : WriteCall) (s : SocketStream) (address : UInt8) (i : Nat) : WriteCall :=
  let w := { w with
    frameBytePos := Function.update w.frameBytePos i { w.frameBytePos i with pos := w.bytesPos } }
  w.burst s address (i + 1)

/-- The head of the outer loop. -/
def start (w : WriteCall) (s : SocketStream) (address : UInt8) : WriteCall :=
  let w := { w with
    packetsToSend := packetsFor (w.len - w.bytesPos)
    initialBytePos := w.bytesPos
    frameBytePos := fun _ => ⟨255, 0⟩
    burstSeq := 0 }
  w.burst s address 0

/-- The loop over the entries, which does not stop at the first match.  The result
is `found_pos`, `bytes_pos` and `sequence_number`. -/
def matchAck (frameBytePos : Nat → SeqTuple) (ack : UInt8) (bytesPos : Nat)
    (sequenceNumber : UInt8) : Bool × Nat × UInt8 :=
  (List.range frameBurstSz).foldl
    (fun r i =>
      if ack = (frameBytePos i).seq then (true, (frameBytePos i).pos, r.2.2 + UInt8.ofNat i) else r)
    (false, bytesPos, sequenceNumber)

end WriteCall

/-- A `uint32_t`, returned as an `int`. -/
def asInt (n : Nat) : Int := (n : Int).bmod (2 ^ 32)

/-- Either the call goes on or it returns. -/
inductive WriteResult where
  | goesOn (w : WriteCall)
  | returns (r : Int)

/-- The loop condition. -/
def WriteCall.again (w : WriteCall) : WriteResult :=
  if w.bytesPos ≠ w.len then .goesOn { w with pc := .top } else .returns (asInt w.bytesPos)

/-- The acks are checked: the last part of the outer loop's body. -/
def WriteCall.evaluate (w : WriteCall) (s : SocketStream) : SocketStream × WriteResult :=
  if s.lastRecvedAck = s.sequenceNumber then
    let w := { w with noAckCount := w.noAckCount + 1 }
    if w.noAckCount = 3 then (s, .returns Error.timeout)
    else (s, WriteCall.again { w with bytesPos := w.initialBytePos })
  else
    let (found, pos, seq) := matchAck w.frameBytePos s.lastRecvedAck w.bytesPos s.sequenceNumber
    let w := { w with bytesPos := pos }
    let s : SocketStream := { s with sequenceNumber := seq }
    if found = false then (s, .returns Error.ackOutOfSequence) else (s, w.again)

/-! ## What a pass leaves alone -/

namespace WriteCall

/-- The packet of a frame is a message to the peer. -/
theorem burst_sending (w : WriteCall) (s : SocketStream) (address : UInt8) {i j : Nat}
    {pack : DatagramPack} (h : (w.burst s address i).pc = .sending j pack) :
    ∃ n rest, pack = s.message address (MessageType.data :: n :: rest) := by
  unfold burst at h
  split at h
  · cases h
    exact ⟨_, _, rfl⟩
  · cases h

theorem evaluate_socket (w : WriteCall) (s : SocketStream) :
    (w.evaluate s).1 = { s with sequenceNumber := (w.evaluate s).1.sequenceNumber } := by
  unfold evaluate
  dsimp only
  split
  · split <;> rfl
  · split <;> rfl

theorem again_top {w w' : WriteCall} (h : w.again = .goesOn w') : w'.pc = .top := by
  unfold again at h
  split at h
  · cases h
    rfl
  · cases h

theorem evaluate_top {w w' : WriteCall} {s s' : SocketStream}
    (h : w.evaluate s = (s', .goesOn w')) : w'.pc = .top := by
  unfold evaluate at h
  dsimp only at h
  split at h
  · split at h
    · cases h
    · exact again_top (Prod.ext_iff.mp h).2
  · split at h
    · cases h
    · exact again_top (Prod.ext_iff.mp h).2

end WriteCall

end PicoLan
