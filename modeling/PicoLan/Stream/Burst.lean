import Mathlib.Data.UInt
import Mathlib.Tactic.IntervalCases
import PicoLan.Stream.Write

/-!
# A burst of `write`

Frame `j` of a burst that begins at position `p` with sequence number `q` carries
the number `q + j + 1` and the bytes `frameBody bytes p j`.  `AtFrame` and
`AllSent` say what the locals of `write` are inside a burst, and `matchAck_spec`
what the loop over `frame_byte_pos` makes of an acknowledged frame.
-/

namespace PicoLan

def frameBody (bytes : List UInt8) (p j : Nat) : List UInt8 :=
  (bytes.drop (p + bytesPerFrame * j)).take bytesPerFrame

/-- Where frame `j` ends. -/
def frameEnd (len p j : Nat) : Nat := min (p + bytesPerFrame * (j + 1)) len

/-- Only the last frame ends where the string ends. -/
theorem frameEnd_eq_iff {len a : Nat} (ha : 0 < a) :
    frameEnd len 0 (a - 1) = len ↔ len ≤ bytesPerFrame * a := by
  unfold frameEnd
  rw [Nat.sub_add_cancel ha]
  omega

/-- The number of frame `j`. -/
def frameSeq (q : UInt8) (j : Nat) : UInt8 := q + UInt8.ofNat (j + 1)

/-! ## The number of frames -/

theorem packetsFor_eq (n : Nat) : packetsFor n = min 4 ((n + 51) / 52) := by
  have h₁ : bytesPerFrame = 52 := rfl
  have h₂ : frameBurstSz = 4 := rfl
  unfold packetsFor
  rw [h₁, h₂]
  dsimp only
  split_ifs <;> omega

theorem packetsFor_le (n : Nat) : packetsFor n ≤ 4 := by
  rw [packetsFor_eq]
  exact Nat.min_le_left _ _

theorem lt_packetsFor {n j : Nat} : j < packetsFor n ↔ j < 4 ∧ bytesPerFrame * j < n := by
  have h₁ : bytesPerFrame = 52 := rfl
  rw [packetsFor_eq, h₁]
  omega

theorem packetsFor_pos {n : Nat} (h : 0 < n) : 0 < packetsFor n :=
  lt_packetsFor.mpr ⟨by omega, by omega⟩

theorem length_frameBody_le (bytes : List UInt8) (p j : Nat) :
    (frameBody bytes p j).length ≤ bytesPerFrame :=
  List.length_take_le _ _

/-- Frames stand one behind the other. -/
theorem take_append_frameBody (bytes : List UInt8) (p j : Nat) :
    (bytes.drop p).take (bytesPerFrame * j) ++ frameBody bytes p j =
      (bytes.drop p).take (bytesPerFrame * (j + 1)) := by
  unfold frameBody
  rw [← List.drop_drop, ← List.take_add, Nat.mul_succ]

/-! ## Inside a burst -/

/-- `done` frames of the burst that begins at `p` with `q` have been sent. -/
structure Bursting (q : UInt8) (p : Nat) (w : WriteCall) (done : Nat) : Prop where
  initial : w.initialBytePos = p
  packets : w.packetsToSend = packetsFor (w.len - p)
  slots : ∀ j < done, w.frameBytePos j = ⟨frameSeq q j, frameEnd w.len p j⟩
  blank : ∀ j, w.packetsToSend ≤ j → w.frameBytePos j = ⟨255, 0⟩

theorem Bursting.packets_zero {q : UInt8} {w : WriteCall} {done : Nat} {bytes : List UInt8}
    (hw : Bursting q 0 w done) (hb : w.bytes = bytes) :
    w.packetsToSend = packetsFor bytes.length := by
  rw [hw.packets, Nat.sub_zero, WriteCall.len, hb]

/-- Frame `i` is about to be sent. -/
structure AtFrame (q : UInt8) (p : Nat) (w : WriteCall) (i : Nat) : Prop where
  bursting : Bursting q p w i
  lt : i < w.packetsToSend
  seq : (w.frameBytePos i).seq = frameSeq q i
  bytesPos : w.bytesPos = frameEnd w.len p i
  burstSeq : w.burstSeq = UInt8.ofNat (i + 1)
  finalSeq : w.finalSeq = frameSeq q i

/-- All frames have been sent. -/
structure AllSent (q : UInt8) (p : Nat) (w : WriteCall) : Prop where
  bursting : Bursting q p w w.packetsToSend
  pos : 0 < w.packetsToSend
  finalSeq : w.finalSeq = q + UInt8.ofNat w.packetsToSend
  pc : w.pc = .waiting

theorem ofNat_succ (i : Nat) : UInt8.ofNat i + 1 = UInt8.ofNat (i + 1) :=
  (UInt8.ofNat_add i 1).symm

theorem ofNat_inj {a b : Nat} (ha : a < 256) (hb : b < 256) :
    UInt8.ofNat a = UInt8.ofNat b ↔ a = b := by
  constructor
  · intro h
    have := congrArg UInt8.toNat h
    rwa [UInt8.toNat_ofNat_of_lt' ha, UInt8.toNat_ofNat_of_lt' hb] at this
  · rintro rfl
    rfl

theorem add_ofNat_inj (q : UInt8) {a b : Nat} (ha : a < 256) (hb : b < 256) :
    q + UInt8.ofNat a = q + UInt8.ofNat b ↔ a = b :=
  (UInt8.add_right_inj q).trans (ofNat_inj ha hb)

/-- The next frame, when `i` have been sent. -/
theorem segment_eq (w : WriteCall) (p i : Nat) (hpos : w.bytesPos = min (p + bytesPerFrame * i) w.len)
    (hi : i < packetsFor (w.len - p)) : w.segment = frameBody w.bytes p i ∧
      w.bytesPos + w.segment.length = frameEnd w.len p i := by
  have hlt := (lt_packetsFor.mp hi).2
  have hp : w.bytesPos = p + bytesPerFrame * i := by omega
  have hlen : w.bytes.length = w.len := rfl
  have hseg : w.segment = frameBody w.bytes p i := by
    unfold WriteCall.segment frameBody
    rw [hp, List.take_eq_take_iff, List.length_drop, hlen]
    omega
  refine ⟨hseg, ?_⟩
  rw [hseg, hp]
  unfold frameBody frameEnd
  rw [List.length_take, List.length_drop, hlen, Nat.mul_succ]
  omega

/-- The packet of frame `i`. -/
def SocketStream.frame (s : SocketStream) (address q : UInt8) (bytes : List UInt8) (p i : Nat) :
    DatagramPack :=
  s.message address ([MessageType.data, frameSeq q i] ++ frameBody bytes p i)

theorem frame_payload (s : SocketStream) (address q : UInt8) (bytes : List UInt8) (p i : Nat) :
    (s.frame address q bytes p i).payload.toList =
      [MessageType.data, frameSeq q i] ++ frameBody bytes p i := by
  rw [SocketStream.frame, message_payload, List.take_of_length_le]
  have := length_frameBody_le bytes p i
  have h₁ : bytesPerFrame = 52 := rfl
  have h₂ : payloadSz = 54 := rfl
  simp only [List.length_append, List.length_cons, List.length_nil]
  omega

theorem prepare_atFrame {q : UInt8} {p i : Nat} {w : WriteCall} (hw : Bursting q p w i)
    (hi : i < w.packetsToSend) (hb : w.burstSeq = UInt8.ofNat i)
    (hpos : w.bytesPos = min (p + bytesPerFrame * i) w.len) (s : SocketStream) (address : UInt8)
    (hq : s.sequenceNumber = q) :
    AtFrame q p (w.prepare s address i) i ∧
      (w.prepare s address i).pc = .sending i (s.frame address q w.bytes p i) := by
  obtain ⟨hseg, hend⟩ := segment_eq w p i hpos (by rw [← hw.packets]; exact hi)
  have hseq : s.sequenceNumber + (w.burstSeq + 1) = frameSeq q i := by
    rw [hq, hb, ofNat_succ]
    rfl
  refine ⟨⟨⟨hw.initial, hw.packets, fun j hj => ?_, fun j hj => ?_⟩, hi, ?_, hend, ?_, hseq⟩, ?_⟩
  · show Function.update w.frameBytePos i _ j = _
    rw [Function.update_of_ne (by omega)]
    exact hw.slots j hj
  · show Function.update w.frameBytePos i _ j = _
    have : w.packetsToSend ≤ j := hj
    rw [Function.update_of_ne (by omega)]
    exact hw.blank j hj
  · show (Function.update w.frameBytePos i _ i).seq = _
    rw [Function.update_self]
    exact hseq
  · show w.burstSeq + 1 = _
    rw [hb, ofNat_succ]
  · show WritePc.sending i _ = _
    rw [hseq, hseg]
    rfl

/-- The burst begins with frame 0. -/
theorem start_atFrame (w : WriteCall) (s : SocketStream) (address : UInt8)
    (h : w.bytesPos < w.len) :
    AtFrame s.sequenceNumber w.bytesPos (w.start s address) 0 ∧
      (w.start s address).pc =
        .sending 0 (s.frame address s.sequenceNumber w.bytes w.bytesPos 0) := by
  have hpos : 0 < packetsFor (w.len - w.bytesPos) := packetsFor_pos (by omega)
  let w' : WriteCall := { w with
    packetsToSend := packetsFor (w.len - w.bytesPos)
    initialBytePos := w.bytesPos
    frameBytePos := fun _ => ⟨255, 0⟩
    burstSeq := 0 }
  have hb : Bursting s.sequenceNumber w.bytesPos w' 0 :=
    ⟨rfl, rfl, fun j hj => absurd hj (Nat.not_lt_zero j), fun _ _ => rfl⟩
  have hstart : w.start s address = w'.prepare s address 0 := if_pos hpos
  rw [hstart]
  exact prepare_atFrame hb hpos rfl (show w.bytesPos = min (w.bytesPos + 0) w.len by omega) s
    address rfl

theorem WriteCall.start_bytes (w : WriteCall) (s : SocketStream) (address : UInt8) :
    (w.start s address).bytes = w.bytes := by
  unfold start burst
  dsimp only
  split <;> rfl

theorem WriteCall.afterSend_bytes (w : WriteCall) (s : SocketStream) (address : UInt8) (i : Nat) :
    (w.afterSend s address i).bytes = w.bytes := by
  unfold afterSend burst
  dsimp only
  split <;> rfl

/-- The entry of frame `i` is complete once it has been sent. -/
theorem AtFrame.sent {q : UInt8} {p i : Nat} {w : WriteCall} (hw : AtFrame q p w i) :
    Bursting q p { w with
      frameBytePos := (Function.update w.frameBytePos i
        { w.frameBytePos i with pos := w.bytesPos }) } (i + 1) := by
  obtain ⟨hb, hlt, hseq, hpos, -, -⟩ := hw
  refine ⟨hb.initial, hb.packets, ?_, ?_⟩
  · intro j hj
    show Function.update w.frameBytePos i _ j = _
    by_cases hji : j = i
    · subst hji
      rw [Function.update_self]
      show (⟨(w.frameBytePos j).seq, w.bytesPos⟩ : SeqTuple) = _
      rw [hseq, hpos]
      rfl
    · rw [Function.update_of_ne hji]
      exact hb.slots j (by omega)
  · intro j hj
    show Function.update w.frameBytePos i _ j = _
    have : w.packetsToSend ≤ j := hj
    rw [Function.update_of_ne (by omega)]
    exact hb.blank j hj

/-- Frame `i` is followed by the next one or by the wait. -/
theorem AtFrame.afterSend {q : UInt8} {p i : Nat} {w : WriteCall} (hw : AtFrame q p w i)
    (s : SocketStream) (address : UInt8) (hq : s.sequenceNumber = q) :
    (i + 1 < w.packetsToSend ∧ AtFrame q p (w.afterSend s address i) (i + 1) ∧
        (w.afterSend s address i).pc = .sending (i + 1) (s.frame address q w.bytes p (i + 1))) ∨
      (i + 1 = w.packetsToSend ∧ AllSent q p (w.afterSend s address i)) := by
  have hb := hw.sent
  have hlt := hw.lt
  unfold WriteCall.afterSend WriteCall.burst
  dsimp only
  split
  · next h => exact .inl ⟨h, prepare_atFrame hb h hw.burstSeq hw.bytesPos s address hq⟩
  · next h =>
    have hi : i + 1 = w.packetsToSend := by omega
    refine .inr ⟨hi, ⟨⟨hb.initial, hb.packets, ?_, hb.blank⟩, Nat.zero_lt_of_lt hlt, ?_, rfl⟩⟩
    · dsimp only
      rw [← hi]
      exact hb.slots
    · dsimp only
      rw [hw.finalSeq, ← hi]
      rfl

/-! ## Looking for the acknowledged frame -/

section

variable (slots : Nat → SeqTuple) (ack : UInt8) (pos : Nat) (q : UInt8)

theorem matchAck_none (h : ∀ j < 4, ack ≠ (slots j).seq) :
    WriteCall.matchAck slots ack pos q = (false, pos, q) := by
  simp [WriteCall.matchAck, frameBurstSz, List.range, List.range.loop, h]

theorem matchAck_one (i : Nat) (hi : i < 4) (h : ∀ j < 4, ack = (slots j).seq ↔ j = i) :
    WriteCall.matchAck slots ack pos q = (true, (slots i).pos, q + UInt8.ofNat i) := by
  interval_cases i <;>
    simp [WriteCall.matchAck, frameBurstSz, List.range, List.range.loop, h]

/-- What the cleared entries from `n` on add to `sequence_number`. -/
def blankSum (n : Nat) : Nat := 6 - n * (n - 1) / 2

theorem matchAck_blank (n : Nat) (hn : n < 4) (hpos : 0 < n)
    (h : ∀ j < 4, ack = (slots j).seq ↔ n ≤ j) :
    WriteCall.matchAck slots ack pos q = (true, (slots 3).pos, q + UInt8.ofNat (blankSum n)) := by
  interval_cases n <;>
    simp [WriteCall.matchAck, frameBurstSz, List.range, List.range.loop, h, blankSum,
      UInt8.add_assoc]

theorem matchAck_one_blank (i n : Nat) (hi : i < n) (hn : n < 4)
    (h : ∀ j < 4, ack = (slots j).seq ↔ j = i ∨ n ≤ j) :
    WriteCall.matchAck slots ack pos q =
      (true, (slots 3).pos, q + UInt8.ofNat (i + blankSum n)) := by
  interval_cases n <;> interval_cases i <;>
    simp [WriteCall.matchAck, frameBurstSz, List.range, List.range.loop, h, blankSum,
      UInt8.add_assoc]

end

theorem frameSeq_inj (q : UInt8) {i j : Nat} (hi : i < 4) (hj : j < 4) :
    frameSeq q i = frameSeq q j ↔ i = j := by
  refine (add_ofNat_inj q (by omega) (by omega)).trans ?_
  omega

theorem frameSeq_ne (q : UInt8) {j : Nat} (hj : j < 4) : frameSeq q j ≠ q := by
  intro h
  have := (add_ofNat_inj q (b := 0) (by omega) (by omega)).mp (h.trans (UInt8.add_zero q).symm)
  omega

section

variable {q : UInt8} {p : Nat} {w : WriteCall}

theorem AllSent.packets_le (hw : AllSent q p w) : w.packetsToSend ≤ 4 := by
  rw [hw.bursting.packets]
  exact packetsFor_le _

/-- The entries of the burst's frames are found by their numbers, the others by 255. -/
theorem AllSent.slot_iff (hw : AllSent q p w) (ack : UInt8) (j : Nat) :
    ack = (w.frameBytePos j).seq ↔
      (j < w.packetsToSend ∧ ack = frameSeq q j) ∨ (w.packetsToSend ≤ j ∧ ack = 255) := by
  rcases Nat.lt_or_ge j w.packetsToSend with hlt | hge
  · rw [hw.bursting.slots j hlt]
    constructor
    · exact fun h => .inl ⟨hlt, h⟩
    · rintro (⟨-, h⟩ | ⟨h, -⟩)
      · exact h
      · omega
  · rw [hw.bursting.blank j hge]
    constructor
    · exact fun h => .inr ⟨hge, h⟩
    · rintro (⟨h, -⟩ | ⟨-, h⟩)
      · omega
      · exact h

/-- When a frame's number is acknowledged, no other frame is found. -/
theorem AllSent.slot_iff_of_frame (hw : AllSent q p w) {ack : UInt8} {i : Nat}
    (hi : i < w.packetsToSend) (hack : ack = frameSeq q i) (j : Nat) (hj : j < 4) :
    ack = (w.frameBytePos j).seq ↔ j = i ∨ (w.packetsToSend ≤ j ∧ ack = 255) := by
  have hn := hw.packets_le
  rw [hw.slot_iff]
  constructor
  · rintro (⟨-, h⟩ | h)
    · exact .inl ((frameSeq_inj q hj (by omega)).mp (h.symm.trans hack))
    · exact .inr h
  · rintro (rfl | h)
    · exact .inl ⟨hi, hack⟩
    · exact .inr h

/-- Frame `a - 1` of the burst is found.  The cleared entries hold the number 255,
so when that is the number acknowledged, each of them is found as well. -/
theorem matchAck_spec (hw : AllSent q p w) (a pos : Nat) (ha : 0 < a) (han : a ≤ w.packetsToSend) :
    WriteCall.matchAck w.frameBytePos (q + UInt8.ofNat a) pos q =
        (true, frameEnd w.len p (a - 1), q + UInt8.ofNat (a - 1)) ∨
      (w.packetsToSend < 4 ∧ q + UInt8.ofNat a = 255) ∧
        WriteCall.matchAck w.frameBytePos (q + UInt8.ofNat a) pos q =
        (true, 0, q + UInt8.ofNat (a - 1 + blankSum w.packetsToSend)) := by
  have hn := hw.packets_le
  have hlt : a - 1 < w.packetsToSend := by omega
  have hack : q + UInt8.ofNat a = frameSeq q (a - 1) := by
    unfold frameSeq
    rw [Nat.sub_add_cancel ha]
  have hslot := hw.slot_iff_of_frame hlt hack
  by_cases h : w.packetsToSend < 4 ∧ q + UInt8.ofNat a = 255
  · refine .inr ⟨h, ?_⟩
    rw [matchAck_one_blank _ _ _ _ (a - 1) w.packetsToSend hlt h.1, hw.bursting.blank 3 (by omega)]
    intro j hj
    rw [hslot j hj, and_iff_left h.2]
  · refine .inl ?_
    rw [matchAck_one _ _ _ _ (a - 1) (by omega), hw.bursting.slots (a - 1) hlt]
    intro j hj
    rw [hslot j hj]
    exact or_iff_left fun h' => h ⟨by omega, h'.2⟩

end

/-! ## The end of a pass -/

theorem asInt_of_lt {n : Nat} (h : n < 2 ^ 31) : asInt n = n :=
  Int.bmod_eq_of_le (by omega) (by omega)

theorem WriteCall.again_goesOn (w : WriteCall) (h : w.bytesPos ≠ w.len) :
    w.again = .goesOn { w with pc := .top } :=
  if_pos h

theorem WriteCall.again_returns (w : WriteCall) (h : w.bytesPos = w.len) :
    w.again = .returns (asInt w.len) := by
  rw [again, if_neg (fun hne => hne h), h]

theorem WriteCall.evaluate_found (w : WriteCall) (s : SocketStream) {pos : Nat} {q : UInt8}
    (hne : s.lastRecvedAck ≠ s.sequenceNumber)
    (h : matchAck w.frameBytePos s.lastRecvedAck w.bytesPos s.sequenceNumber = (true, pos, q)) :
    w.evaluate s = ({ s with sequenceNumber := q }, again { w with bytesPos := pos }) := by
  unfold evaluate
  rw [if_neg hne, h]
  rfl

theorem WriteCall.evaluate_notFound (w : WriteCall) (s : SocketStream)
    (hne : s.lastRecvedAck ≠ s.sequenceNumber)
    (h : ∀ j < 4, s.lastRecvedAck ≠ (w.frameBytePos j).seq) :
    w.evaluate s = (s, .returns Error.ackOutOfSequence) := by
  unfold evaluate
  rw [if_neg hne, matchAck_none _ _ _ _ h]
  rfl

/-- Nothing of the burst has been acknowledged. -/
theorem AllSent.evaluate_unacked {q : UInt8} {p : Nat} {w : WriteCall} (hw : AllSent q p w)
    (hp : p ≠ w.len) (s : SocketStream) (hq : s.sequenceNumber = q) (hack : s.lastRecvedAck = q) :
    w.evaluate s = (s, if w.noAckCount + 1 = 3 then .returns Error.timeout
      else .goesOn { w with noAckCount := w.noAckCount + 1, bytesPos := p, pc := .top }) := by
  unfold WriteCall.evaluate
  rw [if_pos (hack.trans hq.symm)]
  dsimp only
  split
  · rfl
  · rw [hw.bursting.initial]
    exact congrArg (Prod.mk s) (WriteCall.again_goesOn _ hp)

/-- The first `a` frames of the burst have been acknowledged. -/
theorem AllSent.evaluate_acked {q : UInt8} {p : Nat} {w : WriteCall} (hw : AllSent q p w) (a : Nat)
    (ha : 0 < a) (han : a ≤ w.packetsToSend) (s : SocketStream) (hq : s.sequenceNumber = q)
    (hack : s.lastRecvedAck = q + UInt8.ofNat a) :
    w.evaluate s = ({ s with sequenceNumber := q + UInt8.ofNat (a - 1) },
        WriteCall.again { w with bytesPos := frameEnd w.len p (a - 1) }) ∨
      (w.packetsToSend < 4 ∧ q + UInt8.ofNat a = 255) ∧
        w.evaluate s = ({ s with
            sequenceNumber := q + UInt8.ofNat (a - 1 + blankSum w.packetsToSend) },
          WriteCall.again { w with bytesPos := 0 }) := by
  have hn : w.packetsToSend ≤ 4 := by
    rw [hw.bursting.packets]
    exact packetsFor_le _
  have hne : s.lastRecvedAck ≠ s.sequenceNumber := by
    rw [hack, hq]
    intro h
    have := (add_ofNat_inj q (b := 0) (by omega) (by omega)).mp (h.trans (UInt8.add_zero q).symm)
    omega
  obtain h | ⟨hlt, h⟩ := matchAck_spec hw a w.bytesPos ha han
  · rw [← hack, ← hq] at h
    exact .inl (w.evaluate_found s hne (by rw [h, hq]))
  · rw [← hack, ← hq] at h
    exact .inr ⟨hlt, w.evaluate_found s hne (by rw [h, hq])⟩

theorem le_blankSum (n : Nat) (hn : n < 4) : n ≤ blankSum n := by
  unfold blankSum
  interval_cases n <;> decide

theorem blankSum_bounds (n : Nat) (hpos : 0 < n) (hn : n < 4) : 1 < blankSum n ∧ blankSum n ≤ 6 := by
  unfold blankSum
  interval_cases n <;> decide

end PicoLan
