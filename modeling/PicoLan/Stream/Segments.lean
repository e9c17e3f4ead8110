import PicoLan.Stream.LateClose

/-!
# The segments of a burst

The loops of `write` as the source has them, in 32-bit arithmetic and byte by byte,
and what they make of a burst: consecutive pieces of the string of 52 bytes each, but
for the last one of the string (`burst_segments`).  A running `write` is always at one
of the frames these loops make, whatever has been acknowledged (`write_segments`).
-/

namespace PicoLan

/-- What a pass of the burst loop makes: a payload, and the entry of
`frame_byte_pos`. -/
structure Frame where
  seq : UInt8
  payload : Payload
  pos : UInt32

namespace SocketStream

/-- The function of this name in the source. -/
def min (a b : UInt32) : UInt32 := if a < b then a else b

/-- The number of packets for what is left of the string. -/
def packetsToSend (len bytesPos : UInt32) : UInt32 :=
  let packets := (len - bytesPos) / UInt32.ofNat bytesPerFrame
  let packets :=
    if (len - bytesPos) % UInt32.ofNat bytesPerFrame ≠ 0 then packets + 1 else packets
  if packets > UInt32.ofNat frameBurstSz then UInt32.ofNat frameBurstSz else packets

/-- The loop over `j`, from the pass on with as many left. -/
def stuffBytes (bytes : Nat → UInt8) (len : UInt32) : Nat → UInt32 → Payload → UInt32 × Payload
  | 0, bytesPos, payload => (bytesPos, payload)
  | j + 1, bytesPos, payload =>
    let payload := payload.append (bytes bytesPos.toNat)
    let bytesPos := bytesPos + 1
    if bytesPos = len then (bytesPos, payload) else stuffBytes bytes len j bytesPos payload

/-- The loop over `i`, likewise. -/
def stuffFrames (bytes : Nat → UInt8) (len : UInt32) (sequenceNumber : UInt8) :
    Nat → UInt8 → UInt32 → List Frame
  | 0, _, _ => []
  | i + 1, burstSeq, bytesPos =>
    let burstSeq := burstSeq + 1
    let seq := sequenceNumber + burstSeq
    let payload := (BoundedList.empty.append MessageType.data).append seq
    let bytesToSend := min (UInt32.ofNat bytesPerFrame) (len - bytesPos)
    let (bytesPos, payload) := stuffBytes bytes len bytesToSend.toNat bytesPos payload
    ⟨seq, payload, bytesPos⟩ :: stuffFrames bytes len sequenceNumber i burstSeq bytesPos

/-- The frames of the burst that begins at `bytesPos`. -/
def burstFrames (bytes : Nat → UInt8) (len : UInt32) (sequenceNumber : UInt8) (bytesPos : UInt32) :
    List Frame :=
  stuffFrames bytes len sequenceNumber (packetsToSend len bytesPos).toNat 0 bytesPos

end SocketStream

/-- The memory behind `bytes` holds the string. -/
def Holds (bytes : Nat → UInt8) (string : List UInt8) : Prop :=
  ∀ i (h : i < string.length), bytes i = string[i]

/-! ## The arithmetic -/

section

variable {n p : Nat}

/-- `len - bytes_pos` does not wrap. -/
theorem toNat_left (hn : n < 2 ^ 32) (hp : p ≤ n) :
    (UInt32.ofNat n - UInt32.ofNat p).toNat = n - p := by
  rw [← UInt32.ofNat_sub hp]
  exact UInt32.toNat_ofNat_of_lt' (Nat.lt_of_le_of_lt (Nat.sub_le n p) hn)

theorem ofNat_eq_iff (hn : n < 2 ^ 32) (hp : p < 2 ^ 32) :
    UInt32.ofNat p = UInt32.ofNat n ↔ p = n := by
  rw [← UInt32.toNat_inj, UInt32.toNat_ofNat_of_lt' hp, UInt32.toNat_ofNat_of_lt' hn]

theorem toNat_packetsToSend (hn : n < 2 ^ 32) (hp : p ≤ n) :
    (SocketStream.packetsToSend (UInt32.ofNat n) (UInt32.ofNat p)).toNat = packetsFor (n - p) := by
  have hleft := toNat_left hn hp
  have hlt : n - p < 2 ^ 32 := Nat.lt_of_le_of_lt (Nat.sub_le n p) hn
  unfold SocketStream.packetsToSend packetsFor
  generalize UInt32.ofNat n - UInt32.ofNat p = left at hleft ⊢
  generalize n - p = m at hleft hlt ⊢
  have hdiv : (left / UInt32.ofNat bytesPerFrame).toNat = m / bytesPerFrame := by
    rw [UInt32.toNat_div, hleft]
    rfl
  have hmod : left % UInt32.ofNat bytesPerFrame ≠ 0 ↔ m % bytesPerFrame ≠ 0 := by
    rw [Ne, ← UInt32.toNat_inj, UInt32.toNat_mod, hleft]
    rfl
  have hsucc : (left / UInt32.ofNat bytesPerFrame + 1).toNat = m / bytesPerFrame + 1 := by
    rw [UInt32.toNat_add, hdiv]
    exact Nat.mod_eq_of_lt (show m / 52 + 1 < 2 ^ 32 by omega)
  have hcap : ∀ (packets : UInt32) (k : Nat), packets.toNat = k →
      (if packets > UInt32.ofNat frameBurstSz then UInt32.ofNat frameBurstSz else packets).toNat =
        if k > frameBurstSz then frameBurstSz else k := by
    rintro packets _ rfl
    have hgt : packets > UInt32.ofNat frameBurstSz ↔ packets.toNat > frameBurstSz :=
      UInt32.lt_iff_toNat_lt
    simp only [hgt]
    split <;> rfl
  refine hcap _ _ ?_
  simp only [hmod]
  split
  · exact hsucc
  · exact hdiv

/-- The number of bytes for the next frame. -/
theorem toNat_bytesToSend (hn : n < 2 ^ 32) (hp : p ≤ n) :
    (SocketStream.min (UInt32.ofNat bytesPerFrame) (UInt32.ofNat n - UInt32.ofNat p)).toNat =
      min bytesPerFrame (n - p) := by
  have hleft := toNat_left hn hp
  generalize UInt32.ofNat n - UInt32.ofNat p = left at hleft ⊢
  have hlt : UInt32.ofNat bytesPerFrame < left ↔ bytesPerFrame < left.toNat :=
    UInt32.lt_iff_toNat_lt
  unfold SocketStream.min
  rw [← hleft]
  split
  · next h => exact (Nat.min_eq_left (Nat.le_of_lt (hlt.mp h))).symm
  · next h => exact (Nat.min_eq_right (Nat.le_of_not_lt fun h' => h (hlt.mpr h'))).symm

end

/-! ## The loops -/

section

variable {bytes : Nat → UInt8} {string : List UInt8}

/-- The loop over `j` copies the next `k` bytes; the break comes when nothing is left
to do. -/
theorem stuffBytes_eq (hbytes : Holds bytes string) (hn : string.length < 2 ^ 32) (k p : Nat)
    (payload : Payload) (hk : p + k ≤ string.length) :
    SocketStream.stuffBytes bytes (UInt32.ofNat string.length) k (UInt32.ofNat p) payload =
      (UInt32.ofNat (p + k), payload.appendAll ((string.drop p).take k)) := by
  induction k generalizing p payload with
  | zero => rfl
  | succ k ih =>
    have hp : p < string.length := by omega
    have hbyte : bytes (UInt32.ofNat p).toNat = string[p] := by
      rw [UInt32.toNat_ofNat_of_lt' (Nat.lt_trans hp hn)]
      exact hbytes p hp
    have hbreak : UInt32.ofNat (p + 1) = UInt32.ofNat string.length ↔ p + 1 = string.length :=
      ofNat_eq_iff hn (by omega)
    have htake : (string.drop p).take (k + 1) = string[p] :: (string.drop (p + 1)).take k := by
      rw [List.drop_eq_getElem_cons hp, List.take_succ_cons]
    rw [htake]
    unfold SocketStream.stuffBytes
    dsimp only
    rw [hbyte, show UInt32.ofNat p + 1 = UInt32.ofNat (p + 1) from (UInt32.ofNat_add p 1).symm]
    split
    · next h =>
      obtain rfl : k = 0 := by
        have := hbreak.mp h
        omega
      rfl
    · rw [ih (p + 1) _ (by omega), Nat.add_right_comm]
      rfl

/-- Frame `j` of the burst that begins at `p` with `q`. -/
def frameAt (string : List UInt8) (q : UInt8) (p j : Nat) : Frame :=
  ⟨frameSeq q j, BoundedList.empty.appendAll
      ([MessageType.data, frameSeq q j] ++ frameBody string p j),
    UInt32.ofNat (frameEnd string.length p j)⟩

/-- The loop over `i`, when `i` frames have been made and `m` are left. -/
theorem stuffFrames_eq (hbytes : Holds bytes string) (hn : string.length < 2 ^ 32) (q : UInt8)
    (p m i : Nat) (hi : i + m = packetsFor (string.length - p)) :
    SocketStream.stuffFrames bytes (UInt32.ofNat string.length) q m (UInt8.ofNat i)
        (UInt32.ofNat (min (p + bytesPerFrame * i) string.length)) =
      (List.range' i m).map (frameAt string q p) := by
  induction m generalizing i with
  | zero => rfl
  | succ m ih =>
    have hlt := (lt_packetsFor (n := string.length - p) (j := i)).mp (by omega)
    have hpos : min (p + bytesPerFrame * i) string.length = p + bytesPerFrame * i := by omega
    have hend : p + bytesPerFrame * i + min bytesPerFrame (string.length - (p + bytesPerFrame * i))
        = frameEnd string.length p i := by
      unfold frameEnd
      rw [Nat.mul_succ]
      omega
    have hbody : (string.drop (p + bytesPerFrame * i)).take
        (min bytesPerFrame (string.length - (p + bytesPerFrame * i))) = frameBody string p i := by
      unfold frameBody
      rw [List.take_eq_take_iff, List.length_drop]
      omega
    unfold SocketStream.stuffFrames
    dsimp only
    rw [hpos, toNat_bytesToSend hn (by omega), stuffBytes_eq hbytes hn _ _ _ (by omega), hend, hbody,
      ofNat_succ]
    exact congrArg (frameAt string q p i :: ·) (ih (i + 1) (by omega))

/-- **The burst** that begins at `p`. -/
theorem burst_segments (hbytes : Holds bytes string) (hn : string.length < 2 ^ 32) (q : UInt8)
    {p : Nat} (hp : p ≤ string.length) :
    SocketStream.burstFrames bytes (UInt32.ofNat string.length) q (UInt32.ofNat p) =
      (List.range (packetsFor (string.length - p))).map (frameAt string q p) := by
  have h := stuffFrames_eq hbytes hn q p (packetsFor (string.length - p)) 0 (Nat.zero_add _)
  rw [show min (p + bytesPerFrame * 0) string.length = p by omega] at h
  unfold SocketStream.burstFrames
  rw [toNat_packetsToSend hn hp, List.range_eq_range']
  exact h

end

/-! ## The pieces of the string -/

/-- A frame with the bytes from `start` on. -/
structure Segment (string : List UInt8) (start : Nat) (f : Frame) : Prop where
  /-- `len - bytes_pos`, from which the length is taken. -/
  left : (UInt32.ofNat string.length - UInt32.ofNat start).toNat = string.length - start
  nonempty : start < f.pos.toNat
  inside : f.pos.toNat ≤ string.length
  width : f.pos.toNat - start = bytesPerFrame ∨
    (f.pos.toNat - start < bytesPerFrame ∧ f.pos.toNat = string.length)
  fits : 2 + (f.pos.toNat - start) ≤ payloadSz
  payload : f.payload.toList =
    [MessageType.data, f.seq] ++ (string.drop start).take (f.pos.toNat - start)

/-- Every frame goes on where the one before it ends. -/
def Consecutive (string : List UInt8) : Nat → List Frame → Prop
  | _, [] => True
  | start, f :: fs => Segment string start f ∧ Consecutive string f.pos.toNat fs

/-- A burst that begins at `start`. -/
structure Segments (string : List UInt8) (start : Nat) (fs : List Frame) : Prop where
  begins : start < string.length
  count : fs.length =
    (SocketStream.packetsToSend (UInt32.ofNat string.length) (UInt32.ofNat start)).toNat
  one_le : 1 ≤ fs.length
  le_four : fs.length ≤ 4
  consecutive : Consecutive string start fs

section

variable {bytes : Nat → UInt8} {string : List UInt8}

theorem frameAt_pos (hn : string.length < 2 ^ 32) (q : UInt8) (p j : Nat) :
    (frameAt string q p j).pos.toNat = frameEnd string.length p j :=
  UInt32.toNat_ofNat_of_lt' (Nat.lt_of_le_of_lt (Nat.min_le_right _ _) hn)

theorem frameAt_payload (q : UInt8) (p j : Nat) : (frameAt string q p j).payload.toList =
    [MessageType.data, frameSeq q j] ++ frameBody string p j := by
  refine BoundedList.appendAll_of_fits _ _ ?_
  have := length_frameBody_le string p j
  have h₁ : bytesPerFrame = 52 := rfl
  have h₂ : payloadSz = 54 := rfl
  rw [List.length_append]
  show 0 + (2 + (frameBody string p j).length) ≤ payloadSz
  omega

theorem frameAt_segment (hn : string.length < 2 ^ 32) (q : UInt8) {p j : Nat}
    (hj : j < packetsFor (string.length - p)) :
    Segment string (p + bytesPerFrame * j) (frameAt string q p j) := by
  have hlt := (lt_packetsFor.mp hj).2
  have h₁ : bytesPerFrame = 52 := rfl
  have h₂ : payloadSz = 54 := rfl
  have hpos := frameAt_pos hn q p j
  have hend : frameEnd string.length p j =
      min (p + bytesPerFrame * j + bytesPerFrame) string.length := by
    unfold frameEnd
    rw [Nat.mul_succ, Nat.add_assoc]
  have hbody : (string.drop (p + bytesPerFrame * j)).take
      (frameEnd string.length p j - (p + bytesPerFrame * j)) = frameBody string p j := by
    unfold frameBody
    rw [List.take_eq_take_iff, List.length_drop]
    omega
  refine ⟨toNat_left hn (by omega), by omega, by omega, ?_, by omega, ?_⟩
  · by_cases hfull : p + bytesPerFrame * j + bytesPerFrame ≤ string.length
    · exact .inl (by omega)
    · exact .inr ⟨by omega, by omega⟩
  · rw [frameAt_payload, hpos, hbody]
    rfl

theorem frames_consecutive (hn : string.length < 2 ^ 32) (q : UInt8) (p m i : Nat)
    (hi : i + m = packetsFor (string.length - p)) :
    Consecutive string (p + bytesPerFrame * i) ((List.range' i m).map (frameAt string q p)) := by
  induction m generalizing i with
  | zero => trivial
  | succ m ih =>
    refine ⟨frameAt_segment hn q (by omega), ?_⟩
    have hrest := ih (i + 1) (by omega)
    cases m with
    | zero => trivial
    | succ m =>
      have hlt := (lt_packetsFor (n := string.length - p) (j := i + 1)).mp (by omega)
      rw [frameAt_pos hn]
      unfold frameEnd
      rw [show min (p + bytesPerFrame * (i + 1)) string.length = p + bytesPerFrame * (i + 1) by
        omega]
      exact hrest

/-- The bursts are made of consecutive pieces. -/
theorem burst_consecutive (hbytes : Holds bytes string) (hn : string.length < 2 ^ 32) (q : UInt8)
    {p : Nat} (hp : p < string.length) : Segments string p
      (SocketStream.burstFrames bytes (UInt32.ofNat string.length) q (UInt32.ofNat p)) := by
  have hlen : (SocketStream.burstFrames bytes (UInt32.ofNat string.length) q
      (UInt32.ofNat p)).length = packetsFor (string.length - p) := by
    rw [burst_segments hbytes hn q (Nat.le_of_lt hp), List.length_map, List.length_range]
  refine ⟨hp, ?_, ?_, ?_, ?_⟩
  · rw [hlen, toNat_packetsToSend hn (Nat.le_of_lt hp)]
  · rw [hlen]
    exact packetsFor_pos (by omega)
  · rw [hlen]
    exact packetsFor_le _
  · rw [burst_segments hbytes hn q (Nat.le_of_lt hp), List.range_eq_range']
    exact frames_consecutive hn q p (packetsFor (string.length - p)) 0 (Nat.zero_add _)

end

/-! ## In a running `write` -/

namespace WriteCall

/-- The frames of the burst at hand. -/
def frames (w : WriteCall) (bytes : Nat → UInt8) (q : UInt8) : List Frame :=
  SocketStream.burstFrames bytes (UInt32.ofNat w.len) q (UInt32.ofNat w.initialBytePos)

/-- The entry of `frame_byte_pos` is the one of the frame. -/
def HasEntry (w : WriteCall) (i : Nat) (f : Frame) : Prop :=
  w.frameBytePos i = ⟨f.seq, f.pos.toNat⟩

/-- The burst of a pass is made of consecutive pieces: the one to come at the head of
the outer loop, and the one at hand behind it.  In it the frame to be sent is the one the
loops make, and in the wait all of them are entered. -/
def Segmented (w : WriteCall) (bytes : Nat → UInt8) (q : UInt8) : Prop :=
  match w.pc with
  | .top => Segments w.bytes w.bytesPos
    (SocketStream.burstFrames bytes (UInt32.ofNat w.len) q (UInt32.ofNat w.bytesPos))
  | .sending i pack => Segments w.bytes w.initialBytePos (w.frames bytes q) ∧
    w.packetsToSend = (w.frames bytes q).length ∧
    (∀ j < i, ∀ f, (w.frames bytes q)[j]? = some f → w.HasEntry j f) ∧
    ∃ f, (w.frames bytes q)[i]? = some f ∧ pack.payload = f.payload ∧ w.finalSeq = f.seq ∧
      (w.frameBytePos i).seq = f.seq ∧ w.bytesPos = f.pos.toNat
  | .waiting => Segments w.bytes w.initialBytePos (w.frames bytes q) ∧
    w.packetsToSend = (w.frames bytes q).length ∧
    (∀ j f, (w.frames bytes q)[j]? = some f → w.HasEntry j f) ∧
    ∃ f, (w.frames bytes q).getLast? = some f ∧ w.finalSeq = f.seq

end WriteCall

section

variable {bytes : Nat → UInt8} {q : UInt8} {w : WriteCall}

theorem WriteCall.frames_eq (hbytes : Holds bytes w.bytes) (hn : w.len < 2 ^ 32)
    (hp : w.initialBytePos < w.len) : w.frames bytes q =
      (List.range (packetsFor (w.len - w.initialBytePos))).map
        (frameAt w.bytes q w.initialBytePos) :=
  burst_segments hbytes hn q (Nat.le_of_lt hp)

theorem WriteCall.frames_getElem (hbytes : Holds bytes w.bytes) (hn : w.len < 2 ^ 32)
    (hp : w.initialBytePos < w.len) (j : Nat) : (w.frames bytes q)[j]? =
      if j < packetsFor (w.len - w.initialBytePos) then
        some (frameAt w.bytes q w.initialBytePos j) else none := by
  rw [frames_eq hbytes hn hp, List.getElem?_map]
  split
  · next h => rw [List.getElem?_range h]; rfl
  · next h => rw [List.getElem?_eq_none (by simpa using h)]; rfl

/-- The entries of the frames sent so far. -/
theorem Bursting.entries {done : Nat} (h : Bursting q w.initialBytePos w done)
    (hbytes : Holds bytes w.bytes) (hn : w.len < 2 ^ 32) (hp : w.initialBytePos < w.len) (j : Nat)
    (hj : j < done) (f : Frame) (hf : (w.frames bytes q)[j]? = some f) : w.HasEntry j f := by
  rw [WriteCall.frames_getElem hbytes hn hp] at hf
  split at hf
  · cases hf
    unfold WriteCall.HasEntry
    rw [frameAt_pos hn]
    exact h.slots j hj
  · cases hf

/-- The stages of a pass, in the words of the loops. -/
theorem PassStage.segmented (hst : PassStage q w) (hbytes : Holds bytes w.bytes)
    (hn : w.len < 2 ^ 32) : w.Segmented bytes q := by
  cases hst with
  | top hpc hpos =>
    unfold WriteCall.Segmented
    rw [hpc]
    exact burst_consecutive hbytes hn q hpos
  | @frame i pack hpc hframe hpos hpack =>
    have hpackets := hframe.bursting.packets
    have hlen : (w.frames bytes q).length = packetsFor (w.len - w.initialBytePos) := by
      rw [WriteCall.frames_eq hbytes hn hpos, List.length_map, List.length_range]
    have hi : i < packetsFor (w.len - w.initialBytePos) := by
      rw [← hpackets]
      exact hframe.lt
    have hat := (WriteCall.frames_getElem (q := q) hbytes hn hpos i).trans (if_pos hi)
    unfold WriteCall.Segmented
    rw [hpc]
    refine ⟨burst_consecutive hbytes hn q hpos, hpackets.trans hlen.symm,
      hframe.bursting.entries hbytes hn hpos, _, hat, ?_, hframe.finalSeq, hframe.seq, ?_⟩
    · exact BoundedList.ext (hpack.trans (frameAt_payload q _ _).symm)
    · exact hframe.bytesPos.trans (frameAt_pos hn q _ _).symm
  | wait hsent hpos =>
    have hpackets := hsent.bursting.packets
    have hlen : (w.frames bytes q).length = packetsFor (w.len - w.initialBytePos) := by
      rw [WriteCall.frames_eq hbytes hn hpos, List.length_map, List.length_range]
    have hcount := packetsFor_pos (n := w.len - w.initialBytePos) (by omega)
    have hlast : (w.frames bytes q).getLast? =
        some (frameAt w.bytes q w.initialBytePos (w.packetsToSend - 1)) := by
      rw [List.getLast?_eq_getElem?, hlen, ← hpackets, WriteCall.frames_getElem hbytes hn hpos]
      exact if_pos (by omega)
    unfold WriteCall.Segmented
    rw [hsent.pc]
    refine ⟨burst_consecutive hbytes hn q hpos, hpackets.trans hlen.symm, fun j f hf => ?_, _, hlast,
      ?_⟩
    · refine hsent.bursting.entries hbytes hn hpos j ?_ f hf
      rw [hpackets, ← hlen]
      exact (List.getElem?_eq_some_iff.mp hf).1
    · rw [hsent.finalSeq]
      show _ = q + UInt8.ofNat (w.packetsToSend - 1 + 1)
      rw [Nat.sub_add_cancel hsent.pos]

end

/-- **Segmentation.**  In every run, whatever is acknowledged, a pass of a `write` begins
with bytes left, and its burst is one to four consecutive pieces of the string.  The
length is a `uint32_t`. -/
theorem write_segments (F : OnFull UInt8) (e : Endpoint) (hidle : e.call = .idle)
    (as : List Action) (e' : Endpoint) (h : Runs.run (Endpoint.next F) e as = some e')
    (w : WriteCall) (hcall : e'.call = .writing w) (hn : w.len < 2 ^ 32) (bytes : Nat → UInt8)
    (hbytes : Holds bytes w.bytes) : w.Segmented bytes e'.socket.sequenceNumber := by
  have hpass : e'.InPass := by
    refine Runs.run_always (I := Endpoint.InPass) (fun e a m he hm => ?_)
      (Endpoint.inPass_of_idle hidle) h
    obtain ⟨⟨m, out⟩, hstep, rfl⟩ := Option.map_eq_some_iff.mp hm
    exact Endpoint.step_inPass he hstep
  exact (hpass w hcall).1.segmented hbytes hn

/-! ## Two frames -/

theorem twoFrames_segmented : ∃ e' w, Runs.run (Endpoint.next (OnFull.refuse UInt8)) smallServer
      [.write (List.replicate 53 65), .burst, .poll [] false] = some e' ∧
    e'.call = .writing w ∧ w.Segmented (fun _ => 65) e'.socket.sequenceNumber := by
  refine ⟨_, _, rfl, rfl, write_segments (OnFull.refuse UInt8) smallServer rfl
    [.write (List.replicate 53 65), .burst, .poll [] false] _ rfl _ rfl (by decide) _ ?_⟩
  intro i h
  exact (List.getElem_replicate (n := 53) (a := 65) h).symm

end PicoLan
