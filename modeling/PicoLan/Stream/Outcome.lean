import PicoLan.Stream.Perfect

/-!
# What a burst comes to

The next state after a burst on a perfect link, and what `write` makes of a number
that acknowledges none of its frames.  255 is also the number of a cleared entry
of `frame_byte_pos`: acknowledged, it sends `write` back to the first byte, with a
higher `sequence_number`.
-/

namespace PicoLan

/-! ## After the burst -/

namespace Net

section

variable {F : OnFull UInt8} {n₀ n : Net} {i : Side} {b : List UInt8}

/-- A peer that awaits none of the frames. -/
theorem peerAfter_refused (k : Nat) (h : ∀ j < k, ¬ Expects (n₀.ends i.other).kind
      (n₀.ends i.other).socket.remoteSequence (frameSeq (n₀.ends i).socket.sequenceNumber j)) :
    peerAfter F n₀ i b k = (n₀.ends i.other).socket := by
  induction k with
  | zero => rfl
  | succ k ih =>
    have hk := ih (fun j hj => h j (by omega))
    unfold peerAfter
    rw [hk]
    exact if_neg (h k (by omega))

/-- The peer awaits frame `k` of the burst. -/
theorem peerAfter_taken {k : Nat} {s : SocketStream} (hs : peerAfter F n₀ i b k = s)
    (h : Expects (n₀.ends i.other).kind s.remoteSequence
      (frameSeq (n₀.ends i).socket.sequenceNumber k)) :
    peerAfter F n₀ i b (k + 1) = { s with
      remoteSequence := frameSeq (n₀.ends i).socket.sequenceNumber k
      ringbuf := s.ringbuf.putAll F (frameBody b 0 k) } := by
  subst hs
  exact if_pos h

theorem ackAfter_refused (k : Nat) (hk : 0 < k) (h : ∀ j < k, ¬ Expects (n₀.ends i.other).kind
      (n₀.ends i.other).socket.remoteSequence (frameSeq (n₀.ends i).socket.sequenceNumber j)) :
    ackAfter F n₀ i b k = (n₀.ends i.other).socket.remoteSequence := by
  cases k with
  | zero => omega
  | succ k =>
    rw [ackAfter, peerAfter_refused (k + 1) h]

theorem Ready.reaches_begun (h₀ : n₀.Ready i b) : ∃ n,
    Runs.Reaches (Net.step F) (Net.Perfect i) n₀ n ∧ Piped F n₀ i b 0 0 0 n := by
  obtain ⟨w, hcall, -, hpc, -⟩ := h₀.writing
  have hstep : n₀.step F (.act i .burst) = some (n₀.begun i w) := by
    show Option.map _ _ = _
    rw [Endpoint.step_burst.mpr ⟨w, hcall, hpc, rfl, rfl⟩, Option.map_some, called_burst]
    rfl
  have hok : n₀.Perfect i (.act i .burst) := rfl
  exact ⟨_, .single hok hstep, h₀.begun hcall⟩

theorem Ready.finish (h₀ : n₀.Ready i b) : ∃ n,
    Runs.Reaches (Net.step F) (Net.Perfect i) n₀ n ∧ Outcome F n₀ i b n := by
  obtain ⟨n₁, hreach₁, h₁⟩ := h₀.reaches_begun (F := F)
  obtain ⟨n, hreach, hout⟩ := h₁.finish h₀
  exact ⟨n, hreach₁.trans hreach, hout⟩

/-- When the number of the last frame was acknowledged before, the wait can end
before the peer has seen any of the frames. -/
theorem Ready.early (h₀ : n₀.Ready i b) (hack : (n₀.ends i).socket.lastRecvedAck =
      (n₀.ends i).socket.sequenceNumber + UInt8.ofNat (packetsFor b.length)) : ∃ n w,
    Runs.Reaches (Net.step F) (Net.Perfect i) n₀ n ∧ w.bytes = b ∧
      AllSent (n₀.ends i).socket.sequenceNumber 0 w ∧
      n.ends i = ((n₀.ends i).afterPass (w.evaluate (n₀.ends i).socket)).1 ∧
      n.ends i.other = n₀.ends i.other := by
  obtain ⟨n₁, hreach₁, h₁⟩ := h₀.reaches_begun (F := F)
  obtain ⟨d, n₂, hreach₂, h₂, hd⟩ := h₁.send_all
  obtain ⟨w, hself, hb, hsent⟩ := h₂.self
  have hw := hsent.allSent hb hd
  have hcall : (n₂.ends i).call = .writing w := by rw [hself]
  have hsock : (n₂.ends i).socket = (n₀.ends i).socket := by
    rw [hself]
    rfl
  have hfinal : (n₂.ends i).socket.lastRecvedAck = w.finalSeq := by
    rw [hsock, hw.finalSeq, hw.bursting.packets_zero hb]
    exact hack
  have hok : n₂.Perfect i (.poll i [] false) := fun hlate => absurd hlate (by decide)
  have hstep : n₂.step F (.poll i [] false) = some (n₂.resume i false) :=
    step_poll_of_run h₂.atTop_self rfl false
  refine ⟨_, w, hreach₁.trans (hreach₂.trans (.single hok hstep)), hb, hw, ?_, ?_⟩
  · rw [resume_eq, put_ends_self, Endpoint.resume_waiting hcall hw.pc, if_pos (.inl hfinal), hsock]
    exact congrArg Prod.fst
      (afterPass_congr (n₂.ends i) (n₀.ends i) (by rw [hself]) (by rw [hself]) _).1
  · rw [resume_eq, put_ends_ne _ _ _ _ i.other_ne]
    exact h₂.peer

/-- The pass returns. -/
theorem Outcome.returned (h : Outcome F n₀ i b n) {r : Int}
    (hev : ∀ w, w.bytes = b → AllSent (n₀.ends i).socket.sequenceNumber 0 w →
      ∃ s, w.evaluate (selfAfter F n₀ i b (packetsFor b.length)) = (s, .returns r)) :
    (n.ends i).call = .idle ∧ (n.hist i).returned = (n₀.hist i).returned ++ [r] := by
  obtain ⟨w, hb, hw, hself, hret⟩ := h.self
  obtain ⟨s, hev⟩ := hev w hb hw
  rw [hev] at hself hret
  rw [hself]
  exact ⟨rfl, hret⟩

/-- The pass is followed by another one, from the first byte on. -/
theorem Outcome.again (h : Outcome F n₀ i b n) (h₀ : n₀.Ready i b) {q : UInt8}
    (hev : ∀ w, w.bytes = b → AllSent (n₀.ends i).socket.sequenceNumber 0 w →
      ∃ w', w.evaluate (selfAfter F n₀ i b (packetsFor b.length)) =
        ({ selfAfter F n₀ i b (packetsFor b.length) with sequenceNumber := q }, .goesOn w') ∧
        w'.bytes = b ∧ w'.pc = .top ∧ w'.bytesPos = 0) :
    n.Ready i b ∧ (n.ends i).kind = (n₀.ends i).kind ∧
      (n.ends i).socket = { selfAfter F n₀ i b (packetsFor b.length) with sequenceNumber := q } ∧
      (n.hist i).returned = (n₀.hist i).returned := by
  obtain ⟨w, hb, hw, hself, hret⟩ := h.self
  obtain ⟨w', hev, hb', hpc', hpos'⟩ := hev w hb hw
  rw [hev] at hself hret
  have hret' : (n.hist i).returned = (n₀.hist i).returned := hret.trans (List.append_nil _)
  have hpeer := peerAfter_eq F n₀ i b (packetsFor b.length)
  refine ⟨⟨fun j => ?_, fun j => ?_, fun j => ?_, ?_, h.wire, h₀.nonempty, w', ?_, hb', hpc', hpos'⟩,
    ?_, ?_, hret'⟩
  · obtain rfl | rfl := i.eq_or_other j
    · rw [hself]
      exact h₀.opened j
    · rw [h.peer, hpeer]
      exact h₀.opened i.other
  · obtain rfl | rfl := i.eq_or_other j
    · rw [hself, h.peer]
      exact h₀.remote j
    · rw [Side.other_other, hself, h.peer, hpeer]
      exact (h₀.remote i.other).trans (by rw [Side.other_other]; rfl)
  · obtain rfl | rfl := i.eq_or_other j
    · rw [hself, h.peer, hpeer]
      exact h₀.remotePort j
    · rw [Side.other_other, hself, h.peer, hpeer]
      exact (h₀.remotePort i.other).trans (by rw [Side.other_other]; rfl)
  · rw [h.peer]
    exact h₀.idle
  · rw [hself]
    rfl
  · rw [hself]
    rfl
  · rw [hself]
    rfl

end

end Net

/-! ## What `write` makes of a refusal -/

section

variable {q : UInt8} {b : List UInt8} {w : WriteCall}

/-- A number that is in no entry. -/
theorem AllSent.evaluate_strange (hw : AllSent q 0 w) (hb : w.bytes = b) (s : SocketStream)
    (hq : s.sequenceNumber = q) (hne : s.lastRecvedAck ≠ q)
    (hframe : ∀ j < packetsFor b.length, s.lastRecvedAck ≠ frameSeq q j)
    (hblank : s.lastRecvedAck ≠ 255 ∨ packetsFor b.length = 4) :
    w.evaluate s = (s, .returns Error.ackOutOfSequence) := by
  refine w.evaluate_notFound s (by rw [hq]; exact hne) fun j hj h => ?_
  have hpackets := hw.bursting.packets_zero hb
  rcases (hw.slot_iff _ j).mp h with ⟨hlt, h⟩ | ⟨hge, h⟩
  · exact hframe j (by omega) h
  · exact hblank.elim (fun hne => hne h) (fun _ => by omega)

/-- The last of the cleared entries is found, and the next pass begins at the first
byte. -/
theorem AllSent.evaluate_cleared (hw : AllSent q 0 w) (hb : w.bytes = b) (hne : b ≠ [])
    (s : SocketStream) (hack : s.lastRecvedAck ≠ s.sequenceNumber)
    (hN : packetsFor b.length < 4) {seq : UInt8}
    (hmatch : WriteCall.matchAck w.frameBytePos s.lastRecvedAck w.bytesPos s.sequenceNumber =
      (true, (w.frameBytePos 3).pos, seq)) :
    w.evaluate s =
      ({ s with sequenceNumber := seq }, .goesOn { w with bytesPos := 0, pc := .top }) := by
  have hlen : 0 < b.length := List.length_pos_of_ne_nil hne
  have hpackets := hw.bursting.packets_zero hb
  have hlast : (w.frameBytePos 3).pos = 0 := by rw [hw.bursting.blank 3 (by omega)]
  rw [w.evaluate_found s hack hmatch, hlast]
  refine congrArg _ (WriteCall.again_goesOn _ ?_)
  rw [WriteCall.len, hb]
  exact hlen.ne

/-- The number of the cleared entries, which no frame has. -/
theorem AllSent.evaluate_blank (hw : AllSent q 0 w) (hb : w.bytes = b) (hne : b ≠ [])
    (s : SocketStream) (hq : s.sequenceNumber = q) (hack : s.lastRecvedAck = 255) (hq255 : q ≠ 255)
    (hN : packetsFor b.length < 4) (hframe : ∀ j < packetsFor b.length, frameSeq q j ≠ 255) :
    w.evaluate s = ({ s with sequenceNumber := q + UInt8.ofNat (blankSum (packetsFor b.length)) },
      .goesOn { w with bytesPos := 0, pc := .top }) := by
  have hpackets := hw.bursting.packets_zero hb
  refine hw.evaluate_cleared hb hne s (by rw [hack, hq]; exact hq255.symm) hN ?_
  rw [hack, hq, ← hpackets]
  refine matchAck_blank _ _ _ _ _ (by omega) hw.pos fun j hj => ?_
  rw [hw.slot_iff]
  constructor
  · rintro (⟨hlt, h⟩ | ⟨hge, -⟩)
    · exact absurd h.symm (hframe j (by omega))
    · exact hge
  · exact fun hge => .inr ⟨hge, rfl⟩

/-- The number of the cleared entries, which the last frame has as well. -/
theorem AllSent.evaluate_last (hw : AllSent q 0 w) (hb : w.bytes = b) (hne : b ≠ [])
    (s : SocketStream) (hq : s.sequenceNumber = q) (hack : s.lastRecvedAck = 255)
    (hN : packetsFor b.length < 4) (hlast : frameSeq q (packetsFor b.length - 1) = 255) :
    w.evaluate s = ({ s with
        sequenceNumber :=
          q + UInt8.ofNat (packetsFor b.length - 1 + blankSum (packetsFor b.length)) },
      .goesOn { w with bytesPos := 0, pc := .top }) := by
  have hpackets := hw.bursting.packets_zero hb
  have hpos := hw.pos
  have hnew : s.lastRecvedAck ≠ s.sequenceNumber := by
    rw [hack, hq, ← hlast]
    exact frameSeq_ne q (by omega)
  refine hw.evaluate_cleared hb hne s hnew hN ?_
  rw [hack, hq, ← hpackets]
  refine matchAck_one_blank _ _ _ _ _ _ (by omega) (by omega) fun j hj => ?_
  have hframe : 255 = frameSeq q (w.packetsToSend - 1) := by
    rw [hpackets]
    exact hlast.symm
  rw [hw.slot_iff_of_frame (by omega) hframe j hj]
  exact or_congr_right (and_iff_left rfl)

end

end PicoLan
