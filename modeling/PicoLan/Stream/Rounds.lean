import PicoLan.Stream.OneFrame

/-!
# The number 255 and two or three frames

Bursts of two or three frames go round with growing numbers until one of them is 0,
which the server awaits.  Of two frames it is the first one after 51 rounds, and the
write works, unless it ended in the first round already, with the number 2 from an
earlier connection taken for an answer; of three frames it is the last one after 169
rounds, and the server takes the end of the string for its beginning.

`Joined.works_iff` puts the cases together.
-/

namespace PicoLan

/-! ## Refused bursts -/

/-- The client on the left is about to start a burst from `q`, to a server whose
socket `s` has heard 255. -/
structure Net.Turn (b : List UInt8) (s : SocketStream) (ret : List Int) (q l : UInt8) (n : Net) :
    Prop where
  ready : n.Ready .left b
  kind : (n.ends .right).kind = .server
  sequenceNumber : (n.ends .left).socket.sequenceNumber = q
  lastRecvedAck : (n.ends .left).socket.lastRecvedAck = l
  peer : (n.ends .right).socket = s
  heard : s.remoteSequence = 255
  returned : (n.hist .left).returned = ret

section

variable {F : OnFull UInt8} {b : List UInt8} {s : SocketStream} {ret : List Int} {q l : UInt8}
  {n n' : Net}

theorem Net.Joined.turn {x : Side → UInt8} (h : n.Joined x l) (hne : b ≠ []) (hx : x .left = 255) :
    (n.calls .left b).Turn b (n.ends .right).socket (n.hist .left).returned 0 l := by
  refine ⟨h.ready hne, ?_, ?_, ?_, ?_, (h.remoteSequence .left).trans hx, calls_returned⟩
  · simpa [calls] using h.server
  · have : ((n.calls .left b).ends .left).socket.sequenceNumber = x .left + 1 := by
      simpa [calls] using h.sequenceNumber .left
    rw [this, hx]
    rfl
  · simpa [calls] using h.lastRecvedAck
  · simp [calls]

/-- No frame has the number 0. -/
theorem Net.Turn.refused (h : n.Turn b s ret q l)
    (hzero : ∀ j < packetsFor b.length, frameSeq q j ≠ 0) :
    ∀ j < packetsFor b.length, ¬ Expects (n.ends (Side.other .left)).kind
      (n.ends (Side.other .left)).socket.remoteSequence
      (frameSeq (n.ends .left).socket.sequenceNumber j) := by
  intro j hj hexp
  have hexp : Expects (n.ends .right).kind (n.ends .right).socket.remoteSequence
      (frameSeq (n.ends .left).socket.sequenceNumber j) := hexp
  rw [h.kind, h.peer, h.heard, h.sequenceNumber] at hexp
  exact hzero j hj hexp

/-- A refused burst is followed by another one. -/
theorem Net.Turn.again (h : n.Turn b s ret q l) (hout : Outcome F n .left b n')
    (hzero : ∀ j < packetsFor b.length, frameSeq q j ≠ 0) {q' : UInt8}
    (hev : ∀ (w : WriteCall) (t : SocketStream), w.bytes = b → AllSent q 0 w →
      t.sequenceNumber = q → t.lastRecvedAck = 255 →
      w.evaluate t =
        ({ t with sequenceNumber := q' }, .goesOn { w with bytesPos := 0, pc := .top })) :
    n'.Turn b s ret q' 255 := by
  have hpos := packetsFor_pos (List.length_pos_of_ne_nil h.ready.nonempty)
  have hack := ackAfter_refused (F := F) (b := b) _ hpos (h.refused hzero)
  have hheard : (n.ends (Side.other .left)).socket.remoteSequence = 255 :=
    (congrArg SocketStream.remoteSequence h.peer).trans h.heard
  rw [hheard] at hack
  obtain ⟨hready, -, hsock, hret⟩ := hout.again h.ready (q := q') (fun w hb hw => by
    rw [h.sequenceNumber] at hw
    exact ⟨_, hev w _ hb hw h.sequenceNumber hack, hb, rfl, rfl⟩)
  have hpeer : n'.ends .right = { n.ends .right with
      socket := peerAfter F n .left b (packetsFor b.length) } := hout.peer
  rw [peerAfter_refused _ (h.refused hzero)] at hpeer
  refine ⟨hready, ?_, ?_, ?_, ?_, h.heard, hret.trans h.returned⟩
  · rw [hpeer]
    exact h.kind
  · rw [hsock]
  · rw [hsock]
    exact hack
  · rw [hpeer]
    exact h.peer

theorem Net.Turn.next (h : n.Turn b s ret q l) (hout : Outcome F n .left b n')
    (hN : packetsFor b.length < 4) (hq : q ≠ 255)
    (hframe : ∀ j < packetsFor b.length, frameSeq q j ≠ 0 ∧ frameSeq q j ≠ 255) :
    n'.Turn b s ret (q + UInt8.ofNat (blankSum (packetsFor b.length))) 255 :=
  h.again hout (fun j hj => (hframe j hj).1) fun _ t hb hw hq' hack =>
    hw.evaluate_blank hb h.ready.nonempty t hq' hack hq hN fun j hj => (hframe j hj).2

/-- As long as the numbers stay below 255. -/
theorem Net.Turn.rounds (hN : packetsFor b.length < 4) (c k : Nat)
    (h : n.Turn b s ret (UInt8.ofNat c) l) (hk : c + blankSum (packetsFor b.length) * k < 255) :
    ∃ n' l', Runs.Reaches (Net.step F) (Net.Perfect .left) n n' ∧
      n'.Turn b s ret (UInt8.ofNat (c + blankSum (packetsFor b.length) * k)) l' := by
  induction k with
  | zero => exact ⟨n, l, .refl n, h⟩
  | succ k ih =>
    have hB := le_blankSum (packetsFor b.length) hN
    have hsucc : blankSum (packetsFor b.length) * (k + 1) =
        blankSum (packetsFor b.length) * k + blankSum (packetsFor b.length) := Nat.mul_succ _ k
    obtain ⟨n₁, l₁, hreach₁, h₁⟩ := ih (by omega)
    obtain ⟨n₂, hreach₂, hout⟩ := h₁.ready.finish (F := F)
    generalize hc : c + blankSum (packetsFor b.length) * k = d at h₁
    have hnext := h₁.next hout hN ?_ ?_
    · refine ⟨n₂, 255, hreach₁.trans hreach₂, ?_⟩
      rw [hsucc, ← Nat.add_assoc, hc, UInt8.ofNat_add]
      exact hnext
    · exact (ofNat_inj (b := 255) (by omega) (by omega)).not.mpr (by omega)
    · intro j hj
      rw [frameSeq, ← UInt8.ofNat_add]
      exact ⟨(ofNat_inj (b := 0) (by omega) (by omega)).not.mpr (by omega),
        (ofNat_inj (b := 255) (by omega) (by omega)).not.mpr (by omega)⟩

/-- The three frames after 253 are 254, 255 and 0: the server takes the last of
them for the first. -/
theorem Net.Turn.three_end (h : n.Turn b s ret 253 l) (hout : Outcome F n .left b n')
    (hN : packetsFor b.length = 3) : (n'.ends .left).call = .idle ∧
      (n'.ends .right).socket.ringbuf = s.ringbuf.putAll F (frameBody b 0 2) := by
  have hserver : (n.ends (Side.other .left)).kind = .server := h.kind
  have hpeer₀ : (n.ends (Side.other .left)).socket = s := h.peer
  have hpeer₂ : peerAfter F n .left b 2 = s := by
    refine (peerAfter_refused 2 fun j hj hexp => ?_).trans hpeer₀
    rw [hserver, hpeer₀, h.heard, h.sequenceNumber] at hexp
    revert hexp
    interval_cases j <;> decide
  have hpeer₃ := peerAfter_taken (F := F) hpeer₂ (by
    rw [hserver, h.heard, h.sequenceNumber]
    decide)
  have hack : ackAfter F n .left b 3 = 0 := by
    show (peerAfter F n .left b 3).remoteSequence = 0
    rw [hpeer₃, h.sequenceNumber]
    rfl
  constructor
  · refine (hout.returned (r := asInt b.length) fun w hb hw => ?_).1
    rw [h.sequenceNumber] at hw
    have hpk := hw.bursting.packets_zero hb
    rw [hN]
    obtain heval | ⟨⟨-, h255⟩, -⟩ := hw.evaluate_acked 3 (by omega) (by omega)
      (selfAfter F n .left b 3) h.sequenceNumber hack
    · refine ⟨_, heval.trans (congrArg _ ?_)⟩
      have hwl : w.len = b.length := by rw [WriteCall.len, hb]
      have hend : frameEnd w.len 0 (3 - 1) = w.len := by
        have := (lt_packetsFor (n := b.length) (j := 3)).not.mp (by omega)
        unfold frameEnd
        omega
      rw [WriteCall.again_returns _ hend]
      exact congrArg _ (congrArg _ hwl)
    · exact absurd h255 (by decide)
  · have hpeer : n'.ends .right = _ := hout.peer
    rw [hpeer, hN, hpeer₃]

theorem Net.Joined.three_frames_not_works {x : Side → UInt8} (h : n.Joined x l) (hne : b ≠ [])
    (hx : x .left = 255) (hN : packetsFor b.length = 3) : ¬ n.WriteWorks F .left b := by
  have hB : blankSum (packetsFor b.length) = 3 := by
    rw [hN]
    rfl
  have h₀ := h.turn hne hx
  -- 0, 3, …, 252
  obtain ⟨n₁, l₁, hreach₁, h₁⟩ := h₀.rounds (F := F) (by omega) 0 84 (by omega)
  -- the last frame has the number 255
  obtain ⟨n₂, hreach₂, hout₂⟩ := h₁.ready.finish (F := F)
  have h₂ : n₂.Turn b (n.ends .right).socket (n.hist .left).returned (UInt8.ofNat 1) 255 := by
    rw [hB] at h₁
    refine h₁.again hout₂ ?_ fun w t hb hw hq hack => ?_
    · intro j hj
      rw [hN] at hj
      interval_cases j <;> decide
    · have heval := hw.evaluate_last hb hne t hq hack (by omega) (by rw [hN]; decide)
      rw [hB, hN] at heval
      exact heval
  -- 1, 4, …, 253
  obtain ⟨n₃, l₃, hreach₃, h₃⟩ := h₂.rounds (F := F) (by omega) 1 84 (by omega)
  rw [hB] at h₃
  obtain ⟨n₄, hreach₄, hout₄⟩ := h₃.ready.finish (F := F)
  obtain ⟨hidle, hring⟩ := h₃.three_end hout₄ hN
  refine not_writeWorks (h.step_write hne)
    (hreach₁.trans (hreach₂.trans (hreach₃.trans hreach₄))) hidle (.inr fun heq => ?_)
  have hlen := congrArg List.length heq
  have hput := RingBuffer.length_putAll_le F (n.ends .right).socket.ringbuf (frameBody b 0 2)
  have hbody := length_frameBody_le b 0 2
  have hlt := (lt_packetsFor (n := b.length) (j := 2)).mp (by omega)
  rw [List.length_append] at hlen
  have hring : (n₄.ends (Side.other .left)).socket.ringbuf = _ := hring
  rw [hring] at hlen
  have hlen : _ = (n.ends .right).socket.ringbuf.toList.length + b.length := hlen
  omega

end

/-! ## Two frames: 51 rounds, then 0 is the next number -/

section

variable {F : OnFull UInt8} {b : List UInt8} {s : SocketStream} {ret : List Int} {l : UInt8}
  {n n₀ : Net}

/-- Round `j`; in the first one nothing of this connection has been acknowledged. -/
def Net.Round (b : List UInt8) (s : SocketStream) (ret : List Int) (l : UInt8) (j : Nat)
    (n : Net) : Prop :=
  n.Turn b s ret (UInt8.ofNat (5 * j)) (if j = 0 then l else 255)

theorem Net.Round.hframe {j : Nat} (hN : packetsFor b.length = 2) (hj : j < 51) :
    ∀ i < packetsFor b.length, frameSeq (UInt8.ofNat (5 * j)) i ≠ 0 ∧
      frameSeq (UInt8.ofNat (5 * j)) i ≠ 255 := by
  intro i hi
  rw [frameSeq, ← UInt8.ofNat_add]
  exact ⟨(ofNat_inj (b := 0) (by omega) (by omega)).not.mpr (by omega),
    (ofNat_inj (b := 255) (by omega) (by omega)).not.mpr (by omega)⟩

theorem Net.Round.next {j : Nat} {n' : Net} (h : n.Round b s ret l j) (hN : packetsFor b.length = 2)
    (hj : j < 51) (hout : Outcome F n .left b n') : n'.Round b s ret l (j + 1) := by
  have hnext := Turn.next h hout (by omega)
    ((ofNat_inj (b := 255) (by omega) (by omega)).not.mpr (by omega)) (Round.hframe hN hj)
  have hq : UInt8.ofNat (5 * j) + UInt8.ofNat (blankSum (packetsFor b.length)) =
      UInt8.ofNat (5 * (j + 1)) := by
    rw [hN, ← UInt8.ofNat_add]
    rfl
  rw [hq] at hnext
  exact hnext

/-- In the last round the server takes both frames. -/
theorem Net.Round.peer_last (h : n.Round b s ret l 51) :
    peerAfter F n .left b 1 = { s with
      remoteSequence := 0
      ringbuf := s.ringbuf.putAll F (frameBody b 0 0) } ∧
    peerAfter F n .left b 2 = { s with
      remoteSequence := 1
      ringbuf := (s.ringbuf.putAll F (frameBody b 0 0)).putAll F (frameBody b 0 1) } := by
  have hserver : (n.ends (Side.other .left)).kind = .server := h.kind
  have hpeer₀ : (n.ends (Side.other .left)).socket = s := h.peer
  have hseq : (n.ends .left).socket.sequenceNumber = 255 := h.sequenceNumber
  have h₁ := peerAfter_taken (F := F) (b := b) (k := 0) hpeer₀ (by
    rw [hserver, h.heard, hseq]
    decide)
  have h₂ := peerAfter_taken (F := F) h₁ (by
    rw [hserver, hseq]
    exact (by decide : Expects .server (frameSeq 255 0) (frameSeq 255 1)))
  rw [hseq] at h₁ h₂
  exact ⟨h₁, h₂⟩

/-- No answer looks like the last one before its time. -/
theorem Net.Round.decisive {j : Nat} (h : n.Round b s ret l j) (hN : packetsFor b.length = 2)
    (hl : l ≠ 2) (hj : j ≤ 51) : ∀ a < packetsFor b.length, ackAfter F n .left b a ≠
      (n.ends .left).socket.sequenceNumber + UInt8.ofNat (packetsFor b.length) := by
  have hzero : ackAfter F n .left b 0 = if j = 0 then l else 255 := h.lastRecvedAck
  intro a ha
  rw [hN] at ha
  rw [hN, h.sequenceNumber, ← UInt8.ofNat_add]
  rcases Nat.lt_or_ge j 51 with hlt | hge
  · have hblank : (255 : UInt8) ≠ UInt8.ofNat (5 * j + 2) :=
      (ofNat_inj (a := 255) (by omega) (by omega)).not.mpr (by omega)
    interval_cases a
    · rw [hzero]
      split
      · next hj =>
        subst hj
        exact hl
      · exact hblank
    · have hack : ackAfter F n .left b 1 = 255 := by
        refine (ackAfter_refused 1 Nat.one_pos fun i hi => ?_).trans ?_
        · exact Turn.refused h (fun i hi => (Round.hframe hN hlt i hi).1) i (by omega)
        · exact (congrArg SocketStream.remoteSequence h.peer).trans h.heard
      rw [hack]
      exact hblank
  · obtain rfl : j = 51 := by omega
    interval_cases a
    · rw [hzero, if_neg (by decide)]
      decide
    · show (peerAfter F n .left b 1).remoteSequence ≠ _
      rw [h.peer_last.1]
      exact (by decide : (0 : UInt8) ≠ UInt8.ofNat (5 * 51 + 2))

/-- The write has worked. -/
structure Net.Delivered (b : List UInt8) (s : SocketStream) (ret : List Int) (n : Net) : Prop where
  idle : ∀ j, (n.ends j).call = .idle
  wire : ∀ j, n.wire j = []
  returned : (n.hist .left).returned = ret ++ [(b.length : Int)]
  ringbuf : (n.ends .right).socket.ringbuf.toList = s.ringbuf.toList ++ b

theorem Net.Round.last {n' : Net} (h : n.Round b s ret l 51) (hN : packetsFor b.length = 2)
    (hroom : b.length ≤ s.ringbuf.free) (hout : Outcome F n .left b n') : n'.Delivered b s ret := by
  have hpeer₂ := (h.peer_last (F := F)).2
  have hseq : (n.ends .left).socket.sequenceNumber = 255 := h.sequenceNumber
  have hack : ackAfter F n .left b 2 = 255 + UInt8.ofNat 2 := by
    show (peerAfter F n .left b 2).remoteSequence = _
    rw [hpeer₂]
    exact (by decide : (1 : UInt8) = 255 + UInt8.ofNat 2)
  have hlen := (lt_packetsFor (n := b.length) (j := 2)).not.mp (by omega)
  have hfits : b.length ≤ bytesPerFrame * 2 := by omega
  obtain ⟨hidle, hret⟩ := hout.returned (r := (b.length : Int)) fun w hb hw => by
    rw [hseq] at hw
    have hpk := hw.bursting.packets_zero hb
    rw [hN]
    obtain heval | ⟨⟨-, h255⟩, -⟩ := hw.evaluate_acked 2 (by omega) (by omega)
      (selfAfter F n .left b 2) hseq hack
    · refine ⟨_, heval.trans (congrArg _ ?_)⟩
      have hwl : w.len = b.length := by rw [WriteCall.len, hb]
      have hend : frameEnd w.len 0 (2 - 1) = w.len := (frameEnd_eq_iff (by omega)).mpr (by omega)
      rw [WriteCall.again_returns _ hend]
      show WriteResult.returns (asInt w.len) = _
      have h52 : bytesPerFrame = 52 := rfl
      rw [hwl, asInt_of_lt (by omega)]
    · exact absurd h255 (by decide)
  have hpeer : n'.ends .right = { n.ends .right with
      socket := peerAfter F n .left b (packetsFor b.length) } := hout.peer
  rw [hN, hpeer₂] at hpeer
  refine ⟨?_, hout.wire, hret.trans (by rw [h.returned]), ?_⟩
  · intro j
    cases j with
    | left => exact hidle
    | right =>
      rw [hpeer]
      exact h.ready.idle
  · have hcat : frameBody b 0 0 ++ frameBody b 0 1 = b := by
      have h₁ := take_append_frameBody b 0 0
      have h₂ := take_append_frameBody b 0 1
      rw [← h₁] at h₂
      simp only [List.drop_zero, Nat.mul_zero, List.take_zero, List.nil_append] at h₂
      rw [h₂, List.take_of_length_le hfits]
    rw [hpeer]
    show ((s.ringbuf.putAll F (frameBody b 0 0)).putAll F (frameBody b 0 1)).toList = _
    rw [← RingBuffer.putAll_append, hcat, RingBuffer.putAll_of_fits F _ _ hroom]

/-- With nothing on the link and no call running, nothing happens any more. -/
theorem Net.Delivered.step (h : n.Delivered b s ret) {a : NetAction} {n' : Net}
    (hok : n.Perfect .left a) (hstep : n.step F a = some n') : n'.Delivered b s ret := by
  cases a with
  | poll j behind late =>
    obtain ⟨-, m, hm, rfl⟩ := step_poll hstep
    cases behind with
    | nil =>
      cases hm
      rw [resume_eq, Endpoint.resume_idle (h.idle j), put_self]
      exact h
    | cons x behind =>
      obtain ⟨n₁, h₁, -⟩ := Runs.run_cons.mp hm
      obtain ⟨p, ps, hw, -⟩ := deliver_cases h₁
      rw [h.wire] at hw
      cases hw
  | act j a =>
    obtain ⟨-, e, out, hact, rfl⟩ := step_act hstep
    cases a with
    | burst =>
      obtain ⟨w, hc, -⟩ := Endpoint.step_burst.mp hact
      cases (h.idle j).symm.trans hc
    | _ => exact absurd hok id

/-- How far the write has come. -/
inductive Net.Course (F : OnFull UInt8) (b : List UInt8) (s : SocketStream) (ret : List Int)
    (l : UInt8) (n : Net) : Prop where
  | top (j : Nat) (hj : j ≤ 51) (h : n.Round b s ret l j)
  | inside (j : Nat) (hj : j ≤ 51) (n₀ : Net) (h₀ : n₀.Round b s ret l j) (a g d : Nat)
    (h : Piped F n₀ .left b a g d n)
  | done (h : n.Delivered b s ret)

theorem Net.Course.outcome {j : Nat} {n' : Net} (h : n.Round b s ret l j)
    (hN : packetsFor b.length = 2) (hroom : b.length ≤ s.ringbuf.free) (hj : j ≤ 51)
    (hout : Outcome F n .left b n') :
    n'.Delivered b s ret ∨ j < 51 ∧ n'.Round b s ret l (j + 1) := by
  rcases Nat.lt_or_ge j 51 with hlt | hge
  · exact .inr ⟨hlt, h.next hN hlt hout⟩
  · obtain rfl : j = 51 := by omega
    exact .inl (h.last hN hroom hout)

theorem Net.Course.step (hN : packetsFor b.length = 2) (hl : l ≠ 2)
    (hroom : b.length ≤ s.ringbuf.free) (n : Net) (a : NetAction) (n' : Net) (h : n.Course F b s ret l) (hok : n.Perfect .left a)
    (hstep : n.step F a = some n') : n'.Course F b s ret l := by
  cases h with
  | top j hj h =>
    obtain rfl | h' := Turn.ready h |>.step hok hstep
    · exact .top j hj h
    · exact .inside j hj n h 0 0 0 h'
  | inside j hj n₀ h₀ a g d h =>
    obtain ⟨a', g', d', h'⟩ | hout := h.step (Turn.ready h₀) (h₀.decisive hN hl hj) hok hstep
    · exact .inside j hj n₀ h₀ a' g' d' h'
    · obtain hdone | ⟨hlt, hnext⟩ := Course.outcome h₀ hN hroom hj hout
      · exact .done hdone
      · exact .top (j + 1) hlt hnext
  | done h => exact .done (h.step hok hstep)

/-- The rounds that are left. -/
theorem Net.Round.finish {j : Nat} (h : n.Round b s ret l j) (hN : packetsFor b.length = 2)
    (hroom : b.length ≤ s.ringbuf.free) (hj : j ≤ 51) : ∃ n',
    Runs.Reaches (Net.step F) (Net.Perfect .left) n n' ∧ n'.Delivered b s ret := by
  generalize hk : 51 - j = k
  induction k generalizing n j with
  | zero =>
    obtain ⟨n₁, hreach, hout⟩ := (Turn.ready h).finish (F := F)
    obtain hdone | ⟨hlt, -⟩ := Course.outcome h hN hroom hj hout
    · exact ⟨n₁, hreach, hdone⟩
    · omega
  | succ k ih =>
    obtain ⟨n₁, hreach, hout⟩ := (Turn.ready h).finish (F := F)
    obtain hdone | ⟨hlt, hnext⟩ := Course.outcome h hN hroom hj hout
    · exact ⟨n₁, hreach, hdone⟩
    · obtain ⟨n₂, hreach₂, hdone⟩ := ih hnext hlt (by omega)
      exact ⟨n₂, hreach.trans hreach₂, hdone⟩

theorem Net.Course.finish (h : n.Course F b s ret l) (hN : packetsFor b.length = 2)
    (hroom : b.length ≤ s.ringbuf.free) : ∃ n',
    Runs.Reaches (Net.step F) (Net.Perfect .left) n n' ∧ n'.Delivered b s ret := by
  cases h with
  | top j hj h => exact h.finish hN hroom hj
  | inside j hj n₀ h₀ a g d h =>
    obtain ⟨n₁, hreach, hout⟩ := h.finish (Turn.ready h₀)
    obtain hdone | ⟨hlt, hnext⟩ := Course.outcome h₀ hN hroom hj hout
    · exact ⟨n₁, hreach, hdone⟩
    · obtain ⟨n₂, hreach₂, hdone⟩ := hnext.finish hN hroom hlt
      exact ⟨n₂, hreach.trans hreach₂, hdone⟩
  | done h => exact ⟨n, .refl n, h⟩

/-- The call has returned only when the write has worked. -/
theorem Net.Course.delivered (h : n.Course F b s ret l) (hidle : (n.ends .left).call = .idle) :
    n.Delivered b s ret := by
  cases h with
  | top j hj h =>
    obtain ⟨w, hc, -⟩ := (Turn.ready h).writing
    cases hidle.symm.trans hc
  | inside j hj n₀ h₀ a g d h =>
    obtain ⟨w, hself, -⟩ := h.self
    rw [hself] at hidle
    cases hidle
  | done h => exact h

theorem Net.Joined.two_frames_work {x : Side → UInt8} (h : n.Joined x l) (hne : b ≠ [])
    (hx : x .left = 255) (hl : l ≠ 2) (hN : packetsFor b.length = 2)
    (hroom : b.length ≤ (n.ends .right).socket.ringbuf.free) : n.WriteWorks F .left b := by
  have h₀ : (n.calls .left b).Course F b (n.ends .right).socket (n.hist .left).returned l :=
    .top 0 (by omega) (h.turn hne hx)
  refine ⟨_, h.step_write hne, fun m' hreach => ?_⟩
  have hm' := hreach.invariant (Course.step hN hl hroom) h₀
  constructor
  · intro hidle
    have hdone := hm'.delivered hidle
    exact ⟨hdone.returned, hdone.ringbuf⟩
  · obtain ⟨m'', hreach', hdone⟩ := hm'.finish hN hroom
    exact ⟨m'', hreach', hdone.idle .left⟩

/-- The two frames are 1 and 2, and 2 counts as acknowledged from the start. -/
theorem Net.Joined.two_frames_early {x : Side → UInt8} (h : n.Joined x 2) (hne : b ≠ [])
    (hx : x .left = 255) (hN : packetsFor b.length = 2) : ¬ n.WriteWorks F .left b := by
  have h₀ := h.turn hne hx
  obtain ⟨m, w, hreach, hb, hw, hself, hpeer⟩ := h₀.ready.early (F := F) (by
    rw [h₀.lastRecvedAck, h₀.sequenceNumber, hN]
    decide)
  rw [h₀.sequenceNumber] at hw
  have hpk := hw.bursting.packets_zero hb
  have hlen := (lt_packetsFor (n := b.length) (j := 2)).not.mp (by omega)
  have hidle : (m.ends .left).call = .idle := by
    obtain heval | ⟨⟨-, h255⟩, -⟩ := hw.evaluate_acked 2 (by omega) (by omega)
      ((n.calls .left b).ends .left).socket h₀.sequenceNumber h₀.lastRecvedAck
    · have hend : frameEnd w.len 0 (2 - 1) = w.len :=
        (frameEnd_eq_iff (by omega)).mpr (by rw [WriteCall.len, hb]; omega)
      rw [hself, heval, WriteCall.again_returns _ hend]
      rfl
    · exact absurd h255 (by decide)
  refine not_writeWorks (h.step_write hne) hreach hidle (.inr fun heq => hne ?_)
  have hpeer : m.ends (Side.other .left) = n.ends (Side.other .left) :=
    hpeer.trans (by simp [calls])
  rw [hpeer] at heq
  exact List.self_eq_append_right.mp heq

end

/-- **When a first write works.** -/
theorem Net.Joined.works_iff {F : OnFull UInt8} {n : Net} {x : Side → UInt8} {l : UInt8}
    (h : n.Joined x l) {i : Side} {b : List UInt8} (hne : b ≠ [])
    (hroom : b.length ≤ (n.ends i.other).socket.ringbuf.free) : n.WriteWorks F i b ↔
      i = .left ∧ x .left = 255 ∧ l ≠ 2 ∧
        bytesPerFrame < b.length ∧ b.length ≤ 2 * bytesPerFrame := by
  have hpos := packetsFor_pos (List.length_pos_of_ne_nil hne)
  have hle := packetsFor_le b.length
  have h₁ := lt_packetsFor (n := b.length) (j := 1)
  have h₂ := lt_packetsFor (n := b.length) (j := 2)
  constructor
  · intro hworks
    have hx : x i = 255 ∧ packetsFor b.length ≠ 4 := by
      by_contra hnot
      exact h.not_works hne (by tauto) hworks
    cases i with
    | right => exact absurd hworks (h.server_not_works hne hx.1)
    | left =>
      have hN₁ : packetsFor b.length ≠ 1 := fun hN => h.one_frame_not_works hne hx.1 hN hworks
      have hN₃ : packetsFor b.length ≠ 3 := fun hN => h.three_frames_not_works hne hx.1 hN hworks
      have hN : packetsFor b.length = 2 := by omega
      refine ⟨rfl, hx.1, ?_, by omega, by omega⟩
      rintro rfl
      exact h.two_frames_early hne hx.1 hN hworks
  · rintro ⟨rfl, hx, hl, hlt, hfits⟩
    exact h.two_frames_work hne hx hl (by omega) hroom

end PicoLan
