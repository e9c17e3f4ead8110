import PicoLan.Stream.Burst
import PicoLan.Stream.Space
import PicoLan.Stream.Strangers

/-!
# Pass after pass

One iteration of the outer loop of `write` sends a burst, waits and looks at
`last_recved_ack`.  `Verdict` lists what the look can come to, `PassStage` where in a
pass a call stands, and `WriteStep` what a running call can do next.

The cleared entries of `frame_byte_pos` are meant to hold -1 and hold 255.  As long
as 255 is not acknowledged behind a burst of fewer than four frames, every pass gets
on (`write_progress`).
-/

namespace PicoLan

/-! ## The verdict -/

/-- What the check of the acks makes of a burst that began at `p` with `q`. -/
inductive Verdict (q : UInt8) (p : Nat) (w : WriteCall) (s : SocketStream) :
    SocketStream × WriteResult → Prop where
  | timedOut (hack : s.lastRecvedAck = q) (h3 : w.noAckCount + 1 = 3) :
    Verdict q p w s (s, .returns Error.timeout)
  | retry (hack : s.lastRecvedAck = q) (h3 : w.noAckCount + 1 ≠ 3) :
    Verdict q p w s
      (s, .goesOn { w with noAckCount := w.noAckCount + 1, bytesPos := p, pc := .top })
  | cleared (q' : UInt8) (hack : s.lastRecvedAck ≠ q) (h255 : s.lastRecvedAck = 255)
      (hn : w.packetsToSend < 4) :
    Verdict q p w s
      ({ s with sequenceNumber := q' }, .goesOn { w with bytesPos := 0, pc := .top })
  | acked (j : Nat) (hj : j < w.packetsToSend) (hack : s.lastRecvedAck = frameSeq q j)
      (hclear : ¬ (s.lastRecvedAck = 255 ∧ w.packetsToSend < 4)) :
    Verdict q p w s
      ({ s with sequenceNumber := q + UInt8.ofNat j },
        WriteCall.again { w with bytesPos := frameEnd w.len p j })
  | strange (hack : s.lastRecvedAck ≠ q)
      (hframe : ∀ j < w.packetsToSend, s.lastRecvedAck ≠ frameSeq q j)
      (hclear : ¬ (s.lastRecvedAck = 255 ∧ w.packetsToSend < 4)) :
    Verdict q p w s (s, .returns Error.ackOutOfSequence)

section

variable {q : UInt8} {p : Nat} {w : WriteCall}

theorem AllSent.verdict_cleared (hw : AllSent q p w) (hp : p < w.len) (s : SocketStream)
    (hq : s.sequenceNumber = q) (hack : s.lastRecvedAck ≠ q) (h255 : s.lastRecvedAck = 255)
    (hn : w.packetsToSend < 4) : Verdict q p w s (w.evaluate s) := by
  have hmatch : ∃ q', WriteCall.matchAck w.frameBytePos s.lastRecvedAck w.bytesPos
      s.sequenceNumber = (true, 0, q') := by
    have h3 : (w.frameBytePos 3).pos = 0 := by rw [hw.bursting.blank 3 (by omega)]
    by_cases hf : ∃ i < w.packetsToSend, s.lastRecvedAck = frameSeq q i
    · obtain ⟨i, hi, hi'⟩ := hf
      refine ⟨_, (matchAck_one_blank _ _ _ _ i w.packetsToSend hi hn fun j hj => ?_).trans
        (by rw [h3])⟩
      rw [hw.slot_iff_of_frame hi hi' j hj]
      simp only [h255, and_true]
    · refine ⟨_, (matchAck_blank _ _ _ _ w.packetsToSend hn hw.pos fun j hj => ?_).trans
        (by rw [h3])⟩
      rw [hw.slot_iff]
      constructor
      · rintro (⟨hlt, h⟩ | ⟨h, -⟩)
        · exact absurd ⟨j, hlt, h⟩ hf
        · exact h
      · exact fun h => .inr ⟨h, h255⟩
  obtain ⟨q', hmatch⟩ := hmatch
  have hne : s.lastRecvedAck ≠ s.sequenceNumber := by rwa [hq]
  have hlen : (0 : Nat) ≠ w.len := by omega
  rw [w.evaluate_found s hne hmatch, WriteCall.again_goesOn _ hlen]
  exact .cleared q' hack h255 hn

/-- **The verdict** of a pass. -/
theorem AllSent.verdict (hw : AllSent q p w) (hp : p < w.len) (s : SocketStream)
    (hq : s.sequenceNumber = q) : Verdict q p w s (w.evaluate s) := by
  by_cases hack : s.lastRecvedAck = q
  · rw [hw.evaluate_unacked (Nat.ne_of_lt hp) s hq hack]
    split
    · next h3 => exact .timedOut hack h3
    · next h3 => exact .retry hack h3
  have hne : s.lastRecvedAck ≠ s.sequenceNumber := by rwa [hq]
  by_cases hc : s.lastRecvedAck = 255 ∧ w.packetsToSend < 4
  · exact hw.verdict_cleared hp s hq hack hc.1 hc.2
  have hn := hw.packets_le
  by_cases hf : ∃ i < w.packetsToSend, s.lastRecvedAck = frameSeq q i
  · obtain ⟨i, hi, hi'⟩ := hf
    have hmatch : WriteCall.matchAck w.frameBytePos s.lastRecvedAck w.bytesPos s.sequenceNumber =
        (true, frameEnd w.len p i, s.sequenceNumber + UInt8.ofNat i) := by
      rw [hi', hq]
      refine (matchAck_spec hw (i + 1) w.bytesPos (Nat.succ_pos i) hi).resolve_right fun h => hc ?_
      exact ⟨hi'.trans h.1.2, h.1.1⟩
    rw [w.evaluate_found s hne hmatch, hq]
    exact .acked i hi hi' hc
  · have hframe : ∀ j < w.packetsToSend, s.lastRecvedAck ≠ frameSeq q j :=
      fun j hj h => hf ⟨j, hj, h⟩
    rw [w.evaluate_notFound s hne]
    · exact .strange hack hframe hc
    · intro j hj h
      rcases (hw.slot_iff _ j).mp h with ⟨hlt, h⟩ | ⟨hge, h⟩
      · exact hframe j hlt h
      · exact hc ⟨h, by omega⟩

end

/-! ## Where a call stands -/

/-- The invariant of a running `write`: at the head of the loop there are bytes left,
in the burst the frame at hand carries its part of the string, and in the wait the
burst is complete. -/
inductive PassStage (q : UInt8) (w : WriteCall) : Prop where
  | top (hpc : w.pc = .top) (hpos : w.bytesPos < w.len)
  | frame {i : Nat} {pack : DatagramPack} (hpc : w.pc = .sending i pack)
      (hframe : AtFrame q w.initialBytePos w i) (hpos : w.initialBytePos < w.len)
      (hpack : pack.payload.toList =
        [MessageType.data, frameSeq q i] ++ frameBody w.bytes w.initialBytePos i)
  | wait (hsent : AllSent q w.initialBytePos w) (hpos : w.initialBytePos < w.len)

theorem PassStage.of_top {q : UInt8} {w : WriteCall} (h : PassStage q w) (hpc : w.pc = .top) :
    w.bytesPos < w.len := by
  cases h with
  | top _ hpos => exact hpos
  | frame hpc' => exact absurd (hpc.symm.trans hpc') (by simp)
  | wait hsent => exact absurd (hpc.symm.trans hsent.pc) (by simp)

theorem PassStage.of_sending {q : UInt8} {w : WriteCall} {i : Nat} {pack : DatagramPack}
    (h : PassStage q w) (hpc : w.pc = .sending i pack) :
    AtFrame q w.initialBytePos w i ∧ w.initialBytePos < w.len ∧ pack.payload.toList =
      [MessageType.data, frameSeq q i] ++ frameBody w.bytes w.initialBytePos i := by
  cases h with
  | top hpc' => exact absurd (hpc.symm.trans hpc') (by simp)
  | frame hpc' hframe hpos hpack =>
    cases hpc.symm.trans hpc'
    exact ⟨hframe, hpos, hpack⟩
  | wait hsent => exact absurd (hpc.symm.trans hsent.pc) (by simp)

theorem PassStage.of_waiting {q : UInt8} {w : WriteCall} (h : PassStage q w)
    (hpc : w.pc = .waiting) : AllSent q w.initialBytePos w ∧ w.initialBytePos < w.len := by
  cases h with
  | top hpc' => exact absurd (hpc.symm.trans hpc') (by simp)
  | frame hpc' => exact absurd (hpc.symm.trans hpc') (by simp)
  | wait hsent hpos => exact ⟨hsent, hpos⟩

/-- What the burst leaves alone. -/
structure SameCall (w w' : WriteCall) : Prop where
  bytes : w'.bytes = w.bytes
  initialBytePos : w'.initialBytePos = w.initialBytePos
  noAckCount : w'.noAckCount = w.noAckCount
  packetsToSend : w'.packetsToSend = w.packetsToSend

theorem WriteCall.burst_same (w : WriteCall) (s : SocketStream) (address : UInt8) (i : Nat) :
    SameCall w (w.burst s address i) := by
  unfold burst
  split
  · exact ⟨rfl, rfl, rfl, rfl⟩
  · exact ⟨rfl, rfl, rfl, rfl⟩

theorem WriteCall.afterSend_same (w : WriteCall) (s : SocketStream) (address : UInt8) (i : Nat) :
    SameCall w (w.afterSend s address i) := by
  obtain ⟨h₁, h₂, h₃, h₄⟩ := burst_same { w with
    frameBytePos := Function.update w.frameBytePos i { w.frameBytePos i with pos := w.bytesPos } }
    s address (i + 1)
  exact ⟨h₁, h₂, h₃, h₄⟩

theorem WriteCall.start_same (w : WriteCall) (s : SocketStream) (address : UInt8) :
    (w.start s address).bytes = w.bytes ∧ (w.start s address).noAckCount = w.noAckCount ∧
      (w.start s address).initialBytePos = w.bytesPos := by
  obtain ⟨h₁, h₂, h₃, -⟩ := burst_same { w with
    packetsToSend := packetsFor (w.len - w.bytesPos)
    initialBytePos := w.bytesPos
    frameBytePos := fun _ => ⟨255, 0⟩
    burstSeq := 0 } s address 0
  exact ⟨h₁, h₃, h₂⟩

theorem PassStage.start {w : WriteCall} (s : SocketStream) (address : UInt8)
    (hpos : w.bytesPos < w.len) : PassStage s.sequenceNumber (w.start s address) := by
  obtain ⟨hframe, hpc⟩ := start_atFrame w s address hpos
  obtain ⟨hbytes, -, hinit⟩ := w.start_same s address
  rw [← hinit] at hframe
  refine .frame hpc hframe ?_ ?_
  · rw [hinit, WriteCall.len, hbytes]
    exact hpos
  · rw [frame_payload, hbytes, hinit]

theorem PassStage.afterSend {q : UInt8} {w : WriteCall} {i : Nat}
    (hframe : AtFrame q w.initialBytePos w i) (hpos : w.initialBytePos < w.len) (s : SocketStream)
    (address : UInt8) (hq : s.sequenceNumber = q) : PassStage q (w.afterSend s address i) := by
  obtain ⟨hbytes, hinit, -, -⟩ := w.afterSend_same s address i
  have hlen : (w.afterSend s address i).initialBytePos < (w.afterSend s address i).len := by
    rw [hinit, WriteCall.len, hbytes]
    exact hpos
  rcases hframe.afterSend s address hq with ⟨-, hnext, hpc⟩ | ⟨-, hsent⟩
  · rw [← hinit] at hnext
    refine .frame hpc hnext hlen ?_
    rw [frame_payload, hbytes, hinit]
  · rw [← hinit] at hsent
    exact .wait hsent hlen

/-! ## One step -/

section

variable (F : OnFull UInt8)

/-- What a running `write` does in one step. -/
inductive WriteStep (e : Endpoint) (w : WriteCall) : Action → Endpoint → List Output → Prop where
  | burst (hpc : w.pc = .top) :
    WriteStep e w .burst { e with call := .writing (w.start e.socket e.address) } []
  | frame {as : List Arrival} {late : Bool} {i : Nat} {pack : DatagramPack}
      (hpc : w.pc = .sending i pack) :
    WriteStep e w (.poll as late)
      { (e.takeAll F as).1 with
        call := .writing (w.afterSend (e.takeAll F as).1.socket e.address i) }
      ((e.takeAll F as).2 ++ [.sent pack])
  | wait {as : List Arrival} {late : Bool} (hpc : w.pc = .waiting)
      (hgo : ¬ ((e.takeAll F as).1.socket.lastRecvedAck = w.finalSeq ∨ late = true)) :
    WriteStep e w (.poll as late) (e.takeAll F as).1 (e.takeAll F as).2
  | ended {as : List Arrival} {late : Bool} (hpc : w.pc = .waiting)
      (hend : (e.takeAll F as).1.socket.lastRecvedAck = w.finalSeq ∨ late = true) :
    WriteStep e w (.poll as late)
      ((e.takeAll F as).1.afterPass (w.evaluate (e.takeAll F as).1.socket)).1
      ((e.takeAll F as).2 ++
        ((e.takeAll F as).1.afterPass (w.evaluate (e.takeAll F as).1.socket)).2)

theorem Endpoint.writeStep {e e' : Endpoint} {w : WriteCall} {a : Action} {out : List Output}
    (hcall : e.call = .writing w) (h : e.step F a = some (e', out)) :
    WriteStep F e w a e' out := by
  cases a with
  | burst =>
    obtain ⟨w', hcall', hpc, rfl, rfl⟩ := step_burst.mp h
    obtain rfl : w = w' := by injection hcall.symm.trans hcall'
    exact .burst hpc
  | poll as late =>
    obtain ⟨htop, rfl, rfl⟩ := step_poll.mp h
    have htake : (e.takeAll F as).1.call = .writing w := hcall
    cases hpc : w.pc with
    | top =>
      unfold atTop at htop
      rw [hcall] at htop
      dsimp only at htop
      rw [hpc] at htop
      cases htop
    | sending i pack =>
      rw [resume_sending htake hpc]
      exact .frame hpc
    | waiting =>
      rw [resume_waiting htake hpc]
      split
      · next hend => exact .ended hpc hend
      · next hgo =>
        rw [List.append_nil]
        exact .wait hpc hgo
  | connect r port => exact absurd (hcall.symm.trans (step_connect.mp h).2.1) (by simp)
  | listen => exact absurd (hcall.symm.trans (step_listen.mp h).2.1) (by simp)
  | accept => exact absurd (hcall.symm.trans (step_accept.mp h).2.1) (by simp)
  | disconnect => exact absurd (hcall.symm.trans (step_disconnect.mp h).1) (by simp)
  | write bytes => exact absurd (hcall.symm.trans (step_write.mp h).1) (by simp)
  | read len => exact absurd (hcall.symm.trans (step_read.mp h).1) (by simp)

/-- A running `write` is at a stage of a pass, and has not yet missed three acks. -/
def Endpoint.InPass (e : Endpoint) : Prop :=
  ∀ w, e.call = .writing w → PassStage e.socket.sequenceNumber w ∧ w.noAckCount < 3

theorem Endpoint.inPass_of_idle {e : Endpoint} (h : e.call = .idle) : e.InPass := by
  intro w hw
  exact absurd (h.symm.trans hw) (by simp)

theorem Endpoint.inPass_writing {e : Endpoint} {w : WriteCall} (h : e.call = .writing w)
    (hst : PassStage e.socket.sequenceNumber w) (h3 : w.noAckCount < 3) : e.InPass := by
  intro w' hw'
  obtain rfl : w = w' := by injection h.symm.trans hw'
  exact ⟨hst, h3⟩

theorem Endpoint.write_inPass {e : Endpoint} {bytes : List UInt8} (hidle : e.call = .idle) :
    (e.write bytes).1.InPass := by
  unfold Endpoint.write
  split
  · exact inPass_of_idle hidle
  split
  · exact inPass_of_idle hidle
  · next hne => exact inPass_writing rfl (.top rfl (Nat.pos_of_ne_zero hne)) (Nat.zero_lt_succ 2)

/-- The next pass is one of the same call. -/
theorem Verdict.goesOn {q : UInt8} {p : Nat} {w w' : WriteCall} {s : SocketStream}
    {r : SocketStream × WriteResult} (h : Verdict q p w s r) (hr : r.2 = .goesOn w') :
    w'.pc = .top ∧ w'.bytes = w.bytes ∧ w.noAckCount ≤ w'.noAckCount := by
  cases h with
  | timedOut => cases hr
  | retry =>
    cases hr
    exact ⟨rfl, rfl, Nat.le_succ _⟩
  | cleared =>
    cases hr
    exact ⟨rfl, rfl, Nat.le_refl _⟩
  | acked j =>
    dsimp only at hr
    by_cases hend : frameEnd w.len p j = w.len
    · rw [WriteCall.again_returns _ hend] at hr
      cases hr
    · rw [WriteCall.again_goesOn _ hend] at hr
      cases hr
      exact ⟨rfl, rfl, Nat.le_refl _⟩
  | strange => cases hr

theorem Verdict.afterPass {q : UInt8} {p : Nat} {w : WriteCall} {s : SocketStream}
    {r : SocketStream × WriteResult} (h : Verdict q p w s r) (hp : p < w.len) (h3 : w.noAckCount < 3)
    (e : Endpoint) : (e.afterPass r).1.InPass := by
  cases h with
  | timedOut => exact Endpoint.inPass_of_idle rfl
  | retry hack hne =>
    refine Endpoint.inPass_writing rfl (.top rfl hp) ?_
    show w.noAckCount + 1 < 3
    omega
  | cleared => exact Endpoint.inPass_writing rfl (.top rfl (Nat.zero_lt_of_lt hp)) h3
  | acked j hj =>
    by_cases hend : frameEnd w.len p j = w.len
    · rw [WriteCall.again_returns _ hend]
      exact Endpoint.inPass_of_idle rfl
    · rw [WriteCall.again_goesOn _ hend]
      refine Endpoint.inPass_writing rfl (.top rfl ?_) h3
      show frameEnd w.len p j < w.len
      unfold frameEnd at hend ⊢
      omega
  | strange => exact Endpoint.inPass_of_idle rfl

theorem WriteStep.inPass {e e' : Endpoint} {w : WriteCall} {a : Action} {out : List Output}
    (h : WriteStep F e w a e' out) (hcall : e.call = .writing w) (he : e.InPass) : e'.InPass := by
  obtain ⟨hst, h3⟩ := he w hcall
  have hseq := e.takeAll_sequenceNumber F
  cases h with
  | burst hpc =>
    have hpos := hst.of_top hpc
    refine Endpoint.inPass_writing rfl (.start e.socket e.address hpos) ?_
    rw [(w.start_same e.socket e.address).2.1]
    exact h3
  | frame hpc =>
    obtain ⟨hframe, hpos, -⟩ := hst.of_sending hpc
    refine Endpoint.inPass_writing rfl ?_ ?_
    · rw [← hseq _] at hframe
      exact .afterSend hframe hpos _ _ rfl
    · rw [(w.afterSend_same _ _ _).noAckCount]
      exact h3
  | wait hpc =>
    refine Endpoint.inPass_writing (show (e.takeAll F _).1.call = .writing w from hcall) ?_ h3
    rw [hseq]
    exact hst
  | ended hpc =>
    obtain ⟨hsent, hpos⟩ := hst.of_waiting hpc
    exact (hsent.verdict hpos _ (hseq _)).afterPass hpos h3 _

/-! ## Getting on -/

/-- The poll `a` ends a wait: the burst `w`, and the stream it then looks at. -/
def Endpoint.look (e : Endpoint) : Action → Option (WriteCall × SocketStream)
  | .poll as late =>
    match e.call with
    | .writing w =>
      match w.pc with
      | .waiting =>
        if (e.takeAll F as).1.socket.lastRecvedAck = w.finalSeq ∨ late = true then
          some (w, (e.takeAll F as).1.socket)
        else none
      | _ => none
    | _ => none
  | _ => none

/-- The call returns, tries again for the first or second time, or has gone forward. -/
def WriteCall.GetsOn (w : WriteCall) : WriteResult → Prop
  | .returns _ => True
  | .goesOn w' => (w'.noAckCount = w.noAckCount + 1 ∧ w'.noAckCount < 3 ∧
      w'.bytesPos = w.initialBytePos) ∨ w.initialBytePos < w'.bytesPos

instance (w : WriteCall) (r : WriteResult) : Decidable (w.GetsOn r) := by
  cases r <;> unfold WriteCall.GetsOn <;> infer_instance

/-- A pass that ends in this step gets on. -/
def Endpoint.GetsOn (e : Endpoint) (a : Action) : Prop :=
  ∀ w s, e.look F a = some (w, s) → w.GetsOn (w.evaluate s).2

/-- The number of the cleared entries is not acknowledged where there are any. -/
def Endpoint.Clear (e : Endpoint) (a : Action) : Prop :=
  ∀ w s, e.look F a = some (w, s) →
    ¬ (s.lastRecvedAck = 255 ∧ s.sequenceNumber ≠ 255 ∧ w.packetsToSend < 4)

instance (e : Endpoint) (a : Action) : Decidable (e.GetsOn F a) :=
  match h : e.look F a with
  | none => isTrue (fun w s hlook => absurd (h.symm.trans hlook) (by simp))
  | some (w, s) => decidable_of_iff (w.GetsOn (w.evaluate s).2) (by simp [Endpoint.GetsOn, h])

instance (e : Endpoint) (a : Action) : Decidable (e.Clear F a) :=
  match h : e.look F a with
  | none => isTrue (fun w s hlook => absurd (h.symm.trans hlook) (by simp))
  | some (w, s) => decidable_of_iff
      (¬ (s.lastRecvedAck = 255 ∧ s.sequenceNumber ≠ 255 ∧ w.packetsToSend < 4))
      (by simp [Endpoint.Clear, h])

def Endpoint.next (e : Endpoint) (a : Action) : Option Endpoint := (e.step F a).map Prod.fst

theorem Verdict.getsOn_iff {q : UInt8} {p : Nat} {w : WriteCall} {s : SocketStream}
    {r : SocketStream × WriteResult} (h : Verdict q p w s r) (hinit : w.initialBytePos = p)
    (hp : p < w.len) (h3 : w.noAckCount < 3) (hq : s.sequenceNumber = q) : w.GetsOn r.2 ↔
      ¬ (s.lastRecvedAck = 255 ∧ s.sequenceNumber ≠ 255 ∧ w.packetsToSend < 4) := by
  cases h with
  | timedOut hack =>
    refine iff_of_true trivial ?_
    rintro ⟨h255, hne, -⟩
    exact hne (hq.trans (hack.symm.trans h255))
  | retry hack hne3 =>
    refine iff_of_true (.inl ⟨rfl, ?_, hinit.symm⟩) ?_
    · show w.noAckCount + 1 < 3
      omega
    · rintro ⟨h255, hne, -⟩
      exact hne (hq.trans (hack.symm.trans h255))
  | cleared q' hack h255 hn =>
    refine iff_of_false ?_ (fun h => h ⟨h255, ?_, hn⟩)
    · rintro (⟨hcount, -⟩ | hlt)
      · have : w.noAckCount = w.noAckCount + 1 := hcount
        omega
      · have : w.initialBytePos < 0 := hlt
        omega
    · rw [hq, ← h255]
      exact fun h => hack h.symm
  | acked j hj hack hclear =>
    refine iff_of_true ?_ (fun h => hclear ⟨h.1, h.2.2⟩)
    by_cases hend : frameEnd w.len p j = w.len
    · rw [WriteCall.again_returns _ hend]
      trivial
    · rw [WriteCall.again_goesOn _ hend]
      refine .inr ?_
      have h52 : bytesPerFrame = 52 := rfl
      show w.initialBytePos < frameEnd w.len p j
      unfold frameEnd
      rw [hinit, h52]
      omega
  | strange hack hframe hclear => exact iff_of_true trivial (fun h => hclear ⟨h.1, h.2.2⟩)

/-- Where a look comes from. -/
theorem Endpoint.look_eq {e : Endpoint} {a : Action} {w : WriteCall} {s : SocketStream}
    (h : e.look F a = some (w, s)) : ∃ as late, a = .poll as late ∧ e.call = .writing w ∧
      w.pc = .waiting ∧ s = (e.takeAll F as).1.socket := by
  unfold look at h
  split at h
  · next as late =>
    split at h
    · next w' hcall =>
      split at h
      · next hpc =>
        split at h
        · cases h
          exact ⟨as, late, rfl, hcall, hpc, rfl⟩
        · cases h
      · cases h
    · cases h
  · cases h

theorem Endpoint.look_over {e : Endpoint} {w : WriteCall} {as : List Arrival} {late : Bool}
    (hcall : e.call = .writing w) (hpc : w.pc = .waiting)
    (hend : (e.takeAll F as).1.socket.lastRecvedAck = w.finalSeq ∨ late = true) :
    e.look F (.poll as late) = some (w, (e.takeAll F as).1.socket) := by
  unfold look
  rw [hcall]
  dsimp only
  rw [hpc]
  dsimp only
  rw [if_pos hend]

/-- A pass gets on exactly when the cleared entries are not found. -/
theorem Endpoint.getsOn_iff {e : Endpoint} (he : e.InPass) (a : Action) :
    e.GetsOn F a ↔ e.Clear F a := by
  have hone : ∀ w s, e.look F a = some (w, s) → (w.GetsOn (w.evaluate s).2 ↔
      ¬ (s.lastRecvedAck = 255 ∧ s.sequenceNumber ≠ 255 ∧ w.packetsToSend < 4)) := by
    intro w s hlook
    obtain ⟨as, late, -, hcall, hpc, rfl⟩ := look_eq F hlook
    have hseq := e.takeAll_sequenceNumber F as
    obtain ⟨hst, h3⟩ := he w hcall
    obtain ⟨hsent, hpos⟩ := hst.of_waiting hpc
    exact (hsent.verdict hpos _ hseq).getsOn_iff rfl hpos h3 hseq
  constructor
  · intro h w s hlook
    exact (hone w s hlook).mp (h w s hlook)
  · intro h w s hlook
    exact (hone w s hlook).mpr (h w s hlook)

/-! ## What is left -/

/-- Polls and the heads of the loop: what a run of one `write` is made of. -/
def Action.Waits : Action → Prop
  | .poll _ _ => True
  | .burst => True
  | _ => False

def Action.isBurst : Action → Bool
  | .burst => true
  | _ => false

/-- The clock has gone past the time of the call. -/
def Action.isLate : Action → Bool
  | .poll _ late => late
  | _ => false

/-- The passes that are still to begin, while every pass gets on. -/
def Endpoint.passesLeft (e : Endpoint) : Nat :=
  match e.call with
  | .writing w =>
    match w.pc with
    | .top => (w.len - w.bytesPos) + (2 - w.noAckCount)
    | _ => (w.len - w.initialBytePos) + (2 - w.noAckCount) - 1
  | _ => 0

/-- The polls that are still to come in this pass, when each of them is late. -/
def Endpoint.pollsLeft (e : Endpoint) : Nat :=
  match e.call with
  | .writing w =>
    match w.pc with
    | .top => 0
    | .sending i _ => 5 - i
    | .waiting => 1
  | _ => 0

theorem Endpoint.passesLeft_top {e : Endpoint} {w : WriteCall} (hcall : e.call = .writing w)
    (hpc : w.pc = .top) : e.passesLeft = (w.len - w.bytesPos) + (2 - w.noAckCount) ∧
      e.pollsLeft = 0 := by
  unfold passesLeft pollsLeft
  rw [hcall]
  dsimp only
  rw [hpc]
  exact ⟨rfl, rfl⟩

theorem Endpoint.passesLeft_sending {e : Endpoint} {w : WriteCall} {i : Nat} {pack : DatagramPack}
    (hcall : e.call = .writing w) (hpc : w.pc = .sending i pack) :
    e.passesLeft = (w.len - w.initialBytePos) + (2 - w.noAckCount) - 1 ∧ e.pollsLeft = 5 - i := by
  unfold passesLeft pollsLeft
  rw [hcall]
  dsimp only
  rw [hpc]
  exact ⟨rfl, rfl⟩

theorem Endpoint.passesLeft_waiting {e : Endpoint} {w : WriteCall} (hcall : e.call = .writing w)
    (hpc : w.pc = .waiting) :
    e.passesLeft = (w.len - w.initialBytePos) + (2 - w.noAckCount) - 1 ∧ e.pollsLeft = 1 := by
  unfold passesLeft pollsLeft
  rw [hcall]
  dsimp only
  rw [hpc]
  exact ⟨rfl, rfl⟩

theorem Endpoint.passesLeft_idle {e : Endpoint} (h : e.call = .idle) :
    e.passesLeft = 0 ∧ e.pollsLeft = 0 := by
  unfold passesLeft pollsLeft
  rw [h]
  exact ⟨rfl, rfl⟩

/-- A pass that has got on has fewer to come. -/
theorem Endpoint.passesLeft_afterPass (e : Endpoint) {w : WriteCall}
    {r : SocketStream × WriteResult} (hgets : w.GetsOn r.2) (hp : w.initialBytePos < w.len)
    (h3 : w.noAckCount < 3) (hbound : ∀ w', r.2 = .goesOn w' → w'.pc = .top ∧ w'.len = w.len ∧
      w.noAckCount ≤ w'.noAckCount) :
    (e.afterPass r).1.passesLeft ≤ (w.len - w.initialBytePos) + (2 - w.noAckCount) - 1 ∧
      (e.afterPass r).1.pollsLeft = 0 := by
  obtain ⟨s, r⟩ := r
  cases r with
  | returns n =>
    have hidle : (e.afterPass (s, .returns n)).1.call = .idle := rfl
    obtain ⟨h₁, h₂⟩ := passesLeft_idle hidle
    exact ⟨by rw [h₁]; exact Nat.zero_le _, h₂⟩
  | goesOn w' =>
    obtain ⟨hpc, hlen, hcount⟩ := hbound w' rfl
    have hcall : (e.afterPass (s, .goesOn w')).1.call = .writing w' := rfl
    obtain ⟨h₁, h₂⟩ := passesLeft_top hcall hpc
    refine ⟨?_, h₂⟩
    rw [h₁, hlen]
    rcases hgets with ⟨hretry, hlt, hpos⟩ | hpos
    · rw [hretry, hpos]
      omega
    · omega

/-- The bursts begun and the late polls use up what is left. -/
theorem WriteStep.left {e e' : Endpoint} {w : WriteCall} {a : Action} {out : List Output}
    (h : WriteStep F e w a e' out) (hcall : e.call = .writing w) (he : e.InPass)
    (hclear : e.Clear F a) : e'.passesLeft + a.isBurst.toNat ≤ e.passesLeft ∧
      (e'.call ≠ .idle → 5 * e'.passesLeft + e'.pollsLeft + a.isLate.toNat ≤
        5 * e.passesLeft + e.pollsLeft) := by
  obtain ⟨hst, h3⟩ := he w hcall
  have hseq := e.takeAll_sequenceNumber F
  cases h with
  | burst hpc =>
    have hpos := hst.of_top hpc
    obtain ⟨hl, hp⟩ := Endpoint.passesLeft_top hcall hpc
    obtain ⟨-, hstart⟩ := start_atFrame w e.socket e.address hpos
    obtain ⟨hbytes, hcount, hinit⟩ := w.start_same e.socket e.address
    obtain ⟨hl', hp'⟩ := Endpoint.passesLeft_sending
      (e := { e with call := .writing (w.start e.socket e.address) }) rfl hstart
    rw [hinit, hcount, WriteCall.len, hbytes] at hl'
    have hlen : w.bytes.length = w.len := rfl
    rw [hl, hp, hl', hp', hlen]
    simp only [Action.isBurst, Action.isLate, Bool.toNat_true, Bool.toNat_false]
    omega
  | @frame as late i pack hpc =>
    obtain ⟨hframe, -, -⟩ := hst.of_sending hpc
    obtain ⟨hl, hp⟩ := Endpoint.passesLeft_sending hcall hpc
    have hi : i < 4 := by
      have := hframe.lt
      rw [hframe.bursting.packets] at this
      exact Nat.lt_of_lt_of_le this (packetsFor_le _)
    have hlate := late.toNat_le
    obtain ⟨hbytes, hinit, hcount, -⟩ := w.afterSend_same (e.takeAll F as).1.socket e.address i
    have hlen : (w.afterSend (e.takeAll F as).1.socket e.address i).len = w.len :=
      congrArg List.length hbytes
    rw [hl, hp]
    rcases hframe.afterSend (e.takeAll F as).1.socket e.address (hseq as) with
      ⟨-, -, hnext⟩ | ⟨-, hsent⟩
    · obtain ⟨hl', hp'⟩ := Endpoint.passesLeft_sending (e := { (e.takeAll F as).1 with
        call := .writing (w.afterSend (e.takeAll F as).1.socket e.address i) }) rfl hnext
      rw [hl', hp', hinit, hcount, hlen]
      simp only [Action.isBurst, Action.isLate, Bool.toNat_false]
      omega
    · obtain ⟨hl', hp'⟩ := Endpoint.passesLeft_waiting (e := { (e.takeAll F as).1 with
        call := .writing (w.afterSend (e.takeAll F as).1.socket e.address i) }) rfl hsent.pc
      rw [hl', hp', hinit, hcount, hlen]
      simp only [Action.isBurst, Action.isLate, Bool.toNat_false]
      omega
  | @wait as late hpc hgo =>
    obtain ⟨hl, hp⟩ := Endpoint.passesLeft_waiting hcall hpc
    obtain ⟨hl', hp'⟩ := Endpoint.passesLeft_waiting
      (show (e.takeAll F as).1.call = .writing w from hcall) hpc
    have hlate : late = false := by
      cases late with
      | true => exact absurd (.inr rfl) hgo
      | false => rfl
    rw [hl, hp, hl', hp', hlate]
    exact ⟨Nat.le_refl _, fun _ => Nat.le_refl _⟩
  | @ended as late hpc hend =>
    obtain ⟨hsent, hpos⟩ := hst.of_waiting hpc
    obtain ⟨hl, hp⟩ := Endpoint.passesLeft_waiting hcall hpc
    have hverdict := hsent.verdict hpos (e.takeAll F as).1.socket (hseq as)
    have hgets := (hverdict.getsOn_iff rfl hpos h3 (hseq as)).mpr
      (hclear _ _ (Endpoint.look_over F hcall hpc hend))
    obtain ⟨hl', hp'⟩ := Endpoint.passesLeft_afterPass (e.takeAll F as).1 hgets hpos h3
      (fun w' hr => by
        obtain ⟨h₁, h₂, h₃⟩ := hverdict.goesOn hr
        exact ⟨h₁, congrArg List.length h₂, h₃⟩)
    have hlate := late.toNat_le
    rw [hl, hp, hp']
    simp only [Action.isBurst, Action.isLate, Bool.toNat_false]
    omega

/-! ## A whole call -/

theorem Endpoint.next_idle {e e' : Endpoint} {a : Action} (hidle : e.call = .idle) (ha : a.Waits)
    (h : e.next F a = some e') : e'.call = .idle ∧ a.isBurst = false := by
  obtain ⟨⟨e₁, out⟩, hstep, rfl⟩ := Option.map_eq_some_iff.mp h
  cases a with
  | poll as late =>
    obtain ⟨-, rfl, -⟩ := step_poll.mp hstep
    have htake : (e.takeAll F as).1.call = .idle := hidle
    rw [resume_idle htake]
    exact ⟨htake, rfl⟩
  | burst =>
    obtain ⟨w, hcall, -⟩ := step_burst.mp hstep
    exact absurd (hidle.symm.trans hcall) (by simp)
  | _ => cases ha

/-- No call, or a `write`. -/
def Endpoint.OnlyWrites (e : Endpoint) : Prop := e.call = .idle ∨ ∃ w, e.call = .writing w

theorem Endpoint.next_inPass {e e' : Endpoint} {a : Action} (hcall : e.OnlyWrites) (he : e.InPass)
    (ha : a.Waits) (h : e.next F a = some e') : e'.OnlyWrites ∧ e'.InPass := by
  rcases hcall with hidle | ⟨w, hw⟩
  · have hidle' := (next_idle F hidle ha h).1
    exact ⟨.inl hidle', inPass_of_idle hidle'⟩
  · obtain ⟨⟨e₁, out⟩, hstep, rfl⟩ := Option.map_eq_some_iff.mp h
    have hws := writeStep F hw hstep
    refine ⟨?_, hws.inPass F hw he⟩
    cases hws with
    | burst => exact .inr ⟨_, rfl⟩
    | frame => exact .inr ⟨_, rfl⟩
    | wait => exact .inr ⟨w, hw⟩
    | ended =>
      show ((e.takeAll F _).1.afterPass (w.evaluate (e.takeAll F _).1.socket)).1.OnlyWrites
      generalize w.evaluate (e.takeAll F _).1.socket = r
      obtain ⟨s, r⟩ := r
      cases r with
      | returns n => exact .inl rfl
      | goesOn w' => exact .inr ⟨w', rfl⟩

theorem Endpoint.run_left {e e' : Endpoint} {as : List Action} (hcall : e.OnlyWrites)
    (he : e.InPass) (has : ∀ a ∈ as, a.Waits)
    (hclear : Runs.Meets (Endpoint.next F) (fun e a => e.Clear F a) e as)
    (h : Runs.run (Endpoint.next F) e as = some e') :
    e'.passesLeft + as.countP Action.isBurst ≤ e.passesLeft ∧
      (e'.call ≠ .idle → e.call ≠ .idle ∧ 5 * e'.passesLeft + e'.pollsLeft +
        as.countP Action.isLate ≤ 5 * e.passesLeft + e.pollsLeft) := by
  induction as generalizing e with
  | nil =>
    cases h
    exact ⟨Nat.le_refl _, fun hrun => ⟨hrun, Nat.le_refl _⟩⟩
  | cons a as ih =>
    obtain ⟨m, hm, h⟩ := Runs.run_cons.mp h
    have ha := has a List.mem_cons_self
    obtain ⟨hcall', he'⟩ := next_inPass F hcall he ha hm
    obtain ⟨hbursts, hlate⟩ := ih hcall' he' (fun b hb => has b (List.mem_cons_of_mem a hb))
      (hclear.2 m hm) h
    have hcount : ∀ f : Action → Bool, (a :: as).countP f = as.countP f + (f a).toNat := by
      intro f
      rw [List.countP_cons]
      cases f a <;> rfl
    rw [hcount, hcount]
    rcases hcall with hidle | ⟨w, hw⟩
    · obtain ⟨hidle', hnot⟩ := next_idle F hidle ha hm
      have hzero := (passesLeft_idle hidle').1
      refine ⟨?_, fun hrun => absurd hidle' (hlate hrun).1⟩
      rw [hnot, Bool.toNat_false]
      omega
    · obtain ⟨⟨e₁, out⟩, hstep, rfl⟩ := Option.map_eq_some_iff.mp hm
      obtain ⟨h₁, h₂⟩ := (writeStep F hw hstep).left F hw he hclear.1
      refine ⟨by dsimp only at hbursts; omega, fun hrun => ⟨by rw [hw]; simp, ?_⟩⟩
      obtain ⟨hrun', hle⟩ := hlate hrun
      have := h₂ hrun'
      dsimp only at hle
      omega

theorem Endpoint.run_getsOn_iff {e : Endpoint} {as : List Action} (hcall : e.OnlyWrites)
    (he : e.InPass) (has : ∀ a ∈ as, a.Waits) :
    Runs.Meets (Endpoint.next F) (fun e a => e.GetsOn F a) e as ↔
      Runs.Meets (Endpoint.next F) (fun e a => e.Clear F a) e as :=
  Runs.Meets.congr_of_invariant (I := fun e => e.OnlyWrites ∧ e.InPass)
    (fun _ a _ ha he _ hm => next_inPass F he.1 he.2 (has a ha) hm)
    (fun _ a _ he => getsOn_iff F he.2 a) ⟨hcall, he⟩

/-- **Progress.**  Every pass of a `write` returns, is one of two further tries or
moves `bytes_pos` forward, exactly when no pass finds 255 acknowledged behind fewer
than four frames (other than as the number it began with).  Then there are no more
passes than bytes and three, and the call has returned once the clock has run out
often enough. -/
theorem write_progress (e : Endpoint) (bytes : List UInt8) (hopen : e.socket.state = .opened)
    (hidle : e.call = .idle) (hne : bytes ≠ []) (as : List Action) (has : ∀ a ∈ as, a.Waits)
    (e' : Endpoint) (h : Runs.run (Endpoint.next F) (e.write bytes).1 as = some e') :
    (Runs.Meets (Endpoint.next F) (fun e a => e.GetsOn F a) (e.write bytes).1 as ↔
      Runs.Meets (Endpoint.next F) (fun e a => e.Clear F a) (e.write bytes).1 as) ∧
    (Runs.Meets (Endpoint.next F) (fun e a => e.Clear F a) (e.write bytes).1 as →
      as.countP Action.isBurst ≤ bytes.length + 3 ∧
      (5 * (bytes.length + 3) ≤ as.countP Action.isLate → e'.call = .idle)) := by
  have hpass : (e.write bytes).1.InPass := Endpoint.write_inPass hidle
  rw [Endpoint.write_opened hopen hne] at h hpass ⊢
  have hcall : ({ e with call := .writing { bytes } } : Endpoint).OnlyWrites := .inr ⟨_, rfl⟩
  refine ⟨Endpoint.run_getsOn_iff F hcall hpass has, fun hclear => ?_⟩
  obtain ⟨hbursts, hlate⟩ := Endpoint.run_left F hcall hpass has hclear h
  have hleft : ({ e with call := .writing { bytes } } : Endpoint).passesLeft = bytes.length + 2 := rfl
  have hpolls : ({ e with call := .writing { bytes } } : Endpoint).pollsLeft = 0 := rfl
  rw [hleft, hpolls] at hlate
  rw [hleft] at hbursts
  refine ⟨by omega, fun hmany => ?_⟩
  by_contra hrun
  have := (hlate hrun).2
  omega

end

/-! ## Three frames -/

/-- A sender whose last number has been acknowledged. -/
def inStepServer : Endpoint :=
  { smallServer with socket := { smallServer.socket with lastRecvedAck := 1 } }

def threeFrames : List UInt8 := (List.range 110).map UInt8.ofNat

/-- A pass with `frames` frames, in which the clock runs out. -/
def passOf (frames : Nat) (as : List Arrival) : List Action :=
  .burst :: (List.replicate frames (.poll [] false) ++ [.poll as true])

def ackOf (seq : UInt8) : Arrival := datagramTo80 7 [MessageType.ack, seq]

/-- Nothing comes, then the first frame is acknowledged, then the last one. -/
def threePasses : List Action := passOf 3 [] ++ passOf 3 [ackOf 2] ++ passOf 2 [ackOf 3]

theorem threePasses_progress : ∃ e',
    Runs.run (Endpoint.next (OnFull.refuse UInt8)) (inStepServer.write threeFrames).1 threePasses =
      some e' ∧ e'.call = .idle ∧ Runs.Meets (Endpoint.next (OnFull.refuse UInt8))
        (fun e a => e.GetsOn (OnFull.refuse UInt8) a) (inStepServer.write threeFrames).1
        threePasses ∧ threePasses.countP Action.isBurst ≤ threeFrames.length + 3 := by
  refine ⟨_, rfl, rfl, ?_⟩
  obtain ⟨hiff, hcount⟩ := write_progress (OnFull.refuse UInt8) inStepServer threeFrames rfl rfl
    (by decide) threePasses (by simp [threePasses, passOf, Action.Waits]) _ rfl
  have hclear : Runs.Meets (Endpoint.next (OnFull.refuse UInt8))
      (fun e a => e.Clear (OnFull.refuse UInt8) a) (inStepServer.write threeFrames).1
      threePasses := by decide +kernel
  exact ⟨hiff.mpr hclear, (hcount hclear).1⟩

/-! ## One byte for a peer that acknowledges 255 -/

/-- A pass with one frame, at the end of which `ack` has come. -/
def passWithAck (ack : UInt8) : List Action :=
  [.burst, .poll [] true, .poll [datagramTo80 7 [MessageType.ack, ack]] true]

/-- Ten passes for one byte, none of which gets on. -/
theorem blankAck_stuck : ∃ e' w,
    Runs.run (Endpoint.next (OnFull.refuse UInt8)) (smallServer.write [65]).1
      (List.replicate 10 (passWithAck 255)).flatten = some e' ∧
    ¬ Runs.Meets (Endpoint.next (OnFull.refuse UInt8))
      (fun e a => e.GetsOn (OnFull.refuse UInt8) a) (smallServer.write [65]).1 (passWithAck 255) ∧
    [65].length + 3 <
      (List.replicate 10 (passWithAck 255)).flatten.countP Action.isBurst ∧
    5 * ([65].length + 3) ≤
      (List.replicate 10 (passWithAck 255)).flatten.countP Action.isLate ∧
    e'.call = .writing w :=
  ⟨_, _, rfl, by decide +kernel, by decide +kernel, by decide +kernel, rfl⟩

end PicoLan
