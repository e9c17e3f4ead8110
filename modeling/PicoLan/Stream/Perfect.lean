import PicoLan.Stream.Burst
import PicoLan.Stream.Net

/-!
# A burst on a perfect link

The link loses nothing, and time is over for a call only when everything sent has
arrived (`Net.Perfect`).  A burst that begins with nothing on the link is then
decided at its start: the peer takes the frames one after the other (`peerAfter`),
each of them is answered with one number (`ackAfter`), and the burst ends with all
of them acknowledged (`Outcome`), however the polls are arranged.

`Piped a g d` are the states on the way: `a` acknowledgements have arrived, `g` are
on their way back and `d` frames on their way out.
-/

namespace PicoLan

/-- The writer's call goes on and both poll; a poll that is late finds all there
is, and leaves nothing on its way to the other side. -/
def Net.Perfect (i : Side) (n : Net) : NetAction → Prop
  | .act j .burst => j = i
  | .act _ _ => False
  | .poll j behind late =>
    late = true → behind.length = (n.wire j).length ∧ n.wire j.other = []

instance (i : Side) (n : Net) (a : NetAction) : Decidable (n.Perfect i a) := by
  unfold Net.Perfect
  split <;> infer_instance

/-- The number `t` is the one awaited when `heard` was the last. -/
def Expects : Kind → UInt8 → UInt8 → Prop
  | .client, heard, t => t.toNat = heard.toNat + 1
  | .server, heard, t => t = heard + 1

instance (k : Kind) (heard t : UInt8) : Decidable (Expects k heard t) := by
  cases k <;> unfold Expects <;> infer_instance

theorem inSequence_iff (k : Kind) (s : SocketStream) (d : Data) :
    InSequence k s d ↔ Expects k s.remoteSequence (d.cell 1) := by
  cases k <;> rfl

theorem Expects.eq {k : Kind} {heard t : UInt8} (h : Expects k heard t) : t = heard + 1 := by
  cases k with
  | client => exact succ_of_toNat h
  | server => exact h

/-! ## What the start of a burst decides -/

/-- `i` is about to start a burst from the first byte of `b`. -/
structure Net.Ready (i : Side) (b : List UInt8) (n : Net) : Prop where
  opened : ∀ j, (n.ends j).socket.state = .opened
  remote : ∀ j, (n.ends j).socket.remote = (n.ends j.other).address
  remotePort : ∀ j, (n.ends j).socket.remotePort = (n.ends j.other).socket.port
  idle : (n.ends i.other).call = .idle
  wire : ∀ j, n.wire j = []
  nonempty : b ≠ []
  writing : ∃ w, (n.ends i).call = .writing w ∧ w.bytes = b ∧ w.pc = .top ∧ w.bytesPos = 0

namespace Net

section

variable (F : OnFull UInt8) (n₀ : Net) (i : Side) (b : List UInt8)

/-- Frame `j` of the burst. -/
def frameOf (j : Nat) : DatagramPack :=
  (n₀.ends i).socket.frame (n₀.ends i).address (n₀.ends i).socket.sequenceNumber b 0 j

/-- The peer's socket when `k` frames have come. -/
def peerAfter : Nat → SocketStream
  | 0 => (n₀.ends i.other).socket
  | k + 1 =>
    let s := peerAfter k
    let t := frameSeq (n₀.ends i).socket.sequenceNumber k
    if Expects (n₀.ends i.other).kind s.remoteSequence t then
      { s with remoteSequence := t, ringbuf := s.ringbuf.putAll F (frameBody b 0 k) }
    else s

/-- The number acknowledged last when `k` frames have been answered. -/
def ackAfter : Nat → UInt8
  | 0 => (n₀.ends i).socket.lastRecvedAck
  | k + 1 => (peerAfter F n₀ i b (k + 1)).remoteSequence

/-- The answer to `k` frames. -/
def ackOf (k : Nat) : DatagramPack :=
  (n₀.ends i.other).socket.message (n₀.ends i.other).address
    [MessageType.ack, ackAfter F n₀ i b k]

/-- The writer's socket when `a` answers have come. -/
def selfAfter (a : Nat) : SocketStream :=
  { (n₀.ends i).socket with lastRecvedAck := ackAfter F n₀ i b a }

/-- The burst's sender, when `m` frames have been sent. -/
inductive SentSoFar (w : WriteCall) : Nat → Prop where
  | sending {m : Nat} (hw : AtFrame (n₀.ends i).socket.sequenceNumber 0 w m)
      (hpc : w.pc = .sending m (n₀.frameOf i b m)) : SentSoFar w m
  | waiting (hw : AllSent (n₀.ends i).socket.sequenceNumber 0 w) :
      SentSoFar w (packetsFor b.length)

/-- On the way through the burst. -/
structure Piped (a g d : Nat) (n : Net) : Prop where
  self : ∃ w, n.ends i = { n₀.ends i with
    socket := selfAfter F n₀ i b a
    call := .writing w } ∧ w.bytes = b ∧ n₀.SentSoFar i b w (a + g + d)
  peer : n.ends i.other = { n₀.ends i.other with socket := peerAfter F n₀ i b (a + g) }
  frames : n.wire i.other = (List.range' (a + g) d).map (n₀.frameOf i b)
  acks : n.wire i = (List.range' (a + 1) g).map (ackOf F n₀ i b)
  returned : (n.hist i).returned = (n₀.hist i).returned

/-- The burst is over. -/
structure Outcome (n : Net) : Prop where
  peer : n.ends i.other = { n₀.ends i.other with
    socket := peerAfter F n₀ i b (packetsFor b.length) }
  wire : ∀ j, n.wire j = []
  self : ∃ w, w.bytes = b ∧ AllSent (n₀.ends i).socket.sequenceNumber 0 w ∧
    n.ends i = ((n₀.ends i).afterPass
      (w.evaluate (selfAfter F n₀ i b (packetsFor b.length)))).1 ∧
    (n.hist i).returned = (n₀.hist i).returned ++ retsOf ((n₀.ends i).afterPass
      (w.evaluate (selfAfter F n₀ i b (packetsFor b.length)))).2

end

/-! ## Frames and answers -/

section

variable {F : OnFull UInt8} {n₀ n : Net} {i : Side} {b : List UInt8} {a g d : Nat}

/-- The peer's other fields do not change. -/
theorem peerAfter_eq (F : OnFull UInt8) (n₀ : Net) (i : Side) (b : List UInt8) (k : Nat) :
    peerAfter F n₀ i b k = { (n₀.ends i.other).socket with
    remoteSequence := (peerAfter F n₀ i b k).remoteSequence
    ringbuf := (peerAfter F n₀ i b k).ringbuf } := by
  induction k with
  | zero => rfl
  | succ k ih =>
    unfold peerAfter
    dsimp only
    split
    · rw [ih]
    · exact ih

theorem message_congr {s s' : SocketStream} (address : UInt8) (bytes : List UInt8)
    (hr : s.remote = s'.remote) (hp : s.remotePort = s'.remotePort) :
    s.message address bytes = s'.message address bytes := by
  unfold SocketStream.message
  rw [hr, hp]

/-- **One frame, one answer.** -/
theorem handle_frameOf (h₀ : n₀.Ready i b) (k : Nat) (behind : Nat → UInt8) :
    (peerAfter F n₀ i b k).handle F (n₀.ends i.other).kind (n₀.ends i.other).address
        ⟨n₀.frameOf i b k, behind⟩ =
      (peerAfter F n₀ i b (k + 1), [ackOf F n₀ i b (k + 1)]) := by
  obtain ⟨hcell₀, hcell₁, hrest⟩ := arrival_cell (n₀.frameOf i b k) behind
    (frame_payload (n₀.ends i).socket (n₀.ends i).address _ b 0 k)
  have hpeer := peerAfter_eq F n₀ i b k
  have hremote : (peerAfter F n₀ i b k).remote = (n₀.ends i.other).socket.remote := by rw [hpeer]
  have hopen : (peerAfter F n₀ i b k).state = .opened := by
    rw [hpeer]
    exact h₀.opened i.other
  have hport : (peerAfter F n₀ i b k).port = (n₀.ends i).socket.remotePort := by
    rw [hpeer, h₀.remotePort i]
  have hremotePort : (peerAfter F n₀ i b k).remotePort = (n₀.ends i.other).socket.remotePort := by
    rw [hpeer]
  have hsource : (peerAfter F n₀ i b k).remote = (n₀.ends i).address := by
    rw [hremote, h₀.remote i.other, Side.other_other]
  have hfor : (Arrival.mk (n₀.frameOf i b k) behind).IsFor (n₀.ends i.other).address
      (peerAfter F n₀ i b k).port := ⟨.inl (h₀.remote i), hport⟩
  have hsame : { peerAfter F n₀ i b k with remote := (n₀.frameOf i b k).sourceAddr } =
      peerAfter F n₀ i b k := by
    show { peerAfter F n₀ i b k with remote := (n₀.ends i).address } = _
    rw [← hsource]
  rw [SocketStream.handle_data F _ _ _ _ hopen hcell₀, if_pos hfor, hsame]
  dsimp only
  by_cases hq : Expects (n₀.ends i.other).kind (peerAfter F n₀ i b k).remoteSequence
      (frameSeq (n₀.ends i).socket.sequenceNumber k)
  · have hnext : peerAfter F n₀ i b (k + 1) = { peerAfter F n₀ i b k with
        remoteSequence := frameSeq (n₀.ends i).socket.sequenceNumber k
        ringbuf := (peerAfter F n₀ i b k).ringbuf.putAll F (frameBody b 0 k) } := if_pos hq
    rw [if_pos ((inSequence_iff _ _ _).mpr (by rw [hcell₁]; exact hq)), hcell₁, hrest, ackOf,
      ackAfter, hnext]
    exact congrArg (fun p => (_, [p])) (message_congr _ _ hremote hremotePort)
  · have hnext : peerAfter F n₀ i b (k + 1) = peerAfter F n₀ i b k := if_neg hq
    rw [if_neg (fun h => hq (by rw [← hcell₁]; exact (inSequence_iff _ _ _).mp h)), ackOf,
      ackAfter, hnext]
    exact congrArg (fun p => (_, [p])) (message_congr _ _ hremote hremotePort)

/-- An answer is noted. -/
theorem handle_ackOf (h₀ : n₀.Ready i b) (a : Nat) (behind : Nat → UInt8) :
    (selfAfter F n₀ i b a).handle F (n₀.ends i).kind (n₀.ends i).address
        ⟨ackOf F n₀ i b (a + 1), behind⟩ = (selfAfter F n₀ i b (a + 1), []) := by
  have hpayload : (ackOf F n₀ i b (a + 1)).payload.toList =
      [MessageType.ack, ackAfter F n₀ i b (a + 1)] ++ [] := message_payload _ _ _
  obtain ⟨hcell₀, hcell₁, -⟩ := arrival_cell _ behind hpayload
  have hopen : (selfAfter F n₀ i b a).state = .opened := h₀.opened i
  have hfor : (Arrival.mk (ackOf F n₀ i b (a + 1)) behind).IsFor (n₀.ends i).address
      (selfAfter F n₀ i b a).port := by
    refine ⟨.inl ?_, ?_⟩
    · exact (h₀.remote i.other).trans (by rw [Side.other_other])
    · exact Eq.symm ((h₀.remotePort i.other).trans (by rw [Side.other_other]; rfl))
  have hsource : (ackOf F n₀ i b (a + 1)).sourceAddr = (n₀.ends i).socket.remote :=
    (h₀.remote i).symm
  rw [SocketStream.handle_ack F _ _ _ _ hopen hcell₀, if_pos hfor, hcell₁]
  unfold selfAfter
  dsimp only
  rw [hsource]

/-! ## One step of the burst -/

theorem range'_cons_inj {α : Type} {f : Nat → α} {k d : Nat} {p : α} {ps : List α}
    (h : (List.range' k d).map f = p :: ps) :
    ∃ d', d = d' + 1 ∧ p = f k ∧ ps = (List.range' (k + 1) d').map f := by
  cases d with
  | zero => cases h
  | succ d =>
    rw [List.range'_succ, List.map_cons] at h
    injection h with h₁ h₂
    exact ⟨d, rfl, h₁.symm, h₂.symm⟩

/-- A frame reaches the peer. -/
theorem Piped.deliver_peer (h : Piped F n₀ i b a g d n) (h₀ : n₀.Ready i b) (p : DatagramPack)
    (ps : List DatagramPack) (behind : Nat → UInt8) (hw : n.wire i.other = p :: ps) :
    ∃ d', d = d' + 1 ∧ Piped F n₀ i b a (g + 1) d' ((n.withWire i.other ps).put i.other
      ((n.ends i.other).takeAll F [⟨p, behind⟩]).1 ((n.ends i.other).takeAll F [⟨p, behind⟩]).2) := by
  obtain ⟨d', rfl, rfl, rfl⟩ := range'_cons_inj (h.frames.symm.trans hw)
  refine ⟨d', rfl, ?_⟩
  obtain ⟨w, hself, hb, hsent⟩ := h.self
  have htake : (n.ends i.other).takeAll F [⟨n₀.frameOf i b (a + g), behind⟩] =
      ({ n₀.ends i.other with socket := peerAfter F n₀ i b (a + g + 1) },
        [.sent (ackOf F n₀ i b (a + g + 1))]) := by
    rw [Endpoint.takeAll_one, h.peer]
    dsimp only
    rw [handle_frameOf h₀]
    rfl
  rw [htake]
  refine ⟨⟨w, ?_, hb, ?_⟩, ?_, ?_, ?_, ?_⟩
  · simpa using hself
  · convert hsent using 1
    omega
  · simp
    rfl
  · simp [Nat.add_assoc]
  · rw [put_wire_ne _ _ _ _ i.ne_other, withWire_wire_ne _ _ _ i.ne_other, h.acks,
      List.range'_1_concat, List.map_append]
    simp [sentOf, Nat.add_right_comm]
  · simpa using h.returned

/-- An answer reaches the writer. -/
theorem Piped.deliver_self (h : Piped F n₀ i b a g d n) (h₀ : n₀.Ready i b) (p : DatagramPack)
    (ps : List DatagramPack) (behind : Nat → UInt8) (hw : n.wire i = p :: ps) :
    ∃ g', g = g' + 1 ∧ Piped F n₀ i b (a + 1) g' d ((n.withWire i ps).put i
      ((n.ends i).takeAll F [⟨p, behind⟩]).1 ((n.ends i).takeAll F [⟨p, behind⟩]).2) := by
  obtain ⟨g', rfl, rfl, rfl⟩ := range'_cons_inj (h.acks.symm.trans hw)
  refine ⟨g', rfl, ?_⟩
  obtain ⟨w, hself, hb, hsent⟩ := h.self
  have htake : (n.ends i).takeAll F [⟨ackOf F n₀ i b (a + 1), behind⟩] =
      ({ n₀.ends i with socket := selfAfter F n₀ i b (a + 1), call := .writing w }, []) := by
    rw [Endpoint.takeAll_one, hself]
    dsimp only
    rw [handle_ackOf h₀]
    rfl
  have hsum : a + 1 + g' = a + (g' + 1) := by omega
  rw [htake]
  refine ⟨⟨w, ?_, hb, ?_⟩, ?_, ?_, ?_, ?_⟩
  · simp
  · rw [hsum]
    exact hsent
  · rw [hsum]
    simpa using h.peer
  · rw [hsum]
    simpa [sentOf] using h.frames
  · simp
  · simpa [History.noteAll] using h.returned

theorem Piped.deliveries_self {m : Net} {behind : List (Nat → UInt8)}
    (h : Piped F n₀ i b a g d n) (h₀ : n₀.Ready i b)
    (hrun : Runs.run (deliver F i) n behind = some m) :
    ∃ g', g = g' + behind.length ∧ Piped F n₀ i b (a + behind.length) g' d m := by
  induction behind generalizing n a g with
  | nil =>
    cases hrun
    exact ⟨g, rfl, h⟩
  | cons x behind ih =>
    obtain ⟨n₁, h₁, hrun⟩ := Runs.run_cons.mp hrun
    obtain ⟨p, ps, hw, rfl⟩ := deliver_cases h₁
    obtain ⟨g', rfl, h'⟩ := h.deliver_self h₀ p ps x hw
    obtain ⟨g'', rfl, h''⟩ := ih h' hrun
    refine ⟨g'', rfl, ?_⟩
    rw [List.length_cons, show a + (behind.length + 1) = a + 1 + behind.length by omega]
    exact h''

theorem Piped.deliveries_peer {m : Net} {behind : List (Nat → UInt8)}
    (h : Piped F n₀ i b a g d n) (h₀ : n₀.Ready i b)
    (hrun : Runs.run (deliver F i.other) n behind = some m) :
    ∃ d', d = d' + behind.length ∧ Piped F n₀ i b a (g + behind.length) d' m := by
  induction behind generalizing n g d with
  | nil =>
    cases hrun
    exact ⟨d, rfl, h⟩
  | cons x behind ih =>
    obtain ⟨n₁, h₁, hrun⟩ := Runs.run_cons.mp hrun
    obtain ⟨p, ps, hw, rfl⟩ := deliver_cases h₁
    obtain ⟨d', rfl, h'⟩ := h.deliver_peer h₀ p ps x hw
    obtain ⟨d'', rfl, h''⟩ := ih h' hrun
    refine ⟨d'', rfl, ?_⟩
    rw [List.length_cons, show g + (behind.length + 1) = g + 1 + behind.length by omega]
    exact h''

/-- The peer has no call running. -/
theorem Piped.resume_peer (h : Piped F n₀ i b a g d n) (h₀ : n₀.Ready i b) (late : Bool) :
    Piped F n₀ i b a g d (n.resume i.other late) := by
  have hidle : (n.ends i.other).call = .idle := by
    rw [h.peer]
    exact h₀.idle
  rw [resume_eq, Endpoint.resume_idle hidle, put_self]
  exact h

/-- The net when the burst has begun. -/
def begun (n₀ : Net) (i : Side) (w : WriteCall) : Net :=
  n₀.put i { n₀.ends i with
    call := .writing (w.start (n₀.ends i).socket (n₀.ends i).address) } []

theorem Ready.begun (h₀ : n₀.Ready i b) {w : WriteCall}
    (hcall : (n₀.ends i).call = .writing w) : Piped F n₀ i b 0 0 0 (n₀.begun i w) := by
  obtain ⟨w', hcall', hb, -, hpos⟩ := h₀.writing
  obtain rfl : w = w' := by injection hcall.symm.trans hcall'
  have hlen : w.bytesPos < w.len := by
    rw [hpos, WriteCall.len, hb]
    exact List.length_pos_of_ne_nil h₀.nonempty
  obtain ⟨hat, hpack⟩ := start_atFrame w (n₀.ends i).socket (n₀.ends i).address hlen
  rw [hpos] at hat hpack
  rw [hb] at hpack
  refine ⟨⟨_, put_ends_self .., (w.start_bytes _ _).trans hb, .sending hat hpack⟩, ?_, ?_, ?_, ?_⟩
  · simp [Net.begun]
    rfl
  · simp [Net.begun, h₀.wire, sentOf]
  · simp [Net.begun, h₀.wire]
  · simp [Net.begun, History.noteAll]

/-- Until the burst begins nothing happens. -/
theorem Ready.step (h₀ : n₀.Ready i b) {act : NetAction} {n' : Net} (hok : n₀.Perfect i act)
    (hstep : n₀.step F act = some n') : n' = n₀ ∨ Piped F n₀ i b 0 0 0 n' := by
  cases act with
  | poll j behind late =>
    obtain ⟨htop, m, hm, rfl⟩ := step_poll hstep
    obtain rfl | rfl := i.eq_or_other j
    · obtain ⟨w, hcall, -, hpc, -⟩ := h₀.writing
      simp [Endpoint.atTop, hcall, hpc] at htop
    · cases behind with
      | nil =>
        cases hm
        rw [resume_eq, Endpoint.resume_idle h₀.idle, put_self]
        exact .inl rfl
      | cons x behind =>
        obtain ⟨n₁, h₁, -⟩ := Runs.run_cons.mp hm
        obtain ⟨p, ps, hw, -⟩ := deliver_cases h₁
        rw [h₀.wire] at hw
        cases hw
  | act j act =>
    obtain ⟨-, e, out, hact, rfl⟩ := step_act hstep
    cases act with
    | burst =>
      obtain rfl : j = i := hok
      obtain ⟨w, hcall, hpc, rfl, rfl⟩ := Endpoint.step_burst.mp hact
      rw [called_burst]
      exact .inr (h₀.begun hcall)
    | _ => exact absurd hok id

theorem Piped.pc_ne_top (h : Piped F n₀ i b a g d n) {w : WriteCall}
    (hcall : (n.ends i).call = .writing w) : w.pc ≠ .top := by
  obtain ⟨w', hself, hb, hsent⟩ := h.self
  obtain rfl : w = w' := by
    rw [hself] at hcall
    injection hcall with hw
    exact hw.symm
  intro hpc
  generalize a + g + d = m at hsent
  cases hsent with
  | sending hw hpc' => cases hpc.symm.trans hpc'
  | waiting hw => cases hpc.symm.trans hw.pc

/-- The next frame is sent. -/
theorem Piped.send (h : Piped F n₀ i b a g d n) {w : WriteCall}
    (hself : n.ends i = { n₀.ends i with
      socket := selfAfter F n₀ i b a
      call := .writing w }) (hb : w.bytes = b)
    (hw : AtFrame (n₀.ends i).socket.sequenceNumber 0 w (a + g + d))
    (hpc : w.pc = .sending (a + g + d) (n₀.frameOf i b (a + g + d))) (late : Bool) :
    Piped F n₀ i b a g (d + 1) (n.resume i late) := by
  have hcall : (n.ends i).call = .writing w := by rw [hself]
  rw [resume_eq, Endpoint.resume_sending hcall hpc, hself]
  dsimp only
  have hb' := (w.afterSend_bytes (selfAfter F n₀ i b a) (n₀.ends i).address (a + g + d)).trans hb
  refine ⟨⟨_, by simp, hb', ?_⟩, ?_, ?_, ?_, ?_⟩
  · obtain ⟨-, hat, hpack⟩ | ⟨hlast, hall⟩ :=
      hw.afterSend (selfAfter F n₀ i b a) (n₀.ends i).address rfl
    · rw [hb] at hpack
      exact .sending hat hpack
    · have hN := hw.bursting.packets_zero hb
      rw [show a + g + (d + 1) = packetsFor b.length by omega]
      exact .waiting hall
  · simpa using h.peer
  · rw [put_wire_ne _ _ _ _ i.other_ne, h.frames, List.range'_1_concat, List.map_append]
    rfl
  · simpa using h.acks
  · rw [put_hist_self, (History.noteAll_returned _ _).1, h.returned]
    exact List.append_nil _

theorem afterPass_congr (e e' : Endpoint) (hk : e.kind = e'.kind) (ha : e.address = e'.address)
    (r : SocketStream × WriteResult) :
    e.afterPass r = e'.afterPass r ∧ sentOf (e.afterPass r).2 = [] := by
  obtain ⟨s, w | r⟩ := r
  · exact ⟨by simp [Endpoint.afterPass, hk, ha], rfl⟩
  · exact ⟨by simp [Endpoint.afterPass, hk, ha], rfl⟩

/-- Everything has been acknowledged and the wait ends. -/
theorem Piped.evaluate (h : Piped F n₀ i b (packetsFor b.length) 0 0 n) {w : WriteCall}
    (hself : n.ends i = { n₀.ends i with
      socket := selfAfter F n₀ i b (packetsFor b.length)
      call := .writing w }) (hb : w.bytes = b)
    (hw : AllSent (n₀.ends i).socket.sequenceNumber 0 w) (late : Bool)
    (hend : ackAfter F n₀ i b (packetsFor b.length) = w.finalSeq ∨ late = true) :
    Outcome F n₀ i b (n.resume i late) := by
  have hcall : (n.ends i).call = .writing w := by rw [hself]
  have hack : (n.ends i).socket.lastRecvedAck = ackAfter F n₀ i b (packetsFor b.length) := by
    rw [hself]
    rfl
  have hsock : (n.ends i).socket = selfAfter F n₀ i b (packetsFor b.length) := by rw [hself]
  obtain ⟨hpass, hsent⟩ := afterPass_congr (n.ends i) (n₀.ends i) (by rw [hself])
    (by rw [hself]) (w.evaluate (selfAfter F n₀ i b (packetsFor b.length)))
  rw [resume_eq, Endpoint.resume_waiting hcall hw.pc, if_pos (by rw [hack]; exact hend), hsock,
    hpass]
  rw [hpass] at hsent
  refine ⟨?_, ?_, w, hb, hw, put_ends_self .., ?_⟩
  · simpa using h.peer
  · intro j
    obtain rfl | rfl := i.eq_or_other j
    · simpa using h.acks
    · simpa [hsent] using h.frames
  · rw [put_hist_self, (History.noteAll_returned _ _).1, h.returned]

theorem SentSoFar.le {w : WriteCall} {m : Nat} (h : n₀.SentSoFar i b w m) (hb : w.bytes = b) :
    m ≤ packetsFor b.length := by
  cases h with
  | sending hw hpc =>
    rw [← hw.bursting.packets_zero hb]
    exact hw.lt.le
  | waiting hw => exact Nat.le_refl _

/-- The writer polls.  No number looks like the last one before its time. -/
theorem Piped.step_self (h : Piped F n₀ i b a g d n) (h₀ : n₀.Ready i b)
    (hdec : ∀ a < packetsFor b.length, ackAfter F n₀ i b a ≠
      (n₀.ends i).socket.sequenceNumber + UInt8.ofNat (packetsFor b.length))
    {behind : List (Nat → UInt8)} {late : Bool} {n' : Net}
    (hok : n.Perfect i (.poll i behind late)) (hstep : n.step F (.poll i behind late) = some n') :
    (∃ a g d, Piped F n₀ i b a g d n') ∨ Outcome F n₀ i b n' := by
  obtain ⟨htop, m, hm, rfl⟩ := step_poll hstep
  obtain ⟨g', rfl, h'⟩ := h.deliveries_self h₀ hm
  obtain ⟨w, hself, hb, hsent⟩ := h'.self
  have hcall : (m.ends i).call = .writing w := by rw [hself]
  generalize hk : a + behind.length + g' + d = k at hsent
  cases hsent with
  | sending hw hpc =>
    subst hk
    exact .inl ⟨_, _, _, h'.send hself hb hw hpc late⟩
  | waiting hw =>
    by_cases hend : ackAfter F n₀ i b (a + behind.length) = w.finalSeq ∨ late = true
    · have hall : a + behind.length = packetsFor b.length := by
        rcases hend with hack | hlate
        · rw [hw.finalSeq, hw.bursting.packets_zero hb] at hack
          by_contra hne
          exact hdec (a + behind.length) (by omega) hack
        · obtain ⟨hlen, hwire⟩ := hok hlate
          have hd := congrArg List.length (h.frames.symm.trans hwire)
          rw [h.acks] at hlen
          simp only [List.length_map, List.length_range', List.length_nil] at hlen hd
          omega
      obtain rfl : g' = 0 := by omega
      obtain rfl : d = 0 := by omega
      rw [hall] at h' hself hend
      exact .inr (h'.evaluate hself hb hw late hend)
    · have hack : (m.ends i).socket.lastRecvedAck = ackAfter F n₀ i b (a + behind.length) := by
        rw [hself]
        rfl
      rw [resume_eq, Endpoint.resume_waiting hcall hw.pc, if_neg (by rw [hack]; exact hend), put_self]
      exact .inl ⟨_, _, _, h'⟩

/-- **One step of the burst.** -/
theorem Piped.step (h : Piped F n₀ i b a g d n) (h₀ : n₀.Ready i b)
    (hdec : ∀ a < packetsFor b.length, ackAfter F n₀ i b a ≠
      (n₀.ends i).socket.sequenceNumber + UInt8.ofNat (packetsFor b.length))
    {act : NetAction} {n' : Net} (hok : n.Perfect i act) (hstep : n.step F act = some n') :
    (∃ a g d, Piped F n₀ i b a g d n') ∨ Outcome F n₀ i b n' := by
  cases act with
  | poll j behind late =>
    obtain rfl | rfl := i.eq_or_other j
    · exact h.step_self h₀ hdec hok hstep
    · obtain ⟨-, m, hm, rfl⟩ := step_poll hstep
      obtain ⟨d', rfl, h'⟩ := h.deliveries_peer h₀ hm
      exact .inl ⟨_, _, _, h'.resume_peer h₀ late⟩
  | act j act =>
    obtain ⟨-, e, out, hact, rfl⟩ := step_act hstep
    cases act with
    | burst =>
      obtain rfl : j = i := hok
      obtain ⟨w, hcall, hpc, rfl, rfl⟩ := Endpoint.step_burst.mp hact
      exact absurd hpc (h.pc_ne_top hcall)
    | _ => exact absurd hok id

/-! ## The burst can always be finished -/

theorem SentSoFar.allSent {w : WriteCall} {m : Nat} (h : n₀.SentSoFar i b w m) (hb : w.bytes = b)
    (hm : m = packetsFor b.length) : AllSent (n₀.ends i).socket.sequenceNumber 0 w := by
  cases h with
  | sending hw hpc =>
    have := hw.lt
    rw [hw.bursting.packets_zero hb] at this
    omega
  | waiting hw => exact hw

theorem Piped.atTop_self (h : Piped F n₀ i b a g d n) : (n.ends i).atTop = false := by
  obtain ⟨w, hself, hb, hsent⟩ := h.self
  have hcall : (n.ends i).call = .writing w := by rw [hself]
  have hpc := h.pc_ne_top hcall
  unfold Endpoint.atTop
  rw [hcall]
  dsimp only
  split
  · next hpc' => exact absurd hpc' hpc
  · rfl

theorem Piped.atTop_peer (h : Piped F n₀ i b a g d n) (h₀ : n₀.Ready i b) :
    (n.ends i.other).atTop = false := by
  rw [h.peer]
  unfold Endpoint.atTop
  rw [h₀.idle]

/-- The frames that are left are sent. -/
theorem Piped.send_all (h : Piped F n₀ i b a g d n) : ∃ d' n',
    Runs.Reaches (Net.step F) (Net.Perfect i) n n' ∧ Piped F n₀ i b a g d' n' ∧
      a + g + d' = packetsFor b.length := by
  generalize hk : packetsFor b.length - (a + g + d) = k
  induction k generalizing n d with
  | zero =>
    obtain ⟨w, hself, hb, hsent⟩ := h.self
    have hle := hsent.le hb
    exact ⟨d, n, .refl n, h, by omega⟩
  | succ k ih =>
    obtain ⟨w, hself, hb, hsent⟩ := h.self
    generalize hm : a + g + d = m at hsent
    cases hsent with
    | sending hw hpc =>
      subst hm
      have hok : n.Perfect i (.poll i [] false) := fun hlate => absurd hlate (by decide)
      have hstep : n.step F (.poll i [] false) = some (n.resume i false) :=
        step_poll_of_run h.atTop_self rfl false
      obtain ⟨d', n', hreach, h'⟩ := ih (h.send hself hb hw hpc false) (by omega)
      exact ⟨d', n', hreach.head hok hstep, h'⟩
    | waiting hw => omega

/-- **Liveness of a burst.** -/
theorem Piped.finish (h : Piped F n₀ i b a g d n) (h₀ : n₀.Ready i b) : ∃ n',
    Runs.Reaches (Net.step F) (Net.Perfect i) n n' ∧ Outcome F n₀ i b n' := by
  obtain ⟨d, n₁, hreach, h₁, hN⟩ := h.send_all
  -- the peer takes all frames
  obtain ⟨m₁, hm₁⟩ := exists_run_deliver F (n := n₁) (i := i.other) (List.replicate d fun _ => 0)
    (by rw [h₁.frames]; simp)
  have hok₁ : n₁.Perfect i (.poll i.other (List.replicate d fun _ => 0) false) :=
    fun hlate => absurd hlate (by decide)
  have hstep₁ := step_poll_of_run (h₁.atTop_peer h₀) hm₁ false
  obtain ⟨d', hd, h₂⟩ := h₁.deliveries_peer h₀ hm₁
  rw [List.length_replicate] at hd h₂
  obtain rfl : d' = 0 := by omega
  have h₂ := h₂.resume_peer h₀ false
  -- the writer takes all answers
  obtain ⟨m₂, hm₂⟩ := exists_run_deliver F (n := m₁.resume i.other false) (i := i)
    (List.replicate (g + d) fun _ => 0) (by rw [h₂.acks]; simp)
  have hok₂ : (m₁.resume i.other false).Perfect i
      (.poll i (List.replicate (g + d) fun _ => 0) true) :=
    fun _ => ⟨by rw [h₂.acks]; simp, by rw [h₂.frames]; rfl⟩
  have hstep₂ := step_poll_of_run h₂.atTop_self hm₂ true
  obtain ⟨g', hg, h₃⟩ := h₂.deliveries_self h₀ hm₂
  rw [List.length_replicate] at hg h₃
  obtain rfl : g' = 0 := by omega
  rw [show a + (g + d) = packetsFor b.length by omega] at h₃
  obtain ⟨w, hself, hb, hsent⟩ := h₃.self
  have hout := h₃.evaluate hself hb (hsent.allSent hb rfl) true (.inr rfl)
  exact ⟨_, hreach.trans (.head hok₁ hstep₁ (.single hok₂ hstep₂)), hout⟩

end

end Net

end PicoLan
