import PicoLan.Stream.FirstWrite

/-!
# The number 255 and a single frame

A client whose SYN carried 255 starts its first burst with 0.  As long as a burst
is one frame, `sequence_number` stays even and the frames have odd numbers, so the
server, which awaits 0, takes none of them.
-/

namespace PicoLan

/-- `sequence_number` grows by 6 or not at all, as long as there is one frame. -/
theorem AllSent.evaluate_one {q : UInt8} {b : List UInt8} {w : WriteCall} (hw : AllSent q 0 w)
    (hb : w.bytes = b) (hne : b ≠ []) (hN : packetsFor b.length = 1) (s : SocketStream)
    (hq : s.sequenceNumber = q) : ∃ q' res, w.evaluate s = ({ s with sequenceNumber := q' }, res) ∧
      (q' = q ∨ q' = q + 6) ∧
      ∀ w', res = .goesOn w' → w'.bytes = b ∧ w'.pc = .top ∧ w'.bytesPos = 0 := by
  have hlen : 0 < b.length := List.length_pos_of_ne_nil hne
  have hwl : w.len = b.length := by rw [WriteCall.len, hb]
  have hsame : ∀ res : WriteResult, (s, res) = ({ s with sequenceNumber := q }, res) := by
    intro res
    rw [← hq]
  by_cases hack : s.lastRecvedAck = q
  · refine ⟨q, _, (hw.evaluate_unacked (by rw [hwl]; exact hlen.ne) s hq hack).trans (hsame _),
      .inl rfl, ?_⟩
    intro w' h
    split at h
    · cases h
    · cases h
      exact ⟨hb, rfl, rfl⟩
  by_cases hone : s.lastRecvedAck = frameSeq q 0
  · have hpk := hw.bursting.packets_zero hb
    rw [hN] at hpk
    obtain heval | ⟨-, heval⟩ := hw.evaluate_acked 1 (by omega) (by omega) s hq hone
    · refine ⟨_, _, heval, .inl (UInt8.add_zero q), ?_⟩
      have hend : frameEnd w.len 0 (1 - 1) = w.len := by
        have := (lt_packetsFor (n := b.length) (j := 1)).not.mp (by omega)
        unfold frameEnd
        omega
      rw [WriteCall.again_returns _ hend]
      intro w' h
      cases h
    · refine ⟨_, _, heval, .inr (by rw [hpk]; rfl), ?_⟩
      rw [WriteCall.again_goesOn _ (show (0 : Nat) ≠ w.len by rw [hwl]; exact hlen.ne)]
      intro w' h
      cases h
      exact ⟨hb, rfl, rfl⟩
  by_cases hblank : s.lastRecvedAck = 255
  · refine ⟨_, _, hw.evaluate_blank hb hne s hq hblank (fun h => hack (hblank.trans h.symm))
      (by omega) ?_, .inr (by rw [hN]; rfl), ?_⟩
    · intro j hj heq
      obtain rfl : j = 0 := by omega
      exact hone (hblank.trans heq.symm)
    · intro w' h
      cases h
      exact ⟨hb, rfl, rfl⟩
  · refine ⟨q, _, (hw.evaluate_strange hb s hq hack ?_ (.inl hblank)).trans (hsame _), .inl rfl, ?_⟩
    · intro j hj
      obtain rfl : j = 0 := by omega
      exact hone
    · intro w' h
      cases h

/-- A DATA frame with an odd number. -/
def OddFrame (p : DatagramPack) : Prop :=
  ∃ t body, p.payload.toList = [MessageType.data, t] ++ body ∧ t.toNat % 2 = 1

def AckFrame (p : DatagramPack) : Prop := ∃ t, p.payload.toList = [MessageType.ack, t] ++ []

/-- A `write` whose bursts are single frames, or none. -/
inductive OneFrame (b : List UInt8) (q : UInt8) : Call → Prop where
  | idle : OneFrame b q .idle
  | top {w : WriteCall} (hb : w.bytes = b) (hpc : w.pc = .top) (hpos : w.bytesPos = 0) :
    OneFrame b q (.writing w)
  | sending {w : WriteCall} {i : Nat} {pack : DatagramPack} (hb : w.bytes = b)
    (hpc : w.pc = .sending i pack) (hw : AtFrame q 0 w i) (hp : OddFrame pack) :
    OneFrame b q (.writing w)
  | waiting {w : WriteCall} (hb : w.bytes = b) (hw : AllSent q 0 w) : OneFrame b q (.writing w)

/-- The server awaits 0, and every frame has an odd number. -/
structure Net.Missing (b : List UInt8) (r : RingBuffer UInt8) (n : Net) : Prop where
  kind : (n.ends .right).kind = .server
  opened : ∀ j, (n.ends j).socket.state = .opened
  idle : (n.ends .right).call = .idle
  remoteSequence : (n.ends .right).socket.remoteSequence = 255
  ringbuf : (n.ends .right).socket.ringbuf = r
  frames : ∀ p ∈ n.wire .right, OddFrame p
  acks : ∀ p ∈ n.wire .left, AckFrame p
  even : (n.ends .left).socket.sequenceNumber.toNat % 2 = 0
  call : OneFrame b (n.ends .left).socket.sequenceNumber (n.ends .left).call

section

variable {F : OnFull UInt8} {b : List UInt8} {r : RingBuffer UInt8} {n : Net}

/-- A step of the left side. -/
theorem Net.Missing.put_left (h : n.Missing b r) {e : Endpoint} {out : List Output}
    (hopen : e.socket.state = .opened) (hframes : ∀ p ∈ sentOf out, OddFrame p)
    (heven : e.socket.sequenceNumber.toNat % 2 = 0)
    (hcall : OneFrame b e.socket.sequenceNumber e.call) : (n.put .left e out).Missing b r := by
  constructor
  · simpa using h.kind
  · intro j
    cases j with
    | left => simpa using hopen
    | right => simpa using h.opened .right
  · simpa using h.idle
  · simpa using h.remoteSequence
  · simpa using h.ringbuf
  · intro p hp
    simp only [put_wire_ne, ne_eq, reduceCtorEq, not_false_eq_true, List.mem_append] at hp
    exact hp.elim (h.frames p) (hframes p)
  · simpa using h.acks
  · simpa using heven
  · simpa using hcall

theorem Net.Missing.start (h : n.Missing b r) (hne : b ≠ []) {w : WriteCall}
    (hc : (n.ends .left).call = .writing w) (hpc : w.pc = .top) :
    (n.put .left { n.ends .left with
      call := .writing (w.start (n.ends .left).socket (n.ends .left).address) } []).Missing b r := by
  refine h.put_left (h.opened .left) (forall_sentOf_nil _) h.even ?_
  have hcall := h.call
  rw [hc] at hcall
  cases hcall with
  | top hb _ hpos =>
    obtain ⟨hat, hpack⟩ := start_atFrame w (n.ends .left).socket (n.ends .left).address (by
      rw [hpos, WriteCall.len, hb]
      exact List.length_pos_of_ne_nil hne)
    rw [hpos] at hat hpack
    refine .sending ((w.start_bytes _ _).trans hb) hpack hat ⟨_, _, frame_payload .., ?_⟩
    have := h.even
    simp only [frameSeq, UInt8.toNat_add]
    show ((n.ends .left).socket.sequenceNumber.toNat + 1) % 2 ^ 8 % 2 = 1
    omega
  | sending _ hpc' => cases hpc.symm.trans hpc'
  | waiting _ hw => cases hpc.symm.trans hw.pc

theorem Net.Missing.resume_left (h : n.Missing b r) (hne : b ≠ []) (hN : packetsFor b.length = 1)
    (late : Bool) : (n.resume .left late).Missing b r := by
  have hstay : (n.put .left (n.ends .left) []).Missing b r := by
    rw [put_self]
    exact h
  have hcall := h.call
  generalize hc : (n.ends .left).call = c at hcall
  cases hcall with
  | idle =>
    rw [Net.resume_eq, Endpoint.resume_idle hc]
    exact hstay
  | top hb hpc hpos =>
    rw [Net.resume_eq, Endpoint.resume_top hc hpc]
    exact hstay
  | @sending w i pack hb hpc hw hp =>
    rw [Net.resume_eq, Endpoint.resume_sending hc hpc]
    refine h.put_left (h.opened .left) (fun p hp' => ?_) h.even ?_
    · rw [List.mem_singleton.mp hp']
      exact hp
    · have hlt := hw.lt
      have hpk := hw.bursting.packets_zero hb
      obtain ⟨hlt', -⟩ | ⟨-, hall⟩ := hw.afterSend (n.ends .left).socket (n.ends .left).address rfl
      · omega
      · exact .waiting ((w.afterSend_bytes _ _ i).trans hb) hall
  | @waiting w hb hw =>
    rw [Net.resume_eq, Endpoint.resume_waiting hc hw.pc]
    split
    · obtain ⟨q', res, heval, hq', hres⟩ := hw.evaluate_one hb hne hN (n.ends .left).socket rfl
      have heven : q'.toNat % 2 = 0 := by
        have := h.even
        rcases hq' with rfl | rfl
        · exact this
        · rw [UInt8.toNat_add]
          show ((n.ends .left).socket.sequenceNumber.toNat + 6) % 2 ^ 8 % 2 = 0
          omega
      rw [heval]
      cases res with
      | goesOn w' =>
        obtain ⟨hb', hpc', hpos'⟩ := hres w' rfl
        exact h.put_left (h.opened .left) (forall_sentOf_nil _) heven
          (.top hb' hpc' hpos')
      | returns r =>
        exact h.put_left (h.opened .left) (forall_sentOf_nil _) heven .idle
    · exact hstay

theorem Net.Missing.deliver_left (h : n.Missing b r) (p : DatagramPack) (ps : List DatagramPack)
    (behind : Nat → UInt8) (hw : n.wire .left = p :: ps) : ((n.withWire .left ps).put .left
      ((n.ends .left).takeAll F [⟨p, behind⟩]).1
      ((n.ends .left).takeAll F [⟨p, behind⟩]).2).Missing b r := by
  obtain ⟨t, hp⟩ := h.acks p (by simp [hw])
  obtain ⟨hcell₀, -, -⟩ := arrival_cell p behind hp
  obtain ⟨sock, hsock, hopen, hseq⟩ : ∃ sock,
      (n.ends .left).socket.handle F (n.ends .left).kind (n.ends .left).address ⟨p, behind⟩ =
        (sock, []) ∧ sock.state = .opened ∧
      sock.sequenceNumber = (n.ends .left).socket.sequenceNumber := by
    rw [SocketStream.handle_ack F _ _ _ _ (h.opened .left) hcell₀]
    split
    · exact ⟨_, rfl, h.opened .left, rfl⟩
    · exact ⟨_, rfl, h.opened .left, rfl⟩
  have h' : (n.withWire .left ps).Missing b r := by
    refine ⟨h.kind, h.opened, h.idle, h.remoteSequence, h.ringbuf, by simpa using h.frames, ?_,
      h.even, h.call⟩
    intro q hq
    refine h.acks q ?_
    rw [hw]
    exact List.mem_cons_of_mem p (by simpa using hq)
  rw [Endpoint.takeAll_one, hsock]
  refine h'.put_left hopen (forall_sentOf_nil _) ?_ ?_
  · rw [hseq]
    exact h.even
  · rw [hseq]
    exact h.call

theorem Net.Missing.deliver_right (h : n.Missing b r) (p : DatagramPack) (ps : List DatagramPack)
    (behind : Nat → UInt8) (hw : n.wire .right = p :: ps) : ((n.withWire .right ps).put .right
      ((n.ends .right).takeAll F [⟨p, behind⟩]).1
      ((n.ends .right).takeAll F [⟨p, behind⟩]).2).Missing b r := by
  obtain ⟨t, body, hp, hodd⟩ := h.frames p (by simp [hw])
  obtain ⟨hcell₀, hcell₁, -⟩ := arrival_cell p behind hp
  obtain ⟨sock, out, hsock, hopen, hremote, hring, hacks⟩ : ∃ sock out,
      (n.ends .right).socket.handle F (n.ends .right).kind (n.ends .right).address ⟨p, behind⟩ =
        (sock, out) ∧ sock.state = .opened ∧ sock.remoteSequence = 255 ∧ sock.ringbuf = r ∧
      ∀ p ∈ out, AckFrame p := by
    rw [SocketStream.handle_data F _ _ _ _ (h.opened .right) hcell₀]
    split
    · dsimp only
      split
      · next hq =>
        have hq := hq.cell
        rw [hcell₁] at hq
        have hq : t = (n.ends .right).socket.remoteSequence + 1 := hq
        rw [hq, h.remoteSequence] at hodd
        exact absurd hodd (by decide)
      · refine ⟨_, _, rfl, h.opened .right, h.remoteSequence, h.ringbuf, fun p hp => ?_⟩
        rw [List.mem_singleton.mp hp]
        exact ⟨_, message_payload ..⟩
    · exact ⟨_, _, rfl, h.opened .right, h.remoteSequence, h.ringbuf,
        fun p hp => absurd hp List.not_mem_nil⟩
  rw [Endpoint.takeAll_one, hsock]
  constructor
  · simpa using h.kind
  · intro j
    cases j with
    | left => simpa using h.opened .left
    | right => simpa using hopen
  · simpa using h.idle
  · simpa using hremote
  · simpa using hring
  · intro q hq
    refine h.frames q ?_
    rw [hw]
    exact List.mem_cons_of_mem p (by simpa using hq)
  · intro q hq
    simp only [put_wire_ne, ne_eq, reduceCtorEq, not_false_eq_true, withWire_wire_ne, sentOf_sent,
      List.mem_append] at hq
    exact hq.elim (h.acks q) (hacks q)
  · simpa using h.even
  · simpa using h.call

theorem Net.Missing.step (hne : b ≠ []) (hN : packetsFor b.length = 1) (n : Net) (a : NetAction)
    (n' : Net) (h : n.Missing b r) (hok : n.Perfect .left a) (hstep : n.step F a = some n') :
    n'.Missing b r := by
  refine Net.step_invariant (I := Net.Missing b r) (P := Net.Perfect .left) (F := F) ?_ ?_ ?_ n a n'
    h hok hstep
  · intro n i a e out h hok _ hact
    cases a with
    | burst =>
      obtain rfl : i = .left := hok
      obtain ⟨w, hc, hpc, rfl, rfl⟩ := Endpoint.step_burst.mp hact
      rw [called_burst]
      exact h.start hne hc hpc
    | _ => exact absurd hok id
  · intro n i behind p ps h hw
    cases i with
    | left => exact h.deliver_left p ps behind hw
    | right => exact h.deliver_right p ps behind hw
  · intro n i late h
    cases i with
    | left => exact h.resume_left hne hN late
    | right =>
      rw [Net.resume_eq, Endpoint.resume_idle h.idle, Net.put_self]
      exact h

theorem Net.Joined.one_frame_not_works {x : Side → UInt8} {l : UInt8} (h : n.Joined x l)
    (hne : b ≠ []) (hx : x .left = 255) (hN : packetsFor b.length = 1) :
    ¬ n.WriteWorks F .left b := by
  refine not_writeWorks_of_invariant hne (h.step_write hne)
    (I := Net.Missing b (n.ends .right).socket.ringbuf) (Net.Missing.step hne hN) ?_
    (fun m' hm' => hm'.ringbuf)
  have hready := h.ready (i := .left) hne
  refine ⟨?_, hready.opened, hready.idle, ?_, ?_, ?_, ?_, ?_, ?_⟩
  · simpa [calls] using h.server
  · have hpeer : (n.calls .left b).ends .right = n.ends .right := by simp [calls]
    rw [hpeer]
    exact (h.remoteSequence .left).trans hx
  · simp [calls]
  · simp [hready.wire]
  · simp [hready.wire]
  · have : ((n.calls .left b).ends .left).socket.sequenceNumber = x .left + 1 := by
      simpa [calls] using h.sequenceNumber .left
    rw [this, hx]
    decide
  · rw [calls, Net.put_ends_self]
    exact .top rfl rfl rfl

end

end PicoLan
