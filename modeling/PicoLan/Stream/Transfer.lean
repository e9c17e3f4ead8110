import PicoLan.Stream.Burst
import PicoLan.Stream.Net

/-!
# The first write over a link that loses packets

`During` is the invariant of the first `write` to a receiver that is in step: the
receiver has accepted the first `k` frames, and every packet on its way is a frame
of this burst or the acknowledgement of some of them.  Each step of either side
keeps it, unless the call fails or goes on out of step.
-/

namespace PicoLan

/-! ## The link -/

/-- The sender is on the left and does nothing but write; `drop i j` loses the
packet at place `j` on its way to `i`. -/
inductive TransferAction where
  | write (bytes : List UInt8)
  | burst
  | poll (i : Side) (behind : List (Nat → UInt8)) (late : Bool)
  | drop (i : Side) (j : Nat)

def Net.transfer (F : OnFull UInt8) (n : Net) : TransferAction → Option Net
  | .write bytes => if bytes = [] then none else n.step F (.act .left (.write bytes))
  | .burst => n.step F (.act .left .burst)
  | .poll i behind late => n.step F (.poll i behind late)
  | .drop i j =>
    if j < (n.wire i).length then some (n.withWire i ((n.wire i).eraseIdx j)) else none

/-- If the step starts a burst, the number acknowledged last is the one the burst
goes on from. -/
def Net.StartsInStep (n : Net) : TransferAction → Prop
  | .burst => (n.ends .left).socket.lastRecvedAck = (n.ends .left).socket.sequenceNumber
  | _ => True

instance (n : Net) (a : TransferAction) : Decidable (n.StartsInStep a) := by
  unfold Net.StartsInStep
  split <;> infer_instance

/-- Both are open and idle, and in step at `s`. -/
structure Net.InStep (s : UInt8) (n : Net) : Prop where
  opened : ∀ i, (n.ends i).socket.state = .opened
  idle : ∀ i, (n.ends i).call = .idle
  sequenceNumber : (n.ends .left).socket.sequenceNumber = s
  lastRecvedAck : (n.ends .left).socket.lastRecvedAck = s
  remoteSequence : (n.ends .right).socket.remoteSequence = s
  wire : ∀ i, n.wire i = []
  hist : n.hist .left = {}

/-! ## Returned results -/

/-- A write has returned something other than its length. -/
def History.Failed (h : History) : Prop :=
  ∃ (j : Nat) (r : Int) (bytes : List UInt8), h.returned[j]? = some r ∧
    h.written[j]? = some bytes ∧ r ≠ (bytes.length : Int)

theorem History.Failed.append {h h' : History} (hf : h.Failed) (rs : List Int)
    (bs : List (List UInt8)) (hr : h'.returned = h.returned ++ rs)
    (hw : h'.written = h.written ++ bs) : h'.Failed := by
  obtain ⟨j, r, bytes, h₁, h₂, hne⟩ := hf
  refine ⟨j, r, bytes, ?_, ?_, hne⟩
  · rw [hr, List.getElem?_append_left]
    · exact h₁
    · exact (List.getElem?_eq_some_iff.mp h₁).1
  · rw [hw, List.getElem?_append_left]
    · exact h₂
    · exact (List.getElem?_eq_some_iff.mp h₂).1

theorem History.Failed.noteAll {h : History} (hf : h.Failed) (out : List Output) :
    (h.noteAll out).Failed :=
  hf.append (retsOf out) [] (h.noteAll_returned out).1
    ((h.noteAll_returned out).2.trans (List.append_nil _).symm)

theorem History.Failed.not_all {h : History} (hf : h.Failed) :
    h.returned ≠ h.written.map fun bytes => (bytes.length : Int) := by
  obtain ⟨j, r, bytes, h₁, h₂, hne⟩ := hf
  intro heq
  rw [heq, List.getElem?_map, h₂] at h₁
  exact hne (Option.some.inj h₁).symm

/-! ## Frames and acknowledgements on their way -/

section

variable (s : UInt8) (b : List UInt8)

/-- A frame of the burst that carries `b` from its first byte on. -/
def IsFrame (p : DatagramPack) : Prop :=
  ∃ j < packetsFor b.length,
    p.payload.toList = [MessageType.data, frameSeq s j] ++ frameBody b 0 j

/-- The acknowledgement of the first `o` frames. -/
def IsAck (p : DatagramPack) (o : Nat) : Prop :=
  p.payload.toList = [MessageType.ack, s + UInt8.ofNat o]

/-- Where the sender is; the last acknowledgement it has seen is that of `a` frames. -/
inductive Stage (e : Endpoint) (h : History) (a : Nat) : Prop where
  | top (w : WriteCall) (hc : e.call = .writing w) (hb : w.bytes = b) (hpc : w.pc = .top)
      (hpos : w.bytesPos = 0) (hs : e.socket.sequenceNumber = s) (hr : h.returned = [])
  | sending (w : WriteCall) (i : Nat) (pack : DatagramPack) (hc : e.call = .writing w)
      (hb : w.bytes = b) (hpc : w.pc = .sending i pack) (hw : AtFrame s 0 w i)
      (hp : IsFrame s b pack) (hs : e.socket.sequenceNumber = s) (hr : h.returned = [])
  | waiting (w : WriteCall) (hc : e.call = .writing w) (hb : w.bytes = b) (hw : AllSent s 0 w)
      (hs : e.socket.sequenceNumber = s) (hr : h.returned = [])
  | done (hc : e.call = .idle) (ha : a = packetsFor b.length)
      (hs : e.socket.sequenceNumber = s + UInt8.ofNat (a - 1)) (hr : h.returned = [(b.length : Int)])
      (hlen : b.length ≤ bytesPerFrame * a)

/-- The first write, of `b`, and what comes after it.  `k` frames have been
accepted; the acknowledgements on their way are those of `os`. -/
structure During (r₀ : RingBuffer UInt8) (n : Net) (k a : Nat) (os : List Nat) : Prop where
  opened : ∀ i, (n.ends i).socket.state = .opened
  idle : (n.ends .right).call = .idle
  nonempty : b ≠ []
  written : (n.hist .left).written = [b]
  heard : (n.ends .right).socket.remoteSequence = s + UInt8.ofNat k
  le : k ≤ packetsFor b.length
  ring : (n.ends .right).socket.ringbuf.toList = r₀.toList ++ b.take (bytesPerFrame * k)
  cap : (n.ends .right).socket.ringbuf.cap = r₀.cap
  frames : ∀ p ∈ n.wire .right, IsFrame s b p
  acked : (n.ends .left).socket.lastRecvedAck = s + UInt8.ofNat a
  acks : List.Forall₂ (IsAck s) (n.wire .left) os
  sorted : (a :: os).Pairwise (· ≤ ·)
  bound : ∀ o ∈ a :: os, o ≤ k
  stage : Stage s b (n.ends .left) (n.hist .left) a

end

/-! ## Arrivals -/

section

variable {F : OnFull UInt8} {s : UInt8} {b : List UInt8} {r₀ : RingBuffer UInt8} {n : Net}
  {k a : Nat} {os : List Nat}

theorem Stage.le {e : Endpoint} {h : History} {a a' : Nat} (hst : Stage s b e h a) (hle : a ≤ a')
    (hle' : a' ≤ packetsFor b.length) : Stage s b e h a' := by
  cases hst with
  | top w hc hb hpc hpos hs hr => exact .top w hc hb hpc hpos hs hr
  | sending w i pack hc hb hpc hw hp hs hr => exact .sending w i pack hc hb hpc hw hp hs hr
  | waiting w hc hb hw hs hr => exact .waiting w hc hb hw hs hr
  | done hc ha hs hr hlen =>
    obtain rfl : a' = a := by omega
    exact .done hc ha hs hr hlen

/-- What the sender does with the rest of its state does not matter. -/
theorem Stage.congr {e e' : Endpoint} {h : History} {a : Nat} (hst : Stage s b e h a)
    (hc' : e'.call = e.call) (hs' : e'.socket.sequenceNumber = e.socket.sequenceNumber) :
    Stage s b e' h a := by
  cases hst with
  | top w hc hb hpc hpos hs hr => exact .top w (hc'.trans hc) hb hpc hpos (hs'.trans hs) hr
  | sending w i pack hc hb hpc hw hp hs hr =>
    exact .sending w i pack (hc'.trans hc) hb hpc hw hp (hs'.trans hs) hr
  | waiting w hc hb hw hs hr => exact .waiting w (hc'.trans hc) hb hw (hs'.trans hs) hr
  | done hc ha hs hr hlen => exact .done (hc'.trans hc) ha (hs'.trans hs) hr hlen

/-- An acknowledgement reaches the sender. -/
theorem During.deliver_left (h : During s b r₀ n k a os) (p : DatagramPack)
    (ps : List DatagramPack) (behind : Nat → UInt8) (hw : n.wire .left = p :: ps) :
    ∃ a' os', During s b r₀ ((n.withWire .left ps).put .left
      ((n.ends .left).takeAll F [⟨p, behind⟩]).1 ((n.ends .left).takeAll F [⟨p, behind⟩]).2)
      k a' os' := by
  have hacks := h.acks
  rw [hw] at hacks
  obtain ⟨o, os, hp, hps, rfl⟩ := List.forall₂_cons_left_iff.mp hacks
  obtain ⟨hcell₀, hcell₁, -⟩ := arrival_cell p behind hp
  have hsorted := h.sorted
  rw [List.pairwise_cons, List.pairwise_cons] at hsorted
  obtain ⟨hao, hos, hsorted⟩ := hsorted
  have hao := hao o (by simp)
  have hok := h.bound o (by simp)
  have hopen := h.opened .left
  -- the datagram is for another socket, or its number is noted
  obtain ⟨a', sock, haa', ha'o, hsock, hstate, hseq, hack⟩ : ∃ a' sock, a ≤ a' ∧ a' ≤ o ∧
      (n.ends .left).socket.handle F (n.ends .left).kind (n.ends .left).address ⟨p, behind⟩ =
        (sock, []) ∧ sock.state = .opened ∧
      sock.sequenceNumber = (n.ends .left).socket.sequenceNumber ∧
      sock.lastRecvedAck = s + UInt8.ofNat a' := by
    rw [SocketStream.handle_ack F _ _ _ _ hopen hcell₀]
    split
    · exact ⟨o, _, hao, Nat.le_refl o, rfl, hopen, rfl, hcell₁⟩
    · exact ⟨a, _, Nat.le_refl a, hao, rfl, hopen, rfl, h.acked⟩
  rw [Endpoint.takeAll_one, hsock]
  refine ⟨a', os, ?_, ?_, h.nonempty, ?_, ?_, h.le, ?_, ?_, ?_, ?_, ?_, ?_, ?_, ?_⟩
  · intro i
    cases i with
    | left => simpa using hstate
    | right => simpa using h.opened .right
  · simpa using h.idle
  · simpa [History.noteAll] using h.written
  · simpa using h.heard
  · simpa using h.ring
  · simpa using h.cap
  · simpa [sentOf] using h.frames
  · simpa using hack
  · simpa using hps
  · exact List.pairwise_cons.mpr ⟨fun o' ho' => ha'o.trans (hos o' ho'), hsorted⟩
  · intro o' ho'
    rcases List.mem_cons.mp ho' with rfl | ho'
    · exact ha'o.trans hok
    · exact h.bound o' (by simp [ho'])
  · rw [Net.put_ends_self, Net.put_hist_self]
    exact (h.stage.le haa' ((ha'o.trans hok).trans h.le)).congr rfl hseq

theorem frameBody_fits (hroom : b.length ≤ r₀.free) (r : RingBuffer UInt8) (hcap : r.cap = r₀.cap)
    (hr : r.toList = r₀.toList ++ b.take (bytesPerFrame * k)) :
    (frameBody b 0 k).length ≤ r.free := by
  have hle := r₀.length_le
  have hadd := congrArg List.length (take_append_frameBody b 0 k)
  have htake := List.length_take_le' (bytesPerFrame * (k + 1)) b
  simp only [List.drop_zero, List.length_append] at hadd
  unfold RingBuffer.free at hroom ⊢
  rw [hcap, hr, List.length_append]
  omega

/-- The receiver's socket when it has accepted `k` frames. -/
structure Accepted (s : UInt8) (b : List UInt8) (r₀ : RingBuffer UInt8) (k : Nat)
    (sock : SocketStream) : Prop where
  opened : sock.state = .opened
  heard : sock.remoteSequence = s + UInt8.ofNat k
  le : k ≤ packetsFor b.length
  ring : sock.ringbuf.toList = r₀.toList ++ b.take (bytesPerFrame * k)
  cap : sock.ringbuf.cap = r₀.cap

theorem During.accepted (h : During s b r₀ n k a os) :
    Accepted s b r₀ k (n.ends .right).socket :=
  ⟨h.opened .right, h.heard, h.le, h.ring, h.cap⟩

/-- The frame awaited is frame `k`. -/
theorem Accepted.awaited {sock : SocketStream} (h : Accepted s b r₀ k sock) {kind : Kind}
    {d : Data} {j : Nat} (hj : j < packetsFor b.length) (hd : d.cell 1 = frameSeq s j)
    (hq : InSequence kind sock d) : j = k := by
  have hN := packetsFor_le b.length
  have hk := h.le
  have hcell := hq.cell
  have hnext : sock.remoteSequence + 1 = s + UInt8.ofNat (k + 1) := by
    rw [h.heard, UInt8.add_assoc, ofNat_succ]
  rw [hd] at hcell
  have := (add_ofNat_inj s (by omega) (by omega)).mp (hcell.trans hnext)
  omega

/-- **One frame.**  It is refused, accepted, or for another socket; what is sent in
return acknowledges the frames accepted by then. -/
theorem Accepted.handle {sock : SocketStream} (h : Accepted s b r₀ k sock)
    (hroom : b.length ≤ r₀.free) (kind : Kind) (address : UInt8) {p : DatagramPack}
    (hp : IsFrame s b p) (behind : Nat → UInt8) : ∃ k' os', k ≤ k' ∧
      Accepted s b r₀ k' (sock.handle F kind address ⟨p, behind⟩).1 ∧
      List.Forall₂ (IsAck s) (sock.handle F kind address ⟨p, behind⟩).2 os' ∧
      ∀ o ∈ os', o = k' := by
  obtain ⟨j, hj, hp⟩ := hp
  obtain ⟨hcell₀, hcell₁, hrest⟩ := arrival_cell p behind hp
  have h' : Accepted s b r₀ k { sock with remote := p.sourceAddr } :=
    ⟨h.opened, h.heard, h.le, h.ring, h.cap⟩
  rw [SocketStream.handle_data F _ _ _ _ h.opened hcell₀]
  split
  · dsimp only
    split
    · next hq =>
      obtain rfl := h'.awaited hj hcell₁ hq
      refine ⟨j + 1, [j + 1], Nat.le_succ j, ⟨h.opened, hcell₁, hj, ?_, ?_⟩, ?_, by simp⟩
      · rw [hrest, RingBuffer.putAll_of_fits F _ _ (frameBody_fits hroom _ h.cap h.ring), h.ring,
          List.append_assoc]
        exact congrArg (r₀.toList ++ ·) (take_append_frameBody b 0 j)
      · rw [RingBuffer.putAll_cap]
        exact h.cap
      · refine .cons ?_ .nil
        rw [IsAck, message_payload, hcell₁]
        rfl
    · refine ⟨k, [k], Nat.le_refl k, h', ?_, by simp⟩
      refine .cons ?_ .nil
      rw [IsAck, SocketStream.sendAck, message_payload]
      exact congrArg (fun x => [MessageType.ack, x]) h.heard
  · exact ⟨k, [], Nat.le_refl k, h, .nil, by simp⟩

/-- A frame reaches the receiver. -/
theorem During.deliver_right (h : During s b r₀ n k a os) (hroom : b.length ≤ r₀.free)
    (p : DatagramPack) (ps : List DatagramPack) (behind : Nat → UInt8)
    (hw : n.wire .right = p :: ps) :
    ∃ k' os', During s b r₀ ((n.withWire .right ps).put .right
      ((n.ends .right).takeAll F [⟨p, behind⟩]).1 ((n.ends .right).takeAll F [⟨p, behind⟩]).2)
      k' a os' := by
  obtain ⟨k', os', hkk', hacc, hacks, hos'⟩ := h.accepted.handle (F := F) hroom
    (n.ends .right).kind (n.ends .right).address (h.frames p (by simp [hw])) behind
  rw [Endpoint.takeAll_one]
  refine ⟨k', os ++ os', ?_, ?_, h.nonempty, ?_, ?_, hacc.le, ?_, ?_, ?_, ?_, ?_, ?_, ?_, ?_⟩
  · intro i
    cases i with
    | left => simpa using h.opened .left
    | right => simpa using hacc.opened
  · simpa using h.idle
  · simpa using h.written
  · simpa using hacc.heard
  · simpa using hacc.ring
  · simpa using hacc.cap
  · intro q hq
    refine h.frames q ?_
    rw [hw]
    exact List.mem_cons_of_mem p (by simpa using hq)
  · simpa using h.acked
  · have := List.rel_append h.acks hacks
    simpa using this
  · rw [← List.cons_append, List.pairwise_append]
    refine ⟨h.sorted, List.pairwise_of_forall_mem_list ?_, ?_⟩
    · intro x hx y hy
      rw [hos' x hx, hos' y hy]
    · intro x hx y hy
      rw [hos' y hy]
      exact (h.bound x hx).trans hkk'
  · intro o ho
    rw [← List.cons_append, List.mem_append] at ho
    rcases ho with ho | ho
    · exact (h.bound o ho).trans hkk'
    · exact Nat.le_of_eq (hos' o ho)
  · simpa using h.stage

/-! ## The sender goes on -/

/-- `write` is about to start a burst out of step. -/
structure Net.OutOfStep (n : Net) : Prop where
  top : ∃ w, (n.ends .left).call = .writing w ∧ w.pc = .top
  ne : (n.ends .left).socket.lastRecvedAck ≠ (n.ends .left).socket.sequenceNumber
  returned : (n.hist .left).returned.length < (n.hist .left).written.length

/-- A step of the sender in which nothing arrives. -/
theorem During.put_left (h : During s b r₀ n k a os) {e : Endpoint} {out : List Output}
    (hstate : e.socket.state = .opened) (hack : e.socket.lastRecvedAck = s + UInt8.ofNat a)
    (hframes : ∀ p ∈ sentOf out, IsFrame s b p)
    (hstage : Stage s b e ((n.hist .left).noteAll out) a) :
    During s b r₀ (n.put .left e out) k a os := by
  refine ⟨?_, ?_, h.nonempty, ?_, ?_, h.le, ?_, ?_, ?_, ?_, ?_, h.sorted, h.bound, ?_⟩
  · intro i
    cases i with
    | left => simpa using hstate
    | right => simpa using h.opened .right
  · simpa using h.idle
  · simpa [(History.noteAll_returned _ out).2] using h.written
  · simpa using h.heard
  · simpa using h.ring
  · simpa using h.cap
  · intro p hp
    simp only [Net.put_wire_ne, ne_eq, reduceCtorEq, not_false_eq_true, List.mem_append] at hp
    exact hp.elim (h.frames p) (hframes p)
  · simpa using hack
  · simpa using h.acks
  · simpa using hstage

theorem frame_isFrame (sock : SocketStream) (address : UInt8) {j : Nat}
    (hj : j < packetsFor b.length) : IsFrame s b (sock.frame address s b 0 j) :=
  ⟨j, hj, frame_payload sock address s b 0 j⟩

/-- The head of the outer loop. -/
theorem During.burst (h : During s b r₀ n k a os) {w : WriteCall}
    (hc : (n.ends .left).call = .writing w) (hpc : w.pc = .top) :
    During s b r₀ (n.put .left { n.ends .left with
      call := .writing (w.start (n.ends .left).socket (n.ends .left).address) } []) k a os := by
  refine h.put_left (h.opened .left) h.acked (forall_sentOf_nil _) ?_
  have hlen : 0 < b.length := List.length_pos_of_ne_nil h.nonempty
  cases h.stage with
  | top w' hc' hb hpc' hpos hs hr =>
    obtain rfl : w = w' := by injection hc.symm.trans hc'
    obtain ⟨hat, hpack⟩ := start_atFrame w (n.ends .left).socket (n.ends .left).address
      (by rw [hpos, WriteCall.len, hb]; exact hlen)
    rw [hpos, hs] at hat hpack
    rw [hb] at hpack
    exact .sending _ 0 _ rfl ((w.start_bytes _ _).trans hb) hpack hat
      (frame_isFrame _ _ (packetsFor_pos hlen)) hs hr
  | sending w' i pack hc' hb hpc' hw hp hs hr =>
    obtain rfl : w = w' := by injection hc.symm.trans hc'
    cases hpc.symm.trans hpc'
  | waiting w' hc' hb hw hs hr =>
    obtain rfl : w = w' := by injection hc.symm.trans hc'
    cases hpc.symm.trans hw.pc
  | done hc' ha hs hr hlen => cases hc.symm.trans hc'

/-- A frame is sent. -/
theorem During.send (h : During s b r₀ n k a os) {w : WriteCall} {i : Nat} {pack : DatagramPack}
    (hc : (n.ends .left).call = .writing w) (hb : w.bytes = b) (hpc : w.pc = .sending i pack)
    (hw : AtFrame s 0 w i) (hp : IsFrame s b pack)
    (hs : (n.ends .left).socket.sequenceNumber = s) (hr : (n.hist .left).returned = [])
    (late : Bool) : During s b r₀ (n.resume .left late) k a os := by
  unfold Net.resume
  rw [Endpoint.resume_sending hc hpc]
  refine h.put_left (h.opened .left) h.acked (fun p hp' => ?_) ?_
  · rw [List.mem_singleton.mp hp']
    exact hp
  have hr' : ((n.hist .left).noteAll [.sent pack]).returned = [] := by
    rw [(History.noteAll_returned _ _).1, hr]
    rfl
  have hb' := (w.afterSend_bytes (n.ends .left).socket (n.ends .left).address i).trans hb
  obtain ⟨hlt, hat, hpack⟩ | ⟨-, hall⟩ := hw.afterSend (n.ends .left).socket
    (n.ends .left).address hs
  · rw [hw.bursting.packets_zero hb] at hlt
    rw [hb] at hpack
    exact .sending _ (i + 1) _ rfl hb' hpack hat (frame_isFrame _ _ hlt) hs hr'
  · exact .waiting _ rfl hb' hall hs hr'

/-- The only write returns something else than its length. -/
theorem During.fails (h : During s b r₀ n k a os) (hr : (n.hist .left).returned = [])
    (e : Endpoint) {r : Int} (hne : r ≠ (b.length : Int)) :
    ((n.put .left e [.ret r]).hist .left).Failed := by
  rw [Net.put_hist_self]
  obtain ⟨hret, hwr⟩ := (n.hist .left).noteAll_returned [.ret r]
  refine ⟨0, r, b, ?_, ?_, hne⟩
  · rw [hret, hr]
    rfl
  · rw [hwr, h.written]
    rfl

/-- The call goes on with another number than the one acknowledged. -/
theorem During.goesOn (h : During s b r₀ n k a os) (hr : (n.hist .left).returned = [])
    (w : WriteCall) (pos : Nat) {m : Nat} (hne : m ≠ a) (hm : m < 256) :
    (n.put .left { n.ends .left with
      socket := { (n.ends .left).socket with sequenceNumber := s + UInt8.ofNat m }
      call := .writing { w with bytesPos := pos, pc := .top } } []).OutOfStep := by
  have hN := packetsFor_le b.length
  have hle := h.le
  have hak := h.bound a (by simp)
  refine ⟨⟨_, by rw [Net.put_ends_self], rfl⟩, ?_, ?_⟩
  · rw [Net.put_ends_self]
    show (n.ends .left).socket.lastRecvedAck ≠ s + UInt8.ofNat m
    rw [h.acked]
    intro heq
    exact hne ((add_ofNat_inj s (by omega) hm).mp heq).symm
  · rw [Net.put_hist_self]
    show (n.hist .left).returned.length < (n.hist .left).written.length
    rw [hr, h.written]
    exact Nat.zero_lt_one

/-- The frame acknowledged is the one with the last byte, and the call returns. -/
theorem During.returns (h : During s b r₀ n k a os) (hr : (n.hist .left).returned = [])
    (ha : 0 < a) (hpos : frameEnd b.length 0 (a - 1) = b.length) :
    let e := (n.ends .left).afterPass
      ({ (n.ends .left).socket with sequenceNumber := s + UInt8.ofNat (a - 1) },
        .returns (asInt b.length))
    ((n.put .left e.1 e.2).hist .left).Failed ∨ During s b r₀ (n.put .left e.1 e.2) k a os := by
  dsimp only [Endpoint.afterPass]
  by_cases hint : asInt b.length = b.length
  · have hle := h.le
    have hak := h.bound a (by simp)
    have hN := packetsFor_le b.length
    have hla : b.length ≤ bytesPerFrame * a := (frameEnd_eq_iff ha).mp hpos
    refine .inr (h.put_left (h.opened .left) h.acked (forall_sentOf_nil _) ?_)
    refine .done rfl ?_ rfl ?_ hla
    · by_contra hne
      have := (lt_packetsFor (n := b.length) (j := a)).mp (by omega)
      omega
    · rw [(History.noteAll_returned _ _).1, hr]
      exact congrArg (fun r => [r]) hint
  · exact .inl (h.fails hr _ hint)

/-- The wait is over. -/
theorem During.evaluate (h : During s b r₀ n k a os) {w : WriteCall} (hb : w.bytes = b)
    (hw : AllSent s 0 w) (hs : (n.ends .left).socket.sequenceNumber = s)
    (hr : (n.hist .left).returned = []) :
    let e := (n.ends .left).afterPass (w.evaluate (n.ends .left).socket)
    ((n.put .left e.1 e.2).hist .left).Failed ∨ (n.put .left e.1 e.2).OutOfStep ∨
      During s b r₀ (n.put .left e.1 e.2) k a os := by
  have hwl : w.len = b.length := by rw [WriteCall.len, hb]
  have hlen : 0 ≠ w.len := by
    rw [hwl]
    exact (List.length_pos_of_ne_nil h.nonempty).ne
  have hN := packetsFor_le b.length
  have hpk := hw.bursting.packets_zero hb
  have hle := h.le
  have hak := h.bound a (by simp)
  dsimp only
  by_cases ha : a = 0
  · subst ha
    have hack : (n.ends .left).socket.lastRecvedAck = s := h.acked.trans (UInt8.add_zero s)
    rw [hw.evaluate_unacked hlen _ hs hack]
    split
    · exact .inl (h.fails hr _ (by unfold Error.timeout; omega))
    · exact .inr (.inr (h.put_left (h.opened .left) h.acked (forall_sentOf_nil _)
        (.top _ rfl hb rfl rfl hs hr)))
  · obtain heval | ⟨hn, heval⟩ := hw.evaluate_acked a (by omega) (by omega) _ hs h.acked
    · rw [heval]
      by_cases hpos : frameEnd w.len 0 (a - 1) = w.len
      · have hagain : WriteCall.again { w with bytesPos := frameEnd w.len 0 (a - 1) } =
            .returns (asInt b.length) := by
          rw [WriteCall.again_returns _ hpos]
          exact congrArg (fun m => WriteResult.returns (asInt m)) hwl
        rw [hagain]
        rw [hwl] at hpos
        rcases h.returns hr (by omega) hpos with hf | hdone
        · exact .inl hf
        · exact .inr (.inr hdone)
      · rw [WriteCall.again_goesOn _ hpos]
        exact .inr (.inl (h.goesOn hr w _ (by omega) (by omega)))
    · obtain ⟨h₁, h₂⟩ := blankSum_bounds w.packetsToSend hw.pos hn.1
      rw [heval, WriteCall.again_goesOn _ hlen]
      exact .inr (.inl (h.goesOn hr w _ (by omega) (by omega)))

/-- The sender's call goes on. -/
theorem During.resume_left (h : During s b r₀ n k a os) (late : Bool) :
    ((n.resume .left late).hist .left).Failed ∨ (n.resume .left late).OutOfStep ∨
      During s b r₀ (n.resume .left late) k a os := by
  have hstay : During s b r₀ (n.put .left (n.ends .left) []) k a os :=
    h.put_left (h.opened .left) h.acked (forall_sentOf_nil _) h.stage
  cases h.stage with
  | top w hc hb hpc hpos hs hr =>
    rw [Net.resume_eq, Endpoint.resume_top hc hpc]
    exact .inr (.inr hstay)
  | sending w i pack hc hb hpc hw hp hs hr =>
    exact .inr (.inr (h.send hc hb hpc hw hp hs hr late))
  | waiting w hc hb hw hs hr =>
    rw [Net.resume_eq, Endpoint.resume_waiting hc hw.pc]
    split
    · exact h.evaluate hb hw hs hr
    · exact .inr (.inr hstay)
  | done hc ha hs hr hlen =>
    rw [Net.resume_eq, Endpoint.resume_idle hc]
    exact .inr (.inr hstay)

/-- The receiver has no call running. -/
theorem During.resume_right (h : During s b r₀ n k a os) (late : Bool) :
    During s b r₀ (n.resume .right late) k a os := by
  have : n.resume .right late = n.put .right (n.ends .right) [] := by
    rw [Net.resume_eq, Endpoint.resume_idle h.idle]
  rw [this, Net.put_self]
  exact h

/-- A packet is lost. -/
theorem During.drop (h : During s b r₀ n k a os) (i : Side) (j : Nat) :
    ∃ os', During s b r₀ (n.withWire i ((n.wire i).eraseIdx j)) k a os' := by
  cases i with
  | right =>
    exact ⟨os, h.opened, h.idle, h.nonempty, h.written, h.heard, h.le, h.ring, h.cap,
      fun p hp => h.frames p (List.mem_of_mem_eraseIdx (by simpa using hp)), h.acked,
      by simpa using h.acks, h.sorted, h.bound, h.stage⟩
  | left =>
    have hsub : (a :: os.eraseIdx j).Sublist (a :: os) := (List.eraseIdx_sublist os j).cons_cons a
    refine ⟨os.eraseIdx j, h.opened, h.idle, h.nonempty, h.written, h.heard, h.le, h.ring, h.cap,
      fun p hp => h.frames p (by simpa using hp), h.acked, ?_, h.sorted.sublist hsub,
      fun o ho => h.bound o (hsub.subset ho), h.stage⟩
    rw [Net.withWire_wire_self]
    rw [List.eraseIdx_eq_take_drop_succ, List.eraseIdx_eq_take_drop_succ]
    exact List.rel_append (List.forall₂_take j h.acks) (List.forall₂_drop (j + 1) h.acks)

end

end PicoLan
