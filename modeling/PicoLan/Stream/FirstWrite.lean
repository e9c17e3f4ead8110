import PicoLan.Stream.Outcome

/-!
# The first write on a perfect link

The SYN carries `sequence_number` and increments it, and `write` increments it
again before the first frame: that frame has the number after the one the peer
awaits.  The peer refuses it and answers with the number of the SYN, which `write`
does not know, unless it is 255 (`Joined.not_works`).  Nor does a server whose SYN
carried 255 get anything across (`Joined.server_not_works`).
-/

namespace PicoLan

/-! ## The first write -/

namespace Net

/-- A client on the left and a server on the right, just connected; `x j` is the
number in the SYN of `j`, and `l` the one the client holds for acknowledged. -/
structure Joined (x : Side → UInt8) (l : UInt8) (n : Net) : Prop where
  client : (n.ends .left).kind = .client
  server : (n.ends .right).kind = .server
  opened : ∀ j, (n.ends j).socket.state = .opened
  remote : ∀ j, (n.ends j).socket.remote = (n.ends j.other).address
  remotePort : ∀ j, (n.ends j).socket.remotePort = (n.ends j.other).socket.port
  sequenceNumber : ∀ j, (n.ends j).socket.sequenceNumber = x j + 1
  remoteSequence : ∀ j, (n.ends j.other).socket.remoteSequence = x j
  lastRecvedAck : (n.ends .left).socket.lastRecvedAck = l
  idle : ∀ j, (n.ends j).call = .idle
  wire : ∀ j, n.wire j = []

/-- The call of `write`. -/
def calls (n : Net) (i : Side) (b : List UInt8) : Net :=
  (n.called i (.write b)).put i { n.ends i with call := .writing { bytes := b } } []

/-- `write(b)` works on a perfect link: whenever it has returned, it has returned
the length of `b`, and the peer has received `b`; and it can always still return. -/
def WriteWorks (F : OnFull UInt8) (n : Net) (i : Side) (b : List UInt8) : Prop :=
  ∃ m, n.step F (.act i (.write b)) = some m ∧
    ∀ m', Runs.Reaches (Net.step F) (Net.Perfect i) m m' →
      ((m'.ends i).call = .idle →
        (m'.hist i).returned = (n.hist i).returned ++ [(b.length : Int)] ∧
          (m'.ends i.other).socket.ringbuf.toList =
            (n.ends i.other).socket.ringbuf.toList ++ b) ∧
      ∃ m'', Runs.Reaches (Net.step F) (Net.Perfect i) m' m'' ∧ (m''.ends i).call = .idle

section

variable {F : OnFull UInt8} {n : Net} {x : Side → UInt8} {l : UInt8} {i : Side} {b : List UInt8}

theorem Joined.step_write (h : n.Joined x l) (hne : b ≠ []) :
    n.step F (.act i (.write b)) = some (n.calls i b) := by
  show Option.map _ _ = _
  rw [Endpoint.step_write.mpr ⟨h.idle i, rfl, rfl⟩, Endpoint.write_opened (h.opened i) hne]
  rfl

theorem calls_returned : ((n.calls i b).hist i).returned = (n.hist i).returned := by
  simp [calls, History.noteAll, History.call]

theorem Joined.ready (h : n.Joined x l) (hne : b ≠ []) : (n.calls i b).Ready i b := by
  have hsock : ∀ j, ((n.calls i b).ends j).socket = (n.ends j).socket ∧
      ((n.calls i b).ends j).address = (n.ends j).address := by
    intro j
    obtain rfl | rfl := i.eq_or_other j <;> simp [calls]
  refine ⟨?_, ?_, ?_, ?_, ?_, hne, { bytes := b }, ?_, rfl, rfl, rfl⟩
  · intro j
    rw [(hsock j).1]
    exact h.opened j
  · intro j
    rw [(hsock j).1, (hsock j.other).2]
    exact h.remote j
  · intro j
    rw [(hsock j).1, (hsock j.other).1]
    exact h.remotePort j
  · simpa [calls] using h.idle i.other
  · intro j
    obtain rfl | rfl := i.eq_or_other j <;> simp [calls, h.wire, sentOf]
  · simp [calls]

/-- One run in which the call ends otherwise is enough. -/
theorem not_writeWorks {m m' : Net} (hstep : n.step F (.act i (.write b)) = some m)
    (hreach : Runs.Reaches (Net.step F) (Net.Perfect i) m m') (hidle : (m'.ends i).call = .idle)
    (hbad : (m'.hist i).returned ≠ (n.hist i).returned ++ [(b.length : Int)] ∨
      (m'.ends i.other).socket.ringbuf.toList ≠ (n.ends i.other).socket.ringbuf.toList ++ b) :
    ¬ n.WriteWorks F i b := by
  rintro ⟨m₁, hstep₁, h⟩
  obtain rfl : m = m₁ := by injection hstep.symm.trans hstep₁
  obtain ⟨h₁, h₂⟩ := (h m' hreach).1 hidle
  exact hbad.elim (fun hb => hb h₁) (fun hb => hb h₂)

/-- An invariant under which the peer receives nothing is enough. -/
theorem not_writeWorks_of_invariant {m : Net} (hne : b ≠ [])
    (hstep : n.step F (.act i (.write b)) = some m) {I : Net → Prop}
    (hI : ∀ n a n', I n → n.Perfect i a → n.step F a = some n' → I n') (hm : I m)
    (hring : ∀ m', I m' → (m'.ends i.other).socket.ringbuf = (n.ends i.other).socket.ringbuf) :
    ¬ n.WriteWorks F i b := by
  rintro ⟨m₁, hstep₁, h⟩
  obtain rfl : m = m₁ := by injection hstep.symm.trans hstep₁
  obtain ⟨m', hreach, hidle⟩ := (h m (.refl m)).2
  have hb := ((h m' hreach).1 hidle).2
  rw [hring m' (hreach.invariant hI hm)] at hb
  exact hne (List.self_eq_append_right.mp hb)

/-! ## A number other than 255 -/

theorem add_ofNat_ne (q : UInt8) {m : Nat} (hpos : 0 < m) (hm : m < 256) : q + UInt8.ofNat m ≠ q := by
  intro h
  have := (add_ofNat_inj q (b := 0) hm (by omega)).mp (h.trans (UInt8.add_zero q).symm)
  omega

/-- The peer refuses every frame, and `write` does not know the number of its
answers. -/
theorem Joined.not_works (h : n.Joined x l) (hne : b ≠ [])
    (hx : x i ≠ 255 ∨ packetsFor b.length = 4) : ¬ n.WriteWorks F i b := by
  have h₀ := h.ready (i := i) hne
  obtain ⟨m, hreach, hout⟩ := h₀.finish (F := F)
  have hN := packetsFor_le b.length
  have hpos := packetsFor_pos (List.length_pos_of_ne_nil hne)
  have hq : ((n.calls i b).ends i).socket.sequenceNumber = x i + 1 := by
    simpa [calls] using h.sequenceNumber i
  have hρ : ((n.calls i b).ends i.other).socket.remoteSequence = x i := by
    simpa [calls] using h.remoteSequence i
  have hframe : ∀ j, frameSeq (x i + 1) j = x i + UInt8.ofNat (j + 2) := by
    intro j
    rw [frameSeq, UInt8.add_assoc, UInt8.add_comm 1, ofNat_succ]
  have hrefused : ∀ j < packetsFor b.length, ¬ Expects ((n.calls i b).ends i.other).kind
      ((n.calls i b).ends i.other).socket.remoteSequence
      (frameSeq ((n.calls i b).ends i).socket.sequenceNumber j) := by
    intro j hj hexp
    have heq := hexp.eq
    rw [hq, hρ, hframe] at heq
    have := (add_ofNat_inj (x i) (b := 1) (by omega) (by omega)).mp heq
    omega
  have hack := ackAfter_refused (F := F) (b := b) _ hpos hrefused
  rw [hρ] at hack
  obtain ⟨hidle, hret⟩ := hout.returned (r := Error.ackOutOfSequence) (fun w hb hw => ⟨_,
    hw.evaluate_strange hb _ rfl (by
      show ackAfter F _ i b _ ≠ _
      rw [hack, hq]
      exact (add_ofNat_ne (x i) (m := 1) (by omega) (by omega)).symm) (fun j hj => by
      show ackAfter F _ i b _ ≠ _
      rw [hack, hq, hframe]
      exact (add_ofNat_ne (x i) (by omega) (by omega)).symm) (by
      show ackAfter F _ i b _ ≠ _ ∨ _
      rw [hack]
      exact hx)⟩)
  rw [calls_returned] at hret
  refine not_writeWorks (h.step_write hne) hreach hidle (.inl ?_)
  rw [hret]
  intro heq
  have : Error.ackOutOfSequence = (b.length : Int) := by simpa using heq
  unfold Error.ackOutOfSequence at this
  omega

end

end Net

/-! ## The number 255, written by the server -/

/-- A client that has heard 255 awaits 256, which is no number. -/
structure SocketStream.Deaf (r : RingBuffer UInt8) (s : SocketStream) : Prop where
  state : s.state = .opened ∨ s.state = .closed
  remoteSequence : s.remoteSequence = 255
  ringbuf : s.ringbuf = r

section

variable {F : OnFull UInt8} {r : RingBuffer UInt8}

theorem SocketStream.Deaf.handle {s : SocketStream} (h : s.Deaf r) (address : UInt8) (x : Arrival) :
    (s.handle F .client address x).1.Deaf r := by
  unfold SocketStream.handle
  split
  · have hreact := receive_reaction F .client s address x
    generalize s.receive F .client address x = io at hreact
    cases hreact with
    | ignored => exact ⟨h.state, h.remoteSequence, h.ringbuf⟩
    | answered hs => exact absurd hs (by rcases h.state with hst | hst <;> simp [hst])
    | hungUp => exact ⟨.inr rfl, h.remoteSequence, h.ringbuf⟩
    | acked => exact ⟨h.state, h.remoteSequence, h.ringbuf⟩
    | accepted hs hd hq =>
      have hq : (x.data.cell 1).toNat = s.remoteSequence.toNat + 1 := hq
      rw [h.remoteSequence] at hq
      exact absurd (x.data.cell 1).toNat_lt (by rw [hq]; decide)
    | refused => exact ⟨h.state, h.remoteSequence, h.ringbuf⟩
  · exact h

/-- The client on the left does nothing but listen. -/
structure Net.Deaf (r : RingBuffer UInt8) (n : Net) : Prop where
  kind : (n.ends .left).kind = .client
  idle : (n.ends .left).call = .idle
  socket : (n.ends .left).socket.Deaf r

theorem Net.Deaf.put_right {n : Net} (h : n.Deaf r) (e : Endpoint) (out : List Output) :
    (n.put .right e out).Deaf r :=
  ⟨by simpa using h.kind, by simpa using h.idle, by simpa using h.socket⟩

theorem Net.Deaf.step (n : Net) (a : NetAction) (n' : Net) (h : n.Deaf r)
    (hok : n.Perfect .right a) (hstep : n.step F a = some n') : n'.Deaf r := by
  refine Net.step_invariant (I := Net.Deaf r) (P := Net.Perfect .right) (F := F) ?_ ?_ ?_ n a n'
    h hok hstep
  · intro n i a e out h hok _ _
    cases a with
    | burst =>
      obtain rfl : i = .right := hok
      rw [called_burst]
      exact h.put_right e out
    | _ => exact absurd hok id
  · intro n i behind p ps h _
    have h' : (n.withWire i ps).Deaf r := ⟨h.kind, h.idle, h.socket⟩
    cases i with
    | left =>
      constructor
      · rw [Net.put_ends_self]
        exact h.kind
      · rw [Net.put_ends_self]
        exact h.idle
      · rw [Net.put_ends_self, Endpoint.takeAll_one, h.kind]
        exact h.socket.handle _ _
    | right => exact h'.put_right _ _
  · intro n i late h
    cases i with
    | left =>
      rw [Net.resume_eq, Endpoint.resume_idle h.idle, Net.put_self]
      exact h
    | right => exact h.put_right _ _

theorem Net.Joined.server_not_works {n : Net} {x : Side → UInt8} {l : UInt8} {b : List UInt8}
    (h : n.Joined x l) (hne : b ≠ []) (hx : x .right = 255) : ¬ n.WriteWorks F .right b := by
  have hends : (n.calls .right b).ends .left = n.ends .left := by simp [calls]
  refine not_writeWorks_of_invariant hne (h.step_write hne)
    (I := Net.Deaf (n.ends .left).socket.ringbuf) Net.Deaf.step ?_ (fun m' hm' => hm'.socket.ringbuf)
  constructor
  · rw [hends]
    exact h.client
  · rw [hends]
    exact h.idle .left
  · rw [hends]
    exact ⟨.inl (h.opened .left), (h.remoteSequence .right).trans hx, rfl⟩

end

end PicoLan
