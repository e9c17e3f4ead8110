import PicoLan.Stream.Socket

/-!
# What one datagram can do to a stream

The handler writes the sender into `remote` before it calls `on_data`, so the
comparison there succeeds.  `Reaction` lists what is left: everything that a
datagram for the port can change, with the packets sent.  Later modules argue
by its cases and do not unfold `on_data`.
-/

namespace PicoLan

/-- The bytes of a DATA frame. -/
def Arrival.body (a : Arrival) : List UInt8 := a.pack.payload.toList.drop 2

theorem Arrival.data_rest (a : Arrival) : a.data.rest = a.body := by
  apply List.ext_getElem
  · simp [Data.rest, Arrival.data, Arrival.body, BoundedList.size]
  · intro i h₁ h₂
    simp only [Arrival.body, List.length_drop] at h₂
    simp [Data.rest, Arrival.data, Arrival.body, List.getD_eq_getElem?_getD,
      List.getElem?_eq_getElem (show 2 + i < a.pack.payload.toList.length by omega)]

theorem arrival_cell (p : DatagramPack) (behind : Nat → UInt8) {t m : UInt8} {rest : List UInt8}
    (h : p.payload.toList = [t, m] ++ rest) : (Arrival.mk p behind).data.cell 0 = t ∧
      (Arrival.mk p behind).data.cell 1 = m ∧ (Arrival.mk p behind).data.rest = rest := by
  rw [Arrival.data_rest]
  simp [Arrival.data, Arrival.body, h]

/-- The test of the sequence number: in `int` in one class, in eight bits in the
other. -/
def InSequence : Kind → SocketStream → Data → Prop
  | .client, s, d => (d.cell 1).toNat = s.remoteSequence.toNat + 1
  | .server, s, d => d.cell 1 = s.remoteSequence + 1

instance (k : Kind) (s : SocketStream) (d : Data) : Decidable (InSequence k s d) := by
  cases k <;> unfold InSequence <;> infer_instance

theorem succ_of_toNat {b c : UInt8} (h : b.toNat = c.toNat + 1) : b = c + 1 := by
  have hlt := b.toNat_lt
  apply UInt8.toNat_inj.mp
  rw [UInt8.toNat_add, UInt8.toNat_one]
  omega

theorem InSequence.cell {k : Kind} {s : SocketStream} {d : Data} (h : InSequence k s d) :
    d.cell 1 = s.remoteSequence + 1 := by
  cases k with
  | client => exact succ_of_toNat h
  | server => exact h

/-- The stream is in no state in which it looks for such a message. -/
structure Unheeded (k : Kind) (s : SocketStream) (d : Data) : Prop where
  synSent : k = .client → s.state = .synSent →
    d.cell 0 ≠ MessageType.syn ∧ d.cell 0 ≠ MessageType.close
  listening : k = .server → s.state = .listening → d.cell 0 ≠ MessageType.syn
  synRecved : s.state = .synRecved → (k = .server → d.len = 2) → d.cell 0 ≠ MessageType.close
  pending : k = .server → s.state = .pending →
    d.cell 0 ≠ MessageType.ack ∧ d.cell 0 ≠ MessageType.close
  opened : s.state = .opened →
    d.cell 0 ≠ MessageType.ack ∧ d.cell 0 ≠ MessageType.data ∧ d.cell 0 ≠ MessageType.close

/-- What a message `d` from the peer does to `s`. -/
inductive Reaction (F : OnFull UInt8) (address : UInt8) (d : Data) (s : SocketStream) :
    Kind → SocketStream × List DatagramPack → Prop where
  | ignored {k : Kind} (h : Unheeded k s d) : Reaction F address d s k (s, [])
  | answered (hs : s.state = .synSent) (hd : d.cell 0 = MessageType.syn) :
    Reaction F address d s .client
      ({ s with remoteSequence := d.cell 1, state := .synRecved }, [])
  | called (hs : s.state = .listening) (hd : d.cell 0 = MessageType.syn) :
    Reaction F address d s .server
      ({ s with remoteSequence := d.cell 1, remotePort := d.cell 2, state := .synRecved }, [])
  | confirmed (hs : s.state = .pending) (hd : d.cell 0 = MessageType.ack) :
    Reaction F address d s .server ({ s with state := .opened }, [])
  | hungUp {k : Kind} (hs : s.state ≠ .closed) (hl : s.state ≠ .listening)
      (hd : d.cell 0 = MessageType.close) :
    Reaction F address d s k ({ s with state := .closed }, [])
  | acked {k : Kind} (hs : s.state = .opened) (hd : d.cell 0 = MessageType.ack) :
    Reaction F address d s k ({ s with lastRecvedAck := d.cell 1 }, [])
  | accepted {k : Kind} (hs : s.state = .opened) (hd : d.cell 0 = MessageType.data)
      (hq : InSequence k s d) :
    Reaction F address d s k
      ({ s with remoteSequence := d.cell 1, ringbuf := s.ringbuf.putAll F d.rest },
        [s.message address [MessageType.ack, d.cell 1]])
  | refused {k : Kind} (hs : s.state = .opened) (hd : d.cell 0 = MessageType.data)
      (hq : ¬ InSequence k s d) :
    Reaction F address d s k (s, [s.sendAck address])

variable (F : OnFull UInt8)

theorem Reaction.remote {address : UInt8} {d : Data} {s : SocketStream} {k : Kind}
    {io : SocketStream × List DatagramPack} (h : Reaction F address d s k io) :
    io.1.remote = s.remote ∧ io.1.port = s.port := by
  cases h <;> exact ⟨rfl, rfl⟩

/-- The branch of the open state, with one test for each message type. -/
def SocketStream.onOpened (k : Kind) (s : SocketStream) (address : UInt8) (d : Data) :
    SocketStream × List DatagramPack :=
  if d.cell 0 = MessageType.close then ({ s with state := .closed }, [])
  else if d.cell 0 = MessageType.ack then ({ s with lastRecvedAck := d.cell 1 }, [])
  else if d.cell 0 = MessageType.data then
    if InSequence k s d then
      ({ s with remoteSequence := d.cell 1, ringbuf := s.ringbuf.putAll F d.rest },
        [s.message address [MessageType.ack, d.cell 1]])
    else (s, [s.sendAck address])
  else (s, [])

theorem MessageType.distinct :
    ack ≠ close ∧ ack ≠ data ∧ data ≠ close ∧ data ≠ ack ∧ close ≠ ack ∧ close ≠ data := by
  decide

theorem Client.onData_opened (s : SocketStream) (address : UInt8) (d : Data)
    (hs : s.state = .opened) :
    Client.onData F s address s.remote d = s.onOpened F .client address d := by
  obtain ⟨h₁, h₂, h₃, h₄, h₅, h₆⟩ := MessageType.distinct
  unfold Client.onData SocketStream.onOpened
  rw [if_neg (fun h => h rfl)]
  obtain ⟨⟨port, remote, ringbuf⟩, state, zeros, seq, remoteSequence, remotePort, lastAck⟩ := s
  cases hs
  dsimp only
  by_cases hc : d.cell 0 = MessageType.close
  · simp only [hc, h₅, h₆, if_true, if_false]
  by_cases ha : d.cell 0 = MessageType.ack
  · simp only [ha, h₁, h₂, if_true, if_false]
  by_cases hd : d.cell 0 = MessageType.data
  · simp only [hd, h₃, h₄, if_true, if_false]
    by_cases hq : (d.cell 1).toNat = remoteSequence.toNat + 1
    · simp only [InSequence, hq, if_true]
      rw [succ_of_toNat hq]
      rfl
    · simp only [InSequence, hq, if_false]
  · simp only [hc, ha, hd, if_false]

theorem Server.onData_opened (s : SocketStream) (address : UInt8) (d : Data)
    (hs : s.state = .opened) :
    Server.onData F s address s.remote d = s.onOpened F .server address d := by
  obtain ⟨h₁, h₂, h₃, h₄, h₅, h₆⟩ := MessageType.distinct
  unfold Server.onData SocketStream.onOpened
  obtain ⟨⟨port, remote, ringbuf⟩, state, zeros, seq, remoteSequence, remotePort, lastAck⟩ := s
  cases hs
  dsimp only
  rw [if_neg (fun h => h rfl)]
  by_cases hc : d.cell 0 = MessageType.close
  · simp only [hc, h₅, h₆, if_true, if_false]
  by_cases ha : d.cell 0 = MessageType.ack
  · simp only [ha, h₁, h₂, if_true, if_false]
  by_cases hd : d.cell 0 = MessageType.data
  · simp only [hd, h₃, h₄, if_true, if_false]
    by_cases hq : d.cell 1 = remoteSequence + 1
    · simp only [InSequence, hq, if_true]
      rfl
    · simp only [InSequence, hq, if_false]
  · simp only [hc, ha, hd, if_false]

theorem onOpened_reaction (k : Kind) (s : SocketStream) (address : UInt8) (d : Data)
    (hs : s.state = .opened) : Reaction F address d s k (s.onOpened F k address d) := by
  unfold SocketStream.onOpened
  split
  · next hc => exact .hungUp (by simp [hs]) (by simp [hs]) hc
  split
  · next ha => exact .acked hs ha
  split
  · next hd =>
    split
    · next hq => exact .accepted hs hd hq
    · next hq => exact .refused hs hd hq
  · next hc ha hd => exact .ignored (by constructor <;> simp [hs, hc, ha, hd])

theorem Client.onData_reaction (s : SocketStream) (address : UInt8) (d : Data) :
    Reaction F address d s .client (Client.onData F s address s.remote d) := by
  by_cases ho : s.state = .opened
  · rw [Client.onData_opened F s address d ho]
    exact onOpened_reaction F .client s address d ho
  unfold Client.onData
  rw [if_neg (fun h => h rfl)]
  cases hs : s.state with
  | opened => exact absurd hs ho
  | closed => exact .ignored (by constructor <;> simp [hs])
  | listening => exact .ignored (by constructor <;> simp [hs])
  | pending => exact .ignored (by constructor <;> simp [hs])
  | synSent =>
    dsimp only
    split
    · next h => exact .answered hs h
    split
    · next h' => exact .hungUp (by simp [hs]) (by simp [hs]) h'
    · next h h' => exact .ignored (by constructor <;> simp [hs, h, h'])
  | synRecved =>
    dsimp only
    split
    · next h => exact .hungUp (by simp [hs]) (by simp [hs]) h
    · next h => exact .ignored (by constructor <;> simp [hs, h])

theorem Server.onData_reaction (s : SocketStream) (address : UInt8) (d : Data) :
    Reaction F address d s .server (Server.onData F s address s.remote d) := by
  obtain ⟨h₁, -, -, -, h₅, -⟩ := MessageType.distinct
  by_cases ho : s.state = .opened
  · rw [Server.onData_opened F s address d ho]
    exact onOpened_reaction F .server s address d ho
  unfold Server.onData
  cases hs : s.state with
  | opened => exact absurd hs ho
  | closed => exact .ignored (by constructor <;> simp [hs])
  | synSent => exact .ignored (by constructor <;> simp [hs])
  | listening =>
    dsimp only
    split
    · next h => exact .called hs h
    · next h => exact .ignored (by constructor <;> simp [hs, h])
  | synRecved =>
    dsimp only
    split
    · next h => exact .ignored (by constructor <;> simp [hs, h])
    rw [if_neg (fun h => h rfl)]
    split
    · next h => exact .hungUp (by simp [hs]) (by simp [hs]) h
    · next h => exact .ignored (by constructor <;> simp [hs, h])
  | pending =>
    simp only [ne_eq, not_true_eq_false, if_false]
    by_cases ha : d.cell 0 = MessageType.ack
    · simp only [ha, h₁, if_true, if_false]
      exact .confirmed hs ha
    by_cases hc : d.cell 0 = MessageType.close
    · simp only [hc, h₅, if_true, if_false]
      exact .hungUp (by simp [hs]) (by simp [hs]) hc
    · simp only [ha, hc, if_false]
      exact .ignored (by constructor <;> simp [hs, ha, hc])

/-- **What the handler does to a stream.** -/
theorem SocketStream.receive_reaction (k : Kind) (s : SocketStream) (address : UInt8)
    (a : Arrival) :
    Reaction F address a.data { s with remote := a.pack.sourceAddr } k (s.receive F k address a) := by
  cases k with
  | client => exact Client.onData_reaction F { s with remote := a.pack.sourceAddr } address a.data
  | server => exact Server.onData_reaction F { s with remote := a.pack.sourceAddr } address a.data

/-- No datagram changes the stream's own counters. -/
theorem SocketStream.handle_counters (k : Kind) (s : SocketStream) (address : UInt8) (a : Arrival) :
    (s.handle F k address a).1.sequenceNumber = s.sequenceNumber ∧
      (s.handle F k address a).1.zeroReadCount = s.zeroReadCount := by
  unfold handle
  split
  · have hr := receive_reaction F k s address a
    generalize s.receive F k address a = io at hr ⊢
    cases hr <;> exact ⟨rfl, rfl⟩
  · exact ⟨rfl, rfl⟩

theorem SocketStream.handleAll_counters (k : Kind) (s : SocketStream) (address : UInt8)
    (as : List Arrival) : (s.handleAll F k address as).1.sequenceNumber = s.sequenceNumber ∧
      (s.handleAll F k address as).1.zeroReadCount = s.zeroReadCount := by
  induction as generalizing s with
  | nil => exact ⟨rfl, rfl⟩
  | cons a as ih =>
    obtain ⟨hseq, hzero⟩ := handle_counters F k s address a
    obtain ⟨hseq', hzero'⟩ := ih (s.handle F k address a).1
    exact ⟨hseq'.trans hseq, hzero'.trans hzero⟩

theorem SocketStream.handle_opened (k : Kind) (s : SocketStream) (address : UInt8) (a : Arrival)
    (hs : s.state = .opened) : s.handle F k address a =
      if a.IsFor address s.port then
        SocketStream.onOpened F k { s with remote := a.pack.sourceAddr } address a.data
      else (s, []) := by
  unfold handle
  split
  · cases k with
    | client => exact Client.onData_opened F { s with remote := a.pack.sourceAddr } address a.data hs
    | server => exact Server.onData_opened F { s with remote := a.pack.sourceAddr } address a.data hs
  · rfl

/-- An ACK to an open stream. -/
theorem SocketStream.handle_ack (k : Kind) (s : SocketStream) (address : UInt8) (a : Arrival)
    (hs : s.state = .opened) (ha : a.data.cell 0 = MessageType.ack) :
    s.handle F k address a = if a.IsFor address s.port then
        ({ s with remote := a.pack.sourceAddr, lastRecvedAck := a.data.cell 1 }, [])
      else (s, []) := by
  obtain ⟨h₁, -⟩ := MessageType.distinct
  rw [handle_opened F k s address a hs, onOpened, ha, if_neg h₁, if_pos rfl]

/-- A DATA frame to an open stream. -/
theorem SocketStream.handle_data (k : Kind) (s : SocketStream) (address : UInt8) (a : Arrival)
    (hs : s.state = .opened) (hd : a.data.cell 0 = MessageType.data) :
    s.handle F k address a = if a.IsFor address s.port then
        let s := { s with remote := a.pack.sourceAddr }
        if InSequence k s a.data then
          ({ s with
              remoteSequence := a.data.cell 1
              ringbuf := s.ringbuf.putAll F a.data.rest },
            [s.message address [MessageType.ack, a.data.cell 1]])
        else (s, [s.sendAck address])
      else (s, []) := by
  obtain ⟨-, -, h₃, h₄, -⟩ := MessageType.distinct
  rw [handle_opened F k s address a hs, onOpened, hd, if_neg h₃, if_neg h₄, if_pos rfl]

/-! ## Before the stream is open -/

section

variable (s : SocketStream) (address : UInt8) (a : Arrival) (hfor : a.IsFor address s.port)

include hfor

theorem SocketStream.handle_closed (k : Kind) (hs : s.state = .closed) :
    s.handle F k address a = ({ s with remote := a.pack.sourceAddr }, []) := by
  unfold handle receive
  rw [if_pos hfor]
  cases k with
  | client => simp [onData, Client.onData, hs]
  | server => simp [onData, Server.onData, hs]

theorem SocketStream.handle_synSent (hs : s.state = .synSent)
    (hc : a.data.cell 0 ≠ MessageType.close) :
    s.handle F .client address a = if a.data.cell 0 = MessageType.syn then
        ({ s with
            remote := a.pack.sourceAddr
            remoteSequence := a.data.cell 1
            state := .synRecved }, [])
      else ({ s with remote := a.pack.sourceAddr }, []) := by
  unfold handle receive
  rw [if_pos hfor]
  simp [onData, Client.onData, hs, hc]

theorem SocketStream.handle_listening (hs : s.state = .listening)
    (hd : a.data.cell 0 = MessageType.syn) :
    s.handle F .server address a = ({ s with
        remote := a.pack.sourceAddr
        remoteSequence := a.data.cell 1
        remotePort := a.data.cell 2
        state := .synRecved }, []) := by
  unfold handle receive
  rw [if_pos hfor]
  simp [onData, Server.onData, hs, hd]

theorem SocketStream.handle_pending (hs : s.state = .pending)
    (hd : a.data.cell 0 = MessageType.ack) :
    s.handle F .server address a =
      ({ s with remote := a.pack.sourceAddr, state := .opened }, []) := by
  unfold handle receive
  rw [if_pos hfor]
  have hne : (MessageType.ack : UInt8) ≠ MessageType.close := by decide
  simp [onData, Server.onData, hs, hd, hne]

end

end PicoLan
