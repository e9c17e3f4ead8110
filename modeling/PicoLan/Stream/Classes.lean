import PicoLan.Lib.Runs
import PicoLan.Stream.OnData

/-!
# The two copies of the receive path

`Client::on_data` compares the number of a DATA message with `remote_sequence + 1`
in `int`, `Server::on_data` in eight bits.  The two differ on one number only, the
0 that follows 255, and then in what they acknowledge; so they stay alike exactly
until that number comes (`classes_alike`).
-/

namespace PicoLan

section

variable (F : OnFull UInt8)

/-- One message after the other from the address `r`. -/
def SocketStream.onDataAll (k : Kind) (s : SocketStream) (address r : UInt8) :
    List Data → SocketStream × List DatagramPack
  | [] => (s, [])
  | d :: ds =>
    let (s, out) := SocketStream.onData F k s address r d
    let (s, out') := onDataAll k s address r ds
    (s, out ++ out')

def Server.next (address r : UInt8) (s : SocketStream) (d : Data) : Option SocketStream :=
  some (Server.onData F s address r d).1

end

/-- Number 0 after number 255. -/
def Wraps (s : SocketStream) (d : Data) : Prop :=
  s.state = .opened ∧ d.cell 0 = MessageType.data ∧ s.remoteSequence = 255 ∧ d.cell 1 = 0

instance (s : SocketStream) (d : Data) : Decidable (Wraps s d) :=
  inferInstanceAs (Decidable (_ ∧ _))

theorem inSequence_client_iff (s : SocketStream) (d : Data) :
    InSequence .client s d ↔ InSequence .server s d ∧ s.remoteSequence ≠ 255 := by
  have hlt := (d.cell 1).toNat_lt
  constructor
  · intro h
    refine ⟨InSequence.cell h, ?_⟩
    intro h255
    have hint : (d.cell 1).toNat = s.remoteSequence.toNat + 1 := h
    rw [h255] at hint
    exact absurd hint (by rw [show (255 : UInt8).toNat = 255 by rfl]; omega)
  · rintro ⟨h, h255⟩
    have hseq : d.cell 1 = s.remoteSequence + 1 := h
    show (d.cell 1).toNat = s.remoteSequence.toNat + 1
    have hne : s.remoteSequence.toNat ≠ 255 := fun h => h255 (UInt8.toNat_inj.mp h)
    have := s.remoteSequence.toNat_lt
    rw [hseq, UInt8.toNat_add, UInt8.toNat_one]
    omega

section

variable (F : OnFull UInt8)

theorem onData_opened (k : Kind) (s : SocketStream) (address : UInt8) (d : Data)
    (hs : s.state = .opened) :
    SocketStream.onData F k s address s.remote d = s.onOpened F k address d := by
  cases k with
  | client => exact Client.onData_opened F s address d hs
  | server => exact Server.onData_opened F s address d hs

theorem onData_of_closed (k : Kind) (s : SocketStream) (address r : UInt8) (d : Data)
    (hs : s.state = .closed) : SocketStream.onData F k s address r d = (s, []) := by
  cases k with
  | client =>
    show Client.onData F s address r d = _
    unfold Client.onData
    rw [hs]
    exact ite_self _
  | server =>
    show Server.onData F s address r d = _
    unfold Server.onData
    rw [hs]

/-- Away from the wrap there is one receive path. -/
theorem onOpened_alike (s : SocketStream) (address : UInt8) (d : Data) (hs : s.state = .opened)
    (h : ¬ Wraps s d) : s.onOpened F .client address d = s.onOpened F .server address d := by
  unfold SocketStream.onOpened
  by_cases hd : d.cell 0 = MessageType.data
  · have hiff : InSequence .client s d ↔ InSequence .server s d := by
      rw [inSequence_client_iff]
      constructor
      · exact And.left
      · intro hseq
        refine ⟨hseq, fun h255 => h ⟨hs, hd, h255, ?_⟩⟩
        have hcell : d.cell 1 = s.remoteSequence + 1 := hseq
        rw [hcell, h255]
        rfl
    simp only [hiff]
  · simp only [hd, if_false]

/-- At the wrap the client acknowledges 255, the server 0. -/
theorem onOpened_wraps (s : SocketStream) (address : UInt8) (d : Data) (h : Wraps s d) :
    (s.onOpened F .client address d).2 = [s.message address [MessageType.ack, 255]] ∧
      (s.onOpened F .server address d).2 = [s.message address [MessageType.ack, 0]] := by
  obtain ⟨-, hd, h255, hcell⟩ := h
  obtain ⟨-, -, h₃, h₄, -⟩ := MessageType.distinct
  have hserver : InSequence .server s d := by
    show d.cell 1 = s.remoteSequence + 1
    rw [hcell, h255]
    rfl
  have hclient : ¬ InSequence .client s d := fun h => ((inSequence_client_iff s d).mp h).2 h255
  unfold SocketStream.onOpened
  rw [hd, if_neg h₃, if_neg h₃, if_neg h₄, if_neg h₄, if_pos rfl, if_pos rfl, if_neg hclient,
    if_pos hserver, hcell]
  refine ⟨?_, rfl⟩
  show [s.message address [MessageType.ack, s.remoteSequence]] = _
  rw [h255]

/-- An open stream stays one with the same peer, or is closed. -/
theorem onOpened_state (k : Kind) (s : SocketStream) (address : UInt8) (d : Data)
    (hs : s.state = .opened) : (s.onOpened F k address d).1.remote = s.remote ∧
      ((s.onOpened F k address d).1.state = .opened ∨
        (s.onOpened F k address d).1.state = .closed) := by
  unfold SocketStream.onOpened
  split
  · exact ⟨rfl, .inr rfl⟩
  split
  · exact ⟨rfl, .inl hs⟩
  split
  · split
    · exact ⟨rfl, .inl hs⟩
    · exact ⟨rfl, .inl hs⟩
  · exact ⟨rfl, .inl hs⟩

theorem SocketStream.onDataAll_closed (k : Kind) (s : SocketStream) (address r : UInt8)
    (ds : List Data) (hs : s.state = .closed) : s.onDataAll F k address r ds = (s, []) := by
  induction ds with
  | nil => rfl
  | cons d ds ih =>
    unfold onDataAll
    rw [onData_of_closed F k s address r d hs]
    dsimp only
    rw [ih]
    rfl

/-- Along any messages to an open or a closed stream. -/
theorem SocketStream.onDataAll_alike (s : SocketStream) (address : UInt8) (ds : List Data)
    (hs : s.state = .opened ∨ s.state = .closed)
    (h : Runs.Meets (Server.next F address s.remote) (fun s d => ¬ Wraps s d) s ds) :
    s.onDataAll F .client address s.remote ds = s.onDataAll F .server address s.remote ds := by
  induction ds generalizing s with
  | nil => rfl
  | cons d ds ih =>
    rcases hs with hs | hs
    · have halike := onOpened_alike F s address d hs h.1
      have hrest := h.2 _ rfl
      obtain ⟨hremote, hstate⟩ := onOpened_state F .server s address d hs
      have hnext : (Server.onData F s address s.remote d).1 = (s.onOpened F .server address d).1 :=
        congrArg Prod.fst (onData_opened F .server s address d hs)
      rw [hnext, ← hremote] at hrest
      unfold onDataAll
      rw [onData_opened F .client s address d hs, onData_opened F .server s address d hs, halike]
      dsimp only
      rw [← hremote, ih _ hstate hrest]
    · rw [onDataAll_closed F .client s address _ _ hs, onDataAll_closed F .server s address _ _ hs]

/-- The packets tell the two apart from the wrap on. -/
theorem SocketStream.onDataAll_differ (s : SocketStream) (address : UInt8) (ds : List Data)
    (hs : s.state = .opened ∨ s.state = .closed)
    (h : (s.onDataAll F .client address s.remote ds).2 =
      (s.onDataAll F .server address s.remote ds).2) :
    Runs.Meets (Server.next F address s.remote) (fun s d => ¬ Wraps s d) s ds := by
  induction ds generalizing s with
  | nil => trivial
  | cons d ds ih =>
    rcases hs with hs | hs
    · unfold onDataAll at h
      rw [onData_opened F .client s address d hs, onData_opened F .server s address d hs] at h
      dsimp only at h
      by_cases hw : Wraps s d
      · -- the first packets differ
        obtain ⟨hc, hv⟩ := onOpened_wraps F s address d hw
        rw [hc, hv] at h
        have hpack := (List.cons.inj h).1
        have hpay := congrArg (fun p => p.payload.toList) hpack
        rw [message_payload, message_payload] at hpay
        exact absurd hpay (by decide)
      · refine ⟨hw, fun t ht => ?_⟩
        obtain ⟨hremote, hstate⟩ := onOpened_state F .server s address d hs
        have ht : t = (s.onOpened F .server address d).1 := by
          rw [← congrArg Prod.fst (onData_opened F .server s address d hs)]
          exact (Option.some.inj ht).symm
        rw [onOpened_alike F s address d hs hw, ← hremote] at h
        rw [ht, ← hremote]
        exact ih _ hstate (List.append_cancel_left h)
    · have hnw : ¬ Wraps s d := by
        rintro ⟨hopen, -⟩
        rw [hs] at hopen
        cases hopen
      refine ⟨hnw, fun t ht => ?_⟩
      have ht : t = s := by
        have hclosed := congrArg Prod.fst (onData_of_closed F .server s address s.remote d hs)
        exact (Option.some.inj ht).symm.trans hclosed
      rw [ht]
      apply ih s (.inr hs)
      rw [onDataAll_closed F .client s address _ _ hs, onDataAll_closed F .server s address _ _ hs]

/-- **Two copies.**  A client and a server that are open with the same contents make
the same of a sequence of messages from the peer, and answer the same packets,
exactly when no DATA message numbered 0 comes while `remote_sequence` is 255. -/
theorem classes_alike (s : SocketStream) (address : UInt8) (ds : List Data)
    (hs : s.state = .opened) :
    ((s.onDataAll F .client address s.remote ds).1.state =
        (s.onDataAll F .server address s.remote ds).1.state ∧
      (s.onDataAll F .client address s.remote ds).1.remoteSequence =
        (s.onDataAll F .server address s.remote ds).1.remoteSequence ∧
      (s.onDataAll F .client address s.remote ds).1.lastRecvedAck =
        (s.onDataAll F .server address s.remote ds).1.lastRecvedAck ∧
      (s.onDataAll F .client address s.remote ds).1.ringbuf =
        (s.onDataAll F .server address s.remote ds).1.ringbuf ∧
      (s.onDataAll F .client address s.remote ds).2 =
        (s.onDataAll F .server address s.remote ds).2) ↔
    Runs.Meets (Server.next F address s.remote) (fun s d => ¬ Wraps s d) s ds := by
  constructor
  · rintro ⟨-, -, -, -, hout⟩
    exact SocketStream.onDataAll_differ F s address ds (.inl hs) hout
  · intro h
    rw [SocketStream.onDataAll_alike F s address ds (.inl hs) h]
    exact ⟨rfl, rfl, rfl, rfl, rfl⟩

end

/-! ## Across the wrap -/

/-- An open stream that has accepted the number 254. -/
def lateStream : SocketStream where
  port := 80
  remote := 7
  ringbuf := .empty 8
  state := .opened
  remoteSequence := 254
  remotePort := 9

/-- A DATA message with one byte. -/
def dataMessage (seq b : UInt8) : Data where
  cell i := [MessageType.data, seq, b].getD i 0
  len := 3

/-- A message of these bytes. -/
def messageOf (bytes : List UInt8) : Data where
  cell i := bytes.getD i 0
  len := bytes.length

/-- An ACK, a SYN, the next DATA, the same again, one too far ahead, the CLOSE, and DATA behind it. -/
def lateMessages : List Data :=
  [messageOf [MessageType.ack, 40], messageOf [MessageType.syn, 9, 41], dataMessage 255 10,
    dataMessage 255 10, dataMessage 7 11, messageOf [MessageType.close, 42], dataMessage 0 12]

theorem lateStream_alike :
    (lateStream.onDataAll (OnFull.refuse UInt8) .client 1 7 lateMessages).1.state =
        (lateStream.onDataAll (OnFull.refuse UInt8) .server 1 7 lateMessages).1.state ∧
      (lateStream.onDataAll (OnFull.refuse UInt8) .client 1 7 lateMessages).1.ringbuf =
        (lateStream.onDataAll (OnFull.refuse UInt8) .server 1 7 lateMessages).1.ringbuf ∧
      (lateStream.onDataAll (OnFull.refuse UInt8) .client 1 7 lateMessages).2 =
        (lateStream.onDataAll (OnFull.refuse UInt8) .server 1 7 lateMessages).2 := by
  obtain ⟨hstate, -, -, hring, hout⟩ :=
    (classes_alike (OnFull.refuse UInt8) lateStream 1 lateMessages rfl).mpr (by decide +kernel)
  exact ⟨hstate, hring, hout⟩

/-- The two frames after 254: the server takes both, the client only the first. -/
theorem lateStream_differ :
    (lateStream.onDataAll (OnFull.refuse UInt8) .client 1 7
        [dataMessage 255 10, dataMessage 0 11]).1.ringbuf.toList = [10] ∧
      (lateStream.onDataAll (OnFull.refuse UInt8) .server 1 7
        [dataMessage 255 10, dataMessage 0 11]).1.ringbuf.toList = [10, 11] ∧
      (lateStream.onDataAll (OnFull.refuse UInt8) .client 1 7
        [dataMessage 255 10, dataMessage 0 11]).1.remoteSequence = 255 ∧
      (lateStream.onDataAll (OnFull.refuse UInt8) .server 1 7
        [dataMessage 255 10, dataMessage 0 11]).1.remoteSequence = 0 := by
  decide +kernel

end PicoLan
