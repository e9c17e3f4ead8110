import Mathlib.Logic.Function.Basic
import PicoLan.Lib.Ring
import PicoLan.Serialiser.Packets

/-!
# Sockets and what they do with a datagram

`Socket` and `SocketStream`, the packets a stream sends, the three `on_data`
functions and `Interface::datagram_pack_handler`, which calls them.

A packet handler reports the packets that were sent while it ran.  `F` is what
`put` does to a full ring buffer.
-/

namespace PicoLan

namespace Error

def none : Int := 0
def timeout : Int := -1
def badState : Int := -2
def ackOutOfSequence : Int := -3

end Error

inductive ConnectionState where
  | closed
  | synSent
  | listening
  | synRecved
  | pending
  | opened
deriving DecidableEq, Repr

namespace MessageType

def ack : UInt8 := 0
def syn : UInt8 := 1
def data : UInt8 := 2
def close : UInt8 := 3

end MessageType

structure Socket where
  port : UInt8
  remote : UInt8 := 0
  ringbuf : RingBuffer UInt8

/-- The constructor leaves `remote_sequence` and `remote_port` as they are. -/
structure SocketStream extends Socket where
  state : ConnectionState := .closed
  zeroReadCount : UInt8 := 0
  sequenceNumber : UInt8 := 1
  remoteSequence : UInt8
  remotePort : UInt8
  lastRecvedAck : UInt8 := 0

/-! ## Sending -/

namespace SocketStream

/-- A packet to the peer; `address` is the interface's own. -/
def message (s : SocketStream) (address : UInt8) (payload : List UInt8) : DatagramPack where
  ttl := 6
  sourceAddr := address
  destAddr := s.remote
  port := s.remotePort
  payload := BoundedList.empty.appendAll payload

def sendSyn (s : SocketStream) (address : UInt8) : SocketStream × DatagramPack :=
  ({ s with sequenceNumber := s.sequenceNumber + 1 },
    s.message address [MessageType.syn, s.sequenceNumber, s.port])

def sendAck (s : SocketStream) (address : UInt8) : DatagramPack :=
  s.message address [MessageType.ack, s.remoteSequence]

/-- The test for `CONNECTION_LISTENING` reads the state just written, so a
listening socket sends its packet too. -/
def disconnect (s : SocketStream) (address : UInt8) : SocketStream × List DatagramPack :=
  if s.state = .closed then (s, [])
  else ({ s with state := .closed }, [s.message address [MessageType.close, s.sequenceNumber]])

end SocketStream

theorem message_payload (s : SocketStream) (address : UInt8) (bytes : List UInt8) :
    (s.message address bytes).payload.toList = bytes.take payloadSz := by
  show (BoundedList.empty.appendAll bytes).toList = _
  rw [BoundedList.appendAll_toList]
  rfl

theorem disconnect_socket (s : SocketStream) (address : UInt8) :
    (s.disconnect address).1 = { s with state := .closed } := by
  unfold SocketStream.disconnect
  split
  · next h => rw [← h]
  · rfl

/-- A closed stream sends nothing. -/
theorem disconnect_sent (s : SocketStream) (address : UInt8) : (s.disconnect address).2 =
    if s.state = .closed then [] else [s.message address [MessageType.close, s.sequenceNumber]] := by
  unfold SocketStream.disconnect
  split <;> rfl

/-- All that it sends is a CLOSE. -/
theorem mem_disconnect {s : SocketStream} {address : UInt8} {p : DatagramPack}
    (h : p ∈ (s.disconnect address).2) :
    p = s.message address [MessageType.close, s.sequenceNumber] := by
  rw [disconnect_sent] at h
  split at h
  · cases h
  · exact List.mem_singleton.mp h

/-! ## Receiving -/

/-- What `on_data` gets: memory from a pointer on, and a length. -/
structure Data where
  cell : Nat → UInt8
  len : Nat

/-- `data[2], …, data[len - 1]`. -/
def Data.rest (d : Data) : List UInt8 := (List.range' 2 (d.len - 2)).map d.cell

/-- A received datagram.  Its payload lies in a buffer of the list class;
`behind` is what that buffer holds behind the elements. -/
structure Arrival where
  pack : DatagramPack
  behind : Nat → UInt8

def Arrival.data (a : Arrival) : Data where
  cell i := a.pack.payload.toList.getD i (a.behind i)
  len := a.pack.payload.size

section

variable (F : OnFull UInt8)

def Client.onData (s : SocketStream) (address r : UInt8) (data : Data) :
    SocketStream × List DatagramPack :=
  if s.remote ≠ r then (s, [])
  else match s.state with
  | .closed => (s, [])
  | .synSent =>
    if data.cell 0 = MessageType.syn then
      ({ s with remoteSequence := data.cell 1, state := .synRecved }, [])
    else if data.cell 0 = MessageType.close then ({ s with state := .closed }, [])
    else (s, [])
  | .synRecved =>
    if data.cell 0 = MessageType.close then ({ s with state := .closed }, []) else (s, [])
  | .opened =>
    let s := if data.cell 0 = MessageType.close then { s with state := .closed } else s
    let s := if data.cell 0 = MessageType.ack then { s with lastRecvedAck := data.cell 1 } else s
    if data.cell 0 = MessageType.data then
      -- the sum is taken in `int`, without wrapping
      let s := if (data.cell 1).toNat = s.remoteSequence.toNat + 1 then
          { s with
            remoteSequence := s.remoteSequence + 1
            ringbuf := s.ringbuf.putAll F data.rest }
        else s
      (s, [s.sendAck address])
    else (s, [])
  | .listening => (s, [])
  | .pending => (s, [])

def Server.onData (s : SocketStream) (address r : UInt8) (data : Data) :
    SocketStream × List DatagramPack :=
  match s.state with
  | .closed => (s, [])
  | .listening =>
    if data.cell 0 = MessageType.syn then
      ({ s with
          remote := r
          remoteSequence := data.cell 1
          remotePort := data.cell 2
          state := .synRecved }, [])
    else (s, [])
  | .synRecved =>
    if data.len ≠ 2 then (s, [])
    else if s.remote ≠ r then (s, [])
    else if data.cell 0 = MessageType.close then ({ s with state := .closed }, [])
    else (s, [])
  | .pending =>
    if s.remote ≠ r then (s, [])
    else
      let s := if data.cell 0 = MessageType.ack then { s with state := .opened } else s
      (if data.cell 0 = MessageType.close then { s with state := .closed } else s, [])
  | .opened =>
    if s.remote ≠ r then (s, [])
    else
      let s := if data.cell 0 = MessageType.close then { s with state := .closed } else s
      let s := if data.cell 0 = MessageType.ack then { s with lastRecvedAck := data.cell 1 } else s
      if data.cell 0 = MessageType.data then
        let nextSequence := s.remoteSequence + 1
        let s := if data.cell 1 = nextSequence then
            { s with
              remoteSequence := nextSequence
              ringbuf := s.ringbuf.putAll F data.rest }
          else s
        (s, [s.sendAck address])
      else (s, [])
  | .synSent => (s, [])

def Datagram.onData (s : Socket) (r : UInt8) (data : Data) : Socket :=
  let s := { s with remote := r }
  { s with ringbuf := s.ringbuf.putAll F ((List.range data.len).map data.cell) }

/-- The two classes of streams. -/
inductive Kind where
  | client
  | server
deriving DecidableEq, Repr

def SocketStream.onData : Kind → SocketStream → UInt8 → UInt8 → Data →
    SocketStream × List DatagramPack
  | .client => Client.onData F
  | .server => Server.onData F

/-- The body of the handler's loop: the socket takes the sender for its peer and
looks at the data. -/
def SocketStream.receive (k : Kind) (s : SocketStream) (address : UInt8) (a : Arrival) :
    SocketStream × List DatagramPack :=
  SocketStream.onData F k { s with remote := a.pack.sourceAddr } address a.pack.sourceAddr a.data

/-! ## The interface -/

def multicastAddr : UInt8 := 0xFE
def broadcastAddr : UInt8 := 0xFF

/-- A socket bound to an interface. -/
inductive Bound where
  | stream (k : Kind) (s : SocketStream)
  | datagram (s : Socket)

def Bound.port : Bound → UInt8
  | stream _ s => s.port
  | datagram s => s.port

def Bound.receive (address : UInt8) (a : Arrival) : Bound → Bound × List DatagramPack
  | stream k s =>
    let (s, out) := s.receive F k address a
    (stream k s, out)
  | datagram s =>
    let s := { s with remote := a.pack.sourceAddr }
    (datagram (Datagram.onData F s a.pack.sourceAddr a.data), [])

/-- The list holds pointers; `object` is what they point to. -/
structure Interface where
  address : UInt8
  sockets : BoundedList Nat 16
  object : Nat → Bound

namespace Interface

/-- One pass of the handler's loop, over the socket `l` points to. -/
def offer (a : Arrival) (io : Interface × List (Nat × DatagramPack)) (l : Nat) :
    Interface × List (Nat × DatagramPack) :=
  if (io.1.object l).port = a.pack.port then
    let (b, out) := (io.1.object l).receive F io.1.address a
    ({ io.1 with object := Function.update io.1.object l b }, io.2 ++ out.map (l, ·))
  else io

/-- The packets sent are reported with the socket that sent them. -/
def datagramPackHandler (I : Interface) (a : Arrival) : Interface × List (Nat × DatagramPack) :=
  if a.pack.destAddr = I.address ∨ a.pack.destAddr = broadcastAddr ∨
      a.pack.destAddr = multicastAddr then
    I.sockets.toList.foldl (offer F a) (I, [])
  else (I, [])

end Interface

/-! ## One socket of an interface -/

/-- The datagram is for this port of the interface at this address. -/
def Arrival.IsFor (a : Arrival) (address port : UInt8) : Prop :=
  (a.pack.destAddr = address ∨ a.pack.destAddr = broadcastAddr ∨
    a.pack.destAddr = multicastAddr) ∧ port = a.pack.port

instance (a : Arrival) (address port : UInt8) : Decidable (a.IsFor address port) :=
  inferInstanceAs (Decidable (_ ∧ _))

/-- What the handler does to one of its sockets. -/
def Bound.handle (address : UInt8) (a : Arrival) (b : Bound) : Bound × List DatagramPack :=
  if a.IsFor address b.port then b.receive F address a else (b, [])

/-- What the handler does to one of its streams. -/
def SocketStream.handle (k : Kind) (s : SocketStream) (address : UInt8) (a : Arrival) :
    SocketStream × List DatagramPack :=
  if a.IsFor address s.port then s.receive F k address a else (s, [])

/-- One datagram after the other. -/
def SocketStream.handleAll (k : Kind) (s : SocketStream) (address : UInt8) :
    List Arrival → SocketStream × List DatagramPack
  | [] => (s, [])
  | a :: as =>
    let (s, out) := s.handle F k address a
    let (s, out') := handleAll k s address as
    (s, out ++ out')

end

theorem SocketStream.handleAll_append (F : OnFull UInt8) (k : Kind) (s : SocketStream)
    (address : UInt8) (as bs : List Arrival) :
    s.handleAll F k address (as ++ bs) =
      (((s.handleAll F k address as).1.handleAll F k address bs).1,
        (s.handleAll F k address as).2 ++
          ((s.handleAll F k address as).1.handleAll F k address bs).2) := by
  induction as generalizing s with
  | nil => rfl
  | cons a as ih => simp only [List.cons_append, handleAll, ih, List.append_assoc]

/-- The packets of one socket among those reported. -/
def sentBy (l : Nat) (out : List (Nat × DatagramPack)) : List DatagramPack :=
  (out.filter (·.1 = l)).map (·.2)

@[simp] theorem sentBy_append (l : Nat) (out out' : List (Nat × DatagramPack)) :
    sentBy l (out ++ out') = sentBy l out ++ sentBy l out' := by
  simp [sentBy]

theorem sentBy_tag (l m : Nat) (ps : List DatagramPack) :
    sentBy l (ps.map (m, ·)) = if m = l then ps else [] := by
  unfold sentBy
  split
  · next h => simp [List.filter_map, Function.comp_def, h]
  · next h => simp [List.filter_map, Function.comp_def, h]

namespace Interface

variable (F : OnFull UInt8)

theorem offer_address (a : Arrival) (io : Interface × List (Nat × DatagramPack)) (l : Nat) :
    (offer F a io l).1.address = io.1.address ∧ (offer F a io l).1.sockets = io.1.sockets := by
  unfold offer
  split <;> exact ⟨rfl, rfl⟩

theorem offer_other (a : Arrival) (io : Interface × List (Nat × DatagramPack)) (l m : Nat)
    (h : m ≠ l) : (offer F a io m).1.object l = io.1.object l ∧
      sentBy l (offer F a io m).2 = sentBy l io.2 := by
  unfold offer
  split
  · exact ⟨Function.update_of_ne (Ne.symm h) _ _, by simp [sentBy_tag, h]⟩
  · exact ⟨rfl, rfl⟩

theorem offer_self (a : Arrival) (io : Interface × List (Nat × DatagramPack)) (l : Nat)
    (hp : (io.1.object l).port = a.pack.port) :
    (offer F a io l).1.object l = ((io.1.object l).receive F io.1.address a).1 ∧
      sentBy l (offer F a io l).2 =
        sentBy l io.2 ++ ((io.1.object l).receive F io.1.address a).2 := by
  unfold offer
  rw [if_pos hp]
  exact ⟨Function.update_self .., by simp [sentBy_tag]⟩

theorem foldl_offer_address (a : Arrival) (ls : List Nat)
    (io : Interface × List (Nat × DatagramPack)) :
    (ls.foldl (offer F a) io).1.address = io.1.address ∧
      (ls.foldl (offer F a) io).1.sockets = io.1.sockets := by
  induction ls generalizing io with
  | nil => exact ⟨rfl, rfl⟩
  | cons l ls ih =>
    obtain ⟨h₁, h₂⟩ := ih (offer F a io l)
    obtain ⟨h₃, h₄⟩ := offer_address F a io l
    exact ⟨h₁.trans h₃, h₂.trans h₄⟩

theorem foldl_offer_other (a : Arrival) (ls : List Nat) (l : Nat) (h : l ∉ ls)
    (io : Interface × List (Nat × DatagramPack)) :
    (ls.foldl (offer F a) io).1.object l = io.1.object l ∧
      sentBy l (ls.foldl (offer F a) io).2 = sentBy l io.2 := by
  induction ls generalizing io with
  | nil => exact ⟨rfl, rfl⟩
  | cons m ls ih =>
    obtain ⟨hm, hls⟩ := not_or.mp (List.mem_cons.not.mp h)
    obtain ⟨h₁, h₂⟩ := ih hls (offer F a io m)
    obtain ⟨h₃, h₄⟩ := offer_other F a io l m (Ne.symm hm)
    exact ⟨h₁.trans h₃, h₂.trans h₄⟩

/-- The handler's loop meets a bound socket once. -/
theorem foldl_offer_self (a : Arrival) (ls : List Nat) (l : Nat) (hl : l ∈ ls) (hnd : ls.Nodup)
    (io : Interface × List (Nat × DatagramPack)) (hp : (io.1.object l).port = a.pack.port) :
    (ls.foldl (offer F a) io).1.object l = ((io.1.object l).receive F io.1.address a).1 ∧
      sentBy l (ls.foldl (offer F a) io).2 =
        sentBy l io.2 ++ ((io.1.object l).receive F io.1.address a).2 := by
  induction ls generalizing io with
  | nil => cases hl
  | cons m ls ih =>
    obtain ⟨hm, hnd⟩ := List.nodup_cons.mp hnd
    by_cases h : m = l
    · subst h
      obtain ⟨h₁, h₂⟩ := foldl_offer_other F a ls m hm (offer F a io m)
      obtain ⟨h₃, h₄⟩ := offer_self F a io m hp
      exact ⟨h₁.trans h₃, h₂.trans h₄⟩
    · have hl : l ∈ ls := (List.mem_cons.mp hl).resolve_left (Ne.symm h)
      obtain ⟨h₃, h₄⟩ := offer_other F a io l m h
      obtain ⟨h₁, h₂⟩ := ih hl hnd (offer F a io m) (by rw [h₃]; exact hp)
      rw [(offer_address F a io m).1, h₃] at h₁ h₂
      exact ⟨h₁, by rw [List.foldl_cons, h₂, h₄]⟩

theorem foldl_offer_port (a : Arrival) (ls : List Nat) (l : Nat)
    (io : Interface × List (Nat × DatagramPack)) (hp : (io.1.object l).port ≠ a.pack.port) :
    (ls.foldl (offer F a) io).1.object l = io.1.object l ∧
      sentBy l (ls.foldl (offer F a) io).2 = sentBy l io.2 := by
  induction ls generalizing io with
  | nil => exact ⟨rfl, rfl⟩
  | cons m ls ih =>
    have hm : (offer F a io m).1.object l = io.1.object l ∧
        sentBy l (offer F a io m).2 = sentBy l io.2 := by
      by_cases h : m = l
      · subst h
        unfold offer
        rw [if_neg hp]
        exact ⟨rfl, rfl⟩
      · exact offer_other F a io l m h
    obtain ⟨h₁, h₂⟩ := ih (offer F a io m) (by rw [hm.1]; exact hp)
    exact ⟨h₁.trans hm.1, h₂.trans hm.2⟩

theorem handler_address (I : Interface) (a : Arrival) :
    (I.datagramPackHandler F a).1.address = I.address ∧
      (I.datagramPackHandler F a).1.sockets = I.sockets := by
  unfold datagramPackHandler
  split
  · exact foldl_offer_address F a _ _
  · exact ⟨rfl, rfl⟩

/-- **One socket at a time.**  The handler does to each of its sockets what
`handle` says, whatever other sockets are bound. -/
theorem handler_bound (I : Interface) (a : Arrival) (l : Nat) (hl : l ∈ I.sockets.toList)
    (hnd : I.sockets.toList.Nodup) :
    (I.datagramPackHandler F a).1.object l = ((I.object l).handle F I.address a).1 ∧
      sentBy l (I.datagramPackHandler F a).2 = ((I.object l).handle F I.address a).2 := by
  unfold datagramPackHandler Bound.handle
  by_cases hd : a.pack.destAddr = I.address ∨ a.pack.destAddr = broadcastAddr ∨
      a.pack.destAddr = multicastAddr
  · by_cases hp : (I.object l).port = a.pack.port
    · rw [if_pos hd, if_pos ⟨hd, hp⟩]
      exact foldl_offer_self F a _ l hl hnd (I, []) hp
    · rw [if_pos hd, if_neg (fun h => hp h.2)]
      exact foldl_offer_port F a I.sockets.toList l (I, []) hp
  · rw [if_neg hd, if_neg (fun h => hd h.1)]
    exact ⟨rfl, rfl⟩

theorem handler_stream (I : Interface) (a : Arrival) (l : Nat) (hl : l ∈ I.sockets.toList)
    (hnd : I.sockets.toList.Nodup) (k : Kind) (s : SocketStream) (hs : I.object l = .stream k s) :
    (I.datagramPackHandler F a).1.object l = .stream k (s.handle F k I.address a).1 ∧
      sentBy l (I.datagramPackHandler F a).2 = (s.handle F k I.address a).2 := by
  obtain ⟨h₁, h₂⟩ := handler_bound F I a l hl hnd
  have hhandle : (I.object l).handle F I.address a =
      (.stream k (s.handle F k I.address a).1, (s.handle F k I.address a).2) := by
    rw [hs]
    unfold Bound.handle SocketStream.handle
    show (if a.IsFor I.address s.port then _ else _) = _
    split <;> rfl
  rw [hhandle] at h₁ h₂
  exact ⟨h₁, h₂⟩

end Interface

end PicoLan
