import PicoLan.Host.Projection
import PicoLan.Lib.Framing
import PicoLan.Serialiser.RoundTrip

/-!
# Two devices on a cable

Each device reads the bytes that the other one has written, as many as have arrived.
`Net` knows nothing of bytes, of other sockets and of the interface's own packets; it is
nevertheless what two streams on such a cable do (`Cable.refines`), as long as both stay
bound and nobody else sends to their ports.
-/

namespace PicoLan

open Runs

/-- The parser as a decoder of packets; an escape must not be pending.  The sums left in
the sender make no difference (`Packet.emit_eq`). -/
def wireFraming : Framing ParserSerialiser UInt8 Packet where
  feed p bs := ((p.feed bs).1, calls (p.feed bs).2)
  encode p := p.emit ⟨0, 0, []⟩
  Clean p := p.stuffFlag = false
  feed_nil _ := rfl
  feed_append p xs ys := by
    rw [ParserSerialiser.feed_append, calls_append]
  feed_encode p m h :=
    ⟨((ParserSerialiser.feed_emit p m _).1 h).1, (ParserSerialiser.feed_emit p m _).2.2⟩

/-- Packets that are not preceded by an escape keep to `data_buf`. -/
theorem inBuffer_encodeAll {p : ParserSerialiser} (h : p.stuffFlag = false) (ps : List Packet) :
    p.InBuffer (wireFraming.encodeAll ps) := by
  induction ps generalizing p with
  | nil => exact p.inBuffer_nil
  | cons pack ps ih =>
    obtain ⟨hone, -, hflag⟩ := p.feed_emit pack ⟨0, 0, []⟩
    exact ParserSerialiser.inBuffer_append.mpr ⟨(hone h).2, ih hflag⟩

/-- `wire i` are the bytes on their way to `i`.  `acts`, `log` and `heard` are what each
device has done, put out and handled so far, which no step reads. -/
structure Cable where
  host : Side → Host
  wire : Side → List UInt8 := fun _ => []
  acts : Side → List HostAction := fun _ => []
  log : Side → List HostOutput := fun _ => []
  heard : Side → List Packet := fun _ => []

namespace Cable

def after (C : Cable) (i : Side) (c : HostAction) (r : Host × List HostOutput) : Cable where
  host := Function.update C.host i r.1
  wire := Function.update (Function.update C.wire i
      ((C.wire i).drop ((C.host i).taken c).length)) i.other
    (C.wire i.other ++ wireFraming.encodeAll (packetsOf r.2))
  acts := Function.update C.acts i (C.acts i ++ [c])
  log := Function.update C.log i (C.log i ++ r.2)
  heard := Function.update C.heard i (C.heard i ++ (C.host i).incoming ((C.host i).taken c))

/-- `none`, too, when other bytes are read than have been written. -/
def step (F : OnFull UInt8) (C : Cable) (x : Side × HostAction) : Option Cable :=
  if ((C.host x.1).taken x.2).map Incoming.byte <+: C.wire x.1 then
    ((C.host x.1).step F x.2).map (C.after x.1 x.2)
  else none

section

variable {F : OnFull UInt8} {C C' : Cable} {i : Side} {c : HostAction} {r : Host × List HostOutput}

@[simp] theorem after_host_self : (C.after i c r).host i = r.1 := Function.update_self ..

@[simp] theorem after_host_other : (C.after i c r).host i.other = C.host i.other :=
  Function.update_of_ne i.other_ne ..

@[simp] theorem after_wire_self :
    (C.after i c r).wire i = (C.wire i).drop ((C.host i).taken c).length :=
  (Function.update_of_ne i.ne_other ..).trans (Function.update_self ..)

@[simp] theorem after_wire_other : (C.after i c r).wire i.other =
    C.wire i.other ++ wireFraming.encodeAll (packetsOf r.2) := Function.update_self ..

@[simp] theorem after_acts_self : (C.after i c r).acts i = C.acts i ++ [c] :=
  Function.update_self ..

@[simp] theorem after_acts_other : (C.after i c r).acts i.other = C.acts i.other :=
  Function.update_of_ne i.other_ne ..

@[simp] theorem after_log_self : (C.after i c r).log i = C.log i ++ r.2 := Function.update_self ..

@[simp] theorem after_log_other : (C.after i c r).log i.other = C.log i.other :=
  Function.update_of_ne i.other_ne ..

@[simp] theorem after_heard_self :
    (C.after i c r).heard i = C.heard i ++ (C.host i).incoming ((C.host i).taken c) :=
  Function.update_self ..

@[simp] theorem after_heard_other : (C.after i c r).heard i.other = C.heard i.other :=
  Function.update_of_ne i.other_ne ..

theorem step_some (h : C.step F (i, c) = some C') : ∃ H out rest,
    C.wire i = ((C.host i).taken c).map Incoming.byte ++ rest ∧
    (C.host i).step F c = some (H, out) ∧ C' = C.after i c (H, out) ∧ C'.wire i = rest := by
  obtain ⟨⟨rest, hrest⟩, h⟩ := Option.ite_none_right_eq_some.mp h
  obtain ⟨⟨H, out⟩, hstep, rfl⟩ := Option.map_eq_some_iff.mp h
  refine ⟨H, out, rest, hrest.symm, hstep, rfl, ?_⟩
  rw [after_wire_self, ← hrest]
  exact List.drop_left' (List.length_map _)

end

end Cable

/-! ## What a step reads -/

namespace Host

variable {F : OnFull UInt8} {H H' : Host} {c : HostAction} {out : List HostOutput}

theorem storeDatagram_parses (H : Host) (l : Nat) (r : Socket × List UInt8) (len : Nat)
    (late : Bool) : (H.storeDatagram l r len late).1.parser = H.parser := by
  obtain ⟨c, hstore, -⟩ := storeDatagram_eq H l r len late
  rw [hstore]
  rfl

theorem storeDatagram_address (H : Host) (l : Nat) (r : Socket × List UInt8) (len : Nat)
    (late : Bool) : (H.storeDatagram l r len late).1.address = H.address := by
  obtain ⟨c, hstore, -⟩ := storeDatagram_eq H l r len late
  rw [hstore]
  rfl

/-- The parser has taken the bytes that the step takes. -/
theorem step_parses (h : H.step F c = some (H', out)) :
    H'.parser = (H.parser.feed ((H.taken c).map Incoming.byte)).1 := by
  generalize hr : (H', out) = r at h
  cases step_did F h with
  | @device a o hrun ha ho =>
    cases hr
    exact (Device.step_effect F ho ha).parser.trans (Device.read_parses F _ _)
  | @destroy m hidle hrun =>
    cases hr
    rfl
  | socket =>
    cases hr
    rfl
  | write =>
    cases hr
    rfl
  | subscribe =>
    cases hr
    rfl
  | receive =>
    obtain ⟨rfl, rfl⟩ := Prod.ext_iff.mp hr
    exact storeDatagram_parses ..
  | @pollStream l c bytes =>
    obtain ⟨rfl, rfl⟩ := Prod.ext_iff.mp hr
    exact Device.read_parses F H.toDevice bytes
  | @pollDatagram l len got bytes =>
    obtain ⟨rfl, rfl⟩ := Prod.ext_iff.mp hr
    exact (storeDatagram_parses ..).trans (Device.read_parses F H.toDevice bytes)

theorem step_address (h : H.step F c = some (H', out))
    (hc : ∀ addr, c ≠ .device (.setAddress addr)) : H'.address = H.address := by
  generalize hr : (H', out) = r at h
  cases step_did F h with
  | @device a o hrun ha ho =>
    cases hr
    exact (Device.step_effect F ho ha).address fun addr hne => hc addr (congrArg _ hne)
  | @destroy m hidle hrun =>
    cases hr
    show (H.toTable.destroy m).address = _
    unfold Table.destroy
    split <;> rfl
  | socket =>
    cases hr
    rfl
  | write =>
    cases hr
    rfl
  | subscribe =>
    cases hr
    rfl
  | receive =>
    obtain ⟨rfl, rfl⟩ := Prod.ext_iff.mp hr
    exact storeDatagram_address ..
  | @pollStream l c bytes =>
    obtain ⟨rfl, rfl⟩ := Prod.ext_iff.mp hr
    exact received_address F H bytes
  | @pollDatagram l len got bytes =>
    obtain ⟨rfl, rfl⟩ := Prod.ext_iff.mp hr
    exact (storeDatagram_address ..).trans (received_address F H bytes)

end Host

/-! ## A run -/

/-- A client on port 40 at address 2, and a server on port 80 at address 1. -/
def twoDevices : Cable where
  host
    | .left => deviceWith .client 2 40
    | .right => deviceWith .server 1 80

/-- The bytes of a packet. -/
def bytesFor (p : Packet) : List Incoming := (wireFraming.encode p).map (⟨·, fun _ => 0⟩)

def streamPacket (source dest port : UInt8) (payload : List UInt8) : Packet :=
  .datagramPack ⟨6, source, dest, port, BoundedList.empty.appendAll payload⟩

/-- The client's device asks for the addresses, does not wait for the answer and connects. -/
def oneCall : List (Side × HostAction) :=
  [(.right, .socket 0 .listen),
    (.left, .device (.getAddrList 0 0)),
    (.left, .device (.pass 0 [] 0)),
    (.left, .socket 0 (.connect 1 80)),
    (.right, .device (.read (bytesFor (.getAddrListPack ⟨6⟩) ++
      bytesFor (streamPacket 2 1 80 [1, 1, 40])))),
    (.right, .socket 0 .accept),
    (.left, .poll (bytesFor (.addrPack ⟨AddressField.setAddr (Vector.replicate 32 0) 1⟩) ++
      bytesFor (streamPacket 1 2 40 [0, 1]) ++ bytesFor (streamPacket 1 2 40 [1, 1, 80])) false),
    (.right, .poll (bytesFor (streamPacket 2 1 80 [0, 1])) false)]

def newClient : Endpoint where
  kind := .client
  address := 2
  socket := { port := 40, ringbuf := .empty 64, remoteSequence := 0, remotePort := 0 }

def newServer : Endpoint where
  kind := .server
  address := 1
  socket := { port := 80, ringbuf := .empty 64, remoteSequence := 0, remotePort := 0 }

def newPair : Side → Endpoint
  | .left => newClient
  | .right => newServer

end PicoLan
