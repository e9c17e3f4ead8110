import PicoLan.Datagram
import PicoLan.Host.Log
import PicoLan.Unbinding

/-!
# A device with its sockets

The interface, the sockets and the one call that is running: one of the interface's own
(`Device.call`), or one of a socket, which blocks in `iface->read()`.  So while a socket
waits, the packets for all the others are handled too.

A call that would follow a null `iface` has no step, and no read has one that would store
behind `data_buf` (`Device.step`): both are undefined in the source.
-/

namespace PicoLan

/-- `running` is a call that has not returned, with its socket. -/
structure Host extends Device where
  running : Option (Nat × Call) := none

/-- What an application does.  `device` are the calls of the interface, `socket` those of
a stream (and the points of `write` where nothing is read), and the next three those of a
datagram socket.  `poll` is an `iface->read()` of the socket that is waiting. -/
inductive HostAction where
  | device (a : DeviceAction)
  | destroy (l : Nat)
  | socket (l : Nat) (a : Action)
  | write (l : Nat) (dest port : UInt8) (data : List UInt8)
  | subscribe (l : Nat) (sub : Bool)
  | receive (l len : Nat)
  | poll (bytes : List Incoming) (late : Bool)

/-- `Socket::read` up to the next `iface->read()`. -/
def Socket.goOn (s : Socket) (got : List UInt8) (len : Nat) : Socket × List UInt8 :=
  let (bytes, ringbuf) := s.ringbuf.drain (len - got.length)
  ({ s with ringbuf }, got ++ bytes)

def Datagram.subscribe (s : Socket) (address : UInt8) (sub : Bool) : SubscribePack where
  ttl := 6
  addr := address
  port := s.port
  subscribe := if sub then 1 else 0

namespace Host

/-- The call that is running on the socket `l`. -/
def callOf (H : Host) (l : Nat) : Call :=
  match H.running with
  | some (m, c) => if m = l then c else .idle
  | none => .idle

/-- The stream `l` points to. -/
def endpoint (H : Host) (l : Nat) : Option Endpoint :=
  match H.object l with
  | .stream kind socket => some { kind, address := H.address, socket, call := H.callOf l }
  | .datagram _ => none

/-- The socket `l` is now `b`, and the call `c` is running on it. -/
def store (H : Host) (l : Nat) (b : Bound) (c : Call) : Host :=
  { H with
    object := Function.update H.object l b
    running := match c with
      | .idle => none
      | c => some (l, c) }

/-- What the stream `l` does next. -/
def storeStream (H : Host) (l : Nat) (r : Endpoint × List Output) : Host × List HostOutput :=
  (H.store l (.stream r.1.kind r.1.socket) r.1.call, r.2.map (.socket l))

/-- What `Socket::read` does next on a datagram socket. -/
def storeDatagram (H : Host) (l : Nat) (r : Socket × List UInt8) (len : Nat) (late : Bool) :
    Host × List HostOutput :=
  if r.2.length < len ∧ late = false then (H.store l (.datagram r.1) (.reading r.2 len), [])
  else (H.store l (.datagram r.1) .idle, [.socket l (.got r.2)])

/-- The call needs the interface: it sends something or waits. -/
def Follows (r : Endpoint × List Output) : Bool :=
  match r.1.call with
  | .idle => !(sentOf r.2).isEmpty
  | _ => true

variable (F : OnFull UInt8)

/-- `iface->read()` has returned. -/
def received (H : Host) (bytes : List Incoming) : Host :=
  { H with toDevice := (H.toDevice.read F bytes).device }

/-- `iface->read()` in the call `c` of the socket `l`. -/
def poll (H : Host) (l : Nat) (c : Call) (bytes : List Incoming) (late : Bool) :
    Option (Host × List HostOutput) :=
  let H' := H.received F bytes
  match H'.object l with
  | .stream kind socket =>
    let e : Endpoint := { kind, address := H'.address, socket, call := c }
    if e.atTop then none
    else
      let (H', out) := H'.storeStream l (e.resume late)
      some (H', H.toDevice.readLog F bytes ++ out)
  | .datagram s =>
    match c with
    | .reading got len =>
      -- a call that is over leaves in the ring buffer what has just come
      let (H', out) := H'.storeDatagram l (if late then (s, got) else s.goOn got len) len late
      some (H', H.toDevice.readLog F bytes ++ out)
    | _ => none

/-- No call is running, but for one of the socket `l` perhaps. -/
def Free (H : Host) (l : Nat) : Prop :=
  H.call = .idle ∧ ∀ r, H.running = some r → r.1 = l

instance (H : Host) (l : Nat) : Decidable (H.Free l) :=
  inferInstanceAs (Decidable (_ ∧ ∀ r, H.running = some r → r.1 = l))

def step (H : Host) : HostAction → Option (Host × List HostOutput)
  | .device a =>
    match H.running, a with
    | some _, _ => none
    | none, .sockets _ => none
    | none, a => (H.toDevice.step F a).map fun o => ({ H with toDevice := o.device }, H.toDevice.log F a o)
  | .destroy l =>
    if H.call = .idle ∧ H.running = none then
      some ({ H with toTable := H.toTable.destroy l }, [])
    else none
  | .socket l a =>
    if H.Free l then
      match a, H.endpoint l with
      | .poll _ _, _ => none
      | _, none => none
      | a, some e =>
        match e.step F a with
        | none => none
        | some r => if Follows r ∧ H.iface l = false then none else some (H.storeStream l r)
    else none
  | .write l dest port data =>
    match H.object l with
    | .datagram _ =>
      if H.call = .idle ∧ H.running = none ∧ H.iface l then
        let (r, packs) := Datagram.write H.address dest port data
        some (H, (packs.map Output.sent ++ [Output.ret r]).map (.socket l))
      else none
    | .stream _ _ => none
  | .subscribe l sub =>
    match H.object l with
    | .datagram s =>
      if H.call = .idle ∧ H.running = none ∧ H.iface l then
        some (H, [.own (.subscribePack (Datagram.subscribe s H.address sub))])
      else none
    | .stream _ _ => none
  | .receive l len =>
    match H.object l with
    | .datagram s =>
      if H.call = .idle ∧ H.running = none ∧ ((s.goOn [] len).2.length < len → H.iface l) then
        some (H.storeDatagram l (s.goOn [] len) len false)
      else none
    | .stream _ _ => none
  | .poll bytes late =>
    match H.running with
    | none => none
    | some (l, c) => if H.InBuffer bytes then H.poll F l c bytes late else none

/-- The bytes taken from the input in a step. -/
def taken (H : Host) : HostAction → List Incoming
  | .device a => H.toDevice.taken a
  | .poll bytes _ => bytes
  | _ => []

end Host

/-- A device with one stream, which is bound. -/
def deviceWith (kind : Kind) (address port : UInt8) : Host where
  address := address
  sockets := BoundedList.empty.append 0
  object _ := .stream kind { port, ringbuf := .empty 64, remoteSequence := 0, remotePort := 0 }
  iface _ := true
  parser := .init fun _ => 0

end PicoLan
