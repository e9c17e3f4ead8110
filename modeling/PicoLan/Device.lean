import PicoLan.Binding
import PicoLan.Serialiser.Parser
import PicoLan.Stream.Strangers
import PicoLan.Stream.Write

/-!
# The packets of an interface

`Interface` with its parser: `read` feeds it every byte there is, and every packet
goes to the handler of its class.  `ping` and `get_addr_list` send a request and then
read until the handler has left a trace of the answer; the clock is an input.
-/

namespace PicoLan

/-- The bytes of an address field are `Bits<uint8>`. -/
def AddressField.setAddr (af : AddressField) (addr : UInt8) : AddressField :=
  have h : addr.toNat / 8 < 32 := by
    have := addr.toNat_lt
    omega
  af.set (addr.toNat / 8) (af[addr.toNat / 8] ||| 1 <<< (addr % 8))

/-- A byte that `get` returns, and what lies in memory behind the payload of a datagram
that is complete with it. -/
structure Incoming where
  byte : UInt8
  behind : Nat → UInt8

/-- Where an interface stands, with the locals of the loop. -/
inductive DeviceCall where
  | idle
  | listing (timeoutMs start : UInt32)
  | pinging (dest : UInt8) (timeoutMs : UInt32) (payload : UInt16) (start : UInt32)
deriving DecidableEq

structure Device extends Table where
  parser : ParserSerialiser
  pingEchoPayload : UInt16 := 0
  addrListRecved : Bool := false
  addrField : AddressField := Vector.replicate 32 0
  call : DeviceCall := .idle

/-- What an application does with its interface.  `sockets` is anything its sockets do
to themselves, whose own `iface->read()`s are steps of their own.  In `pass` the clock
reads `now` in the condition of the loop, and `after` when the result is computed. -/
inductive DeviceAction where
  | setAddress (addr : UInt8)
  | bind (l : Nat)
  | unbindSocket (l : Nat)
  | sockets (object : Nat → Bound)
  | read (bytes : List Incoming)
  | getAddrList (timeoutMs start : UInt32)
  | ping (dest : UInt8) (timeoutMs clock start : UInt32)
  | pass (now : UInt32) (bytes : List Incoming) (after : UInt32)

namespace Device

/-- What a step leads to, the packets handled in it and those sent, and what the call
returns. -/
structure Outcome where
  device : Device
  handled : List Packet := []
  sent : List Packet := []
  returned : Option Int := none

/-- The call is over. -/
def Outcome.finish (o : Outcome) (r : Int) : Outcome :=
  { o with
    device := { o.device with call := .idle }
    returned := some r }

variable (F : OnFull UInt8)

/-! ## The handlers -/

def getAddrListPackHandler (D : Device) : Device × List Packet :=
  (D, [.addrPack ⟨AddressField.setAddr (Vector.replicate 32 0) D.address⟩])

def addrPackHandler (D : Device) (pack : AddrPack) : Device × List Packet :=
  ({ D with addrField := pack.addressField, addrListRecved := true }, [])

def pingPackHandler (D : Device) (pack : PingPack) : Device × List Packet :=
  (D, [.pingEchoPack
    { ttl := 6, sourceAddr := D.address, destAddr := pack.sourceAddr, payload := pack.payload }])

def pingEchoPackHandler (D : Device) (pingEcho : PingEchoPack) : Device × List Packet :=
  ({ D with pingEchoPayload := pingEcho.payload }, [])

def datagramPackHandler (D : Device) (a : Arrival) : Device × List Packet :=
  let (I, out) := D.toInterface.datagramPackHandler F a
  ({ D with toInterface := I }, out.map fun o => .datagramPack o.2)

/-- The handler of the packet's class. -/
def handle (D : Device) (behind : Nat → UInt8) : Packet → Device × List Packet
  | .getAddrListPack _ => D.getAddrListPackHandler
  | .addrPack p => D.addrPackHandler p
  | .pingPack p => D.pingPackHandler p
  | .pingEchoPack p => D.pingEchoPackHandler p
  | .datagramPack p => D.datagramPackHandler F ⟨p, behind⟩
  | .subscribePack _ => (D, [])

def handleAll (D : Device) (behind : Nat → UInt8) : List Packet → Device × List Packet
  | [] => (D, [])
  | p :: ps =>
    let (D, out) := D.handle F behind p
    let (D, out') := handleAll D behind ps
    (D, out ++ out')

/-- `ParserSerialiser::read`, with the handler it calls.  A store behind `data_buf` would
overwrite the members of `Interface` that follow it: this is the source only as long as the
bytes are `InBuffer` (`step`). -/
def readByte (D : Device) (b : Incoming) : Outcome :=
  let (parser, es) := D.parser.read b.byte
  let (D, sent) := handleAll F { D with parser } b.behind (calls es)
  { device := D, handled := calls es, sent }

/-- All bytes there are. -/
def read (D : Device) : List Incoming → Outcome
  | [] => { device := D }
  | b :: bs =>
    let o := D.readByte F b
    let o' := read o.device bs
    { o' with
      handled := o.handled ++ o'.handled
      sent := o.sent ++ o'.sent }

/-! ## The calls -/

def setAddress (D : Device) (addr : UInt8) : Outcome where
  device := { D with address := addr }
  sent := [.addrPack ⟨AddressField.setAddr (Vector.replicate 32 0) addr⟩]

/-- `get_addr_list` up to its loop. -/
def getAddrList (D : Device) (timeoutMs start : UInt32) : Outcome where
  device := { D with addrListRecved := false, call := .listing timeoutMs start }
  sent := [.getAddrListPack ⟨6⟩]

/-- `ping` up to its loop. -/
def ping (D : Device) (dest : UInt8) (timeoutMs clock start : UInt32) : Outcome where
  device := { D with call := .pinging dest timeoutMs clock.toUInt16 start }
  sent := [.pingPack
    { ttl := 6, sourceAddr := D.address, destAddr := dest, payload := clock.toUInt16 }]

/-- One pass of the loop of `get_addr_list`. -/
def passListing (D : Device) (timeoutMs start now : UInt32) (bytes : List Incoming) : Outcome :=
  if now - start < timeoutMs then
    let o := D.read F bytes
    if o.device.addrListRecved then o.finish Error.none else o
  else Outcome.finish { device := D } Error.timeout

/-- One pass of the loop of `ping`. -/
def passPinging (D : Device) (timeoutMs : UInt32) (payload : UInt16) (start now : UInt32)
    (bytes : List Incoming) (after : UInt32) : Outcome :=
  if now - start < timeoutMs then
    let o := D.read F bytes
    if o.device.pingEchoPayload = payload then o.finish (asInt (after - start).toNat) else o
  else Outcome.finish { device := D } Error.timeout

/-- `none` while another call is running. -/
def begin (D : Device) (o : Outcome) : Option Outcome := if D.call = .idle then some o else none

/-- The pass looks at the input. -/
def InTime (D : Device) (now : UInt32) : Prop :=
  match D.call with
  | .idle => False
  | .listing timeoutMs start => now - start < timeoutMs
  | .pinging _ timeoutMs _ start => now - start < timeoutMs

instance (D : Device) (now : UInt32) : Decidable (D.InTime now) := by
  unfold InTime
  cases D.call <;> infer_instance

/-- The bytes taken from the input in a step. -/
def taken (D : Device) : DeviceAction → List Incoming
  | .read bytes => bytes
  | .pass now bytes _ => if D.InTime now then bytes else []
  | _ => []

/-- Reading the bytes stores nothing behind `data_buf`. -/
def InBuffer (D : Device) (bytes : List Incoming) : Prop :=
  D.parser.InBuffer (bytes.map Incoming.byte)

instance (D : Device) (bytes : List Incoming) : Decidable (D.InBuffer bytes) :=
  inferInstanceAs (Decidable (D.parser.InBuffer _))

/-- What an action does.  `none` for a pass of no call, too. -/
def perform (D : Device) : DeviceAction → Option Outcome
  | .setAddress addr => D.begin (D.setAddress addr)
  | .bind l => D.begin { device := { D with toTable := (D.toTable.bind l).1 } }
  | .unbindSocket l => D.begin { device := { D with toTable := D.toTable.unbindSocket l } }
  | .sockets object => D.begin { device := { D with object } }
  | .read bytes => D.begin (D.read F bytes)
  | .getAddrList timeoutMs start => D.begin (D.getAddrList timeoutMs start)
  | .ping dest timeoutMs clock start => D.begin (D.ping dest timeoutMs clock start)
  | .pass now bytes after =>
    match D.call with
    | .idle => none
    | .listing timeoutMs start => some (D.passListing F timeoutMs start now bytes)
    | .pinging _ timeoutMs payload start =>
      some (D.passPinging F timeoutMs payload start now bytes after)

/-- A read that stores behind `data_buf` is undefined in the source, and has no step. -/
def step (D : Device) (a : DeviceAction) : Option Outcome :=
  if D.InBuffer (D.taken a) then D.perform F a else none

theorem step_iff {D : Device} {a : DeviceAction} {o : Outcome} :
    D.step F a = some o ↔ D.InBuffer (D.taken a) ∧ D.perform F a = some o :=
  Option.ite_none_right_eq_some

theorem step_perform {D : Device} {a : DeviceAction} {o : Outcome} (h : D.step F a = some o) :
    D.perform F a = some o := ((step_iff F).mp h).2

theorem begin_some {D : Device} {o o' : Outcome} (h : D.begin o = some o') :
    D.call = .idle ∧ o = o' := by
  obtain ⟨hidle, h⟩ := Option.ite_none_right_eq_some.mp h
  exact ⟨hidle, Option.some.inj h⟩

theorem inTime_pinging {D : Device} {dest : UInt8} {timeoutMs now start : UInt32} {payload : UInt16}
    (hcall : D.call = .pinging dest timeoutMs payload start) :
    D.InTime now ↔ now - start < timeoutMs := by
  unfold InTime
  rw [hcall]

theorem inTime_listing {D : Device} {timeoutMs now start : UInt32}
    (hcall : D.call = .listing timeoutMs start) : D.InTime now ↔ now - start < timeoutMs := by
  unfold InTime
  rw [hcall]

theorem taken_pass {D : Device} {now : UInt32} (htime : D.InTime now) (bytes : List Incoming)
    (after : UInt32) : D.taken (.pass now bytes after) = bytes := if_pos htime

/-- A pass in time reads, and then the loop goes on or the call returns.  One that is not in time
gives up. -/
theorem pass_cases {D : Device} {now after : UInt32} {bytes : List Incoming} {o : Outcome}
    (h : D.step F (.pass now bytes after) = some o) :
    (D.InTime now ∧ (o = D.read F bytes ∨ ∃ r, o = (D.read F bytes).finish r)) ∨
      ¬ D.InTime now ∧ o = Outcome.finish { device := D } Error.timeout := by
  replace h := step_perform F h
  unfold perform at h
  cases hcall : D.call with
  | idle =>
    rw [hcall] at h
    cases h
  | listing timeoutMs start =>
    rw [hcall] at h
    cases h
    rw [inTime_listing hcall]
    unfold passListing
    split
    · next htime =>
      refine .inl ⟨htime, ?_⟩
      dsimp only
      split
      · exact .inr ⟨_, rfl⟩
      · exact .inl rfl
    · next hover => exact .inr ⟨hover, rfl⟩
  | pinging dest timeoutMs payload start =>
    rw [hcall] at h
    cases h
    rw [inTime_pinging hcall]
    unfold passPinging
    split
    · next htime =>
      refine .inl ⟨htime, ?_⟩
      dsimp only
      split
      · exact .inr ⟨_, rfl⟩
      · exact .inl rfl
    · next hover => exact .inr ⟨hover, rfl⟩

/-! ## What the handlers leave behind -/

/-- The ping echoes among `ps`. -/
def echoes (ps : List Packet) : List PingEchoPack :=
  ps.filterMap fun p => match p with
    | .pingEchoPack e => some e
    | _ => none

/-- The payload of the last ping echo among `ps`, and `v` if there is none. -/
def lastEcho (v : UInt16) (ps : List Packet) : UInt16 :=
  match (echoes ps).getLast? with
  | none => v
  | some e => e.payload

theorem echoes_append (ps qs : List Packet) : echoes (ps ++ qs) = echoes ps ++ echoes qs :=
  List.filterMap_append

theorem lastEcho_append (v : UInt16) (ps qs : List Packet) :
    lastEcho v (ps ++ qs) = lastEcho (lastEcho v ps) qs := by
  unfold lastEcho
  rw [echoes_append, List.getLast?_append]
  cases (echoes qs).getLast? <;> rfl

theorem lastEcho_mem {v : UInt16} {ps : List Packet} (h : lastEcho v ps ≠ v) :
    ∃ e ∈ echoes ps, e.payload = lastEcho v ps := by
  unfold lastEcho at h ⊢
  cases hlast : (echoes ps).getLast? with
  | none =>
    rw [hlast] at h
    exact absurd rfl h
  | some e => exact ⟨e, List.mem_of_getLast? hlast, rfl⟩

/-- An `addr_pack` is among `ps`. -/
def hasAddr (ps : List Packet) : Bool :=
  ps.any fun p => match p with
    | .addrPack _ => true
    | _ => false

/-- What the packets `ps` do to the interface itself. -/
structure Left (D : Device) (ps : List Packet) (D' : Device) : Prop where
  address : D'.address = D.address
  call : D'.call = D.call
  pingEchoPayload : D'.pingEchoPayload = lastEcho D.pingEchoPayload ps
  addrListRecved : D'.addrListRecved = (D.addrListRecved || hasAddr ps)

theorem Left.nil (D : Device) : Left D [] D := ⟨rfl, rfl, rfl, (Bool.or_false _).symm⟩

theorem Left.append {D₁ D₂ D₃ : Device} {ps qs : List Packet} (h : Left D₁ ps D₂)
    (h' : Left D₂ qs D₃) : Left D₁ (ps ++ qs) D₃ := by
  refine ⟨h'.address.trans h.address, h'.call.trans h.call, ?_, ?_⟩
  · rw [h'.pingEchoPayload, h.pingEchoPayload, lastEcho_append]
  · rw [h'.addrListRecved, h.addrListRecved, hasAddr, hasAddr, hasAddr, List.any_append,
      Bool.or_assoc]

theorem handle_left (D : Device) (behind : Nat → UInt8) (p : Packet) :
    Left D [p] (D.handle F behind p).1 ∧ (D.handle F behind p).1.parser = D.parser := by
  cases p with
  | getAddrListPack p => exact ⟨⟨rfl, rfl, rfl, (Bool.or_false _).symm⟩, rfl⟩
  | addrPack p => exact ⟨⟨rfl, rfl, rfl, (Bool.or_true _).symm⟩, rfl⟩
  | pingPack p => exact ⟨⟨rfl, rfl, rfl, (Bool.or_false _).symm⟩, rfl⟩
  | pingEchoPack p => exact ⟨⟨rfl, rfl, rfl, (Bool.or_false _).symm⟩, rfl⟩
  | datagramPack p =>
    refine ⟨⟨?_, rfl, rfl, (Bool.or_false _).symm⟩, rfl⟩
    exact (Interface.handler_address F D.toInterface ⟨p, behind⟩).1
  | subscribePack p => exact ⟨⟨rfl, rfl, rfl, (Bool.or_false _).symm⟩, rfl⟩

theorem handleAll_left (D : Device) (behind : Nat → UInt8) (ps : List Packet) :
    Left D ps (D.handleAll F behind ps).1 ∧ (D.handleAll F behind ps).1.parser = D.parser := by
  induction ps generalizing D with
  | nil => exact ⟨.nil D, rfl⟩
  | cons p ps ih =>
    obtain ⟨hone, hparser⟩ := handle_left F D behind p
    obtain ⟨hrest, hparser'⟩ := ih (D.handle F behind p).1
    exact ⟨hone.append hrest, hparser'.trans hparser⟩

theorem readByte_left (D : Device) (b : Incoming) :
    (D.readByte F b).handled = calls (D.parser.read b.byte).2 ∧
      (D.readByte F b).device.parser = (D.parser.read b.byte).1 ∧
      Left D (D.readByte F b).handled (D.readByte F b).device := by
  obtain ⟨hleft, hparser⟩ := handleAll_left F { D with parser := (D.parser.read b.byte).1 }
    b.behind (calls (D.parser.read b.byte).2)
  exact ⟨rfl, hparser,
    ⟨hleft.address, hleft.call, hleft.pingEchoPayload, hleft.addrListRecved⟩⟩

/-- The packets that come with these bytes. -/
def incoming (D : Device) (bytes : List Incoming) : List Packet :=
  calls (D.parser.feed (bytes.map Incoming.byte)).2

/-- **What `read` does** to the interface itself. -/
theorem read_left (D : Device) (bytes : List Incoming) :
    (D.read F bytes).handled = D.incoming bytes ∧ (D.read F bytes).returned = none ∧
      Left D (D.incoming bytes) (D.read F bytes).device := by
  induction bytes generalizing D with
  | nil => exact ⟨rfl, rfl, .nil D⟩
  | cons b bs ih =>
    obtain ⟨hhandled, hparser, hone⟩ := readByte_left F D b
    obtain ⟨hhandled', hret, hrest⟩ := ih (D.readByte F b).device
    have hsplit : (D.readByte F b).handled ++ (D.readByte F b).device.incoming bs =
        D.incoming (b :: bs) := by
      unfold incoming
      rw [hhandled, hparser]
      exact (calls_append _ _).symm
    refine ⟨?_, hret, ?_⟩
    · show (D.readByte F b).handled ++ ((D.readByte F b).device.read F bs).handled = _
      rw [hhandled', hsplit]
    · rw [← hsplit]
      exact hone.append hrest

/-! ## The datagrams -/

/-- The datagrams among `ps`. -/
def datagrams (behind : Nat → UInt8) (ps : List Packet) : List Arrival :=
  ps.filterMap fun p => match p with
    | .datagramPack p => some ⟨p, behind⟩
    | _ => none

/-- The datagrams that come with these bytes. -/
def arrivals (parser : ParserSerialiser) : List Incoming → List Arrival
  | [] => []
  | b :: bs =>
    let (parser, es) := parser.read b.byte
    datagrams b.behind (calls es) ++ arrivals parser bs

theorem handle_interface (D : Device) (behind : Nat → UInt8) (p : Packet) :
    (D.handle F behind p).1.toInterface =
      (D.toInterface.handleAll F (datagrams behind [p])).1 := by
  cases p <;> rfl

theorem handleAll_interface (D : Device) (behind : Nat → UInt8) (ps : List Packet) :
    (D.handleAll F behind ps).1.toInterface =
      (D.toInterface.handleAll F (datagrams behind ps)).1 := by
  induction ps generalizing D with
  | nil => rfl
  | cons p ps ih =>
    have hsplit : datagrams behind (p :: ps) = datagrams behind [p] ++ datagrams behind ps :=
      List.filterMap_append (l := [p])
    rw [hsplit, Interface.handleAll_append, ← handle_interface]
    exact ih (D.handle F behind p).1

/-- **The datagrams among the bytes** reach the sockets one after the other. -/
theorem read_interface (D : Device) (bytes : List Incoming) :
    (D.read F bytes).device.toInterface =
      (D.toInterface.handleAll F (arrivals D.parser bytes)).1 := by
  induction bytes generalizing D with
  | nil => rfl
  | cons b bs ih =>
    obtain ⟨-, hparser, -⟩ := readByte_left F D b
    have hone : (D.readByte F b).device.toInterface =
        (D.toInterface.handleAll F (datagrams b.behind (calls (D.parser.read b.byte).2))).1 :=
      handleAll_interface F { D with parser := (D.parser.read b.byte).1 } b.behind _
    have hsplit : arrivals D.parser (b :: bs) =
        datagrams b.behind (calls (D.parser.read b.byte).2) ++
          arrivals (D.parser.read b.byte).1 bs := rfl
    rw [hsplit, Interface.handleAll_append, ← hone, ← hparser]
    exact ih (D.readByte F b).device

end Device

end PicoLan
