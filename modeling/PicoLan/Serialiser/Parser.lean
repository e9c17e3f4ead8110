import PicoLan.Serialiser.Packets

/-!
# `ParserSerialiser::read`

The receiving half of `ParserSerialiser`: one byte of the input stream at a time.
Besides the next state, `read` reports what it did to `data_buf` (each store and
load by its index) and the handler it called.

`dataBuf` is the memory from `data_buf` on; the array itself is its first
`maxPacketLength` cells.  That a store behind the array lands in the cell it names and
has no other effect is an assumption: there the source is undefined, and
`ParserSerialiser` stands for it only as far as a read is `InBuffer`.
-/

namespace PicoLan

open MemReader

inductive MsgState where
  | start
  | id
  | size
  | data
  | check1
  | check2
deriving DecidableEq, Repr

structure ParserSerialiser where
  state : MsgState := .start
  stuffFlag : Bool := false
  msgId : UInt16 := 0
  checksumIn : UInt16 := 0
  dataLength : UInt8 := 0
  dataPos : UInt8 := 0
  dataBuf : Nat → UInt8

/-- A new parser; `data_buf` is not initialised. -/
def ParserSerialiser.init (buf : Nat → UInt8) : ParserSerialiser := { dataBuf := buf }

inductive Event where
  | store (i : Nat)
  | load (i : Nat)
  | handler (p : Packet)
deriving DecidableEq, Repr

namespace ParserSerialiser

def addByte (p : ParserSerialiser) (c : UInt8) : ParserSerialiser × List Event :=
  let i := p.dataPos.toNat
  ({ p with dataBuf := fun j => if j = i then c else p.dataBuf j, dataPos := p.dataPos + 1 },
    [.store i])

/-- The number of bytes `check_checksum` sums. -/
def frameLen (p : ParserSerialiser) : Nat := p.dataLength.toNat + 2

def checkChecksum (p : ParserSerialiser) : Bool × List Event :=
  let (s1, s2) := (List.range p.frameLen).foldl
    (fun (s1, s2) i =>
      let s1 := (s1 + (p.dataBuf i).toNat) % 255
      (s1, (s2 + s1) % 255)) (0, 0)
  let cs := UInt16.ofNat ((s2 <<< 8) ||| s1)
  (cs == p.checksumIn, (List.range p.frameLen).map .load)

/-- `from_bytes(&(data_buf[2]))`, then the handler. -/
def receive {P : Type} (p : ParserSerialiser) (fromBytes : Reader UInt8 P) (handler : P → Packet) :
    List Event :=
  let (pack, c) := fromBytes (MemReader.start p.dataBuf 2)
  c.loads.map .load ++ [.handler (handler pack)]

def readData (p : ParserSerialiser) : List Event :=
  if p.msgId = Packets.getAddrListPack.code.toUInt16 then
    p.receive GetAddrListPack.fromBytes .getAddrListPack
  else if p.msgId = Packets.addrPack.code.toUInt16 then
    p.receive AddrPack.fromBytes .addrPack
  else if p.msgId = Packets.pingPack.code.toUInt16 then
    p.receive PingPack.fromBytes .pingPack
  else if p.msgId = Packets.pingEchoPack.code.toUInt16 then
    p.receive PingEchoPack.fromBytes .pingEchoPack
  else if p.msgId = Packets.datagramPack.code.toUInt16 then
    p.receive DatagramPack.fromBytes .datagramPack
  else if p.msgId = Packets.subscribePack.code.toUInt16 then
    p.receive SubscribePack.fromBytes .subscribePack
  else []

/-- The `switch` on the state. -/
def readState (p : ParserSerialiser) (c : UInt8) : ParserSerialiser × List Event :=
  match p.state with
  | .start =>
    let p := { p with dataPos := 0 }
    (if c = 0xAB then { p with state := .id } else p, [])
  | .id =>
    let p := { p with msgId := c.toUInt16 }
    if p.msgId ≥ Packets.nullPack.code.toUInt16 then ({ p with state := .start }, [])
    else
      let (p, es) := p.addByte c
      ({ p with state := .size }, es)
  | .size =>
    let (p, es) := p.addByte c
    let p : ParserSerialiser := { p with dataLength := c }
    (if p.dataLength = 0 then { p with state := .check1 } else { p with state := .data }, es)
  | .data =>
    let (p, es) := p.addByte c
    -- the sum is taken in `int`
    (if p.dataPos.toNat ≥ p.dataLength.toNat + 2 then { p with state := .check1 } else p, es)
  | .check1 => ({ p with checksumIn := c.toUInt16, state := .check2 }, [])
  | .check2 =>
    let p := { p with checksumIn := UInt16.ofNat (p.checksumIn.toNat + (c.toNat <<< 8)) }
    let (ok, es) := p.checkChecksum
    ({ p with state := .start }, es ++ if ok then p.readData else [])

def read (p : ParserSerialiser) (c : UInt8) : ParserSerialiser × List Event :=
  if c = 0xAA ∧ p.stuffFlag = false then ({ p with stuffFlag := true }, [])
  else
    let p := if p.stuffFlag = false ∧ (c = 0xAB ∨ c = 0xAC) then { p with state := .start } else p
    readState { p with stuffFlag := false } c

/-- The bytes of a stream, one after the other. -/
def feed (p : ParserSerialiser) : List UInt8 → ParserSerialiser × List Event
  | [] => (p, [])
  | c :: cs =>
    let (p, es) := p.read c
    let (p, es') := feed p cs
    (p, es ++ es')

theorem feed_append (p : ParserSerialiser) (xs ys : List UInt8) :
    p.feed (xs ++ ys) =
      (((p.feed xs).1.feed ys).1, (p.feed xs).2 ++ ((p.feed xs).1.feed ys).2) := by
  induction xs generalizing p with
  | nil => rfl
  | cons x xs ih => simp only [List.cons_append, feed, ih, List.append_assoc]

end ParserSerialiser

/-- The access is not a store behind `data_buf`. -/
def Event.inBuffer : Event → Bool
  | .store i => i < maxPacketLength
  | _ => true

namespace ParserSerialiser

/-- Reading `g` stores nothing behind `data_buf`. -/
def InBuffer (p : ParserSerialiser) (g : List UInt8) : Prop :=
  ∀ e ∈ (p.feed g).2, e.inBuffer = true

instance (p : ParserSerialiser) (g : List UInt8) : Decidable (p.InBuffer g) :=
  inferInstanceAs (Decidable (∀ e ∈ (p.feed g).2, e.inBuffer = true))

theorem inBuffer_iff {p : ParserSerialiser} {g : List UInt8} :
    p.InBuffer g ↔ ∀ i, Event.store i ∈ (p.feed g).2 → i < maxPacketLength := by
  refine ⟨fun h i hi => of_decide_eq_true (h _ hi), fun h e he => ?_⟩
  cases e with
  | store i => exact decide_eq_true (h i he)
  | load i => rfl
  | handler pack => rfl

theorem inBuffer_nil (p : ParserSerialiser) : p.InBuffer [] := fun _ he => nomatch he

theorem inBuffer_append {p : ParserSerialiser} {xs ys : List UInt8} :
    p.InBuffer (xs ++ ys) ↔ p.InBuffer xs ∧ (p.feed xs).1.InBuffer ys := by
  unfold InBuffer
  rw [feed_append]
  exact List.forall_mem_append

end ParserSerialiser

/-- The handler calls among the events. -/
def calls : List Event → List Packet
  | [] => []
  | .handler p :: es => p :: calls es
  | _ :: es => calls es

theorem calls_append (es es' : List Event) : calls (es ++ es') = calls es ++ calls es' := by
  induction es with
  | nil => rfl
  | cons e es ih => cases e <;> simp [calls, ih]

@[simp] theorem calls_map_load (is : List Nat) : calls (is.map .load) = [] := by
  induction is with
  | nil => rfl
  | cons i is ih => exact ih

end PicoLan
