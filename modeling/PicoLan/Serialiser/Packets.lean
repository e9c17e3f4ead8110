import Mathlib.Data.List.FinRange
import PicoLan.Lib.Bounded
import PicoLan.Lib.MemReader

/-!
# The packet classes of `serialiser.h`

The sender's half of `ParserSerialiser` (`start`, `send_byte`, the running
checksum, `finish`), the overloads of `base_pack::to_bytes` and
`base_pack::from_bytes` that the six packet classes use, and the classes with
their `send` and `from_bytes`, field by field in the source's order.
-/

namespace PicoLan

open MemReader

/-- The maximum packet length including header and checksum bytes. -/
def maxPacketLength : Nat := 64

inductive Packets where
  | invalidPack
  | getAddrListPack
  | addrPack
  | pingPack
  | pingEchoPack
  | datagramPack
  | subscribePack
  | nullPack
deriving DecidableEq, Repr

def Packets.code : Packets → UInt8
  | invalidPack => 0
  | getAddrListPack => 1
  | addrPack => 2
  | pingPack => 3
  | pingEchoPack => 4
  | datagramPack => 5
  | subscribePack => 6
  | nullPack => 7

/-! ## Sending -/

/-- The sums kept while sending, and the bytes given to `put` so far. -/
structure Sender where
  sum1 : Nat
  sum2 : Nat
  out : List UInt8

namespace Sender

def put (s : Sender) (b : UInt8) : Sender := { s with out := s.out ++ [b] }

def resetChecksum (s : Sender) : Sender := { s with sum1 := 0, sum2 := 0 }

def stepChecksum (s : Sender) (data : UInt8) : Sender :=
  let sum1 := (s.sum1 + data.toNat) % 255
  { s with sum1, sum2 := (s.sum2 + sum1) % 255 }

def finishChecksum (s : Sender) : UInt16 := UInt16.ofNat ((s.sum2 <<< 8) ||| s.sum1)

def start (s : Sender) : Sender := s.resetChecksum.put 0xAB

/-- The flush of the stream that follows sends nothing. -/
def finish (s : Sender) : Sender := s.put 0xAC

def sendByte (s : Sender) (b : UInt8) : Sender :=
  let s := if b ≥ 0xAA ∧ b ≤ 0xAC then s.put 0xAA else s
  (s.put b).stepChecksum b

end Sender

/-- 256 address bits, as 32 bytes. -/
abbrev AddressField := Vector UInt8 32

/-- The capacity of a datagram's payload list. -/
def payloadSz : Nat := 54

abbrev Payload := BoundedList UInt8 payloadSz

namespace BasePack

def genHeader (s : Sender) (id size : UInt8) : Sender := (s.start.sendByte id).sendByte size

def toBytesU8 (s : Sender) (u : UInt8) : Sender := s.sendByte u

/-- The `u16b` union on a little-endian host. -/
def toBytesU16 (s : Sender) (u : UInt16) : Sender :=
  (s.sendByte u.toUInt8).sendByte (u >>> 8).toUInt8

def toBytesList {n : Nat} (s : Sender) (lst : BoundedList UInt8 n) : Sender :=
  let sz := UInt8.ofNat lst.size
  (lst.toList.take sz.toNat).foldl Sender.sendByte (s.sendByte sz)

def toBytesAddressField (s : Sender) (af : AddressField) : Sender :=
  (List.finRange 32).foldl (fun s i => s.sendByte af[i]) s

def finish (s : Sender) : Sender :=
  let u := s.finishChecksum
  ((s.sendByte u.toUInt8).sendByte (u >>> 8).toUInt8).finish

def fromBytesU8 : Reader UInt8 UInt8 := next

def fromBytesU16 : Reader UInt8 UInt16 := do
  let b0 ← next
  let b1 ← next
  pure (UInt16.ofNat (b0.toNat + 256 * b1.toNat))

/-- `lst.append(bytes[pos++])`, `k` times. -/
def appendCells {n : Nat} : Nat → BoundedList UInt8 n → Reader UInt8 (BoundedList UInt8 n)
  | 0, lst => pure lst
  | k + 1, lst => do
    let b ← next
    appendCells k (lst.append b)

def fromBytesList {n : Nat} (lst : BoundedList UInt8 n) : Reader UInt8 (BoundedList UInt8 n) := do
  let sz ← next
  appendCells sz.toNat lst

def setCells : List (Fin 32) → AddressField → Reader UInt8 AddressField
  | [], af => pure af
  | i :: is, af => do
    let b ← next
    setCells is (af.set i b)

def fromBytesAddressField (af : AddressField) : Reader UInt8 AddressField :=
  setCells (List.finRange 32) af

end BasePack

open BasePack

/-! ## The classes -/

structure GetAddrListPack where
  ttl : UInt8
deriving DecidableEq, Repr

structure AddrPack where
  addressField : AddressField
deriving DecidableEq, Repr

structure PingPack where
  ttl : UInt8
  sourceAddr : UInt8
  destAddr : UInt8
  payload : UInt16
deriving DecidableEq, Repr

structure PingEchoPack where
  ttl : UInt8
  sourceAddr : UInt8
  destAddr : UInt8
  payload : UInt16
deriving DecidableEq, Repr

structure DatagramPack where
  ttl : UInt8
  sourceAddr : UInt8
  destAddr : UInt8
  port : UInt8
  payload : Payload
deriving DecidableEq, Repr

structure SubscribePack where
  ttl : UInt8 := 6
  addr : UInt8 := 0
  port : UInt8 := 0
  subscribe : UInt8 := 1
deriving DecidableEq, Repr

-- sizeof of the fields
def GetAddrListPack.size (_ : GetAddrListPack) : UInt8 := 1
def AddrPack.size (_ : AddrPack) : UInt8 := 32
def PingPack.size (_ : PingPack) : UInt8 := 1 + 1 + 1 + 2
def PingEchoPack.size (_ : PingEchoPack) : UInt8 := 1 + 1 + 1 + 2
def DatagramPack.size (p : DatagramPack) : UInt8 := UInt8.ofNat (1 + 1 + 1 + 1 + p.payload.size + 1)
def SubscribePack.size (_ : SubscribePack) : UInt8 := 1 + 1 + 1 + 1

def GetAddrListPack.send (p : GetAddrListPack) (s : Sender) : Sender :=
  let s := genHeader s Packets.getAddrListPack.code p.size
  let s := toBytesU8 s p.ttl
  finish s

def AddrPack.send (p : AddrPack) (s : Sender) : Sender :=
  let s := genHeader s Packets.addrPack.code p.size
  let s := toBytesAddressField s p.addressField
  finish s

def PingPack.send (p : PingPack) (s : Sender) : Sender :=
  let s := genHeader s Packets.pingPack.code p.size
  let s := toBytesU8 s p.ttl
  let s := toBytesU8 s p.sourceAddr
  let s := toBytesU8 s p.destAddr
  let s := toBytesU16 s p.payload
  finish s

def PingEchoPack.send (p : PingEchoPack) (s : Sender) : Sender :=
  let s := genHeader s Packets.pingEchoPack.code p.size
  let s := toBytesU8 s p.ttl
  let s := toBytesU8 s p.sourceAddr
  let s := toBytesU8 s p.destAddr
  let s := toBytesU16 s p.payload
  finish s

def DatagramPack.send (p : DatagramPack) (s : Sender) : Sender :=
  let s := genHeader s Packets.datagramPack.code p.size
  let s := toBytesU8 s p.ttl
  let s := toBytesU8 s p.sourceAddr
  let s := toBytesU8 s p.destAddr
  let s := toBytesU8 s p.port
  let s := toBytesList s p.payload
  finish s

def SubscribePack.send (p : SubscribePack) (s : Sender) : Sender :=
  let s := genHeader s Packets.subscribePack.code p.size
  let s := toBytesU8 s p.ttl
  let s := toBytesU8 s p.port
  let s := toBytesU8 s p.addr
  let s := toBytesU8 s p.subscribe
  finish s

def GetAddrListPack.fromBytes : Reader UInt8 GetAddrListPack := do
  let ttl ← fromBytesU8
  pure { ttl }

/-- The field of a new packet is all zeros. -/
def AddrPack.fromBytes : Reader UInt8 AddrPack := do
  let addressField ← fromBytesAddressField (Vector.replicate 32 0)
  pure { addressField }

def PingPack.fromBytes : Reader UInt8 PingPack := do
  let ttl ← fromBytesU8
  let sourceAddr ← fromBytesU8
  let destAddr ← fromBytesU8
  let payload ← fromBytesU16
  pure { ttl, sourceAddr, destAddr, payload }

def PingEchoPack.fromBytes : Reader UInt8 PingEchoPack := do
  let ttl ← fromBytesU8
  let sourceAddr ← fromBytesU8
  let destAddr ← fromBytesU8
  let payload ← fromBytesU16
  pure { ttl, sourceAddr, destAddr, payload }

def DatagramPack.fromBytes : Reader UInt8 DatagramPack := do
  let ttl ← fromBytesU8
  let sourceAddr ← fromBytesU8
  let destAddr ← fromBytesU8
  let port ← fromBytesU8
  let payload ← fromBytesList BoundedList.empty
  pure { ttl, sourceAddr, destAddr, port, payload }

def SubscribePack.fromBytes : Reader UInt8 SubscribePack := do
  let ttl ← fromBytesU8
  let port ← fromBytesU8
  let addr ← fromBytesU8
  let subscribe ← fromBytesU8
  pure { ttl, port, addr, subscribe }

/-- Any of the six. -/
inductive Packet where
  | getAddrListPack (p : GetAddrListPack)
  | addrPack (p : AddrPack)
  | pingPack (p : PingPack)
  | pingEchoPack (p : PingEchoPack)
  | datagramPack (p : DatagramPack)
  | subscribePack (p : SubscribePack)
deriving DecidableEq, Repr

def Packet.send : Packet → Sender → Sender
  | getAddrListPack p => p.send
  | addrPack p => p.send
  | pingPack p => p.send
  | pingEchoPack p => p.send
  | datagramPack p => p.send
  | subscribePack p => p.send

end PicoLan
