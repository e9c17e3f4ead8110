import PicoLan.Serialiser.Frame

/-!
# What `from_bytes` reads

One `Reads` triple for each overload of `base_pack::from_bytes`, composed into one
for each class.  They say what a class reads of any memory (`receive_loads`), and
that the bytes of a packet give the packet back (`Packet.readData_calls`).
-/

namespace PicoLan

open MemReader BasePack Packet

theorem reads_u8 (b : UInt8) : Reads fromBytesU8 [b] b := Reads.next b

theorem reads_u16 (b0 b1 : UInt8) :
    Reads fromBytesU16 [b0, b1] (UInt16.ofNat (b0.toNat + 256 * b1.toNat)) :=
  (Reads.next b0).bind ((Reads.next b1).bind (Reads.pure _))

/-- The two halves of a `u16b`. -/
theorem u16_halves (u : UInt16) :
    UInt16.ofNat (u.toUInt8.toNat + 256 * (u >>> 8).toUInt8.toNat) = u := by
  apply UInt16.toNat_inj.mp
  have h := u.toNat_lt
  simp only [UInt16.toNat_ofNat', UInt16.toNat_toUInt8, UInt16.toNat_shiftRight,
    Nat.shiftRight_eq_div_pow]
  show (u.toNat % 256 + 256 * (u.toNat / 256 % 256)) % 65536 = u.toNat
  omega

theorem reads_appendCells {n : Nat} (lst : BoundedList UInt8 n) (bs : List UInt8) :
    Reads (appendCells bs.length lst) bs (lst.appendAll bs) := by
  induction bs generalizing lst with
  | nil => exact Reads.pure lst
  | cons b bs ih => exact (Reads.next b).bind (ih (lst.append b))

theorem reads_list {n : Nat} (lst : BoundedList UInt8 n) (sz : UInt8) (bs : List UInt8)
    (h : bs.length = sz.toNat) : Reads (fromBytesList lst) (sz :: bs) (lst.appendAll bs) := by
  refine (Reads.next sz).bind ?_
  rw [← h]
  exact reads_appendCells lst bs

theorem reads_setCells (is : List (Fin 32)) (g : Fin 32 → UInt8) (af : AddressField) :
    Reads (setCells is af) (is.map g)
      (is.foldl (fun (af : AddressField) (i : Fin 32) => af.set i (g i) i.isLt) af) := by
  induction is generalizing af with
  | nil => exact Reads.pure af
  | cons i is ih => exact (Reads.next (g i)).bind (ih (af.set i (g i) i.isLt))

theorem getElem_foldl_set (is : List (Fin 32)) (g : Fin 32 → UInt8) (af : AddressField)
    (j : Fin 32) :
    (is.foldl (fun (af : AddressField) (i : Fin 32) => af.set i (g i) i.isLt) af).get j =
      if j ∈ is then g j else af.get j := by
  induction is generalizing af with
  | nil => simp
  | cons i is ih =>
    rw [List.foldl_cons, ih]
    have hset : (af.set i (g i) i.isLt).get j = if i.val = j.val then g i else af.get j :=
      Vector.getElem_set i.isLt j.isLt
    rw [hset]
    by_cases hj : j ∈ is
    · simp [hj]
    · by_cases hi : j = i
      · simp [hi]
      · have hne : i.val ≠ j.val := fun h => hi (Fin.ext h.symm)
        simp [hj, hi, hne]

theorem reads_addressField (g : Fin 32 → UInt8) (af : AddressField) :
    Reads (fromBytesAddressField af) ((List.finRange 32).map g) (Vector.ofFn g) := by
  have hall : (List.finRange 32).foldl
      (fun (af : AddressField) (i : Fin 32) => af.set i (g i) i.isLt) af = Vector.ofFn g := by
    apply Vector.ext
    intro i hi
    have hget := getElem_foldl_set (List.finRange 32) g af ⟨i, hi⟩
    rw [if_pos (List.mem_finRange _)] at hget
    exact hget.trans (Vector.getElem_ofFn hi).symm
  rw [← hall]
  exact reads_setCells (List.finRange 32) g af

theorem reads_getAddrListPack (ttl : UInt8) : Reads GetAddrListPack.fromBytes [ttl] ⟨ttl⟩ :=
  (reads_u8 ttl).bind_pure _

theorem reads_addrPack (g : Fin 32 → UInt8) :
    Reads AddrPack.fromBytes ((List.finRange 32).map g) ⟨Vector.ofFn g⟩ :=
  (reads_addressField g (Vector.replicate 32 0)).bind_pure _

theorem reads_pingPack (ttl source dest b0 b1 : UInt8) :
    Reads PingPack.fromBytes [ttl, source, dest, b0, b1]
      ⟨ttl, source, dest, UInt16.ofNat (b0.toNat + 256 * b1.toNat)⟩ :=
  (reads_u8 ttl).bind ((reads_u8 source).bind ((reads_u8 dest).bind
    ((reads_u16 b0 b1).bind_pure _)))

theorem reads_pingEchoPack (ttl source dest b0 b1 : UInt8) :
    Reads PingEchoPack.fromBytes [ttl, source, dest, b0, b1]
      ⟨ttl, source, dest, UInt16.ofNat (b0.toNat + 256 * b1.toNat)⟩ :=
  (reads_u8 ttl).bind ((reads_u8 source).bind ((reads_u8 dest).bind
    ((reads_u16 b0 b1).bind_pure _)))

theorem reads_datagramPack (ttl source dest port sz : UInt8) (bs : List UInt8)
    (h : bs.length = sz.toNat) :
    Reads DatagramPack.fromBytes ([ttl, source, dest, port] ++ sz :: bs)
      ⟨ttl, source, dest, port, BoundedList.empty.appendAll bs⟩ :=
  (reads_u8 ttl).bind ((reads_u8 source).bind ((reads_u8 dest).bind ((reads_u8 port).bind
    ((reads_list BoundedList.empty sz bs h).bind_pure _))))

theorem reads_subscribePack (ttl port addr subscribe : UInt8) :
    Reads SubscribePack.fromBytes [ttl, port, addr, subscribe] ⟨ttl, addr, port, subscribe⟩ :=
  (reads_u8 ttl).bind ((reads_u8 port).bind ((reads_u8 addr).bind
    ((reads_u8 subscribe).bind_pure _)))

namespace ParserSerialiser

/-- What a handler is given, and what was loaded for it. -/
theorem receive_eq {P : Type} {r : Reader UInt8 P} {bs : List UInt8} {v : P} (h : Reads r bs v)
    (p : ParserSerialiser) (handler : P → Packet) (hm : cells p.dataBuf 2 bs.length = bs) :
    p.receive r handler = (List.range' 2 bs.length).map .load ++ [.handler (handler v)] := by
  obtain ⟨hv, hl⟩ := h.run p.dataBuf 2 hm
  unfold receive
  rw [← hv, ← hl]
  rfl

theorem calls_receive {P : Type} {r : Reader UInt8 P} {bs : List UInt8} {v : P} (h : Reads r bs v)
    (p : ParserSerialiser) (handler : P → Packet) (hm : cells p.dataBuf 2 bs.length = bs) :
    calls (p.receive r handler) = [handler v] := by
  rw [receive_eq h p handler hm, calls_append, calls_map_load]
  rfl

/-- The data of a frame, where `from_bytes` starts. -/
theorem Holding.data_cells {p : ParserSerialiser} {id size : UInt8} {data : List UInt8}
    (h : p.Holding id size data) : cells p.dataBuf 2 data.length = data := by
  have := h.held
  rw [Nat.add_comm, cells_add] at this
  change cells p.dataBuf 0 2 ++ _ = [id, size] ++ data at this
  exact (List.append_inj this rfl).2

section dispatch
variable {p : ParserSerialiser}

theorem readData_getAddrListPack (h : p.msgId = Packets.getAddrListPack.code.toUInt16) :
    p.readData = p.receive GetAddrListPack.fromBytes .getAddrListPack := by
  rw [readData, if_pos h]

theorem readData_addrPack (h : p.msgId = Packets.addrPack.code.toUInt16) :
    p.readData = p.receive AddrPack.fromBytes .addrPack := by
  rw [readData, if_neg (by rw [h]; decide), if_pos h]

theorem readData_pingPack (h : p.msgId = Packets.pingPack.code.toUInt16) :
    p.readData = p.receive PingPack.fromBytes .pingPack := by
  rw [readData, if_neg (by rw [h]; decide), if_neg (by rw [h]; decide), if_pos h]

theorem readData_pingEchoPack (h : p.msgId = Packets.pingEchoPack.code.toUInt16) :
    p.readData = p.receive PingEchoPack.fromBytes .pingEchoPack := by
  rw [readData, if_neg (by rw [h]; decide), if_neg (by rw [h]; decide), if_neg (by rw [h]; decide),
    if_pos h]

theorem readData_datagramPack (h : p.msgId = Packets.datagramPack.code.toUInt16) :
    p.readData = p.receive DatagramPack.fromBytes .datagramPack := by
  rw [readData, if_neg (by rw [h]; decide), if_neg (by rw [h]; decide), if_neg (by rw [h]; decide),
    if_neg (by rw [h]; decide), if_pos h]

theorem readData_subscribePack (h : p.msgId = Packets.subscribePack.code.toUInt16) :
    p.readData = p.receive SubscribePack.fromBytes .subscribePack := by
  rw [readData, if_neg (by rw [h]; decide), if_neg (by rw [h]; decide), if_neg (by rw [h]; decide),
    if_neg (by rw [h]; decide), if_neg (by rw [h]; decide), if_pos h]

end dispatch

/-- **A packet's own bytes give it back**, to the handler of its class. -/
theorem readData_calls (pack : Packet) {p : ParserSerialiser} {size : UInt8}
    (h : p.Holding pack.code size pack.body) : calls p.readData = [pack] := by
  have hm := h.data_cells
  have hmsg := h.msgId
  cases pack with
  | getAddrListPack k =>
    rw [readData_getAddrListPack hmsg]
    exact calls_receive (reads_getAddrListPack k.ttl) p _ hm
  | addrPack k =>
    have hv : Vector.ofFn (fun i : Fin 32 => k.addressField[i]) = k.addressField := by
      apply Vector.ext
      intro i hi
      simp
    have := calls_receive (reads_addrPack fun i => k.addressField[i]) p .addrPack hm
    rw [readData_addrPack hmsg, this, hv]
  | pingPack k =>
    have := calls_receive (reads_pingPack k.ttl k.sourceAddr k.destAddr _ _) p .pingPack hm
    rw [readData_pingPack hmsg, this, u16_halves]
  | pingEchoPack k =>
    have := calls_receive (reads_pingEchoPack k.ttl k.sourceAddr k.destAddr _ _) p .pingEchoPack hm
    rw [readData_pingEchoPack hmsg, this, u16_halves]
  | datagramPack k =>
    have hl : k.payload.toList.length ≤ 54 := k.payload.length_le
    have hsz : k.payload.toList.length = (UInt8.ofNat k.payload.size).toNat := by
      show _ = k.payload.toList.length % 256
      omega
    have := calls_receive (reads_datagramPack k.ttl k.sourceAddr k.destAddr k.port _ _ hsz) p
      .datagramPack hm
    rw [readData_datagramPack hmsg, this, BoundedList.empty_appendAll]
  | subscribePack k =>
    rw [readData_subscribePack hmsg]
    exact calls_receive (reads_subscribePack k.ttl k.port k.addr k.subscribe) p _ hm

end ParserSerialiser

end PicoLan
