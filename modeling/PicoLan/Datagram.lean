import PicoLan.Serialiser.RoundTrip
import PicoLan.Stream.OnData
import PicoLan.Stream.Strangers

/-!
# `Datagram::write`

A string is cut into chunks of 58 bytes and a remainder, each appended to the
payload list of a packet of its own.  The list takes 54 bytes and stores nothing
more, so a string arrives whole exactly when it is no longer than that
(`write_whole_iff`).
-/

namespace PicoLan

open ParserSerialiser

namespace Datagram

def chunkSz : Nat := 58

/-- A packet with `bytes` appended to its payload. -/
def pack (address dest destPort : UInt8) (bytes : List UInt8) : DatagramPack where
  ttl := 6
  sourceAddr := address
  destAddr := dest
  port := destPort
  payload := BoundedList.empty.appendAll bytes

/-- The result, and the packets sent; `address` is the interface's own. -/
def write (address dest destPort : UInt8) (data : List UInt8) : Int × List DatagramPack :=
  let chunks := data.length / chunkSz
  let full := (List.range chunks).map fun i =>
    pack address dest destPort ((data.drop (i * chunkSz)).take chunkSz)
  let remainder := data.length % chunkSz
  let last := if remainder ≠ 0 then
      [pack address dest destPort ((data.drop (chunks * chunkSz)).take remainder)]
    else []
  (Error.none, full ++ last)

end Datagram

/-- The payloads, one behind the other. -/
def payloads (ps : List DatagramPack) : List UInt8 := ps.flatMap (·.payload.toList)

theorem payloads_append (ps qs : List DatagramPack) :
    payloads (ps ++ qs) = payloads ps ++ payloads qs :=
  List.flatMap_append

theorem length_payloads_le (ps : List DatagramPack) :
    (payloads ps).length ≤ payloadSz * ps.length := by
  induction ps with
  | nil => exact Nat.zero_le _
  | cons p ps ih =>
    have hp := p.payload.length_le
    show (p.payload.toList ++ payloads ps).length ≤ _
    rw [List.length_append, List.length_cons, Nat.mul_succ]
    omega

/-! ## What goes out -/

namespace Datagram

variable (address dest destPort : UInt8)

theorem pack_payload (bytes : List UInt8) :
    (pack address dest destPort bytes).payload.toList = bytes.take payloadSz := by
  show (BoundedList.empty.appendAll bytes).toList = _
  rw [BoundedList.appendAll_toList]
  rfl

/-- Every packet goes where it should. -/
theorem write_header (data : List UInt8) : ∀ p ∈ (write address dest destPort data).2,
    p.destAddr = dest ∧ p.port = destPort := by
  intro p hp
  unfold write at hp
  rcases List.mem_append.mp hp with hp | hp
  · obtain ⟨i, -, rfl⟩ := List.mem_map.mp hp
    exact ⟨rfl, rfl⟩
  · split at hp
    · obtain rfl := List.mem_singleton.mp hp
      exact ⟨rfl, rfl⟩
    · cases hp

theorem write_short (data : List UInt8) (h : data.length ≤ payloadSz) :
    payloads (write address dest destPort data).2 = data := by
  have hlt : data.length < chunkSz := Nat.lt_of_le_of_lt h (by decide)
  have hchunks : data.length / chunkSz = 0 := Nat.div_eq_of_lt hlt
  have hrem : data.length % chunkSz = data.length := Nat.mod_eq_of_lt hlt
  unfold write
  dsimp only
  rw [hchunks, hrem]
  by_cases hnil : data.length = 0
  · rw [List.eq_nil_of_length_eq_zero hnil]
    rfl
  · have hlast : payloads [pack address dest destPort ((data.drop 0).take data.length)] = data := by
      show (pack address dest destPort _).payload.toList ++ [] = _
      rw [pack_payload, List.append_nil, List.drop_zero, List.take_length, List.take_of_length_le h]
    rw [if_pos hnil, Nat.zero_mul]
    exact hlast

/-- Each chunk loses its last four bytes. -/
theorem write_long (data : List UInt8) (h : payloadSz < data.length) :
    (payloads (write address dest destPort data).2).length < data.length := by
  have h₂ : payloadSz = 54 := rfl
  have hdiv : 58 * (data.length / chunkSz) + data.length % chunkSz = data.length :=
    Nat.div_add_mod data.length chunkSz
  have hlast : (payloads (if data.length % chunkSz ≠ 0 then
      [pack address dest destPort
        ((data.drop (data.length / chunkSz * chunkSz)).take (data.length % chunkSz))]
      else [])).length ≤ min payloadSz (data.length % chunkSz) := by
    split
    · show ((pack address dest destPort _).payload.toList ++ []).length ≤ _
      rw [pack_payload, List.append_nil, List.length_take, List.length_take]
      omega
    · exact Nat.zero_le _
  have hfull := length_payloads_le ((List.range (data.length / chunkSz)).map fun i =>
    pack address dest destPort ((data.drop (i * chunkSz)).take chunkSz))
  rw [List.length_map, List.length_range, h₂] at hfull
  unfold write
  dsimp only
  rw [payloads_append, List.length_append]
  omega

end Datagram

/-! ## What comes in -/

theorem Arrival.data_all (a : Arrival) :
    (List.range a.data.len).map a.data.cell = a.pack.payload.toList := by
  apply List.ext_getElem
  · simp [Arrival.data, BoundedList.size]
  · intro i h₁ h₂
    simp [Arrival.data, List.getD_eq_getElem?_getD, List.getElem?_eq_getElem h₂]

section

variable (F : OnFull UInt8)

/-- The handler's loop over a bound datagram socket. -/
theorem Interface.handler_datagram (I : Interface) (a : Arrival) (l : Nat)
    (hl : l ∈ I.sockets.toList) (hnd : I.sockets.toList.Nodup) (s : Socket)
    (hs : I.object l = .datagram s) (hfor : a.IsFor I.address s.port) :
    (I.datagramPackHandler F a).1.object l = .datagram { s with
      remote := a.pack.sourceAddr
      ringbuf := s.ringbuf.putAll F a.pack.payload.toList } := by
  rw [(handler_bound F I a l hl hnd).1, hs]
  have hport : a.IsFor I.address (Bound.datagram s).port := hfor
  unfold Bound.handle
  rw [if_pos hport, ← Arrival.data_all]
  rfl

/-- Datagrams for the socket's port are stored one behind the other. -/
theorem Interface.handleAll_datagram (I : Interface) (as : List Arrival) (l : Nat)
    (hl : l ∈ I.sockets.toList) (hnd : I.sockets.toList.Nodup) (s : Socket)
    (hs : I.object l = .datagram s) (hfor : ∀ a ∈ as, a.IsFor I.address s.port) :
    ∃ s' : Socket, (I.handleAll F as).1.object l = .datagram s' ∧
      s'.ringbuf = s.ringbuf.putAll F (payloads (as.map Arrival.pack)) := by
  induction as generalizing I s with
  | nil => exact ⟨s, hs, rfl⟩
  | cons a as ih =>
    have hobj := I.handler_datagram F a l hl hnd s hs (hfor a List.mem_cons_self)
    obtain ⟨haddr, hsock⟩ := handler_address F I a
    obtain ⟨s', hs', hring⟩ := ih (I.datagramPackHandler F a).1 (by rw [hsock]; exact hl)
      (by rw [hsock]; exact hnd) _ hobj (by
        rw [haddr]
        exact fun b hb => hfor b (List.mem_cons_of_mem a hb))
    refine ⟨s', hs', ?_⟩
    rw [hring]
    exact (RingBuffer.putAll_append F s.ringbuf _ _).symm

end

/-- A bound datagram socket at `l`, listening where `dest` and `destPort` lead, with
an empty ring buffer that has room for `n` bytes. -/
structure Listener (I : Interface) (l : Nat) (dest destPort : UInt8) (n : Nat) (s : Socket) :
    Prop where
  bound : l ∈ I.sockets.toList
  once : I.sockets.toList.Nodup
  object : I.object l = .datagram s
  port : s.port = destPort
  reached : dest = I.address ∨ dest = broadcastAddr ∨ dest = multicastAddr
  empty : s.ringbuf.toList = []
  room : n ≤ s.ringbuf.cap

/-- The packets go over a link that loses nothing; whatever the parser at the other
end was in (but for a pending escape), every listener can then read `data`. -/
def Delivered (F : OnFull UInt8) (dest destPort : UInt8) (data : List UInt8)
    (packs : List DatagramPack) : Prop :=
  ∀ (I : Interface) (l : Nat) (s : Socket) (p : ParserSerialiser) (ps : List (Packet × Sender))
    (as : List Arrival), Listener I l dest destPort data.length s → p.stuffFlag = false →
    ps.map Prod.fst = packs.map .datagramPack →
    as.map (fun a => .datagramPack a.pack) = calls (p.feed (emitAll ps)).2 →
    ∃ s' : Socket, (I.handleAll F as).1.object l = .datagram s' ∧
      (s'.ringbuf.drain data.length).1 = data

theorem delivered_of_payloads (F : OnFull UInt8) (dest destPort : UInt8) (data : List UInt8)
    (packs : List DatagramPack) (hdest : ∀ p ∈ packs, p.destAddr = dest ∧ p.port = destPort)
    (hdata : payloads packs = data) : Delivered F dest destPort data packs := by
  intro I l s p ps as hl hflag hps has
  rw [feed_emitAll p ps hflag, hps] at has
  have hpacks : as.map Arrival.pack = packs := by
    have hinj : Function.Injective Packet.datagramPack := fun a b h => by cases h; rfl
    apply List.map_injective_iff.mpr hinj
    rw [List.map_map]
    exact has
  have hfor : ∀ a ∈ as, a.IsFor I.address s.port := by
    intro a ha
    obtain ⟨hd, hp⟩ := hdest a.pack (by
      rw [← hpacks]
      exact List.mem_map_of_mem ha)
    refine ⟨?_, hl.port.trans hp.symm⟩
    rw [hd]
    exact hl.reached
  obtain ⟨s', hs', hring⟩ := I.handleAll_datagram F as l hl.bound hl.once s hl.object hfor
  refine ⟨s', hs', ?_⟩
  rw [hpacks, hdata] at hring
  have hroom : data.length ≤ s.ringbuf.free := by
    unfold RingBuffer.free
    rw [hl.empty, List.length_nil, Nat.sub_zero]
    exact hl.room
  rw [(s'.ringbuf.drain_eq data.length).1, hring, RingBuffer.putAll_of_fits F _ _ hroom, hl.empty,
    List.nil_append, List.take_length]

/-- **Long datagrams.**  What `Datagram::write` sends is all of its data, and can be
read back over a link that loses nothing, exactly when the data fit into one packet. -/
theorem write_whole_iff (F : OnFull UInt8) (address dest destPort : UInt8) (data : List UInt8) :
    ((∀ p ∈ (Datagram.write address dest destPort data).2,
          p.destAddr = dest ∧ p.port = destPort) ∧
        payloads (Datagram.write address dest destPort data).2 = data ∧
        Delivered F dest destPort data (Datagram.write address dest destPort data).2) ↔
      data.length ≤ payloadSz := by
  have hdest := Datagram.write_header address dest destPort data
  constructor
  · rintro ⟨-, hdata, -⟩
    by_contra hlong
    have hlt := Datagram.write_long address dest destPort data (Nat.lt_of_not_le hlong)
    rw [hdata] at hlt
    exact Nat.lt_irrefl _ hlt
  · intro h
    have hdata := Datagram.write_short address dest destPort data h
    exact ⟨hdest, hdata, delivered_of_payloads F dest destPort data _ hdest hdata⟩

/-- Of 55 bytes the last one is missing; of 58, the last four. -/
theorem longDatagram_cut :
    payloads (Datagram.write 2 1 80 ((List.range 55).map UInt8.ofNat)).2 =
        (List.range 54).map UInt8.ofNat ∧
      payloads (Datagram.write 2 1 80 ((List.range 58).map UInt8.ofNat)).2 =
        (List.range 54).map UInt8.ofNat ∧
      payloads (Datagram.write 2 1 80 ((List.range 55).map UInt8.ofNat)).2 ≠
        (List.range 55).map UInt8.ofNat := by
  decide +kernel

end PicoLan
