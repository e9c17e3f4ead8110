import PicoLan.Lib.Fletcher
import PicoLan.Serialiser.Tokens

/-!
# Frames, sent and received

The sender's side: whatever the class, `send` puts one frame around the bytes of
the packet (`Packet.send_out`).  The receiver's side: `InFrame p content` says
that the parser has taken `content` since the delimiter that opened the frame,
and what it holds of it; `InFrame.step` is its step lemma.
-/

namespace PicoLan

open Stuffing MemReader

/-- The sums over a frame's bytes. -/
def byteSums (bs : List UInt8) : Nat × Nat := Fletcher.sums 255 (0, 0) (bs.map UInt8.toNat)

def checksum (bs : List UInt8) : UInt16 := UInt16.ofNat (((byteSums bs).2 <<< 8) ||| (byteSums bs).1)

/-- The bytes between the delimiters, before stuffing. -/
def sealed (content : List UInt8) : List UInt8 :=
  content ++ [(checksum content).toUInt8, (checksum content >>> 8).toUInt8]

def frameBytes (content : List UInt8) : List UInt8 :=
  0xAB :: (wireScheme.stuff (sealed content) ++ [0xAC])

/-! ## Sending -/

namespace Sender

def sendBytes (s : Sender) (bs : List UInt8) : Sender := bs.foldl sendByte s

theorem sendByte_eq (s : Sender) (b : UInt8) :
    s.sendByte b =
      { sum1 := (Fletcher.step 255 (s.sum1, s.sum2) b.toNat).1
        sum2 := (Fletcher.step 255 (s.sum1, s.sum2) b.toNat).2
        out := s.out ++ wireScheme.stuffOne b } := by
  unfold sendByte Scheme.stuffOne
  by_cases h : b ≥ 0xAA ∧ b ≤ 0xAC
  · have hs : wireScheme.special b = true := decide_eq_true h
    simp only [if_pos h, hs, if_true, put, stepChecksum, Fletcher.step, List.append_assoc]
    rfl
  · have hs : wireScheme.special b = false := decide_eq_false h
    simp only [if_neg h, hs, put, stepChecksum, Fletcher.step]
    rfl

theorem sendBytes_eq (s : Sender) (bs : List UInt8) :
    s.sendBytes bs =
      { sum1 := (Fletcher.sums 255 (s.sum1, s.sum2) (bs.map UInt8.toNat)).1
        sum2 := (Fletcher.sums 255 (s.sum1, s.sum2) (bs.map UInt8.toNat)).2
        out := s.out ++ wireScheme.stuff bs } := by
  induction bs generalizing s with
  | nil => simp [sendBytes, Fletcher.sums, Scheme.stuff]
  | cons b bs ih =>
    show (s.sendByte b).sendBytes bs = _
    rw [ih, sendByte_eq]
    simp only [List.map_cons, Fletcher.sums, List.foldl_cons, Scheme.stuff, List.append_assoc]

end Sender

open BasePack

theorem finish_out (s : Sender) (content : List UInt8) :
    (BasePack.finish (s.start.sendBytes content)).out = s.out ++ frameBytes content := by
  have hcs : (s.start.sendBytes content).finishChecksum = checksum content := by
    rw [Sender.sendBytes_eq]; rfl
  have hfin : BasePack.finish (s.start.sendBytes content) =
      (s.start.sendBytes (sealed content)).finish := by
    show Sender.finish (Sender.sendByte (Sender.sendByte _ _) _) = _
    rw [hcs, sealed, Sender.sendBytes, Sender.sendBytes, List.foldl_append]
    rfl
  rw [hfin, Sender.sendBytes_eq]
  simp [Sender.finish, Sender.put, Sender.start, Sender.resetChecksum, frameBytes]

namespace Packet

def code : Packet → UInt8
  | getAddrListPack _ => Packets.getAddrListPack.code
  | addrPack _ => Packets.addrPack.code
  | pingPack _ => Packets.pingPack.code
  | pingEchoPack _ => Packets.pingEchoPack.code
  | datagramPack _ => Packets.datagramPack.code
  | subscribePack _ => Packets.subscribePack.code

def u16Bytes (u : UInt16) : List UInt8 := [u.toUInt8, (u >>> 8).toUInt8]

def addressBytes (af : AddressField) : List UInt8 := (List.finRange 32).map af.get

/-- The fields as bytes. -/
def body : Packet → List UInt8
  | getAddrListPack p => [p.ttl]
  | addrPack p => addressBytes p.addressField
  | pingPack p => [p.ttl, p.sourceAddr, p.destAddr] ++ u16Bytes p.payload
  | pingEchoPack p => [p.ttl, p.sourceAddr, p.destAddr] ++ u16Bytes p.payload
  | datagramPack p =>
    [p.ttl, p.sourceAddr, p.destAddr, p.port] ++ UInt8.ofNat p.payload.size :: p.payload.toList
  | subscribePack p => [p.ttl, p.port, p.addr, p.subscribe]

def content (p : Packet) : List UInt8 := p.code :: UInt8.ofNat p.body.length :: p.body

theorem code_lt (p : Packet) : p.code < 7 := by cases p <;> dsimp only [code] <;> decide

/-- A packet is far below the length that fills the buffer. -/
theorem body_length (p : Packet) : 0 < p.body.length ∧ p.body.length ≤ 59 := by
  cases p with
  | datagramPack p =>
    have h := p.payload.length_le
    simp only [payloadSz] at h
    simp only [body, List.length_append, List.length_cons, List.length_nil]
    omega
  | _ => simp [body, addressBytes, u16Bytes]

theorem toBytesList_eq (s : Sender) (l : Payload) :
    toBytesList s l = s.sendBytes (UInt8.ofNat l.size :: l.toList) := by
  have h : l.toList.length ≤ 54 := l.length_le
  have hsz : (UInt8.ofNat l.size).toNat = l.toList.length := by
    show l.toList.length % 256 = _
    omega
  unfold toBytesList
  dsimp only
  rw [hsz, List.take_length]
  rfl

theorem toBytesAddressField_eq (s : Sender) (af : AddressField) :
    toBytesAddressField s af = s.sendBytes (addressBytes af) := by
  rw [Sender.sendBytes, addressBytes, List.foldl_map]
  rfl

/-- **Every class sends one frame**, of its id, its size and its fields. -/
theorem send_out (p : Packet) (s : Sender) : (p.send s).out = s.out ++ frameBytes p.content := by
  have key : p.send s = BasePack.finish (s.start.sendBytes p.content) := by
    cases p with
    | addrPack p =>
      show BasePack.finish (toBytesAddressField _ _) = _
      rw [toBytesAddressField_eq]
      simp only [content, body, Sender.sendBytes, List.foldl_cons]
      rw [show (addressBytes p.addressField).length = 32 by simp [addressBytes]]
      rfl
    | datagramPack p =>
      show BasePack.finish (toBytesList _ _) = _
      rw [toBytesList_eq]
      have hsz : p.size = UInt8.ofNat (body (.datagramPack p)).length := by
        simp only [DatagramPack.size, body, BoundedList.size, List.length_append, List.length_cons,
          List.length_nil]
        congr 1
      simp only [content, ← hsz]
      rfl
    | _ => rfl
  rw [key, finish_out]

end Packet

/-! ## Receiving -/

/-- The checksum of `check_checksum` is that of the bytes it runs over. -/
theorem checkChecksum_eq (p : ParserSerialiser) (content : List UInt8)
    (h : cells p.dataBuf 0 p.frameLen = content) :
    p.checkChecksum = (checksum content == p.checksumIn, (List.range p.frameLen).map .load) := by
  have hmap : content.map UInt8.toNat = (List.range p.frameLen).map fun i => (p.dataBuf i).toNat := by
    rw [← h]
    apply List.ext_getElem
    · simp
    · intro i h1 h2
      simp [getElem_cells]
  simp only [ParserSerialiser.checkChecksum, checksum, byteSums, Fletcher.sums, hmap, List.foldl_map]
  rfl

namespace ParserSerialiser

/-- The header and the data taken so far lie in `data_buf`. -/
structure Holding (p : ParserSerialiser) (id size : UInt8) (data : List UInt8) : Prop where
  id_lt : id < 7
  msgId : p.msgId = id.toUInt16
  dataLength : p.dataLength = size
  size_le : size.toNat ≤ 253
  dataPos : p.dataPos.toNat = data.length + 2
  held : cells p.dataBuf 0 (data.length + 2) = id :: size :: data

/-- The bytes taken since the delimiter that opened the frame.  A size of 254 or
255 is never reached by the 8-bit `data_pos`: such a frame only ends at the next
delimiter (`overrun`). -/
inductive InFrame (p : ParserSerialiser) : List UInt8 → Prop
  | opened (hst : p.state = .id) (hpos : p.dataPos = 0) : InFrame p []
  | named (id : UInt8) (hst : p.state = .size) (hid : id < 7) (hmsg : p.msgId = id.toUInt16)
      (hpos : p.dataPos = 1) (hbuf : p.dataBuf 0 = id) : InFrame p [id]
  | data (id size : UInt8) (data : List UInt8) (hst : p.state = .data)
      (hold : p.Holding id size data) (hlt : data.length < size.toNat) :
      InFrame p (id :: size :: data)
  | overrun (id size : UInt8) (data : List UInt8) (hst : p.state = .data)
      (hlen : p.dataLength = size) (hsize : 253 < size.toNat) : InFrame p (id :: size :: data)
  | summed (id size : UInt8) (data : List UInt8) (hst : p.state = .check1)
      (hold : p.Holding id size data) (hlen : data.length = size.toNat) :
      InFrame p (id :: size :: data)
  | checked (id size : UInt8) (data : List UInt8) (lo : UInt8) (hst : p.state = .check2)
      (hold : p.Holding id size data) (hlen : data.length = size.toNat)
      (hlo : p.checksumIn = lo.toUInt16) : InFrame p (id :: size :: (data ++ [lo]))

theorem cells_store (mem : Nat → UInt8) (n : Nat) (c : UInt8) :
    cells (fun j => if j = n then c else mem j) 0 (n + 1) = cells mem 0 n ++ [c] := by
  rw [cells_add]
  congr 1
  · exact cells_congr _ _ _ _ fun i _ hi => if_neg (by omega)
  · simp [cells]

theorem toNat_succ (b : UInt8) (h : b.toNat < 255) : (b + 1).toNat = b.toNat + 1 := by
  rw [UInt8.toNat_add]
  show (b.toNat + 1) % 256 = _
  omega

theorem Holding.withState {p : ParserSerialiser} {id size : UInt8} {data : List UInt8}
    (h : p.Holding id size data) (st : MsgState) (cs : UInt16) :
    { p with state := st, checksumIn := cs }.Holding id size data :=
  ⟨h.id_lt, h.msgId, h.dataLength, h.size_le, h.dataPos, h.held⟩

theorem Holding.withFlag {p : ParserSerialiser} {id size : UInt8} {data : List UInt8}
    (h : p.Holding id size data) (b : Bool) : { p with stuffFlag := b }.Holding id size data :=
  ⟨h.id_lt, h.msgId, h.dataLength, h.size_le, h.dataPos, h.held⟩

/-- One byte more of data. -/
theorem Holding.addByte {p : ParserSerialiser} {id size : UInt8} {data : List UInt8}
    (h : p.Holding id size data) (hlt : data.length < size.toNat) (c : UInt8) :
    (p.addByte c).1.Holding id size (data ++ [c]) where
  id_lt := h.id_lt
  msgId := h.msgId
  dataLength := h.dataLength
  size_le := h.size_le
  dataPos := by
    show (p.dataPos + 1).toNat = _
    have := h.dataPos
    have := h.size_le
    rw [toNat_succ _ (by omega), h.dataPos, List.length_append, List.length_singleton]
  held := by
    have := cells_store p.dataBuf p.dataPos.toNat c
    rw [h.dataPos, h.held] at this
    rw [List.length_append, List.length_singleton]
    simp only [ParserSerialiser.addByte, h.dataPos]
    rw [Nat.add_right_comm, this]
    rfl

theorem idLt_iff (c : UInt8) : c.toUInt16 ≥ Packets.nullPack.code.toUInt16 ↔ ¬ c < 7 := by
  rw [ge_iff_le, UInt16.le_iff_toNat_le, UInt8.lt_iff_toNat_lt, UInt8.toNat_toUInt16]
  exact Nat.not_lt.symm

/-- **Step lemma.**  A byte of the frame is taken, unless it is an id from
`nullPack` on, or the second checksum byte. -/
theorem InFrame.step {p : ParserSerialiser} {content : List UInt8} (h : p.InFrame content)
    (c : UInt8) :
    (p.readState c).1.InFrame (content ++ [c]) ∨
      (p.readState c).1.state = .start ∧ (content = [] ∧ ¬ c < 7 ∨ p.state = .check2) := by
  cases h with
  | opened hst hpos =>
    by_cases hc : c.toUInt16 ≥ Packets.nullPack.code.toUInt16
    · right
      refine ⟨by simp only [readState, hst, if_pos hc], Or.inl ⟨rfl, (idLt_iff c).mp hc⟩⟩
    · left
      have hid : c < 7 := Classical.not_not.mp (mt (idLt_iff c).mpr hc)
      simp only [readState, hst, if_neg hc, addByte, hpos]
      exact .named c rfl hid rfl rfl rfl
  | named id hst hid hmsg hpos hbuf =>
    left
    have hnew : c.toNat ≤ 253 →
        ({ (p.addByte c).1 with dataLength := c } : ParserSerialiser).Holding id c [] := by
      intro hle
      refine ⟨hid, hmsg, rfl, hle, ?_, ?_⟩
      · simp only [addByte, hpos]; rfl
      · simp [addByte, hpos, cells, hbuf]
    simp only [readState, hst]
    split
    · next h0 =>
      have h0 : c = 0 := h0
      exact .summed id c [] rfl ((hnew (by rw [h0]; decide)).withState _ _) (by rw [h0]; rfl)
    · next h0 =>
      have h0 : c ≠ 0 := h0
      have hpos : 0 < c.toNat := Nat.pos_of_ne_zero fun h => h0 (UInt8.toNat_inj.mp h)
      by_cases hle : c.toNat ≤ 253
      · exact .data id c [] rfl ((hnew hle).withState _ _) hpos
      · exact .overrun id c [] rfl rfl (by omega)
  | data id size data hst hold hlt =>
    left
    have hnew := hold.addByte hlt c
    have hpos := hnew.dataPos
    rw [List.length_append, List.length_singleton] at hpos
    have hlen : (p.addByte c).1.dataLength.toNat = size.toNat := by rw [hnew.dataLength]
    have hcons : id :: size :: data ++ [c] = id :: size :: (data ++ [c]) := rfl
    rw [hcons]
    simp only [readState, hst]
    split
    · next hge =>
      exact .summed id size (data ++ [c]) rfl (hnew.withState _ _) (by
        rw [List.length_append, List.length_singleton]; omega)
    · next hge =>
      exact .data id size (data ++ [c]) hst hnew (by
        rw [List.length_append, List.length_singleton]; omega)
  | overrun id size data hst hlen hsize =>
    left
    have hlt : ¬ (p.dataPos + 1).toNat ≥ size.toNat + 2 := by
      have := (p.dataPos + 1).toNat_lt
      omega
    simp only [readState, hst, addByte, hlen, if_neg hlt]
    exact .overrun id size (data ++ [c]) rfl rfl hsize
  | summed id size data hst hold hlen =>
    left
    simp only [readState, hst]
    exact .checked id size data c rfl (hold.withState _ _) hlen rfl
  | checked id size data lo hst hold hlen hlo =>
    right
    exact ⟨by simp only [readState, hst], Or.inr hst⟩

theorem InFrame.withFlag {p : ParserSerialiser} {content : List UInt8} (h : p.InFrame content)
    (b : Bool) : { p with stuffFlag := b }.InFrame content := by
  cases h with
  | opened hst hpos => exact .opened hst hpos
  | named id hst hid hmsg hpos hbuf => exact .named id hst hid hmsg hpos hbuf
  | data id size data hst hold hlt => exact .data id size data hst (hold.withFlag b) hlt
  | overrun id size data hst hlen hsize => exact .overrun id size data hst hlen hsize
  | summed id size data hst hold hlen => exact .summed id size data hst (hold.withFlag b) hlen
  | checked id size data lo hst hold hlen hlo =>
    exact .checked id size data lo hst (hold.withFlag b) hlen hlo

/-- A frame whose data are all there waits for its checksum. -/
theorem InFrame.complete {p : ParserSerialiser} {id size : UInt8} {data : List UInt8}
    (h : p.InFrame (id :: size :: data)) (hlen : data.length = size.toNat) (hle : size.toNat ≤ 253) :
    p.state = .check1 ∧ p.Holding id size data := by
  generalize hc : id :: size :: data = content at h
  cases h with
  | opened => cases hc
  | named => cases hc
  | data id' size' data' hst hold hlt => cases hc; omega
  | overrun id' size' data' hst hlen' hsize => cases hc; omega
  | summed id' size' data' hst hold hlen' => cases hc; exact ⟨hst, hold⟩
  | checked id' size' data' lo hst hold hlen' hlo =>
    cases hc
    rw [List.length_append, List.length_singleton] at hlen
    omega

/-- In the last state one checksum byte has been taken. -/
theorem InFrame.of_check2 {p : ParserSerialiser} {content : List UInt8} (h : p.InFrame content)
    (hst : p.state = .check2) :
    ∃ id size data lo, content = id :: size :: (data ++ [lo]) ∧ p.Holding id size data ∧
      data.length = size.toNat ∧ p.checksumIn = lo.toUInt16 := by
  cases h with
  | checked id size data lo _ hold hlen hlo => exact ⟨id, size, data, lo, rfl, hold, hlen, hlo⟩
  | opened h | named _ h | data _ _ _ h | overrun _ _ _ h | summed _ _ _ h =>
    rw [hst] at h; cases h

/-- Only the last byte of a frame calls a handler. -/
theorem calls_readState (p : ParserSerialiser) (c : UInt8) (h : p.state ≠ .check2) :
    calls (p.readState c).2 = [] := by
  unfold readState
  split <;> dsimp only [addByte] <;> (try split) <;> first | rfl | contradiction

theorem store_mem_receive {P : Type} (p : ParserSerialiser) (r : Reader UInt8 P)
    (handler : P → Packet) (i : Nat) : Event.store i ∉ p.receive r handler := by
  have h : p.receive r handler = (r (start p.dataBuf 2)).2.loads.map .load ++
      [.handler (handler (r (start p.dataBuf 2)).1)] := rfl
  rw [h]
  simp

theorem store_mem_readData (p : ParserSerialiser) (i : Nat) : Event.store i ∉ p.readData := by
  unfold readData
  repeat' split
  all_goals first | exact store_mem_receive _ _ _ _ | simp

/-- Only `add_byte` stores, at `data_pos`. -/
theorem store_mem_readState {p : ParserSerialiser} {c : UInt8} {i : Nat}
    (h : Event.store i ∈ (p.readState c).2) :
    i = p.dataPos.toNat ∧ (p.state = .id ∨ p.state = .size ∨ p.state = .data) := by
  unfold readState at h
  split at h
  · next hst => simp at h
  · next hst =>
    dsimp only [addByte] at h
    split at h
    · simp at h
    · exact ⟨by simpa using h, Or.inl hst⟩
  · next hst => exact ⟨by simpa [addByte] using h, Or.inr (Or.inl hst)⟩
  · next hst => exact ⟨by simpa [addByte] using h, Or.inr (Or.inr hst)⟩
  · simp at h
  · rcases List.mem_append.mp h with h | h
    · obtain ⟨j, -, hj⟩ := List.mem_map.mp (show Event.store i ∈ (List.range _).map Event.load from h)
      cases hj
    · split at h
      · exact absurd h (store_mem_readData _ i)
      · cases h

theorem readData_congr {p q : ParserSerialiser} (hmsg : q.msgId = p.msgId)
    (hbuf : q.dataBuf = p.dataBuf) : q.readData = p.readData := by
  simp only [readData, receive, hmsg, hbuf]

/-- The second checksum byte. -/
theorem readState_check2 {p : ParserSerialiser} {id size : UInt8} {data : List UInt8}
    (hst : p.state = .check2) (hold : p.Holding id size data) (hlen : data.length = size.toNat)
    (c : UInt8) :
    (p.readState c).2 = (List.range (data.length + 2)).map .load ++
      if checksum (id :: size :: data) = UInt16.ofNat (p.checksumIn.toNat + (c.toNat <<< 8)) then
        p.readData else [] := by
  obtain ⟨q, hq⟩ : ∃ q : ParserSerialiser, q = { p with
      state := .check2
      checksumIn := UInt16.ofNat (p.checksumIn.toNat + (c.toNat <<< 8)) } := ⟨_, rfl⟩
  have hread : (p.readState c).2 =
      q.checkChecksum.2 ++ if q.checkChecksum.1 then q.readData else [] := by
    simp only [readState, hst, hq]
  have hbuf : q.dataBuf = p.dataBuf := by rw [hq]
  have hfl : q.frameLen = data.length + 2 := by
    rw [frameLen, show q.dataLength = p.dataLength by rw [hq], hold.dataLength, hlen]
  have hck := checkChecksum_eq q (id :: size :: data) (by rw [hfl, hbuf, hold.held])
  rw [hread, hck, hfl, readData_congr (show q.msgId = p.msgId by rw [hq]) hbuf, hq]
  simp only [beq_iff_eq]

theorem readToken_check1 {p : ParserSerialiser} (hst : p.state = .check1) {t : Token UInt8}
    (ht : ¬ IsDelim t) :
    p.readToken t =
      ({ p with stuffFlag := false, checksumIn := t.sym.toUInt16, state := .check2 }, []) := by
  rw [readToken_content p t ht]
  simp only [readState, hst]

theorem readToken_check2 {p : ParserSerialiser} {id size : UInt8} {data : List UInt8}
    (hst : p.state = .check2) (hold : p.Holding id size data) (hlen : data.length = size.toNat)
    {t : Token UInt8} (ht : ¬ IsDelim t) :
    (p.readToken t).2 = (List.range (data.length + 2)).map .load ++
      if checksum (id :: size :: data) = UInt16.ofNat (p.checksumIn.toNat + (t.sym.toNat <<< 8)) then
        p.readData else [] := by
  have hst' : ({ p with stuffFlag := false } : ParserSerialiser).state = .check2 := hst
  have hdata : ({ p with stuffFlag := false } : ParserSerialiser).readData = p.readData :=
    readData_congr rfl rfl
  rw [readToken_content p t ht, readState_check2 hst' (hold.withFlag false) hlen t.sym, hdata]

/-- The bytes of a frame are stored one behind the other. -/
theorem InFrame.store_eq {p : ParserSerialiser} {content : List UInt8} (h : p.InFrame content)
    (hsize : ∀ id size data, content = id :: size :: data → size.toNat ≤ 253) {c : UInt8} {i : Nat}
    (hi : Event.store i ∈ (p.readState c).2) : i = content.length := by
  obtain ⟨rfl, hstores⟩ := store_mem_readState hi
  cases h with
  | opened hst hpos => exact congrArg UInt8.toNat hpos
  | named id hst hid hmsg hpos hbuf => exact congrArg UInt8.toNat hpos
  | data id size data hst hold hlt => exact hold.dataPos
  | overrun id size data hst hlen hbig =>
    have hle := hsize id size data rfl
    omega
  | summed id size data hst hold hlen =>
    rw [hst] at hstores
    simp at hstores
  | checked id size data lo hst hold hlen hlo =>
    rw [hst] at hstores
    simp at hstores

/-- A frame's bytes, none of them a delimiter, are taken one by one. -/
theorem InFrame.feedTokens {id size : UInt8} {data : List UInt8} (hid : id < 7)
    (hlen : data.length = size.toNat) (hle : size.toNat ≤ 253) (ts : List (Token UInt8))
    (hts : ∀ t ∈ ts, ¬ IsDelim t) {p : ParserSerialiser} {got : List UInt8} (h : p.InFrame got)
    (hgot : got ++ ts.map Token.sym = id :: size :: data) :
    (p.feedTokens ts).1.InFrame (id :: size :: data) ∧ calls (p.feedTokens ts).2 = [] ∧
      ∀ i, Event.store i ∈ (p.feedTokens ts).2 → i < data.length + 2 := by
  induction ts generalizing p got with
  | nil =>
    rw [List.map_nil, List.append_nil] at hgot
    exact ⟨hgot ▸ h, rfl, fun i hi => nomatch hi⟩
  | cons t ts ih =>
    have hne : p.state ≠ .check2 := by
      intro hst
      obtain ⟨id', size', data', lo, rfl, -, hlen', -⟩ := h.of_check2 hst
      simp only [List.cons_append, List.cons.injEq] at hgot
      obtain ⟨rfl, rfl, rfl⟩ := hgot
      simp only [List.length_append, List.length_singleton] at hlen
      omega
    have hstore : ∀ i, Event.store i ∈ ({ p with stuffFlag := false }.readState t.sym).2 →
        i < data.length + 2 := by
      intro i hi
      have hlength := congrArg List.length hgot
      rw [(h.withFlag false).store_eq (fun id' size' data' hc => ?_) hi]
      · simp only [List.length_append, List.length_map, List.length_cons] at hlength
        omega
      · rw [hc] at hgot
        simp only [List.cons_append, List.cons.injEq] at hgot
        rw [hgot.2.1]
        exact hle
    rw [feedTokens_cons, readToken_content p t (hts t List.mem_cons_self), calls_append]
    dsimp only
    rw [calls_readState _ _ (by exact hne), List.nil_append]
    rcases (h.withFlag false).step t.sym with hstep | ⟨-, ⟨rfl, hc⟩ | hst⟩
    · obtain ⟨hin, hcalls, hrest⟩ := ih (fun t' ht' => hts t' (List.mem_cons_of_mem t ht')) hstep (by
        rw [List.append_assoc]; exact hgot)
      exact ⟨hin, hcalls, fun i hi => (List.mem_append.mp hi).elim (hstore i) (hrest i)⟩
    · simp only [List.map_cons, List.nil_append, List.cons.injEq] at hgot
      exact absurd (hgot.1 ▸ hid) hc
    · exact absurd hst hne

end ParserSerialiser

end PicoLan
