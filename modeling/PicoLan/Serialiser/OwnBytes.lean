import PicoLan.Serialiser.Buffer

/-!
# Is a packet made of its own frame?

`from_bytes` does not look at `data_length`: each class reads as many bytes as its
fields take, a datagram as many as its inner count says (`needs`).  What lies behind
the frame's own data is left over from earlier frames, or behind the buffer.
-/

namespace PicoLan

open Stuffing MemReader BasePack

namespace ParserSerialiser

/-- The inner count of a datagram: the byte behind ttl, addresses and port. -/
def innerCount (p : ParserSerialiser) : Nat := (p.dataBuf 6).toNat

/-- How many bytes of data `from_bytes` reads. -/
def needs (p : ParserSerialiser) : Nat :=
  if p.msgId = Packets.getAddrListPack.code.toUInt16 then 1
  else if p.msgId = Packets.addrPack.code.toUInt16 then 32
  else if p.msgId = Packets.pingPack.code.toUInt16 then 5
  else if p.msgId = Packets.pingEchoPack.code.toUInt16 then 5
  else if p.msgId = Packets.datagramPack.code.toUInt16 then 5 + p.innerCount
  else if p.msgId = Packets.subscribePack.code.toUInt16 then 4
  else 0

/-- The frame carries all the bytes its class reads. -/
def FrameFits (p : ParserSerialiser) : Prop := p.needs ≤ p.dataLength.toNat

instance (p : ParserSerialiser) : Decidable p.FrameFits := inferInstanceAs (Decidable (_ ≤ _))

/-- `bs` is read, and decides the call. -/
def ReadsOnly (p : ParserSerialiser) (bs : List UInt8) (packs : List Packet) : Prop :=
  ∀ q : ParserSerialiser, q.msgId = p.msgId → cells q.dataBuf 2 bs.length = bs →
    q.readData = (List.range' 2 bs.length).map .load ++ packs.map .handler

theorem ReadsOnly.of_reads {P : Type} {r : Reader UInt8 P} {bs : List UInt8} {v : P}
    {p : ParserSerialiser} {handler : P → Packet} (h : Reads r bs v)
    (hq : ∀ q : ParserSerialiser, q.msgId = p.msgId → q.readData = q.receive r handler) :
    p.ReadsOnly bs [handler v] := by
  intro q hmsg hm
  rw [hq q hmsg, receive_eq h q handler hm]
  rfl

/-- **What `read_data` reads of any memory**: the `needs` cells from `data_buf[2]` on. -/
theorem readsOnly_needs (p : ParserSerialiser) :
    ∃ packs, p.ReadsOnly (cells p.dataBuf 2 p.needs) packs := by
  unfold needs
  split
  · next h =>
    exact ⟨_, .of_reads (reads_getAddrListPack _) fun q hq => readData_getAddrListPack (hq.trans h)⟩
  split
  · next h =>
    have hc : cells p.dataBuf 2 32 = (List.finRange 32).map fun i => p.dataBuf (2 + i.val) := by
      apply List.ext_getElem
      · simp
      · intro i h1 h2; simp [getElem_cells]
    rw [hc]
    exact ⟨_, .of_reads (reads_addrPack _) fun q hq => readData_addrPack (hq.trans h)⟩
  split
  · next h =>
    exact ⟨_, .of_reads (reads_pingPack _ _ _ _ _) fun q hq => readData_pingPack (hq.trans h)⟩
  split
  · next h =>
    exact ⟨_, .of_reads (reads_pingEchoPack _ _ _ _ _) fun q hq => readData_pingEchoPack (hq.trans h)⟩
  split
  · next h =>
    have hc : cells p.dataBuf 2 (5 + p.innerCount) =
        [p.dataBuf 2, p.dataBuf 3, p.dataBuf 4, p.dataBuf 5] ++
          p.dataBuf 6 :: cells p.dataBuf 7 p.innerCount := by
      rw [cells_add]; rfl
    rw [hc]
    exact ⟨_, .of_reads (reads_datagramPack _ _ _ _ _ _ (length_cells ..)) fun q hq =>
      readData_datagramPack (hq.trans h)⟩
  split
  · next h =>
    exact ⟨_, .of_reads (reads_subscribePack _ _ _ _) fun q hq => readData_subscribePack (hq.trans h)⟩
  · next h1 h2 h3 h4 h5 h6 =>
    refine ⟨[], fun q hq _ => ?_⟩
    simp only [readData, hq, if_neg h1, if_neg h2, if_neg h3, if_neg h4, if_neg h5, if_neg h6]
    rfl

/-- The loads of `from_bytes` stay in the frame iff the frame fits. -/
theorem loads_iff_fits (p : ParserSerialiser) :
    (∀ i, Event.load i ∈ p.readData → i < p.frameLen) ↔ p.FrameFits := by
  obtain ⟨packs, h⟩ := p.readsOnly_needs
  have hr := h p rfl (by rw [length_cells])
  rw [length_cells] at hr
  have hmem : ∀ i, Event.load i ∈ p.readData ↔ 2 ≤ i ∧ i < 2 + p.needs := by
    intro i
    rw [hr]
    simp [List.mem_range'_1]
  simp only [hmem, frameLen, FrameFits]
  constructor
  · intro hi
    rcases Nat.eq_zero_or_pos p.needs with h0 | h0
    · omega
    · have := hi (p.needs + 1) (by omega)
      omega
  · intro hle i hi
    omega

/-- If the frame fits, the call depends on the bytes of the frame only. -/
theorem readData_of_fits {p q : ParserSerialiser} (hfit : p.FrameFits) (hmsg : q.msgId = p.msgId)
    (hbuf : ∀ i, i < p.frameLen → q.dataBuf i = p.dataBuf i) : q.readData = p.readData := by
  obtain ⟨packs, h⟩ := p.readsOnly_needs
  have hcells : cells q.dataBuf 2 p.needs = cells p.dataBuf 2 p.needs :=
    cells_congr _ _ _ _ fun i _ hi => hbuf i (by unfold FrameFits at hfit; unfold frameLen; omega)
  rw [h p rfl (by rw [length_cells]), h q hmsg (by rw [length_cells, hcells])]

/-! ## Two parsers that differ in what is left in the buffer -/

/-- The same but for the buffer, and in the same frame if in one. -/
structure Twin (p q : ParserSerialiser) : Prop where
  fields : ∃ buf, q = { p with dataBuf := buf }
  frame : p.state = .start ∨ ∃ content, p.InFrame content ∧ q.InFrame content

theorem readState_withBuf (p : ParserSerialiser) (buf : Nat → UInt8) (c : UInt8) :
    ∃ buf', ({ p with dataBuf := buf }.readState c).1 = { (p.readState c).1 with dataBuf := buf' } := by
  obtain ⟨state, stuffFlag, msgId, checksumIn, dataLength, dataPos, dataBuf⟩ := p
  cases state with
  | data =>
    by_cases h : (dataPos + 1).toNat ≥ dataLength.toNat + 2 <;>
      simp only [ParserSerialiser.readState, addByte, h, if_true, if_false] <;> exact ⟨_, rfl⟩
  | start | id | size =>
    dsimp only [ParserSerialiser.readState, addByte]
    split <;> exact ⟨_, rfl⟩
  | check1 | check2 => exact ⟨_, rfl⟩

theorem Twin.readState {p q : ParserSerialiser} (h : p.Twin q) (c : UInt8) :
    (p.readState c).1.Twin (q.readState c).1 := by
  obtain ⟨buf, rfl⟩ := h.fields
  refine ⟨readState_withBuf p buf c, ?_⟩
  obtain ⟨buf', hbuf'⟩ := readState_withBuf p buf c
  rcases h.frame with hst | ⟨content, hp, hq⟩
  · have hst' : ({ p with dataBuf := buf } : ParserSerialiser).state = .start := hst
    rw [readState_start hst, readState_start hst']
    dsimp only
    split
    · exact Or.inr ⟨[], .opened rfl rfl, .opened rfl rfl⟩
    · exact Or.inl hst
  · rcases hp.step c with hp' | ⟨hp', -⟩
    · rcases hq.step c with hq' | ⟨hq', -⟩
      · exact Or.inr ⟨_, hp', hq'⟩
      · left
        rw [hbuf'] at hq'
        exact hq'
    · exact Or.inl hp'

theorem Twin.readToken {p q : ParserSerialiser} (h : p.Twin q) (t : Token UInt8) :
    (p.readToken t).1.Twin (q.readToken t).1 := by
  obtain ⟨buf, rfl⟩ := h.fields
  unfold ParserSerialiser.readToken
  split
  · exact Twin.readState ⟨⟨buf, rfl⟩, Or.inl rfl⟩ _
  · refine Twin.readState ⟨⟨buf, rfl⟩, ?_⟩ _
    rcases h.frame with hst | ⟨content, hp, hq⟩
    · exact Or.inl hst
    · exact Or.inr ⟨content, hp.withFlag false, hq.withFlag false⟩

theorem Twin.read {p q : ParserSerialiser} (h : p.Twin q) (c : UInt8) :
    (p.read c).1.Twin (q.read c).1 := by
  have hflag : q.stuffFlag = p.stuffFlag := by obtain ⟨buf, rfl⟩ := h.fields; rfl
  by_cases hesc : c = 0xAA ∧ p.stuffFlag = false
  · rw [read_esc p c hesc, read_esc q c (hflag ▸ hesc)]
    obtain ⟨buf, rfl⟩ := h.fields
    refine ⟨⟨buf, rfl⟩, ?_⟩
    rcases h.frame with hst | ⟨content, hp, hq⟩
    · exact Or.inl hst
    · exact Or.inr ⟨content, hp.withFlag true, hq.withFlag true⟩
  · rw [read_token p c hesc, read_token q c (hflag ▸ hesc), hflag]
    exact h.readToken _

/-- **Run lemma.**  The same bytes keep twins twins. -/
theorem Twin.feed {p q : ParserSerialiser} (h : p.Twin q) (g : List UInt8) :
    (p.feed g).1.Twin (q.feed g).1 := by
  induction g generalizing p q with
  | nil => exact h
  | cons c g ih => exact ih (h.read c)

/-- Reading `c` ends a frame that passes `check_checksum`. -/
def Accepts (p : ParserSerialiser) (c : UInt8) : Prop :=
  p.state = .check2 ∧ ¬ (c = 0xAA ∧ p.stuffFlag = false) ∧ ¬ IsDelim ⟨p.stuffFlag, c⟩ ∧
    { p with
      checksumIn := UInt16.ofNat (p.checksumIn.toNat + (c.toNat <<< 8)) }.checkChecksum.1 = true

instance (p : ParserSerialiser) (c : UInt8) : Decidable (p.Accepts c) :=
  inferInstanceAs (Decidable (_ ∧ _))

/-- Two parsers at the end of one frame hold the same bytes of it, and both call
the handler they decode. -/
theorem Twin.accept {p q : ParserSerialiser} (h : p.Twin q) (c : UInt8) (hacc : p.Accepts c) :
    calls (p.read c).2 = calls p.readData ∧ calls (q.read c).2 = calls q.readData ∧
      q.msgId = p.msgId ∧ ∀ i, i < p.frameLen → q.dataBuf i = p.dataBuf i := by
  obtain ⟨hst, hesc, hdel, hck⟩ := hacc
  obtain ⟨buf, hq⟩ := h.fields
  have hqflag : q.stuffFlag = p.stuffFlag := by rw [hq]
  have hqst : q.state = .check2 := by rw [hq]; exact hst
  have hqck : q.checksumIn = p.checksumIn := by rw [hq]
  have hne : p.state ≠ .start := by rw [hst]; exact fun h => by cases h
  obtain ⟨content, hin, hqin⟩ := h.frame.resolve_left hne
  obtain ⟨id, size, data, lo, rfl, hold, hlen, -⟩ := hin.of_check2 hst
  obtain ⟨id', size', data', lo', heq, hold', hlen', -⟩ := hqin.of_check2 hqst
  simp only [List.cons.injEq] at heq
  obtain ⟨rfl, rfl, heq⟩ := heq
  obtain ⟨rfl, -⟩ := List.append_inj heq (by omega)
  have hfl : p.frameLen = data.length + 2 := by rw [frameLen, hold.dataLength, hlen]
  have hsum : checksum (id :: size :: data) =
      UInt16.ofNat (p.checksumIn.toNat + (c.toNat <<< 8)) := by
    rw [checkChecksum_eq _ (id :: size :: data) (by
      show cells p.dataBuf 0 p.frameLen = _
      rw [hfl, hold.held])] at hck
    simpa using hck
  refine ⟨?_, ?_, by rw [hold.msgId, hold'.msgId], ?_⟩
  · rw [read_token p c hesc, readToken_check2 hst hold hlen hdel, calls_append, calls_map_load,
      List.nil_append, if_pos hsum]
  · rw [read_token q c (hqflag ▸ hesc), readToken_check2 hqst hold' hlen' (hqflag ▸ hdel),
      calls_append, calls_map_load, List.nil_append, if_pos (hqck ▸ hsum)]
  · intro i hi
    have hcells : cells q.dataBuf 0 (data.length + 2) = cells p.dataBuf 0 (data.length + 2) := by
      rw [hold.held, hold'.held]
    have hi' : i < (cells q.dataBuf 0 (data.length + 2)).length := by rw [length_cells]; omega
    have := getElem_cells q.dataBuf 0 (data.length + 2) i hi'
    simp only [hcells, getElem_cells, Nat.zero_add] at this
    exact this.symm

theorem Twin.ofBuf {p : ParserSerialiser} (h : p.state = .start) (buf : Nat → UInt8) :
    p.Twin { p with dataBuf := buf } := ⟨⟨buf, rfl⟩, Or.inl h⟩

/-- The frame that ends with `c` gives its handler its own bytes only: `from_bytes`
loads nothing behind them, and whatever was in the buffer before the stream `g`,
which began between two frames, the call is the same. -/
def OwnBytes (p : ParserSerialiser) (g : List UInt8) (c : UInt8) : Prop :=
  (∀ i, Event.load i ∈ (p.feed g).1.readData → i < (p.feed g).1.frameLen) ∧
  ∀ buf : Nat → UInt8,
    calls (({ p with dataBuf := buf }.feed g).1.read c).2 = calls ((p.feed g).1.read c).2

end ParserSerialiser

open ParserSerialiser

/-- **A packet is made of its own frame** iff the frame carries the bytes its class
reads: the size byte covers the fields, and for a datagram the inner count too. -/
theorem ownBytes_iff (p : ParserSerialiser) (g : List UInt8) (c : UInt8) (hst : p.state = .start)
    (hacc : (p.feed g).1.Accepts c) : p.OwnBytes g c ↔ (p.feed g).1.FrameFits := by
  constructor
  · intro h
    exact (loads_iff_fits _).mp h.1
  · intro hfit
    refine ⟨(loads_iff_fits _).mpr hfit, fun buf => ?_⟩
    obtain ⟨hp, hq, hmsg, hbuf⟩ := ((Twin.ofBuf hst buf).feed g).accept c hacc
    rw [hp, hq, readData_of_fits hfit hmsg hbuf]

/-- A datagram of three bytes, one of them stuffed, up to the first byte of the checksum. -/
def threeByteDatagram : List UInt8 := [0xAB, 5, 8, 6, 2, 1, 80, 3, 10, 0xAA, 0xAB, 12, 43]

theorem datagram_ownBytes : (ParserSerialiser.init fun _ => 0x55).OwnBytes threeByteDatagram 221 ∧
    calls (((ParserSerialiser.init fun _ => 0x55).feed threeByteDatagram).1.read 221).2 =
      [.datagramPack ⟨6, 2, 1, 80, BoundedList.empty.appendAll [10, 0xAB, 12]⟩] :=
  ⟨(ownBytes_iff _ _ _ rfl (by decide +kernel)).mpr (by decide +kernel), by decide +kernel⟩

/-- A ping of no data at all: id 3, size 0, and their checksum. -/
def emptyPing : List UInt8 := [0xAB, 3, 0, 3]

/-- Its four fields are what an earlier frame left in the buffer. -/
theorem emptyPing_stale :
    ((ParserSerialiser.init fun _ => 0x55).feed emptyPing).1.Accepts 6 ∧
    Event.load 6 ∈ ((ParserSerialiser.init fun _ => 0x55).feed emptyPing).1.readData ∧
    calls (((ParserSerialiser.init fun _ => 0x55).feed emptyPing).1.read 6).2 =
      [.pingPack ⟨0x55, 0x55, 0x55, 0x5555⟩] ∧
    ¬ (ParserSerialiser.init fun _ => 0x55).OwnBytes emptyPing 6 := by
  refine ⟨by decide +kernel, by decide +kernel, by decide +kernel, fun h => ?_⟩
  have hload := h.1 6 (by decide +kernel)
  have hlen : ((ParserSerialiser.init fun _ => 0x55).feed emptyPing).1.frameLen = 2 := by
    decide +kernel
  omega

end PicoLan
