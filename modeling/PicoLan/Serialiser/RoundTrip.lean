import PicoLan.Serialiser.Decode

/-!
# Round trips and resynchronisation

`decode_encode`: the bytes of one `send`, read from any state that has no escape
pending, are one handler call with the packet sent.  `resync`: after any noise at
all only the first frame that follows can be lost.
-/

namespace PicoLan

open Stuffing MemReader

/-- The bytes one `send` gives to `put`. -/
def Packet.emit (pack : Packet) (s : Sender) : List UInt8 := (pack.send { s with out := [] }).out

theorem Packet.emit_eq (pack : Packet) (s : Sender) : pack.emit s = frameBytes pack.content :=
  pack.send_out { s with out := [] }

theorem tokens_frame (pend : Bool) (content : List UInt8) :
    wireScheme.tokens pend (frameBytes content) =
      ⟨pend, 0xAB⟩ :: ((sealed content).map stuffed ++ [⟨false, 0xAC⟩]) := by
  have hne : ¬ ((0xAB : UInt8) = wireScheme.esc ∧ pend = false) := by rintro ⟨h, -⟩; cases h
  rw [frameBytes, Scheme.tokens_sym _ _ _ _ hne, Scheme.tokens_append, Scheme.pending_stuff,
    Scheme.tokens_stuff]
  rfl

theorem pending_frame (pend : Bool) (content : List UInt8) :
    wireScheme.pending pend (frameBytes content) = false := by
  have hne : ¬ ((0xAB : UInt8) = wireScheme.esc ∧ pend = false) := by rintro ⟨h, -⟩; cases h
  rw [frameBytes, Scheme.pending_sym _ _ _ _ hne, Scheme.pending_append, Scheme.pending_stuff]
  rfl

/-- The two checksum bytes, as the receiver puts them together. -/
theorem checksum_bytes (cs : UInt16) :
    UInt16.ofNat (cs.toUInt8.toUInt16.toNat + ((cs >>> 8).toUInt8.toNat <<< 8)) = cs := by
  have h := u16_halves cs
  rwa [UInt8.toNat_toUInt16, Nat.shiftLeft_eq, Nat.mul_comm]

namespace ParserSerialiser

/-- Whatever the parser was in, the closing delimiter puts it back to the start. -/
theorem feedTokens_close (p : ParserSerialiser) (ts : List (Token UInt8)) :
    (p.feedTokens (ts ++ [⟨false, 0xAC⟩])).1.state = .start := by
  rw [feedTokens_append]
  rfl

/-- The two bytes of the checksum that belongs to what is held. -/
theorem receive_checksum {p : ParserSerialiser} {id size : UInt8} {data : List UInt8}
    (hst : p.state = .check1) (hold : p.Holding id size data) (hlen : data.length = size.toNat) :
    ∃ q : ParserSerialiser, q.Holding id size data ∧
      calls (p.feedTokens [stuffed (checksum (id :: size :: data)).toUInt8,
        stuffed (checksum (id :: size :: data) >>> 8).toUInt8]).2 = calls q.readData ∧
      ∀ i, Event.store i ∉ (p.feedTokens [stuffed (checksum (id :: size :: data)).toUInt8,
        stuffed (checksum (id :: size :: data) >>> 8).toUInt8]).2 := by
  let lo := (checksum (id :: size :: data)).toUInt8
  let q : ParserSerialiser :=
    { p with stuffFlag := false, checksumIn := lo.toUInt16, state := .check2 }
  have hq : q.Holding id size data := (hold.withState .check2 lo.toUInt16).withFlag false
  refine ⟨q, hq, ?_⟩
  rw [feedTokens_cons, readToken_check1 hst (not_isDelim_stuffed _), List.nil_append, feedTokens_cons]
  show calls ((q.readToken _).2 ++ []) = _ ∧ ∀ i, Event.store i ∉ (q.readToken _).2 ++ []
  rw [List.append_nil, readToken_check2 rfl hq hlen (not_isDelim_stuffed _), calls_append,
    calls_map_load, List.nil_append]
  have hsum : checksum (id :: size :: data) = UInt16.ofNat (q.checksumIn.toNat +
      ((stuffed (checksum (id :: size :: data) >>> 8).toUInt8).sym.toNat <<< 8)) :=
    (checksum_bytes _).symm
  rw [if_pos hsum]
  refine ⟨rfl, fun i hi => ?_⟩
  rcases List.mem_append.mp hi with hi | hi
  · obtain ⟨j, -, hj⟩ := List.mem_map.mp hi
    cases hj
  · exact store_mem_readData q i hi

/-- **A frame is received.**  Behind an opening delimiter, stuffed bytes that end
in their own checksum call the handler of the data they hold, once. -/
theorem receive_frame (p : ParserSerialiser) {id size : UInt8} {data : List UInt8} (hid : id < 7)
    (hlen : data.length = size.toNat) (hle : size.toNat ≤ 253) :
    ∃ q : ParserSerialiser, q.Holding id size data ∧
      calls (p.feedTokens (⟨false, 0xAB⟩ ::
        ((sealed (id :: size :: data)).map stuffed ++ [⟨false, 0xAC⟩]))).2 = calls q.readData ∧
      ∀ i, Event.store i ∈ (p.feedTokens (⟨false, 0xAB⟩ ::
        ((sealed (id :: size :: data)).map stuffed ++ [⟨false, 0xAC⟩]))).2 → i < data.length + 2 := by
  have ho : (p.readToken ⟨false, 0xAB⟩).1.InFrame [] := .opened rfl rfl
  let ts := (id :: size :: data).map stuffed
  have hts : ∀ t ∈ ts, ¬ IsDelim t := by
    intro t ht
    obtain ⟨b, -, rfl⟩ := List.mem_map.mp ht
    exact not_isDelim_stuffed b
  have hsym : [] ++ ts.map Token.sym = id :: size :: data := by
    rw [List.nil_append, List.map_map]
    exact List.map_id _
  obtain ⟨hin, hcalls, hstores⟩ := ho.feedTokens hid hlen hle ts hts hsym
  obtain ⟨hst, hold⟩ := hin.complete hlen hle
  obtain ⟨q, hq, hlast, hnone⟩ := receive_checksum hst hold hlen
  refine ⟨q, hq, ?_⟩
  rw [feedTokens_cons, sealed, List.map_append, List.append_assoc, feedTokens_append,
    feedTokens_append]
  refine ⟨?_, fun i hi => ?_⟩
  · simp only [calls_append]
    rw [hcalls]
    have hopen : calls (p.readToken ⟨false, 0xAB⟩).2 = [] := rfl
    have hclose : ∀ r : ParserSerialiser, calls (r.feedTokens [⟨false, 0xAC⟩]).2 = [] := fun r => rfl
    rw [hopen, hclose, List.nil_append, List.nil_append, List.append_nil]
    exact hlast
  · -- the delimiters and the checksum are not stored
    rcases List.mem_append.mp hi with hi | hi
    · cases hi
    rcases List.mem_append.mp hi with hi | hi
    · exact hstores i hi
    rcases List.mem_append.mp hi with hi | hi
    · exact absurd hi (hnone i)
    · cases hi

/-- A packet's frame, read with or without an escape pending before it: only the
pending escape can keep its handler from being called, or its bytes from `data_buf`. -/
theorem feed_emit (p : ParserSerialiser) (pack : Packet) (s : Sender) :
    (p.stuffFlag = false → calls (p.feed (pack.emit s)).2 = [pack] ∧ p.InBuffer (pack.emit s)) ∧
    (p.feed (pack.emit s)).1.state = .start ∧ (p.feed (pack.emit s)).1.stuffFlag = false := by
  rw [Packet.emit_eq]
  refine ⟨?_, ?_, ?_⟩
  · intro h
    have hb := pack.body_length
    have hsz : pack.body.length = (UInt8.ofNat pack.body.length).toNat := by
      show _ = pack.body.length % 256
      omega
    obtain ⟨q, hq, hcalls, hstores⟩ := p.receive_frame pack.code_lt hsz (by omega)
    rw [inBuffer_iff, feed_events, h, tokens_frame]
    refine ⟨hcalls.trans (readData_calls pack hq), fun i hi => ?_⟩
    have hlt := hstores i hi
    simp only [maxPacketLength]
    omega
  · rw [feed_state, tokens_frame, ← List.cons_append]
    exact feedTokens_close p _
  · rw [feed_stuffFlag, pending_frame]

end ParserSerialiser

open ParserSerialiser

/-- **Decode undoes encode**: whatever was left in the receiver, the bytes of one
`send` make one call, of the handler of the packet's class with its fields. -/
theorem decode_encode (pack : Packet) (s : Sender) (p : ParserSerialiser) (h : p.stuffFlag = false) :
    calls (p.feed (pack.emit s)).2 = [pack] ∧ (p.feed (pack.emit s)).1.state = .start ∧
      (p.feed (pack.emit s)).1.stuffFlag = false :=
  ⟨((feed_emit p pack s).1 h).1, (feed_emit p pack s).2⟩

/-- A receiver left in the middle of another frame's checksum. -/
theorem decode_encode_midframe :
    let pack : Packet := .datagramPack
      ⟨6, 0xAA, 0xAB, 0xAC, BoundedList.empty.appendAll [0xAB, 1, 0xAC, 0xAA]⟩
    let p : ParserSerialiser :=
      { ParserSerialiser.init (fun i => UInt8.ofNat i) with state := .check2, dataPos := 77 }
    calls (p.feed (pack.emit ⟨3, 4, []⟩)).2 = [pack] ∧
      (p.feed (pack.emit ⟨3, 4, []⟩)).1.state = .start ∧
      (p.feed (pack.emit ⟨3, 4, []⟩)).1.stuffFlag = false :=
  decode_encode _ _ _ rfl

/-- Does a stream end behind an escape that nothing has followed? -/
def EndsInEscape (g : List UInt8) : Prop := wireScheme.pending false g = true

instance (g : List UInt8) : Decidable (EndsInEscape g) := inferInstanceAs (Decidable (_ = _))

/-- The wire bytes of packets, each with the sums its sender started from. -/
def emitAll (ps : List (Packet × Sender)) : List UInt8 := ps.flatMap fun x => x.1.emit x.2

theorem feed_emitAll (p : ParserSerialiser) (ps : List (Packet × Sender)) (h : p.stuffFlag = false) :
    calls (p.feed (emitAll ps)).2 = ps.map Prod.fst := by
  induction ps generalizing p with
  | nil => rfl
  | cons x ps ih =>
    obtain ⟨hcall, -, hflag⟩ := feed_emit p x.1 x.2
    show calls (p.feed (x.1.emit x.2 ++ emitAll ps)).2 = _
    rw [feed_append, calls_append, (hcall h).1, ih _ hflag]
    rfl

/-- **Resynchronisation.**  After any bytes `g`, the calls made while the packets
behind the first are read are these packets, and the first one is called as well
unless `g` ends in an escape. -/
theorem resync (buf : Nat → UInt8) (g : List UInt8) (p1 : Packet) (s1 : Sender)
    (ps : List (Packet × Sender)) :
    let q := ((ParserSerialiser.init buf).feed g).1
    let r := q.feed (p1.emit s1)
    calls (r.1.feed (emitAll ps)).2 = ps.map Prod.fst ∧ (¬ EndsInEscape g → calls r.2 = [p1]) := by
  intro q r
  obtain ⟨hcall, -, hflag⟩ := feed_emit q p1 s1
  refine ⟨feed_emitAll r.1 ps hflag, fun hg => (hcall ?_).1⟩
  show ((ParserSerialiser.init buf).feed g).1.stuffFlag = false
  rw [feed_stuffFlag]
  exact Bool.eq_false_iff.mpr hg

end PicoLan
