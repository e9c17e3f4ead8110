import PicoLan.Host.Enquiry

/-!
# A cable in any state

A device is switched on in the middle of a frame, a byte is lost or spoilt on its way: here
nothing is known of the parsers nor of the bytes on the cable, but that no read stores behind
`data_buf` (such a read has no step, and takes a size byte above 62).  Every packet leaves the
parser that reads it without an escape pending.  So from then on all that is sent arrives, but for
the first packet at most (`Cable.heals`), and of three pings the last one is answered
(`Cable.third_ping`).
-/

namespace PicoLan

open Runs

theorem wireFraming_mends : wireFraming.Mends :=
  fun p m => (ParserSerialiser.feed_emit p m ⟨0, 0, []⟩).2.2

/-! ## What bytes can be taken for -/

namespace ParserSerialiser

/-- How far the parser has come on its way to the next handler call, of five bytes. -/
def progress (p : ParserSerialiser) : Nat :=
  match p.state with
  | .start => 0
  | .id => 1
  | .size => 2
  | .data => 2
  | .check1 => 3
  | .check2 => 4

theorem receive_once {P : Type} (p : ParserSerialiser) (fromBytes : MemReader.Reader UInt8 P)
    (handler : P → Packet) : (calls (p.receive fromBytes handler)).length ≤ 1 := by
  show (calls (List.map Event.load _ ++ [_])).length ≤ 1
  rw [calls_append, calls_map_load]
  exact Nat.le_refl 1

/-- At most one handler is called. -/
theorem readData_once (p : ParserSerialiser) : (calls p.readData).length ≤ 1 := by
  unfold readData
  split
  · exact receive_once ..
  split
  · exact receive_once ..
  split
  · exact receive_once ..
  split
  · exact receive_once ..
  split
  · exact receive_once ..
  split
  · exact receive_once ..
  · exact Nat.zero_le _

theorem check_once (p : ParserSerialiser) :
    (calls (p.checkChecksum.2 ++ if p.checkChecksum.1 then p.readData else [])).length ≤ 1 := by
  have hloads : calls p.checkChecksum.2 = [] := calls_map_load _
  rw [calls_append, hloads, List.nil_append]
  split
  · exact readData_once p
  · exact Nat.zero_le _

theorem readState_progress (p : ParserSerialiser) (c : UInt8) :
    5 * (calls (p.readState c).2).length + (p.readState c).1.progress ≤ p.progress + 1 := by
  obtain ⟨state, stuffFlag, msgId, checksumIn, dataLength, dataPos, dataBuf⟩ := p
  cases state with
  | start =>
    unfold readState
    dsimp only
    split <;> exact Nat.le_of_ble_eq_true rfl
  | id =>
    unfold readState
    dsimp only
    split <;> exact Nat.le_of_ble_eq_true rfl
  | size =>
    show 5 * 0 + progress (ite _ _ _) ≤ 2 + 1
    split <;> exact Nat.le_of_ble_eq_true rfl
  | data =>
    show 5 * 0 + progress (ite _ _ _) ≤ 2 + 1
    split <;> exact Nat.le_of_ble_eq_true rfl
  | check1 => exact Nat.le_of_ble_eq_true rfl
  | check2 =>
    -- the handler is called, and the parser begins anew
    have hone := check_once ⟨.check2, stuffFlag, msgId,
      UInt16.ofNat (checksumIn.toNat + (c.toNat <<< 8)), dataLength, dataPos, dataBuf⟩
    exact Nat.mul_le_mul_left 5 hone

/-- A packet is called out by the last byte of its checksum; the other one, the size, the id and
the delimiter come before it. -/
theorem read_progress (p : ParserSerialiser) (c : UInt8) :
    5 * (calls (p.read c).2).length + (p.read c).1.progress ≤ p.progress + 1 := by
  unfold read
  split
  · exact Nat.le_trans (Nat.le_of_eq (Nat.zero_add _)) (Nat.le_succ _)
  · split
    · refine (readState_progress _ c).trans (Nat.add_le_add_right ?_ 1)
      exact Nat.zero_le _
    · exact readState_progress _ c

theorem feed_progress (p : ParserSerialiser) (bs : List UInt8) :
    5 * (calls (p.feed bs).2).length + (p.feed bs).1.progress ≤ p.progress + bs.length := by
  induction bs generalizing p with
  | nil => exact Nat.le_of_eq (Nat.zero_add _)
  | cons b bs ih =>
    have hone := read_progress p b
    have hrest := ih (p.read b).1
    show 5 * (calls ((p.read b).2 ++ ((p.read b).1.feed bs).2)).length + _ ≤ _
    rw [calls_append, List.length_append, List.length_cons]
    show _ + ((p.read b).1.feed bs).1.progress ≤ _
    omega

theorem progress_le (p : ParserSerialiser) : p.progress ≤ 4 := by
  unfold progress
  split <;> omega

/-- **No more than one packet for five bytes**, whatever the bytes are. -/
theorem feed_few (p : ParserSerialiser) (bs : List UInt8) :
    5 * (calls (p.feed bs).2).length ≤ bs.length + 4 := by
  have hfeed := feed_progress p bs
  have hle := progress_le p
  omega

end ParserSerialiser

namespace Cable

variable {F : OnFull UInt8} {C₀ C C' : Cable} {i j : Side} {cs : List (Side × HostAction)}

/-! ## All but the first packet -/

/-- The histories begin here.  The parsers and the bytes on the cable are in any state. -/
structure Begins (C : Cable) : Prop where
  log : ∀ i, C.log i = []
  heard : ∀ i, C.heard i = []

/-- Nothing is lost or made up, but for what is on the cable at first. -/
theorem carried (h : C₀.Begins) (hrun : run (Cable.step F) C₀ cs = some C) (i : Side) :
    wireFraming.Carried (C₀.host i).parser (C₀.wire i) (packetsOf (C.log i.other))
      (C.host i).parser (C.wire i) (C.heard i) := by
  refine run_always (I := fun C => ∀ i, wireFraming.Carried (C₀.host i).parser (C₀.wire i)
    (packetsOf (C.log i.other)) (C.host i).parser (C.wire i) (C.heard i)) ?_ (fun i => ?_) hrun i
  · rintro C ⟨k, c⟩ C' hC hstep j
    obtain ⟨H, out, rest, hwire, hhost, rfl, hrest⟩ := step_some hstep
    obtain rfl | rfl := k.eq_or_other j
    · have htake := hC j
      rw [hwire] at htake
      have hread := htake.take
      rw [show (wireFraming.feed (C.host j).parser _).1 = H.parser
        from (Host.step_parses hhost).symm] at hread
      rw [after_log_other, after_host_self, hrest, after_heard_self]
      exact hread
    · have hsend := (hC k.other).send (packetsOf out)
      rw [Side.other_other] at hsend ⊢
      rw [after_log_self, packetsOf_append, after_host_other, after_wire_other, after_heard_other]
      exact hsend
  · rw [h.log, h.heard]
    exact .start _ _

/-- **A cable heals.**  From any state of the parsers and of the bytes on the cable, whatever two
devices do, as long as no read stores behind `data_buf`: each handles all that the other one has
sent since, once and in order, but for the first packet at most, and not even that is lost unless
it comes behind a pending escape.  What it handles before is at most one packet for five bytes. -/
theorem heals (F : OnFull UInt8) (C₀ : Cable) (h : C₀.Begins) (cs : List (Side × HostAction))
    (C : Cable) (hrun : run (Cable.step F) C₀ cs = some C) (i : Side) (p : Packet)
    (ps : List Packet) (hsent : packetsOf (C.log i.other) = p :: ps) :
    ∃ junk, C.heard i ++ C.onWire i = junk ++ ps ∧
      5 * junk.length ≤ (C₀.wire i).length + (wireFraming.encode p).length + 4 ∧
      (((C₀.host i).parser.feed (C₀.wire i)).1.stuffFlag = false → junk = C₀.onWire i ++ [p]) := by
  have hcarried := carried h hrun i
  rw [hsent] at hcarried
  refine ⟨_, (hcarried.mend wireFraming_mends).1, ?_, fun hflag => ?_⟩
  · rw [← List.length_append]
    exact ParserSerialiser.feed_few _ _
  · have hone := (wireFraming.feed_encode ((C₀.host i).parser.feed (C₀.wire i)).1 p hflag).1
    rw [wireFraming.feed_append]
    exact congrArg (C₀.onWire i ++ ·) hone

/-! ## Three pings -/

theorem Clear.run (h : C.Clear j) (hrun : Runs.run (Cable.step F) C cs = some C') : C'.Clear j := by
  refine run_always (I := fun C => C.Clear j) ?_ h hrun
  rintro C ⟨i, c⟩ C' hC hstep
  obtain ⟨H, out, -, -, -, hself, hthat⟩ := step_queues hstep
  obtain rfl | rfl := i.eq_or_other j
  · exact hself hC
  · exact (hthat hC).2

/-- Once a device has said something, all that is on its way from it is packets. -/
theorem clear_of_sent {c : HostAction} (hstep : C.step F (i, c) = some C') {H : Host}
    {out : List HostOutput} (hhost : (C.host i).step F c = some (H, out))
    (hout : packetsOf out ≠ []) : C'.Clear i.other := by
  obtain ⟨H', out', rest, -, hhost', rfl, -⟩ := step_some hstep
  cases hhost.symm.trans hhost'
  obtain ⟨p, ps, hps⟩ := List.exists_cons_of_ne_nil hout
  refine ⟨rfl, ?_⟩
  have hpend := (wireFraming_mends.pending (C.host i.other).parser (C.wire i.other) p).sendAll ps
  rw [List.append_assoc] at hpend
  rw [after_host_other, after_wire_other, hps]
  exact hpend.clean

/-- A ping mends the way there. -/
theorem clear_of_ping {c : HostAction} (hc : c.pingPayload ≠ none)
    (hstep : C.step F (i, c) = some C') :
    C'.Clear i.other ∧ (C.Clear i.other → (C'.onWire i.other).filterMap Packet.pingPayload ≠ []) := by
  obtain ⟨H, out, hhost, -, -, -, hthat⟩ := step_queues hstep
  have hpings := Host.step_pings hhost
  obtain ⟨v, hv⟩ := Option.ne_none_iff_exists'.mp hc
  rw [hv] at hpings
  refine ⟨clear_of_sent hstep hhost fun hnil => ?_, fun hclear => ?_⟩
  · rw [hnil] at hpings
    cases hpings
  · rw [(hthat hclear).1, List.filterMap_append, hpings]
    exact List.append_ne_nil_of_right_ne_nil _ (List.cons_ne_nil _ _)

/-- The way to the other device is mended, and the way back is when it has read a ping. -/
structure Mending (i : Side) (C : Cable) : Prop where
  clear : C.Clear i.other
  back : (C.onWire i.other).filterMap Packet.pingPayload ≠ [] ∨ C.Clear i

theorem Mending.step (h : Mending i C) {c : HostAction} (hstep : C.step F (j, c) = some C') :
    Mending i C' := by
  obtain ⟨H, out, hhost, -, htaken, hself, hthat⟩ := step_queues hstep
  obtain rfl | rfl := j.eq_or_other i
  · obtain ⟨hsent, hclear⟩ := hthat h.clear
    refine ⟨hclear, h.back.imp (fun hping => ?_) hself⟩
    rw [hsent, filterMap_append_ne_nil]
    exact .inl hping
  · obtain ⟨hclear, hback⟩ := h
    rw [Side.other_other] at hclear hback
    refine ⟨by rw [Side.other_other]; exact hself hclear, ?_⟩
    rw [Side.other_other]
    rcases hback with hping | hback
    · rw [htaken, filterMap_append_ne_nil] at hping
      refine hping.symm.imp_right fun hread => clear_of_sent hstep hhost fun hnil => hread ?_
      rw [← Host.step_echoes hhost, hnil]
      rfl
    · exact .inr (hthat hback).2

/-- `i` has called `ping`, and later the other device has had taken all bytes. -/
def Round (F : OnFull UInt8) (i : Side) (C C' : Cable) : Prop :=
  ∃ c C₁ cs C₂ cs', HostAction.pingPayload c ≠ none ∧ C.step F (i, c) = some C₁ ∧
    Runs.run (Cable.step F) C₁ cs = some C₂ ∧ C₂.wire i.other = [] ∧
    Runs.run (Cable.step F) C₂ cs' = some C'

/-- The first round mends the way there. -/
theorem Round.there (h : Round F i C C') : C'.Clear i.other := by
  obtain ⟨c, C₁, cs, C₂, cs', hc, hstep, hrun, -, hrun'⟩ := h
  exact ((clear_of_ping hc hstep).1.run hrun).run hrun'

/-- The second one mends the way back. -/
theorem Round.back (h : Round F i C C') (hclear : C.Clear i.other) : C'.Clear i := by
  obtain ⟨c, C₁, cs, C₂, cs', hc, hstep, hrun, hall, hrun'⟩ := h
  obtain ⟨hthere, hping⟩ := clear_of_ping hc hstep
  have hmending : Mending i C₂ := run_always (I := Mending i) (fun _ _ _ hC hstep => hC.step hstep)
    ⟨hthere, .inl (hping hclear)⟩ hrun
  refine Clear.run (hmending.back.resolve_left fun hne => hne ?_) hrun'
  rw [onWire_nil hall]
  rfl

/-- **The third ping is answered.**  From any state of the two devices and of the bytes on the
cable: when a device has pinged twice, the other one has had taken all bytes each time, and it
pings again, then `ping` returns the time that has passed, as soon as the other device has taken
all bytes and a pass that is in time takes all that have come back.  What was there at first must
not make that pass store behind `data_buf`. -/
theorem third_ping (F : OnFull UInt8) (i : Side) (C₀ C₁ C₂ : Cable) (hfirst : Round F i C₀ C₁)
    (hsecond : Round F i C₁ C₂) (dest : UInt8) (timeoutMs clock start : UInt32) (C₃ : Cable)
    (hping : C₂.step F (i, .device (.ping dest timeoutMs clock start)) = some C₃)
    (cs : List (Side × HostAction)) (C : Cable) (hrun : run (Cable.step F) C₃ cs = some C)
    (hcall : (C.host i).call = .pinging dest timeoutMs clock.toUInt16 start)
    (hall : C.wire i.other = []) (now : UInt32) (bytes : List Incoming)
    (hbytes : bytes.map Incoming.byte = C.wire i) (hin : (C.host i).parser.InBuffer (C.wire i))
    (htime : now - start < timeoutMs) (after : UInt32) :
    ∃ C', C.step F (i, .device (.pass now bytes after)) = some C' ∧ (C'.host i).call = .idle ∧
      resultsOf (C'.log i) = resultsOf (C.log i) ++ [asInt (after - start).toNat] := by
  have hback := hsecond.back hfirst.there
  have hidle : (C₂.host i).call = .idle := by
    obtain ⟨o, -, ho, -⟩ := step_device hping
    exact (Device.begin_some (Device.step_perform F ho)).1
  have hclear : ∀ j, C₂.Clear j := by
    intro j
    obtain rfl | rfl := i.eq_or_other j
    · exact hback
    · exact hsecond.there
  exact (((answering_of_idle hclear hidle).step hping).run hrun).pinged hcall hall hbytes hin
    htime after

end Cable

/-! ## The worst case -/

/-- A device that has taken the first bytes of a frame. -/
def cutOff (H : Host) : Host :=
  { H with parser := { H.parser with state := .data, dataLength := 20, dataPos := 9 } }

/-- Two such devices, and all that is still to come of their frames is an escape. -/
def spoilt : Cable where
  host i := cutOff (twoDevices.host i)
  wire _ := [0xAA]

theorem spoilt_begins : spoilt.Begins where
  log _ := rfl
  heard _ := rfl

def strayEscape : Incoming := ⟨0xAA, fun _ => 0⟩

def pingBytes (payload : UInt16) : List Incoming := bytesFor (.pingPack ⟨6, 2, 1, payload⟩)

def echoBytes (payload : UInt16) : List Incoming := bytesFor (.pingEchoPack ⟨6, 1, 2, payload⟩)

/-- The client's device pings, and the server's takes `bytes`. -/
def asks (clock : UInt32) (bytes : List Incoming) : List (Side × HostAction) :=
  [(.left, .device (.ping 1 1000 clock 0)), (.right, .device (.read bytes))]

/-- The client's device takes `bytes`, and its time is over. -/
def givesUp (bytes : List Incoming) : List (Side × HostAction) :=
  [(.left, .device (.pass 3 bytes 3)), (.left, .device (.pass 1000 [] 1000))]

theorem spoilt_heals : ∃ C junk, run (Cable.step (OnFull.refuse UInt8)) spoilt
      (asks 7 (strayEscape :: pingBytes 7) ++ givesUp [strayEscape] ++ asks 8 (pingBytes 8)) = some C ∧
    C.heard .right ++ C.onWire .right = junk ++ [.pingPack ⟨6, 2, 1, 8⟩] := by
  have hends : (run (Cable.step (OnFull.refuse UInt8)) spoilt
      (asks 7 (strayEscape :: pingBytes 7) ++ givesUp [strayEscape] ++ asks 8 (pingBytes 8))).map
        (fun C => packetsOf (C.log .left)) =
      some [.pingPack ⟨6, 2, 1, 7⟩, .pingPack ⟨6, 2, 1, 8⟩] := by decide +kernel
  obtain ⟨C, hrun, hsent⟩ := Option.map_eq_some_iff.mp hends
  obtain ⟨junk, hjunk, -⟩ := Cable.heals (OnFull.refuse UInt8) spoilt spoilt_begins _ C hrun .right
    _ _ hsent
  exact ⟨C, junk, hrun, hjunk⟩

/-- The first ping is not made out, nor is the echo of the second one. -/
theorem spoilt_third_ping : ∃ C₂ C C', run (Cable.step (OnFull.refuse UInt8)) spoilt
      (asks 7 (strayEscape :: pingBytes 7) ++ givesUp [strayEscape] ++
        asks 8 (pingBytes 8) ++ givesUp (echoBytes 8)) = some C₂ ∧
    resultsOf (C₂.log .left) = [Error.timeout, Error.timeout] ∧
    run (Cable.step (OnFull.refuse UInt8)) C₂ (asks 9 (pingBytes 9)) = some C ∧
    C.step (OnFull.refuse UInt8) (.left, .device (.pass 3 (echoBytes 9) 3)) = some C' ∧
    resultsOf (C'.log .left) = resultsOf (C.log .left) ++ [3] := by
  let F := OnFull.refuse UInt8
  have hends : ((run (Cable.step F) spoilt (asks 7 (strayEscape :: pingBytes 7))).bind fun A =>
      (run (Cable.step F) A (givesUp [strayEscape])).bind fun C₁ =>
      (run (Cable.step F) C₁ (asks 8 (pingBytes 8))).bind fun B =>
      (run (Cable.step F) B (givesUp (echoBytes 8))).bind fun C₂ =>
      (C₂.step F (.left, .device (.ping 1 1000 9 0))).bind fun C₃ =>
      (C₃.step F (.right, .device (.read (pingBytes 9)))).map fun C =>
        decide (A.wire .right = [] ∧ B.wire .right = [] ∧
          resultsOf (C₂.log .left) = [Error.timeout, Error.timeout] ∧
          (C.host .left).call = .pinging 1 1000 9 0 ∧ C.wire .right = [] ∧
          (C.host .left).parser.InBuffer (C.wire .left) ∧
          (echoBytes 9).map Incoming.byte = C.wire .left)) = some true := by decide +kernel
  obtain ⟨A, hrunA, hA⟩ := Option.bind_eq_some_iff.mp hends
  obtain ⟨C₁, hrun₁, h₁⟩ := Option.bind_eq_some_iff.mp hA
  obtain ⟨B, hrunB, hB⟩ := Option.bind_eq_some_iff.mp h₁
  obtain ⟨C₂, hrun₂, h₂⟩ := Option.bind_eq_some_iff.mp hB
  obtain ⟨C₃, hping, h₃⟩ := Option.bind_eq_some_iff.mp h₂
  obtain ⟨C, hread, hC⟩ := Option.map_eq_some_iff.mp h₃
  obtain ⟨hwireA, hwireB, hret₂, hcall, hall, hin, hback⟩ := of_decide_eq_true hC
  obtain ⟨A₀, hstepA, hreadA⟩ := run_cons.mp hrunA
  obtain ⟨B₀, hstepB, hreadB⟩ := run_cons.mp hrunB
  have hfirst : Cable.Round F .left spoilt C₁ :=
    ⟨_, A₀, _, A, _, by decide, hstepA, hreadA, hwireA, hrun₁⟩
  have hsecond : Cable.Round F .left C₁ C₂ :=
    ⟨_, B₀, _, B, _, by decide, hstepB, hreadB, hwireB, hrun₂⟩
  obtain ⟨C', hstep, -, hres⟩ := Cable.third_ping F .left spoilt C₁ C₂ hfirst hsecond 1 1000 9 0 C₃
    hping [(.right, .device (.read (pingBytes 9)))] C (run_cons.mpr ⟨C, hread, rfl⟩) hcall hall 3
    (echoBytes 9) hback hin (by decide) 3
  rw [show asInt ((3 : UInt32) - 0).toNat = 3 by decide] at hres
  refine ⟨C₂, C, C', ?_, hret₂, run_cons.mpr ⟨C₃, hping, run_cons.mpr ⟨C, hread, rfl⟩⟩, hstep, hres⟩
  rw [run_append, run_append, run_append, hrunA]
  dsimp only [Option.bind_some]
  rw [hrun₁]
  dsimp only [Option.bind_some]
  rw [hrunB]
  exact hrun₂

end PicoLan
