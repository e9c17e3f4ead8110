import PicoLan.Addresses
import PicoLan.Host.Cable

/-!
# The interfaces' own packets

The bytes of the cable are a queue of packets: what a device has handled, and then what is
still on its way to it, is what the other one has sent (`Cable.queue`).  A ping and a request
for the addresses are answered once each and in order (`Cable.answered`).
-/

namespace PicoLan

open Runs

/-! ## What an interface says -/

namespace Device

variable {β : Type} (F : OnFull UInt8) {g : Packet → Option β}

/-- What the interface answers by itself. -/
def answer (address : UInt8) : Packet → Option Packet
  | .getAddrListPack _ => some (.addrPack ⟨AddressField.only address⟩)
  | .pingPack p => some (.pingEchoPack
    { ttl := 6, sourceAddr := address, destAddr := p.sourceAddr, payload := p.payload })
  | _ => none

/-- All other packets sent are datagrams. -/
theorem handle_answers (hg : ∀ p, g (.datagramPack p) = none) (D : Device) (behind : Nat → UInt8)
    (p : Packet) : (D.handle F behind p).2.filterMap g = ([p].filterMap (answer D.address)).filterMap g := by
  cases p with
  | datagramPack p =>
    show (List.map _ _).filterMap g = []
    simp [List.filterMap_map, hg]
  | _ => rfl

theorem handleAll_answers (hg : ∀ p, g (.datagramPack p) = none) (D : Device) (behind : Nat → UInt8)
    (ps : List Packet) :
    (D.handleAll F behind ps).2.filterMap g = (ps.filterMap (answer D.address)).filterMap g := by
  induction ps generalizing D with
  | nil => rfl
  | cons p ps ih =>
    have haddr := (handle_left F D behind p).1.address
    show (List.append _ _).filterMap g = _
    rw [show p :: ps = [p] ++ ps by rfl, List.filterMap_append, List.filterMap_append,
      ← handle_answers F hg D behind p, ← haddr, ← ih]
    exact List.filterMap_append

theorem read_answers (hg : ∀ p, g (.datagramPack p) = none) (D : Device) (bytes : List Incoming) :
    (D.read F bytes).sent.filterMap g =
      ((D.incoming bytes).filterMap (answer D.address)).filterMap g := by
  induction bytes generalizing D with
  | nil => rfl
  | cons b bs ih =>
    obtain ⟨hhandled, hparser, hleft⟩ := readByte_left F D b
    have hsplit : D.incoming (b :: bs) =
        calls (D.parser.read b.byte).2 ++ (D.readByte F b).device.incoming bs := by
      unfold incoming
      rw [hparser]
      exact calls_append _ _
    have hone : (D.readByte F b).sent.filterMap g =
        ((calls (D.parser.read b.byte).2).filterMap (answer D.address)).filterMap g :=
      handleAll_answers F hg { D with parser := (D.parser.read b.byte).1 } b.behind _
    show (List.append _ _).filterMap g = _
    rw [hsplit, List.filterMap_append, List.filterMap_append, ← hone, ← hleft.address, ← ih]
    exact List.filterMap_append

end Device

namespace Host

variable {β : Type} {F : OnFull UInt8} {g : Packet → Option β}

/-- What the application makes the interface say. -/
def asked (H : Host) : HostAction → List Packet
  | .device (.setAddress addr) => [.addrPack ⟨AddressField.only addr⟩]
  | .device (.getAddrList _ _) => [.getAddrListPack ⟨6⟩]
  | .device (.ping dest _ clock _) => [.pingPack
    { ttl := 6, sourceAddr := H.address, destAddr := dest, payload := clock.toUInt16 }]
  | .subscribe l sub =>
    match H.object l with
    | .datagram s => [.subscribePack (Datagram.subscribe s H.address sub)]
    | .stream _ _ => []
  | _ => []

theorem packetsOf_outputs (hg : ∀ p, g (.datagramPack p) = none) (l : Nat) (out : List Output) :
    (packetsOf (out.map (.socket l))).filterMap g = [] := by
  simp [List.filterMap_map, hg]

theorem storeDatagram_packets (H : Host) (l : Nat) (r : Socket × List UInt8) (len : Nat)
    (late : Bool) : packetsOf (H.storeDatagram l r len late).2 = [] := by
  unfold storeDatagram
  split <;> rfl

theorem device_said {H : Host} {a : DeviceAction} {o : Device.Outcome}
    (hg : ∀ p, g (.datagramPack p) = none) (ho : H.toDevice.step F a = some o)
    (ha : ∀ object, a ≠ .sockets object) : (packetsOf (H.toDevice.log F a o)).filterMap g =
      ((H.incoming (H.toDevice.taken a)).filterMap (Device.answer H.address)).filterMap g ++
        (H.asked (.device a)).filterMap g := by
  have hreads : (packetsOf (H.toDevice.readLog F (H.toDevice.taken a) ++
      (o.returned.map HostOutput.ret).toList)).filterMap g =
        ((H.incoming (H.toDevice.taken a)).filterMap (Device.answer H.address)).filterMap g ++ [] := by
    rw [packetsOf_append, Device.packetsOf_readLog, Device.packetsOf_ret, List.append_nil,
      List.append_nil]
    exact Device.read_answers F hg H.toDevice _
  cases a with
  | read bytes => exact hreads
  | pass now bytes after => exact hreads
  | sockets object => exact absurd rfl (ha object)
  | _ =>
    rw [(Device.step_effect F ho ha).packets]
    obtain ⟨-, rfl⟩ := Device.begin_some (Device.step_perform F ho)
    rfl

/-- **What a step says**: answers to what it hears, and what it is asked to. -/
theorem step_said {H H' : Host} {c : HostAction} {out : List HostOutput}
    (hg : ∀ p, g (.datagramPack p) = none) (h : H.step F c = some (H', out)) :
    (packetsOf out).filterMap g =
      ((H.incoming (H.taken c)).filterMap (Device.answer H.address)).filterMap g ++
        (H.asked c).filterMap g := by
  have hread := Device.read_answers F hg H.toDevice
  generalize hr : (H', out) = r at h
  cases step_did F h with
  | @device a o hrun ha ho =>
    cases hr
    exact device_said hg ho ha
  | @destroy m hidle hrun =>
    cases hr
    rfl
  | socket =>
    cases hr
    exact packetsOf_outputs hg _ _
  | @write l dest port data s hobj =>
    cases hr
    exact packetsOf_outputs hg _ _
  | @subscribe l sub s hobj =>
    cases hr
    unfold asked
    dsimp only
    rw [hobj]
    rfl
  | @receive l len s hobj hidle hrun =>
    obtain ⟨rfl, rfl⟩ := Prod.ext_iff.mp hr
    exact congrArg (List.filterMap g) (storeDatagram_packets ..)
  | @pollStream l c bytes late kind socket hrun hobj htop =>
    obtain ⟨rfl, rfl⟩ := Prod.ext_iff.mp hr
    rw [packetsOf_append, Device.packetsOf_readLog, List.filterMap_append, hread]
    exact congrArg _ (packetsOf_outputs hg _ _)
  | @pollDatagram l len got bytes late s hrun hobj =>
    obtain ⟨rfl, rfl⟩ := Prod.ext_iff.mp hr
    rw [packetsOf_append, Device.packetsOf_readLog, List.filterMap_append, hread,
      storeDatagram_packets]
    rfl

end Host

namespace Cable

variable {F : OnFull UInt8} {C C' : Cable} {i : Side}

/-! ## The queue -/

/-- Nothing has been sent yet. -/
structure Fresh (C : Cable) : Prop where
  clean : ∀ i, (C.host i).parser.stuffFlag = false
  wire : ∀ i, C.wire i = []
  acts : ∀ i, C.acts i = []
  log : ∀ i, C.log i = []
  heard : ∀ i, C.heard i = []

/-- The packets on their way to `i`. -/
def onWire (C : Cable) (i : Side) : List Packet := calls ((C.host i).parser.feed (C.wire i)).2

/-- What is on its way to `i` is packets. -/
def Clear (C : Cable) (i : Side) : Prop :=
  wireFraming.Pending (C.host i).parser (C.wire i) (C.onWire i)

theorem clear_of_flag (h : (C.host i).parser.stuffFlag = false) (hw : C.wire i = []) :
    C.Clear i ∧ C.onWire i = [] := by
  have hpend : wireFraming.Pending (C.host i).parser (C.wire i) [] := by
    rw [hw]
    exact .nil h
  have hnil : C.onWire i = [] := hpend.decoded
  exact ⟨by rwa [← hnil] at hpend, hnil⟩

/-- **A step takes packets from one queue and appends some to the other**, if this is one. -/
theorem step_queues {c : HostAction} (hstep : C.step F (i, c) = some C') :
    ∃ H out, (C.host i).step F c = some (H, out) ∧ C' = C.after i c (H, out) ∧
      C.onWire i = (C.host i).incoming ((C.host i).taken c) ++ C'.onWire i ∧
      (C.Clear i → C'.Clear i) ∧ (C.Clear i.other →
        C'.onWire i.other = C.onWire i.other ++ packetsOf out ∧ C'.Clear i.other) := by
  obtain ⟨H, out, rest, hwire, hhost, rfl, hrest⟩ := step_some hstep
  have hparser : (wireFraming.feed (C.host i).parser (((C.host i).taken c).map Incoming.byte)).1 =
      ((C.after i c (H, out)).host i).parser := by
    rw [after_host_self]
    exact (Host.step_parses hhost).symm
  have hmine : C.onWire i = (C.host i).incoming ((C.host i).taken c) ++
      (C.after i c (H, out)).onWire i := by
    show (wireFraming.feed _ (C.wire i)).2 = _
    rw [hwire, wireFraming.feed_append, hparser, ← hrest]
    rfl
  refine ⟨H, out, hhost, rfl, hmine, fun hclear => ?_, fun hclear => ?_⟩
  · refine ⟨rfl, ?_⟩
    have hclean := hclear.clean
    rw [hwire, wireFraming.feed_append, hparser, ← hrest] at hclean
    exact hclean
  · have hsent := hclear.sendAll (packetsOf out)
    have hthat : (C.after i c (H, out)).onWire i.other = C.onWire i.other ++ packetsOf out := by
      unfold onWire
      rw [after_host_other, after_wire_other]
      exact hsent.decoded
    refine ⟨hthat, ?_⟩
    unfold Clear
    rw [hthat, after_host_other, after_wire_other]
    exact hsent

/-- What a step leaves on the cable keeps to `data_buf`, too, if all that was there are packets. -/
theorem step_inBuffer {c : HostAction} (hstep : C.step F (i, c) = some C') (hclear : C.Clear i.other)
    (hin : ∀ j, (C.host j).parser.InBuffer (C.wire j)) (j : Side) :
    (C'.host j).parser.InBuffer (C'.wire j) := by
  obtain ⟨H, out, rest, hwire, hhost, rfl, hrest⟩ := step_some hstep
  obtain rfl | rfl := i.eq_or_other j
  · have hall := hin j
    rw [hwire, ParserSerialiser.inBuffer_append, ← Host.step_parses hhost] at hall
    rw [after_host_self, hrest]
    exact hall.2
  · rw [after_host_other, after_wire_other]
    exact ParserSerialiser.inBuffer_append.mpr ⟨hin _, inBuffer_encodeAll hclear.clean _⟩

/-- The bytes are packets, in the order in which they have been sent, and no read of them stores
behind `data_buf`. -/
structure Queued (C : Cable) : Prop where
  pending : ∀ i, wireFraming.Pending (C.host i).parser (C.wire i) (C.onWire i)
  sent : ∀ i, packetsOf (C.log i.other) = C.heard i ++ C.onWire i
  inBuffer : ∀ i, (C.host i).parser.InBuffer (C.wire i)

theorem Fresh.clear (h : C.Fresh) (i : Side) : C.Clear i ∧ C.onWire i = [] :=
  clear_of_flag (h.clean i) (h.wire i)

theorem Fresh.queued (h : C.Fresh) : C.Queued := by
  refine ⟨fun i => (h.clear i).1, fun i => ?_, fun i => ?_⟩
  · rw [h.log, h.heard, (h.clear i).2]
    rfl
  · rw [h.wire]
    exact ParserSerialiser.inBuffer_nil _

theorem Queued.step {c : HostAction} (h : C.Queued) (hstep : C.step F (i, c) = some C') :
    ∃ H out, (C.host i).step F c = some (H, out) ∧ C' = C.after i c (H, out) ∧
      C.onWire i = (C.host i).incoming ((C.host i).taken c) ++ C'.onWire i ∧
      C'.onWire i.other = C.onWire i.other ++ packetsOf out ∧ C'.Queued := by
  obtain ⟨H, out, hhost, rfl, hmine, hself, hthat⟩ := step_queues hstep
  obtain ⟨hthat, hclear⟩ := hthat (h.pending i.other)
  refine ⟨H, out, hhost, rfl, hmine, hthat, fun j => ?_, fun j => ?_,
    step_inBuffer hstep (h.pending i.other) h.inBuffer⟩
  · obtain rfl | rfl := i.eq_or_other j
    · exact hself (h.pending _)
    · exact hclear
  · obtain rfl | rfl := i.eq_or_other j
    · rw [after_log_other, after_heard_self, h.sent, List.append_assoc]
      exact congrArg _ hmine
    · rw [hthat, after_heard_other, Side.other_other, after_log_self, packetsOf_append,
        ← List.append_assoc, ← h.sent, Side.other_other]

theorem Queued.run {cs : List (Side × HostAction)} (h : C.Queued)
    (hrun : Runs.run (Cable.step F) C cs = some C') : C'.Queued := by
  refine run_always (I := Queued) ?_ h hrun
  rintro C ⟨i, c⟩ C' hC hstep
  obtain ⟨-, -, -, -, -, -, hqueued⟩ := hC.step hstep
  exact hqueued

/-- **The cable is a queue of packets.**  Whatever the two devices do and however the bytes are
cut into reads, each handles the packets that the other one has sent, each of them once and in
order, and the bytes still on their way are the rest. -/
theorem queue (F : OnFull UInt8) (C : Cable) (h : C.Fresh) (cs : List (Side × HostAction)) (C' : Cable)
    (hrun : Runs.run (Cable.step F) C cs = some C') (i : Side) :
    packetsOf (C'.log i.other) = C'.heard i ++ C'.onWire i := (h.queued.run hrun).sent i

end Cable

/-! ## Pings -/

/-- The payload of a ping. -/
def Packet.pingPayload : Packet → Option UInt16
  | .pingPack p => some p.payload
  | _ => none

def Packet.echoPayload : Packet → Option UInt16
  | .pingEchoPack p => some p.payload
  | _ => none

/-- The payload that a call of `ping` sends. -/
def HostAction.pingPayload : HostAction → Option UInt16
  | .device (.ping _ _ clock _) => some clock.toUInt16
  | _ => none

namespace Host

variable {F : OnFull UInt8} {H H' : Host} {c : HostAction} {out : List HostOutput}

/-- Only an application makes an interface ping. -/
theorem step_pings (h : H.step F c = some (H', out)) :
    (packetsOf out).filterMap Packet.pingPayload = c.pingPayload.toList := by
  have hanswers : ∀ ps : List Packet,
      (ps.filterMap (Device.answer H.address)).filterMap Packet.pingPayload = [] := by
    intro ps
    rw [List.filterMap_filterMap, List.filterMap_eq_nil_iff]
    intro p _
    cases p <;> rfl
  rw [step_said (fun _ => rfl) h, hanswers, List.nil_append]
  cases c with
  | device a => cases a <;> rfl
  | subscribe l sub =>
    unfold asked
    dsimp only
    split <;> rfl
  | _ => rfl

/-- Each ping that is read is echoed. -/
theorem step_echoes (h : H.step F c = some (H', out)) :
    (packetsOf out).filterMap Packet.echoPayload =
      (H.incoming (H.taken c)).filterMap Packet.pingPayload := by
  have hasked : (H.asked c).filterMap Packet.echoPayload = [] := by
    cases c with
    | device a => cases a <;> rfl
    | subscribe l sub =>
      unfold asked
      dsimp only
      split <;> rfl
    | _ => rfl
  rw [step_said (fun _ => rfl) h, hasked, List.append_nil, List.filterMap_filterMap]
  refine List.filterMap_congr fun p _ => ?_
  cases p <;> rfl

end Host

namespace Cable

variable {F : OnFull UInt8} {C C' : Cable} {cs : List (Side × HostAction)}

theorem log_pings (h : C.Fresh) (hrun : Runs.run (Cable.step F) C cs = some C') (i : Side) :
    (packetsOf (C'.log i)).filterMap Packet.pingPayload =
      (C'.acts i).filterMap HostAction.pingPayload := by
  refine run_always (I := fun C => ∀ i, (packetsOf (C.log i)).filterMap Packet.pingPayload =
    (C.acts i).filterMap HostAction.pingPayload) ?_ (fun i => ?_) hrun i
  · rintro C ⟨i, c⟩ C' hC hstep j
    obtain ⟨H, out, -, -, hhost, rfl, -⟩ := step_some hstep
    obtain rfl | rfl := i.eq_or_other j
    · rw [after_log_self, after_acts_self, packetsOf_append, List.filterMap_append, hC,
        Host.step_pings hhost, List.filterMap_append]
      cases hc : c.pingPayload <;> simp [hc]
    · rw [after_log_other, after_acts_other]
      exact hC _
  · rw [h.log, h.acts]
    rfl

theorem log_echoes (h : C.Fresh) (hrun : Runs.run (Cable.step F) C cs = some C') (i : Side) :
    (packetsOf (C'.log i)).filterMap Packet.echoPayload =
      (C'.heard i).filterMap Packet.pingPayload := by
  refine run_always (I := fun C => ∀ i, (packetsOf (C.log i)).filterMap Packet.echoPayload =
    (C.heard i).filterMap Packet.pingPayload) ?_ (fun i => ?_) hrun i
  · rintro C ⟨i, c⟩ C' hC hstep j
    obtain ⟨H, out, -, -, hhost, rfl, -⟩ := step_some hstep
    obtain rfl | rfl := i.eq_or_other j
    · rw [after_log_self, after_heard_self, packetsOf_append, List.filterMap_append, hC,
        Host.step_echoes hhost, List.filterMap_append]
    · rw [after_log_other, after_heard_other]
      exact hC _
  · rw [h.log, h.heard]
    rfl

/-- The echoes that have come are those of the first pings handled. -/
theorem echoes_first (h : C.Fresh) (hrun : Runs.run (Cable.step F) C cs = some C') (i : Side) :
    (C'.heard i).filterMap Packet.echoPayload <+:
      (C'.heard i.other).filterMap Packet.pingPayload := by
  have hmine := congrArg (List.filterMap Packet.echoPayload) ((h.queued.run hrun).sent i)
  rw [log_echoes h hrun, List.filterMap_append] at hmine
  exact ⟨_, hmine.symm⟩

/-- The pings that have come are the first ones sent. -/
theorem pings_first (h : C.Fresh) (hrun : Runs.run (Cable.step F) C cs = some C') (i : Side) :
    (C'.heard i.other).filterMap Packet.pingPayload <+:
      (C'.acts i).filterMap HostAction.pingPayload := by
  have hthat := congrArg (List.filterMap Packet.pingPayload) ((h.queued.run hrun).sent i.other)
  rw [Side.other_other, log_pings h hrun, List.filterMap_append] at hthat
  exact ⟨_, hthat.symm⟩

/-- **Each ping is answered once, and in order.**  The echoes that a device has handled are
those of the first pings that the other one has handled, and these are the first that its
application has sent; when nothing is on its way they are all of them. -/
theorem answered (F : OnFull UInt8) (C : Cable) (h : C.Fresh) (cs : List (Side × HostAction))
    (C' : Cable) (hrun : Runs.run (Cable.step F) C cs = some C') (i : Side) :
    (C'.heard i).filterMap Packet.echoPayload <+: (C'.heard i.other).filterMap Packet.pingPayload ∧
    (C'.heard i.other).filterMap Packet.pingPayload <+:
      (C'.acts i).filterMap HostAction.pingPayload ∧
    (C'.onWire i = [] → C'.onWire i.other = [] →
      (C'.heard i).filterMap Packet.echoPayload = (C'.acts i).filterMap HostAction.pingPayload) := by
  refine ⟨echoes_first h hrun i, pings_first h hrun i, fun hw hw' => ?_⟩
  have hq := h.queued.run hrun
  have hmine := congrArg (List.filterMap Packet.echoPayload) (hq.sent i)
  have hthat := congrArg (List.filterMap Packet.pingPayload) (hq.sent i.other)
  rw [log_echoes h hrun, hw, List.append_nil] at hmine
  rw [Side.other_other, log_pings h hrun, hw', List.append_nil] at hthat
  rw [hthat, hmine]

end Cable

theorem twoDevices_fresh : twoDevices.Fresh where
  clean i := by cases i <;> rfl
  wire _ := rfl
  acts _ := rfl
  log _ := rfl
  heard _ := rfl

theorem oneCall_queued : ∃ C, run (Cable.step (OnFull.refuse UInt8)) twoDevices oneCall = some C ∧
    packetsOf (C.log .left) = C.heard .right ++ C.onWire .right := by
  obtain ⟨C, hrun⟩ : ∃ C, run (Cable.step (OnFull.refuse UInt8)) twoDevices oneCall = some C :=
    Option.isSome_iff_exists.mp (by decide +kernel)
  exact ⟨C, hrun, Cable.queue (OnFull.refuse UInt8) twoDevices twoDevices_fresh oneCall C hrun .right⟩

/-- The client's device pings the server's. -/
def onePing : List (Side × HostAction) :=
  [(.left, .device (.ping 1 1000 7 0)),
    (.right, .device (.read (bytesFor (.pingPack ⟨6, 2, 1, 7⟩)))),
    (.left, .device (.pass 3 (bytesFor (.pingEchoPack ⟨6, 1, 2, 7⟩)) 3))]

theorem onePing_answered : ∃ C, run (Cable.step (OnFull.refuse UInt8)) twoDevices onePing = some C ∧
    (C.heard .left).filterMap Packet.echoPayload <+: (C.acts .left).filterMap HostAction.pingPayload := by
  obtain ⟨C, hrun⟩ : ∃ C, run (Cable.step (OnFull.refuse UInt8)) twoDevices onePing = some C :=
    Option.isSome_iff_exists.mp (by decide +kernel)
  obtain ⟨hecho, hping, -⟩ := Cable.answered (OnFull.refuse UInt8) twoDevices twoDevices_fresh onePing
    C hrun .left
  exact ⟨C, hrun, hecho.trans hping⟩

end PicoLan
