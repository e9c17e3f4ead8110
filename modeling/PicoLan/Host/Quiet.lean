import PicoLan.Host.Answers

/-!
# Silence

A handler sends at most one packet, and only for a packet that asks for one; no answer asks
for another.  So when the applications do nothing but read, the packets still sent are no
more than those that ask on the cable (`Cable.silence`), and three reads of all there is
leave nothing on it (`Cable.settles`).
-/

namespace PicoLan

open Runs

/-- There may be an answer.  Of a stream's packets these are the DATA frames; what a packet
without payload is taken for depends on the memory behind it. -/
def Packet.asks : Packet → Bool
  | .getAddrListPack _ => true
  | .pingPack _ => true
  | .datagramPack p => p.payload.toList.head?.all (· = MessageType.data)
  | _ => false

theorem Packet.asks_datagram (p : DatagramPack) :
    (Packet.datagramPack p).asks = p.payload.toList.head?.all (· = MessageType.data) := rfl

/-- At most `n` packets, which ask for nothing. -/
structure Answering (n : Nat) (ps : List Packet) : Prop where
  few : ps.length ≤ n
  last : ∀ p ∈ ps, p.asks = false

namespace Answering

variable {m n : Nat} {ps qs : List Packet}

theorem nil : Answering n [] := ⟨Nat.zero_le n, fun _ hp => absurd hp List.not_mem_nil⟩

theorem append (h : Answering m ps) (h' : Answering n qs) : Answering (m + n) (ps ++ qs) := by
  constructor
  · rw [List.length_append]
    exact Nat.add_le_add h.few h'.few
  · intro p hp
    rcases List.mem_append.mp hp with hp | hp
    · exact h.last p hp
    · exact h'.last p hp

theorem mono (h : Answering m ps) (hmn : m ≤ n) : Answering n ps := ⟨h.few.trans hmn, h.last⟩

theorem countP (h : Answering n ps) : ps.countP Packet.asks = 0 :=
  List.countP_eq_zero.mpr fun p hp => by simp [h.last p hp]

end Answering

/-! ## One packet -/

/-- The packets that may answer `p`. -/
def Packet.answers (p : Packet) : Nat := if p.asks then 1 else 0

namespace Interface

variable (F : OnFull UInt8)

theorem ack_answering (s : SocketStream) (address n : UInt8) :
    Answering 1 [.datagramPack (s.message address [MessageType.ack, n])] := by
  refine ⟨Nat.le_refl 1, fun p hp => ?_⟩
  obtain rfl := List.mem_singleton.mp hp
  rw [Packet.asks_datagram, message_payload]
  rfl

/-- A DATA frame is among the datagrams that ask. -/
theorem asks_of_data {a : Arrival} (h : a.data.cell 0 = MessageType.data) :
    (Packet.datagramPack a.pack).asks = true := by
  rw [Packet.asks_datagram]
  cases hpay : a.pack.payload.toList with
  | nil => rfl
  | cons t rest =>
    have hcell : a.data.cell 0 = t := by simp [Arrival.data, hpay]
    exact decide_eq_true (hcell.symm.trans h)

theorem receive_answering (b : Bound) (address : UInt8) (a : Arrival) :
    Answering (Packet.datagramPack a.pack).answers
      ((b.receive F address a).2.map .datagramPack) := by
  cases b with
  | datagram s => exact .nil
  | stream k s =>
    have hr := SocketStream.receive_reaction F k s address a
    show Answering _ ((s.receive F k address a).2.map _)
    unfold Packet.answers
    generalize s.receive F k address a = io at hr
    cases hr with
    | accepted _ hd =>
      rw [if_pos (asks_of_data hd)]
      exact ack_answering ..
    | refused _ hd =>
      rw [if_pos (asks_of_data hd)]
      exact ack_answering ..
    | _ => exact .nil

/-- All sockets of the list that have the port may answer. -/
theorem foldl_offer_answering (a : Arrival) (ls : List Nat)
    (io : Interface × List (Nat × DatagramPack)) {n : Nat}
    (h : Answering n (io.2.map fun o => .datagramPack o.2)) :
    Answering (n + (ls.filter fun l => (io.1.object l).port == a.pack.port).length *
        (Packet.datagramPack a.pack).answers)
      ((ls.foldl (offer F a) io).2.map fun o => .datagramPack o.2) := by
  induction ls generalizing io n with
  | nil =>
    rw [List.filter_nil, List.length_nil, Nat.zero_mul]
    exact h
  | cons l ls ih =>
    have hports : (fun m => ((offer F a io l).1.object m).port == a.pack.port) =
        fun m => (io.1.object m).port == a.pack.port := by
      funext m
      rw [offer_port]
    by_cases hp : (io.1.object l).port = a.pack.port
    · have hone : Answering (n + (Packet.datagramPack a.pack).answers)
          ((offer F a io l).2.map fun o => .datagramPack o.2) := by
        unfold offer
        rw [if_pos hp]
        dsimp only
        rw [List.map_append, List.map_map]
        exact h.append (receive_answering F _ _ a)
      have hrest := ih (offer F a io l) hone
      rw [hports] at hrest
      rw [List.filter_cons, if_pos (beq_iff_eq.mpr hp), List.length_cons, Nat.succ_mul]
      exact hrest.mono (by omega)
    · have hskip : offer F a io l = io := if_neg hp
      have hrest := ih io h
      rw [List.filter_cons, if_neg (mt beq_iff_eq.mp hp), List.foldl_cons, hskip]
      exact hrest

end Interface

namespace Device

variable (F : OnFull UInt8)

theorem handle_answering (D : Device) (hd : D.Distinct) (behind : Nat → UInt8) (p : Packet) :
    Answering p.answers (D.handle F behind p).2 ∧ (D.handle F behind p).1.Distinct := by
  have hone : ∀ q : Packet, q.asks = false → Answering 1 [q] := fun q hq =>
    ⟨Nat.le_refl 1, fun r hr => List.mem_singleton.mp hr ▸ hq⟩
  cases p with
  | getAddrListPack p => exact ⟨hone _ rfl, hd⟩
  | addrPack p => exact ⟨.nil, hd⟩
  | pingPack p => exact ⟨hone _ rfl, hd⟩
  | pingEchoPack p => exact ⟨.nil, hd⟩
  | subscribePack p => exact ⟨.nil, hd⟩
  | datagramPack p =>
    refine ⟨?_, hd.receives F ⟨p, behind⟩⟩
    show Answering _ ((D.toInterface.datagramPackHandler F ⟨p, behind⟩).2.map _)
    unfold Interface.datagramPackHandler
    split
    · have hport := hd.filter_length p.port
      refine (Interface.foldl_offer_answering F ⟨p, behind⟩ D.sockets.toList
        (D.toInterface, []) (n := 0) .nil).mono ?_
      rw [Nat.zero_add]
      exact (Nat.mul_le_mul_right _ hport).trans_eq (Nat.one_mul _)
    · exact .nil

theorem handleAll_answering (D : Device) (hd : D.Distinct) (behind : Nat → UInt8)
    (ps : List Packet) : Answering (ps.countP Packet.asks) (D.handleAll F behind ps).2 ∧
      (D.handleAll F behind ps).1.Distinct := by
  induction ps generalizing D with
  | nil => exact ⟨.nil, hd⟩
  | cons p ps ih =>
    obtain ⟨hone, hd'⟩ := handle_answering F D hd behind p
    obtain ⟨hrest, hd''⟩ := ih (D.handle F behind p).1 hd'
    refine ⟨(hone.append hrest).mono ?_, hd''⟩
    rw [List.countP_cons, Nat.add_comm]
    exact Nat.le_refl _

theorem read_answering (D : Device) (hd : D.Distinct) (bytes : List Incoming) :
    Answering ((D.incoming bytes).countP Packet.asks) (D.read F bytes).sent := by
  induction bytes generalizing D with
  | nil => exact .nil
  | cons b bs ih =>
    obtain ⟨hhandled, hparser, -⟩ := readByte_left F D b
    obtain ⟨hone, hd'⟩ := handleAll_answering F { D with parser := (D.parser.read b.byte).1 } hd
      b.behind (calls (D.parser.read b.byte).2)
    have hsplit : D.incoming (b :: bs) =
        calls (D.parser.read b.byte).2 ++ (D.readByte F b).device.incoming bs := by
      unfold incoming
      rw [hparser]
      exact calls_append _ _
    rw [hsplit, List.countP_append]
    exact hone.append (ih (D.readByte F b).device hd')

end Device

namespace Host

variable {F : OnFull UInt8} {H H' : Host} {out : List HostOutput} {bytes : List Incoming}

theorem step_read (h : H.step F (.device (.read bytes)) = some (H', out)) :
    packetsOf out = (H.toDevice.read F bytes).sent ∧ H'.call = .idle ∧ H'.running = none := by
  generalize hr : (H', out) = r at h
  cases step_did F h with
  | @device a o hrun ha ho =>
    have hpackets := (Device.step_effect F ho ha).packets
    obtain ⟨hidle, rfl⟩ := Device.begin_some (Device.step_perform F ho)
    cases hr
    exact ⟨hpackets,
      (Device.read_left F H.toDevice bytes).2.2.call.trans hidle, hrun⟩

variable (F) in
theorem idle_reads (hcall : H.call = .idle) (hrunning : H.running = none)
    (hin : H.InBuffer bytes) : ∃ r, H.step F (.device (.read bytes)) = some r := by
  have hread : H.toDevice.step F (.read bytes) = some (H.toDevice.read F bytes) :=
    (Device.step_iff F).mpr ⟨hin, if_pos hcall⟩
  simp only [Host.step, hrunning, hread, Option.map_some]
  exact ⟨_, rfl⟩

end Host

namespace Cable

variable {F : OnFull UInt8} {C C' : Cable} {i : Side}

theorem packet_bytes (p : Packet) : (wireFraming.encode p).length ≤ 128 := by
  have hb := p.body_length.2
  have hcontent : p.content.length = p.body.length + 2 := rfl
  have hsealed : (sealed p.content).length = p.content.length + 2 := List.length_append
  have hstuff := wireScheme.stuff_length (sealed p.content)
  show (p.emit ⟨0, 0, []⟩).length ≤ 128
  rw [Packet.emit_eq, frameBytes, List.length_cons, List.length_append, List.length_singleton]
  omega

/-- The packets on their way to `i` that ask. -/
def requests (C : Cable) (i : Side) : Nat := (C.onWire i).countP Packet.asks

/-- An application reads, and does nothing else. -/
def reading (r : Side × List Incoming) : Side × HostAction := (r.1, .device (.read r.2))

/-- Over both directions. -/
def total (f : Side → Nat) : Nat := f .left + f .right

theorem total_eq (f : Side → Nat) (i : Side) : total f = f i + f i.other := by
  cases i with
  | left => rfl
  | right => exact Nat.add_comm _ _

/-- Between `C` and `C'` the devices have said these answers and read `n` bytes. -/
structure Subsides (C : Cable) (said : Side → List Packet) (n : Nat) (C' : Cable) : Prop where
  sent : ∀ i, packetsOf (C'.log i) = packetsOf (C.log i) ++ said i
  last : ∀ i, ∀ p ∈ said i, p.asks = false
  few : total (fun i => (said i).length) + total C'.requests ≤ total C.requests
  bytes : n + total (fun i => (C'.wire i).length) ≤
    total (fun i => (C.wire i).length) + 128 * total (fun i => (said i).length)

theorem Subsides.refl (C : Cable) : Subsides C (fun _ => []) 0 C where
  sent _ := (List.append_nil _).symm
  last _ _ hp := absurd hp List.not_mem_nil
  few := Nat.le_of_eq (Nat.zero_add _)
  bytes := Nat.le_of_eq (Nat.zero_add _)

theorem Subsides.trans {C₁ C₂ C₃ : Cable} {said said' : Side → List Packet} {m n : Nat}
    (h : Subsides C₁ said m C₂) (h' : Subsides C₂ said' n C₃) :
    Subsides C₁ (fun i => said i ++ said' i) (m + n) C₃ := by
  have hlen : total (fun i => (said i ++ said' i).length) =
      total (fun i => (said i).length) + total (fun i => (said' i).length) := by
    simp only [total, List.length_append]
    omega
  have hfew := h.few
  have hfew' := h'.few
  have hbytes := h.bytes
  have hbytes' := h'.bytes
  refine ⟨fun i => ?_, fun i p hp => ?_, ?_, ?_⟩
  · rw [h'.sent, h.sent, List.append_assoc]
  · rcases List.mem_append.mp hp with hp | hp
    · exact h.last i p hp
    · exact h'.last i p hp
  · omega
  · omega

/-- The answers to what is read are on their way, and none of them asks. -/
theorem step_requests (hq : C.Queued) (hd : (C.host i).Distinct) {bytes : List Incoming}
    (hstep : C.step F (i, .device (.read bytes)) = some C') :
    C'.requests i.other = C.requests i.other := by
  obtain ⟨H, out, hhost, rfl, -, hthat, -⟩ := hq.step hstep
  have hanswer := Device.read_answering F _ hd bytes
  rw [← (Host.step_read hhost).1] at hanswer
  unfold requests
  rw [hthat, List.countP_append, hanswer.countP, Nat.add_zero]

/-- **A read** answers some of the packets that ask. -/
theorem Subsides.step (hq : C.Queued) (hd : (C.host i).Distinct) {bytes : List Incoming}
    (hstep : C.step F (i, .device (.read bytes)) = some C') :
    ∃ said, Subsides C said bytes.length C' := by
  have hkept := step_requests hq hd hstep
  obtain ⟨H, out, hhost, rfl, hmine, -, -⟩ := hq.step hstep
  have hanswer := Device.read_answering F _ hd bytes
  rw [← (Host.step_read hhost).1] at hanswer
  have hself : (Function.update (fun _ => []) i (packetsOf out) : Side → List Packet) i =
      packetsOf out := Function.update_self ..
  have hother : (Function.update (fun _ => []) i (packetsOf out) : Side → List Packet) i.other = [] :=
    Function.update_of_ne i.other_ne ..
  refine ⟨Function.update (fun _ => []) i (packetsOf out), fun j => ?_, fun j p hp => ?_, ?_, ?_⟩
  · obtain rfl | rfl := i.eq_or_other j
    · rw [after_log_self, packetsOf_append, hself]
    · rw [after_log_other, hother, List.append_nil]
  · obtain rfl | rfl := i.eq_or_other j
    · rw [hself] at hp
      exact hanswer.last p hp
    · rw [hother] at hp
      cases hp
  · have hin : C.requests i =
        ((C.host i).incoming bytes ++ (C.after i _ (H, out)).onWire i).countP Packet.asks :=
      congrArg (List.countP Packet.asks) hmine
    rw [List.countP_append] at hin
    have hfew := hanswer.few
    rw [total_eq _ i, total_eq _ i, total_eq _ i, hself, hother, List.length_nil, hkept]
    unfold requests at hin ⊢
    omega
  · obtain ⟨-, -, rest, hwire, -, -, hrest⟩ := step_some hstep
    have hbytes : (C.wire i).length = bytes.length + rest.length := by
      rw [hwire, List.length_append, List.length_map]
      rfl
    have hsent := wireFraming.encodeAll_length packet_bytes (packetsOf out)
    rw [total_eq _ i, total_eq _ i, total_eq _ i, hself, hother, List.length_nil, hrest,
      after_wire_other, List.length_append]
    dsimp only
    omega

/-- What is kept while the applications read. -/
structure Settling (C : Cable) : Prop where
  queued : C.Queued
  distinct : ∀ i, (C.host i).Distinct

theorem Settling.step {c : HostAction} (h : C.Settling) (hstep : C.step F (i, c) = some C') :
    C'.Settling := by
  obtain ⟨H, out, hhost, rfl, -, -, hqueued⟩ := h.queued.step hstep
  refine ⟨hqueued, fun j => ?_⟩
  obtain rfl | rfl := i.eq_or_other j
  · rw [after_host_self]
    exact Host.step_distinct (h.distinct _) hhost
  · rw [after_host_other]
    exact h.distinct _

theorem Settling.run {cs : List (Side × HostAction)} (h : C.Settling)
    (hrun : Runs.run (Cable.step F) C cs = some C') : C'.Settling :=
  run_always (I := Settling) (fun _ _ _ hC hstep => hC.step hstep) h hrun

theorem Settling.reads {reads : List (Side × List Incoming)} (h : C.Settling)
    (hreads : Runs.run (Cable.step F) C (reads.map reading) = some C') :
    ∃ said, Subsides C said (reads.map fun r => r.2.length).sum C' := by
  induction reads generalizing C with
  | nil =>
    cases hreads
    exact ⟨_, .refl _⟩
  | cons r reads ih =>
    obtain ⟨C₁, hstep, hreads⟩ := run_cons.mp hreads
    obtain ⟨said, hone⟩ := Subsides.step h.queued (h.distinct r.1) hstep
    obtain ⟨said', hrest⟩ := ih (h.step hstep) hreads
    rw [List.map_cons, List.sum_cons]
    exact ⟨_, hone.trans hrest⟩

/-- **Silence.**  From every state of every run, while the applications only read: no packet
that is sent asks for an answer, there are no more of them than packets that ask on the cable,
and the reads take no more bytes than there are with 128 for each packet sent. -/
theorem silence (F : OnFull UInt8) (C₀ : Cable) (h : C₀.Fresh) (hd : ∀ i, (C₀.host i).Distinct)
    (cs : List (Side × HostAction)) (C : Cable) (hrun : Runs.run (Cable.step F) C₀ cs = some C)
    (reads : List (Side × List Incoming)) (C' : Cable)
    (hreads : Runs.run (Cable.step F) C (reads.map reading) = some C') :
    ∃ said : Side → List Packet,
      (∀ i, packetsOf (C'.log i) = packetsOf (C.log i) ++ said i ∧ ∀ p ∈ said i, p.asks = false) ∧
      (said .left).length + (said .right).length ≤ C.requests .left + C.requests .right ∧
      (reads.map fun r => r.2.length).sum ≤ (C.wire .left).length + (C.wire .right).length +
        128 * ((said .left).length + (said .right).length) := by
  have hC := Settling.run ⟨h.queued, hd⟩ hrun
  obtain ⟨said, hsaid⟩ := hC.reads hreads
  refine ⟨said, fun i => ⟨hsaid.sent i, hsaid.last i⟩, ?_, ?_⟩
  · exact (Nat.le_add_right _ _).trans hsaid.few
  · exact (Nat.le_add_right _ _).trans hsaid.bytes

/-! ## Reading all there is -/

/-- Whatever lies behind the payloads, the device `i` can read all that has come, and then `P`
holds. -/
def ReadsAll (F : OnFull UInt8) (i : Side) (P : Cable → Prop) (C : Cable) : Prop :=
  ∀ bytes : List Incoming, bytes.map Incoming.byte = C.wire i →
    ∃ C', C.step F (reading (i, bytes)) = some C' ∧ P C'

/-- The device can read. -/
def Idle (C : Cable) (i : Side) : Prop := (C.host i).call = .idle ∧ (C.host i).running = none

theorem reads_all (hC : C.Settling) (hidle : ∀ j, C.Idle j) {bytes : List Incoming}
    (hbytes : bytes.map Incoming.byte = C.wire i) :
    ∃ C', C.step F (reading (i, bytes)) = some C' ∧ C'.Settling ∧ (∀ j, C'.Idle j) ∧
      C'.wire i = [] ∧ C'.requests i = 0 ∧ C'.requests i.other = C.requests i.other ∧
      ∃ said, Subsides C said (C.wire i).length C' := by
  have hin : (C.host i).InBuffer bytes := by
    unfold Device.InBuffer
    rw [hbytes]
    exact hC.queued.inBuffer i
  obtain ⟨r, hhost⟩ := Host.idle_reads F (hidle i).1 (hidle i).2 hin
  obtain ⟨C', hstep⟩ : ∃ C', C.step F (reading (i, bytes)) = some C' := by
    refine ⟨_, (if_pos ?_).trans (congrArg _ hhost)⟩
    exact ⟨[], (List.append_nil _).trans hbytes⟩
  obtain ⟨H, out, rest, hwire, hhost, rfl, hrest⟩ := step_some hstep
  have hnil : rest = [] := by
    have happ : C.wire i ++ rest = C.wire i ++ [] := by
      rw [List.append_nil]
      exact (congrArg (· ++ rest) hbytes.symm).trans hwire.symm
    exact List.append_cancel_left happ
  rw [hnil] at hrest
  obtain ⟨-, hcall, hrunning⟩ := Host.step_read hhost
  obtain ⟨said, hsaid⟩ := Subsides.step hC.queued (hC.distinct i) hstep
  rw [show bytes.length = (C.wire i).length by rw [← hbytes, List.length_map]] at hsaid
  refine ⟨_, hstep, hC.step hstep, fun j => ?_, hrest, ?_, step_requests hC.queued (hC.distinct i) hstep,
    said, hsaid⟩
  · obtain rfl | rfl := i.eq_or_other j
    · unfold Idle
      rw [after_host_self]
      exact ⟨hcall, hrunning⟩
    · unfold Idle
      rw [after_host_other]
      exact hidle _
  · unfold requests onWire
    rw [hrest]
    rfl

/-- **It settles.**  From every state of every run in which no call is running, whoever begins:
after three reads of all there is nothing is left on the cable. -/
theorem settles (F : OnFull UInt8) (C₀ : Cable) (h : C₀.Fresh) (hd : ∀ i, (C₀.host i).Distinct)
    (cs : List (Side × HostAction)) (C : Cable) (hrun : Runs.run (Cable.step F) C₀ cs = some C)
    (hidle : ∀ i, C.Idle i) (i : Side) :
    ReadsAll F i (ReadsAll F i.other (ReadsAll F i fun C' => ∀ j, C'.wire j = [])) C := by
  intro bytes₁ hbytes₁
  obtain ⟨C₁, h₁, hC₁, hidle₁, -, hnone₁, -, -⟩ :=
    reads_all (F := F) (Settling.run ⟨h.queued, hd⟩ hrun) hidle hbytes₁
  refine ⟨C₁, h₁, fun bytes₂ hbytes₂ => ?_⟩
  obtain ⟨C₂, h₂, hC₂, hidle₂, hwire₂, hnone₂, hkept, -⟩ := reads_all (F := F) hC₁ hidle₁ hbytes₂
  refine ⟨C₂, h₂, fun bytes₃ hbytes₃ => ?_⟩
  obtain ⟨C₃, h₃, -, -, hwire₃, -, -, said, hsaid⟩ := reads_all (F := F) hC₂ hidle₂ hbytes₃
  -- only answers have come with the second read
  have hquiet : total C₂.requests = 0 := by
    rw [Side.other_other] at hkept
    rw [total_eq _ i, hkept, hnone₁, hnone₂]
  refine ⟨C₃, h₃, fun j => ?_⟩
  have hfew := hsaid.few
  have hbytes := hsaid.bytes
  rw [total_eq _ i, total_eq _ i, hwire₂, hwire₃, List.length_nil] at hbytes
  obtain rfl | rfl := i.eq_or_other j
  · exact hwire₃
  · exact List.length_eq_zero_iff.mp (by omega)

end Cable

/-- The client's device asks for the addresses and does not wait. -/
def unawaited : List (Side × HostAction) :=
  [(.left, .device (.getAddrList 0 0)), (.left, .device (.pass 0 [] 0))]

def lateReads : List (Side × List Incoming) :=
  [(.right, bytesFor (.getAddrListPack ⟨6⟩)),
    (.left, bytesFor (.addrPack ⟨AddressField.setAddr (Vector.replicate 32 0) 1⟩))]

theorem twoDevices_distinct : ∀ i, (twoDevices.host i).Distinct := fun i => by
  cases i <;> exact List.nodup_singleton _

theorem unawaited_silence : ∃ C C', run (Cable.step (OnFull.refuse UInt8)) twoDevices unawaited = some C ∧
    run (Cable.step (OnFull.refuse UInt8)) C (lateReads.map Cable.reading) = some C' ∧
    ∃ said : Side → List Packet, (∀ i, packetsOf (C'.log i) = packetsOf (C.log i) ++ said i) ∧
      (said .left).length + (said .right).length ≤ C.requests .left + C.requests .right := by
  obtain ⟨C', hboth⟩ : ∃ C', run (Cable.step (OnFull.refuse UInt8)) twoDevices
      (unawaited ++ lateReads.map Cable.reading) = some C' :=
    Option.isSome_iff_exists.mp (by decide +kernel)
  rw [run_append] at hboth
  obtain ⟨C, hrun, hreads⟩ := Option.bind_eq_some_iff.mp hboth
  obtain ⟨said, hsaid, hfew, -⟩ := Cable.silence (OnFull.refuse UInt8) twoDevices twoDevices_fresh
    twoDevices_distinct unawaited C hrun lateReads C' hreads
  exact ⟨C, C', hrun, hreads, said, fun i => (hsaid i).1, hfew⟩

theorem unawaited_settles : ∃ C, run (Cable.step (OnFull.refuse UInt8)) twoDevices unawaited = some C ∧
    Cable.ReadsAll (OnFull.refuse UInt8) .right (Cable.ReadsAll (OnFull.refuse UInt8) .left
      (Cable.ReadsAll (OnFull.refuse UInt8) .right fun C' => ∀ j, C'.wire j = [])) C := by
  obtain ⟨C, hrun, hidle⟩ : ∃ C, run (Cable.step (OnFull.refuse UInt8)) twoDevices unawaited = some C ∧
      ∀ i, C.Idle i := by
    refine ⟨_, rfl, fun i => ?_⟩
    cases i <;> exact ⟨rfl, rfl⟩
  exact ⟨C, hrun, Cable.settles (OnFull.refuse UInt8) twoDevices twoDevices_fresh
    twoDevices_distinct unawaited C hrun hidle .right⟩

end PicoLan
