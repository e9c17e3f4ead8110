import PicoLan.Datagram
import PicoLan.Host.Answers
import PicoLan.Host.Refinement
import PicoLan.Stream.Sessions

/-!
# The bytes of a socket

What an application reads from a socket, datagram or stream, are bytes that the other
device has sent to its port, in the order in which they were sent (`Cable.intact`), whatever
becomes of the rest.
-/

namespace PicoLan

open Runs

/-! ## The ring buffer of a socket -/

namespace Bound

def ringbuf : Bound → RingBuffer UInt8
  | stream _ s => s.ringbuf
  | datagram s => s.ringbuf

/-- The bytes for the application in a datagram: all of them, or those of a DATA frame. -/
def bytes : Bound → DatagramPack → List UInt8
  | stream _ _, p =>
    if p.payload.toList.head? = some MessageType.data then p.payload.toList.drop 2 else []
  | datagram _, p => p.payload.toList

/-- `Datagram` is `none`. -/
def kind : Bound → Option Kind
  | stream k _ => some k
  | datagram _ => none

/-- Of one class and with one port. -/
structure Alike (b b' : Bound) : Prop where
  kind : b'.kind = b.kind
  port : b'.port = b.port

namespace Alike

variable {b b' b'' : Bound}

theorem refl (b : Bound) : Alike b b := ⟨rfl, rfl⟩

theorem trans (h : Alike b b') (h' : Alike b' b'') : Alike b b'' :=
  ⟨h'.kind.trans h.kind, h'.port.trans h.port⟩

theorem bytes (h : Alike b b') : b'.bytes = b.bytes := by
  have hkind := h.kind
  cases b with
  | stream k s =>
    cases b' with
    | stream k' s' => rfl
    | datagram s' => cases hkind
  | datagram s =>
    cases b' with
    | stream k' s' => cases hkind
    | datagram s' => rfl

theorem datagram {s : Socket} (h : Alike (.datagram s) b') :
    ∃ s' : Socket, b' = .datagram s' ∧ s'.port = s.port := by
  cases b' with
  | stream k' s' => cases h.kind
  | datagram s' => exact ⟨s', rfl, h.port⟩

end Alike

variable (F : OnFull UInt8)

/-- A DATA frame that is accepted has a body. -/
theorem stream_bytes {k : Kind} {s : SocketStream} {address : UInt8} {a : Arrival}
    (h : s.Takes F k address a) : (stream k s).bytes a.pack = a.body := by
  have hcell := h.1
  unfold bytes Arrival.body
  dsimp only
  cases hpay : a.pack.payload.toList with
  | nil => simp
  | cons t rest =>
    have ht : a.data.cell 0 = t := by simp [Arrival.data, hpay]
    rw [if_pos]
    exact congrArg some (ht.symm.trans hcell)

theorem handle_alike (b : Bound) (address : UInt8) (a : Arrival) :
    Alike b (b.handle F address a).1 := by
  unfold handle
  split
  · refine ⟨?_, Interface.receive_port F address a b⟩
    cases b <;> rfl
  · exact .refl b

theorem handle_datagram (s : Socket) (address : UInt8) (a : Arrival) (hfor : a.IsFor address s.port) :
    ((datagram s).handle F address a).1.ringbuf = s.ringbuf.putAll F a.pack.payload.toList := by
  have hport : a.IsFor address (datagram s).port := hfor
  unfold handle
  rw [if_pos hport, ← Arrival.data_all]
  rfl

theorem handle_stream (k : Kind) (s : SocketStream) (address : UInt8) (a : Arrival) :
    ((stream k s).handle F address a).1 = stream k (s.handle F k address a).1 := by
  unfold handle SocketStream.handle
  show (if a.IsFor address s.port then _ else _ : Bound × List DatagramPack).1 = _
  split <;> rfl

/-- The bytes of a datagram for the port are put into the ring buffer, or none is. -/
theorem handle_ringbuf (b : Bound) (address : UInt8) (a : Arrival) :
    (b.handle F address a).1.ringbuf = b.ringbuf ∨
      a.IsFor address b.port ∧ (b.handle F address a).1.ringbuf = b.ringbuf.putAll F (b.bytes a.pack) := by
  by_cases hfor : a.IsFor address b.port
  · cases b with
    | datagram s => exact .inr ⟨hfor, handle_datagram F s address a hfor⟩
    | stream k s =>
      rw [handle_stream]
      obtain ⟨htakes, hring⟩ | ⟨-, hring⟩ := SocketStream.handle_cases F k s address a
      · rw [stream_bytes F htakes]
        exact .inr ⟨hfor, hring⟩
      · exact .inl hring
  · refine .inl ?_
    unfold handle
    rw [if_neg hfor]

end Bound

/-- The datagram in a packet. -/
def Packet.datagram : Packet → Option DatagramPack
  | .datagramPack p => some p
  | _ => none

/-- The bytes for the socket `b` in the datagrams for its port. -/
def Bound.bytesIn (b : Bound) (ps : List DatagramPack) : List UInt8 :=
  ps.flatMap fun p => if p.port = b.port then b.bytes p else []

theorem Bound.bytesIn_append (b : Bound) (ps qs : List DatagramPack) :
    b.bytesIn (ps ++ qs) = b.bytesIn ps ++ b.bytesIn qs := List.flatMap_append

theorem Bound.Alike.bytesIn {b b' : Bound} (h : Bound.Alike b b') : b'.bytesIn = b.bytesIn := by
  unfold Bound.bytesIn
  rw [h.bytes, h.port]

namespace Interface

variable (F : OnFull UInt8)

theorem handler_alike (I : Interface) (hnd : I.sockets.toList.Nodup) (a : Arrival) (l : Nat) :
    Bound.Alike (I.object l) ((I.datagramPackHandler F a).1.object l) := by
  by_cases hl : l ∈ I.sockets.toList
  · rw [(handler_bound F I a l hl hnd).1]
    exact Bound.handle_alike F (I.object l) I.address a
  · have hobj := (I.handleAll_unlisted F [a] l hl).1
    rw [show (I.datagramPackHandler F a).1.object l = I.object l from hobj]
    exact .refl _

theorem handleAll_alike (I : Interface) (hnd : I.sockets.toList.Nodup) (as : List Arrival) (l : Nat) :
    Bound.Alike (I.object l) ((I.handleAll F as).1.object l) := by
  induction as generalizing I with
  | nil => exact .refl _
  | cons a as ih =>
    have hsockets := (handler_address F I a).2
    exact (handler_alike F I hnd a l).trans (ih (I.datagramPackHandler F a).1 (hsockets ▸ hnd))

theorem handler_bytes (hF : F.Keeps) (I : Interface) (hnd : I.sockets.toList.Nodup) (a : Arrival)
    (l : Nat) : ((I.datagramPackHandler F a).1.object l).ringbuf.toList.Sublist
      ((I.object l).ringbuf.toList ++ (I.object l).bytesIn [a.pack]) := by
  by_cases hl : l ∈ I.sockets.toList
  · rw [(handler_bound F I a l hl hnd).1]
    obtain hsame | ⟨hfor, hput⟩ := Bound.handle_ringbuf F (I.object l) I.address a
    · rw [hsame]
      exact List.sublist_append_left _ _
    · rw [hput, Bound.bytesIn, List.flatMap_singleton, if_pos hfor.2.symm]
      exact RingBuffer.putAll_sublist F hF _ _
  · have hobj := (I.handleAll_unlisted F [a] l hl).1
    rw [show (I.datagramPackHandler F a).1.object l = I.object l from hobj]
    exact List.sublist_append_left _ _

/-- The handler hands each datagram once. -/
theorem handleAll_bytes (hF : F.Keeps) (I : Interface) (hnd : I.sockets.toList.Nodup)
    (as : List Arrival) (l : Nat) : ((I.handleAll F as).1.object l).ringbuf.toList.Sublist
      ((I.object l).ringbuf.toList ++ (I.object l).bytesIn (as.map Arrival.pack)) := by
  induction as generalizing I with
  | nil => exact List.sublist_append_left _ _
  | cons a as ih =>
    have hsockets := (handler_address F I a).2
    have hrest := ih (I.datagramPackHandler F a).1 (hsockets ▸ hnd)
    rw [(handler_alike F I hnd a l).bytesIn] at hrest
    have happend := (handler_bytes F hF I hnd a l).append_right
      ((I.object l).bytesIn (as.map Arrival.pack))
    rw [List.append_assoc, ← Bound.bytesIn_append] at happend
    exact hrest.trans happend

end Interface

/-! ## A step -/

/-- The bytes that a running `read` has put into the caller's buffer. -/
def Call.inHand : Call → List UInt8
  | .reading got _ => got
  | _ => []

theorem goOn_held (s : Socket) (got : List UInt8) (len : Nat) :
    (s.goOn got len).2 ++ (s.goOn got len).1.ringbuf.toList = got ++ s.ringbuf.toList := by
  show (got ++ (s.ringbuf.drain _).1) ++ (s.ringbuf.drain _).2.toList = _
  rw [List.append_assoc, RingBuffer.drain_append]

namespace Host

variable {F : OnFull UInt8} {H H' : Host} {l m : Nat} {c : HostAction} {out : List HostOutput}

/-- What a socket has, in its ring buffer and in the caller's. -/
def held (H : Host) (l : Nat) : List UInt8 := (H.callOf l).inHand ++ (H.object l).ringbuf.toList

theorem endpoint_held {e : Endpoint} (he : H.endpoint l = some e) : H.held l = e.held := by
  obtain ⟨hobj, -, hcall⟩ := endpoint_some.mp he
  unfold held Endpoint.held
  rw [hobj, ← hcall]
  rfl

theorem store_held_ne (b : Bound) (call : Call) (hm : l ≠ m) :
    (H.store m b call).held l = (H.object l).ringbuf.toList := by
  unfold held
  rw [store_callOf_ne H b call hm, store_object_ne H b call hm]
  rfl

theorem storeDatagram_held (r : Socket × List UInt8) (len : Nat) (late : Bool) :
    gotten (outputsOf m (H.storeDatagram m r len late).2) ++ (H.storeDatagram m r len late).1.held m =
      r.2 ++ r.1.ringbuf.toList := by
  unfold storeDatagram held
  split
  · rw [store_callOf, store_object]
    rfl
  · rw [store_callOf, store_object, show outputsOf m [HostOutput.socket m (.got r.2)] = [.got r.2] from
      (outputsOf_socket m m [.got r.2]).trans (if_pos rfl)]
    simp [gotten, Call.inHand, Bound.ringbuf]

theorem gotten_readLog (D : Device) (bytes : List Incoming) :
    gotten (outputsOf l (D.readLog F bytes)) = [] := by
  rw [Device.outputsOf_readLog]
  exact gotten_sent _

/-- **What a step does to the bytes of a socket.**  Reading may add some behind those held;
the rest of the step hands some to the application, from the front. -/
theorem step_held (h : H.step F c = some (H', out)) (l : Nat) :
    gotten (outputsOf l out) ++ H'.held l =
      (H.callOf l).inHand ++ ((H.received F (H.taken c)).object l).ringbuf.toList := by
  generalize hr : (H', out) = r at h
  cases step_did F h with
  | @device a o hrun ha ho =>
    cases hr
    have heff := Device.step_effect F ho ha
    rw [heff.outputs, gotten_readLog]
    unfold held
    rw [callOf_of_none hrun, callOf_of_none (H := { H with toDevice := o.device }) hrun]
    show [] ++ ([] ++ (o.device.object l).ringbuf.toList) = _
    rw [heff.object]
    rfl
  | @destroy m hidle hrun =>
    cases hr
    show [] ++ ((H.callOf l).inHand ++ ((H.toTable.destroy m).object l).ringbuf.toList) = _
    unfold Table.destroy
    split <;> rfl
  | @socket m a e r' hfree ha he hr' =>
    cases hr
    have hfixed := Endpoint.step_fixed hr'
    obtain ⟨hobj, haddr, -⟩ := endpoint_some.mp he
    rw [outputsOf_socket]
    by_cases hm : m = l
    · subst hm
      rw [if_pos rfl]
      show _ ++ (H.storeStream m r').1.held m = _
      rw [endpoint_held (storeStream_endpoint H m (hfixed.2.trans haddr)),
        Endpoint.step_held F hr' ha, ← endpoint_held he]
      rfl
    · have hidle : H.callOf l = .idle := by
        cases hrun : H.running with
        | none => exact callOf_of_none hrun l
        | some r =>
          refine callOf_of_ne (l := m) (c := r.2) ?_ (Ne.symm hm)
          rw [hrun, ← hfree.2 r hrun]
      rw [if_neg hm, hidle]
      exact store_held_ne _ _ (Ne.symm hm)
  | @write m dest port data s hobj' hidle hrun =>
    cases hr
    have hnone : gotten (outputsOf l (((Datagram.write H.address dest port data).2.map Output.sent ++
        [Output.ret (Datagram.write H.address dest port data).1]).map (.socket m))) = [] := by
      rw [outputsOf_socket]
      split
      · rw [gotten_append, gotten_sent]
        rfl
      · rfl
    rw [hnone]
    rfl
  | @subscribe m sub s hobj' hidle hrun =>
    cases hr
    rfl
  | @receive m len s hobj hidle hrun =>
    obtain ⟨rfl, rfl⟩ := Prod.ext_iff.mp hr
    by_cases hm : l = m
    · subst hm
      rw [storeDatagram_held, goOn_held, callOf_of_none hrun]
      show _ = [] ++ (H.object l).ringbuf.toList
      rw [hobj]
      rfl
    · obtain ⟨call, hstore, hout⟩ := storeDatagram_eq H m (s.goOn [] len) len false
      rw [hstore, hout l hm, callOf_of_none hrun]
      exact store_held_ne _ _ hm
  | @pollStream m call bytes late kind socket hrun hobj htop =>
    obtain ⟨rfl, rfl⟩ := Prod.ext_iff.mp hr
    rw [outputsOf_append, gotten_append, gotten_readLog, outputsOf_storeStream]
    by_cases hm : m = l
    · subst hm
      have haddr : (Endpoint.resume ⟨kind, H.address, socket, call⟩ late).1.address =
          (H.received F bytes).address :=
        (Endpoint.resume_fixed _ late).2.trans (received_address F H bytes).symm
      rw [if_pos rfl, endpoint_held (storeStream_endpoint _ m haddr), List.nil_append,
        Endpoint.resume_held, callOf_of_some hrun]
      show _ = _ ++ ((H.received F bytes).object m).ringbuf.toList
      rw [hobj]
      rfl
    · rw [if_neg hm, callOf_of_ne hrun (Ne.symm hm)]
      exact store_held_ne _ _ (Ne.symm hm)
  | @pollDatagram m len got bytes late s hrun hobj =>
    obtain ⟨rfl, rfl⟩ := Prod.ext_iff.mp hr
    rw [outputsOf_append, gotten_append, gotten_readLog, List.nil_append]
    by_cases hm : l = m
    · subst hm
      rw [storeDatagram_held, callOf_of_some hrun]
      show _ = got ++ ((H.received F bytes).object l).ringbuf.toList
      rw [hobj]
      cases late with
      | true => rfl
      | false => exact goOn_held s got len
    · obtain ⟨call, hstore, hout⟩ := storeDatagram_eq (H.received F bytes) m
        (if late then (s, got) else s.goOn got len) len late
      rw [hstore, hout l hm, callOf_of_ne hrun hm]
      exact store_held_ne _ _ hm

theorem store_alike {b : Bound} {call : Call} (h : Bound.Alike (H.object m) b) (l : Nat) :
    Bound.Alike (H.object l) ((H.store m b call).object l) := by
  by_cases hm : l = m
  · subst hm
    rw [store_object]
    exact h
  · rw [store_object_ne H b call hm]
    exact .refl _

theorem received_object (H : Host) (bytes : List Incoming) : (H.received F bytes).object =
    (H.toInterface.handleAll F (Device.arrivals H.parser bytes)).1.object :=
  congrArg Interface.object (Device.read_interface F H.toDevice bytes)

/-- The datagrams that come with these bytes. -/
theorem arrivals_incoming (H : Host) (bytes : List Incoming) :
    (Device.arrivals H.parser bytes).map Arrival.pack =
      (H.incoming bytes).filterMap Packet.datagram := arrivals_pack H.parser bytes

/-- No step changes the class or the port of a socket. -/
theorem step_alike (hnd : H.sockets.toList.Nodup) (h : H.step F c = some (H', out)) (l : Nat) :
    Bound.Alike (H.object l) (H'.object l) := by
  have hread : ∀ bytes, Bound.Alike (H.object l) ((H.received F bytes).object l) := by
    intro bytes
    rw [received_object]
    exact H.toInterface.handleAll_alike F hnd _ l
  generalize hr : (H', out) = r at h
  cases step_did F h with
  | @device a o hrun ha ho =>
    cases hr
    show Bound.Alike _ (o.device.object l)
    rw [(Device.step_effect F ho ha).object]
    exact hread _
  | @destroy m hidle hrun =>
    cases hr
    show Bound.Alike _ ((H.toTable.destroy m).object l)
    unfold Table.destroy
    split <;> exact .refl _
  | @socket m a e r' hfree ha he hr' =>
    cases hr
    refine store_alike ?_ l
    rw [(endpoint_some.mp he).1]
    exact ⟨congrArg some (Endpoint.step_fixed hr').1, Endpoint.step_port hr'⟩
  | write =>
    cases hr
    exact .refl _
  | subscribe =>
    cases hr
    exact .refl _
  | @receive m len s hobj hidle hrun =>
    obtain ⟨rfl, -⟩ := Prod.ext_iff.mp hr
    obtain ⟨call, hstore, -⟩ := storeDatagram_eq H m (s.goOn [] len) len false
    rw [hstore]
    refine store_alike ?_ l
    rw [hobj]
    exact ⟨rfl, goOn_port s [] len false⟩
  | @pollStream m call bytes late kind socket hrun hobj htop =>
    obtain ⟨rfl, -⟩ := Prod.ext_iff.mp hr
    refine (hread bytes).trans (store_alike ?_ l)
    rw [hobj]
    exact ⟨congrArg some (Endpoint.resume_fixed _ late).1, Endpoint.resume_port _ late⟩
  | @pollDatagram m len got bytes late s hrun hobj =>
    obtain ⟨rfl, -⟩ := Prod.ext_iff.mp hr
    obtain ⟨call, hstore, -⟩ := storeDatagram_eq (H.received F bytes) m
      (if late then (s, got) else s.goOn got len) len late
    rw [hstore]
    refine (hread bytes).trans (store_alike ?_ l)
    rw [hobj]
    exact ⟨rfl, goOn_port s got len late⟩

end Host

namespace Cable

variable {F : OnFull UInt8} {C C' : Cable} {i : Side} {l : Nat} {b : Bound}

/-- What the socket has handed out and holds has come in datagrams for it. -/
structure Intact (i : Side) (l : Nat) (b : Bound) (C : Cable) : Prop where
  distinct : (C.host i).Distinct
  alike : Bound.Alike b ((C.host i).object l)
  bytes : (gotten (outputsOf l (C.log i)) ++ (C.host i).held l).Sublist
    (b.bytesIn ((C.heard i).filterMap Packet.datagram))

theorem Intact.step (hF : F.Keeps) (h : Intact i l b C) {j : Side} {c : HostAction}
    (hstep : C.step F (j, c) = some C') : Intact i l b C' := by
  obtain ⟨H, out, -, -, hhost, rfl, -⟩ := step_some hstep
  obtain rfl | rfl := j.eq_or_other i
  · have hnd := Host.nodup_of_distinct h.distinct
    refine ⟨?_, ?_, ?_⟩
    · rw [after_host_self]
      exact Host.step_distinct h.distinct hhost
    · rw [after_host_self]
      exact h.alike.trans (Host.step_alike hnd hhost l)
    · have hring := (C.host i).toInterface.handleAll_bytes F hF hnd
        (Device.arrivals (C.host i).parser ((C.host i).taken c)) l
      rw [h.alike.bytesIn, Host.arrivals_incoming, ← Host.received_object] at hring
      have hheld := (hring.append_left ((C.host i).callOf l).inHand).append_left
        (gotten (outputsOf l (C.log i)))
      have hbytes := h.bytes.append_right
        (b.bytesIn (((C.host i).incoming ((C.host i).taken c)).filterMap Packet.datagram))
      unfold Host.held at hbytes
      rw [List.append_assoc, List.append_assoc] at hbytes
      rw [after_host_self, after_log_self, after_heard_self, outputsOf_append, gotten_append,
        List.append_assoc, Host.step_held hhost, List.filterMap_append, Bound.bytesIn_append]
      exact hheld.trans hbytes
  · refine ⟨?_, ?_, ?_⟩
    · rw [after_host_other]
      exact h.distinct
    · rw [after_host_other]
      exact h.alike
    · rw [after_host_other, after_log_other, after_heard_other]
      exact h.bytes

end Cable

end PicoLan
