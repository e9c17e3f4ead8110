import PicoLan.Host.Bytes

/-!
# From one datagram socket to another

A datagram socket that stays bound at its address and never runs out of room loses nothing: the
strings written to its port have been read, are held, or are still on the cable (`Cable.channel`).
-/

namespace PicoLan

open Runs

/-- The payloads of the datagrams for this port of the device at this address. -/
def payloadsFor (address port : UInt8) (ps : List DatagramPack) : List UInt8 :=
  payloads (ps.filter fun p => (Arrival.mk p fun _ => 0).IsFor address port)

theorem payloadsFor_append (address port : UInt8) (ps qs : List DatagramPack) :
    payloadsFor address port (ps ++ qs) = payloadsFor address port ps ++ payloadsFor address port qs := by
  unfold payloadsFor
  rw [List.filter_append, payloads_append]

/-! ## Taking -/

/-- The handler's loop over a datagram socket that is bound: what is for its port is stored,
one datagram behind the other. -/
theorem Interface.handleAll_stores (F : OnFull UInt8) (I : Interface) (as : List Arrival) (l : Nat)
    (hl : l ∈ I.sockets.toList) (hnd : I.sockets.toList.Nodup) (s : Socket)
    (hs : I.object l = .datagram s) :
    ∃ s' : Socket, (I.handleAll F as).1.object l = .datagram s' ∧ s'.port = s.port ∧
      s'.ringbuf = s.ringbuf.putAll F (payloadsFor I.address s.port (as.map Arrival.pack)) := by
  induction as generalizing I s with
  | nil => exact ⟨s, hs, rfl, rfl⟩
  | cons a as ih =>
    obtain ⟨haddr, hsock⟩ := handler_address F I a
    have hone : ∃ s₁ : Socket, (I.datagramPackHandler F a).1.object l = .datagram s₁ ∧
        s₁.port = s.port ∧ s₁.ringbuf = s.ringbuf.putAll F (payloadsFor I.address s.port [a.pack]) := by
      by_cases hfor : a.IsFor I.address s.port
      · refine ⟨_, I.handler_datagram F a l hl hnd s hs hfor, rfl, ?_⟩
        have hdec : (Arrival.mk a.pack fun _ => 0).IsFor I.address s.port := hfor
        rw [payloadsFor, List.filter_cons, if_pos (decide_eq_true hdec)]
        exact congrArg _ (List.append_nil _).symm
      · refine ⟨s, ?_, rfl, ?_⟩
        · have hport : ¬ a.IsFor I.address (Bound.datagram s).port := hfor
          rw [(handler_bound F I a l hl hnd).1, hs]
          unfold Bound.handle
          rw [if_neg hport]
        · have hdec : ¬ (Arrival.mk a.pack fun _ => 0).IsFor I.address s.port := hfor
          rw [payloadsFor, List.filter_cons, if_neg (by simpa using hdec)]
          rfl
    obtain ⟨s₁, hs₁, hport, hring⟩ := hone
    obtain ⟨s', hs', hport', hring'⟩ := ih (I.datagramPackHandler F a).1 (hsock ▸ hl) (hsock ▸ hnd)
      s₁ hs₁
    refine ⟨s', hs', hport'.trans hport, ?_⟩
    rw [hring', hring, ← RingBuffer.putAll_append, haddr, hport, ← payloadsFor_append]
    rfl

/-- A datagram socket does not answer. -/
theorem Interface.handleAll_silent (F : OnFull UInt8) (I : Interface) (hnd : I.sockets.toList.Nodup)
    {m : Nat} {s : Socket} (hs : I.object m = .datagram s) (as : List Arrival) :
    sentBy m (I.handleAll F as).2 = [] := by
  induction as generalizing I s with
  | nil => rfl
  | cons a as ih =>
    have hsock := (handler_address F I a).2
    have halike := I.handler_alike F hnd a m
    rw [hs] at halike
    obtain ⟨s', hs', -⟩ := halike.datagram
    have hone : sentBy m (I.datagramPackHandler F a).2 = [] := by
      by_cases hm : m ∈ I.sockets.toList
      · rw [(handler_bound F I a m hm hnd).2, hs]
        unfold Bound.handle
        split <;> rfl
      · have hnone := (I.handleAll_unlisted F [a] m hm).2
        rwa [show (I.handleAll F [a]).2 = (I.datagramPackHandler F a).2 from List.append_nil _] at hnone
    simp only [Interface.handleAll, sentBy_append, hone]
    exact ih _ (hsock ▸ hnd) hs'

namespace Host

variable {F : OnFull UInt8} {H H' : Host} {l m : Nat} {c : HostAction} {out : List HostOutput}

/-- What `read` does to a datagram socket that is bound. -/
theorem received_datagram (hl : l ∈ H.sockets.toList) (hnd : H.sockets.toList.Nodup) {s : Socket}
    (hs : H.object l = .datagram s) (bytes : List Incoming)
    (hroom : (payloadsFor H.address s.port ((H.incoming bytes).filterMap Packet.datagram)).length ≤
      s.ringbuf.free) : ((H.received F bytes).object l).ringbuf.toList = s.ringbuf.toList ++
        payloadsFor H.address s.port ((H.incoming bytes).filterMap Packet.datagram) := by
  obtain ⟨s', hs', -, hring⟩ := H.toInterface.handleAll_stores F (Device.arrivals H.parser bytes) l
    hl hnd s hs
  rw [← arrivals_incoming] at hroom ⊢
  rw [received_object, hs']
  exact (congrArg RingBuffer.toList hring).trans (RingBuffer.putAll_of_fits F _ _ hroom)

/-! ## Sending -/

/-- The datagrams a call of `write` on the socket `m` sends. -/
def written (H : Host) (m : Nat) : HostAction → List DatagramPack
  | .write l dest port data =>
    if l = m then (Datagram.write H.address dest port data).2 else []
  | _ => []

theorem readLog_datagram (hnd : H.sockets.toList.Nodup) {s : Socket} (hs : H.object m = .datagram s)
    (bytes : List Incoming) : outputsOf m (H.toDevice.readLog F bytes) = [] := by
  rw [Device.outputsOf_readLog, Interface.handleAll_silent F H.toInterface hnd hs]
  rfl

theorem storeDatagram_says (H : Host) (l : Nat) (r : Socket × List UInt8) (len : Nat) (late : Bool) :
    sentOf (outputsOf m (H.storeDatagram l r len late).2) = [] := by
  unfold storeDatagram
  split
  · rfl
  · show sentOf (outputsOf m ([Output.got r.2].map (.socket l))) = []
    rw [outputsOf_socket]
    split <;> rfl

/-- A datagram socket sends only what is written to it. -/
theorem step_written (hnd : H.sockets.toList.Nodup) {s : Socket} (hs : H.object m = .datagram s)
    (h : H.step F c = some (H', out)) : sentOf (outputsOf m out) = H.written m c := by
  have hread := readLog_datagram (F := F) hnd hs
  generalize hr : (H', out) = r at h
  cases step_did F h with
  | @device a o hrun ha ho =>
    cases hr
    rw [(Device.step_effect F ho ha).outputs, hread]
    rfl
  | destroy =>
    cases hr
    rfl
  | @socket l a e r' hfree ha he hr' =>
    cases hr
    rw [outputsOf_socket, if_neg (not_datagram he hs)]
    rfl
  | @write l dest port data =>
    cases hr
    rw [outputsOf_socket]
    unfold written
    dsimp only
    split
    · rw [sentOf_append, sentOf_sent]
      exact List.append_nil _
    · rfl
  | subscribe =>
    cases hr
    rfl
  | receive =>
    obtain ⟨-, rfl⟩ := Prod.ext_iff.mp hr
    exact storeDatagram_says ..
  | @pollStream l call bytes late kind socket hrun hobj htop =>
    obtain ⟨-, rfl⟩ := Prod.ext_iff.mp hr
    have hl : l ≠ m := by
      rintro rfl
      have halike := H.toInterface.handleAll_alike F hnd (Device.arrivals H.parser bytes) l
      rw [← received_object, hs, hobj] at halike
      cases halike.kind
    rw [outputsOf_append, hread, outputsOf_storeStream, if_neg hl]
    rfl
  | @pollDatagram l len got bytes late s' hrun hobj =>
    obtain ⟨-, rfl⟩ := Prod.ext_iff.mp hr
    rw [outputsOf_append, hread]
    exact storeDatagram_says ..

end Host

/-- The strings that the socket `m` is given for this port. -/
def writtenFor (m : Nat) (address port : UInt8) (cs : List HostAction) : List (List UInt8) :=
  cs.filterMap fun c => match c with
    | .write l dest destPort data =>
      if l = m ∧ (dest = address ∨ dest = broadcastAddr ∨ dest = multicastAddr) ∧ port = destPort then
        some data
      else none
    | _ => none

theorem writtenFor_append (m : Nat) (address port : UInt8) (cs cs' : List HostAction) :
    writtenFor m address port (cs ++ cs') =
      writtenFor m address port cs ++ writtenFor m address port cs' := List.filterMap_append

/-- All packets of a string go the same way. -/
theorem payloadsFor_write (address port source dest destPort : UInt8) (data : List UInt8) :
    payloadsFor address port (Datagram.write source dest destPort data).2 =
      if (dest = address ∨ dest = broadcastAddr ∨ dest = multicastAddr) ∧ port = destPort then
        payloads (Datagram.write source dest destPort data).2
      else [] := by
  have hfor : ∀ p ∈ (Datagram.write source dest destPort data).2,
      ((Arrival.mk p fun _ => 0).IsFor address port ↔
        (dest = address ∨ dest = broadcastAddr ∨ dest = multicastAddr) ∧ port = destPort) := by
    intro p hp
    obtain ⟨hdest, hport⟩ := Datagram.write_header source dest destPort data p hp
    unfold Arrival.IsFor
    rw [hdest, hport]
  unfold payloadsFor
  split
  · next hto =>
    rw [List.filter_eq_self.mpr fun p hp => decide_eq_true ((hfor p hp).mpr hto)]
  · next hto =>
    rw [List.filter_eq_nil_iff.mpr fun p hp hd => hto ((hfor p hp).mp (of_decide_eq_true hd))]
    rfl

/-- Strings that fit into a packet are sent as they are. -/
theorem Host.written_payloads (H : Host) (m : Nat) (address port : UInt8) (c : HostAction)
    (hshort : ∀ data ∈ writtenFor m address port [c], data.length ≤ payloadSz) :
    payloadsFor address port (H.written m c) = (writtenFor m address port [c]).flatten := by
  cases c with
  | write l dest destPort data =>
    have hone : writtenFor m address port [.write l dest destPort data] =
        if l = m ∧ (dest = address ∨ dest = broadcastAddr ∨ dest = multicastAddr) ∧ port = destPort
        then [data] else [] := by
      unfold writtenFor
      dsimp only [List.filterMap_cons, List.filterMap_nil]
      by_cases h : l = m ∧ (dest = address ∨ dest = broadcastAddr ∨ dest = multicastAddr) ∧
          port = destPort
      · rw [if_pos h, if_pos h]
      · rw [if_neg h, if_neg h]
    rw [hone] at hshort ⊢
    unfold Host.written
    dsimp only
    by_cases hl : l = m
    · simp only [hl, true_and, if_true] at hshort ⊢
      rw [payloadsFor_write]
      split
      · next hto =>
        rw [if_pos hto] at hshort
        rw [Datagram.write_short _ _ _ data (hshort data List.mem_cons_self)]
        exact (List.append_nil data).symm
      · rfl
    · rw [if_neg hl, if_neg fun h => hl h.1]
      rfl
  | _ => rfl

namespace Cable

variable {F : OnFull UInt8} {C C' : Cable} {i : Side} {l m : Nat} {address port : UInt8}

/-- Steps of the device `i` leave its address and the socket `l` bound, and find room for what
comes. -/
def Roomy (i : Side) (l : Nat) (C : Cable) (x : Side × HostAction) : Prop :=
  x.1 = i → (C.host i).Stays l x.2 ∧
    (payloadsFor (C.host i).address ((C.host i).object l).port
        (((C.host i).incoming ((C.host i).taken x.2)).filterMap Packet.datagram)).length ≤
      ((C.host i).object l).ringbuf.free

instance (i : Side) (l : Nat) (C : Cable) (x : Side × HostAction) : Decidable (Roomy i l C x) :=
  inferInstanceAs (Decidable (_ → _ ∧ _))

/-- The socket `l` of the device `i` takes what the socket `m` of the other one gives. -/
structure Channel (i : Side) (l m : Nat) (address port : UInt8) (C : Cable) : Prop where
  distinct : ∀ j, (C.host j).Distinct
  listed : l ∈ (C.host i).sockets.toList
  here : (C.host i).address = address
  taker : ∃ s : Socket, (C.host i).object l = .datagram s ∧ s.port = port
  giver : ∃ t : Socket, (C.host i.other).object m = .datagram t
  own : NoOwnDatagram (C.log i.other)
  given : (∀ data ∈ writtenFor m address port (C.acts i.other), data.length ≤ payloadSz) →
    payloadsFor address port (sentOf (outputsOf m (C.log i.other))) =
      (writtenFor m address port (C.acts i.other)).flatten
  taken : gotten (outputsOf l (C.log i)) ++ (C.host i).held l =
    payloadsFor address port ((C.heard i).filterMap Packet.datagram)

theorem Channel.step (h : Channel i l m address port C) {j : Side} {c : HostAction}
    (hok : Roomy i l C (j, c)) (hstep : C.step F (j, c) = some C') :
    Channel i l m address port C' := by
  obtain ⟨H, out, -, -, hhost, rfl, -⟩ := step_some hstep
  have hnd := Host.nodup_of_distinct (h.distinct j)
  have hd : ∀ k, ((C.after j c (H, out)).host k).Distinct := by
    intro k
    obtain rfl | rfl := j.eq_or_other k
    · rw [after_host_self]
      exact Host.step_distinct (h.distinct _) hhost
    · rw [after_host_other]
      exact h.distinct _
  obtain rfl | rfl := j.eq_or_other i
  · obtain ⟨hstays, hroom⟩ := hok rfl
    obtain ⟨s, hs, hport⟩ := h.taker
    have hset : ∀ addr, c ≠ .device (.setAddress addr) := fun addr hne => by
      rw [hne] at hstays
      exact hstays
    have halike := Host.step_alike hnd hhost l
    rw [hs] at halike hroom
    obtain ⟨s', hs', hport'⟩ := halike.datagram
    refine ⟨hd, ?_, ?_, ⟨s', ?_, hport'.trans hport⟩, ?_, ?_, ?_, ?_⟩
    · rw [after_host_self]
      exact Host.step_listed (h.distinct _) h.listed hstays hhost
    · rw [after_host_self]
      exact (Host.step_address hhost hset).trans h.here
    · rw [after_host_self]
      exact hs'
    · rw [after_host_other]
      exact h.giver
    · rw [after_log_other]
      exact h.own
    · rw [after_log_other, after_acts_other]
      exact h.given
    · have hring := Host.received_datagram (F := F) h.listed hnd hs _ hroom
      rw [h.here, hport] at hring
      have htaken := h.taken
      unfold Host.held at htaken
      rw [hs] at htaken
      rw [after_host_self, after_log_self, after_heard_self, outputsOf_append, gotten_append,
        List.append_assoc, Host.step_held hhost, hring, List.filterMap_append, payloadsFor_append,
        ← htaken]
      simp only [List.append_assoc]
      rfl
  · obtain ⟨-, hlisted, hhere, htaker, hgiver, hown, hgiven, htaken⟩ := h
    rw [Side.other_other] at hgiver hown hgiven
    obtain ⟨t, ht⟩ := hgiver
    have halike := Host.step_alike hnd hhost m
    rw [ht] at halike
    obtain ⟨t', ht', -⟩ := halike.datagram
    refine ⟨hd, ?_, ?_, ?_, ⟨t', ?_⟩, ?_, ?_, ?_⟩
    · rw [after_host_other]
      exact hlisted
    · rw [after_host_other]
      exact hhere
    · rw [after_host_other]
      exact htaker
    · rw [Side.other_other, after_host_self]
      exact ht'
    · rw [Side.other_other, after_log_self]
      exact hown.append (Host.step_own hhost)
    · rw [Side.other_other, after_log_self, after_acts_self, writtenFor_append]
      intro hshort
      rw [outputsOf_append, sentOf_append, payloadsFor_append, List.flatten_append,
        hgiven fun data hdata => hshort data (List.mem_append_left _ hdata),
        Host.step_written hnd ht hhost, Host.written_payloads (C.host j) m address port c fun data hdata =>
          hshort data (List.mem_append_right _ hdata)]
    · rw [after_host_other, after_log_other, after_heard_other]
      exact htaken

end Cable

end PicoLan
