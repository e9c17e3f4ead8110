import PicoLan.Host.Cable
import PicoLan.Stream.DeadLink

/-!
# The cable does what the net says

The bytes on the cable are packets (`Framing.Pending`), some of them from the stream at the
other end.  These are the packets on the wire of the net; all others leave the stream
alone.  So every step of a device but `set_address` is a step of the net, or none
(`Cable.refines`): the address of an endpoint of the net is fixed.
-/

namespace PicoLan

open Runs

/-! ## Whose packets -/

/-- A packet on its way: of the stream at the other end, or of somebody else. -/
abbrev Parcel := DatagramPack ⊕ Packet

namespace Parcel

def packet : Parcel → Packet
  | .inl p => .datagramPack p
  | .inr p => p

def datagram (x : Parcel) : Option DatagramPack :=
  match x.packet with
  | .datagramPack p => some p
  | _ => none

/-- None of the others is for this port. -/
def Harmless (xs : List Parcel) (address port : UInt8) : Prop :=
  ∀ p, .inr (.datagramPack p) ∈ xs → ∀ behind, ¬ (Arrival.mk p behind).IsFor address port

end Parcel

/-- The parcels in a log, from the stream `l` and from others. -/
def parcelsOf (l : Nat) (out : List HostOutput) : List Parcel :=
  out.filterMap fun o => match o with
    | .socket m (.sent p) => some (if m = l then .inl p else .inr (.datagramPack p))
    | .own p => some (.inr p)
    | _ => none

theorem parcelsOf_packet (l : Nat) (out : List HostOutput) :
    (parcelsOf l out).map Parcel.packet = packetsOf out := by
  unfold parcelsOf packetsOf
  rw [List.map_filterMap]
  refine List.filterMap_congr fun o _ => ?_
  match o with
  | .socket m (.sent p) =>
    show some (Parcel.packet (if m = l then _ else _)) = _
    split <;> rfl
  | .socket m (.ret r) => rfl
  | .socket m (.got bytes) => rfl
  | .own p => rfl
  | .ret r => rfl

theorem parcelsOf_stream (l : Nat) (out : List HostOutput) :
    (parcelsOf l out).filterMap Sum.getLeft? = sentOf (outputsOf l out) := by
  induction out with
  | nil => rfl
  | cons o out ih =>
    have hcons : ∀ o : HostOutput, (parcelsOf l [o]).filterMap Sum.getLeft? =
        sentOf (outputsOf l [o]) := by
      intro o
      match o with
      | .socket m (.sent p) =>
        unfold parcelsOf outputsOf
        by_cases h : m = l <;> simp [h, sentOf]
      | .socket m (.ret r) =>
        unfold parcelsOf outputsOf
        by_cases h : m = l <;> simp [h, sentOf]
      | .socket m (.got bytes) =>
        unfold parcelsOf outputsOf
        by_cases h : m = l <;> simp [h, sentOf]
      | .own p => rfl
      | .ret r => rfl
    have hsplit : parcelsOf l (o :: out) = parcelsOf l [o] ++ parcelsOf l out :=
      List.filterMap_append (l := [o])
    rw [hsplit, List.filterMap_append, hcons, ih, show o :: out = [o] ++ out by rfl, outputsOf_append,
      sentOf_append]

/-! ## What the stream is handed -/

theorem datagrams_pack (behind : Nat → UInt8) (ps : List Packet) :
    (Device.datagrams behind ps).map Arrival.pack =
      ps.filterMap fun p => Parcel.datagram (.inr p) := by
  unfold Device.datagrams
  rw [List.map_filterMap]
  refine List.filterMap_congr fun p _ => ?_
  cases p <;> rfl

theorem arrivals_pack (parser : ParserSerialiser) (bytes : List Incoming) :
    (Device.arrivals parser bytes).map Arrival.pack =
      (calls (parser.feed (bytes.map Incoming.byte)).2).filterMap fun p => Parcel.datagram (.inr p) := by
  induction bytes generalizing parser with
  | nil => rfl
  | cons b bs ih =>
    have hfeed : calls (parser.feed ((b :: bs).map Incoming.byte)).2 = calls (parser.read b.byte).2 ++
        calls ((parser.read b.byte).1.feed (bs.map Incoming.byte)).2 := calls_append _ _
    rw [hfeed, List.filterMap_append, ← ih, ← datagrams_pack b.behind, ← List.map_append]
    rfl

/-- What others send leaves the stream alone. -/
theorem SocketStream.handleAll_parcels (F : OnFull UInt8) (k : Kind) (s : SocketStream)
    (address : UInt8) (xs : List Parcel) (as : List Arrival)
    (has : as.map Arrival.pack = xs.filterMap Parcel.datagram)
    (hxs : Parcel.Harmless xs address s.port) :
    ∃ bs : List Arrival, bs.map Arrival.pack = xs.filterMap Sum.getLeft? ∧
      s.handleAll F k address bs = s.handleAll F k address as := by
  induction xs generalizing s as with
  | nil =>
    obtain rfl : as = [] := List.map_eq_nil_iff.mp has
    exact ⟨[], rfl, rfl⟩
  | cons x xs ih =>
    have hrest : Parcel.Harmless xs address s.port :=
      fun p hp => hxs p (List.mem_cons_of_mem _ hp)
    match x with
    | .inl p =>
      have hcons : as.map Arrival.pack = p :: xs.filterMap Parcel.datagram := has
      obtain ⟨a, as, rfl, rfl, htail⟩ := List.map_eq_cons_iff.mp hcons
      obtain ⟨bs, hbs, heq⟩ := ih (s.handle F k address a).1 as htail (by
        rw [(handle_remote F k s address a).2]
        exact hrest)
      refine ⟨a :: bs, congrArg (a.pack :: ·) hbs, ?_⟩
      simp only [handleAll, heq]
    | .inr (.datagramPack p) =>
      have hcons : as.map Arrival.pack = p :: xs.filterMap Parcel.datagram := has
      obtain ⟨a, as, rfl, rfl, htail⟩ := List.map_eq_cons_iff.mp hcons
      obtain ⟨bs, hbs, heq⟩ := ih s as htail hrest
      have hskip : s.handle F k address a = (s, []) :=
        if_neg (hxs a.pack List.mem_cons_self a.behind)
      refine ⟨bs, hbs, ?_⟩
      simp only [handleAll, hskip, heq, List.nil_append]
    | .inr (.getAddrListPack p) => exact ih s as has hrest
    | .inr (.addrPack p) => exact ih s as has hrest
    | .inr (.pingPack p) => exact ih s as has hrest
    | .inr (.pingEchoPack p) => exact ih s as has hrest
    | .inr (.subscribePack p) => exact ih s as has hrest

/-! ## The interface's own packets -/

/-- A datagram is always a socket's. -/
def NoOwnDatagram (out : List HostOutput) : Prop := ∀ p, HostOutput.own (.datagramPack p) ∉ out

theorem NoOwnDatagram.append {out out' : List HostOutput} (h : NoOwnDatagram out)
    (h' : NoOwnDatagram out') : NoOwnDatagram (out ++ out') := by
  intro p hp
  exact (List.mem_append.mp hp).elim (h p) (h' p)

theorem noOwnDatagram_socket (l : Nat) (out : List Output) :
    NoOwnDatagram (out.map (.socket l)) := by
  intro p hp
  obtain ⟨o, -, ho⟩ := List.mem_map.mp hp
  cases ho

theorem noOwnDatagram_own {ps : List Packet} (h : ∀ p, .datagramPack p ∉ ps) :
    NoOwnDatagram (ps.map .own) := by
  intro p hp
  obtain ⟨q, hq, ho⟩ := List.mem_map.mp hp
  cases ho
  exact h p hq

theorem noOwnDatagram_ret (r : Option Int) : NoOwnDatagram (r.map HostOutput.ret).toList := by
  intro p hp
  cases r with
  | none => cases hp
  | some r => cases List.mem_singleton.mp hp

namespace Device

variable (F : OnFull UInt8)

theorem handleLog_own (D : Device) (behind : Nat → UInt8) (p : Packet) :
    NoOwnDatagram (D.handleLog F behind p) := by
  cases p with
  | datagramPack p =>
    intro q hq
    obtain ⟨o, -, ho⟩ := List.mem_map.mp hq
    cases ho
  | getAddrListPack p =>
    exact noOwnDatagram_own fun q hq => by cases List.mem_singleton.mp hq
  | pingPack p => exact noOwnDatagram_own fun q hq => by cases List.mem_singleton.mp hq
  | addrPack p => exact noOwnDatagram_own fun q hq => by cases hq
  | pingEchoPack p => exact noOwnDatagram_own fun q hq => by cases hq
  | subscribePack p => exact noOwnDatagram_own fun q hq => by cases hq

theorem readLog_own (D : Device) (bytes : List Incoming) : NoOwnDatagram (D.readLog F bytes) := by
  have hall : ∀ (ps : List Packet) (D : Device) (behind : Nat → UInt8),
      NoOwnDatagram (D.handleAllLog F behind ps) := by
    intro ps
    induction ps with
    | nil => exact fun D behind p hp => by cases hp
    | cons p ps ih => exact fun D behind => (handleLog_own F D behind p).append (ih _ behind)
  induction bytes generalizing D with
  | nil => exact fun p hp => by cases hp
  | cons b bs ih => exact (hall _ _ _).append (ih _)

theorem log_own {D : Device} {a : DeviceAction} {o : Outcome} (h : D.step F a = some o) :
    NoOwnDatagram (D.log F a o) := by
  refine NoOwnDatagram.append ?_ (noOwnDatagram_ret _)
  cases a with
  | read bytes => exact readLog_own F D _
  | pass now bytes after => exact readLog_own F D _
  | _ =>
    obtain ⟨-, rfl⟩ := begin_some (step_perform F h)
    refine noOwnDatagram_own fun q hq => ?_
    first
    | cases List.mem_singleton.mp hq
    | cases hq

end Device

namespace Host

variable {F : OnFull UInt8} {H H' : Host} {c : HostAction} {out : List HostOutput}

theorem storeDatagram_own (H : Host) (l : Nat) (r : Socket × List UInt8) (len : Nat) (late : Bool) :
    NoOwnDatagram (H.storeDatagram l r len late).2 := by
  unfold storeDatagram
  split
  · exact fun p hp => by cases hp
  · exact noOwnDatagram_socket l [.got r.2]

theorem step_own (h : H.step F c = some (H', out)) : NoOwnDatagram out := by
  generalize hr : (H', out) = r at h
  cases step_did F h with
  | device hrun ha ho =>
    cases hr
    exact Device.log_own F ho
  | destroy =>
    cases hr
    exact fun p hp => by cases hp
  | @socket l a e r' =>
    cases hr
    exact noOwnDatagram_socket l r'.2
  | @write l =>
    cases hr
    exact noOwnDatagram_socket l _
  | subscribe =>
    cases hr
    exact fun p hp => by cases List.mem_singleton.mp hp
  | receive =>
    obtain ⟨-, rfl⟩ := Prod.ext_iff.mp hr
    exact storeDatagram_own _ _ _ _ _
  | @pollStream l c bytes =>
    obtain ⟨-, rfl⟩ := Prod.ext_iff.mp hr
    exact (Device.readLog_own F H.toDevice bytes).append (noOwnDatagram_socket l _)
  | @pollDatagram l len got bytes =>
    obtain ⟨-, rfl⟩ := Prod.ext_iff.mp hr
    exact (Device.readLog_own F H.toDevice bytes).append (storeDatagram_own _ _ _ _ _)

end Host

/-- It is no datagram of another socket than `l` for this port. -/
def HostOutput.Spares (l : Nat) (address port : UInt8) : HostOutput → Prop
  | .socket m (.sent p) => m ≠ l → ¬ (Arrival.mk p fun _ => 0).IsFor address port
  | _ => True

instance (l : Nat) (address port : UInt8) : ∀ o : HostOutput, Decidable (o.Spares l address port)
  | .socket _ (.sent _) => inferInstanceAs (Decidable (_ → ¬ _))
  | .socket _ (.ret _) => inferInstanceAs (Decidable True)
  | .socket _ (.got _) => inferInstanceAs (Decidable True)
  | .own _ => inferInstanceAs (Decidable True)
  | .ret _ => inferInstanceAs (Decidable True)

/-- The strings written to the stream `l`. -/
def writtenTo (l : Nat) (cs : List HostAction) : List (List UInt8) :=
  cs.filterMap fun c => match c with
    | .socket m (.write bytes) => if m = l then some bytes else none
    | _ => none

namespace Host

variable {F : OnFull UInt8} {H H' : Host} {c : HostAction} {out : List HostOutput}

/-- `set_address` is not called, and no socket with the port of `l` is taken off the list. -/
def Stays (H : Host) (l : Nat) : HostAction → Prop
  | .device (.setAddress _) => False
  | .device (.unbindSocket m) => (H.object l).port ≠ (H.object m).port
  | .destroy m => H.iface m = true → (H.object l).port ≠ (H.object m).port
  | _ => True

instance (H : Host) (l : Nat) : ∀ c, Decidable (H.Stays l c)
  | .device a => match a with
    | .setAddress _ => inferInstanceAs (Decidable False)
    | .unbindSocket _ => inferInstanceAs (Decidable (_ ≠ _))
    | .bind _ => inferInstanceAs (Decidable True)
    | .sockets _ => inferInstanceAs (Decidable True)
    | .read _ => inferInstanceAs (Decidable True)
    | .getAddrList _ _ => inferInstanceAs (Decidable True)
    | .ping _ _ _ _ => inferInstanceAs (Decidable True)
    | .pass _ _ _ => inferInstanceAs (Decidable True)
  | .destroy _ => inferInstanceAs (Decidable (_ → _ ≠ _))
  | .socket _ _ => inferInstanceAs (Decidable True)
  | .write _ _ _ _ => inferInstanceAs (Decidable True)
  | .subscribe _ _ => inferInstanceAs (Decidable True)
  | .receive _ _ => inferInstanceAs (Decidable True)
  | .poll _ _ => inferInstanceAs (Decidable True)

/-- What the step puts out. -/
def outs (F : OnFull UInt8) (H : Host) (c : HostAction) : List HostOutput :=
  match H.step F c with
  | some r => r.2
  | none => []

theorem outs_of_step (h : H.step F c = some (H', out)) : H.outs F c = out := by
  unfold outs
  rw [h]

theorem step_listed {l : Nat} (hd : H.Distinct) (hl : l ∈ H.sockets.toList) (hc : H.Stays l c)
    (h : H.step F c = some (H', out)) : l ∈ H'.sockets.toList := by
  generalize hr : (H', out) = r at h
  cases step_did F h with
  | @device a o hrun ha ho =>
    cases hr
    rcases (Device.step_effect F ho ha).table with hsockets | ⟨m, rfl, hbind⟩ | ⟨m, rfl, hunbind⟩
    · show l ∈ o.device.sockets.toList
      rw [hsockets]
      exact hl
    · show l ∈ o.device.toTable.sockets.toList
      rw [hbind]
      obtain ⟨-, heq⟩ | ⟨-, heq⟩ := H.toTable.bind_cases m
      · rw [heq]
        exact hl
      · rw [heq]
        show l ∈ (H.sockets.append m).toList
        unfold BoundedList.append
        split
        · exact List.mem_append_left _ hl
        · exact hl
    · show l ∈ o.device.toTable.sockets.toList
      rw [hunbind]
      exact (hd.mem_unbindSocket m l).mpr ⟨hl, hc⟩
  | @destroy m hidle hrun =>
    cases hr
    show l ∈ (H.toTable.destroy m).sockets.toList
    unfold Table.destroy
    split
    · next hm => exact (hd.mem_unbindSocket m l).mpr ⟨hl, hc hm⟩
    · exact hl
  | socket =>
    cases hr
    exact hl
  | write =>
    cases hr
    exact hl
  | subscribe =>
    cases hr
    exact hl
  | receive =>
    obtain ⟨rfl, -⟩ := Prod.ext_iff.mp hr
    rw [storeDatagram_sockets]
    exact hl
  | @pollStream m c bytes =>
    obtain ⟨rfl, -⟩ := Prod.ext_iff.mp hr
    show l ∈ (H.received F bytes).sockets.toList
    rw [show (H.received F bytes).sockets = H.sockets from Device.read_sockets F H.toDevice bytes]
    exact hl
  | @pollDatagram m len got bytes =>
    obtain ⟨rfl, -⟩ := Prod.ext_iff.mp hr
    rw [storeDatagram_sockets,
      show (H.received F bytes).sockets = H.sockets from Device.read_sockets F H.toDevice bytes]
    exact hl

theorem writtenTo_of_ne {l : Nat} (hc : ∀ a, c ≠ .socket l a) : writtenTo l [c] = [] := by
  cases c with
  | socket m a =>
    have hm : m ≠ l := fun hm => hc a (by rw [hm])
    cases a with
    | write bytes =>
      show List.filterMap _ _ = _
      simp [hm]
    | _ => rfl
  | _ => rfl

/-- What a step is to the stream `l`: one of its calls, a poll, or nothing. -/
theorem step_stream (hd : H.Distinct) (h : H.step F c = some (H', out))
    (hc : ∀ addr, c ≠ .device (.setAddress addr)) {l : Nat} {e : Endpoint}
    (hl : l ∈ H.sockets.toList) (he : H.endpoint l = some e) :
    ∃ e', H'.endpoint l = some e' ∧
      ((∃ a, c = .socket l a ∧ (∀ as late, a ≠ .poll as late) ∧ H.taken c = [] ∧
          e.step F a = some (e', outputsOf l out)) ∨
        ((∀ a, c ≠ .socket l a) ∧ ∃ late, (late = true → ∃ bytes, c = .poll bytes true) ∧
          e.step F (.poll (Device.arrivals H.parser (H.taken c)) late) = some (e', outputsOf l out)) ∨
        ((∀ a, c ≠ .socket l a) ∧ H.taken c = [] ∧ e' = e ∧ outputsOf l out = [])) := by
  obtain ⟨e', he', hrun⟩ := step_endpoint (nodup_of_distinct hd) h hc he
  have hseen : ∀ bytes, H.seen l bytes = Device.arrivals H.parser bytes := fun bytes => if_pos hl
  have hnothing : run (logged (Endpoint.step F)) (e, []) [] = some (e', outputsOf l out) →
      e' = e ∧ outputsOf l out = [] := by
    intro h
    obtain ⟨he, hout⟩ := Prod.ext_iff.mp (Option.some.inj h)
    exact ⟨he.symm, hout.symm⟩
  refine ⟨e', he', ?_⟩
  cases c with
  | device a =>
    refine .inr (.inl ⟨fun _ => HostAction.noConfusion, false, (fun hlate => by cases hlate), ?_⟩)
    rw [← hseen]
    exact run_logged_one.mp hrun
  | poll bytes late =>
    refine .inr (.inl ⟨fun _ => HostAction.noConfusion, late, (fun hlate => ⟨bytes, by rw [hlate]⟩), ?_⟩)
    rw [← hseen]
    exact run_logged_one.mp hrun
  | socket m a =>
    by_cases hm : m = l
    · subst hm
      have hactions : H.actions m (.socket m a) = [a] := if_pos rfl
      rw [hactions] at hrun
      cases step_did F h with
      | socket hfree ha => exact .inl ⟨a, rfl, ha, rfl, run_logged_one.mp hrun⟩
    · have hactions : H.actions l (.socket m a) = [] := if_neg hm
      rw [hactions] at hrun
      exact .inr (.inr ⟨fun b hb => hm (HostAction.socket.inj hb).1, rfl, hnothing hrun⟩)
  | destroy m => exact .inr (.inr ⟨fun _ => HostAction.noConfusion, rfl, hnothing hrun⟩)
  | write m dest port data => exact .inr (.inr ⟨fun _ => HostAction.noConfusion, rfl, hnothing hrun⟩)
  | subscribe m sub => exact .inr (.inr ⟨fun _ => HostAction.noConfusion, rfl, hnothing hrun⟩)
  | receive m len => exact .inr (.inr ⟨fun _ => HostAction.noConfusion, rfl, hnothing hrun⟩)

end Host

/-! ## The net of two streams -/

theorem arrivals_ext {as bs : List Arrival} (hpack : as.map Arrival.pack = bs.map Arrival.pack)
    (hbehind : as.map Arrival.behind = bs.map Arrival.behind) : as = bs := by
  induction as generalizing bs with
  | nil => exact (List.map_eq_nil_iff.mp hpack.symm).symm
  | cons a as ih =>
    obtain ⟨b, bs, rfl, hb, htail⟩ := List.map_eq_cons_iff.mp hpack.symm
    rw [List.map_cons, List.map_cons, List.cons.injEq] at hbehind
    rw [ih htail.symm hbehind.2]
    congr 1
    exact congrArg₂ Arrival.mk hb.symm hbehind.1

/-- A poll that finds just these datagrams. -/
theorem Net.step_poll_of_endpoint {F : OnFull UInt8} {n : Net} {i : Side} {as : List Arrival}
    {rest : List DatagramPack} {late : Bool} {e : Endpoint} {out : List Output}
    (hw : n.wire i = as.map Arrival.pack ++ rest)
    (h : (n.ends i).step F (.poll as late) = some (e, out)) :
    n.step F (.poll i (as.map Arrival.behind) late) = some ((n.withWire i rest).put i e out) := by
  obtain ⟨htop, rfl, rfl⟩ := Endpoint.step_poll.mp h
  obtain ⟨m, hm⟩ := exists_run_deliver F (n := n) (i := i) (as.map Arrival.behind) (by
    rw [hw]
    simp)
  obtain ⟨bs, hpacks, hbehind, heq⟩ := run_deliver hm
  rw [hw] at hpacks
  have hlen : bs.length = as.length := by simpa using congrArg List.length hbehind
  obtain ⟨hpack, hrest⟩ := List.append_inj hpacks (by simpa using hlen)
  rw [arrivals_ext hpack hbehind, hrest] at heq
  rw [step_poll_of_run htop hm late, heq]
  rw [resume_eq, put_ends_self, put_put]

/-- `n` are the two streams `l`, and their packets among those on the cable. -/
structure Cable.Abs (l : Side → Nat) (C : Cable) (n : Net) : Prop where
  distinct : ∀ i, (C.host i).Distinct
  listed : ∀ i, l i ∈ (C.host i).sockets.toList
  endpoint : ∀ i, (C.host i).endpoint (l i) = some (n.ends i)
  pending : ∀ i, ∃ xs : List Parcel,
    wireFraming.Pending (C.host i).parser (C.wire i) (xs.map Parcel.packet) ∧
    n.wire i = xs.filterMap Sum.getLeft? ∧
    Parcel.Harmless xs (n.ends i).address (n.ends i).socket.port
  written : ∀ i, (n.hist i).written = writtenTo (l i) (C.acts i)
  returned : ∀ i, (n.hist i).returned = retsOf (outputsOf (l i) (C.log i))

namespace Cable

/-- The device keeps its address, both streams stay bound, and only they send to their ports. -/
def Private (F : OnFull UInt8) (l : Side → Nat) (C : Cable) (x : Side × HostAction) : Prop :=
  (C.host x.1).Stays (l x.1) x.2 ∧
  ∀ o ∈ (C.host x.1).outs F x.2, o.Spares (l x.1) (C.host x.1.other).address
    ((C.host x.1.other).object (l x.1.other)).port

instance (F : OnFull UInt8) (l : Side → Nat) (C : Cable) (x : Side × HostAction) :
    Decidable (Private F l C x) :=
  inferInstanceAs (Decidable (_ ∧ ∀ o ∈ _, _))

variable {F : OnFull UInt8} {l : Side → Nat} {C : Cable} {n n' : Net} {i : Side} {c : HostAction}
  {H : Host} {out : List HostOutput}

/-- What others put on the cable is not for the stream at the other end. -/
theorem Abs.harmless_out (h : Abs l C n) (hc : Private F l C (i, c))
    (hstep : (C.host i).step F c = some (H, out)) :
    Parcel.Harmless (parcelsOf (l i) out) (n.ends i.other).address (n.ends i.other).socket.port := by
  obtain ⟨hobj, haddr, -⟩ := Host.endpoint_some.mp (h.endpoint i.other)
  intro p hp behind
  obtain ⟨o, ho, heq⟩ := List.mem_filterMap.mp hp
  match o with
  | .socket m (.sent q) =>
    by_cases hm : m = l i
    · simp [hm] at heq
    · simp only [hm, if_false, Option.some.injEq, Sum.inr.injEq, Packet.datagramPack.injEq] at heq
      subst heq
      have hnot := hc.2 (.socket m (.sent q)) (by rw [Host.outs_of_step hstep]; exact ho) hm
      rw [hobj, ← haddr] at hnot
      exact hnot
  | .socket m (.ret r) => cases heq
  | .socket m (.got bytes) => cases heq
  | .own q =>
    cases heq
    exact absurd ho (Host.step_own hstep p)
  | .ret r => cases heq

/-- The next pair of states. -/
theorem Abs.next (h : Abs l C n) (hc : Private F l C (i, c))
    (hstep : (C.host i).step F c = some (H, out)) {rest : List UInt8}
    (hrest : (C.after i c (H, out)).wire i = rest) {xs : List Parcel}
    (hpend : wireFraming.Pending H.parser rest (xs.map Parcel.packet))
    (hharm : Parcel.Harmless xs (n.ends i).address (n.ends i).socket.port)
    (hends : H.endpoint (l i) = some (n'.ends i))
    (hsame : (n'.ends i).address = (n.ends i).address ∧
      (n'.ends i).socket.port = (n.ends i).socket.port)
    (hother : n'.ends i.other = n.ends i.other)
    (hwire : n'.wire i = xs.filterMap Sum.getLeft?)
    (hwire' : n'.wire i.other = n.wire i.other ++ sentOf (outputsOf (l i) out))
    (hhist : n'.hist i.other = n.hist i.other)
    (hwritten : (n'.hist i).written = (n.hist i).written ++ writtenTo (l i) [c])
    (hreturned : (n'.hist i).returned = (n.hist i).returned ++ retsOf (outputsOf (l i) out)) :
    Abs l (C.after i c (H, out)) n' := by
  have hsides : ∀ {P : Side → Prop}, P i → P i.other → ∀ j, P j := by
    intro P hi ho j
    obtain rfl | rfl := i.eq_or_other j
    · exact hi
    · exact ho
  refine ⟨hsides ?_ ?_, hsides ?_ ?_, hsides ?_ ?_, hsides ?_ ?_, hsides ?_ ?_, hsides ?_ ?_⟩
  · rw [after_host_self]
    exact Host.step_distinct (h.distinct i) hstep
  · rw [after_host_other]
    exact h.distinct i.other
  · rw [after_host_self]
    exact Host.step_listed (h.distinct i) (h.listed i) hc.1 hstep
  · rw [after_host_other]
    exact h.listed i.other
  · rw [after_host_self]
    exact hends
  · rw [after_host_other, hother]
    exact h.endpoint i.other
  · refine ⟨xs, ?_, hwire, ?_⟩
    · rw [after_host_self, hrest]
      exact hpend
    · rw [hsame.1, hsame.2]
      exact hharm
  · obtain ⟨ys, hys, hwys, hharmless⟩ := h.pending i.other
    refine ⟨ys ++ parcelsOf (l i) out, ?_, ?_, ?_⟩
    · rw [after_host_other, after_wire_other, List.map_append, parcelsOf_packet]
      exact hys.sendAll _
    · rw [hwire', hwys, List.filterMap_append, parcelsOf_stream]
    · rw [hother]
      intro p hp
      exact (List.mem_append.mp hp).elim (hharmless p) (h.harmless_out hc hstep p)
  · rw [hwritten, h.written, after_acts_self]
    exact List.filterMap_append.symm
  · rw [hhist, h.written, after_acts_other]
  · rw [hreturned, h.returned, after_log_self, outputsOf_append, retsOf_append]
  · rw [hhist, h.returned, after_log_other]

/-- The calls of the two streams are among `P`. -/
def Calls (l : Side → Nat) (P : Side → Action → Prop) (x : Side × HostAction) : Prop :=
  match x.2 with
  | .socket m a => m = l x.1 → P x.1 a
  | _ => True

instance (l : Side → Nat) (P : Side → Action → Prop) [∀ i a, Decidable (P i a)]
    (x : Side × HostAction) : Decidable (Calls l P x) := by
  unfold Calls
  split <;> infer_instance

/-- What the step `c` of the device `i` is to the net of the two streams, and what the stream puts
out: a call, a poll, or nothing. -/
inductive Shown (F : OnFull UInt8) (l : Side → Nat) (n : Net) (i : Side) (c : HostAction) :
    Net → List Output → Prop where
  | call {a : Action} {n' : Net} {e : Endpoint} {out : List Output} (hc : c = .socket (l i) a)
      (he : (n.ends i).step F a = some (e, out)) (hn : n' = (n.called i a).put i e out)
      (h : n.step F (.act i a) = some n') : Shown F l n i c n' out
  | poll {as : List Arrival} {rest : List DatagramPack} {late : Bool} {n' : Net} {e : Endpoint}
      {out : List Output} (hc : ∀ a, c ≠ .socket (l i) a)
      (hlate : late = true → ∃ bytes, c = .poll bytes true)
      (hw : n.wire i = as.map Arrival.pack ++ rest)
      (he : (n.ends i).step F (.poll as late) = some (e, out))
      (hn : n' = (n.withWire i rest).put i e out)
      (h : n.step F (.poll i (as.map Arrival.behind) late) = some n') : Shown F l n i c n' out
  | same (hc : ∀ a, c ≠ .socket (l i) a) : Shown F l n i c n []

/-- **One step of the refinement.** -/
theorem Abs.step (hR : Abs l C n) (hc : Private F l C (i, c)) {C' : Cable}
    (h : C.step F (i, c) = some C') : ∃ n' out, Shown F l n i c n' out ∧ Abs l C' n' ∧
      outputsOf (l i) (C'.log i) = outputsOf (l i) (C.log i) ++ out ∧
      C'.log i.other = C.log i.other := by
  obtain ⟨H, out, rest, hwire, hstep, rfl, hrest⟩ := step_some h
  have hlog : outputsOf (l i) ((C.after i c (H, out)).log i) =
      outputsOf (l i) (C.log i) ++ outputsOf (l i) out := by
    rw [after_log_self, outputsOf_append]
  have hne : ∀ addr, c ≠ .device (.setAddress addr) := by
    rintro addr rfl
    exact hc.1
  obtain ⟨e', he', hcase⟩ := Host.step_stream (hR.distinct i) hstep hne (hR.listed i) (hR.endpoint i)
  obtain ⟨zs, hzs, hwzs, hharm⟩ := hR.pending i
  -- the parcels whose last byte is read now, and those still on their way
  rw [hwire] at hzs
  obtain ⟨restms, hsplit, hpend⟩ := hzs.take
  obtain ⟨xs, ys, rfl, hxs, rfl⟩ := List.map_eq_append_iff.mp hsplit
  rw [show (wireFraming.feed (C.host i).parser (((C.host i).taken c).map Incoming.byte)).1 = H.parser
    from (Host.step_parses hstep).symm] at hpend
  have hharm₁ : Parcel.Harmless xs (n.ends i).address (n.ends i).socket.port :=
    fun p hp => hharm p (List.mem_append_left _ hp)
  have hharm₂ : Parcel.Harmless ys (n.ends i).address (n.ends i).socket.port :=
    fun p hp => hharm p (List.mem_append_right _ hp)
  have hnone : (C.host i).taken c = [] → n.wire i = ys.filterMap Sum.getLeft? := by
    intro htaken
    rw [htaken] at hxs
    obtain rfl : xs = [] := List.map_eq_nil_iff.mp hxs
    exact hwzs
  rcases hcase with ⟨a, rfl, ha, htaken, hcall⟩ | ⟨hcall, late, hlate, hpoll⟩ | ⟨hcall, htaken, rfl, hnil⟩
  · -- a call of the stream
    have hact : n.step F (.act i a) = some ((n.called i a).put i e' (outputsOf (l i) out)) := by
      cases a with
      | poll as late => exact absurd rfl (ha as late)
      | _ => exact Option.map_eq_some_iff.mpr ⟨_, hcall, rfl⟩
    refine ⟨_, _, .call rfl hcall rfl hact, ?_, hlog, after_log_other⟩
    obtain ⟨hrets, hwritten⟩ := ((n.hist i).call a).noteAll_returned (outputsOf (l i) out)
    refine hR.next hc hstep hrest hpend hharm₂ ?_ ?_ ?_ ?_ ?_ ?_ ?_ ?_
    · rw [Net.put_ends_self]
      exact he'
    · rw [Net.put_ends_self]
      exact ⟨(Endpoint.step_fixed hcall).2, Endpoint.step_port hcall⟩
    · rw [Net.put_ends_ne _ _ _ _ i.other_ne, Net.called_ends]
    · rw [Net.put_wire_self, Net.called_wire]
      exact hnone htaken
    · rw [Net.put_wire_ne _ _ _ _ i.other_ne, Net.called_wire]
    · rw [Net.put_hist_ne _ _ _ _ i.other_ne, Net.called_hist_ne _ _ _ i.other_ne]
    · rw [Net.put_hist_self, Net.called_hist_self, hwritten]
      cases a with
      | write bytes =>
        show _ = _ ++ List.filterMap _ _
        simp [History.call]
      | _ => exact (List.append_nil _).symm
    · rw [Net.put_hist_self, Net.called_hist_self, hrets]
      cases a <;> rfl
  · -- a poll
    have has := arrivals_pack (C.host i).parser ((C.host i).taken c)
    have hread : calls ((C.host i).parser.feed (((C.host i).taken c).map Incoming.byte)).2 =
        xs.map Parcel.packet := hxs.symm
    rw [hread, List.filterMap_map] at has
    obtain ⟨bs, hbs, heq⟩ := (n.ends i).socket.handleAll_parcels F (n.ends i).kind
      (n.ends i).address xs _ has hharm₁
    have htake : (n.ends i).takeAll F bs = (n.ends i).takeAll F
        (Device.arrivals (C.host i).parser ((C.host i).taken c)) := by
      unfold Endpoint.takeAll
      rw [heq]
    have hpoll' : (n.ends i).step F (.poll bs late) = some (e', outputsOf (l i) out) := by
      have h := Endpoint.step_poll.mp hpoll
      rw [← htake] at h
      exact Endpoint.step_poll.mpr h
    have hw : n.wire i = bs.map Arrival.pack ++ ys.filterMap Sum.getLeft? := by
      rw [hwzs, List.filterMap_append, hbs]
    refine ⟨_, _, .poll hcall hlate hw hpoll' rfl (Net.step_poll_of_endpoint hw hpoll'), ?_, hlog,
      after_log_other⟩
    obtain ⟨hrets, hwritten⟩ := (n.hist i).noteAll_returned (outputsOf (l i) out)
    refine hR.next hc hstep hrest hpend hharm₂ ?_ ?_ ?_ ?_ ?_ ?_ ?_ ?_
    · rw [Net.put_ends_self]
      exact he'
    · rw [Net.put_ends_self]
      exact ⟨(Endpoint.step_fixed hpoll').2, Endpoint.step_port hpoll'⟩
    · rw [Net.put_ends_ne _ _ _ _ i.other_ne, Net.withWire_ends]
    · rw [Net.put_wire_self, Net.withWire_wire_self]
    · rw [Net.put_wire_ne _ _ _ _ i.other_ne, Net.withWire_wire_ne _ _ _ i.other_ne]
    · rw [Net.put_hist_ne _ _ _ _ i.other_ne, Net.withWire_hist]
    · rw [Net.put_hist_self, Net.withWire_hist, hwritten, Host.writtenTo_of_ne hcall, List.append_nil]
    · rw [Net.put_hist_self, Net.withWire_hist, hrets]
  · -- nothing that concerns the stream
    rw [hnil] at hlog
    refine ⟨n, [], .same hcall, hR.next hc hstep hrest hpend hharm₂ he' ⟨rfl, rfl⟩ rfl (hnone htaken)
      ?_ rfl ?_ ?_, hlog, after_log_other⟩
    · rw [hnil]
      exact (List.append_nil _).symm
    · rw [Host.writtenTo_of_ne hcall, List.append_nil]
    · rw [hnil]
      exact (List.append_nil _).symm

/-- **The refinement.**  Every step of the two devices that is `Private` to two of their streams is
a step of the net of the two, or none. -/
theorem refines (F : OnFull UInt8) (l : Side → Nat) (P : Side → Action → Prop) :
    Simulates (Cable.step F) (fun C x => Private F l C x ∧ Calls l P x) (Net.step F)
      (fun _ x => ∀ i a, x = .act i a → P i a) (Abs l) := by
  rintro C ⟨i, c⟩ C' n hR ⟨hc, hcalls⟩ h
  obtain ⟨n', out, hshown, hR', -⟩ := hR.step hc h
  refine ⟨n', ?_, hR'⟩
  cases hshown with
  | @call a _ _ _ hsocket _ _ hact =>
    refine .single (fun j b heq => ?_) hact
    cases heq
    rw [hsocket] at hcalls
    exact hcalls rfl
  | poll _ _ _ _ _ hpoll => exact .single (fun j b heq => by cases heq) hpoll
  | same => exact .refl n

/-! ## Runs -/

/-- The streams `l` are the new endpoints `e`, and nothing is on the cable yet. -/
structure New (l : Side → Nat) (e : Side → Endpoint) (C : Cable) : Prop where
  distinct : ∀ i, (C.host i).Distinct
  listed : ∀ i, l i ∈ (C.host i).sockets.toList
  endpoint : ∀ i, (C.host i).endpoint (l i) = some (e i)
  client : (e .left).kind = .client
  server : (e .right).kind = .server
  closed : ∀ i, (e i).socket.state = .closed
  idle : ∀ i, (e i).call = .idle
  clean : ∀ i, (C.host i).parser.stuffFlag = false
  wire : ∀ i, C.wire i = []
  acts : ∀ i, C.acts i = []
  log : ∀ i, C.log i = []

variable {e : Side → Endpoint}

theorem New.abs (h : C.New l e) : Abs l C { ends := e } where
  distinct := h.distinct
  listed := h.listed
  endpoint := h.endpoint
  pending i := by
    refine ⟨[], ?_, rfl, fun p hp => by cases hp⟩
    rw [h.wire]
    exact .nil (h.clean i)
  written i := by
    rw [h.acts]
    rfl
  returned i := by
    rw [h.log]
    rfl

/-- **The cable and the net.**  Every run of the two devices in which `set_address` is not called,
both streams stay bound and only they send to their ports is a run of the net: it has the same
two ends, and they have been told to write the same strings and have returned the same results. -/
theorem run_refines (F : OnFull UInt8) (l : Side → Nat) (C : Cable) (n : Net) (h : Abs l C n)
    (cs : List (Side × HostAction)) (hok : Meets (Cable.step F) (Private F l) C cs) (C' : Cable)
    (hrun : run (Cable.step F) C cs = some C') : ∃ as n', run (Net.step F) n as = some n' ∧
      (∀ i, (C'.host i).endpoint (l i) = some (n'.ends i) ∧
        (n'.hist i).written = writtenTo (l i) (C'.acts i) ∧
        (n'.hist i).returned = retsOf (outputsOf (l i) (C'.log i))) ∧ Abs l C' n' := by
  have hboth : Meets (Cable.step F) (fun C x => Private F l C x ∧ Calls l (fun _ _ => True) x) C cs := by
    refine hok.imp fun C x hx => ⟨hx, ?_⟩
    unfold Calls
    split
    · exact fun _ => trivial
    · trivial
  obtain ⟨n', ⟨as, -, hrun'⟩, hR⟩ := (refines F l fun _ _ => True).run h hboth hrun
  exact ⟨as, n', hrun', fun i => ⟨hR.endpoint i, hR.written i, hR.returned i⟩, hR⟩

end Cable

theorem twoDevices_new : twoDevices.New (fun _ => 0) newPair where
  distinct i := by cases i <;> exact List.nodup_singleton _
  listed i := by cases i <;> exact List.mem_singleton_self 0
  endpoint i := by cases i <;> rfl
  client := rfl
  server := rfl
  closed i := by cases i <;> rfl
  idle i := by cases i <;> rfl
  clean i := by cases i <;> rfl
  wire _ := rfl
  acts _ := rfl
  log _ := rfl

theorem oneCall_refined : ∃ C as n,
    run (Cable.step (OnFull.refuse UInt8)) twoDevices oneCall = some C ∧
    run (Net.step (OnFull.refuse UInt8)) { ends := newPair } as = some n ∧
    (n.hist .left).returned = [Error.none] := by
  have hrets : (run (Cable.step (OnFull.refuse UInt8)) twoDevices oneCall).map (fun C =>
      retsOf (outputsOf 0 (C.log .left))) = some [Error.none] := by decide +kernel
  obtain ⟨C, hrun, hret⟩ := Option.map_eq_some_iff.mp hrets
  obtain ⟨as, n, hn, hends, -⟩ := Cable.run_refines (OnFull.refuse UInt8) (fun _ => 0) twoDevices _
    twoDevices_new.abs oneCall (by decide +kernel) C hrun
  exact ⟨C, as, n, hrun, hn, (hends .left).2.2.trans hret⟩

end PicoLan
