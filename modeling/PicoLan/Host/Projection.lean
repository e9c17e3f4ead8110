import PicoLan.Host.Steps
import PicoLan.Lib.Simulation

/-!
# Each stream of a device

Whatever else a device does, each of its streams makes a run of `Endpoint` alone
(`Host.projects`): it is handed the datagrams that have come while some call of the
device was waiting, and puts out its part of what the device puts out.  So what the steps
of an endpoint keep holds of every stream of a device (`Host.stream_invariant`).
-/

namespace PicoLan

open Runs

namespace Host

variable (F : OnFull UInt8)

/-! ## What a stream is handed -/

/-- The datagrams offered to the socket `l` among these bytes. -/
def seen (H : Host) (l : Nat) (bytes : List Incoming) : List Arrival :=
  if l ∈ H.sockets.toList then Device.arrivals H.parser bytes else []

/-- What a step is to the stream `l`. -/
def actions (H : Host) (l : Nat) : HostAction → List Action
  | .device a => [.poll (H.seen l (H.toDevice.taken a)) false]
  | .socket m a => if m = l then [a] else []
  | .poll bytes late => [.poll (H.seen l bytes) late]
  | _ => []

theorem read_endpoint {H : Host} (hnd : H.sockets.toList.Nodup) {l : Nat} {e : Endpoint}
    (he : H.endpoint l = some e) (bytes : List Incoming) :
    (H.toDevice.read F bytes).device.object l =
        .stream e.kind (e.takeAll F (H.seen l bytes)).1.socket ∧
      outputsOf l (H.toDevice.readLog F bytes) = (e.takeAll F (H.seen l bytes)).2 := by
  unfold endpoint at he
  rw [Device.read_interface, Device.outputsOf_readLog]
  cases hobj : H.object l with
  | datagram s =>
    rw [hobj] at he
    cases he
  | stream k s =>
    rw [hobj] at he
    cases he
    unfold seen
    split
    · next hl =>
      obtain ⟨hobj', hsent⟩ := H.toInterface.handleAll_stream F (Device.arrivals H.parser bytes) l hl
        hnd k s hobj
      exact ⟨hobj', congrArg _ hsent⟩
    · next hl =>
      obtain ⟨hobj', hsent⟩ := H.toInterface.handleAll_unlisted F (Device.arrivals H.parser bytes) l hl
      exact ⟨hobj'.trans hobj, congrArg _ hsent⟩

section

variable {H H' : Host} {l : Nat} {e : Endpoint}

/-- The datagrams that have come are handed to a stream. -/
theorem read_some (hnd : H.sockets.toList.Nodup) (he : H.endpoint l = some e)
    {bytes : List Incoming} (hobj : H'.object = (H.toDevice.read F bytes).device.object)
    (haddr : H'.address = H.address) (hcall : H'.callOf l = H.callOf l) :
    H'.endpoint l = some (e.takeAll F (H.seen l bytes)).1 := by
  obtain ⟨-, haddr₀, hcall₀⟩ := endpoint_some.mp he
  refine endpoint_some.mpr ⟨?_, ?_, ?_⟩
  · rw [hobj]
    exact (read_endpoint F hnd he bytes).1
  · exact haddr₀.trans haddr.symm
  · exact hcall₀.trans hcall.symm

theorem idle_poll {as : List Arrival} {late : Bool} (hidle : e.call = .idle) :
    e.step F (.poll as late) = some (e.takeAll F as) := by
  have hresume : (e.takeAll F as).1.resume late = ((e.takeAll F as).1, []) :=
    Endpoint.resume_idle hidle
  refine Endpoint.step_poll.mpr ⟨?_, ?_, ?_⟩
  · unfold Endpoint.atTop
    rw [hidle]
  · rw [hresume]
    rfl
  · rw [hresume]
    exact (List.append_nil _).symm

end

/-! ## One step, seen from a stream -/

section

variable {F} {H H' : Host} {l : Nat} {e : Endpoint} {c : HostAction} {out : List HostOutput}

theorem outputsOf_storeStream (H : Host) (l m : Nat) (r : Endpoint × List Output) :
    outputsOf l (H.storeStream m r).2 = if m = l then r.2 else [] :=
  outputsOf_socket l m r.2

theorem not_datagram {s : Socket} {m : Nat} (he : H.endpoint l = some e)
    (hobj : H.object m = .datagram s) : l ≠ m := by
  rintro rfl
  obtain ⟨hstream, -⟩ := endpoint_some.mp he
  rw [hobj] at hstream
  cases hstream

/-- **One step.**  To each stream it is its own steps, and nothing else. -/
theorem step_endpoint (hnd : H.sockets.toList.Nodup) (h : H.step F c = some (H', out))
    (hc : ∀ addr, c ≠ .device (.setAddress addr)) (he : H.endpoint l = some e) :
    ∃ e', H'.endpoint l = some e' ∧
      run (logged (Endpoint.step F)) (e, []) (H.actions l c) = some (e', outputsOf l out) := by
  obtain ⟨hobj, haddr, hcall⟩ := endpoint_some.mp he
  generalize hr : (H', out) = r at h
  cases step_did F h with
  | @device a o hrun ha ho =>
    cases hr
    have heff := Device.step_effect F ho ha
    have hidle : e.call = .idle := hcall.trans (callOf_of_none hrun l)
    refine ⟨_, read_some F hnd he heff.object (heff.address fun addr hne => hc addr (congrArg _ hne))
      rfl, run_logged_one.mpr ?_⟩
    rw [heff.outputs, (read_endpoint F hnd he _).2]
    exact idle_poll F hidle
  | @destroy m hidle hrun =>
    cases hr
    refine ⟨e, endpoint_some.mpr ⟨?_, ?_, hcall⟩, rfl⟩
    · rw [← hobj]
      show (H.toTable.destroy m).object l = _
      unfold Table.destroy
      split <;> rfl
    · rw [haddr]
      show _ = (H.toTable.destroy m).address
      unfold Table.destroy
      split <;> rfl
  | @socket m a e' r' hfree ha he' hr' =>
    have hfixed := Endpoint.step_fixed hr'
    by_cases hm : m = l
    · subst hm
      cases he.symm.trans he'
      cases hr
      refine ⟨_, storeStream_endpoint H m (hfixed.2.trans haddr), ?_⟩
      rw [outputsOf_socket, if_pos rfl]
      show run _ _ (if m = m then [a] else []) = _
      rw [if_pos rfl]
      exact run_logged_one.mpr hr'
    · cases hr
      have hidle : e.call = .idle := by
        rw [hcall]
        cases hrun : H.running with
        | none => exact callOf_of_none hrun l
        | some r =>
          refine callOf_of_ne (l := m) (c := r.2) ?_ (Ne.symm hm)
          rw [hrun, ← hfree.2 r hrun]
      refine ⟨e, store_endpoint_ne H _ _ (Ne.symm hm) he hidle, ?_⟩
      rw [outputsOf_socket, if_neg hm]
      show run _ _ (if m = l then [a] else []) = _
      rw [if_neg hm]
      rfl
  | @write m dest port data s hobj' hidle hrun =>
    cases hr
    refine ⟨e, he, ?_⟩
    rw [outputsOf_socket, if_neg (Ne.symm (not_datagram he hobj'))]
    rfl
  | @subscribe m sub s hobj' hidle hrun =>
    cases hr
    exact ⟨e, he, rfl⟩
  | @receive m len s hobj' hidle hrun =>
    obtain ⟨c, hstore, hout⟩ := storeDatagram_eq H m (s.goOn [] len) len false
    have hm := not_datagram he hobj'
    obtain ⟨rfl, rfl⟩ := Prod.ext_iff.mp hr
    refine ⟨e, ?_, ?_⟩
    · rw [hstore]
      exact store_endpoint_ne H _ _ hm he (hcall.trans (callOf_of_none hrun l))
    · rw [hout l hm]
      rfl
  | @pollStream m c bytes late kind socket hrun hobj' htop =>
    have hread : (H.received F bytes).endpoint l = some (e.takeAll F (H.seen l bytes)).1 :=
      read_some F hnd he rfl (received_address F H bytes) rfl
    have hpart := (read_endpoint F hnd he bytes).2
    obtain ⟨rfl, rfl⟩ := Prod.ext_iff.mp hr
    by_cases hm : m = l
    · subst hm
      -- the stream that is waiting
      obtain ⟨hobj₁, -, -⟩ := endpoint_some.mp hread
      have hcalls : e.call = c := hcall.trans (callOf_of_some hrun)
      have hstream : (e.takeAll F (H.seen m bytes)).1 = ⟨kind, H.address, socket, c⟩ := by
        cases hobj₁.symm.trans hobj'
        rw [← haddr, ← hcalls]
        rfl
      refine ⟨_, storeStream_endpoint _ m ?_, run_logged_one.mpr ?_⟩
      · exact (Endpoint.resume_fixed _ late).2.trans (received_address F H bytes).symm
      · refine Endpoint.step_poll.mpr ⟨?_, ?_, ?_⟩
        · rw [← htop, ← hcalls]
          rfl
        · rw [hstream]
        · rw [outputsOf_append, hpart, outputsOf_storeStream, if_pos rfl, hstream]
    · have hidle : e.call = .idle := hcall.trans (callOf_of_ne hrun (Ne.symm hm))
      refine ⟨_, store_endpoint_ne _ _ _ (Ne.symm hm) hread hidle, run_logged_one.mpr ?_⟩
      rw [outputsOf_append, hpart, outputsOf_storeStream, if_neg hm, List.append_nil]
      exact idle_poll F hidle
  | @pollDatagram m len got bytes late s hrun hobj' =>
    have hread : (H.received F bytes).endpoint l = some (e.takeAll F (H.seen l bytes)).1 :=
      read_some F hnd he rfl (received_address F H bytes) rfl
    have hpart := (read_endpoint F hnd he bytes).2
    have hm : l ≠ m := not_datagram hread hobj'
    have hidle : e.call = .idle := hcall.trans (callOf_of_ne hrun hm)
    obtain ⟨c, hstore, hout⟩ := storeDatagram_eq (H.received F bytes) m
      (if late then (s, got) else s.goOn got len) len late
    obtain ⟨rfl, rfl⟩ := Prod.ext_iff.mp hr
    refine ⟨(e.takeAll F (H.seen l bytes)).1, ?_, run_logged_one.mpr ?_⟩
    · rw [hstore]
      exact store_endpoint_ne _ _ _ hm hread hidle
    · rw [outputsOf_append, hpart, hout l hm, List.append_nil]
      exact idle_poll F hidle

end

/-! ## Runs -/

/-- `e` is the stream `l`, and has put out its part of the log. -/
structure Shows (l : Nat) (x : Host × List HostOutput) (y : Endpoint × List Output) : Prop where
  distinct : x.1.Distinct
  endpoint : x.1.endpoint l = some y.1
  outputs : y.2 = outputsOf l x.2

/-- **Each stream of a device** makes a run of its own, as long as the address stays. -/
theorem projects (l : Nat) : Simulates (logged (Host.step F))
    (fun _ c => ∀ addr, c ≠ .device (.setAddress addr)) (logged (Endpoint.step F)) (fun _ _ => True)
    (Shows l) := by
  intro x c x' y hR hc h
  obtain ⟨out, hstep, hlog⟩ := logged_some.mp h
  obtain ⟨e', he', hrun⟩ := step_endpoint (nodup_of_distinct hR.distinct) hstep hc hR.endpoint
  refine ⟨(e', y.2 ++ outputsOf l out), ⟨_, ?_, run_logged hrun⟩, ⟨?_, he', ?_⟩⟩
  · exact Meets.of_forall (fun _ _ => trivial) _ _
  · exact step_distinct hR.distinct hstep
  · rw [hlog, outputsOf_append, hR.outputs]

/-- **The invariant rule for devices.**  What the steps of an endpoint keep, whatever its
address, every stream of a device keeps. -/
theorem stream_invariant {I : Endpoint → Prop}
    (hI : ∀ e a e' out, I e → e.step F a = some (e', out) → I e')
    (haddr : ∀ e address, I e → I { e with address }) {H H' : Host} {log : List HostOutput}
    {cs : List HostAction} (hd : H.Distinct) {l : Nat} {e : Endpoint} (he : H.endpoint l = some e)
    (hinv : I e) (hrun : run (logged (Host.step F)) (H, []) cs = some (H', log)) :
    ∃ e', H'.endpoint l = some e' ∧ I e' := by
  have hkeep : ∀ x c x', (x.1.Distinct ∧ ∃ e, x.1.endpoint l = some e ∧ I e) →
      logged (Host.step F) x c = some x' → x'.1.Distinct ∧ ∃ e, x'.1.endpoint l = some e ∧ I e := by
    rintro x c x' ⟨hd, e, he, hinv⟩ h
    obtain ⟨out, hstep, -⟩ := logged_some.mp h
    refine ⟨step_distinct hd hstep, ?_⟩
    by_cases hc : ∃ addr, c = .device (.setAddress addr)
    · obtain ⟨addr, rfl⟩ := hc
      obtain ⟨hobj, -, hcall⟩ := endpoint_some.mp he
      generalize hr : (x'.1, out) = r at hstep
      cases step_did F hstep with
      | device hrun ha ho =>
        obtain ⟨-, rfl⟩ := Device.begin_some (Device.step_perform F ho)
        obtain ⟨hx, -⟩ := Prod.ext_iff.mp hr
        rw [show x'.1 = _ from hx]
        exact ⟨{ e with address := addr }, endpoint_some.mpr ⟨hobj, rfl, hcall⟩, haddr e addr hinv⟩
    · obtain ⟨e', he', hrun⟩ := step_endpoint (nodup_of_distinct hd) hstep
        (fun addr h => hc ⟨addr, h⟩) he
      refine ⟨e', he', run_always (I := fun y : Endpoint × List Output => I y.1) ?_ hinv hrun⟩
      intro y a y' hy hlogged
      obtain ⟨out', hout, -⟩ := logged_some.mp hlogged
      exact hI y.1 a y'.1 out' hy hout
  exact (run_always hkeep ⟨hd, e, he, hinv⟩ hrun).2

/-- **A device is its streams.**  In every run in which the address stays, each stream makes a
run of its own, which puts out the stream's part of what the device puts out. -/
theorem stream_run (F : OnFull UInt8) (H : Host) (hd : H.Distinct) (cs : List HostAction)
    (hc : ∀ addr, .device (.setAddress addr) ∉ cs) (H' : Host) (log : List HostOutput)
    (hrun : run (logged (Host.step F)) (H, []) cs = some (H', log)) (l : Nat) (e : Endpoint)
    (he : H.endpoint l = some e) : ∃ as e', H'.endpoint l = some e' ∧
      run (logged (Endpoint.step F)) (e, []) as = some (e', outputsOf l log) := by
  have hmeets : Meets (logged (Host.step F)) (fun _ c => ∀ addr, c ≠ .device (.setAddress addr))
      (H, []) cs := by
    refine Meets.of_forall_mem (fun x c hmem => ?_) _
    rintro addr rfl
    exact hc addr hmem
  obtain ⟨⟨e', out⟩, ⟨as, -, has⟩, hR⟩ :=
    (projects F l).run (t := (e, [])) ⟨hd, he, rfl⟩ hmeets hrun
  obtain rfl : out = outputsOf l log := hR.outputs
  exact ⟨as, e', hR.endpoint, has⟩

/-- A server is called while its device waits for the addresses. -/
def calledWhileListing : List HostAction :=
  [.socket 0 .listen, .device (.getAddrList 100 0),
    .device (.pass 1 (((Packet.datagramPack ⟨6, 2, 1, 80, BoundedList.empty.appendAll [1, 1, 40]⟩).emit
      ⟨0, 0, []⟩).map (⟨·, fun _ => 0⟩)) 1)]

theorem stream_run_called : ∃ H log, run (logged (Host.step (OnFull.refuse UInt8)))
      (deviceWith .server 1 80, []) calledWhileListing = some (H, log) ∧
    ∃ e as e', (deviceWith .server 1 80).endpoint 0 = some e ∧ H.endpoint 0 = some e' ∧
      run (logged (Endpoint.step (OnFull.refuse UInt8))) (e, []) as = some (e', outputsOf 0 log) := by
  obtain ⟨⟨H, log⟩, hrun⟩ : ∃ x, run (logged (Host.step (OnFull.refuse UInt8)))
      (deviceWith .server 1 80, []) calledWhileListing = some x :=
    Option.isSome_iff_exists.mp (by decide +kernel)
  obtain ⟨as, e', he', has⟩ := stream_run (OnFull.refuse UInt8) (deviceWith .server 1 80)
    (List.nodup_singleton _) calledWhileListing (fun addr h => by simp [calledWhileListing] at h) H log hrun 0 _ rfl
  exact ⟨H, log, hrun, _, as, e', rfl, he', has⟩

end Host

end PicoLan
