import PicoLan.Host.Host

/-!
# The steps of a device

`Host.Did` lists what a step can be, with all that has been checked by then, and the proofs
about devices go by cases on it.  In every step the ports on the list go on differing
(`Host.step_distinct`).
-/

namespace PicoLan

/-! ## Ports -/

namespace Endpoint

theorem hangUp_port (e : Endpoint) (r : Int) : (e.hangUp r).1.socket.port = e.socket.port := by
  show (e.socket.disconnect e.address).1.port = _
  rw [disconnect_socket]

theorem endRead_port (e : Endpoint) (got : List UInt8) :
    (e.endRead got).1.socket.port = e.socket.port := by
  unfold endRead
  dsimp only
  split
  · split
    · show (e.socket.disconnect e.address).1.port = _
      rw [disconnect_socket]
    · rfl
  · rfl

theorem goOnReading_port (e : Endpoint) (got : List UInt8) (len : Nat) :
    (e.goOnReading got len).1.socket.port = e.socket.port := by
  unfold goOnReading
  dsimp only
  split
  · rfl
  · exact endRead_port _ _

theorem resume_port (e : Endpoint) (late : Bool) :
    (e.resume late).1.socket.port = e.socket.port := by
  unfold resume
  split
  · rfl
  · split
    · rfl
    split
    · rfl
    split
    · exact hangUp_port e _
    · rfl
  · split
    · exact hangUp_port e _
    split
    · rfl
    split
    · exact hangUp_port e _
    · rfl
  · split
    · exact endRead_port e _
    · exact goOnReading_port e _ _
  · next w hc =>
    split
    · rfl
    · rfl
    · split
      · have hport : (w.evaluate e.socket).1.port = e.socket.port := by rw [w.evaluate_socket]
        unfold afterPass
        split
        · next hw =>
          rw [hw] at hport
          exact hport
        · next hw =>
          rw [hw] at hport
          exact hport
      · rfl

/-- The port of a socket stays. -/
theorem step_port {F : OnFull UInt8} {e e' : Endpoint} {a : Action} {out : List Output}
    (h : e.step F a = some (e', out)) : e'.socket.port = e.socket.port := by
  cases a with
  | poll as late =>
    obtain ⟨-, rfl, -⟩ := step_poll.mp h
    exact (resume_port (e.takeAll F as).1 late).trans
      (SocketStream.handleAll_port F e.kind e.socket e.address as)
  | burst =>
    obtain ⟨w, -, -, rfl, -⟩ := step_burst.mp h
    rfl
  | connect r port =>
    obtain ⟨-, -, rfl, -⟩ := step_connect.mp h
    unfold connect
    split <;> rfl
  | listen =>
    obtain ⟨-, -, rfl, -⟩ := step_listen.mp h
    unfold listen
    split <;> rfl
  | accept =>
    obtain ⟨-, -, rfl, -⟩ := step_accept.mp h
    unfold accept
    split <;> rfl
  | disconnect =>
    obtain ⟨-, rfl, -⟩ := step_disconnect.mp h
    show (e.socket.disconnect e.address).1.port = _
    rw [disconnect_socket]
  | write bytes =>
    obtain ⟨-, rfl, -⟩ := step_write.mp h
    unfold write
    split
    · rfl
    split <;> rfl
  | read len =>
    obtain ⟨-, rfl, -⟩ := step_read.mp h
    unfold read
    split
    · rfl
    · exact goOnReading_port e [] len

end Endpoint

namespace Host

variable (F : OnFull UInt8)

/-! ## What is stored -/

section

variable {H H' : Host} {l m : Nat} {e : Endpoint}

theorem endpoint_some : H.endpoint l = some e ↔
    H.object l = .stream e.kind e.socket ∧ e.address = H.address ∧ e.call = H.callOf l := by
  unfold endpoint
  constructor
  · intro h
    split at h
    · next kind socket hobj =>
      cases h
      exact ⟨hobj, rfl, rfl⟩
    · cases h
  · rintro ⟨hobj, haddr, hcall⟩
    rw [hobj, ← haddr, ← hcall]

theorem callOf_of_none (h : H.running = none) (l : Nat) : H.callOf l = .idle := by
  unfold callOf
  rw [h]

theorem callOf_of_ne {c : Call} (h : H.running = some (l, c)) (hm : m ≠ l) :
    H.callOf m = .idle := by
  unfold callOf
  rw [h]
  exact if_neg (Ne.symm hm)

theorem callOf_of_some {c : Call} (h : H.running = some (l, c)) : H.callOf l = c := by
  unfold callOf
  rw [h]
  exact if_pos rfl

theorem store_callOf (H : Host) (l : Nat) (b : Bound) (c : Call) : (H.store l b c).callOf l = c := by
  unfold callOf store
  cases c <;> simp

theorem store_callOf_ne (H : Host) {l m : Nat} (b : Bound) (c : Call) (hm : m ≠ l) :
    (H.store l b c).callOf m = .idle := by
  unfold callOf store
  cases c <;> simp [Ne.symm hm]

theorem store_object (H : Host) (l : Nat) (b : Bound) (c : Call) : (H.store l b c).object l = b :=
  Function.update_self ..

theorem store_object_ne (H : Host) {l m : Nat} (b : Bound) (c : Call) (hm : m ≠ l) :
    (H.store l b c).object m = H.object m :=
  Function.update_of_ne hm ..

theorem storeStream_endpoint (H : Host) (l : Nat) {r : Endpoint × List Output}
    (haddr : r.1.address = H.address) : (H.storeStream l r).1.endpoint l = some r.1 :=
  endpoint_some.mpr ⟨store_object .., haddr, (store_callOf ..).symm⟩

/-- The other streams. -/
theorem store_endpoint_ne (H : Host) {l m : Nat} (b : Bound) (c : Call) (hm : m ≠ l)
    (he : H.endpoint m = some e) (hidle : e.call = .idle) : (H.store l b c).endpoint m = some e := by
  obtain ⟨hobj, haddr, -⟩ := endpoint_some.mp he
  refine endpoint_some.mpr ⟨?_, haddr, ?_⟩
  · rw [store_object_ne H b c hm]
    exact hobj
  · rw [store_callOf_ne H b c hm]
    exact hidle

end

/-! ## What a step can do -/

/-- The steps of a device. -/
inductive Did (H : Host) : HostAction → Host × List HostOutput → Prop where
  | device {a : DeviceAction} {o : Device.Outcome} (hrun : H.running = none)
      (ha : ∀ object, a ≠ .sockets object) (ho : H.toDevice.step F a = some o) :
    Did H (.device a) ({ H with toDevice := o.device }, H.toDevice.log F a o)
  | destroy {l : Nat} (hidle : H.call = .idle) (hrun : H.running = none) :
    Did H (.destroy l) ({ H with toTable := H.toTable.destroy l }, [])
  | socket {l : Nat} {a : Action} {e : Endpoint} {r : Endpoint × List Output} (hfree : H.Free l)
      (ha : ∀ as late, a ≠ .poll as late) (he : H.endpoint l = some e) (hr : e.step F a = some r) :
    Did H (.socket l a) (H.storeStream l r)
  | write {l : Nat} {dest port : UInt8} {data : List UInt8} {s : Socket}
      (hobj : H.object l = .datagram s) (hidle : H.call = .idle) (hrun : H.running = none) :
    Did H (.write l dest port data)
      (H, ((Datagram.write H.address dest port data).2.map Output.sent ++
        [Output.ret (Datagram.write H.address dest port data).1]).map (.socket l))
  | subscribe {l : Nat} {sub : Bool} {s : Socket} (hobj : H.object l = .datagram s)
      (hidle : H.call = .idle) (hrun : H.running = none) :
    Did H (.subscribe l sub) (H, [.own (.subscribePack (Datagram.subscribe s H.address sub))])
  | receive {l len : Nat} {s : Socket} (hobj : H.object l = .datagram s) (hidle : H.call = .idle)
      (hrun : H.running = none) :
    Did H (.receive l len) (H.storeDatagram l (s.goOn [] len) len false)
  | pollStream {l : Nat} {c : Call} {bytes : List Incoming} {late : Bool} {kind : Kind}
      {socket : SocketStream} (hrun : H.running = some (l, c))
      (hobj : (H.received F bytes).object l = .stream kind socket)
      (htop : Endpoint.atTop ⟨kind, H.address, socket, c⟩ = false) :
    Did H (.poll bytes late)
      (((H.received F bytes).storeStream l (Endpoint.resume ⟨kind, H.address, socket, c⟩ late)).1,
        H.toDevice.readLog F bytes ++
          ((H.received F bytes).storeStream l (Endpoint.resume ⟨kind, H.address, socket, c⟩ late)).2)
  | pollDatagram {l len : Nat} {got : List UInt8} {bytes : List Incoming} {late : Bool} {s : Socket}
      (hrun : H.running = some (l, .reading got len))
      (hobj : (H.received F bytes).object l = .datagram s) :
    Did H (.poll bytes late)
      (((H.received F bytes).storeDatagram l
          (if late then (s, got) else s.goOn got len) len late).1,
        H.toDevice.readLog F bytes ++
          ((H.received F bytes).storeDatagram l
            (if late then (s, got) else s.goOn got len) len late).2)

theorem received_address (H : Host) (bytes : List Incoming) :
    (H.received F bytes).address = H.address :=
  (Device.read_left F H.toDevice bytes).2.2.address

theorem step_did {H : Host} {c : HostAction} {r : Host × List HostOutput}
    (h : H.step F c = some r) : H.Did F c r := by
  cases c with
  | device a =>
    cases hrun : H.running with
    | some r' =>
      simp only [step, hrun] at h
      cases h
    | none =>
      cases a with
      | sockets object =>
        simp only [step, hrun] at h
        cases h
      | _ =>
        simp only [step, hrun] at h
        obtain ⟨o, ho, rfl⟩ := Option.map_eq_some_iff.mp h
        rw [← hrun]
        exact .device hrun (fun _ hne => by cases hne) ho
  | destroy l =>
    obtain ⟨⟨hidle, hrun⟩, h⟩ := Option.ite_none_right_eq_some.mp h
    cases h
    exact .destroy hidle hrun
  | socket l a =>
    obtain ⟨hfree, h⟩ := Option.ite_none_right_eq_some.mp h
    split at h
    · cases h
    · cases h
    · next e hne he _ =>
      split at h
      · cases h
      · next r' hr =>
        obtain ⟨-, h⟩ := Option.ite_none_left_eq_some.mp h
        cases h
        exact .socket hfree (fun as late ha => hne as late ha) he hr
  | write l dest port data =>
    unfold step at h
    dsimp only at h
    split at h
    · next s hobj =>
      obtain ⟨⟨hidle, hrun, -⟩, h⟩ := Option.ite_none_right_eq_some.mp h
      cases h
      exact .write hobj hidle hrun
    · cases h
  | subscribe l sub =>
    unfold step at h
    dsimp only at h
    split at h
    · next s hobj =>
      obtain ⟨⟨hidle, hrun, -⟩, h⟩ := Option.ite_none_right_eq_some.mp h
      cases h
      exact .subscribe hobj hidle hrun
    · cases h
  | receive l len =>
    unfold step at h
    dsimp only at h
    split at h
    · next s hobj =>
      obtain ⟨⟨hidle, hrun, -⟩, h⟩ := Option.ite_none_right_eq_some.mp h
      cases h
      exact .receive hobj hidle hrun
    · cases h
  | poll bytes late =>
    unfold step at h
    dsimp only at h
    split at h
    · cases h
    · next l c hrun =>
      obtain ⟨-, h⟩ := Option.ite_none_right_eq_some.mp h
      unfold poll at h
      dsimp only at h
      split at h
      · next kind socket hobj =>
        obtain ⟨htop, h⟩ := Option.ite_none_left_eq_some.mp h
        cases h
        rw [received_address] at htop ⊢
        exact .pollStream hrun hobj (Bool.eq_false_iff.mpr htop)
      · next s hobj =>
        split at h
        · next got len =>
          cases h
          exact .pollDatagram hrun hobj
        · cases h

/-! ## The ports on the list -/

section

variable {F} {H H' : Host} {c : HostAction} {out : List HostOutput}

theorem storeDatagram_eq (H : Host) (m : Nat) (r : Socket × List UInt8) (len : Nat) (late : Bool) :
    ∃ c : Call, (H.storeDatagram m r len late).1 = H.store m (.datagram r.1) c ∧
      ∀ l, l ≠ m → outputsOf l (H.storeDatagram m r len late).2 = [] := by
  unfold storeDatagram
  split
  · exact ⟨.reading r.2 len, rfl, fun _ _ => rfl⟩
  · refine ⟨.idle, rfl, fun l hl => ?_⟩
    exact (outputsOf_socket l m [.got r.2]).trans (if_neg (Ne.symm hl))

theorem storeStream_port {e : Endpoint} {l : Nat} {r : Endpoint × List Output}
    (he : H.object l = .stream e.kind e.socket) (hport : r.1.socket.port = e.socket.port) (m : Nat) :
    ((H.storeStream l r).1.object m).port = (H.object m).port := by
  by_cases hm : m = l
  · rw [hm]
    refine (congrArg Bound.port (store_object H l _ _)).trans ?_
    rw [he]
    exact hport
  · exact congrArg Bound.port (store_object_ne H _ _ hm)

theorem storeDatagram_port {s : Socket} {l : Nat} {r : Socket × List UInt8} {len : Nat} {late : Bool}
    (hs : H.object l = .datagram s) (hport : r.1.port = s.port) (m : Nat) :
    ((H.storeDatagram l r len late).1.object m).port = (H.object m).port := by
  obtain ⟨c, hstore, -⟩ := storeDatagram_eq H l r len late
  rw [hstore]
  by_cases hm : m = l
  · rw [hm]
    refine (congrArg Bound.port (store_object H l _ c)).trans ?_
    rw [hs]
    exact hport
  · exact congrArg Bound.port (store_object_ne H _ c hm)

theorem storeDatagram_sockets (H : Host) (l : Nat) (r : Socket × List UInt8) (len : Nat)
    (late : Bool) : (H.storeDatagram l r len late).1.sockets = H.sockets := by
  obtain ⟨c, hstore, -⟩ := storeDatagram_eq H l r len late
  rw [hstore]
  rfl

theorem goOn_port (s : Socket) (got : List UInt8) (len : Nat) (late : Bool) :
    (if late then (s, got) else s.goOn got len).1.port = s.port := by
  split <;> rfl

theorem distinct_congr {T T' : Table} (hsockets : T'.sockets = T.sockets)
    (hport : ∀ l, (T'.object l).port = (T.object l).port) (h : T.Distinct) : T'.Distinct := by
  unfold Table.Distinct
  rw [hsockets]
  simp only [hport]
  exact h

/-- The ports on the list go on differing. -/
theorem step_distinct (hd : H.Distinct) (h : H.step F c = some (H', out)) : H'.Distinct := by
  have hread : ∀ bytes, (H.received F bytes).Distinct := by
    intro bytes
    have hI := Device.read_interface F H.toDevice bytes
    refine distinct_congr (T := H.toTable) ?_ (fun l => ?_) hd
    · exact Device.read_sockets F H.toDevice bytes
    · show ((H.toDevice.read F bytes).device.object l).port = _
      rw [hI]
      exact Interface.handleAll_ports F H.toInterface _ l
  generalize hr : (H', out) = r at h
  cases step_did F h with
  | @device a o hrun ha ho =>
    cases hr
    have heff := Device.step_effect F ho ha
    rcases heff.table with hsockets | ⟨l, -, hbind⟩ | ⟨l, -, hunbind⟩
    · refine distinct_congr (T := H.toTable) hsockets (fun l => ?_) hd
      show (o.device.object l).port = _
      rw [heff.object, Device.read_interface]
      exact Interface.handleAll_ports F H.toInterface _ l
    · show o.device.toTable.Distinct
      rw [hbind]
      exact hd.bind l
    · show o.device.toTable.Distinct
      rw [hunbind]
      exact hd.unbindSocket l
  | @destroy m hidle hrun =>
    cases hr
    show (H.toTable.destroy m).Distinct
    unfold Table.destroy
    split
    · exact hd.unbindSocket m
    · exact hd
  | @socket l a e r' hfree ha he hr' =>
    cases hr
    obtain ⟨hobj, -, -⟩ := endpoint_some.mp he
    exact distinct_congr (T := H.toTable) rfl (storeStream_port hobj (Endpoint.step_port hr')) hd
  | write =>
    cases hr
    exact hd
  | subscribe =>
    cases hr
    exact hd
  | @receive l len s hobj hidle hrun =>
    obtain ⟨rfl, rfl⟩ := Prod.ext_iff.mp hr
    exact distinct_congr (T := H.toTable) (storeDatagram_sockets ..)
      (storeDatagram_port hobj (goOn_port s [] len false)) hd
  | @pollStream l c bytes late kind socket hrun hobj htop =>
    obtain ⟨rfl, rfl⟩ := Prod.ext_iff.mp hr
    exact distinct_congr (T := (H.received F bytes).toTable) rfl
      (storeStream_port (e := ⟨kind, H.address, socket, c⟩) hobj (Endpoint.resume_port _ late))
      (hread bytes)
  | @pollDatagram l len got bytes late s hrun hobj =>
    obtain ⟨rfl, rfl⟩ := Prod.ext_iff.mp hr
    exact distinct_congr (T := (H.received F bytes).toTable) (storeDatagram_sockets ..)
      (storeDatagram_port hobj (goOn_port s got len late)) (hread bytes)

theorem nodup_of_distinct (hd : H.Distinct) : H.sockets.toList.Nodup := List.Nodup.of_map _ hd

end

end Host

end PicoLan
