import PicoLan.Host.Answers
import PicoLan.Ping

/-!
# Asking over the cable

`ping` and `get_addr_list` between two devices that may be doing anything else.  A ping that
returns a time has been read by the other device (`Cable.ping_reached`), and one that has been
read returns it (`Cable.ping_returns`).  What `get_addr_list` leaves behind is the one address
of the other device (`Cable.listed_address`), and it returns, too (`Cable.listing_returns`).
-/

namespace PicoLan

open Runs

/-! ## The results and the lists -/

/-- What the interface's own calls have returned. -/
def resultsOf (out : List HostOutput) : List Int :=
  out.filterMap fun o => match o with
    | .ret r => some r
    | _ => none

@[simp] theorem resultsOf_append (out out' : List HostOutput) :
    resultsOf (out ++ out') = resultsOf out ++ resultsOf out' :=
  List.filterMap_append

theorem resultsOf_own (ps : List Packet) : resultsOf (ps.map .own) = [] := by
  simp [resultsOf, List.filterMap_map]

theorem resultsOf_sentLog (out : List (Nat × DatagramPack)) : resultsOf (sentLog out) = [] := by
  simp [resultsOf, sentLog, List.filterMap_map]

theorem resultsOf_ret (r : Option Int) : resultsOf (r.map HostOutput.ret).toList = r.toList := by
  cases r <;> rfl

def Packet.addressField : Packet → Option AddressField
  | .addrPack p => some p.addressField
  | _ => none

/-- A request for the addresses. -/
def Packet.request : Packet → Option GetAddrListPack
  | .getAddrListPack p => some p
  | _ => none

namespace Device

variable (F : OnFull UInt8)

theorem resultsOf_handleAllLog (D : Device) (behind : Nat → UInt8) (ps : List Packet) :
    resultsOf (D.handleAllLog F behind ps) = [] := by
  induction ps generalizing D with
  | nil => rfl
  | cons p ps ih =>
    show resultsOf (_ ++ _) = _
    rw [resultsOf_append, ih, List.append_nil]
    cases p with
    | datagramPack p => exact resultsOf_sentLog _
    | _ => exact resultsOf_own _

theorem resultsOf_readLog (D : Device) (bytes : List Incoming) : resultsOf (D.readLog F bytes) = [] := by
  induction bytes generalizing D with
  | nil => rfl
  | cons b bs ih =>
    show resultsOf (_ ++ _) = _
    rw [resultsOf_append, resultsOf_handleAllLog, ih]
    rfl

theorem resultsOf_log (D : Device) (a : DeviceAction) (o : Outcome) :
    resultsOf (D.log F a o) = o.returned.toList := by
  unfold log
  rw [resultsOf_append, resultsOf_ret]
  cases a with
  | read bytes => exact congrArg (· ++ _) (resultsOf_readLog F D _)
  | pass now bytes after => exact congrArg (· ++ _) (resultsOf_readLog F D _)
  | _ => exact congrArg (· ++ _) (resultsOf_own _)

theorem lastEcho_eq (v : UInt16) (ps : List Packet) :
    lastEcho v ps = (ps.filterMap Packet.echoPayload).getLast?.getD v := by
  have hmap : ps.filterMap Packet.echoPayload = (echoes ps).map PingEchoPack.payload := by
    unfold echoes
    rw [List.map_filterMap]
    refine List.filterMap_congr fun p _ => ?_
    cases p <;> rfl
  unfold lastEcho
  rw [hmap, List.getLast?_map]
  cases (echoes ps).getLast? <;> rfl

/-- The last list of addresses among `ps`, and `af` if there is none. -/
def lastField (af : AddressField) (ps : List Packet) : AddressField :=
  (ps.filterMap Packet.addressField).getLast?.getD af

theorem lastField_append (af : AddressField) (ps qs : List Packet) :
    lastField af (ps ++ qs) = lastField (lastField af ps) qs := by
  unfold lastField
  rw [List.filterMap_append, List.getLast?_append]
  cases (qs.filterMap Packet.addressField).getLast? <;> rfl

theorem handleAll_field (D : Device) (behind : Nat → UInt8) (ps : List Packet) :
    (D.handleAll F behind ps).1.addrField = lastField D.addrField ps := by
  induction ps generalizing D with
  | nil => rfl
  | cons p ps ih =>
    have hone : (D.handle F behind p).1.addrField = lastField D.addrField [p] := by
      cases p <;> rfl
    show (handleAll F (D.handle F behind p).1 behind ps).1.addrField = _
    rw [ih, hone, show p :: ps = [p] ++ ps by rfl, lastField_append]

/-- `addr_field` is what the last answer said. -/
theorem read_field (D : Device) (bytes : List Incoming) :
    (D.read F bytes).device.addrField = lastField D.addrField (D.incoming bytes) := by
  induction bytes generalizing D with
  | nil => rfl
  | cons b bs ih =>
    obtain ⟨-, hparser, -⟩ := readByte_left F D b
    have hsplit : D.incoming (b :: bs) =
        calls (D.parser.read b.byte).2 ++ (D.readByte F b).device.incoming bs := by
      unfold incoming
      rw [hparser]
      exact calls_append _ _
    have hone : (D.readByte F b).device.addrField =
        lastField D.addrField (calls (D.parser.read b.byte).2) :=
      handleAll_field F { D with parser := (D.parser.read b.byte).1 } b.behind _
    show ((D.readByte F b).device.read F bs).device.addrField = _
    rw [ih, hone, hsplit, lastField_append]

theorem hasAddr_false (ps : List Packet) :
    hasAddr ps = false ↔ ps.filterMap Packet.addressField = [] := by
  induction ps with
  | nil => simp [hasAddr]
  | cons p ps ih =>
    unfold hasAddr at ih ⊢
    cases p <;> simp_all [Packet.addressField]

/-- A ping is running. -/
theorem Did.pinging {D : Device} {a : DeviceAction} {o : Outcome} (h : D.Did F a o) {dest : UInt8}
    {timeoutMs start : UInt32} {payload : UInt16}
    (hcall : o.device.call = .pinging dest timeoutMs payload start) :
    (∃ clock, a = .ping dest timeoutMs clock start ∧ payload = clock.toUInt16) ∨
      D.call = .pinging dest timeoutMs payload start ∧ ∃ now bytes after, a = .pass now bytes after := by
  have hread := fun bytes => (read_left F D bytes).2.2.call
  cases h with
  | managed _ hdone => exact absurd (hdone.symm.trans hcall) (by simp)
  | read hidle => exact absurd (((hread _).trans hidle).symm.trans hcall) (by simp)
  | lists => cases hcall
  | @pings _ _ clock =>
    cases hcall
    exact .inl ⟨clock, rfl, rfl⟩
  | timedOut => cases hcall
  | listed => cases hcall
  | listsOn hlist => exact absurd (((hread _).trans hlist).symm.trans hcall) (by simp)
  | pinged => cases hcall
  | @pingsOn _ _ _ _ now bytes after => exact .inr ⟨(hread _).symm.trans hcall, now, bytes, after, rfl⟩

/-- `get_addr_list` is running: no list has come. -/
theorem Did.listing {D : Device} {a : DeviceAction} {o : Outcome} (h : D.Did F a o)
    {timeoutMs start : UInt32} (hcall : o.device.call = .listing timeoutMs start) :
    a = .getAddrList timeoutMs start ∨ D.call = .listing timeoutMs start ∧ hasAddr o.handled = false := by
  have hread := fun bytes => (read_left F D bytes).2.2.call
  cases h with
  | managed _ hdone => exact absurd (hdone.symm.trans hcall) (by simp)
  | read hidle => exact absurd (((hread _).trans hidle).symm.trans hcall) (by simp)
  | lists =>
    cases hcall
    exact .inl rfl
  | pings => cases hcall
  | timedOut => cases hcall
  | listed => cases hcall
  | @listsOn _ _ _ bytes _ _ haddr =>
    obtain ⟨hhandled, -, hleft⟩ := read_left F D bytes
    rw [hleft.addrListRecved, Bool.or_eq_false_iff] at haddr
    exact .inr ⟨(hread _).symm.trans hcall, (congrArg hasAddr hhandled).trans haddr.2⟩
  | pinged => cases hcall
  | pingsOn hping => exact absurd (((hread _).trans hping).symm.trans hcall) (by simp)

/-- Each request is answered with the address. -/
theorem answers_field (address : UInt8) (ps : List Packet) :
    (ps.filterMap (answer address)).filterMap Packet.addressField =
      (ps.filterMap Packet.request).map fun _ => AddressField.only address := by
  rw [List.filterMap_filterMap, List.map_filterMap]
  refine List.filterMap_congr fun p _ => ?_
  cases p <;> rfl

end Device

/-! ## One step -/

namespace Host

variable {F : OnFull UInt8} {H H' : Host} {c : HostAction} {out : List HostOutput}

/-- What a step does to what the interface remembers of the packets it has handled. -/
theorem step_remembers (h : H.step F c = some (H', out)) :
    H'.pingEchoPayload = Device.lastEcho H.pingEchoPayload (H.incoming (H.taken c)) ∧
      H'.addrField = Device.lastField H.addrField (H.incoming (H.taken c)) := by
  have hread : ∀ bytes, (H.toDevice.read F bytes).device.pingEchoPayload =
      Device.lastEcho H.pingEchoPayload (H.incoming bytes) ∧
      (H.toDevice.read F bytes).device.addrField =
        Device.lastField H.addrField (H.incoming bytes) := fun bytes =>
    ⟨(Device.read_left F H.toDevice bytes).2.2.pingEchoPayload, Device.read_field F H.toDevice bytes⟩
  generalize hr : (H', out) = r at h
  cases step_did F h with
  | @device a o hrun ha ho =>
    cases hr
    have heff := Device.step_effect F ho ha
    exact ⟨heff.pingEchoPayload.trans (hread _).1, heff.addrField.trans (hread _).2⟩
  | @destroy m hidle hrun =>
    cases hr
    exact ⟨rfl, rfl⟩
  | socket =>
    cases hr
    exact ⟨rfl, rfl⟩
  | write =>
    cases hr
    exact ⟨rfl, rfl⟩
  | subscribe =>
    cases hr
    exact ⟨rfl, rfl⟩
  | @receive l len s =>
    obtain ⟨rfl, -⟩ := Prod.ext_iff.mp hr
    obtain ⟨c, hstore, -⟩ := storeDatagram_eq H l (s.goOn [] len) len false
    rw [hstore]
    exact ⟨rfl, rfl⟩
  | @pollStream l c bytes =>
    obtain ⟨rfl, -⟩ := Prod.ext_iff.mp hr
    exact hread bytes
  | @pollDatagram l len got bytes late s =>
    obtain ⟨rfl, -⟩ := Prod.ext_iff.mp hr
    obtain ⟨c, hstore, -⟩ := storeDatagram_eq (H.received F bytes) l
      (if late then (s, got) else s.goOn got len) len late
    rw [hstore]
    exact hread bytes

theorem step_setAddress {addr : UInt8} (h : H.step F (.device (.setAddress addr)) = some (H', out)) :
    H'.address = addr := by
  generalize hr : (H', out) = r at h
  cases step_did F h with
  | device hrun ha ho =>
    obtain ⟨-, rfl⟩ := Device.begin_some (Device.step_perform F ho)
    cases hr
    rfl

/-- Only `set_address` announces an address. -/
theorem asked_field (H : Host) (hc : ∀ addr, c ≠ .device (.setAddress addr)) :
    (H.asked c).filterMap Packet.addressField = [] := by
  cases c with
  | device a =>
    cases a with
    | setAddress addr => exact absurd rfl (hc addr)
    | _ => rfl
  | subscribe l sub =>
    unfold asked
    dsimp only
    split <;> rfl
  | _ => rfl

/-- No two calls are running. -/
def OneCall (H : Host) : Prop := H.call = .idle ∨ H.running = none

/-- While one of the interface's own calls is running, only the interface does anything. -/
theorem step_call (hone : H.OneCall) (h : H.step F c = some (H', out)) :
    H'.OneCall ∧ ((∃ a o, c = .device a ∧ (∀ object, a ≠ .sockets object) ∧
      H.toDevice.step F a = some o ∧ H' = { H with toDevice := o.device } ∧
      out = H.toDevice.log F a o) ∨ (∀ a, c ≠ .device a) ∧ H.call = .idle ∧ H'.call = .idle) := by
  have hread : ∀ bytes, H.call = .idle → (H.received F bytes).call = .idle := fun bytes hidle =>
    (Device.read_left F H.toDevice bytes).2.2.call.trans hidle
  have hother : H.call = .idle → H'.call = .idle → (∀ a, c ≠ .device a) → H'.OneCall ∧ ((∃ a o,
      c = .device a ∧ (∀ object, a ≠ .sockets object) ∧ H.toDevice.step F a = some o ∧
      H' = { H with toDevice := o.device } ∧ out = H.toDevice.log F a o) ∨
      (∀ a, c ≠ .device a) ∧ H.call = .idle ∧ H'.call = .idle) :=
    fun hidle hidle' hne => ⟨.inl hidle', .inr ⟨hne, hidle, hidle'⟩⟩
  generalize hr : (H', out) = r at h
  cases step_did F h with
  | @device a o hrun ha ho =>
    cases hr
    exact ⟨.inr hrun, .inl ⟨a, o, rfl, ha, ho, rfl, rfl⟩⟩
  | @destroy m hidle hrun =>
    cases hr
    exact hother hidle hidle fun a hne => by cases hne
  | socket hfree =>
    cases hr
    exact hother hfree.1 hfree.1 fun a hne => by cases hne
  | write _ hidle =>
    cases hr
    exact hother hidle hidle fun a hne => by cases hne
  | subscribe _ hidle =>
    cases hr
    exact hother hidle hidle fun a hne => by cases hne
  | @receive l len s _ hidle =>
    obtain ⟨rfl, -⟩ := Prod.ext_iff.mp hr
    obtain ⟨c, hstore, -⟩ := storeDatagram_eq H l (s.goOn [] len) len false
    refine hother hidle ?_ fun a hne => by cases hne
    rw [hstore]
    exact hidle
  | @pollStream l c bytes _ _ _ hrun =>
    obtain ⟨rfl, -⟩ := Prod.ext_iff.mp hr
    have hidle : H.call = .idle := hone.resolve_right (by rw [hrun]; simp)
    exact hother hidle (hread bytes hidle) fun a hne => by cases hne
  | @pollDatagram l len got bytes late s hrun =>
    obtain ⟨rfl, -⟩ := Prod.ext_iff.mp hr
    have hidle : H.call = .idle := hone.resolve_right (by rw [hrun]; simp)
    obtain ⟨c, hstore, -⟩ := storeDatagram_eq (H.received F bytes) l
      (if late then (s, got) else s.goOn got len) len late
    refine hother hidle ?_ fun a hne => by cases hne
    rw [hstore]
    exact hread bytes hidle

end Host

/-! ## What every run keeps -/

namespace Cable

variable {F : OnFull UInt8} {C₀ C C' : Cable} {i j : Side}

/-- `addr` has been an address of `i`. -/
def Had (C₀ C : Cable) (i : Side) (addr : UInt8) : Prop :=
  addr = (C₀.host i).address ∨ HostAction.device (.setAddress addr) ∈ C.acts i

/-- What the interfaces remember, and the addresses they have announced. -/
structure Asking (C₀ C : Cable) : Prop where
  queued : C.Queued
  pingEchoPayload : ∀ i, (C.host i).pingEchoPayload =
    Device.lastEcho (C₀.host i).pingEchoPayload (C.heard i)
  addrField : ∀ i, (C.host i).addrField = Device.lastField (C₀.host i).addrField (C.heard i)
  address : ∀ i, Had C₀ C i (C.host i).address
  announced : ∀ i, ∀ af ∈ (packetsOf (C.log i)).filterMap Packet.addressField,
    ∃ addr, Had C₀ C i addr ∧ af = AddressField.only addr

theorem Had.mono {addr : UInt8} (h : Had C₀ C i addr) {c : HostAction} {j : Side}
    {r : Host × List HostOutput} : Had C₀ (C.after j c r) i addr := by
  refine h.imp_right fun hmem => ?_
  obtain rfl | rfl := j.eq_or_other i
  · rw [after_acts_self]
    exact List.mem_append_left _ hmem
  · rw [after_acts_other]
    exact hmem

/-- The address that a device has after a step, and those that it says. -/
theorem Asking.had (h : Asking C₀ C) {H : Host} {out : List HostOutput} {c : HostAction}
    (hhost : (C.host i).step F c = some (H, out)) : Had C₀ (C.after i c (H, out)) i H.address ∧
      ∀ af ∈ (packetsOf out).filterMap Packet.addressField,
        ∃ addr, Had C₀ (C.after i c (H, out)) i addr ∧ af = AddressField.only addr := by
  have hold : Had C₀ (C.after i c (H, out)) i (C.host i).address := (h.address i).mono
  have hnew : ∀ addr, c = .device (.setAddress addr) → Had C₀ (C.after i c (H, out)) i addr := by
    rintro addr rfl
    refine .inr ?_
    rw [after_acts_self]
    exact List.mem_append_right _ (List.mem_singleton_self _)
  constructor
  · by_cases hc : ∃ addr, c = .device (.setAddress addr)
    · obtain ⟨addr, rfl⟩ := hc
      rw [Host.step_setAddress hhost]
      exact hnew addr rfl
    · rw [Host.step_address hhost fun addr hne => hc ⟨addr, hne⟩]
      exact hold
  · intro af haf
    rw [Host.step_said (fun _ => rfl) hhost, Device.answers_field] at haf
    rcases List.mem_append.mp haf with haf | haf
    · obtain ⟨-, -, rfl⟩ := List.mem_map.mp haf
      exact ⟨_, hold, rfl⟩
    · by_cases hc : ∃ addr, c = .device (.setAddress addr)
      · obtain ⟨addr, rfl⟩ := hc
        obtain rfl := List.mem_singleton.mp haf
        exact ⟨addr, hnew addr rfl, rfl⟩
      · rw [Host.asked_field _ fun addr hne => hc ⟨addr, hne⟩] at haf
        cases haf

theorem Asking.step {c : HostAction} (h : Asking C₀ C) (hstep : C.step F (i, c) = some C') :
    Asking C₀ C' := by
  obtain ⟨H, out, hhost, rfl, -, -, hqueued⟩ := h.queued.step hstep
  obtain ⟨hecho, hfield⟩ := Host.step_remembers hhost
  refine ⟨hqueued, fun j => ?_, fun j => ?_, fun j => ?_, fun j => ?_⟩
  · obtain rfl | rfl := i.eq_or_other j
    · rw [after_host_self, after_heard_self, Device.lastEcho_append, ← h.pingEchoPayload]
      exact hecho
    · rw [after_host_other, after_heard_other]
      exact h.pingEchoPayload _
  · obtain rfl | rfl := i.eq_or_other j
    · rw [after_host_self, after_heard_self, Device.lastField_append, ← h.addrField]
      exact hfield
    · rw [after_host_other, after_heard_other]
      exact h.addrField _
  · obtain rfl | rfl := i.eq_or_other j
    · rw [after_host_self]
      exact (h.had hhost).1
    · rw [after_host_other]
      exact (h.address _).mono
  · intro af haf
    obtain rfl | rfl := i.eq_or_other j
    · rw [after_log_self, packetsOf_append, List.filterMap_append] at haf
      rcases List.mem_append.mp haf with haf | haf
      · obtain ⟨addr, hhad, rfl⟩ := h.announced j af haf
        exact ⟨addr, hhad.mono, rfl⟩
      · exact (h.had hhost).2 af haf
    · rw [after_log_other] at haf
      obtain ⟨addr, hhad, rfl⟩ := h.announced _ af haf
      exact ⟨addr, hhad.mono, rfl⟩

theorem Asking.of_fresh (h : C.Fresh) : Asking C C where
  queued := h.queued
  pingEchoPayload i := by
    rw [h.heard]
    rfl
  addrField i := by
    rw [h.heard]
    rfl
  address _ := .inl rfl
  announced i af haf := by
    rw [h.log] at haf
    cases haf

theorem Asking.of_run (h : C₀.Fresh) {cs : List (Side × HostAction)}
    (hrun : Runs.run (Cable.step F) C₀ cs = some C) : Asking C₀ C :=
  run_always (I := Asking C₀) (fun _ _ _ hC hstep => hC.step hstep) (.of_fresh h) hrun

/-! ## What a call waits for -/

theorem filterMap_append_ne_nil {α β : Type} {f : α → Option β} {xs ys : List α} :
    (xs ++ ys).filterMap f ≠ [] ↔ xs.filterMap f ≠ [] ∨ ys.filterMap f ≠ [] := by
  rw [List.filterMap_append, Ne, List.append_eq_nil_iff]
  exact not_and_or

/-- What `ping_echo_payload` is when all pings of `i` that are on their way have come back. -/
def expected (C : Cable) (i : Side) : UInt16 :=
  ((C.onWire i).filterMap Packet.echoPayload ++
    (C.onWire i.other).filterMap Packet.pingPayload).getLast?.getD (C.host i).pingEchoPayload

/-- The interface `i` waits for nothing that is not on its way. -/
structure Answering (C : Cable) (i : Side) : Prop where
  clear : ∀ j, C.Clear j
  one : (C.host i).OneCall
  pinging : ∀ dest timeoutMs payload start,
    (C.host i).call = .pinging dest timeoutMs payload start → C.expected i = payload
  listing : ∀ timeoutMs start, (C.host i).call = .listing timeoutMs start →
    (C.host i).addrListRecved = false ∧ ((C.onWire i.other).filterMap Packet.request ≠ [] ∨
      (C.onWire i).filterMap Packet.addressField ≠ [])

theorem getLast?_append_getD {α : Type} (xs ys : List α) (v : α) :
    (xs ++ ys).getLast?.getD v = ys.getLast?.getD (xs.getLast?.getD v) := by
  rw [List.getLast?_append]
  cases ys.getLast? <;> rfl

/-- A step of `i`: a ping is what comes back last. -/
theorem step_expected (hclear : C.Clear i.other) {c : HostAction}
    (hstep : C.step F (i, c) = some C') :
    C'.expected i = c.pingPayload.getD (C.expected i) := by
  obtain ⟨H, out, hhost, rfl, htaken, -, hsent⟩ := step_queues hstep
  unfold expected
  rw [(hsent hclear).1, htaken, after_host_self, (Host.step_remembers hhost).1,
    List.filterMap_append, List.filterMap_append, Host.step_pings hhost, Device.lastEcho_eq]
  cases c.pingPayload with
  | some payload =>
    rw [getLast?_append_getD, getLast?_append_getD]
    rfl
  | none =>
    simp only [Option.toList_none, List.append_nil, Option.getD_none, getLast?_append_getD]

/-- A step of the other device: what it reads it echoes. -/
theorem step_other_expected (hclear : C.Clear i) {c : HostAction}
    (hstep : C.step F (i.other, c) = some C') : C'.expected i = C.expected i := by
  obtain ⟨H, out, hhost, rfl, htaken, -, hsent⟩ := step_queues hstep
  rw [Side.other_other] at hsent
  have hhost' : (C.after i.other c (H, out)).host i = C.host i :=
    Function.update_of_ne i.ne_other ..
  unfold expected
  rw [(hsent hclear).1, htaken, hhost', List.filterMap_append, List.filterMap_append,
    Host.step_echoes hhost, List.append_assoc]

/-- The answer to `get_addr_list` does not get lost. -/
theorem Answering.step_listing (h : C.Answering j) {c : HostAction}
    (hstep : C.step F (i, c) = some C') {timeoutMs start : UInt32}
    (hcall : (C'.host j).call = .listing timeoutMs start) :
    (C'.host j).addrListRecved = false ∧ ((C'.onWire j.other).filterMap Packet.request ≠ [] ∨
      (C'.onWire j).filterMap Packet.addressField ≠ []) := by
  obtain ⟨H, out, hhost, rfl, htaken, -, hsent⟩ := step_queues hstep
  obtain ⟨hsent, -⟩ := hsent (h.clear i.other)
  obtain rfl | rfl := i.eq_or_other j
  · -- the device that waits
    rw [after_host_self] at hcall ⊢
    obtain ⟨-, ⟨a, o, rfl, ha, ho, rfl, rfl⟩ | ⟨-, -, hidle⟩⟩ := Host.step_call h.one hhost
    · have hdid := Device.step_did F ho
      refine ⟨hdid.unlisted timeoutMs start hcall, ?_⟩
      rcases hdid.listing F hcall with rfl | ⟨hbefore, hnone⟩
      · refine .inl ?_
        rw [hsent, filterMap_append_ne_nil, Host.step_said (fun _ => rfl) hhost]
        exact .inr (by simp [Host.asked, Packet.request])
      · refine (h.listing timeoutMs start hbefore).2.imp (fun hreq => ?_) fun haddr => ?_
        · rw [hsent, filterMap_append_ne_nil]
          exact .inl hreq
        · rw [htaken, filterMap_append_ne_nil] at haddr
          rw [(Device.step_effect F ho ha).handled] at hnone
          exact haddr.resolve_left fun hne => hne ((Device.hasAddr_false _).mp hnone)
    · exact absurd (hidle.symm.trans hcall) (by simp)
  · -- the other one
    rw [after_host_other] at hcall ⊢
    obtain ⟨hflag, hwait⟩ := h.listing timeoutMs start hcall
    rw [Side.other_other] at hwait ⊢
    refine ⟨hflag, ?_⟩
    rw [htaken, filterMap_append_ne_nil] at hwait
    rw [hsent, filterMap_append_ne_nil]
    rcases hwait with (hread | hleft) | haddr
    · refine .inr (.inr ?_)
      rw [Host.step_said (fun _ => rfl) hhost, Device.answers_field]
      intro hnil
      exact hread (List.map_eq_nil_iff.mp (List.append_eq_nil_iff.mp hnil).1)
    · exact .inl hleft
    · exact .inr (.inl haddr)

/-- Nor does the echo of a ping. -/
theorem Answering.step_pinging (h : C.Answering j) {c : HostAction}
    (hstep : C.step F (i, c) = some C') {dest : UInt8} {timeoutMs start : UInt32} {payload : UInt16}
    (hcall : (C'.host j).call = .pinging dest timeoutMs payload start) :
    C'.expected j = payload := by
  obtain rfl | rfl := i.eq_or_other j
  · rw [step_expected (h.clear _) hstep]
    obtain ⟨H, out, hhost, rfl, -⟩ := step_queues hstep
    rw [after_host_self] at hcall
    obtain ⟨-, ⟨a, o, rfl, -, ho, rfl, -⟩ | ⟨-, -, hidle⟩⟩ := Host.step_call h.one hhost
    · rcases (Device.step_did F ho).pinging F hcall with ⟨clock, rfl, rfl⟩ | ⟨hbefore, _, _, _, rfl⟩
      · rfl
      · exact h.pinging _ _ _ _ hbefore
    · exact absurd (hidle.symm.trans hcall) (by simp)
  · have hsame := step_other_expected (i := i.other) (h.clear _) (i.other_other.symm ▸ hstep)
    obtain ⟨H, out, -, rfl, -⟩ := step_queues hstep
    rw [after_host_other] at hcall
    rw [hsame]
    exact h.pinging _ _ _ _ hcall

theorem Answering.step (h : C.Answering j) {c : HostAction} (hstep : C.step F (i, c) = some C') :
    C'.Answering j := by
  refine ⟨fun k => ?_, ?_, fun _ _ _ _ => h.step_pinging hstep, fun _ _ => h.step_listing hstep⟩
  · obtain ⟨H, out, -, rfl, -, hself, hthat⟩ := step_queues hstep
    obtain rfl | rfl := i.eq_or_other k
    · exact hself (h.clear _)
    · exact (hthat (h.clear _)).2
  · obtain ⟨H, out, hhost, rfl, -⟩ := step_queues hstep
    obtain rfl | rfl := i.eq_or_other j
    · rw [after_host_self]
      exact (Host.step_call h.one hhost).1
    · rw [after_host_other]
      exact h.one

theorem Answering.run (h : C.Answering i) {cs : List (Side × HostAction)}
    (hrun : Runs.run (Cable.step F) C cs = some C') : C'.Answering i :=
  run_always (I := fun C => C.Answering i) (fun _ _ _ hC hstep => hC.step hstep) h hrun

theorem answering_of_idle (hclear : ∀ j, C.Clear j) (hidle : (C.host i).call = .idle) :
    C.Answering i where
  clear := hclear
  one := .inl hidle
  pinging _ _ _ _ hcall := absurd (hidle.symm.trans hcall) (by simp)
  listing _ _ hcall := absurd (hidle.symm.trans hcall) (by simp)

/-! ## A pass that returns -/

theorem step_device {a : DeviceAction} (hstep : C.step F (i, .device a) = some C') :
    ∃ o, (∀ object, a ≠ .sockets object) ∧ (C.host i).toDevice.step F a = some o ∧
      (C'.host i).toDevice = o.device ∧ C'.heard i = C.heard i ++ o.handled ∧
      resultsOf (C'.log i) = resultsOf (C.log i) ++ o.returned.toList := by
  obtain ⟨H, out, -, -, hhost, rfl, -⟩ := step_some hstep
  generalize hr : (H, out) = r at hhost
  cases Host.step_did F hhost with
  | @device _ o hrun ha ho =>
    cases hr
    refine ⟨o, ha, ho, ?_, ?_, ?_⟩
    · rw [after_host_self]
    · rw [after_heard_self, (Device.step_effect F ho ha).handled]
      rfl
    · rw [after_log_self, resultsOf_append, Device.resultsOf_log]

theorem run_step {cs : List (Side × HostAction)} (hrun : Runs.run (Cable.step F) C₀ cs = some C)
    {x : Side × HostAction} (hstep : C.step F x = some C') :
    Runs.run (Cable.step F) C₀ (cs ++ [x]) = some C' := by
  rw [run_append, hrun]
  exact run_cons.mpr ⟨C', hstep, rfl⟩

/-- **A ping that returns a time has been read.**  In every run of two devices: the other one
has handled a ping with this payload, if the payload is not the one `ping_echo_payload` had
in the beginning. -/
theorem ping_reached (F : OnFull UInt8) (C₀ : Cable) (h : C₀.Fresh)
    (cs : List (Side × HostAction)) (C : Cable)
    (hrun : Runs.run (Cable.step F) C₀ cs = some C) (i : Side) (dest : UInt8)
    (timeoutMs start : UInt32) (payload : UInt16)
    (hcall : (C.host i).call = .pinging dest timeoutMs payload start)
    (hpay : payload ≠ (C₀.host i).pingEchoPayload) (now : UInt32) (bytes : List Incoming)
    (after : UInt32) (C' : Cable) (hstep : C.step F (i, .device (.pass now bytes after)) = some C')
    (r : Int) (hr : 0 ≤ r) (hret : resultsOf (C'.log i) = resultsOf (C.log i) ++ [r]) :
    payload ∈ (C.heard i.other).filterMap Packet.pingPayload := by
  have hA := Asking.of_run h hrun
  have hrun' := run_step hrun hstep
  have hheard : C'.heard i.other = C.heard i.other := by
    obtain ⟨H, out, -, -, -, rfl, -⟩ := step_some hstep
    exact after_heard_other
  obtain ⟨o, -, ho, hdevice, -, hres⟩ := step_device hstep
  have hreturned : o.returned.toList = [r] := List.append_cancel_left (hres.symm.trans hret)
  have hecho : (C'.host i).pingEchoPayload = payload := by
    rw [hdevice]
    cases Device.step_did F ho with
    | timedOut =>
      obtain rfl : Error.timeout = r := List.singleton_inj.mp hreturned
      exact absurd hr (by decide)
    | listed hlist => exact absurd (hlist.symm.trans hcall) (by simp)
    | listsOn hlist => exact absurd (hlist.symm.trans hcall) (by simp)
    | pinged hping _ hgot =>
      cases hping.symm.trans hcall
      exact hgot
    | @pingsOn _ _ _ _ _ bytes =>
      rw [(Device.read_left F _ bytes).2.1] at hreturned
      cases hreturned
    | managed _ _ _ _ hnone =>
      rw [hnone] at hreturned
      cases hreturned
  rw [(hA.step hstep).pingEchoPayload, Device.lastEcho_eq] at hecho
  rw [← hheard]
  refine (echoes_first h hrun' i).subset ?_
  cases hlast : ((C'.heard i).filterMap Packet.echoPayload).getLast? with
  | none =>
    rw [hlast] at hecho
    exact absurd hecho.symm hpay
  | some v =>
    rw [hlast] at hecho
    obtain rfl : v = payload := hecho
    exact List.mem_of_getLast? hlast

/-- **What `get_addr_list` leaves behind.**  When it returns without an error, the address field
holds one address, which the other device has had. -/
theorem listed_address (F : OnFull UInt8) (C₀ : Cable) (h : C₀.Fresh)
    (hidle : ∀ i, (C₀.host i).call = .idle) (cs : List (Side × HostAction)) (C : Cable)
    (hrun : Runs.run (Cable.step F) C₀ cs = some C) (i : Side) (timeoutMs start : UInt32)
    (hcall : (C.host i).call = .listing timeoutMs start) (now : UInt32) (bytes : List Incoming)
    (after : UInt32) (C' : Cable) (hstep : C.step F (i, .device (.pass now bytes after)) = some C')
    (hret : resultsOf (C'.log i) = resultsOf (C.log i) ++ [Error.none]) :
    ∃ addr, (addr = (C₀.host i.other).address ∨
        HostAction.device (.setAddress addr) ∈ C.acts i.other) ∧
      ∀ a, (C'.host i).lookupAddrList a = decide (a = addr) := by
  have hA := Asking.of_run h hrun
  have hwaits := (answering_of_idle (fun j => (h.clear j).1) (hidle i)).run hrun
  have hA' := hA.step hstep
  have hacts : C'.acts i.other = C.acts i.other := by
    obtain ⟨H, out, -, -, -, rfl, -⟩ := step_some hstep
    exact after_acts_other
  obtain ⟨o, -, ho, -, hheard, hres⟩ := step_device hstep
  have hreturned : o.returned.toList = [Error.none] := List.append_cancel_left (hres.symm.trans hret)
  have hcame : Device.hasAddr o.handled = true := by
    cases Device.step_did F ho with
    | timedOut => exact absurd (List.singleton_inj.mp hreturned) (by decide)
    | @listed _ _ _ bytes _ hlist haddr =>
      obtain ⟨hhandled, -, hleft⟩ := Device.read_left F (C.host i).toDevice bytes
      rw [hleft.addrListRecved, (hwaits.listing timeoutMs start hcall).1, Bool.false_or] at haddr
      exact (congrArg Device.hasAddr hhandled).trans haddr
    | @listsOn _ _ _ bytes =>
      rw [(Device.read_left F _ bytes).2.1] at hreturned
      cases hreturned
    | pinged hping => exact absurd (hping.symm.trans hcall) (by simp)
    | pingsOn hping => exact absurd (hping.symm.trans hcall) (by simp)
    | managed _ _ _ _ hnone =>
      rw [hnone] at hreturned
      cases hreturned
  have hne : (C'.heard i).filterMap Packet.addressField ≠ [] := by
    rw [hheard, filterMap_append_ne_nil]
    refine .inr fun hnil => ?_
    rw [(Device.hasAddr_false _).mpr hnil] at hcame
    cases hcame
  obtain ⟨af, hlast⟩ := Option.ne_none_iff_exists'.mp (mt List.getLast?_eq_none_iff.mp hne)
  have hfield : (C'.host i).addrField = af := by
    rw [hA'.addrField, Device.lastField, hlast]
    rfl
  obtain ⟨addr, hhad, rfl⟩ := hA'.announced i.other af (by
    rw [hA'.queued.sent, List.filterMap_append]
    exact List.mem_append_left _ (List.mem_of_getLast? hlast))
  refine ⟨addr, ?_, fun a => ?_⟩
  · rw [← hacts]
    exact hhad
  · unfold Device.lookupAddrList
    rw [hfield, AddressField.getAddr_only]

/-! ## A call that is answered -/

/-- A pass of the running call that takes all there is. -/
theorem step_pass (hone : (C.host i).OneCall) (hcall : (C.host i).call ≠ .idle) {now after : UInt32}
    {bytes : List Incoming} (hbytes : bytes.map Incoming.byte = C.wire i)
    (htime : (C.host i).toDevice.InTime now) {o : Device.Outcome}
    (ho : (C.host i).toDevice.step F (.pass now bytes after) = some o) :
    ∃ C', C.step F (i, .device (.pass now bytes after)) = some C' ∧
      (C'.host i).toDevice = o.device ∧
      resultsOf (C'.log i) = resultsOf (C.log i) ++ o.returned.toList := by
  have htaken : (C.host i).toDevice.taken (.pass now bytes after) = bytes := if_pos htime
  have hhost : (C.host i).step F (.device (.pass now bytes after)) =
      some ({ C.host i with toDevice := o.device },
        (C.host i).toDevice.log F (.pass now bytes after) o) := by
    simp only [Host.step, hone.resolve_left hcall, ho, Option.map_some]
  obtain ⟨C', hstep⟩ : ∃ C', C.step F (i, .device (.pass now bytes after)) = some C' := by
    refine ⟨_, (if_pos ?_).trans (congrArg _ hhost)⟩
    show ((C.host i).toDevice.taken (.pass now bytes after)).map Incoming.byte <+: C.wire i
    rw [htaken]
    exact ⟨[], (List.append_nil _).trans hbytes⟩
  obtain ⟨o', -, ho', hdevice, -, hres⟩ := step_device hstep
  cases ho.symm.trans ho'
  exact ⟨C', hstep, hdevice, hres⟩

/-- Nothing is on its way. -/
theorem onWire_nil (h : C.wire i = []) : C.onWire i = [] := by
  unfold onWire
  rw [h]
  rfl

theorem incoming_all {bytes : List Incoming} (hbytes : bytes.map Incoming.byte = C.wire i) :
    (C.host i).incoming bytes = C.onWire i := by
  unfold Device.incoming onWire
  rw [hbytes]

theorem inBuffer_all {bytes : List Incoming} (hbytes : bytes.map Incoming.byte = C.wire i)
    (hin : (C.host i).parser.InBuffer (C.wire i)) : (C.host i).toDevice.InBuffer bytes := by
  unfold Device.InBuffer
  rwa [hbytes]

/-- The other device has taken all bytes, and a pass that is in time takes all that have come
back: a ping returns. -/
theorem Answering.pinged (h : C.Answering i) {dest : UInt8} {timeoutMs start : UInt32}
    {payload : UInt16} (hcall : (C.host i).call = .pinging dest timeoutMs payload start)
    (hall : C.wire i.other = []) {now : UInt32} {bytes : List Incoming}
    (hbytes : bytes.map Incoming.byte = C.wire i) (hin : (C.host i).parser.InBuffer (C.wire i))
    (htime : now - start < timeoutMs) (after : UInt32) :
    ∃ C', C.step F (i, .device (.pass now bytes after)) = some C' ∧ (C'.host i).call = .idle ∧
      resultsOf (C'.log i) = resultsOf (C.log i) ++ [asInt (after - start).toNat] := by
  have hecho : ((C.host i).toDevice.read F bytes).device.pingEchoPayload = payload := by
    rw [(Device.read_left F _ bytes).2.2.pingEchoPayload, incoming_all hbytes, Device.lastEcho_eq]
    have hexpected := h.pinging dest timeoutMs payload start hcall
    unfold expected at hexpected
    rwa [onWire_nil hall, List.filterMap_nil, List.append_nil] at hexpected
  obtain ⟨C', hstep, hdevice, hres⟩ := step_pass h.one (by rw [hcall]; simp) hbytes
    ((Device.inTime_pinging hcall).mpr htime)
    (Device.step_pinged F hcall htime (inBuffer_all hbytes hin) hecho after)
  refine ⟨C', hstep, ?_, hres⟩
  rw [hdevice]
  rfl

/-- The same for the list of addresses. -/
theorem Answering.listed (h : C.Answering i) {timeoutMs start : UInt32}
    (hcall : (C.host i).call = .listing timeoutMs start) (hall : C.wire i.other = [])
    {now : UInt32} {bytes : List Incoming} (hbytes : bytes.map Incoming.byte = C.wire i)
    (hin : (C.host i).parser.InBuffer (C.wire i)) (htime : now - start < timeoutMs)
    (after : UInt32) :
    ∃ C', C.step F (i, .device (.pass now bytes after)) = some C' ∧ (C'.host i).call = .idle ∧
      resultsOf (C'.log i) = resultsOf (C.log i) ++ [Error.none] := by
  obtain ⟨-, hwait⟩ := h.listing timeoutMs start hcall
  rw [onWire_nil hall] at hwait
  have hcame : ((C.host i).toDevice.read F bytes).device.addrListRecved = true := by
    rw [(Device.read_left F _ bytes).2.2.addrListRecved, incoming_all hbytes, Bool.or_eq_true]
    refine .inr (Bool.not_eq_false _ |>.mp fun hnone => ?_)
    exact hwait.elim (fun hreq => hreq rfl) fun haddr => haddr ((Device.hasAddr_false _).mp hnone)
  obtain ⟨C', hstep, hdevice, hres⟩ := step_pass h.one (by rw [hcall]; simp) hbytes
    ((Device.inTime_listing hcall).mpr htime)
    (Device.step_listed F hcall htime (inBuffer_all hbytes hin) hcame after)
  refine ⟨C', hstep, ?_, hres⟩
  rw [hdevice]
  rfl

/-- **A ping that is read returns its time.**  From every state of every run in which a ping is
running and the other device has taken all bytes: a pass that is in time and takes all bytes
that have come back ends the call with the time that has passed. -/
theorem ping_returns (F : OnFull UInt8) (C₀ : Cable) (h : C₀.Fresh)
    (hidle : ∀ i, (C₀.host i).call = .idle) (cs : List (Side × HostAction)) (C : Cable)
    (hrun : Runs.run (Cable.step F) C₀ cs = some C) (i : Side) (dest : UInt8)
    (timeoutMs start : UInt32) (payload : UInt16)
    (hcall : (C.host i).call = .pinging dest timeoutMs payload start) (hall : C.wire i.other = [])
    (now : UInt32) (bytes : List Incoming) (hbytes : bytes.map Incoming.byte = C.wire i)
    (htime : now - start < timeoutMs) (after : UInt32) :
    ∃ C', C.step F (i, .device (.pass now bytes after)) = some C' ∧ (C'.host i).call = .idle ∧
      resultsOf (C'.log i) = resultsOf (C.log i) ++ [asInt (after - start).toNat] := by
  have hanswering := (answering_of_idle (fun j => (h.clear j).1) (hidle i)).run hrun
  exact hanswering.pinged hcall hall hbytes ((h.queued.run hrun).inBuffer i) htime after

/-- **`get_addr_list` is answered.**  The same for the list of addresses: the call returns
without an error. -/
theorem listing_returns (F : OnFull UInt8) (C₀ : Cable) (h : C₀.Fresh)
    (hidle : ∀ i, (C₀.host i).call = .idle) (cs : List (Side × HostAction)) (C : Cable)
    (hrun : Runs.run (Cable.step F) C₀ cs = some C) (i : Side) (timeoutMs start : UInt32)
    (hcall : (C.host i).call = .listing timeoutMs start) (hall : C.wire i.other = [])
    (now : UInt32) (bytes : List Incoming) (hbytes : bytes.map Incoming.byte = C.wire i)
    (htime : now - start < timeoutMs) (after : UInt32) :
    ∃ C', C.step F (i, .device (.pass now bytes after)) = some C' ∧ (C'.host i).call = .idle ∧
      resultsOf (C'.log i) = resultsOf (C.log i) ++ [Error.none] := by
  have hanswering := (answering_of_idle (fun j => (h.clear j).1) (hidle i)).run hrun
  exact hanswering.listed hcall hall hbytes ((h.queued.run hrun).inBuffer i) htime after

end Cable

/-! ## A ping and a list -/

theorem twoDevices_idle (i : Side) : (twoDevices.host i).call = .idle := by
  cases i <;> rfl

/-- The server's device reads the ping, and its echo. -/
def readsPing : Side × HostAction := (.right, .device (.read (bytesFor (.pingPack ⟨6, 2, 1, 7⟩))))

def echoed : List Incoming := bytesFor (.pingEchoPack ⟨6, 1, 2, 7⟩)

theorem onePing_reached : ∃ C, run (Cable.step (OnFull.refuse UInt8)) twoDevices
      [(.left, .device (.ping 1 1000 7 0)), readsPing] = some C ∧
    7 ∈ (C.heard .right).filterMap Packet.pingPayload := by
  have hends : (run (Cable.step (OnFull.refuse UInt8)) twoDevices
      [(.left, .device (.ping 1 1000 7 0)), readsPing]).map (fun C =>
        ((C.host .left).call, (C.step (OnFull.refuse UInt8) (.left, .device (.pass 3 echoed 3))).map
          fun C' => (resultsOf (C.log .left), resultsOf (C'.log .left)))) =
      some (.pinging 1 1000 7 0, some ([], [3])) := by decide +kernel
  obtain ⟨C, hrun, hC⟩ := Option.map_eq_some_iff.mp hends
  obtain ⟨hcall, hpass⟩ := Prod.ext_iff.mp hC
  obtain ⟨C', hstep, hres⟩ := Option.map_eq_some_iff.mp hpass
  obtain ⟨hbefore, hafter⟩ := Prod.ext_iff.mp hres
  refine ⟨C, hrun, Cable.ping_reached (OnFull.refuse UInt8) twoDevices twoDevices_fresh _ C hrun
    .left 1 1000 0 7 hcall (by decide) 3 echoed 3 C' hstep 3 (by decide) ?_⟩
  rw [show resultsOf (C.log .left) = [] from hbefore]
  exact hafter

theorem onePing_returns : ∃ C C', run (Cable.step (OnFull.refuse UInt8)) twoDevices
      [(.left, .device (.ping 1 1000 7 0)), readsPing] = some C ∧
    C.step (OnFull.refuse UInt8) (.left, .device (.pass 3 echoed 3)) = some C' ∧
    resultsOf (C'.log .left) = resultsOf (C.log .left) ++ [3] := by
  have hends : (run (Cable.step (OnFull.refuse UInt8)) twoDevices
      [(.left, .device (.ping 1 1000 7 0)), readsPing]).map (fun C =>
        ((C.host .left).call, C.wire .right, C.wire .left)) =
      some (.pinging 1 1000 7 0, [], echoed.map Incoming.byte) := by decide +kernel
  obtain ⟨C, hrun, hC⟩ := Option.map_eq_some_iff.mp hends
  obtain ⟨hcall, hwires⟩ := Prod.ext_iff.mp hC
  obtain ⟨hall, hback⟩ := Prod.ext_iff.mp hwires
  obtain ⟨C', hstep, -, hres⟩ := Cable.ping_returns (OnFull.refuse UInt8) twoDevices twoDevices_fresh
    twoDevices_idle _ C hrun .left 1 1000 0 7 hcall hall 3 echoed hback.symm (by decide) 3
  rw [show asInt ((3 : UInt32) - 0).toNat = 3 by decide] at hres
  exact ⟨C, C', hrun, hstep, hres⟩

/-- The server's device reads the request, and its answer. -/
def readsRequest : Side × HostAction := (.right, .device (.read (bytesFor (.getAddrListPack ⟨6⟩))))

def serverAddress : List Incoming := bytesFor (.addrPack ⟨AddressField.only 1⟩)

theorem oneListing_returns : ∃ C C', run (Cable.step (OnFull.refuse UInt8)) twoDevices
      [(.left, .device (.getAddrList 1000 0)), readsRequest] = some C ∧
    C.step (OnFull.refuse UInt8) (.left, .device (.pass 3 serverAddress 3)) = some C' ∧
    resultsOf (C'.log .left) = resultsOf (C.log .left) ++ [Error.none] := by
  have hends : (run (Cable.step (OnFull.refuse UInt8)) twoDevices
      [(.left, .device (.getAddrList 1000 0)), readsRequest]).map (fun C =>
        ((C.host .left).call, C.wire .right, C.wire .left)) =
      some (.listing 1000 0, [], serverAddress.map Incoming.byte) := by decide +kernel
  obtain ⟨C, hrun, hC⟩ := Option.map_eq_some_iff.mp hends
  obtain ⟨hcall, hwires⟩ := Prod.ext_iff.mp hC
  obtain ⟨hall, hback⟩ := Prod.ext_iff.mp hwires
  obtain ⟨C', hstep, -, hres⟩ := Cable.listing_returns (OnFull.refuse UInt8) twoDevices
    twoDevices_fresh twoDevices_idle _ C hrun .left 1000 0 hcall hall 3 serverAddress hback.symm
    (by decide) 3
  exact ⟨C, C', hrun, hstep, hres⟩

theorem oneListing_address : ∃ C C', run (Cable.step (OnFull.refuse UInt8)) twoDevices
      [(.left, .device (.getAddrList 1000 0)), readsRequest] = some C ∧
    C.step (OnFull.refuse UInt8) (.left, .device (.pass 3 serverAddress 3)) = some C' ∧
    ∃ addr, ∀ a, (C'.host .left).lookupAddrList a = decide (a = addr) := by
  have hends : (run (Cable.step (OnFull.refuse UInt8)) twoDevices
      [(.left, .device (.getAddrList 1000 0)), readsRequest]).map (fun C =>
        ((C.host .left).call,
          (C.step (OnFull.refuse UInt8) (.left, .device (.pass 3 serverAddress 3))).map
            fun C' => (resultsOf (C.log .left), resultsOf (C'.log .left)))) =
      some (.listing 1000 0, some ([], [Error.none])) := by decide +kernel
  obtain ⟨C, hrun, hC⟩ := Option.map_eq_some_iff.mp hends
  obtain ⟨hcall, hpass⟩ := Prod.ext_iff.mp hC
  obtain ⟨C', hstep, hres⟩ := Option.map_eq_some_iff.mp hpass
  obtain ⟨hbefore, hafter⟩ := Prod.ext_iff.mp hres
  obtain ⟨addr, -, hlookup⟩ := Cable.listed_address (OnFull.refuse UInt8) twoDevices twoDevices_fresh
    twoDevices_idle _ C hrun .left 1000 0 hcall 3 serverAddress 3 C' hstep (by
      rw [show resultsOf (C.log .left) = [] from hbefore]
      exact hafter)
  exact ⟨C, C', hrun, hstep, addr, hlookup⟩

end PicoLan
