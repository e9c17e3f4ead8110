import PicoLan.Device
import PicoLan.Stream.Net

/-!
# Who sends what

A device puts out packets of its own and packets of its sockets.  `Device.log` tells
them apart; without the names it is what the step sends (`packetsOf_log`), and each
stream's part of it is what the stream alone would have sent (`outputsOf_readLog`).
-/

namespace PicoLan

inductive HostOutput where
  | socket (l : Nat) (o : Output)
  | own (p : Packet)
  | ret (r : Int)

/-- The part of the socket `l`. -/
def outputsOf (l : Nat) (out : List HostOutput) : List Output :=
  out.filterMap fun o => match o with
    | .socket m o => if m = l then some o else none
    | _ => none

/-- What goes out on the wire. -/
def packetsOf (out : List HostOutput) : List Packet :=
  out.filterMap fun o => match o with
    | .socket _ (.sent p) => some (.datagramPack p)
    | .own p => some p
    | _ => none

@[simp] theorem outputsOf_append (l : Nat) (out out' : List HostOutput) :
    outputsOf l (out ++ out') = outputsOf l out ++ outputsOf l out' :=
  List.filterMap_append

@[simp] theorem packetsOf_append (out out' : List HostOutput) :
    packetsOf (out ++ out') = packetsOf out ++ packetsOf out' :=
  List.filterMap_append

theorem outputsOf_socket (l m : Nat) (out : List Output) :
    outputsOf l (out.map (.socket m)) = if m = l then out else [] := by
  unfold outputsOf
  split
  · next h => simp [List.filterMap_map, h]
  · next h => simp [List.filterMap_map, h]

@[simp] theorem outputsOf_own (l : Nat) (ps : List Packet) : outputsOf l (ps.map .own) = [] := by
  simp [outputsOf, List.filterMap_map]

@[simp] theorem packetsOf_own (ps : List Packet) : packetsOf (ps.map .own) = ps := by
  simp [packetsOf, List.filterMap_map]

@[simp] theorem packetsOf_socket (l : Nat) (out : List Output) :
    packetsOf (out.map (.socket l)) = (sentOf out).map .datagramPack := by
  induction out with
  | nil => rfl
  | cons o out ih =>
    show packetsOf ([HostOutput.socket l o] ++ out.map (.socket l)) = _
    rw [packetsOf_append, ih]
    cases o <;> rfl

/-- The packets the sockets have sent. -/
def sentLog (out : List (Nat × DatagramPack)) : List HostOutput :=
  out.map fun o => .socket o.1 (.sent o.2)

theorem outputsOf_sentLog (l : Nat) (out : List (Nat × DatagramPack)) :
    outputsOf l (sentLog out) = (sentBy l out).map .sent := by
  induction out with
  | nil => rfl
  | cons o out ih =>
    show outputsOf l ([HostOutput.socket o.1 (.sent o.2)] ++ sentLog out) = _
    rw [outputsOf_append, ih, show o :: out = [o] ++ out by rfl, sentBy_append, List.map_append]
    congr 1
    unfold outputsOf sentBy
    by_cases h : o.1 = l <;> simp [h]

theorem packetsOf_sentLog (out : List (Nat × DatagramPack)) :
    packetsOf (sentLog out) = out.map fun o => .datagramPack o.2 := by
  simp [packetsOf, sentLog, List.filterMap_map]

/-! ## Sockets off the list -/

namespace Interface

variable (F : OnFull UInt8)

/-- A socket that is not on the list is handed nothing. -/
theorem handleAll_unlisted (I : Interface) (as : List Arrival) (l : Nat)
    (hl : l ∉ I.sockets.toList) :
    (I.handleAll F as).1.object l = I.object l ∧ sentBy l (I.handleAll F as).2 = [] := by
  induction as generalizing I with
  | nil => exact ⟨rfl, rfl⟩
  | cons a as ih =>
    have hone : (I.datagramPackHandler F a).1.object l = I.object l ∧
        sentBy l (I.datagramPackHandler F a).2 = [] := by
      unfold datagramPackHandler
      split
      · exact foldl_offer_other F a _ l hl (I, [])
      · exact ⟨rfl, rfl⟩
    obtain ⟨hobj, hsent⟩ := ih (I.datagramPackHandler F a).1 (by
      rw [(handler_address F I a).2]
      exact hl)
    refine ⟨hobj.trans hone.1, ?_⟩
    simp only [Interface.handleAll, sentBy_append, hone.2, hsent, List.append_nil]

theorem handleAll_address (I : Interface) (as : List Arrival) :
    (I.handleAll F as).1.address = I.address ∧ (I.handleAll F as).1.sockets = I.sockets := by
  induction as generalizing I with
  | nil => exact ⟨rfl, rfl⟩
  | cons a as ih =>
    obtain ⟨haddr, hsockets⟩ := handler_address F I a
    obtain ⟨haddr', hsockets'⟩ := ih (I.datagramPackHandler F a).1
    exact ⟨haddr'.trans haddr, hsockets'.trans hsockets⟩

theorem handleAll_ports (I : Interface) (as : List Arrival) (l : Nat) :
    ((I.handleAll F as).1.object l).port = (I.object l).port := by
  induction as generalizing I with
  | nil => rfl
  | cons a as ih => exact (ih (I.datagramPackHandler F a).1).trans (handler_port F I a l)

end Interface

namespace Device

variable (F : OnFull UInt8)

/-! ## Reading -/

def handleLog (D : Device) (behind : Nat → UInt8) : Packet → List HostOutput
  | .datagramPack p => sentLog (D.toInterface.datagramPackHandler F ⟨p, behind⟩).2
  | p => (D.handle F behind p).2.map .own

def handleAllLog (D : Device) (behind : Nat → UInt8) : List Packet → List HostOutput
  | [] => []
  | p :: ps => D.handleLog F behind p ++ handleAllLog (D.handle F behind p).1 behind ps

def readLog (D : Device) : List Incoming → List HostOutput
  | [] => []
  | b :: bs =>
    { D with parser := (D.parser.read b.byte).1 }.handleAllLog F b.behind
        (calls (D.parser.read b.byte).2) ++
      readLog (D.readByte F b).device bs

theorem packetsOf_handleLog (D : Device) (behind : Nat → UInt8) (p : Packet) :
    packetsOf (D.handleLog F behind p) = (D.handle F behind p).2 := by
  cases p with
  | datagramPack p => exact packetsOf_sentLog _
  | _ => exact packetsOf_own _

theorem packetsOf_handleAllLog (D : Device) (behind : Nat → UInt8) (ps : List Packet) :
    packetsOf (D.handleAllLog F behind ps) = (D.handleAll F behind ps).2 := by
  induction ps generalizing D with
  | nil => rfl
  | cons p ps ih =>
    show packetsOf (_ ++ _) = _
    rw [packetsOf_append, packetsOf_handleLog, ih]
    rfl

/-- The log leaves nothing out. -/
theorem packetsOf_readLog (D : Device) (bytes : List Incoming) :
    packetsOf (D.readLog F bytes) = (D.read F bytes).sent := by
  induction bytes generalizing D with
  | nil => rfl
  | cons b bs ih =>
    show packetsOf (_ ++ _) = _
    rw [packetsOf_append, packetsOf_handleAllLog, ih]
    rfl

theorem outputsOf_handleLog (D : Device) (behind : Nat → UInt8) (p : Packet) (l : Nat) :
    outputsOf l (D.handleLog F behind p) =
      (sentBy l (D.toInterface.handleAll F (datagrams behind [p])).2).map .sent := by
  cases p with
  | datagramPack p =>
    have hone : (D.toInterface.handleAll F [⟨p, behind⟩]).2 =
        (D.toInterface.datagramPackHandler F ⟨p, behind⟩).2 := List.append_nil _
    show outputsOf l (sentLog _) = (sentBy l (D.toInterface.handleAll F [⟨p, behind⟩]).2).map _
    rw [outputsOf_sentLog, hone]
  | _ => exact outputsOf_own l _

theorem outputsOf_handleAllLog (D : Device) (behind : Nat → UInt8) (ps : List Packet) (l : Nat) :
    outputsOf l (D.handleAllLog F behind ps) =
      (sentBy l (D.toInterface.handleAll F (datagrams behind ps)).2).map .sent := by
  induction ps generalizing D with
  | nil => rfl
  | cons p ps ih =>
    have hsplit : datagrams behind (p :: ps) = datagrams behind [p] ++ datagrams behind ps :=
      List.filterMap_append (l := [p])
    show outputsOf l (_ ++ _) = _
    rw [outputsOf_append, outputsOf_handleLog, ih, hsplit, Interface.handleAll_append, sentBy_append,
      List.map_append, ← handle_interface]

/-- **The part of each socket** is what the handler of datagrams reports for it. -/
theorem outputsOf_readLog (D : Device) (bytes : List Incoming) (l : Nat) :
    outputsOf l (D.readLog F bytes) =
      (sentBy l (D.toInterface.handleAll F (arrivals D.parser bytes)).2).map .sent := by
  induction bytes generalizing D with
  | nil => rfl
  | cons b bs ih =>
    obtain ⟨-, hparser, -⟩ := readByte_left F D b
    have hone : (D.readByte F b).device.toInterface =
        (D.toInterface.handleAll F (datagrams b.behind (calls (D.parser.read b.byte).2))).1 :=
      handleAll_interface F { D with parser := (D.parser.read b.byte).1 } b.behind _
    have hsplit : arrivals D.parser (b :: bs) =
        datagrams b.behind (calls (D.parser.read b.byte).2) ++
          arrivals (D.parser.read b.byte).1 bs := rfl
    unfold readLog
    rw [outputsOf_append, outputsOf_handleAllLog, ih, hsplit, Interface.handleAll_append,
      sentBy_append, List.map_append, ← hone, ← hparser]

theorem read_sockets (D : Device) (bytes : List Incoming) :
    (D.read F bytes).device.sockets = D.sockets := by
  have hI := congrArg Interface.sockets (read_interface F D bytes)
  exact hI.trans (Interface.handleAll_address F D.toInterface _).2

/-- The parser has taken the bytes. -/
theorem read_parses (D : Device) (bytes : List Incoming) :
    (D.read F bytes).device.parser = (D.parser.feed (bytes.map Incoming.byte)).1 := by
  induction bytes generalizing D with
  | nil => rfl
  | cons b bs ih =>
    obtain ⟨-, hparser, -⟩ := readByte_left F D b
    show ((D.readByte F b).device.read F bs).device.parser = _
    rw [ih, hparser]
    rfl

/-! ## Steps -/

/-- What the interface puts out in a step: what it says to what it reads, or its
request, and its result. -/
def log (D : Device) (a : DeviceAction) (o : Outcome) : List HostOutput :=
  (match a with
    | .read _ => D.readLog F (D.taken a)
    | .pass _ _ _ => D.readLog F (D.taken a)
    | _ => o.sent.map .own) ++ (o.returned.map HostOutput.ret).toList

/-- What a step does, but for `sockets`: the sockets are handed the datagrams that have
come. -/
structure Effect (D : Device) (a : DeviceAction) (o : Outcome) : Prop where
  handled : o.handled = D.incoming (D.taken a)
  parser : o.device.parser = (D.read F (D.taken a)).device.parser
  addrField : o.device.addrField = (D.read F (D.taken a)).device.addrField
  pingEchoPayload : o.device.pingEchoPayload = (D.read F (D.taken a)).device.pingEchoPayload
  object : o.device.object = (D.read F (D.taken a)).device.object
  address : (∀ addr, a ≠ .setAddress addr) → o.device.address = D.address
  packets : packetsOf (D.log F a o) = o.sent
  outputs : ∀ l, outputsOf l (D.log F a o) = outputsOf l (D.readLog F (D.taken a))
  table : o.device.sockets = D.sockets ∨
    (∃ l, a = .bind l ∧ o.device.toTable = (D.toTable.bind l).1) ∨
    ∃ l, a = .unbindSocket l ∧ o.device.toTable = D.toTable.unbindSocket l

theorem packetsOf_ret (r : Option Int) : packetsOf (r.map HostOutput.ret).toList = [] := by
  cases r <;> rfl

theorem outputsOf_ret (l : Nat) (r : Option Int) :
    outputsOf l (r.map HostOutput.ret).toList = [] := by
  cases r <;> rfl

/-- A step that reads nothing. -/
theorem Effect.of_request {D : Device} {a : DeviceAction} {o : Outcome} (htaken : D.taken a = [])
    (hlog : D.log F a o = o.sent.map .own) (hhandled : o.handled = [])
    (hparser : o.device.parser = D.parser) (hfield : o.device.addrField = D.addrField)
    (hecho : o.device.pingEchoPayload = D.pingEchoPayload) (hobj : o.device.object = D.object)
    (haddr : (∀ addr, a ≠ .setAddress addr) → o.device.address = D.address)
    (htable : o.device.sockets = D.sockets ∨
      (∃ l, a = .bind l ∧ o.device.toTable = (D.toTable.bind l).1) ∨
      ∃ l, a = .unbindSocket l ∧ o.device.toTable = D.toTable.unbindSocket l) :
    Effect F D a o where
  handled := by
    rw [htaken, hhandled]
    rfl
  parser := by
    rw [htaken]
    exact hparser
  addrField := by
    rw [htaken]
    exact hfield
  pingEchoPayload := by
    rw [htaken]
    exact hecho
  object := by
    rw [htaken]
    exact hobj
  address := haddr
  packets := by rw [hlog, packetsOf_own]
  outputs l := by
    rw [hlog, outputsOf_own, htaken]
    rfl
  table := htable

/-- A step that reads. -/
theorem Effect.of_read {D : Device} {a : DeviceAction} {o : Outcome}
    (hlog : D.log F a o = D.readLog F (D.taken a) ++ (o.returned.map HostOutput.ret).toList)
    (hhandled : o.handled = (D.read F (D.taken a)).handled)
    (hsent : o.sent = (D.read F (D.taken a)).sent)
    (hdevice : o.device = { (D.read F (D.taken a)).device with call := o.device.call }) :
    Effect F D a o where
  handled := hhandled.trans (read_left F D _).1
  parser := by rw [hdevice]
  addrField := by rw [hdevice]
  pingEchoPayload := by rw [hdevice]
  object := by rw [hdevice]
  address _ := by
    rw [hdevice]
    exact (read_left F D _).2.2.address
  packets := by
    rw [hlog, packetsOf_append, packetsOf_readLog, packetsOf_ret, List.append_nil, hsent]
  outputs l := by rw [hlog, outputsOf_append, outputsOf_ret, List.append_nil]
  table := .inl (by
    rw [hdevice]
    exact read_sockets F D _)

theorem step_effect {D : Device} {a : DeviceAction} {o : Outcome} (hstep : D.step F a = some o)
    (ha : ∀ object, a ≠ .sockets object) : Effect F D a o := by
  have h := step_perform F hstep
  cases a with
  | setAddress addr =>
    obtain ⟨-, rfl⟩ := begin_some h
    exact .of_request F rfl (List.append_nil _) rfl rfl rfl rfl rfl
      (fun hne => absurd rfl (hne addr)) (.inl rfl)
  | bind l =>
    obtain ⟨-, rfl⟩ := begin_some h
    have hbind : (D.toTable.bind l).1.object = D.object ∧
        (D.toTable.bind l).1.address = D.address := by
      obtain ⟨-, heq⟩ | ⟨-, heq⟩ := D.toTable.bind_cases l <;> rw [heq] <;> exact ⟨rfl, rfl⟩
    exact .of_request F rfl (List.append_nil _) rfl rfl rfl rfl hbind.1 (fun _ => hbind.2)
      (.inr (.inl ⟨l, rfl, rfl⟩))
  | unbindSocket l =>
    obtain ⟨-, rfl⟩ := begin_some h
    exact .of_request F rfl (List.append_nil _) rfl rfl rfl rfl rfl (fun _ => rfl)
      (.inr (.inr ⟨l, rfl, rfl⟩))
  | sockets object => exact absurd rfl (ha object)
  | read bytes =>
    obtain ⟨-, rfl⟩ := begin_some h
    exact .of_read F rfl rfl rfl rfl
  | getAddrList timeoutMs start =>
    obtain ⟨-, rfl⟩ := begin_some h
    exact .of_request F rfl (List.append_nil _) rfl rfl rfl rfl rfl (fun _ => rfl) (.inl rfl)
  | ping dest timeoutMs clock start =>
    obtain ⟨-, rfl⟩ := begin_some h
    exact .of_request F rfl (List.append_nil _) rfl rfl rfl rfl rfl (fun _ => rfl) (.inl rfl)
  | pass now bytes after =>
    obtain ⟨htime, ho⟩ | ⟨hover, rfl⟩ := pass_cases F hstep
    · have htaken := taken_pass htime bytes after
      obtain rfl | ⟨r, rfl⟩ := ho
      · refine .of_read F rfl ?_ ?_ ?_ <;> rw [htaken]
      · refine .of_read F rfl ?_ ?_ ?_ <;> rw [htaken] <;> rfl
    · have htaken : D.taken (.pass now bytes after) = [] := if_neg hover
      refine .of_read F rfl ?_ ?_ ?_ <;> rw [htaken] <;> rfl

end Device

end PicoLan
