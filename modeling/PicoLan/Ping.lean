import PicoLan.Device
import PicoLan.Lib.Runs

/-!
# Pings

`ping` waits until `ping_echo_payload` is the payload it has sent.  The field is not
reset first, starts with a payload like any other and takes that of every echo, so a
ping can end without an echo of its own (`ownEcho_iff`); it cannot where payloads do
not come back (`ownEcho_of_fresh`).  `get_addr_list` resets its flag
(`addrList_received`).
-/

namespace PicoLan

/-- The echo from `dest` of a ping sent by the interface at `address`. -/
structure PingEchoPack.Answers (e : PingEchoPack) (address dest : UInt8) (payload : UInt16) :
    Prop where
  sourceAddr : e.sourceAddr = dest
  destAddr : e.destAddr = address
  payload : e.payload = payload

instance (e : PingEchoPack) (address dest : UInt8) (payload : UInt16) :
    Decidable (e.Answers address dest payload) :=
  decidable_of_iff (e.sourceAddr = dest ∧ e.destAddr = address ∧ e.payload = payload)
    ⟨fun h => ⟨h.1, h.2.1, h.2.2⟩, fun h => ⟨h.1, h.2, h.3⟩⟩

/-- `ping` or `get_addr_list` is called. -/
def DeviceAction.requests : DeviceAction → Bool
  | .getAddrList _ _ => true
  | .ping _ _ _ _ => true
  | _ => false

/-! ## What a step can do -/

namespace Device

variable (F : OnFull UInt8)

/-- The steps of an interface. -/
inductive Did (D : Device) : DeviceAction → Outcome → Prop where
  | managed {a : DeviceAction} {o : Outcome} (hidle : D.call = .idle) (hdone : o.device.call = .idle)
      (hnone : o.handled = []) (hkept : o.device.pingEchoPayload = D.pingEchoPayload)
      (hret : o.returned = none) (ha : a.requests = false) : Did D a o
  | read {bytes : List Incoming} (hidle : D.call = .idle) : Did D (.read bytes) (D.read F bytes)
  | lists {timeoutMs start : UInt32} (hidle : D.call = .idle) :
    Did D (.getAddrList timeoutMs start) (D.getAddrList timeoutMs start)
  | pings {dest : UInt8} {timeoutMs clock start : UInt32} (hidle : D.call = .idle) :
    Did D (.ping dest timeoutMs clock start) (D.ping dest timeoutMs clock start)
  | timedOut {now : UInt32} {bytes : List Incoming} {after : UInt32} (hcall : D.call ≠ .idle) :
    Did D (.pass now bytes after) (Outcome.finish { device := D } Error.timeout)
  | listed {timeoutMs start now : UInt32} {bytes : List Incoming} {after : UInt32}
      (hcall : D.call = .listing timeoutMs start)
      (haddr : (D.read F bytes).device.addrListRecved = true) :
    Did D (.pass now bytes after) ((D.read F bytes).finish Error.none)
  | listsOn {timeoutMs start now : UInt32} {bytes : List Incoming} {after : UInt32}
      (hcall : D.call = .listing timeoutMs start)
      (haddr : (D.read F bytes).device.addrListRecved = false) :
    Did D (.pass now bytes after) (D.read F bytes)
  | pinged {dest : UInt8} {timeoutMs : UInt32} {payload : UInt16} {start now : UInt32}
      {bytes : List Incoming} {after : UInt32} (hcall : D.call = .pinging dest timeoutMs payload start)
      (htime : now - start < timeoutMs) (hpay : (D.read F bytes).device.pingEchoPayload = payload) :
    Did D (.pass now bytes after) ((D.read F bytes).finish (asInt (after - start).toNat))
  | pingsOn {dest : UInt8} {timeoutMs : UInt32} {payload : UInt16} {start now : UInt32}
      {bytes : List Incoming} {after : UInt32} (hcall : D.call = .pinging dest timeoutMs payload start)
      (hpay : (D.read F bytes).device.pingEchoPayload ≠ payload) :
    Did D (.pass now bytes after) (D.read F bytes)

theorem step_did {D : Device} {a : DeviceAction} {o : Outcome} (h : D.step F a = some o) :
    D.Did F a o := by
  replace h := step_perform F h
  cases a with
  | setAddress addr =>
    obtain ⟨hidle, rfl⟩ := begin_some h
    exact .managed hidle hidle rfl rfl rfl rfl
  | bind l =>
    obtain ⟨hidle, rfl⟩ := begin_some h
    exact .managed hidle hidle rfl rfl rfl rfl
  | unbindSocket l =>
    obtain ⟨hidle, rfl⟩ := begin_some h
    exact .managed hidle hidle rfl rfl rfl rfl
  | sockets object =>
    obtain ⟨hidle, rfl⟩ := begin_some h
    exact .managed hidle hidle rfl rfl rfl rfl
  | read bytes =>
    obtain ⟨hidle, rfl⟩ := begin_some h
    exact .read hidle
  | getAddrList timeoutMs start =>
    obtain ⟨hidle, rfl⟩ := begin_some h
    exact .lists hidle
  | ping dest timeoutMs clock start =>
    obtain ⟨hidle, rfl⟩ := begin_some h
    exact .pings hidle
  | pass now bytes after =>
    unfold perform at h
    cases hcall : D.call with
    | idle =>
      rw [hcall] at h
      cases h
    | listing timeoutMs start =>
      rw [hcall] at h
      cases h
      unfold passListing
      dsimp only
      split
      · split
        · next haddr => exact .listed hcall haddr
        · next haddr => exact .listsOn hcall (Bool.eq_false_iff.mpr haddr)
      · exact .timedOut (by rw [hcall]; simp)
    | pinging dest timeoutMs payload start =>
      rw [hcall] at h
      cases h
      unfold passPinging
      dsimp only
      split
      · next htime =>
        split
        · next hpay => exact .pinged hcall htime hpay
        · next hpay => exact .pingsOn hcall hpay
      · exact .timedOut (by rw [hcall]; simp)

/-- A pass that finds the payload. -/
theorem step_pinged {D : Device} {dest : UInt8} {timeoutMs now start : UInt32} {payload : UInt16}
    (hcall : D.call = .pinging dest timeoutMs payload start) (htime : now - start < timeoutMs)
    {bytes : List Incoming} (hin : D.InBuffer bytes)
    (hpay : (D.read F bytes).device.pingEchoPayload = payload) (after : UInt32) :
    D.step F (.pass now bytes after) =
      some ((D.read F bytes).finish (asInt (after - start).toNat)) := by
  refine (step_iff F).mpr ⟨?_, ?_⟩
  · rw [taken_pass ((inTime_pinging hcall).mpr htime)]
    exact hin
  · unfold perform
    rw [hcall]
    exact congrArg some ((if_pos htime).trans (if_pos hpay))

/-- A pass that finds the flag set. -/
theorem step_listed {D : Device} {timeoutMs now start : UInt32}
    (hcall : D.call = .listing timeoutMs start) (htime : now - start < timeoutMs)
    {bytes : List Incoming} (hin : D.InBuffer bytes)
    (haddr : (D.read F bytes).device.addrListRecved = true) (after : UInt32) :
    D.step F (.pass now bytes after) = some ((D.read F bytes).finish Error.none) := by
  refine (step_iff F).mpr ⟨?_, ?_⟩
  · rw [taken_pass ((inTime_listing hcall).mpr htime)]
    exact hin
  · unfold perform
    rw [hcall]
    exact congrArg some ((if_pos htime).trans (if_pos haddr))

/-- The field has the payload of the last echo. -/
theorem Did.pingEchoPayload {D : Device} {a : DeviceAction} {o : Outcome} (h : D.Did F a o) :
    o.device.pingEchoPayload = lastEcho D.pingEchoPayload o.handled := by
  have hread : ∀ bytes, (D.read F bytes).device.pingEchoPayload =
      lastEcho D.pingEchoPayload (D.read F bytes).handled := by
    intro bytes
    obtain ⟨hhandled, -, hleft⟩ := read_left F D bytes
    rw [hhandled]
    exact hleft.pingEchoPayload
  cases h with
  | managed _ _ hnone hkept =>
    rw [hnone]
    exact hkept
  | read => exact hread _
  | lists => rfl
  | pings => rfl
  | timedOut => rfl
  | listed => exact hread _
  | listsOn => exact hread _
  | pinged => exact hread _
  | pingsOn => exact hread _

end Device

/-! ## Runs -/

/-- An interface, with the packets handled so far: all of them, and those since the
last call of `ping` or `get_addr_list`. -/
structure Watch where
  device : Device
  history : List Packet := []
  received : List Packet := []

namespace Watch

variable (F : OnFull UInt8)

def step (W : Watch) (a : DeviceAction) : Option Watch :=
  (W.device.step F a).map fun o =>
    { device := o.device
      history := W.history ++ o.handled
      received := (if a.requests then [] else W.received) ++ o.handled }

/-- If this step ends a ping with a time, its echo has come in the meantime. -/
def OwnEcho (W : Watch) (a : DeviceAction) : Prop :=
  ∀ o, W.device.step F a = some o → ∀ dest timeoutMs payload start,
    W.device.call = .pinging dest timeoutMs payload start → ∀ n, o.returned = some n → 0 ≤ n →
      ∃ e ∈ Device.echoes (W.received ++ o.handled), e.Answers W.device.address dest payload

/-- A pass that looks in time, before the time is a negative number, and finds that the
last echo that has ever come has the payload of the ping (0 stands for none).  Of those
since the call, all that have it are from another or to another.  What a pass finds that
stores behind `data_buf` is undefined. -/
def MisledIn (W : Watch) (now : UInt32) (bytes : List Incoming) (after : UInt32) :
    DeviceCall → Prop
  | .pinging dest timeoutMs payload start =>
    now - start < timeoutMs ∧ (after - start).toNat < 2 ^ 31 ∧ W.device.InBuffer bytes ∧
      Device.lastEcho 0 (W.history ++ W.device.incoming bytes) = payload ∧
      ∀ e ∈ Device.echoes (W.received ++ W.device.incoming bytes), e.payload = payload →
        e.sourceAddr ≠ dest ∨ e.destAddr ≠ W.device.address
  | _ => False

instance (W : Watch) (now : UInt32) (bytes : List Incoming) (after : UInt32) :
    ∀ c, Decidable (W.MisledIn now bytes after c)
  | .pinging _ _ _ _ => inferInstanceAs (Decidable (_ ∧ _ ∧ _ ∧ _ ∧ ∀ e ∈ _, _))
  | .idle => inferInstanceAs (Decidable False)
  | .listing _ _ => inferInstanceAs (Decidable False)

def Misled (W : Watch) : DeviceAction → Prop
  | .pass now bytes after => W.MisledIn now bytes after W.device.call
  | _ => False

instance (W : Watch) : ∀ a, Decidable (W.Misled a)
  | .pass now bytes after => inferInstanceAs (Decidable (W.MisledIn now bytes after _))
  | .setAddress _ => inferInstanceAs (Decidable False)
  | .bind _ => inferInstanceAs (Decidable False)
  | .unbindSocket _ => inferInstanceAs (Decidable False)
  | .sockets _ => inferInstanceAs (Decidable False)
  | .read _ => inferInstanceAs (Decidable False)
  | .getAddrList _ _ => inferInstanceAs (Decidable False)
  | .ping _ _ _ _ => inferInstanceAs (Decidable False)

/-- The field remembers the last echo. -/
def Remembers (W : Watch) : Prop := W.device.pingEchoPayload = Device.lastEcho 0 W.history

theorem step_some {W W' : Watch} {a : DeviceAction} (h : W.step F a = some W') :
    ∃ o, W.device.Did F a o ∧ W' =
      { device := o.device
        history := W.history ++ o.handled
        received := (if a.requests then [] else W.received) ++ o.handled } := by
  obtain ⟨o, ho, rfl⟩ := Option.map_eq_some_iff.mp h
  exact ⟨o, Device.step_did F ho, rfl⟩

theorem Remembers.step {W W' : Watch} {a : DeviceAction} (hW : W.Remembers)
    (h : W.step F a = some W') : W'.Remembers := by
  obtain ⟨o, hdid, rfl⟩ := step_some F h
  show o.device.pingEchoPayload = Device.lastEcho 0 (W.history ++ o.handled)
  rw [hdid.pingEchoPayload, hW, Device.lastEcho_append]

/-- `ping_echo_payload` after a read. -/
theorem Remembers.read {W : Watch} (hW : W.Remembers) (bytes : List Incoming) :
    (W.device.read F bytes).device.pingEchoPayload =
      Device.lastEcho 0 (W.history ++ W.device.incoming bytes) := by
  rw [(Device.read_left F W.device bytes).2.2.pingEchoPayload, hW, Device.lastEcho_append]

theorem asInt_nonneg {n : Nat} (hn : n < 2 ^ 32) : 0 ≤ asInt n ↔ n < 2 ^ 31 := by
  unfold asInt
  rw [Int.bmod_def]
  split <;> omega

/-- A ping is misled when it ends with a time and its own echo has not come. -/
theorem Remembers.misled_iff {W : Watch} (hW : W.Remembers) {dest : UInt8} {timeoutMs : UInt32}
    {payload : UInt16} {start : UInt32} (hcall : W.device.call = .pinging dest timeoutMs payload start)
    (now : UInt32) (bytes : List Incoming) (after : UInt32) : W.Misled (.pass now bytes after) ↔
      (now - start < timeoutMs ∧ (after - start).toNat < 2 ^ 31 ∧ W.device.InBuffer bytes ∧
        (W.device.read F bytes).device.pingEchoPayload = payload) ∧
      ∀ e ∈ Device.echoes (W.received ++ (W.device.read F bytes).handled),
        ¬ e.Answers W.device.address dest payload := by
  have hnot : ∀ e : PingEchoPack, ¬ e.Answers W.device.address dest payload ↔
      (e.payload = payload → e.sourceAddr ≠ dest ∨ e.destAddr ≠ W.device.address) := by
    intro e
    constructor
    · intro h hp
      by_contra hne
      obtain ⟨hs, hd⟩ := not_or.mp hne
      exact h ⟨Classical.not_not.mp hs, Classical.not_not.mp hd, hp⟩
    · rintro h ⟨hs, hd, hp⟩
      rcases h hp with h | h
      · exact h hs
      · exact h hd
  unfold Misled
  rw [hcall, hW.read F, (Device.read_left F W.device bytes).1]
  simp only [MisledIn, hnot]
  tauto

/-- **One step.** -/
theorem Remembers.ownEcho_step {W : Watch} (hW : W.Remembers) (a : DeviceAction) :
    W.OwnEcho F a ↔ ¬ W.Misled a := by
  constructor
  · intro hown hmis
    cases a with
    | pass now bytes after =>
      cases hcall : W.device.call with
      | pinging dest timeoutMs payload start =>
        obtain ⟨⟨htime, hshort, hin, hpay⟩, hnone⟩ :=
          (hW.misled_iff F hcall now bytes after).mp hmis
        have hstep := Device.step_pinged F hcall htime hin hpay after
        obtain ⟨e, he, hans⟩ := hown _ hstep dest timeoutMs payload start hcall _ rfl
          ((asInt_nonneg (after - start).toNat_lt).mpr hshort)
        exact hnone e he hans
      | _ =>
        unfold Misled at hmis
        rw [hcall] at hmis
        exact hmis
    | _ => exact hmis
  · intro hmis o ho dest timeoutMs payload start hcall n hret hn
    cases Device.step_did F ho with
    | managed hidle => exact absurd (hidle.symm.trans hcall) (by simp)
    | read hidle => exact absurd (hidle.symm.trans hcall) (by simp)
    | lists hidle => exact absurd (hidle.symm.trans hcall) (by simp)
    | pings hidle => exact absurd (hidle.symm.trans hcall) (by simp)
    | timedOut =>
      cases hret
      exact absurd hn (by decide)
    | listed hcall' => exact absurd (hcall'.symm.trans hcall) (by simp)
    | listsOn hcall' => exact absurd (hcall'.symm.trans hcall) (by simp)
    | @pinged _ _ _ _ now bytes after hcall' htime hpay =>
      cases hcall'.symm.trans hcall
      have hin := ((Device.step_iff F).mp ho).1
      rw [Device.taken_pass ((Device.inTime_pinging hcall).mpr htime)] at hin
      have hn : 0 ≤ asInt (after - start).toNat := by
        rw [show asInt (after - start).toNat = n from Option.some.inj hret]
        exact hn
      by_contra hnone
      refine hmis ((hW.misled_iff F hcall now bytes after).mpr ⟨⟨htime, ?_, hin, hpay⟩, ?_⟩)
      · exact (asInt_nonneg (after - start).toNat_lt).mp hn
      · exact fun e he hans => hnone ⟨e, he, hans⟩
    | @pingsOn _ _ _ _ _ bytes =>
      rw [(Device.read_left F W.device bytes).2.1] at hret
      cases hret

end Watch

/-- **Pings.**  In every run of a new interface, no ping ends with a time before its own
echo has come, exactly when none is misled. -/
theorem ownEcho_iff (F : OnFull UInt8) (D : Device) (hnew : D.pingEchoPayload = 0)
    (as : List DeviceAction) :
    Runs.Meets (Watch.step F) (fun W a => W.OwnEcho F a) { device := D } as ↔
      Runs.Meets (Watch.step F) (fun W a => ¬ W.Misled a) { device := D } as :=
  Runs.Meets.congr_of_invariant (I := Watch.Remembers) (fun _ _ _ _ hW _ h => hW.step F h)
    (fun _ a _ hW => hW.ownEcho_step F a) hnew

/-! ## Three pings -/

/-- A new interface without sockets. -/
def newDevice : Device where
  toTable := unboundSockets.table
  parser := .init fun _ => 0

/-- The bytes of an echo from `src`. -/
def echoFrom (src dest : UInt8) (payload : UInt16) : List Incoming :=
  (PingEchoPack.send ⟨6, src, dest, payload⟩ ⟨0, 0, []⟩).out.map (⟨·, fun _ => 0⟩)

/-- 1 pings 9 at 5 ms. -/
def pingAt5 : List DeviceAction := [.setAddress 1, .ping 9 1000 5 5]

/-- The same at 65536 ms, which 16 bits take for 0. -/
def pingAt65536 : List DeviceAction := [.setAddress 1, .ping 9 1000 65536 65536]

theorem answeredPing_ownEcho : ∃ W,
    Runs.run (Watch.step (OnFull.refuse UInt8)) { device := newDevice }
      (pingAt5 ++ [.pass 6 (echoFrom 9 1 5) 7]) = some W ∧ W.device.call = .idle ∧
    Runs.Meets (Watch.step (OnFull.refuse UInt8)) (fun W a => W.OwnEcho (OnFull.refuse UInt8) a)
      { device := newDevice } (pingAt5 ++ [.pass 6 (echoFrom 9 1 5) 7]) :=
  ⟨_, rfl, by decide +kernel, (ownEcho_iff (OnFull.refuse UInt8) newDevice rfl _).mpr
    (by decide +kernel)⟩

/-- A new interface needs no answer at all, and an answer from 3 is as good. -/
theorem unansweredPing_returns :
    (∃ W o, Runs.run (Watch.step (OnFull.refuse UInt8)) { device := newDevice } pingAt65536 =
        some W ∧ W.history = [] ∧
      W.device.step (OnFull.refuse UInt8) (.pass 65536 [] 65537) = some o ∧ o.handled = [] ∧
      o.returned = some 1 ∧ ¬ W.OwnEcho (OnFull.refuse UInt8) (.pass 65536 [] 65537)) ∧
    ∃ W o, Runs.run (Watch.step (OnFull.refuse UInt8)) { device := newDevice } pingAt5 = some W ∧
      W.device.step (OnFull.refuse UInt8) (.pass 6 (echoFrom 3 1 5) 7) = some o ∧
      o.handled = [.pingEchoPack ⟨6, 3, 1, 5⟩] ∧ o.returned = some 2 ∧
      ¬ W.OwnEcho (OnFull.refuse UInt8) (.pass 6 (echoFrom 3 1 5) 7) := by
  refine ⟨⟨_, _, rfl, rfl, rfl, by decide +kernel, by decide +kernel, fun h => ?_⟩,
    ⟨_, _, rfl, rfl, by decide +kernel, by decide +kernel, fun h => ?_⟩⟩
  · have hecho := h _ rfl 9 1000 0 65536 rfl 1 (by decide +kernel) (by decide)
    exact absurd hecho (by decide +kernel)
  · have hecho := h _ rfl 9 1000 5 5 rfl 2 (by decide +kernel) (by decide)
    exact absurd hecho (by decide +kernel)

/-! ## Fresh payloads -/

namespace Watch

variable (F : OnFull UInt8)

/-- A ping has another payload than the last echo before it, and while it runs no echo
from another or to another has its payload. -/
def Fresh (W : Watch) : DeviceAction → Prop
  | .ping _ _ clock _ => Device.lastEcho 0 W.history ≠ clock.toUInt16
  | .pass _ bytes _ => ∀ dest timeoutMs payload start,
    W.device.call = .pinging dest timeoutMs payload start →
      ∀ e ∈ Device.echoes (W.device.incoming bytes), e.payload = payload →
        e.Answers W.device.address dest payload
  | _ => True

/-- A ping that runs has not found its payload. -/
structure Waiting (W : Watch) : Prop where
  field : W.Remembers
  missing : ∀ dest timeoutMs payload start, W.device.call = .pinging dest timeoutMs payload start →
    W.device.pingEchoPayload ≠ payload

theorem Waiting.step {W W' : Watch} {a : DeviceAction} (hW : W.Waiting) (ha : W.Fresh a)
    (h : W.step F a = some W') : W'.Waiting := by
  refine ⟨hW.field.step F h, ?_⟩
  obtain ⟨o, hdid, rfl⟩ := step_some F h
  have hidle : ∀ D : Device, D.call = .idle → ∀ dest timeoutMs payload start,
      D.call = .pinging dest timeoutMs payload start → D.pingEchoPayload ≠ payload :=
    fun D hD dest timeoutMs payload start hcall => absurd (hD.symm.trans hcall) (by simp)
  have hread := fun bytes => (Device.read_left F W.device bytes).2.2.call
  intro dest timeoutMs payload start hcall
  cases hdid with
  | managed _ hdone => exact hidle _ hdone _ _ _ _ hcall
  | read hnone => exact hidle _ ((hread _).trans hnone) _ _ _ _ hcall
  | lists => cases hcall
  | @pings _ _ clock =>
    cases hcall
    show W.device.pingEchoPayload ≠ clock.toUInt16
    rw [hW.field]
    exact ha
  | timedOut => cases hcall
  | listed => cases hcall
  | listsOn hlist => exact absurd ((hread _).trans hlist |>.symm.trans hcall) (by simp)
  | pinged => cases hcall
  | pingsOn hping hpay =>
    cases ((hread _).trans hping).symm.trans hcall
    exact hpay

theorem Waiting.ownEcho {W : Watch} (hW : W.Waiting) {a : DeviceAction} (ha : W.Fresh a) :
    W.OwnEcho F a := by
  refine (hW.field.ownEcho_step F a).mpr fun hmis => ?_
  cases a with
  | pass now bytes after =>
    cases hcall : W.device.call with
    | pinging dest timeoutMs payload start =>
      obtain ⟨⟨-, -, -, hpay⟩, hnone⟩ := (hW.field.misled_iff F hcall now bytes after).mp hmis
      obtain ⟨hhandled, -, hleft⟩ := Device.read_left F W.device bytes
      have hmissing := hW.missing dest timeoutMs payload start hcall
      rw [← hpay, hleft.pingEchoPayload] at hmissing
      -- so an echo with the payload has come in this pass
      obtain ⟨e, he, hlast⟩ := Device.lastEcho_mem hmissing.symm
      rw [← hleft.pingEchoPayload, hpay] at hlast
      refine hnone e ?_ (ha dest timeoutMs payload start hcall e he hlast)
      rw [hhandled, Device.echoes_append]
      exact List.mem_append_right _ he
    | _ =>
      unfold Misled at hmis
      rw [hcall] at hmis
      exact hmis
  | _ => exact hmis

end Watch

/-- **Fresh payloads** do not mislead. -/
theorem ownEcho_of_fresh (F : OnFull UInt8) (D : Device) (hidle : D.call = .idle)
    (hnew : D.pingEchoPayload = 0) (as : List DeviceAction)
    (h : Runs.Meets (Watch.step F) Watch.Fresh { device := D } as) :
    Runs.Meets (Watch.step F) (fun W a => W.OwnEcho F a) { device := D } as := by
  refine h.imp_of_invariant (I := Watch.Waiting) (fun _ _ _ hW ha hs => hW.step F ha hs)
    (fun _ _ hW ha => hW.ownEcho F ha) ⟨hnew, fun _ _ _ _ hcall => ?_⟩
  exact absurd (hidle.symm.trans hcall) (by simp)

/-! ## The list of addresses -/

/-- While `get_addr_list` runs, its flag has not been set. -/
def Device.Unlisted (D : Device) : Prop :=
  ∀ timeoutMs start, D.call = .listing timeoutMs start → D.addrListRecved = false

theorem Device.Did.unlisted {F : OnFull UInt8} {D : Device} {a : DeviceAction} {o : Outcome}
    (h : D.Did F a o) : o.device.Unlisted := by
  have hread := fun bytes => (read_left F D bytes).2.2.call
  intro timeoutMs start hcall
  cases h with
  | managed _ hdone => exact absurd (hdone.symm.trans hcall) (by simp)
  | read hidle => exact absurd (((hread _).trans hidle).symm.trans hcall) (by simp)
  | lists => rfl
  | pings => cases hcall
  | timedOut => cases hcall
  | listed => cases hcall
  | listsOn _ haddr => exact haddr
  | pinged => cases hcall
  | pingsOn hping => exact absurd (((hread _).trans hping).symm.trans hcall) (by simp)

/-- **`get_addr_list`** returns without an error only when an `addr_pack` has come since
its last pass. -/
theorem addrList_received (F : OnFull UInt8) (D : Device) (hidle : D.call = .idle)
    (as : List DeviceAction) (W : Watch) (h : Runs.run (Watch.step F) { device := D } as = some W)
    (a : DeviceAction) (o : Device.Outcome) (hstep : W.device.step F a = some o)
    (timeoutMs start : UInt32) (hcall : W.device.call = .listing timeoutMs start)
    (hret : o.returned = some Error.none) : Device.hasAddr o.handled = true := by
  have hW : W.device.Unlisted := by
    refine Runs.run_always (I := fun W : Watch => W.device.Unlisted) (fun W a W' _ hs => ?_) ?_ h
    · obtain ⟨o, hdid, rfl⟩ := Watch.step_some F hs
      exact hdid.unlisted
    · intro timeoutMs start hlist
      exact absurd (hidle.symm.trans hlist) (by simp)
  have hread := fun bytes => Device.read_left F W.device bytes
  cases Device.step_did F hstep with
  | managed hnone => exact absurd (hnone.symm.trans hcall) (by simp)
  | read hnone => exact absurd (hnone.symm.trans hcall) (by simp)
  | lists hnone => exact absurd (hnone.symm.trans hcall) (by simp)
  | pings hnone => exact absurd (hnone.symm.trans hcall) (by simp)
  | timedOut => exact absurd (Option.some.inj hret) (by decide)
  | @listed _ _ _ bytes _ _ haddr =>
    obtain ⟨hhandled, -, hleft⟩ := hread bytes
    rw [hleft.addrListRecved, hW timeoutMs start hcall, Bool.false_or] at haddr
    exact (congrArg Device.hasAddr hhandled).trans haddr
  | @listsOn _ _ _ bytes =>
    rw [(hread bytes).2.1] at hret
    cases hret
  | pinged hping => exact absurd (hping.symm.trans hcall) (by simp)
  | pingsOn hping => exact absurd (hping.symm.trans hcall) (by simp)

end PicoLan
