import PicoLan.Host.Enquiry
import PicoLan.Lib.Timer
import PicoLan.Stream.LateClose

/-!
# A device with its clock

The timeouts of the calls: what `late` and the readings of the interface's own calls stand
for.  On an Arduino `millis()` has 32 bits and wraps around.  No call waits past its timeout,
provided that `iface->read()` comes back before the clock has gone round (`Timed.deadline`).
-/

namespace PicoLan

open Runs

/-- What the clock shows `t` milliseconds after it began. -/
def millis (t : Nat) : UInt32 := UInt32.ofNat t

theorem millis_sub (s t : Nat) : (millis t - millis s).toNat = Timer.passed (2 ^ 32) s t := by
  unfold millis Timer.passed Timer.shown
  rw [UInt32.toNat_sub, UInt32.toNat_ofNat', UInt32.toNat_ofNat']

/-- `timeout` are those of the sockets.  `now` is the last time at which the running call has
looked at the clock, and `since` what it counts from: `start`, `startMillis` or `start_time`.
`begun` is the time of the last call. -/
structure Timed where
  host : Host
  timeout : Nat → UInt16 := fun _ => 1000
  now : Nat := 0
  since : Nat := 0
  begun : Nat := 0

/-- `call` is anything but a poll or a pass, with the time at which a wait begins.  In `poll` the
clock is looked at once when `iface->read()` has returned, and again where the call goes on to
another wait; in `pass`, in the condition of the loop and for the result. -/
inductive TimedAction where
  | setTimeout (l : Nat) (timeout : UInt16)
  | call (c : HostAction) (t : Nat)
  | poll (bytes : List Incoming) (t t' : Nat)
  | pass (t : Nat) (bytes : List Incoming) (t' : Nat)

/-- The call waits with the clock in view. -/
def Call.waits : Call → Bool
  | .idle => false
  | .connecting => true
  | .accepting => true
  | .reading _ _ => true
  | .writing w => match w.pc with
    | .waiting => true
    | _ => false

/-- From here on the call counts anew: the next byte is waited for, or the burst has gone out. -/
def Call.restarts : Call → Call → Bool
  | .reading got _, .reading got' _ => got.length < got'.length
  | .writing w, .writing w' => !(Call.writing w).waits && (Call.writing w').waits
  | _, _ => false

namespace DeviceCall

/-- The start that a call of the interface has noted. -/
def noted : DeviceCall → Option UInt32
  | .idle => none
  | .listing _ start => some start
  | .pinging _ _ _ start => some start

def allowed : DeviceCall → Option Nat
  | .idle => none
  | .listing timeoutMs _ => some timeoutMs.toNat
  | .pinging _ timeoutMs _ _ => some timeoutMs.toNat

end DeviceCall

namespace Timed

/-- The test that follows `iface->read()`. -/
def late (T : Timed) (l : Nat) (c : Call) (t : Nat) : Bool :=
  let dt := millis t - millis T.since
  let timeout := (T.timeout l).toUInt32
  match c with
  | .connecting => dt > timeout
  | .accepting => dt > timeout
  | .reading _ _ => !(dt < timeout)
  | .writing _ => !(dt < timeout)
  | .idle => false

/-- The calls read the clock themselves. -/
def Reads (c : HostAction) (t : Nat) : Prop :=
  match c with
  | .poll _ _ => False
  | .device (.pass _ _ _) => False
  | .device (.getAddrList _ start) => start = millis t
  | .device (.ping _ _ _ start) => start = millis t
  | _ => True

instance (t : Nat) : ∀ c, Decidable (Reads c t)
  | .device a => match a with
    | .pass _ _ _ => inferInstanceAs (Decidable False)
    | .getAddrList _ _ => inferInstanceAs (Decidable (_ = _))
    | .ping _ _ _ _ => inferInstanceAs (Decidable (_ = _))
    | .setAddress _ => inferInstanceAs (Decidable True)
    | .unbindSocket _ => inferInstanceAs (Decidable True)
    | .bind _ => inferInstanceAs (Decidable True)
    | .sockets _ => inferInstanceAs (Decidable True)
    | .read _ => inferInstanceAs (Decidable True)
  | .poll _ _ => inferInstanceAs (Decidable False)
  | .destroy _ => inferInstanceAs (Decidable True)
  | .socket _ _ => inferInstanceAs (Decidable True)
  | .write _ _ _ _ => inferInstanceAs (Decidable True)
  | .subscribe _ _ => inferInstanceAs (Decidable True)
  | .receive _ _ => inferInstanceAs (Decidable True)

/-- `none`, too, when the clock goes back. -/
def step (F : OnFull UInt8) (T : Timed) : TimedAction → Option (Timed × List HostOutput)
  | .setTimeout l timeout =>
    if T.host.call = .idle ∧ T.host.running = none then
      some ({ T with timeout := Function.update T.timeout l timeout }, [])
    else none
  | .call c t =>
    if T.now ≤ t ∧ Reads c t then
      (T.host.step F c).map fun r =>
        ({ T with host := r.1, now := t, since := t, begun := if T.host.running = none then t else T.begun },
          r.2)
    else none
  | .poll bytes t t' =>
    if T.now ≤ t ∧ t ≤ t' then
      match T.host.running with
      | none => none
      | some (l, c) =>
        (T.host.step F (.poll bytes (T.late l c t))).map fun r =>
          if c.restarts (r.1.callOf l) then ({ T with host := r.1, now := t', since := t' }, r.2)
          else ({ T with host := r.1, now := t }, r.2)
    else none
  | .pass t bytes t' =>
    if T.now ≤ t ∧ t ≤ t' then
      (T.host.step F (.device (.pass (millis t) bytes (millis t')))).map fun r =>
        ({ T with host := r.1, now := t }, r.2)
    else none

/-- How long the running call may wait. -/
def limit (T : Timed) : Option Nat :=
  match T.host.running with
  | some (l, c) => if c.waits then some (T.timeout l).toNat else none
  | none => T.host.call.allowed

end Timed

/-! ## What a wait looks at -/

namespace Endpoint

theorem afterPass_waits (e : Endpoint) (w : WriteCall) :
    (e.afterPass (w.evaluate e.socket)).1.call.waits = false := by
  generalize hr : w.evaluate e.socket = r
  obtain ⟨s, r⟩ := r
  cases r with
  | goesOn w' =>
    show (match w'.pc with | .waiting => true | _ => false) = false
    rw [WriteCall.evaluate_top hr]
  | returns r => rfl

/-- A wait that goes on, and has not begun in this step, was in time. -/
theorem resume_waits {e : Endpoint} {late : Bool} (htop : e.atTop = false)
    (hwaits : (e.resume late).1.call.waits = true)
    (hsame : e.call.restarts (e.resume late).1.call = false) :
    late = false ∧ e.call.waits = true := by
  cases hc : e.call with
  | idle =>
    rw [resume_idle hc, hc] at hwaits
    cases hwaits
  | connecting =>
    refine ⟨?_, rfl⟩
    unfold resume at hwaits
    rw [hc] at hwaits
    cases late with
    | false => rfl
    | true => cases hwaits
  | accepting =>
    refine ⟨?_, rfl⟩
    unfold resume at hwaits
    rw [hc] at hwaits
    cases late with
    | false => rfl
    | true => cases hwaits
  | reading got len =>
    refine ⟨?_, rfl⟩
    unfold resume at hwaits
    rw [hc] at hwaits
    cases late with
    | false => rfl
    | true =>
      have hidle := endRead_idle e got
      simp only [if_true, hidle] at hwaits
      cases hwaits
  | writing w =>
    cases hpc : w.pc with
    | top =>
      unfold atTop at htop
      rw [hc] at htop
      dsimp only at htop
      rw [hpc] at htop
      cases htop
    | sending i pack =>
      -- the wait for the acknowledgement begins here
      have hbefore : (Call.writing w).waits = false := by
        unfold Call.waits
        dsimp only
        rw [hpc]
      rw [resume_sending hc hpc] at hwaits hsame
      rw [hc] at hsame
      unfold Call.restarts at hsame
      dsimp only at hwaits hsame
      rw [hwaits, hbefore] at hsame
      cases hsame
    | waiting =>
      have hbefore : (Call.writing w).waits = true := by
        unfold Call.waits
        dsimp only
        rw [hpc]
      refine ⟨?_, hbefore⟩
      rw [resume_waiting hc hpc] at hwaits
      cases late with
      | false => rfl
      | true =>
        rw [if_pos (.inr rfl), afterPass_waits] at hwaits
        cases hwaits

end Endpoint

namespace Device

variable {F : OnFull UInt8} {D : Device} {o : Outcome} {now after : UInt32} {bytes : List Incoming}

theorem pass_goesOn (h : D.step F (.pass now bytes after) = some o) (hcall : o.device.call ≠ .idle) :
    D.InTime now ∧ o.device.call = D.call := by
  obtain ⟨htime, rfl | ⟨r, rfl⟩⟩ | ⟨-, rfl⟩ := pass_cases F h
  · exact ⟨htime, (read_left F D bytes).2.2.call⟩
  · exact absurd rfl hcall
  · exact absurd rfl hcall

/-- Only a pass finds a call running. -/
theorem step_begins {a : DeviceAction} (h : D.step F a = some o)
    (ha : ∀ now bytes after, a ≠ .pass now bytes after) : D.call = .idle := by
  replace h := step_perform F h
  cases a with
  | pass now bytes after => exact absurd rfl (ha now bytes after)
  | _ => exact (begin_some h).1

end Device

namespace Host

variable {F : OnFull UInt8} {H H' : Host} {out : List HostOutput} {bytes : List Incoming} {late : Bool}

theorem step_pass_device {now after : UInt32}
    (h : H.step F (.device (.pass now bytes after)) = some (H', out)) :
    H.running = none ∧ ∃ o, H.toDevice.step F (.pass now bytes after) = some o ∧
      H' = { H with toDevice := o.device } ∧ out = H.toDevice.log F (.pass now bytes after) o := by
  generalize hr : (H', out) = r at h
  cases step_did F h with
  | @device a o hrun ha ho =>
    cases hr
    exact ⟨hrun, o, ho, rfl, rfl⟩

theorem store_running {l m : Nat} {b : Bound} {call call' : Call}
    (h : (H.store l b call).running = some (m, call')) : m = l ∧ call' = call := by
  unfold store at h
  cases call with
  | idle => cases h
  | _ =>
    cases h
    exact ⟨rfl, rfl⟩

theorem storeDatagram_running {l m len : Nat} {r : Socket × List UInt8} {call : Call}
    (h : (H.storeDatagram l r len late).1.running = some (m, call)) :
    m = l ∧ late = false ∧ call = .reading r.2 len := by
  unfold storeDatagram at h
  split at h
  · next hgoes =>
    obtain ⟨rfl, rfl⟩ := store_running h
    exact ⟨rfl, hgoes.2, rfl⟩
  · obtain ⟨rfl, rfl⟩ := store_running h
    cases h

/-- A wait of a socket that goes on. -/
theorem poll_goesOn {l m : Nat} {c c' : Call} (hrun : H.running = some (l, c))
    (h : H.step F (.poll bytes late) = some (H', out)) (hrun' : H'.running = some (m, c'))
    (hwaits : c'.waits = true) (hsame : c.restarts (H'.callOf l) = false) :
    m = l ∧ late = false ∧ c.waits = true := by
  generalize hr : (H', out) = r at h
  cases step_did F h with
  | @pollStream l' call _ _ kind socket hrun₁ hobj htop =>
    cases hrun.symm.trans hrun₁
    obtain ⟨rfl, -⟩ := Prod.ext_iff.mp hr
    obtain ⟨rfl, rfl⟩ := store_running hrun'
    rw [show ((H.received F bytes).storeStream m _).1.callOf m = _ from store_callOf ..] at hsame
    obtain ⟨hlate, hc⟩ := Endpoint.resume_waits htop hwaits hsame
    exact ⟨rfl, hlate, hc⟩
  | @pollDatagram l' len got _ _ s hrun₁ hobj =>
    cases hrun.symm.trans hrun₁
    obtain ⟨rfl, -⟩ := Prod.ext_iff.mp hr
    obtain ⟨rfl, hlate, -⟩ := storeDatagram_running hrun'
    exact ⟨rfl, hlate, rfl⟩

end Host

/-! ## Deadlines -/

namespace Timed

variable {F : OnFull UInt8} {T T' : Timed} {a : TimedAction} {out : List HostOutput} {g : Nat}

/-- When the clock is looked at. -/
def look : TimedAction → Option Nat
  | .poll _ t _ => some t
  | .pass t _ _ => some t
  | _ => none

/-- While a call waits, no more than `g` lies between two looks at the clock, and the clock does
not go round within that and the time allowed. -/
def Attentive (g : Nat) (T : Timed) (a : TimedAction) : Prop :=
  ∀ t, look a = some t → ∀ limit, T.limit = some limit → t ≤ T.now + g ∧ limit + g < 2 ^ 32

instance (g : Nat) (T : Timed) (a : TimedAction) : Decidable (Attentive g T a) :=
  inferInstanceAs (Decidable (∀ t ∈ look a, ∀ limit ∈ T.limit, t ≤ T.now + g ∧ limit + g < 2 ^ 32))

/-- What the clock has to do with the running call. -/
structure Dated (T : Timed) : Prop where
  one : T.host.OneCall
  ordered : T.since ≤ T.now
  started : ∀ start, T.host.call.noted = some start → start = millis T.since

theorem Dated.of_rest (hrest : T.host.call = .idle) (hclock : T.since ≤ T.now) : T.Dated := by
  refine ⟨.inl hrest, hclock, fun start hstart => ?_⟩
  rw [hrest] at hstart
  cases hstart

/-- The running call is not past its limit. -/
def Within (T : Timed) : Prop := ∀ limit, T.limit = some limit → T.now ≤ T.since + limit

/-- In time by the clock is in time. -/
theorem Dated.look (h : T.Dated) (hwithin : T.Within) {t limit : Nat} (hlimit : T.limit = some limit)
    (ht : T.now ≤ t) (hgap : t ≤ T.now + g) (hround : limit + g < 2 ^ 32)
    (hlook : (millis t - millis T.since).toNat ≤ limit) : t ≤ T.since + limit := by
  rw [millis_sub] at hlook
  exact Timer.goesOn hround h.ordered (hwithin limit hlimit) ht hgap hlook

/-- Every step of the clock's is one of the device's. -/
theorem step_host (h : T.step F a = some (T', out)) :
    (T'.host = T.host ∧ out = []) ∨ ∃ c, T.host.step F c = some (T'.host, out) := by
  cases a with
  | setTimeout l timeout =>
    obtain ⟨-, h⟩ := Option.ite_none_right_eq_some.mp h
    cases h
    exact .inl ⟨rfl, rfl⟩
  | call c t =>
    obtain ⟨-, h⟩ := Option.ite_none_right_eq_some.mp h
    obtain ⟨⟨H, out'⟩, hstep, hr⟩ := Option.map_eq_some_iff.mp h
    cases hr
    exact .inr ⟨c, hstep⟩
  | poll bytes t t' =>
    obtain ⟨-, h⟩ := Option.ite_none_right_eq_some.mp h
    cases hrun : T.host.running with
    | none =>
      rw [hrun] at h
      cases h
    | some r =>
      rw [hrun] at h
      obtain ⟨⟨H, out'⟩, hstep, hr⟩ := Option.map_eq_some_iff.mp h
      refine .inr ⟨_, hstep.trans ?_⟩
      dsimp only at hr
      split at hr <;> cases hr <;> rfl
  | pass t bytes t' =>
    obtain ⟨-, h⟩ := Option.ite_none_right_eq_some.mp h
    obtain ⟨⟨H, out'⟩, hstep, hr⟩ := Option.map_eq_some_iff.mp h
    cases hr
    exact .inr ⟨_, hstep⟩

theorem step_oneCall (h : T.step F a = some (T', out)) (hone : T.host.OneCall) : T'.host.OneCall := by
  obtain ⟨hhost, -⟩ | ⟨c, hstep⟩ := step_host h
  · rw [hhost]
    exact hone
  · exact (Host.step_call hone hstep).1

/-- What a call notes is what the clock shows when it begins. -/
theorem noted_call {c : HostAction} {t : Nat} {H : Host} (hone : T.host.OneCall) (hreads : Reads c t)
    (h : T.host.step F c = some (H, out)) {start : UInt32} (hstart : H.call.noted = some start) :
    start = millis t := by
  obtain ⟨a, o, rfl, -, ho, rfl, -⟩ | ⟨-, -, hidle⟩ := (Host.step_call hone h).2
  · have hbegins : T.host.call = .idle := Device.step_begins ho fun now bytes after ha => by
      rw [ha] at hreads
      exact hreads
    change o.device.call.noted = some start at hstart
    cases hcall : o.device.call with
    | idle =>
      rw [hcall] at hstart
      cases hstart
    | listing timeoutMs start' =>
      rw [hcall] at hstart
      cases hstart
      obtain rfl | ⟨hlist, -⟩ := (Device.step_did F ho).listing F hcall
      · exact hreads
      · cases hbegins.symm.trans hlist
    | pinging dest timeoutMs payload start' =>
      rw [hcall] at hstart
      cases hstart
      obtain ⟨clock, rfl, -⟩ | ⟨hping, -⟩ := (Device.step_did F ho).pinging F hcall
      · exact hreads
      · cases hbegins.symm.trans hping
  · rw [hidle] at hstart
    cases hstart

/-- The condition of the interface's own loops. -/
theorem Dated.inTime (h : T.Dated) {t limit : Nat} (htime : T.host.toDevice.InTime (millis t))
    (hlimit : T.host.call.allowed = some limit) : (millis t - millis T.since).toNat ≤ limit := by
  unfold Device.InTime at htime
  cases hcall : T.host.call with
  | idle =>
    rw [hcall] at hlimit
    cases hlimit
  | listing timeoutMs start =>
    rw [hcall] at hlimit htime
    cases hlimit
    rw [← h.started start (by rw [hcall]; rfl)]
    exact Nat.le_of_lt htime
  | pinging dest timeoutMs payload start =>
    rw [hcall] at hlimit htime
    cases hlimit
    rw [← h.started start (by rw [hcall]; rfl)]
    exact Nat.le_of_lt htime

theorem late_false {l : Nat} {c : Call} {t : Nat} (h : T.late l c t = false) (hwaits : c.waits = true) :
    (millis t - millis T.since).toNat ≤ (T.timeout l).toNat := by
  have hlim : (T.timeout l).toUInt32.toNat = (T.timeout l).toNat := UInt16.toNat_toUInt32 _
  rw [← hlim]
  unfold late at h
  cases c with
  | idle => cases hwaits
  | connecting => exact Nat.le_of_not_lt (of_decide_eq_false h)
  | accepting => exact Nat.le_of_not_lt (of_decide_eq_false h)
  | reading got len =>
    exact Nat.le_of_lt (of_decide_eq_true ((Bool.not_eq_eq_eq_not).mp h))
  | writing w =>
    exact Nat.le_of_lt (of_decide_eq_true ((Bool.not_eq_eq_eq_not).mp h))

/-- A socket is waiting, so the interface notes nothing. -/
theorem poll_notes {c : HostAction} {H : Host} (hone : T.host.OneCall) (h : T.host.step F c = some (H, out))
    (hc : ∀ a, c ≠ .device a) (start : UInt32) : H.call.noted ≠ some start := by
  obtain ⟨a, o, rfl, -⟩ | ⟨-, -, hidle⟩ := (Host.step_call hone h).2
  · exact absurd rfl (hc a)
  · rw [hidle]
    exact fun hnone => by cases hnone

theorem Dated.step (h : T.Dated) (hstep : T.step F a = some (T', out)) : T'.Dated := by
  have hone := step_oneCall hstep h.one
  cases a with
  | setTimeout l timeout =>
    obtain ⟨-, hstep⟩ := Option.ite_none_right_eq_some.mp hstep
    cases hstep
    exact ⟨hone, h.ordered, h.started⟩
  | call c t =>
    obtain ⟨⟨-, hreads⟩, hstep⟩ := Option.ite_none_right_eq_some.mp hstep
    obtain ⟨⟨H, out'⟩, hhost, hr⟩ := Option.map_eq_some_iff.mp hstep
    cases hr
    exact ⟨hone, Nat.le_refl t, fun start hstart => noted_call h.one hreads hhost hstart⟩
  | poll bytes t t' =>
    obtain ⟨⟨ht, -⟩, hstep⟩ := Option.ite_none_right_eq_some.mp hstep
    cases hrun : T.host.running with
    | none =>
      rw [hrun] at hstep
      cases hstep
    | some r =>
      rw [hrun] at hstep
      obtain ⟨⟨H, out'⟩, hhost, hr⟩ := Option.map_eq_some_iff.mp hstep
      dsimp only at hr
      have hnotes := poll_notes h.one hhost (fun a hne => by cases hne)
      split at hr
      · cases hr
        exact ⟨hone, Nat.le_refl t', fun start hstart => absurd hstart (hnotes start)⟩
      · cases hr
        exact ⟨hone, h.ordered.trans ht, fun start hstart => absurd hstart (hnotes start)⟩
  | pass t bytes t' =>
    obtain ⟨⟨ht, -⟩, hstep⟩ := Option.ite_none_right_eq_some.mp hstep
    obtain ⟨⟨H, out'⟩, hhost, hr⟩ := Option.map_eq_some_iff.mp hstep
    cases hr
    obtain ⟨-, o, ho, rfl, -⟩ := Host.step_pass_device hhost
    refine ⟨hone, h.ordered.trans ht, fun start hstart => ?_⟩
    change o.device.call.noted = some start at hstart
    by_cases hcall : o.device.call = .idle
    · rw [hcall] at hstart
      cases hstart
    · rw [(Device.pass_goesOn ho hcall).2] at hstart
      exact h.started start hstart

theorem Dated.step_within (h : T.Dated) (hwithin : T.Within) (hok : Attentive g T a)
    (hstep : T.step F a = some (T', out)) : T'.Within := by
  intro limit hlimit
  cases a with
  | setTimeout l timeout =>
    obtain ⟨⟨hidle, hrun⟩, hstep⟩ := Option.ite_none_right_eq_some.mp hstep
    cases hstep
    unfold Timed.limit at hlimit
    dsimp only at hlimit
    rw [hrun, hidle] at hlimit
    cases hlimit
  | call c t =>
    obtain ⟨-, hstep⟩ := Option.ite_none_right_eq_some.mp hstep
    obtain ⟨⟨H, out'⟩, -, hr⟩ := Option.map_eq_some_iff.mp hstep
    cases hr
    exact Nat.le_add_right t limit
  | poll bytes t t' =>
    obtain ⟨⟨ht, -⟩, hstep⟩ := Option.ite_none_right_eq_some.mp hstep
    cases hrun : T.host.running with
    | none =>
      rw [hrun] at hstep
      cases hstep
    | some r =>
      obtain ⟨l, c⟩ := r
      rw [hrun] at hstep
      obtain ⟨⟨H, out'⟩, hhost, hr⟩ := Option.map_eq_some_iff.mp hstep
      dsimp only at hr
      split at hr
      · cases hr
        exact Nat.le_add_right t' limit
      · next hsame =>
        cases hr
        unfold Timed.limit at hlimit
        dsimp only at hlimit
        cases hrun' : H.running with
        | none =>
          have hidle : H.call = .idle := by
            obtain ⟨a, o, ha, -⟩ | ⟨-, -, hidle⟩ := (Host.step_call h.one hhost).2
            · cases ha
            · exact hidle
          rw [hrun', hidle] at hlimit
          cases hlimit
        | some r =>
          obtain ⟨m, c'⟩ := r
          rw [hrun'] at hlimit
          dsimp only at hlimit
          obtain ⟨hwaits, hlimit⟩ := Option.ite_none_right_eq_some.mp hlimit
          cases hlimit
          obtain ⟨rfl, hlate, hc⟩ := Host.poll_goesOn hrun hhost hrun' hwaits
            (Bool.not_eq_true _ ▸ hsame)
          have hlimit : T.limit = some (T.timeout m).toNat := by
            unfold Timed.limit
            rw [hrun]
            exact if_pos hc
          obtain ⟨hgap, hround⟩ := hok t rfl _ hlimit
          exact h.look hwithin hlimit ht hgap hround (late_false hlate hc)
  | pass t bytes t' =>
    obtain ⟨⟨ht, -⟩, hstep⟩ := Option.ite_none_right_eq_some.mp hstep
    obtain ⟨⟨H, out'⟩, hhost, hr⟩ := Option.map_eq_some_iff.mp hstep
    cases hr
    obtain ⟨hrun, o, ho, rfl, -⟩ := Host.step_pass_device hhost
    unfold Timed.limit at hlimit
    dsimp only at hlimit
    rw [hrun] at hlimit
    change o.device.call.allowed = some limit at hlimit
    by_cases hcall : o.device.call = .idle
    · rw [hcall] at hlimit
      cases hlimit
    · obtain ⟨htime, hsame⟩ := Device.pass_goesOn ho hcall
      rw [hsame] at hlimit
      have hlimit' : T.limit = some limit := by
        unfold Timed.limit
        rw [hrun]
        exact hlimit
      obtain ⟨hgap, hround⟩ := hok t rfl _ hlimit'
      exact h.look hwithin hlimit' ht hgap hround (h.inTime htime hlimit)

/-- **No call waits past its timeout.**  In every run of a device with its clock in which
`iface->read()` always comes back within `g`, and the clock does not go round within `g` and the
time allowed: while a call waits, no more time has passed than it may take. -/
theorem deadline (F : OnFull UInt8) (g : Nat) (T : Timed) (hrest : T.host.call = .idle)
    (hidle : T.host.running = none) (hclock : T.since ≤ T.now) (as : List TimedAction)
    (x : Timed × List HostOutput) (hrun : run (logged (Timed.step F)) (T, []) as = some x)
    (hok : Meets (logged (Timed.step F)) (fun x a => Attentive g x.1 a) (T, []) as) (limit : Nat)
    (hlimit : x.1.limit = some limit) : x.1.now ≤ x.1.since + limit := by
  have hstart : T.Within := fun limit hlimit => by
    unfold Timed.limit at hlimit
    rw [hidle, hrest] at hlimit
    cases hlimit
  have hend := run_invariant (I := fun x : Timed × List HostOutput => x.1.Dated ∧ x.1.Within)
    (fun x a y hx ha hstep => by
      obtain ⟨out, hstep, -⟩ := logged_some.mp hstep
      exact ⟨hx.1.step hstep, hx.1.step_within hx.2 ha hstep⟩) ⟨.of_rest hrest hclock, hstart⟩ hok hrun
  exact hend.2 limit hlimit

/-- A client calls an address that nobody has, and has been waiting for 600 ms. -/
def calling : List TimedAction := [.call (.socket 0 (.connect 9 80)) 0, .poll [] 600 600]

theorem calling_deadline : ∃ x, run (logged (Timed.step (OnFull.refuse UInt8)))
      ({ host := deviceWith .client 1 30 }, []) calling = some x ∧
    x.1.limit = some 1000 ∧ x.1.now ≤ x.1.since + 1000 := by
  obtain ⟨x, hrun, hlimit⟩ : ∃ x, run (logged (Timed.step (OnFull.refuse UInt8)))
      ({ host := deviceWith .client 1 30 }, []) calling = some x ∧ x.1.limit = some 1000 :=
    ⟨_, rfl, rfl⟩
  exact ⟨x, hrun, hlimit, deadline (OnFull.refuse UInt8) 600 { host := deviceWith .client 1 30 } rfl rfl
    (Nat.le_refl 0) calling x hrun (by decide +kernel) 1000 hlimit⟩

end Timed

end PicoLan
