import PicoLan.Host.GivesUp

/-!
# A timeout that is reported

A call that reports a timeout has waited for it (`Timed.timeouts_true`): `connect`, `accept`,
`ping` and `get_addr_list` since they were called, `read` since the last byte.  `write` gives up
at the third burst that nobody has acknowledged, and by then three times its timeout have passed.

Nothing is asked of the clock here: it may go round between two looks, and a call that looks
too late only waits for longer.
-/

namespace PicoLan

open Runs

namespace Device

variable {F : OnFull UInt8} {D : Device} {o : Outcome} {now after : UInt32} {bytes : List Incoming}

/-- `ping` can also return a time that reads -1. -/
theorem pass_timeout (h : D.step F (.pass now bytes after) = some o)
    (hret : o.returned = some Error.timeout) : ∃ start limit, D.call.noted = some start ∧
      D.call.allowed = some limit ∧ (limit ≤ (now - start).toNat ∨ limit ≤ (after - start).toNat) := by
  have hread := (read_left F D bytes).2.1
  replace h := step_perform F h
  unfold perform at h
  cases hD : D.call with
  | idle =>
    rw [hD] at h
    cases h
  | listing timeoutMs start =>
    rw [hD] at h
    cases h
    refine ⟨start, timeoutMs.toNat, rfl, rfl, .inl ?_⟩
    by_cases htime : now - start < timeoutMs
    · unfold passListing at hret
      rw [if_pos htime] at hret
      dsimp only at hret
      split at hret
      · exact absurd (Option.some.inj hret) (by decide)
      · cases hread.symm.trans hret
    · exact Nat.le_of_not_lt htime
  | pinging dest timeoutMs payload start =>
    rw [hD] at h
    cases h
    refine ⟨start, timeoutMs.toNat, rfl, rfl, ?_⟩
    by_cases htime : now - start < timeoutMs
    · unfold passPinging at hret
      rw [if_pos htime] at hret
      dsimp only at hret
      split at hret
      · have hround : ¬ (after - start).toNat + 1 < 2 ^ 32 := fun hlt =>
          asInt_ne_timeout hlt (Option.some.inj hret)
        have hlimit := timeoutMs.toNat_lt
        exact .inr (by omega)
      · cases hread.symm.trans hret
    · exact .inl (Nat.le_of_not_lt htime)

end Device

/-! ## With the clock -/

namespace Timed

variable {F : OnFull UInt8} {T T' : Timed} {a : TimedAction} {out : List HostOutput}

/-- The running call returns for want of time. -/
def GaveUp (T : Timed) (out : List HostOutput) : Prop :=
  match T.host.running with
  | some (l, c) => c.GaveUp (outputsOf l out)
  | none => Error.timeout ∈ resultsOf out

instance (T : Timed) (out : List HostOutput) : Decidable (T.GaveUp out) :=
  match h : T.host.running with
  | some (l, c) => decidable_of_iff (c.GaveUp (outputsOf l out)) (by simp [GaveUp, h])
  | none => decidable_of_iff (Error.timeout ∈ resultsOf out) (by simp [GaveUp, h])

/-- At `t` the time of the running call is over. -/
def Over (T : Timed) (t : Nat) : Prop :=
  match T.host.running with
  | some (l, .writing _) => T.begun + 3 * (T.timeout l).toNat ≤ t
  | some (l, _) => T.since + (T.timeout l).toNat ≤ t
  | none => ∃ limit, T.host.call.allowed = some limit ∧ T.since + limit ≤ t

/-- The last look at the clock in a step. -/
def lastLook : TimedAction → Option Nat
  | .poll _ t _ => some t
  | .pass _ _ t' => some t'
  | _ => none

/-- Every burst that a running `write` has given up took its time. -/
structure Patient (T : Timed) : Prop where
  begun : T.host.running ≠ none → T.begun ≤ T.now
  tries : ∀ l w, T.host.running = some (l, .writing w) →
    T.begun + w.noAckCount * (T.timeout l).toNat ≤ if (Call.writing w).waits then T.since else T.now

theorem late_true {l : Nat} {c : Call} {t : Nat} (h : T.late l c t = true) :
    (T.timeout l).toNat ≤ (millis t - millis T.since).toNat := by
  have hlim : (T.timeout l).toUInt32.toNat = (T.timeout l).toNat := UInt16.toNat_toUInt32 _
  rw [← hlim]
  unfold late at h
  cases c with
  | idle => cases h
  | connecting => exact Nat.le_of_lt (of_decide_eq_true h)
  | accepting => exact Nat.le_of_lt (of_decide_eq_true h)
  | reading got len => exact Nat.le_of_not_lt (of_decide_eq_false ((Bool.not_eq_true' _).mp h))
  | writing w => exact Nat.le_of_not_lt (of_decide_eq_false ((Bool.not_eq_true' _).mp h))

/-- What the clock says has passed has passed. -/
theorem Dated.passed (h : T.Dated) {t limit : Nat} (ht : T.now ≤ t)
    (hlook : limit ≤ (millis t - millis T.since).toNat) : T.since + limit ≤ t := by
  have hst : T.since ≤ t := h.ordered.trans ht
  rw [millis_sub] at hlook
  have hle := Timer.passed_le (n := 2 ^ 32) (by decide) hst
  omega

theorem Patient.step (h : T.Patient) (hdated : T.Dated) (hd : T.host.Distinct) (hin : T.host.InPasses)
    (hstep : T.step F a = some (T', out)) : T'.Patient := by
  cases a with
  | setTimeout l timeout =>
    obtain ⟨⟨-, hrun⟩, hstep⟩ := Option.ite_none_right_eq_some.mp hstep
    cases hstep
    refine ⟨h.begun, fun l w hrun' => ?_⟩
    cases hrun.symm.trans hrun'
  | call c t =>
    obtain ⟨⟨ht, hreads⟩, hstep⟩ := Option.ite_none_right_eq_some.mp hstep
    obtain ⟨⟨H, out'⟩, hhost, hr⟩ := Option.map_eq_some_iff.mp hstep
    cases hr
    have hbegun : (if T.host.running = none then t else T.begun) ≤ t := by
      split
      · exact Nat.le_refl t
      · next hrun => exact (h.begun hrun).trans ht
    refine ⟨fun _ => hbegun, fun l w' hrun' => ?_⟩
    have hnow : (if (Call.writing w').waits then t else t) = t := ite_self t
    show (if T.host.running = none then t else T.begun) + w'.noAckCount * (T.timeout l).toNat ≤
      if (Call.writing w').waits then t else t
    rw [hnow]
    obtain hzero | ⟨w, hrun, hwaits, hcount⟩ := Host.call_count hhost (fun bytes late hc => by
      rw [hc] at hreads
      exact hreads) hrun'
    · rw [hzero]
      omega
    · have htries := h.tries l w hrun
      rw [hwaits, if_neg Bool.false_ne_true] at htries
      rw [hrun, if_neg (by simp), hcount]
      exact htries.trans ht
  | poll bytes t t' =>
    obtain ⟨⟨ht, ht'⟩, hstep⟩ := Option.ite_none_right_eq_some.mp hstep
    cases hrun : T.host.running with
    | none =>
      rw [hrun] at hstep
      cases hstep
    | some r =>
      obtain ⟨l, c⟩ := r
      rw [hrun] at hstep
      obtain ⟨⟨H, out'⟩, hhost, hr⟩ := Option.map_eq_some_iff.mp hstep
      dsimp only at hr
      have hbegun : T.begun ≤ T.now := h.begun (by rw [hrun]; exact Option.some_ne_none _)
      -- what the tries have taken, by the time of this look
      have hcount : ∀ m w', H.running = some (m, .writing w') → m = l ∧ ∃ w, c = .writing w ∧
          T.begun + w'.noAckCount * (T.timeout l).toNat ≤ t ∧
          ((Call.writing w').waits = true → w' = w ∨ c.restarts (.writing w') = true) := by
        intro m w' hrun'
        obtain ⟨rfl, w, rfl, hcases⟩ := Host.poll_count hd hin hrun hhost hrun'
        refine ⟨rfl, w, rfl, ?_⟩
        have htries := h.tries m w hrun
        have hbefore : T.begun + w.noAckCount * (T.timeout m).toNat ≤ T.now := by
          split at htries
          · exact htries.trans hdated.ordered
          · exact htries
        obtain ⟨hsame, hwaits⟩ | ⟨hlate, hwaits, hover, hmore⟩ := hcases
        · rw [hsame]
          exact ⟨hbefore.trans ht, hwaits⟩
        · rw [hwaits, if_pos rfl] at htries
          have hpassed := hdated.passed ht (late_true hlate)
          refine ⟨?_, fun hw' => ?_⟩
          · rw [hmore, Nat.add_mul, Nat.one_mul]
            omega
          · rw [hover] at hw'
            cases hw'
      split at hr
      · cases hr
        refine ⟨fun _ => (hbegun.trans ht).trans ht', fun m w' hrun' => ?_⟩
        obtain ⟨rfl, w, -, htaken, -⟩ := hcount m w' hrun'
        show _ ≤ if (Call.writing w').waits then t' else t'
        rw [ite_self]
        exact htaken.trans ht'
      · next hsame =>
        cases hr
        refine ⟨fun _ => hbegun.trans ht, fun m w' hrun' => ?_⟩
        obtain ⟨rfl, w, rfl, htaken, hwaits⟩ := hcount m w' hrun'
        show _ ≤ if (Call.writing w').waits then T.since else t
        split
        · next hw' =>
          obtain rfl | hrestarts := hwaits hw'
          · have htries := h.tries m w' hrun
            rw [hw', if_pos rfl] at htries
            exact htries
          · refine absurd ?_ hsame
            rw [Host.callOf_of_some hrun']
            exact hrestarts
        · exact htaken
  | pass t bytes t' =>
    obtain ⟨⟨ht, -⟩, hstep⟩ := Option.ite_none_right_eq_some.mp hstep
    obtain ⟨⟨H, out'⟩, hhost, hr⟩ := Option.map_eq_some_iff.mp hstep
    cases hr
    obtain ⟨hrun, o, -, rfl, -⟩ := Host.step_pass_device hhost
    refine ⟨fun hne => absurd hrun hne, fun l w hrun' => ?_⟩
    cases hrun.symm.trans hrun'

/-- What is kept without any condition on the clock. -/
structure Waiting (T : Timed) : Prop where
  dated : T.Dated
  distinct : T.host.Distinct
  inPasses : T.host.InPasses
  patient : T.Patient

theorem Waiting.step (h : T.Waiting) (hstep : T.step F a = some (T', out)) : T'.Waiting where
  dated := h.dated.step hstep
  distinct := by
    obtain ⟨hhost, -⟩ | ⟨c, hhost⟩ := step_host hstep
    · rw [hhost]
      exact h.distinct
    · exact Host.step_distinct h.distinct hhost
  inPasses := by
    obtain ⟨hhost, -⟩ | ⟨c, hhost⟩ := step_host hstep
    · rw [hhost]
      exact h.inPasses
    · exact Host.step_inPasses h.distinct hhost h.inPasses
  patient := h.patient.step h.dated h.distinct h.inPasses hstep

theorem Waiting.of_rest (hrest : T.host.call = .idle) (hidle : T.host.running = none)
    (hd : T.host.Distinct) (hclock : T.since ≤ T.now) : T.Waiting where
  dated := .of_rest hrest hclock
  distinct := hd
  inPasses l e he := by
    obtain ⟨-, -, hcall⟩ := Host.endpoint_some.mp he
    exact Endpoint.inPass_of_idle (hcall.trans (Host.callOf_of_none hidle l))
  patient := by
    refine ⟨fun hne => absurd hidle hne, fun l w hrun => ?_⟩
    cases hidle.symm.trans hrun

theorem Waiting.over (h : T.Waiting) (hstep : T.step F a = some (T', out)) (hgave : T.GaveUp out) :
    ∃ t, lastLook a = some t ∧ T.Over t := by
  unfold GaveUp at hgave
  cases a with
  | setTimeout l timeout =>
    obtain ⟨⟨-, hrun⟩, hstep⟩ := Option.ite_none_right_eq_some.mp hstep
    cases hstep
    rw [hrun] at hgave
    cases hgave
  | call c t =>
    obtain ⟨⟨-, hreads⟩, hstep⟩ := Option.ite_none_right_eq_some.mp hstep
    obtain ⟨⟨H, out'⟩, hhost, hr⟩ := Option.map_eq_some_iff.mp hstep
    cases hr
    have hc : ∀ bytes late, c ≠ .poll bytes late := fun bytes late hc => by
      rw [hc] at hreads
      exact hreads
    cases hrun : T.host.running with
    | none =>
      rw [hrun] at hgave
      dsimp only at hgave
      rw [Host.call_results hhost hc fun now bytes after hc => by
        rw [hc] at hreads
        exact hreads] at hgave
      cases hgave
    | some r =>
      obtain ⟨l, call⟩ := r
      rw [hrun] at hgave
      exact absurd hgave (Host.call_silent hhost hc hrun)
  | poll bytes t t' =>
    obtain ⟨⟨ht, -⟩, hstep⟩ := Option.ite_none_right_eq_some.mp hstep
    cases hrun : T.host.running with
    | none =>
      rw [hrun] at hstep
      cases hstep
    | some r =>
      obtain ⟨l, call⟩ := r
      rw [hrun] at hstep hgave
      obtain ⟨⟨H, out'⟩, hhost, hr⟩ := Option.map_eq_some_iff.mp hstep
      dsimp only at hr
      obtain rfl : out' = out := by
        split at hr
        · exact (Prod.ext_iff.mp (Option.some.inj (congrArg some hr))).2
        · exact (Prod.ext_iff.mp (Option.some.inj (congrArg some hr))).2
      obtain ⟨hlate, hwrite⟩ := Host.poll_gaveUp h.distinct h.inPasses hrun hhost hgave
      have hpassed := h.dated.passed ht (late_true hlate)
      refine ⟨t, rfl, ?_⟩
      unfold Over
      rw [hrun]
      cases call with
      | writing w =>
        -- two bursts have been given up before this one
        obtain ⟨hwaits, h3⟩ := hwrite w rfl
        have htries := h.patient.tries l w hrun
        rw [hwaits, if_pos rfl] at htries
        have h2 : w.noAckCount = 2 := by omega
        rw [h2] at htries
        show T.begun + 3 * (T.timeout l).toNat ≤ t
        omega
      | _ => exact hpassed
  | pass t bytes t' =>
    obtain ⟨⟨ht, ht'⟩, hstep⟩ := Option.ite_none_right_eq_some.mp hstep
    obtain ⟨⟨H, out'⟩, hhost, hr⟩ := Option.map_eq_some_iff.mp hstep
    cases hr
    obtain ⟨hrun, o, ho, rfl, rfl⟩ := Host.step_pass_device hhost
    rw [hrun] at hgave
    dsimp only at hgave
    rw [Device.resultsOf_log, Option.mem_toList] at hgave
    obtain ⟨start, limit, hnoted, hallowed, hlook⟩ := Device.pass_timeout ho hgave
    rw [h.dated.started start hnoted] at hlook
    refine ⟨t', rfl, ?_⟩
    unfold Over
    rw [hrun]
    refine ⟨limit, hallowed, ?_⟩
    obtain hlook | hlook := hlook
    · exact (h.dated.passed ht hlook).trans ht'
    · exact h.dated.passed (ht.trans ht') hlook

/-- **A reported timeout is true.**  In every run of a device with its clock, whatever packets have
come and however long each `iface->read()` takes: the call that gives up has waited for its timeout,
and a `write` for three of them. -/
theorem timeouts_true (F : OnFull UInt8) (T : Timed) (hrest : T.host.call = .idle)
    (hidle : T.host.running = none) (hd : T.host.Distinct) (hclock : T.since ≤ T.now)
    (as : List TimedAction) (x : Timed × List HostOutput)
    (hrun : run (logged (Timed.step F)) (T, []) as = some x) (a : TimedAction) (T' : Timed)
    (out : List HostOutput) (hstep : x.1.step F a = some (T', out)) (hgave : x.1.GaveUp out) :
    ∃ t, lastLook a = some t ∧ x.1.Over t := by
  have hwaiting : x.1.Waiting := run_always (I := fun x => x.1.Waiting) (fun x a y hx hstep => by
    obtain ⟨out, hstep, -⟩ := logged_some.mp hstep
    exact hx.step hstep) (.of_rest hrest hidle hd hclock) hrun
  exact hwaiting.over hstep hgave

/-- The peer of an open stream has gone away. -/
def left : Timed where
  host := { deviceWith .client 1 30 with
    object := fun _ => .stream .client
      { port := 30, ringbuf := .empty 64, state := .opened, remote := 9, remoteSequence := 0,
        remotePort := 80, lastRecvedAck := 1 } }

/-- Two bursts, and the third up to its last look. -/
def shouting : List TimedAction :=
  [.call (.socket 0 (.write [7])) 0, .call (.socket 0 .burst) 0, .poll [] 0 0, .poll [] 1000 1000,
    .call (.socket 0 .burst) 1000, .poll [] 1000 1000, .poll [] 2000 2000,
    .call (.socket 0 .burst) 2000, .poll [] 2000 2000]

theorem shouting_true : ∃ x T' out, run (logged (Timed.step (OnFull.refuse UInt8))) (left, []) shouting =
      some x ∧ x.1.step (OnFull.refuse UInt8) (.poll [] 3000 3000) = some (T', out) ∧
    x.1.GaveUp out ∧ ∃ t, lastLook (.poll [] 3000 3000) = some t ∧ x.1.Over t := by
  have hends : ((run (logged (Timed.step (OnFull.refuse UInt8))) (left, []) shouting).bind fun x =>
      (x.1.step (OnFull.refuse UInt8) (.poll [] 3000 3000)).map fun r => decide (x.1.GaveUp r.2)) =
      some true := by
    decide +kernel
  obtain ⟨x, hrun, hx⟩ := Option.bind_eq_some_iff.mp hends
  obtain ⟨⟨T', out⟩, hstep, hgave⟩ := Option.map_eq_some_iff.mp hx
  exact ⟨x, T', out, hrun, hstep, of_decide_eq_true hgave, timeouts_true (OnFull.refuse UInt8) left rfl rfl
    (List.nodup_singleton _) (Nat.le_refl 0) shouting x hrun _ T' out hstep (of_decide_eq_true hgave)⟩

end Timed

end PicoLan
