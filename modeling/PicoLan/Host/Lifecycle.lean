import PicoLan.Host.Projection
import PicoLan.Stream.LateClose

/-!
# The life of a stream

Which states a stream can be in, by the call that is running on it (`Allowed`): between two
steps a client is closed or open, `connect` waits in `CONNECTION_SYN_SENT` and nowhere else,
`accept` in `CONNECTION_PENDING`.  This holds of every stream of every device
(`Host.lifecycle`), and with it the result of `connect` and `accept` tells the state they
leave behind (`Endpoint.result_tells`).
-/

namespace PicoLan

open Runs

/-- The states in which a stream is found while `c` is running. -/
def Allowed (k : Kind) (c : Call) (state : ConnectionState) : Prop :=
  match c with
  | .idle => state = .closed ∨ state = .opened ∨ k = .server ∧ (state = .listening ∨ state = .synRecved)
  | .connecting => k = .client ∧ state = .synSent
  | .accepting => k = .server ∧ state = .pending
  | .writing _ => state = .closed ∨ state = .opened
  | .reading _ _ => state = .closed ∨ state = .opened

/-- The same while datagrams are being handled. -/
def Hearing (k : Kind) (c : Call) (state : ConnectionState) : Prop :=
  match c with
  | .connecting => k = .client ∧ (state = .synSent ∨ state = .synRecved ∨ state = .closed)
  | .accepting => k = .server ∧ (state = .pending ∨ state = .opened ∨ state = .closed)
  | c => Allowed k c state

theorem Allowed.hearing {k : Kind} {c : Call} {state : ConnectionState} (h : Allowed k c state) :
    Hearing k c state := by
  cases c with
  | connecting => exact ⟨h.1, .inl h.2⟩
  | accepting => exact ⟨h.1, .inl h.2⟩
  | _ => exact h

/-- Where a datagram can lead. -/
inductive Turns : Kind → ConnectionState → ConnectionState → Prop where
  | stays {k : Kind} {state : ConnectionState} : Turns k state state
  | answered : Turns .client .synSent .synRecved
  | called : Turns .server .listening .synRecved
  | confirmed : Turns .server .pending .opened
  | hungUp {k : Kind} {state : ConnectionState} : Turns k state .closed

theorem SocketStream.handle_turns (F : OnFull UInt8) (k : Kind) (s : SocketStream) (address : UInt8)
    (a : Arrival) : Turns k s.state (s.handle F k address a).1.state := by
  unfold handle
  split
  · have hr := receive_reaction F k s address a
    generalize s.receive F k address a = io at hr ⊢
    cases hr with
    | ignored => exact .stays
    | answered hs =>
      rw [show s.state = .synSent from hs]
      exact .answered
    | called hs =>
      rw [show s.state = .listening from hs]
      exact .called
    | confirmed hs =>
      rw [show s.state = .pending from hs]
      exact .confirmed
    | hungUp => exact .hungUp
    | acked => exact .stays
    | accepted => exact .stays
    | refused => exact .stays
  · exact .stays

theorem Hearing.turns {k : Kind} {c : Call} {state state' : ConnectionState} (h : Hearing k c state)
    (ht : Turns k state state') : Hearing k c state' := by
  cases ht with
  | stays => exact h
  | answered => cases c <;> simp_all [Hearing, Allowed]
  | called => cases c <;> simp_all [Hearing, Allowed]
  | confirmed => cases c <;> simp_all [Hearing, Allowed]
  | hungUp => cases c <;> simp_all [Hearing, Allowed]

namespace Endpoint

variable {F : OnFull UInt8} {e e' : Endpoint} {out : List Output}

/-- The stream is where it may be. -/
def Lives (e : Endpoint) : Prop := Allowed e.kind e.call e.socket.state

theorem takeAll_hearing (F : OnFull UInt8) (h : Hearing e.kind e.call e.socket.state)
    (as : List Arrival) : Hearing e.kind e.call (e.takeAll F as).1.socket.state := by
  show Hearing e.kind e.call (e.socket.handleAll F e.kind e.address as).1.state
  generalize e.socket = s at h ⊢
  induction as generalizing s with
  | nil => exact h
  | cons a as ih => exact ih _ (h.turns (SocketStream.handle_turns F e.kind s e.address a))

/-- A closed or open stream with no call. -/
theorem lives_of_idle (hc : e.call = .idle) (hs : e.socket.state = .closed ∨ e.socket.state = .opened) :
    e.Lives := by
  unfold Lives
  rw [hc]
  exact hs.imp_right .inl

theorem hangUp_lives (e : Endpoint) (r : Int) : (e.hangUp r).1.Lives := by
  refine lives_of_idle rfl (.inl ?_)
  show (e.socket.disconnect e.address).1.state = _
  rw [disconnect_socket]

theorem endRead_lives (hs : e.socket.state = .closed ∨ e.socket.state = .opened) (got : List UInt8) :
    (e.endRead got).1.Lives := by
  unfold endRead
  dsimp only
  split
  · split
    · refine lives_of_idle rfl (.inl ?_)
      show (e.socket.disconnect e.address).1.state = _
      rw [disconnect_socket]
    · exact lives_of_idle rfl hs
  · exact lives_of_idle rfl hs

theorem goOnReading_lives (hs : e.socket.state = .closed ∨ e.socket.state = .opened)
    (got : List UInt8) (len : Nat) : (e.goOnReading got len).1.Lives := by
  unfold goOnReading
  dsimp only
  split
  · exact hs
  · refine endRead_lives ?_ _
    exact hs

theorem afterPass_lives (hs : e.socket.state = .closed ∨ e.socket.state = .opened) (w : WriteCall) :
    (e.afterPass (w.evaluate e.socket)).1.Lives := by
  have hstate : (w.evaluate e.socket).1.state = e.socket.state := by
    rw [w.evaluate_socket]
  rw [← hstate] at hs
  generalize w.evaluate e.socket = r at hs ⊢
  obtain ⟨s, w | r⟩ := r
  · exact hs
  · exact lives_of_idle rfl hs

/-- The call goes on, or is over. -/
theorem resume_lives (h : Hearing e.kind e.call e.socket.state) (late : Bool) :
    (e.resume late).1.Lives := by
  unfold resume
  split
  · next hc =>
    rw [hc] at h
    show Allowed e.kind e.call _
    rw [hc]
    exact h
  · next hc =>
    rw [hc] at h
    split
    · exact lives_of_idle rfl (.inl rfl)
    split
    · next hs =>
      show Allowed e.kind e.call _
      rw [hc]
      exact ⟨h.1, hs⟩
    split
    · exact hangUp_lives e _
    · exact lives_of_idle rfl (.inr rfl)
  · next hc =>
    rw [hc] at h
    split
    · exact hangUp_lives e _
    split
    · next hs =>
      show Allowed e.kind e.call _
      rw [hc]
      exact ⟨h.1, hs⟩
    split
    · exact hangUp_lives e _
    · next hs => exact lives_of_idle rfl (.inr (not_not.mp hs))
  · next hc =>
    rw [hc] at h
    split
    · exact endRead_lives h _
    · exact goOnReading_lives h _ _
  · next w hc =>
    rw [hc] at h
    split
    · show Allowed e.kind e.call _
      rw [hc]
      exact h
    · exact h
    · split
      · exact afterPass_lives h w
      · show Allowed e.kind e.call _
        rw [hc]
        exact h

/-- **One step.** -/
theorem Lives.step {a : Action} (h : e.Lives) (hstep : e.step F a = some (e', out)) : e'.Lives := by
  cases a with
  | poll as late =>
    obtain ⟨-, rfl, -⟩ := step_poll.mp hstep
    exact resume_lives (e := (e.takeAll F as).1) (takeAll_hearing F h.hearing as) late
  | burst =>
    obtain ⟨w, hc, -, rfl, -⟩ := step_burst.mp hstep
    unfold Lives at h
    rw [hc] at h
    exact h
  | connect r port =>
    obtain ⟨hk, hc, rfl, -⟩ := step_connect.mp hstep
    unfold connect
    split
    · unfold Lives at h
      rw [hc] at h
      exact h
    · exact ⟨hk, rfl⟩
  | listen =>
    obtain ⟨hk, hc, rfl, -⟩ := step_listen.mp hstep
    unfold listen
    split
    · show Allowed e.kind e.call _
      rw [hc]
      exact .inr (.inr ⟨hk, .inl rfl⟩)
    · exact h
  | accept =>
    obtain ⟨hk, hc, rfl, -⟩ := step_accept.mp hstep
    unfold accept
    split
    · exact ⟨hk, rfl⟩
    · exact h
  | disconnect =>
    obtain ⟨hc, rfl, -⟩ := step_disconnect.mp hstep
    refine lives_of_idle hc (.inl ?_)
    show (e.socket.disconnect e.address).1.state = _
    rw [disconnect_socket]
  | write bytes =>
    obtain ⟨hc, rfl, -⟩ := step_write.mp hstep
    unfold write
    split
    · exact h
    split
    · exact h
    · next hs _ => exact .inr (not_not.mp hs)
  | read len =>
    obtain ⟨hc, rfl, -⟩ := step_read.mp hstep
    unfold read
    split
    · exact h
    · next hs => exact goOnReading_lives (.inr (not_not.mp hs)) _ _

/-! ## Results -/

/-- What a step of `connect` or `accept` leaves behind: the call goes on, or it has returned
`NONE` and the stream is open, or an error and the stream is closed. -/
inductive Tells (e : Endpoint) : Endpoint × List Output → Prop where
  | goesOn {e' : Endpoint} {out : List Output} (hcall : e'.call = e.call) (hout : retsOf out = []) :
    Tells e (e', out)
  | opened {e' : Endpoint} {out : List Output} (hcall : e'.call = .idle)
      (hstate : e'.socket.state = .opened) (hout : retsOf out = [Error.none]) : Tells e (e', out)
  | failed {e' : Endpoint} {out : List Output} {r : Int} (hcall : e'.call = .idle)
      (hstate : e'.socket.state = .closed) (hr : r = Error.timeout ∨ r = Error.badState)
      (hout : retsOf out = [r]) : Tells e (e', out)

theorem hangUp_tells (e e₀ : Endpoint) {r : Int} (hr : r = Error.timeout ∨ r = Error.badState) :
    Tells e₀ (e.hangUp r) := by
  refine .failed rfl ?_ hr ?_
  · show (e.socket.disconnect e.address).1.state = _
    rw [disconnect_socket]
  · show retsOf (_ ++ [Output.ret r]) = _
    rw [retsOf_append, retsOf_sent]
    rfl

theorem resume_tells (hc : e.call = .connecting ∨ e.call = .accepting) (late : Bool) :
    Tells e (e.resume late) := by
  rcases hc with hc | hc
  · unfold resume
    rw [hc]
    dsimp only
    split
    · exact .failed rfl rfl (.inl rfl) rfl
    split
    · exact .goesOn rfl rfl
    split
    · exact hangUp_tells e e (.inr rfl)
    · exact .opened rfl rfl rfl
  · unfold resume
    rw [hc]
    dsimp only
    split
    · exact hangUp_tells e e (.inl rfl)
    split
    · exact .goesOn rfl rfl
    split
    · exact hangUp_tells e e (.inr rfl)
    · next hs => exact .opened rfl (not_not.mp hs) rfl

theorem step_tells {a : Action} (hc : e.call = .connecting ∨ e.call = .accepting)
    (hstep : e.step F a = some (e', out)) : Tells e (e', out) := by
  have hbusy : e.call ≠ .idle := by
    rcases hc with hc | hc <;> rw [hc] <;> simp
  cases a with
  | poll as late =>
    obtain ⟨-, rfl, rfl⟩ := step_poll.mp hstep
    have ht := resume_tells (e := (e.takeAll F as).1) hc late
    generalize (e.takeAll F as).1.resume late = r at ht ⊢
    have hsent : retsOf (e.takeAll F as).2 = [] := retsOf_sent _
    cases ht with
    | goesOn hcall hout => exact .goesOn hcall (by rw [retsOf_append, hsent, hout]; rfl)
    | opened hcall hstate hout => exact .opened hcall hstate (by rw [retsOf_append, hsent, hout]; rfl)
    | failed hcall hstate hr hout =>
      exact .failed hcall hstate hr (by rw [retsOf_append, hsent, hout]; rfl)
  | burst =>
    obtain ⟨w, hw, -⟩ := step_burst.mp hstep
    rcases hc with hc | hc <;> cases hc.symm.trans hw
  | connect r port => exact absurd (step_connect.mp hstep).2.1 hbusy
  | listen => exact absurd (step_listen.mp hstep).2.1 hbusy
  | accept => exact absurd (step_accept.mp hstep).2.1 hbusy
  | disconnect => exact absurd (step_disconnect.mp hstep).1 hbusy
  | write bytes => exact absurd (step_write.mp hstep).1 hbusy
  | read len => exact absurd (step_read.mp hstep).1 hbusy

end Endpoint

namespace Host

variable {F : OnFull UInt8} {H H' : Host} {l : Nat} {e : Endpoint}

theorem lives_run (hd : H.Distinct) (he : H.endpoint l = some e) (hidle : e.call = .idle)
    (hclosed : e.socket.state = .closed) {cs : List HostAction} {log : List HostOutput}
    (hrun : run (logged (Host.step F)) (H, []) cs = some (H', log)) :
    ∃ e', H'.endpoint l = some e' ∧ e'.Lives :=
  stream_invariant F (I := Endpoint.Lives) (fun _ _ _ _ h hstep => h.step hstep)
    (fun _ _ hlives => hlives) hd he
    (Endpoint.lives_of_idle hidle (.inl hclosed)) hrun

/-- **The life of a stream.**  A stream that is new goes through no other states, whatever its
device and the sockets beside it do. -/
theorem lifecycle (F : OnFull UInt8) (H : Host) (hd : H.Distinct) (l : Nat) (e : Endpoint)
    (he : H.endpoint l = some e) (hidle : e.call = .idle) (hclosed : e.socket.state = .closed)
    (cs : List HostAction) (H' : Host) (log : List HostOutput)
    (hrun : run (logged (Host.step F)) (H, []) cs = some (H', log)) :
    ∃ e', H'.endpoint l = some e' ∧ Allowed e'.kind e'.call e'.socket.state :=
  lives_run hd he hidle hclosed hrun

theorem called_lives : ∃ H log, run (logged (Host.step (OnFull.refuse UInt8)))
      (deviceWith .server 1 80, []) calledWhileListing = some (H, log) ∧
    ∃ e, H.endpoint 0 = some e ∧ Allowed e.kind e.call e.socket.state := by
  obtain ⟨⟨H, log⟩, hrun⟩ : ∃ x, run (logged (Host.step (OnFull.refuse UInt8)))
      (deviceWith .server 1 80, []) calledWhileListing = some x :=
    Option.isSome_iff_exists.mp (by decide +kernel)
  exact ⟨H, log, hrun, lifecycle (OnFull.refuse UInt8) (deviceWith .server 1 80)
    (List.nodup_singleton _) 0 _ rfl rfl rfl calledWhileListing H log hrun⟩

/-- A stream does at most one thing in a step. -/
theorem actions_cases (H : Host) (l : Nat) (c : HostAction) :
    H.actions l c = [] ∨ ∃ a, H.actions l c = [a] := by
  cases c with
  | device a => exact .inr ⟨_, rfl⟩
  | socket m a =>
    unfold actions
    dsimp only
    split
    · exact .inr ⟨a, rfl⟩
    · exact .inl rfl
  | poll bytes late => exact .inr ⟨_, rfl⟩
  | _ => exact .inl rfl

/-- A call of a stream is running, so the interface is not called. -/
theorem not_device {c : HostAction} {r : Host × List HostOutput} (he : H.endpoint l = some e)
    (hbusy : e.call ≠ .idle) (h : H.step F c = some r) (a : DeviceAction) : c ≠ .device a := by
  rintro rfl
  cases step_did F h with
  | device hrun _ _ =>
    obtain ⟨-, -, hcall⟩ := endpoint_some.mp he
    exact hbusy (hcall.trans (callOf_of_none hrun l))

/-- **The result tells the state.**  After each step of a device in a call of `connect` or
`accept`, either the call goes on and has no result, or it has returned `NONE` and the stream is
open, or `TIMEOUT` or `BAD_STATE` and it is closed. -/
theorem result_tells (F : OnFull UInt8) (H : Host) (hd : H.Distinct) (l : Nat) (e : Endpoint)
    (he : H.endpoint l = some e) (hcall : e.call = .connecting ∨ e.call = .accepting)
    (c : HostAction) (H' : Host) (out : List HostOutput) (hstep : H.step F c = some (H', out)) :
    ∃ e', H'.endpoint l = some e' ∧ Endpoint.Tells e (e', outputsOf l out) := by
  have hbusy : e.call ≠ .idle := by
    rcases hcall with hc | hc <;> rw [hc] <;> simp
  obtain ⟨e', he', hrun⟩ := step_endpoint (nodup_of_distinct hd) hstep
    (fun addr => not_device he hbusy hstep _) he
  refine ⟨e', he', ?_⟩
  rcases actions_cases H l c with hnil | ⟨a, ha⟩
  · rw [hnil] at hrun
    obtain ⟨rfl, hout⟩ := Prod.ext_iff.mp (Option.some.inj hrun)
    exact .goesOn rfl (congrArg retsOf hout.symm)
  · rw [ha] at hrun
    exact Endpoint.step_tells hcall (run_logged_one.mp hrun)

/-- Nobody answers. -/
theorem unanswered_tells : ∃ H₁ log, run (logged (Host.step (OnFull.refuse UInt8)))
      (deviceWith .client 2 40, []) [.socket 0 (.connect 1 80)] = some (H₁, log) ∧
    ∃ H₂ out, H₁.step (OnFull.refuse UInt8) (.poll [] true) = some (H₂, out) ∧
    ∃ e e', H₁.endpoint 0 = some e ∧ H₂.endpoint 0 = some e' ∧
      Endpoint.Tells e (e', outputsOf 0 out) := by
  refine ⟨_, _, rfl, _, _, rfl, ?_⟩
  have hd : (deviceWith .client 2 40).Distinct := List.nodup_singleton _
  have hd' := step_distinct (F := OnFull.refuse UInt8) (c := .socket 0 (.connect 1 80)) hd rfl
  obtain ⟨e', he', htells⟩ := result_tells (OnFull.refuse UInt8) _ hd' 0 _ rfl (.inl rfl)
    (.poll [] true) _ _ rfl
  exact ⟨_, e', rfl, he', htells⟩

end Host

end PicoLan
