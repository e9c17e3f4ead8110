import PicoLan.Host.Bytes
import PicoLan.Host.Clock
import PicoLan.Stream.DeadLink
import PicoLan.Stream.Passes

/-!
# Giving up

What a call of a socket returns when its time is over (`Call.GaveUp`), and when it does: no
sooner than the clock says so, and a `write` at the third burst that nobody has acknowledged
(`Host.poll_gaveUp`).  Only a look at the clock ends a call like this (`Host.call_silent`).
-/

namespace PicoLan

open Runs

/-! ## One stream -/

/-- A `read` of `len` bytes has read fewer. -/
def Output.Short (len : Nat) : Output → Prop
  | .got bytes => bytes.length < len
  | _ => False

instance (len : Nat) : ∀ o : Output, Decidable (o.Short len)
  | .got bytes => inferInstanceAs (Decidable (bytes.length < len))
  | .sent _ => inferInstanceAs (Decidable False)
  | .ret _ => inferInstanceAs (Decidable False)

/-- What a call of a socket returns when its time is over.  The greatest length is left out, as
`bytes_pos` is then returned as `Error::TIMEOUT`. -/
def Call.GaveUp (c : Call) (out : List Output) : Prop :=
  match c with
  | .idle => False
  | .connecting => Error.timeout ∈ retsOf out
  | .accepting => Error.timeout ∈ retsOf out
  | .reading _ len => ∃ o ∈ out, o.Short len
  | .writing w => Error.timeout ∈ retsOf out ∧ w.len + 1 < 2 ^ 32

instance (out : List Output) : ∀ c : Call, Decidable (c.GaveUp out)
  | .idle => inferInstanceAs (Decidable False)
  | .connecting => inferInstanceAs (Decidable (_ ∈ _))
  | .accepting => inferInstanceAs (Decidable (_ ∈ _))
  | .reading _ len => inferInstanceAs (Decidable (∃ o ∈ out, o.Short len))
  | .writing _ => inferInstanceAs (Decidable (_ ∧ _))

theorem Call.not_gaveUp (c : Call) : ¬ c.GaveUp [] := by
  cases c with
  | reading got len =>
    rintro ⟨o, ho, -⟩
    cases ho
  | writing w =>
    rintro ⟨hret, -⟩
    cases hret
  | _ => exact fun h => by cases h

/-- What is sent on the way is no result. -/
theorem Call.gaveUp_sent (c : Call) (ps : List DatagramPack) (out : List Output) :
    c.GaveUp (ps.map .sent ++ out) ↔ c.GaveUp out := by
  have hrets : retsOf (ps.map .sent ++ out) = retsOf out := by
    rw [retsOf_append, retsOf_sent, List.nil_append]
  cases c with
  | reading got len => simp [GaveUp, Output.Short, or_and_right, exists_or]
  | _ => simp only [GaveUp, hrets]

theorem asInt_ne_timeout {n : Nat} (h : n + 1 < 2 ^ 32) : asInt n ≠ Error.timeout := by
  unfold asInt Error.timeout
  rw [Int.bmod_def]
  split <;> omega

namespace Verdict

variable {q : UInt8} {p : Nat} {w w' : WriteCall} {s : SocketStream} {r : SocketStream × WriteResult}

theorem count (h : Verdict q p w s r) (hr : r.2 = .goesOn w') :
    w'.noAckCount = w.noAckCount ∨ s.lastRecvedAck = q ∧ w'.noAckCount = w.noAckCount + 1 := by
  cases h with
  | timedOut => cases hr
  | retry hack =>
    cases hr
    exact .inr ⟨hack, rfl⟩
  | cleared =>
    cases hr
    exact .inl rfl
  | acked j =>
    dsimp only at hr
    unfold WriteCall.again at hr
    split at hr
    · cases hr
      exact .inl rfl
    · cases hr
  | strange => cases hr

theorem timeout (h : Verdict q p w s r) (hr : r.2 = .returns Error.timeout) (hlen : w.len + 1 < 2 ^ 32) :
    s.lastRecvedAck = q ∧ w.noAckCount + 1 = 3 := by
  cases h with
  | timedOut hack h3 => exact ⟨hack, h3⟩
  | retry => cases hr
  | cleared => cases hr
  | acked j =>
    dsimp only at hr
    by_cases hend : frameEnd w.len p j = w.len
    · -- all the bytes are acknowledged, and their number is returned
      rw [WriteCall.again_returns _ hend] at hr
      exact absurd (WriteResult.returns.inj hr) (asInt_ne_timeout hlen)
    · rw [WriteCall.again_goesOn _ hend] at hr
      cases hr
  | strange => cases hr

end Verdict

/-- A burst has a number of its own. -/
theorem AllSent.finalSeq_ne {q : UInt8} {p : Nat} {w : WriteCall} (h : AllSent q p w) : w.finalSeq ≠ q := by
  intro heq
  have hle := h.packets_le
  have hpos := h.pos
  rw [h.finalSeq] at heq
  have hzero := (add_ofNat_inj q (b := 0) (by omega) (by omega)).mp (heq.trans (UInt8.add_zero q).symm)
  omega

namespace Endpoint

variable {F : OnFull UInt8} {e e' : Endpoint} {a : Action} {out : List Output} {as : List Arrival}
  {late : Bool}

theorem retsOf_hangUp (r : Int) : retsOf (e.hangUp r).2 = [r] := by
  show retsOf (_ ++ [Output.ret r]) = _
  rw [retsOf_append, retsOf_sent]
  rfl

theorem endRead_short {got : List UInt8} {len : Nat} {o : Output} (ho : o ∈ (e.endRead got).2)
    (hshort : o.Short len) : got.length < len := by
  have hlast : o = .got got → got.length < len := by
    rintro rfl
    exact hshort
  unfold endRead at ho
  dsimp only at ho
  split at ho
  · split at ho
    · rcases List.mem_append.mp ho with ho | ho
      · obtain ⟨p, -, rfl⟩ := List.mem_map.mp ho
        cases hshort
      · exact hlast (List.mem_singleton.mp ho)
    · exact hlast (List.mem_singleton.mp ho)
  · exact hlast (List.mem_singleton.mp ho)

/-- **A call gives up late.** -/
theorem resume_gaveUp (hbusy : ∀ w, e.call ≠ .writing w) (h : e.call.GaveUp (e.resume late).2) :
    late = true := by
  cases late with
  | true => rfl
  | false =>
    unfold resume at h
    cases hc : e.call with
    | idle =>
      rw [hc] at h
      cases h
    | connecting =>
      rw [hc] at h
      dsimp only [Call.GaveUp] at h
      rw [if_neg Bool.false_ne_true] at h
      split at h
      · cases h
      · split at h
        · rw [retsOf_hangUp, List.mem_singleton] at h
          exact absurd h (by decide)
        · exact absurd (List.mem_singleton.mp h) (by decide)
    | accepting =>
      rw [hc] at h
      dsimp only [Call.GaveUp] at h
      rw [if_neg Bool.false_ne_true] at h
      split at h
      · cases h
      · split at h
        · rw [retsOf_hangUp, List.mem_singleton] at h
          exact absurd h (by decide)
        · exact absurd (List.mem_singleton.mp h) (by decide)
    | reading got len =>
      rw [hc] at h
      obtain ⟨o, ho, hshort⟩ := h
      dsimp only at ho
      rw [if_neg Bool.false_ne_true] at ho
      unfold goOnReading at ho
      dsimp only at ho
      split at ho
      · cases ho
      · next hfull => exact absurd (endRead_short ho hshort) hfull
    | writing w => exact absurd hc (hbusy w)

/-- `write` gives up at the third burst, and late. -/
theorem poll_gaveUp (hstep : e.step F (.poll as late) = some (e', out)) (he : e.InPass)
    (h : e.call.GaveUp out) : late = true ∧
      ∀ w, e.call = .writing w → (Call.writing w).waits = true ∧ w.noAckCount + 1 = 3 := by
  by_cases hw : ∃ w, e.call = .writing w
  · obtain ⟨w, hw⟩ := hw
    have hwrite := writeStep F hw hstep
    rw [hw] at h
    cases hwrite with
    | frame => 
      obtain ⟨hret, -⟩ := (Call.gaveUp_sent ..).mp h
      cases hret
    | wait =>
      rw [← List.append_nil (e.takeAll F as).2] at h
      exact absurd ((Call.gaveUp_sent ..).mp h) (Call.not_gaveUp _)
    | ended hpc hend =>
      have hseq := e.takeAll_sequenceNumber F as
      obtain ⟨hsent, hpos⟩ := (he w hw).1.of_waiting hpc
      have hverdict := hsent.verdict hpos (e.takeAll F as).1.socket hseq
      obtain ⟨hret, hlen⟩ := (Call.gaveUp_sent ..).mp h
      generalize w.evaluate (e.takeAll F as).1.socket = r at hverdict hret
      obtain ⟨s, r⟩ := r
      cases r with
      | goesOn w' => cases hret
      | returns r =>
        obtain rfl : Error.timeout = r := List.mem_singleton.mp hret
        obtain ⟨hack, h3⟩ := hverdict.timeout rfl hlen
        refine ⟨hend.resolve_left fun hfinal => hsent.finalSeq_ne (hfinal.symm.trans hack), fun w' hw' => ?_⟩
        cases hw.symm.trans hw'
        refine ⟨?_, h3⟩
        unfold Call.waits
        dsimp only
        rw [hpc]
  · obtain ⟨-, -, rfl⟩ := step_poll.mp hstep
    exact ⟨resume_gaveUp (e := (e.takeAll F as).1) (fun w hw' => hw ⟨w, hw'⟩) ((Call.gaveUp_sent ..).mp h),
      fun w hw' => absurd ⟨w, hw'⟩ hw⟩

/-- Where a running `write` stands. -/
theorem poll_count (hstep : e.step F (.poll as late) = some (e', out)) (he : e.InPass) {w w' : WriteCall}
    (hw : e.call = .writing w) (hw' : e'.call = .writing w') :
    (w'.noAckCount = w.noAckCount ∧
        ((Call.writing w').waits = true → w' = w ∨ (Call.writing w).restarts (.writing w') = true)) ∨
      late = true ∧ (Call.writing w).waits = true ∧ (Call.writing w').waits = false ∧
        w'.noAckCount = w.noAckCount + 1 := by
  have hpast : ∀ (e : Endpoint) (r : SocketStream × WriteResult), (e.afterPass r).1.call = .writing w' →
      r.2 = .goesOn w' := by
    rintro e ⟨s, r⟩ h
    cases r with
    | goesOn w'' =>
      cases h
      rfl
    | returns r => cases h
  cases writeStep F hw hstep with
  | @frame _ _ i pack hpc =>
    cases hw'
    refine .inl ⟨(w.afterSend_same _ _ i).noAckCount, fun hwaits => .inr ?_⟩
    unfold Call.restarts
    dsimp only
    rw [hwaits]
    unfold Call.waits
    dsimp only
    rw [hpc]
    rfl
  | wait =>
    cases hw.symm.trans hw'
    exact .inl ⟨rfl, fun _ => .inl rfl⟩
  | ended hpc hend =>
    have hseq := e.takeAll_sequenceNumber F as
    obtain ⟨hsent, hpos⟩ := (he w hw).1.of_waiting hpc
    have hverdict := hsent.verdict hpos (e.takeAll F as).1.socket hseq
    have hgoes := hpast _ _ hw'
    have htop : w'.pc = .top := WriteCall.evaluate_top (Prod.ext rfl hgoes)
    have hnot : (Call.writing w').waits = false := by
      unfold Call.waits
      dsimp only
      rw [htop]
    obtain hsame | ⟨hack, hmore⟩ := hverdict.count hgoes
    · refine .inl ⟨hsame, fun hwaits => ?_⟩
      rw [hnot] at hwaits
      cases hwaits
    · refine .inr ⟨hend.resolve_left fun hfinal => hsent.finalSeq_ne (hfinal.symm.trans hack), ?_, hnot,
        hmore⟩
      unfold Call.waits
      dsimp only
      rw [hpc]

end Endpoint

namespace Host

variable {F : OnFull UInt8} {H H' : Host} {c : HostAction} {out : List HostOutput} {l : Nat}

/-- A stream was one before. -/
theorem endpoint_before (hd : H.Distinct) (h : H.step F c = some (H', out)) {e' : Endpoint}
    (he' : H'.endpoint l = some e') : ∃ e, H.endpoint l = some e := by
  obtain ⟨hobj', -, -⟩ := endpoint_some.mp he'
  have hkind := (step_alike (nodup_of_distinct hd) h l).kind
  rw [hobj'] at hkind
  unfold endpoint
  cases hobj : H.object l with
  | stream kind socket => exact ⟨_, rfl⟩
  | datagram s =>
    rw [hobj] at hkind
    cases hkind

/-- Each `write` that is running is at a stage of a pass. -/
def InPasses (H : Host) : Prop := ∀ l e, H.endpoint l = some e → e.InPass

theorem step_inPasses (hd : H.Distinct) (h : H.step F c = some (H', out)) (hin : H.InPasses) :
    H'.InPasses := by
  intro l e' he'
  obtain ⟨e, he⟩ := endpoint_before hd h he'
  obtain ⟨e'', he'', hkept⟩ := stream_invariant F (I := Endpoint.InPass) (fun _ _ _ _ hin hstep =>
    Endpoint.step_inPass hin hstep) (fun _ _ hin => hin) hd he (hin l e he)
    (run_logged_one.mpr h : run (logged (Host.step F)) (H, []) [c] = some (H', [] ++ out))
  cases he'.symm.trans he''
  exact hkept

/-- A `write` that is running is one of a stream. -/
theorem writing_endpoint (h : H.step F c = some (H', out)) {w : WriteCall}
    (hrun' : H'.running = some (l, .writing w)) : ∃ e', H'.endpoint l = some e' ∧ e'.call = .writing w := by
  have hnone : ∀ {H' : Host}, H.running = none → H'.running = H.running →
      H'.running ≠ some (l, .writing w) := fun hrun hsame hrun' => by
    rw [hsame, hrun] at hrun'
    cases hrun'
  generalize hr : (H', out) = r at h
  cases step_did F h with
  | device hrun =>
    cases hr
    exact absurd hrun' (hnone hrun rfl)
  | @destroy m hidle hrun =>
    cases hr
    exact absurd hrun' (hnone hrun rfl)
  | @socket m a e r' hfree ha he hr' =>
    obtain ⟨rfl, -⟩ := Prod.ext_iff.mp hr
    obtain ⟨rfl, hcall⟩ := store_running hrun'
    obtain ⟨-, haddr, -⟩ := endpoint_some.mp he
    exact ⟨r'.1, storeStream_endpoint H l ((Endpoint.step_fixed hr').2.trans haddr), hcall.symm⟩
  | write hobj hidle hrun =>
    cases hr
    exact absurd hrun' (hnone hrun rfl)
  | subscribe hobj hidle hrun =>
    cases hr
    exact absurd hrun' (hnone hrun rfl)
  | receive =>
    obtain ⟨rfl, -⟩ := Prod.ext_iff.mp hr
    cases (storeDatagram_running hrun').2.2
  | @pollStream m c bytes late kind socket hrun hobj htop =>
    obtain ⟨rfl, -⟩ := Prod.ext_iff.mp hr
    obtain ⟨rfl, hcall⟩ := store_running hrun'
    refine ⟨_, storeStream_endpoint _ l ?_, hcall.symm⟩
    exact (Endpoint.resume_fixed _ late).2.trans (received_address F H bytes).symm
  | pollDatagram =>
    obtain ⟨rfl, -⟩ := Prod.ext_iff.mp hr
    cases (storeDatagram_running hrun').2.2

variable {bytes : List Incoming} {late : Bool} {call : Call}

/-- A poll is one of the stream that is waiting. -/
theorem poll_endpoint (hd : H.Distinct) (hrun : H.running = some (l, call))
    (h : H.step F (.poll bytes late) = some (H', out)) {e : Endpoint} (he : H.endpoint l = some e) :
    e.call = call ∧ ∃ e', H'.endpoint l = some e' ∧
      e.step F (.poll (H.seen l bytes) late) = some (e', outputsOf l out) := by
  obtain ⟨-, -, hcall⟩ := endpoint_some.mp he
  obtain ⟨e', he', hstep⟩ := step_endpoint (nodup_of_distinct hd) h
    (fun addr hne => HostAction.noConfusion hne) he
  exact ⟨hcall.trans (callOf_of_some hrun), e', he', run_logged_one.mp hstep⟩

theorem storeDatagram_short {r : Socket × List UInt8} {len : Nat} {o : Output}
    (ho : o ∈ outputsOf l (H.storeDatagram l r len late).2) (hshort : o.Short len) : late = true := by
  unfold storeDatagram at ho
  split at ho
  · cases ho
  · next hover =>
    have hone : outputsOf l [.socket l (.got r.2)] = [.got r.2] :=
      (outputsOf_socket l l [.got r.2]).trans (if_pos rfl)
    rw [hone] at ho
    obtain rfl := List.mem_singleton.mp ho
    exact Bool.of_not_eq_false fun hlate => hover ⟨hshort, hlate⟩

theorem poll_gaveUp (hd : H.Distinct) (hin : H.InPasses) (hrun : H.running = some (l, call))
    (h : H.step F (.poll bytes late) = some (H', out)) (hgave : call.GaveUp (outputsOf l out)) :
    late = true ∧ ∀ w, call = .writing w → (Call.writing w).waits = true ∧ w.noAckCount + 1 = 3 := by
  cases he : H.endpoint l with
  | some e =>
    obtain ⟨rfl, e', -, hstep⟩ := poll_endpoint hd hrun h he
    exact Endpoint.poll_gaveUp hstep (hin l e he) hgave
  | none =>
    generalize hr : (H', out) = r at h
    cases step_did F h with
    | @pollStream m c _ _ kind socket hrun₁ hobj htop =>
      cases hrun.symm.trans hrun₁
      -- then it was a stream before
      have hkind := (H.toInterface.handleAll_alike F (nodup_of_distinct hd)
        (Device.arrivals H.parser bytes) l).kind
      rw [← received_object, hobj] at hkind
      unfold endpoint at he
      cases hobj' : H.object l with
      | stream kind socket =>
        rw [hobj'] at he
        cases he
      | datagram s =>
        rw [hobj'] at hkind
        cases hkind
    | @pollDatagram m len got _ _ s hrun₁ hobj =>
      cases hrun.symm.trans hrun₁
      obtain ⟨-, rfl⟩ := Prod.ext_iff.mp hr
      rw [outputsOf_append, Device.outputsOf_readLog] at hgave
      obtain ⟨o, ho, hshort⟩ := (Call.gaveUp_sent ..).mp hgave
      exact ⟨storeDatagram_short ho hshort, fun w hw => by cases hw⟩

theorem poll_count (hd : H.Distinct) (hin : H.InPasses) (hrun : H.running = some (l, call))
    (h : H.step F (.poll bytes late) = some (H', out)) {m : Nat} {w' : WriteCall}
    (hrun' : H'.running = some (m, .writing w')) : m = l ∧ ∃ w, call = .writing w ∧
      ((w'.noAckCount = w.noAckCount ∧
        ((Call.writing w').waits = true → w' = w ∨ (Call.writing w).restarts (.writing w') = true)) ∨
      late = true ∧ (Call.writing w).waits = true ∧ (Call.writing w').waits = false ∧
        w'.noAckCount = w.noAckCount + 1) := by
  obtain ⟨e', he', hcall'⟩ := writing_endpoint h hrun'
  obtain ⟨e, he⟩ := endpoint_before hd h he'
  have hm : m = l := by
    generalize hr : (H', out) = r at h
    cases step_did F h with
    | pollStream hrun₁ =>
      cases hrun.symm.trans hrun₁
      obtain ⟨rfl, -⟩ := Prod.ext_iff.mp hr
      exact (store_running hrun').1
    | pollDatagram hrun₁ =>
      cases hrun.symm.trans hrun₁
      obtain ⟨rfl, -⟩ := Prod.ext_iff.mp hr
      exact (storeDatagram_running hrun').1
  subst hm
  obtain ⟨rfl, e'', he'', hstep⟩ := poll_endpoint hd hrun h he
  cases he'.symm.trans he''
  refine ⟨rfl, ?_⟩
  by_cases hw : ∃ w, e.call = .writing w
  · obtain ⟨w, hw⟩ := hw
    exact ⟨w, hw, Endpoint.poll_count hstep (hin m e he) hw hcall'⟩
  · obtain ⟨bytes', hne, -⟩ := (Endpoint.step_other (fun w hw' => hw ⟨w, hw'⟩) hstep).2 w' hcall'
    cases hne

/-- A `write` that runs after a call has just begun, or is at its next burst. -/
theorem call_count (h : H.step F c = some (H', out)) (hc : ∀ bytes late, c ≠ .poll bytes late)
    {w' : WriteCall} (hrun' : H'.running = some (l, .writing w')) : w'.noAckCount = 0 ∨
      ∃ w, H.running = some (l, .writing w) ∧ (Call.writing w).waits = false ∧
        w'.noAckCount = w.noAckCount := by
  have hnone : ∀ {H' : Host}, H.running = none → H'.running = H.running →
      H'.running ≠ some (l, .writing w') := fun hrun hsame hrun' => by
    rw [hsame, hrun] at hrun'
    cases hrun'
  generalize hr : (H', out) = r at h
  cases step_did F h with
  | device hrun =>
    cases hr
    exact absurd hrun' (hnone hrun rfl)
  | destroy hidle hrun =>
    cases hr
    exact absurd hrun' (hnone hrun rfl)
  | @socket m a e r' hfree ha he hr' =>
    obtain ⟨rfl, -⟩ := Prod.ext_iff.mp hr
    obtain ⟨rfl, hcall'⟩ := store_running hrun'
    obtain ⟨-, -, hcall⟩ := endpoint_some.mp he
    obtain ⟨e₁, out₁⟩ := r'
    by_cases hw : ∃ w, e.call = .writing w
    · obtain ⟨w, hw⟩ := hw
      refine .inr ⟨w, ?_⟩
      have hrun : H.running = some (l, .writing w) := by
        rw [hcall] at hw
        unfold callOf at hw
        cases hrun : H.running with
        | none =>
          rw [hrun] at hw
          cases hw
        | some r =>
          rw [hrun] at hw
          dsimp only at hw
          split at hw
          · next hl => rw [← hl, ← hw]
          · cases hw
      cases Endpoint.writeStep F hw hr' with
      | burst hpc =>
        obtain rfl := Call.writing.inj hcall'
        refine ⟨hrun, ?_, (w.start_same e.socket e.address).2.1⟩
        unfold Call.waits
        dsimp only
        rw [hpc]
      | frame => exact absurd rfl (ha _ _)
      | wait => exact absurd rfl (ha _ _)
      | ended => exact absurd rfl (ha _ _)
    · obtain ⟨bytes', -, -, -, rfl⟩ := (Endpoint.step_other (fun w hw' => hw ⟨w, hw'⟩) hr').2 w' hcall'.symm
      exact .inl rfl
  | write hobj hidle hrun =>
    cases hr
    exact absurd hrun' (hnone hrun rfl)
  | subscribe hobj hidle hrun =>
    cases hr
    exact absurd hrun' (hnone hrun rfl)
  | receive =>
    obtain ⟨rfl, -⟩ := Prod.ext_iff.mp hr
    cases (storeDatagram_running hrun').2.2
  | pollStream => exact absurd rfl (hc _ _)
  | pollDatagram => exact absurd rfl (hc _ _)

/-- While a socket is waiting, no other call can be made, and at the head of `write` nothing is put
out. -/
theorem call_silent (h : H.step F c = some (H', out)) (hc : ∀ bytes late, c ≠ .poll bytes late)
    (hrun : H.running = some (l, call)) : ¬ call.GaveUp (outputsOf l out) := by
  generalize hr : (H', out) = r at h
  cases step_did F h with
  | device hnone => cases hrun.symm.trans hnone
  | destroy hidle hnone => cases hrun.symm.trans hnone
  | @socket m a e r' hfree ha he hr' =>
    obtain ⟨-, rfl⟩ := Prod.ext_iff.mp hr
    obtain rfl : l = m := hfree.2 (l, call) hrun
    obtain ⟨-, -, hcall⟩ := endpoint_some.mp he
    have hcall : e.call = call := hcall.trans (callOf_of_some hrun)
    obtain ⟨e₁, out₁⟩ := r'
    have hidle : e.call = .idle → ¬ call.GaveUp (outputsOf l (H.storeStream l (e₁, out₁)).2) := by
      intro hidle
      rw [← hcall, hidle]
      exact id
    cases a with
    | poll as late => exact absurd rfl (ha as late)
    | burst =>
      obtain ⟨w, -, -, -, rfl⟩ := Endpoint.step_burst.mp hr'
      exact call.not_gaveUp
    | connect r port => exact hidle (Endpoint.step_connect.mp hr').2.1
    | listen => exact hidle (Endpoint.step_listen.mp hr').2.1
    | accept => exact hidle (Endpoint.step_accept.mp hr').2.1
    | disconnect => exact hidle (Endpoint.step_disconnect.mp hr').1
    | write bytes => exact hidle (Endpoint.step_write.mp hr').1
    | read len => exact hidle (Endpoint.step_read.mp hr').1
  | write hobj hidle hnone => cases hrun.symm.trans hnone
  | subscribe hobj hidle hnone => cases hrun.symm.trans hnone
  | receive hobj hidle hnone => cases hrun.symm.trans hnone
  | pollStream => exact absurd rfl (hc _ _)
  | pollDatagram => exact absurd rfl (hc _ _)

/-- Only a pass returns something from a call of the interface's own. -/
theorem call_results (h : H.step F c = some (H', out)) (hc : ∀ bytes late, c ≠ .poll bytes late)
    (hpass : ∀ now bytes after, c ≠ .device (.pass now bytes after)) : resultsOf out = [] := by
  have hsocket : ∀ (l : Nat) (out : List Output), resultsOf (out.map (.socket l)) = [] := by
    simp [resultsOf, List.filterMap_map]
  generalize hr : (H', out) = r at h
  cases step_did F h with
  | @device a o hrun ha ho =>
    cases hr
    rw [Device.resultsOf_log]
    cases a with
    | pass now bytes after => exact absurd rfl (hpass now bytes after)
    | read bytes =>
      obtain ⟨-, rfl⟩ := Device.begin_some (Device.step_perform F ho)
      rw [(Device.read_left F H.toDevice bytes).2.1]
      rfl
    | _ =>
      obtain ⟨-, rfl⟩ := Device.begin_some (Device.step_perform F ho)
      rfl
  | destroy =>
    cases hr
    rfl
  | socket =>
    obtain ⟨-, rfl⟩ := Prod.ext_iff.mp hr
    exact hsocket ..
  | write =>
    cases hr
    exact hsocket ..
  | subscribe =>
    cases hr
    rfl
  | @receive l len s =>
    obtain ⟨-, rfl⟩ := Prod.ext_iff.mp hr
    show resultsOf (H.storeDatagram l (s.goOn [] len) len false).2 = []
    unfold storeDatagram
    split
    · rfl
    · rfl
  | pollStream => exact absurd rfl (hc _ _)
  | pollDatagram => exact absurd rfl (hc _ _)

end Host

end PicoLan
