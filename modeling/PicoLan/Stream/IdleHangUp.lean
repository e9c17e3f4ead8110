import PicoLan.Stream.LateClose
import PicoLan.Stream.Sessions

/-!
# Three empty reads

`read` hangs up when `zero_read_count` reaches three.  The counter belongs to the
socket and outlives its connections: it counts the empty reads of the socket's whole
life modulo three, and a connection is sure of three of its own only when it begins
at zero (`hangUp_iff`).
-/

namespace PicoLan

/-- The number of reads that have returned no byte. -/
def emptyReads (out : List Output) : Nat := out.count (.got [])

theorem emptyReads_append (out out' : List Output) :
    emptyReads (out ++ out') = emptyReads out + emptyReads out' :=
  List.count_append

theorem emptyReads_of_none {out : List Output} (h : ∀ bytes, .got bytes ∉ out) :
    emptyReads out = 0 :=
  List.count_eq_zero.mpr (h [])

theorem not_got_sent (ps : List DatagramPack) (bytes : List UInt8) :
    Output.got bytes ∉ ps.map Output.sent := by
  simp

/-! ## One step -/

/-- What a step comes to for the counter.  `s` is the state when the call goes on and
`c` the count before. -/
inductive Counted (s : ConnectionState) (c : UInt8) (e' : Endpoint) (out : List Output) : Prop where
  | quiet (hgot : ∀ bytes, .got bytes ∉ out) (hc : e'.socket.zeroReadCount = c)
  | filled (hgot : emptyReads out = 0) (hc : e'.socket.zeroReadCount = c)
      (hs : e'.socket.state = s)
  | empty (hgot : emptyReads out = 1) (h3 : ¬ c + 1 ≥ 3) (hc : e'.socket.zeroReadCount = c + 1)
      (hs : e'.socket.state = s)
  | hungUp (hgot : emptyReads out = 1) (h3 : c + 1 ≥ 3) (hc : e'.socket.zeroReadCount = 0)
      (hs : e'.socket.state = .closed)

theorem Counted.prefix {s : ConnectionState} {c : UInt8} {e' : Endpoint} {out : List Output}
    (h : Counted s c e' out) (ps : List DatagramPack) :
    Counted s c e' (ps.map .sent ++ out) := by
  have hsame : emptyReads (ps.map .sent ++ out) = emptyReads out := by
    rw [emptyReads_append, emptyReads_of_none (not_got_sent ps), Nat.zero_add]
  cases h with
  | quiet hgot hc =>
    refine .quiet (fun bytes hmem => ?_) hc
    rcases List.mem_append.mp hmem with hmem | hmem
    · exact not_got_sent ps bytes hmem
    · exact hgot bytes hmem
  | filled hgot hc hs => exact .filled (hsame.trans hgot) hc hs
  | empty hgot h3 hc hs => exact .empty (hsame.trans hgot) h3 hc hs
  | hungUp hgot h3 hc hs => exact .hungUp (hsame.trans hgot) h3 hc hs

namespace Endpoint

theorem disconnect_zeroReadCount (s : SocketStream) (address : UInt8) :
    (s.disconnect address).1.zeroReadCount = s.zeroReadCount := by
  rw [disconnect_socket]

theorem disconnect_state (s : SocketStream) (address : UInt8) :
    (s.disconnect address).1.state = .closed := by
  rw [disconnect_socket]

theorem endRead_counted (e : Endpoint) (got : List UInt8) :
    Counted e.socket.state e.socket.zeroReadCount (e.endRead got).1 (e.endRead got).2 := by
  unfold endRead
  dsimp only
  split
  · next hgot =>
    obtain rfl := List.eq_nil_of_length_eq_zero hgot
    split
    · next h3 =>
      refine .hungUp ?_ h3 rfl (disconnect_state _ _)
      rw [emptyReads_append, emptyReads_of_none (not_got_sent _)]
      rfl
    · next h3 => exact .empty rfl h3 rfl rfl
  · next hgot =>
    refine .filled ?_ rfl rfl
    refine List.count_eq_zero.mpr fun hmem => hgot ?_
    obtain rfl : [] = got := by simpa using hmem
    rfl

theorem goOnReading_counted (e : Endpoint) (got : List UInt8) (len : Nat) :
    Counted e.socket.state e.socket.zeroReadCount (e.goOnReading got len).1
      (e.goOnReading got len).2 := by
  unfold goOnReading
  dsimp only
  split
  · exact .quiet (fun bytes hmem => (by cases hmem)) rfl
  · exact endRead_counted { e with socket := { e.socket with
      ringbuf := (e.socket.ringbuf.drain (len - got.length)).2 } } _

theorem hangUp_counted (e : Endpoint) (r : Int) :
    Counted e.socket.state e.socket.zeroReadCount (e.hangUp r).1 (e.hangUp r).2 := by
  refine .quiet (fun bytes hmem => ?_) (disconnect_zeroReadCount e.socket e.address)
  rcases List.mem_append.mp hmem with hmem | hmem
  · exact not_got_sent _ bytes hmem
  · simp at hmem

theorem evaluate_zeroReadCount (w : WriteCall) (s : SocketStream) :
    (w.evaluate s).1.zeroReadCount = s.zeroReadCount := by
  rw [w.evaluate_socket]

theorem resume_counted (e : Endpoint) (late : Bool) :
    Counted e.socket.state e.socket.zeroReadCount (e.resume late).1 (e.resume late).2 := by
  have hnil : ∀ bytes, Output.got bytes ∉ ([] : List Output) := fun bytes hmem => (by cases hmem)
  have hret : ∀ r bytes, Output.got bytes ∉ [Output.ret r] := fun r bytes => (by simp)
  unfold resume
  split
  · exact .quiet hnil rfl
  · split
    · exact .quiet (hret _) rfl
    split
    · exact .quiet hnil rfl
    split
    · exact hangUp_counted e _
    · exact .quiet (fun bytes => (by simp)) rfl
  · split
    · exact hangUp_counted e _
    split
    · exact .quiet hnil rfl
    split
    · exact hangUp_counted e _
    · exact .quiet (hret _) rfl
  · split
    · exact endRead_counted e _
    · exact goOnReading_counted e _ _
  · next w _ =>
    have heval := evaluate_zeroReadCount w e.socket
    split
    · exact .quiet hnil rfl
    · exact .quiet (fun bytes => (by simp)) rfl
    · split
      · unfold afterPass
        split <;> next heq =>
          rw [heq] at heval
          exact .quiet (fun bytes => (by simp)) heval
      · exact .quiet hnil rfl

theorem takeAll_zeroReadCount (F : OnFull UInt8) (e : Endpoint) (as : List Arrival) :
    (e.takeAll F as).1.socket.zeroReadCount = e.socket.zeroReadCount :=
  (SocketStream.handleAll_counters F e.kind e.socket e.address as).2

theorem step_counted {F : OnFull UInt8} {e e' : Endpoint} {a : Action} {out : List Output}
    (h : e.step F a = some (e', out)) :
    Counted (e.stateAt F a) e.socket.zeroReadCount e' out := by
  have hnil : ∀ bytes, Output.got bytes ∉ ([] : List Output) := fun bytes hmem => (by cases hmem)
  have hret : ∀ r bytes, Output.got bytes ∉ [Output.ret r] := fun r bytes => (by simp)
  cases a with
  | poll as late =>
    obtain ⟨-, rfl, rfl⟩ := step_poll.mp h
    have hres := (e.takeAll F as).1.resume_counted late
    rw [takeAll_zeroReadCount] at hres
    exact hres.prefix _
  | burst =>
    obtain ⟨w, -, -, rfl, rfl⟩ := step_burst.mp h
    exact .quiet hnil rfl
  | connect r port =>
    obtain ⟨-, -, rfl, rfl⟩ := step_connect.mp h
    unfold connect
    split
    · exact .quiet (hret _) rfl
    · exact .quiet (fun bytes => (by simp)) rfl
  | listen =>
    obtain ⟨-, -, rfl, rfl⟩ := step_listen.mp h
    unfold listen
    split
    · exact .quiet (hret _) rfl
    · exact .quiet (hret _) rfl
  | accept =>
    obtain ⟨-, -, rfl, rfl⟩ := step_accept.mp h
    unfold accept
    split
    · exact .quiet (fun bytes => (by simp)) rfl
    · exact .quiet (hret _) rfl
  | disconnect =>
    obtain ⟨-, rfl, rfl⟩ := step_disconnect.mp h
    exact .quiet (not_got_sent _) (disconnect_zeroReadCount e.socket e.address)
  | write bytes =>
    obtain ⟨-, rfl, rfl⟩ := step_write.mp h
    unfold write
    split
    · exact .quiet (hret _) rfl
    split
    · exact .quiet (hret _) rfl
    · exact .quiet hnil rfl
  | read len =>
    obtain ⟨-, rfl, rfl⟩ := step_read.mp h
    unfold read
    split
    · exact .quiet (hret _) rfl
    · exact goOnReading_counted e [] len

end Endpoint

/-! ## The count of a connection -/

/-- An endpoint, its empty reads since the last connection was opened, and all of
them. -/
structure Tally where
  endpoint : Endpoint
  zeroReads : Nat := 0
  total : Nat := 0

namespace Tally

variable (F : OnFull UInt8)

/-- A connection that begins is counted anew. -/
def step (t : Tally) (a : Action) : Option Tally :=
  (t.endpoint.step F a).map fun (e, out) =>
    { endpoint := e
      zeroReads := (if t.endpoint.Opens a then 0 else t.zeroReads) + emptyReads out
      total := t.total + emptyReads out }

/-- A read returns in this step, and closes the stream. -/
def HangsUp (t : Tally) (a : Action) : Prop :=
  ∃ e' out bytes, t.endpoint.step F a = some (e', out) ∧ .got bytes ∈ out ∧
    t.endpoint.stateAt F a ≠ .closed ∧ e'.socket.state = .closed

/-- If a read hangs up, it is not before the third empty read of the connection. -/
def Patient (t : Tally) (a : Action) : Prop :=
  t.HangsUp F a → ∀ t', t.step F a = some t' → 3 ≤ t'.zeroReads

/-- The counter has been at zero when the connection was opened. -/
def OpensAtZero (t : Tally) (a : Action) : Prop :=
  t.endpoint.Opens a → t.endpoint.socket.zeroReadCount = 0

instance (t : Tally) (a : Action) : Decidable (t.OpensAtZero a) :=
  inferInstanceAs (Decidable (_ → _))

/-- No more empty reads are counted than the connection has had. -/
def Covered (t : Tally) : Prop := t.endpoint.socket.zeroReadCount.toNat ≤ t.zeroReads

variable {F} {t t' : Tally} {a : Action}

theorem step_some (h : t.step F a = some t') : ∃ out,
    t.endpoint.step F a = some (t'.endpoint, out) ∧
    t'.zeroReads = (if t.endpoint.Opens a then 0 else t.zeroReads) + emptyReads out ∧
    t'.total = t.total + emptyReads out := by
  obtain ⟨⟨e, out⟩, hstep, rfl⟩ := Option.map_eq_some_iff.mp h
  exact ⟨out, hstep, rfl, rfl⟩

theorem toNat_succ_le (c : UInt8) : (c + 1).toNat ≤ c.toNat + 1 := by
  rw [UInt8.toNat_add, UInt8.toNat_one]
  exact Nat.mod_le _ _

theorem Covered.step (ht : t.Covered) (ha : t.OpensAtZero a) (h : t.step F a = some t') :
    t'.Covered ∧ t.Patient F a := by
  obtain ⟨out, hstep, hzero, -⟩ := step_some h
  have hbefore : t.endpoint.socket.zeroReadCount.toNat ≤
      if t.endpoint.Opens a then 0 else t.zeroReads := by
    split
    · next hopens => rw [ha hopens]; exact Nat.le_refl 0
    · exact ht
  have hpatient : (t.HangsUp F a → 3 ≤ t'.zeroReads) → t.Patient F a := by
    intro h3 hup t'' h''
    cases h.symm.trans h''
    exact h3 hup
  have hnot : t'.endpoint.socket.state = t.endpoint.stateAt F a → ¬ t.HangsUp F a := by
    rintro hsame ⟨e', out', bytes, hstep', -, hopen, hclosed⟩
    cases hstep.symm.trans hstep'
    exact hopen (hsame.symm.trans hclosed)
  unfold Covered
  rw [hzero] at hpatient ⊢
  cases Endpoint.step_counted hstep with
  | quiet hgot hc =>
    rw [hc]
    refine ⟨Nat.le_add_right_of_le hbefore, hpatient ?_⟩
    rintro ⟨e', out', bytes, hstep', hmem, -⟩
    cases hstep.symm.trans hstep'
    exact absurd hmem (hgot bytes)
  | filled hgot hc hs =>
    rw [hc]
    exact ⟨Nat.le_add_right_of_le hbefore, hpatient fun hup => absurd hup (hnot hs)⟩
  | empty hgot h3 hc hs =>
    have := toNat_succ_le t.endpoint.socket.zeroReadCount
    rw [hc, hgot]
    exact ⟨by omega, hpatient fun hup => absurd hup (hnot hs)⟩
  | hungUp hgot h3 hc =>
    have := toNat_succ_le t.endpoint.socket.zeroReadCount
    have hge : 3 ≤ (t.endpoint.socket.zeroReadCount + 1).toNat := UInt8.le_iff_toNat_le.mp h3
    rw [hc, hgot]
    exact ⟨Nat.zero_le _, hpatient fun _ => by omega⟩

theorem Covered.run {as : List Action} (ht : t.Covered)
    (ha : Runs.Meets (Tally.step F) Tally.OpensAtZero t as) :
    Runs.Meets (Tally.step F) (fun t a => t.Patient F a) t as :=
  ha.imp_of_invariant (I := Tally.Covered) (fun _ _ _ ht hz h => (ht.step hz h).1)
    (fun _ _ ht hz hup t' h => (ht.step hz h).2 hup t' h) ht

/-- **The counter** in terms of the socket's life. -/
theorem count_step (ht : t.endpoint.socket.zeroReadCount.toNat = t.total % 3)
    (h : t.step F a = some t') : t'.endpoint.socket.zeroReadCount.toNat = t'.total % 3 := by
  obtain ⟨out, hstep, -, htotal⟩ := step_some h
  have hsucc : (t.endpoint.socket.zeroReadCount + 1).toNat =
      t.endpoint.socket.zeroReadCount.toNat + 1 := by
    rw [UInt8.toNat_add, UInt8.toNat_one]
    omega
  have h3 : t.endpoint.socket.zeroReadCount + 1 ≥ 3 ↔
      3 ≤ t.endpoint.socket.zeroReadCount.toNat + 1 := by
    rw [← hsucc]
    exact UInt8.le_iff_toNat_le
  rw [htotal]
  cases Endpoint.step_counted hstep with
  | quiet hgot hc =>
    rw [hc, emptyReads_of_none hgot]
    exact ht
  | filled hgot hc hs =>
    rw [hc, hgot]
    exact ht
  | empty hgot hlt hc hs =>
    have := h3.not.mp hlt
    rw [hc, hgot, hsucc]
    omega
  | hungUp hgot hge hc =>
    have := h3.mp hge
    rw [hc, hgot]
    show 0 = _
    omega

end Tally

/-! ## A connection that does not begin at zero -/

namespace Endpoint

variable (F : OnFull UInt8)

/-- A datagram of the peer. -/
def fromPeer (e : Endpoint) (payload : List UInt8) : Arrival where
  pack := ⟨6, e.socket.remote, e.address, e.socket.port, BoundedList.empty.appendAll payload⟩
  behind _ := 0

theorem fromPeer_isFor (e : Endpoint) (payload : List UInt8) :
    (e.fromPeer payload).IsFor e.address e.socket.port :=
  ⟨.inl rfl, rfl⟩

theorem fromPeer_cell (e : Endpoint) (t n : UInt8) : (e.fromPeer [t, n]).data.cell 0 = t := by
  have hpay : (e.fromPeer [t, n]).pack.payload.toList = [t, n] ++ [] := rfl
  exact (arrival_cell _ _ hpay).1

/-- The peer answers the SYN. -/
theorem connecting_completes {e : Endpoint} (hk : e.kind = .client) (hcall : e.call = .connecting)
    (hs : e.socket.state = .synSent) : ∃ x e' out, e.step F (.poll [x] false) = some (e', out) ∧
      emptyReads out = 0 ∧ e'.call = .idle ∧ e'.socket.state = .opened := by
  have hhandle := SocketStream.handle_synSent F e.socket e.address _
    (e.fromPeer_isFor [MessageType.syn, 0]) hs (by rw [fromPeer_cell]; decide)
  rw [if_pos (fromPeer_cell e _ _)] at hhandle
  have htake := takeAll_silent e hk hhandle
  have htop : e.atTop = false := by
    unfold atTop
    rw [hcall]
  refine ⟨e.fromPeer [MessageType.syn, 0], _, _, step_poll.mpr ⟨htop, rfl, rfl⟩, ?_⟩
  rw [htake]
  unfold resume
  rw [hcall]
  exact ⟨rfl, rfl, rfl⟩

/-- The peer acknowledges the SYN of the server. -/
theorem accepting_completes {e : Endpoint} (hk : e.kind = .server) (hcall : e.call = .accepting)
    (hs : e.socket.state = .pending) : ∃ x e' out, e.step F (.poll [x] false) = some (e', out) ∧
      emptyReads out = 0 ∧ e'.call = .idle ∧ e'.socket.state = .opened := by
  have hhandle := SocketStream.handle_pending F e.socket e.address _
    (e.fromPeer_isFor [MessageType.ack, 0]) hs (fromPeer_cell e _ _)
  have htake := takeAll_silent e hk hhandle
  have htop : e.atTop = false := by
    unfold atTop
    rw [hcall]
  refine ⟨e.fromPeer [MessageType.ack, 0], _, _, step_poll.mpr ⟨htop, rfl, rfl⟩, ?_⟩
  rw [htake]
  unfold resume
  rw [hcall]
  exact ⟨rfl, rfl, rfl⟩

/-- The call that opens a connection returns when the peer answers. -/
theorem Opens.completes {e e' : Endpoint} {a : Action} {out : List Output} (h : e.Opens a)
    (hstep : e.step F a = some (e', out)) : emptyReads out = 0 ∧ ∃ x e'' out',
      e'.step F (.poll [x] false) = some (e'', out') ∧ emptyReads out' = 0 ∧
      e''.call = .idle ∧ e''.socket.state = .opened := by
  cases a with
  | connect r port =>
    obtain ⟨hk, -, rfl, rfl⟩ := step_connect.mp hstep
    unfold connect
    rw [if_neg fun hne => hne h]
    exact ⟨rfl, connecting_completes F hk rfl rfl⟩
  | accept =>
    obtain ⟨hk, -, rfl, rfl⟩ := step_accept.mp hstep
    unfold accept
    rw [if_pos (show e.socket.state = .synRecved from h)]
    exact ⟨rfl, accepting_completes F hk rfl rfl⟩
  | _ => cases h

/-- A read of no bytes returns none, at once. -/
theorem read_none {e : Endpoint} (hidle : e.call = .idle) (hopen : e.socket.state = .opened) :
    ∃ e' out, e.step F (.read 0) = some (e', out) ∧ emptyReads out = 1 ∧ e'.call = .idle := by
  refine ⟨_, _, step_read.mpr ⟨hidle, rfl, rfl⟩, ?_⟩
  have hread : e.read 0 = e.endRead [] := if_neg fun hne => hne hopen
  have hcount : emptyReads (e.endRead []).2 = 1 := by
    unfold endRead
    dsimp only [List.length_nil]
    rw [if_pos rfl]
    split
    · rw [emptyReads_append, emptyReads_of_none (not_got_sent _)]
      rfl
    · rfl
  rw [hread]
  exact ⟨hcount, endRead_idle e []⟩

theorem count_of_none {e e' : Endpoint} {a : Action} {out : List Output}
    (h : e.step F a = some (e', out)) (hout : emptyReads out = 0) :
    e'.socket.zeroReadCount = e.socket.zeroReadCount := by
  cases step_counted h with
  | quiet _ hc => exact hc
  | filled _ hc => exact hc
  | empty hgot => exact absurd (hout.symm.trans hgot) (by decide)
  | hungUp hgot => exact absurd (hout.symm.trans hgot) (by decide)

end Endpoint

namespace Tally

variable (F : OnFull UInt8) {t t' : Tally} {a : Action}

theorem step_of {e : Endpoint} {out : List Output} (h : t.endpoint.step F a = some (e, out)) :
    t.step F a = some
      { endpoint := e
        zeroReads := (if t.endpoint.Opens a then 0 else t.zeroReads) + emptyReads out
        total := t.total + emptyReads out } := by
  unfold step
  rw [h]
  rfl

/-- An empty read at the count of two hangs up. -/
theorem impatient_of_two (hidle : t.endpoint.call = .idle)
    (hopen : t.endpoint.socket.state = .opened) (htwo : t.endpoint.socket.zeroReadCount = 2)
    (hfew : t.zeroReads < 2) : ¬ t.Patient F (.read 0) := by
  obtain ⟨e, out, hstep, hgot, -⟩ := Endpoint.read_none F hidle hopen
  have hmem : Output.got [] ∈ out := by
    by_contra hnot
    exact absurd (hgot.symm.trans (List.count_eq_zero.mpr hnot)) (by decide)
  have hopen' : t.endpoint.stateAt F (.read 0) ≠ .closed := by
    show t.endpoint.socket.state ≠ .closed
    rw [hopen]
    decide
  intro hpatient
  cases Endpoint.step_counted hstep with
  | quiet hnone => exact hnone [] hmem
  | filled hnone => exact absurd (hgot.symm.trans hnone) (by decide)
  | empty _ hlt => exact hlt (by rw [htwo]; decide)
  | hungUp _ _ _ hs =>
    have hle := hpatient ⟨e, out, [], hstep, hmem, hopen', hs⟩ _ (step_of F hstep)
    have hnot : ¬ t.endpoint.Opens (.read 0) := id
    dsimp only at hle
    rw [if_neg hnot, hgot] at hle
    omega

/-- An empty read at the count of one leaves the connection open. -/
theorem read_at_one (hidle : t.endpoint.call = .idle) (hopen : t.endpoint.socket.state = .opened)
    (hone : t.endpoint.socket.zeroReadCount = 1) : ∃ t', t.step F (.read 0) = some t' ∧
      t'.endpoint.call = .idle ∧ t'.endpoint.socket.state = .opened ∧
      t'.endpoint.socket.zeroReadCount = 2 ∧ t'.zeroReads = t.zeroReads + 1 := by
  obtain ⟨e, out, hstep, hgot, hidle'⟩ := Endpoint.read_none F hidle hopen
  refine ⟨_, step_of F hstep, hidle', ?_⟩
  have hnot : ¬ t.endpoint.Opens (.read 0) := id
  dsimp only
  rw [if_neg hnot, hgot]
  cases Endpoint.step_counted hstep with
  | quiet hnone =>
    exact absurd (hgot.symm.trans (emptyReads_of_none hnone)) (by decide)
  | filled hnone => exact absurd (hgot.symm.trans hnone) (by decide)
  | empty _ _ hc hs =>
    refine ⟨hs.trans hopen, ?_, rfl⟩
    rw [hc, hone]
    rfl
  | hungUp _ h3 =>
    rw [hone] at h3
    exact absurd h3 (by decide)

/-- No other connection is opened. -/
def Within (t : Tally) (bs : List Action) : Prop :=
  Runs.Meets (Tally.step F) (fun t b => ¬ t.endpoint.Opens b) t bs

/-- A connection that begins at one or two can be hung up too soon. -/
theorem hasty (h : t.endpoint.Opens a) (hstep : t.step F a = some t')
    (hlt : t.endpoint.socket.zeroReadCount.toNat < 3)
    (hne : t.endpoint.socket.zeroReadCount ≠ 0) : ∃ bs, t'.Within F bs ∧
      ¬ Runs.Meets (Tally.step F) (fun t b => t.Patient F b) t' bs := by
  obtain ⟨out, hs, hzero, -⟩ := step_some hstep
  obtain ⟨hout, x, e₂, out₂, h₂, hout₂, hidle, hopen⟩ := h.completes F hs
  rw [if_pos h, hout] at hzero
  have hpoll := step_of F h₂
  rw [if_neg (show ¬ t'.endpoint.Opens (.poll [x] false) from id), hzero, hout₂] at hpoll
  have hcount : e₂.socket.zeroReadCount = t.endpoint.socket.zeroReadCount :=
    (Endpoint.count_of_none F h₂ hout₂).trans (Endpoint.count_of_none F hs hout)
  have hcases : t.endpoint.socket.zeroReadCount = 1 ∨ t.endpoint.socket.zeroReadCount = 2 := by
    rw [← UInt8.toNat_inj, ← UInt8.toNat_inj]
    have hpos := UInt8.toNat_inj.not.mpr hne
    simp only [UInt8.reduceToNat] at hpos ⊢
    omega
  rcases hcases with hc | hc
  · -- the second read hangs up
    obtain ⟨t₃, h₃, hidle₃, hopen₃, hcount₃, hzero₃⟩ :=
      read_at_one F hidle hopen (hcount.trans hc) (t := ⟨e₂, 0 + 0, t'.total + 0⟩)
    refine ⟨[.poll [x] false, .read 0, .read 0],
      ⟨id, fun _ _ => ⟨id, fun _ _ => ⟨id, fun _ _ => trivial⟩⟩⟩, fun hmeets => ?_⟩
    refine impatient_of_two F hidle₃ hopen₃ hcount₃ ?_ ((hmeets.2 _ hpoll).2 _ h₃).1
    rw [hzero₃]
    exact Nat.lt_succ_self 1
  · refine ⟨[.poll [x] false, .read 0], ⟨id, fun _ _ => ⟨id, fun _ _ => trivial⟩⟩, fun hmeets => ?_⟩
    exact impatient_of_two F hidle hopen (hcount.trans hc) Nat.zero_lt_two (hmeets.2 _ hpoll).1

end Tally

/-- **Three empty reads.**  In every run, the counter is the number of all empty reads
modulo three.  If it is zero whenever a connection is opened, no read hangs up before
the third empty read of its connection; and a connection whatever is done in it is
safe from that only if it is zero when it is opened. -/
theorem hangUp_iff (F : OnFull UInt8) (e : Endpoint) (hnew : e.socket.zeroReadCount = 0)
    (as : List Action) (t : Tally) (h : Runs.run (Tally.step F) { endpoint := e } as = some t) :
    t.endpoint.socket.zeroReadCount.toNat = t.total % 3 ∧
    (Runs.Meets (Tally.step F) Tally.OpensAtZero { endpoint := e } as →
      Runs.Meets (Tally.step F) (fun t a => t.Patient F a) { endpoint := e } as) ∧
    ∀ a t', t.endpoint.Opens a → t.step F a = some t' →
      ((∀ bs, t'.Within F bs → Runs.Meets (Tally.step F) (fun t b => t.Patient F b) t' bs) ↔
        t.endpoint.socket.zeroReadCount = 0) := by
  have hcount : t.endpoint.socket.zeroReadCount.toNat = t.total % 3 := by
    refine Runs.run_always (I := fun t : Tally =>
      t.endpoint.socket.zeroReadCount.toNat = t.total % 3) (fun t a t' ht hs => ?_) ?_ h
    · exact Tally.count_step ht hs
    · rw [hnew]
      rfl
  refine ⟨hcount, Tally.Covered.run ?_, fun a t' hopens hstep => ?_⟩
  · unfold Tally.Covered
    rw [hnew]
    exact Nat.le_refl 0
  constructor
  · intro hall
    by_contra hne
    have hlt : t.endpoint.socket.zeroReadCount.toNat < 3 := by
      rw [hcount]
      exact Nat.mod_lt _ (by decide)
    obtain ⟨bs, hbs, hnot⟩ := Tally.hasty F hopens hstep hlt hne
    exact hnot (hall bs hbs)
  · intro hz bs hbs
    obtain ⟨out, hs, -⟩ := Tally.step_some hstep
    have hzero : t'.endpoint.socket.zeroReadCount = 0 :=
      (Endpoint.count_of_none F hs (hopens.completes F hs).1).trans hz
    refine Tally.Covered.run ?_ (hbs.imp fun t b hb hopens => absurd hopens hb)
    unfold Tally.Covered
    rw [hzero]
    exact Nat.zero_le _

/-! ## Two connections -/

/-- A read that waits in vain. -/
def emptyRead : List Action := [.read 1, .poll [] true]

/-- 7 is accepted and sends nothing. -/
def threeEmptyReads : List Action := acceptFrom 7 5 ++ emptyRead ++ emptyRead ++ emptyRead

/-- After two empty reads the connection with 7 ends; then 8 is accepted. -/
def twoEmptyReads : List Action :=
  acceptFrom 7 5 ++ emptyRead ++ emptyRead ++ [.disconnect] ++ acceptFrom 8 20 ++ [.read 1]

theorem threeEmptyReads_patient : ∃ t,
    Runs.run (Tally.step (OnFull.refuse UInt8)) { endpoint := unusedServer } threeEmptyReads =
      some t ∧ t.zeroReads = 3 ∧ t.endpoint.socket.state = .closed ∧
    Runs.Meets (Tally.step (OnFull.refuse UInt8)) (fun t a => t.Patient (OnFull.refuse UInt8) a)
      { endpoint := unusedServer } threeEmptyReads :=
  ⟨_, rfl, by decide +kernel, by decide +kernel, (hangUp_iff (OnFull.refuse UInt8) unusedServer rfl
    threeEmptyReads _ rfl).2.1 (by decide +kernel)⟩

/-- The first empty read of the connection with 8 closes it. -/
theorem twoEmptyReads_hungUp : ∃ t t',
    Runs.run (Tally.step (OnFull.refuse UInt8)) { endpoint := unusedServer } twoEmptyReads =
      some t ∧ t.step (OnFull.refuse UInt8) (.poll [] true) = some t' ∧ t'.zeroReads = 1 ∧
    t'.endpoint.socket.state = .closed ∧ ¬ t.Patient (OnFull.refuse UInt8) (.poll [] true) := by
  refine ⟨_, _, rfl, rfl, by decide +kernel, by decide +kernel, fun h => ?_⟩
  have hthree := h ⟨_, _, [], rfl, by decide +kernel, by decide +kernel, by decide +kernel⟩ _ rfl
  exact absurd hthree (by decide +kernel)

end PicoLan
