import PicoLan.Stream.Space
import PicoLan.Stream.Strangers

/-!
# What a CLOSE leaves behind

`read` looks at the state first, so once a CLOSE has been handled every call of
it reports `BAD_STATE`.  The bytes that were accepted before are not thrown away:
a read that is running when the CLOSE comes goes on taking them until its time is
over, and what no read has taken stays in the ring buffer (`closed_unread`).
-/

namespace PicoLan

/-- The application reads, or services the interface. -/
def Action.Reads : Action → Prop
  | .read _ => True
  | .poll _ _ => True
  | _ => False

/-- No call is running and the connection is closed. -/
structure Endpoint.Shut (e : Endpoint) : Prop where
  idle : e.call = .idle
  closed : e.socket.state = .closed

section

variable (F : OnFull UInt8)

/-! ## A closed stream -/

/-- The handler still writes the sender's address into the socket. -/
theorem SocketStream.handle_of_closed (k : Kind) (s : SocketStream) (address : UInt8) (a : Arrival)
    (hs : s.state = .closed) : ∃ r, s.handle F k address a = ({ s with remote := r }, []) := by
  by_cases hfor : a.IsFor address s.port
  · exact ⟨_, handle_closed F s address a hfor k hs⟩
  · unfold handle
    rw [if_neg hfor]
    exact ⟨s.remote, rfl⟩

theorem SocketStream.handleAll_of_closed (k : Kind) (s : SocketStream) (address : UInt8)
    (as : List Arrival) (hs : s.state = .closed) :
    (∃ r, s.handleAll F k address as = ({ s with remote := r }, [])) ∧
      s.acceptedAll F k address as = [] := by
  induction as generalizing s with
  | nil => exact ⟨⟨s.remote, rfl⟩, rfl⟩
  | cons a as ih =>
    obtain ⟨r, hr⟩ := handle_of_closed F k s address a hs
    obtain ⟨⟨r', hr'⟩, hacc⟩ := ih { s with remote := r } hs
    have htakes : ¬ s.Takes F k address a := by
      intro h
      apply h.2
      rw [hr]
    unfold handleAll acceptedAll
    rw [if_neg htakes, hr]
    dsimp only
    rw [hr', hacc]
    exact ⟨⟨r', rfl⟩, rfl⟩

namespace Endpoint

theorem Shut.read {e : Endpoint} (h : e.Shut) (len : Nat) :
    e.step F (.read len) = some (e, [.ret Error.badState]) := by
  apply step_read.mpr
  have hne : e.socket.state ≠ .opened := by
    rw [h.closed]
    decide
  unfold Endpoint.read
  rw [if_pos hne]
  exact ⟨h.idle, rfl, rfl⟩

/-- Nothing is taken out of the ring buffer and nothing is put into it. -/
theorem Shut.step {e e' : Endpoint} {a : Action} {out : List Output} (h : e.Shut)
    (ha : a.Reads) (hstep : e.step F a = some (e', out)) :
    e'.Shut ∧ e'.held = e.held ∧ gotten out = [] ∧ e.acceptedIn F a = [] := by
  cases a with
  | read len =>
    rw [h.read F len] at hstep
    cases hstep
    exact ⟨h, rfl, rfl, rfl⟩
  | poll as late =>
    obtain ⟨-, rfl, rfl⟩ := step_poll.mp hstep
    obtain ⟨⟨r, hr⟩, hacc⟩ :=
      SocketStream.handleAll_of_closed F e.kind e.socket e.address as h.closed
    have htake : e.takeAll F as = ({ e with socket := { e.socket with remote := r } }, []) := by
      unfold takeAll
      rw [hr]
      rfl
    have hidle : (e.takeAll F as).1.call = .idle := by rw [htake]; exact h.idle
    rw [resume_idle hidle, htake]
    exact ⟨⟨h.idle, h.closed⟩, rfl, rfl, hacc⟩
  | _ => cases ha

end Endpoint

theorem Ledger.shut_run {l l' : Ledger} {as : List Action} (hl : l.endpoint.Shut)
    (has : ∀ a ∈ as, a.Reads) (h : Runs.run (Ledger.step F) l as = some l') :
    l'.endpoint.Shut ∧ l'.endpoint.held = l.endpoint.held ∧ l'.returned = l.returned ∧
      l'.accepted = l.accepted := by
  induction as generalizing l with
  | nil =>
    cases h
    exact ⟨hl, rfl, rfl, rfl⟩
  | cons a as ih =>
    obtain ⟨m, hm, h⟩ := Runs.run_cons.mp h
    obtain ⟨⟨e, out⟩, hstep, rfl⟩ := Option.map_eq_some_iff.mp hm
    obtain ⟨hshut, hheld, hgot, hacc⟩ := hl.step F (has a List.mem_cons_self) hstep
    obtain ⟨h₁, h₂, h₃, h₄⟩ := ih hshut (fun b hb => has b (List.mem_cons_of_mem a hb)) h
    refine ⟨h₁, h₂.trans hheld, ?_, ?_⟩
    · rw [h₃]
      show l.returned ++ gotten out = l.returned
      rw [hgot, List.append_nil]
    · rw [h₄]
      show l.accepted ++ l.endpoint.acceptedIn F a = l.accepted
      rw [hacc, List.append_nil]

/-! ## A read that is running -/

namespace Endpoint

theorem endRead_gotten (e : Endpoint) (got : List UInt8) :
    gotten (e.endRead got).2 = got ∧ (e.endRead got).1.call = .idle := by
  unfold endRead
  dsimp only
  split
  · split
    · simp [gotten_append, gotten]
    · simp [gotten]
  · simp [gotten]

theorem inHand_idle {e : Endpoint} (h : e.call = .idle) : e.inHand = [] := by
  unfold inHand
  rw [h]

theorem goOnReading_gotten (e : Endpoint) (got : List UInt8) (len : Nat) :
    gotten (e.goOnReading got len).2 ++ (e.goOnReading got len).1.inHand =
      got ++ e.socket.ringbuf.toList.take (len - got.length) := by
  rw [← (e.socket.ringbuf.drain_eq (len - got.length)).1]
  unfold goOnReading
  dsimp only
  split
  · rfl
  · obtain ⟨h₁, h₂⟩ := endRead_gotten
      { e with socket := { e.socket with
        ringbuf := (e.socket.ringbuf.drain (len - got.length)).2 } }
      (got ++ (e.socket.ringbuf.drain (len - got.length)).1)
    rw [h₁, inHand_idle h₂, List.append_nil]

/-- Whether the stream is still open is not asked. -/
theorem reading_poll {e e' : Endpoint} {got : List UInt8} {len : Nat} {as : List Arrival}
    {out : List Output} (hcall : e.call = .reading got len)
    (h : e.step F (.poll as false) = some (e', out)) : gotten out ++ e'.inHand =
      got ++ (e.socket.handleAll F e.kind e.address as).1.ringbuf.toList.take
        (len - got.length) := by
  obtain ⟨-, rfl, rfl⟩ := step_poll.mp h
  have htake : (e.takeAll F as).1.call = .reading got len := hcall
  have hres : (e.takeAll F as).1.resume false = (e.takeAll F as).1.goOnReading got len := by
    unfold resume
    rw [htake]
    rfl
  have hsent : gotten (e.takeAll F as).2 = [] := gotten_sent _
  rw [hres, gotten_append, hsent, List.nil_append]
  exact goOnReading_gotten _ got len

/-- The time is looked at before the ring buffer: what has just come is left in it. -/
theorem reading_late {e e' : Endpoint} {got : List UInt8} {len : Nat} {as : List Arrival}
    {out : List Output} (hcall : e.call = .reading got len)
    (h : e.step F (.poll as true) = some (e', out)) : gotten out = got ∧ e'.call = .idle ∧
      e'.held = (e.socket.handleAll F e.kind e.address as).1.ringbuf.toList := by
  obtain ⟨-, rfl, rfl⟩ := step_poll.mp h
  have htake : (e.takeAll F as).1.call = .reading got len := hcall
  have hres : (e.takeAll F as).1.resume true = (e.takeAll F as).1.endRead got := by
    unfold resume
    rw [htake]
    rfl
  have hsent : gotten (e.takeAll F as).2 = [] := gotten_sent _
  obtain ⟨hgot, hidle⟩ := endRead_gotten (e.takeAll F as).1 got
  have hheld := endRead_held (e.takeAll F as).1 got
  rw [hgot] at hheld
  rw [hres, gotten_append, hsent, List.nil_append]
  exact ⟨hgot, hidle, List.append_cancel_left hheld⟩

end Endpoint

/-- **The unread bytes.**  In a run whose accepted frames fit, nothing is lost,
repeated or put out of order.  A running read takes what has been accepted, up to
its length, while it is in time; one whose time is over leaves what has come last
in the ring buffer.  Once the connection is closed and no call runs, every read reports
`BAD_STATE` and what is left stays where it is; so all has been read exactly when
nothing is left at that point. -/
theorem closed_unread (e : Endpoint) (as : List Action) (l : Ledger)
    (h : Runs.run (Ledger.step F) { endpoint := e } as = some l)
    (hfit : Runs.Meets (Ledger.step F) (fun l a => l.endpoint.FitsIn F a) { endpoint := e } as) :
    l.returned ++ l.endpoint.held = e.held ++ l.accepted ∧
    (∀ got len arrivals e' out, l.endpoint.call = .reading got len →
      l.endpoint.step F (.poll arrivals false) = some (e', out) →
      gotten out ++ e'.inHand = got ++
        (l.endpoint.socket.handleAll F l.endpoint.kind l.endpoint.address
          arrivals).1.ringbuf.toList.take (len - got.length)) ∧
    (∀ got len arrivals e' out, l.endpoint.call = .reading got len →
      l.endpoint.step F (.poll arrivals true) = some (e', out) →
      gotten out = got ∧ e'.call = .idle ∧ e'.held =
        (l.endpoint.socket.handleAll F l.endpoint.kind l.endpoint.address
          arrivals).1.ringbuf.toList) ∧
    (l.endpoint.Shut → ∀ bs l', (∀ b ∈ bs, b.Reads) →
      Runs.run (Ledger.step F) l bs = some l' →
      (∀ len, l'.endpoint.step F (.read len) = some (l'.endpoint, [.ret Error.badState])) ∧
        l'.returned = l.returned ∧ l'.endpoint.held = l.endpoint.held ∧
        (l'.returned = e.held ++ l'.accepted ↔ l.endpoint.held = [])) := by
  have hbal : l.returned ++ l.endpoint.held = e.held ++ l.accepted :=
    (Ledger.balanced_iff F e.held { endpoint := e } l (List.append_nil _).symm as h).mpr hfit
  refine ⟨hbal, ?_, ?_, ?_⟩
  · intro got len arrivals e' out hcall hstep
    exact Endpoint.reading_poll F hcall hstep
  · intro got len arrivals e' out hcall hstep
    exact Endpoint.reading_late F hcall hstep
  · intro hshut bs l' hbs hrun
    obtain ⟨hshut', hheld, hret, hacc⟩ := Ledger.shut_run F hshut hbs hrun
    refine ⟨hshut'.read F, hret, hheld, ?_⟩
    rw [hret, hacc, ← hbal]
    constructor
    · intro heq
      exact List.append_right_eq_self.mp heq.symm
    · intro hnil
      rw [hnil, List.append_nil]

end

/-! ## A CLOSE right behind the data -/

def smallClient : Endpoint := { smallServer with kind := .client }

/-- Three bytes and a CLOSE come together. -/
def dataThenClose : List Action :=
  [.poll [dataFrom7 6 [10, 11, 12], datagramTo80 7 [MessageType.close, 7]] false]

/-- A read has taken three bytes when its time is over, and a fourth comes with the CLOSE. -/
def closeWhenLate : List Action :=
  [.read 5, .poll [dataFrom7 6 [10, 11, 12]] false,
    .poll [dataFrom7 7 [13], datagramTo80 7 [MessageType.close, 8]] true]

theorem dataThenClose_unread :
    (∃ l, Runs.run (Ledger.step (OnFull.refuse UInt8)) { endpoint := smallServer } dataThenClose =
        some l ∧
      l.returned ++ l.endpoint.held = smallServer.held ++ l.accepted ∧
      l.endpoint.step (OnFull.refuse UInt8) (.read 3) =
        some (l.endpoint, [.ret Error.badState])) ∧
    ∃ l, Runs.run (Ledger.step (OnFull.refuse UInt8)) { endpoint := smallServer } closeWhenLate =
        some l ∧
      l.returned ++ l.endpoint.held = smallServer.held ++ l.accepted ∧ l.endpoint.held = [13] ∧
      l.endpoint.step (OnFull.refuse UInt8) (.read 3) =
        some (l.endpoint, [.ret Error.badState]) := by
  refine ⟨⟨_, rfl, ?_⟩, ⟨_, rfl, ?_⟩⟩
  · have h := closed_unread (OnFull.refuse UInt8) smallServer dataThenClose _ rfl (by decide +kernel)
    exact ⟨h.1, (h.2.2.2 ⟨rfl, rfl⟩ [] _ (by simp) rfl).1 3⟩
  · have h := closed_unread (OnFull.refuse UInt8) smallServer closeWhenLate _ rfl (by decide +kernel)
    exact ⟨h.1, by decide +kernel, (h.2.2.2 ⟨rfl, rfl⟩ [] _ (by simp) rfl).1 3⟩

/-- The frame fits and is accepted, and the first read reports `BAD_STATE`. -/
theorem dataThenClose_badState :
    (∃ l, Runs.run (Ledger.step (OnFull.refuse UInt8)) { endpoint := smallServer } dataThenClose =
        some l ∧ l.accepted = [10, 11, 12] ∧ l.returned = [] ∧
        l.endpoint.held = [10, 11, 12] ∧
        l.endpoint.step (OnFull.refuse UInt8) (.read 3) =
          some (l.endpoint, [.ret Error.badState])) ∧
    ∃ l, Runs.run (Ledger.step (OnFull.refuse UInt8)) { endpoint := smallClient } dataThenClose =
        some l ∧ l.accepted = [10, 11, 12] ∧ l.returned = [] ∧
        l.endpoint.held = [10, 11, 12] ∧
        l.endpoint.step (OnFull.refuse UInt8) (.read 3) =
          some (l.endpoint, [.ret Error.badState]) :=
  ⟨⟨_, rfl, by decide +kernel, by decide +kernel, by decide +kernel, rfl⟩,
    ⟨_, rfl, by decide +kernel, by decide +kernel, by decide +kernel, rfl⟩⟩

end PicoLan
