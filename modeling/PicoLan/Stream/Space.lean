import PicoLan.Stream.Endpoint

/-!
# Room in the ring buffer

`on_data` advances `remote_sequence` and acknowledges a frame whether or not
`put` has stored its bytes.  A `Ledger` keeps, beside an endpoint, the bytes its
`read` calls have returned and the bytes of the frames it has accepted; the two
balance exactly while every accepted frame fits (`ledger_balances_iff`).
-/

namespace PicoLan

variable (F : OnFull UInt8)

/-! ## Accepted frames -/

/-- A DATA frame for which `remote_sequence` is advanced. -/
def SocketStream.Takes (k : Kind) (s : SocketStream) (address : UInt8) (a : Arrival) : Prop :=
  a.data.cell 0 = MessageType.data ∧
    (s.handle F k address a).1.remoteSequence ≠ s.remoteSequence

instance (k : Kind) (s : SocketStream) (address : UInt8) (a : Arrival) :
    Decidable (s.Takes F k address a) :=
  inferInstanceAs (Decidable (_ ∧ _))

def SocketStream.acceptedAll (k : Kind) (s : SocketStream) (address : UInt8) :
    List Arrival → List UInt8
  | [] => []
  | a :: as => (if s.Takes F k address a then a.body else []) ++
      acceptedAll k (s.handle F k address a).1 address as

/-- Each frame that is accepted finds room for its bytes. -/
def SocketStream.AllFit (k : Kind) (s : SocketStream) (address : UInt8) : List Arrival → Prop
  | [] => True
  | a :: as => (s.Takes F k address a → a.body.length ≤ s.ringbuf.free) ∧
      AllFit k (s.handle F k address a).1 address as

instance SocketStream.AllFit.decidable (k : Kind) (address : UInt8) :
    ∀ (s : SocketStream) (as : List Arrival), Decidable (s.AllFit F k address as)
  | _, [] => isTrue trivial
  | s, a :: as =>
    have := AllFit.decidable k address (s.handle F k address a).1 as
    inferInstanceAs (Decidable ((s.Takes F k address a → a.body.length ≤ s.ringbuf.free) ∧
      (s.handle F k address a).1.AllFit F k address as))

theorem add_one_ne (b : UInt8) : b + 1 ≠ b := by
  intro h
  have := congrArg UInt8.toNat h
  rw [UInt8.toNat_add, UInt8.toNat_one] at this
  have := b.toNat_lt
  omega

theorem SocketStream.handle_cases (k : Kind) (s : SocketStream) (address : UInt8) (a : Arrival) :
    (s.Takes F k address a ∧ (s.handle F k address a).1.ringbuf = s.ringbuf.putAll F a.body) ∨
      (¬ s.Takes F k address a ∧ (s.handle F k address a).1.ringbuf = s.ringbuf) := by
  unfold Takes handle
  by_cases hf : a.IsFor address s.port
  · rw [if_pos hf]
    have hr := receive_reaction F k s address a
    generalize s.receive F k address a = io at hr ⊢
    cases hr with
    | accepted hs hd hq =>
      have hne : a.data.cell 1 ≠ s.remoteSequence := by
        rw [hq.cell]
        exact add_one_ne _
      exact .inl ⟨⟨hd, hne⟩, by rw [Arrival.data_rest]⟩
    | answered hs hd => exact .inr ⟨fun h => absurd (hd.symm.trans h.1) (by decide), rfl⟩
    | called hs hd => exact .inr ⟨fun h => absurd (hd.symm.trans h.1) (by decide), rfl⟩
    | _ => exact .inr ⟨fun h => h.2 rfl, rfl⟩
  · rw [if_neg hf]
    exact .inr ⟨fun h => h.2 rfl, rfl⟩

/-- The ring buffer takes the bytes of accepted frames and of no others. -/
theorem SocketStream.handle_ringbuf (k : Kind) (s : SocketStream) (address : UInt8)
    (a : Arrival) : (s.handle F k address a).1.ringbuf =
      if s.Takes F k address a then s.ringbuf.putAll F a.body else s.ringbuf := by
  rcases handle_cases F k s address a with ⟨h, hring⟩ | ⟨h, hring⟩
  · rw [if_pos h, hring]
  · rw [if_neg h, hring]

theorem SocketStream.handleAll_length (k : Kind) (s : SocketStream) (address : UInt8)
    (as : List Arrival) : (s.handleAll F k address as).1.ringbuf.toList.length ≤
      s.ringbuf.toList.length + (s.acceptedAll F k address as).length := by
  induction as generalizing s with
  | nil => exact Nat.le_refl _
  | cons a as ih =>
    have hrest := ih (s.handle F k address a).1
    have hhead : (s.handle F k address a).1.ringbuf.toList.length ≤ s.ringbuf.toList.length +
        (if s.Takes F k address a then a.body else []).length := by
      rw [handle_ringbuf]
      split
      · exact RingBuffer.length_putAll_le F _ _
      · exact Nat.le_refl _
    simp only [handleAll, acceptedAll, List.length_append] at hrest ⊢
    omega

theorem SocketStream.handleAll_fit (k : Kind) (s : SocketStream) (address : UInt8)
    (as : List Arrival) (h : s.AllFit F k address as) :
    (s.handleAll F k address as).1.ringbuf.toList =
      s.ringbuf.toList ++ s.acceptedAll F k address as := by
  induction as generalizing s with
  | nil => exact (List.append_nil _).symm
  | cons a as ih =>
    simp only [handleAll, acceptedAll]
    rw [ih _ h.2, handle_ringbuf, ← List.append_assoc]
    split
    · next ht => rw [RingBuffer.putAll_of_fits F _ _ (h.1 ht)]
    · rw [List.append_nil]

theorem SocketStream.handleAll_not_fit (k : Kind) (s : SocketStream) (address : UInt8)
    (as : List Arrival) (h : ¬ s.AllFit F k address as) :
    (s.handleAll F k address as).1.ringbuf.toList.length <
      s.ringbuf.toList.length + (s.acceptedAll F k address as).length := by
  induction as generalizing s with
  | nil => exact absurd trivial h
  | cons a as ih =>
    simp only [handleAll, acceptedAll, List.length_append]
    by_cases hfit : s.Takes F k address a → a.body.length ≤ s.ringbuf.free
    · -- it is a later frame that does not fit
      have hrest := ih (s.handle F k address a).1 (fun hall => h ⟨hfit, hall⟩)
      rw [handle_ringbuf] at hrest
      split at hrest
      · next ht =>
        have := RingBuffer.length_putAll_le F s.ringbuf a.body
        rw [if_pos ht]
        omega
      · next ht =>
        rw [if_neg ht, List.length_nil]
        omega
    · obtain ⟨ht, hfull⟩ := Classical.not_imp.mp hfit
      have hhead := RingBuffer.length_putAll_lt F s.ringbuf a.body (Nat.lt_of_not_le hfull)
      have hrest := handleAll_length F k (s.handle F k address a).1 address as
      rw [handle_ringbuf, if_pos ht] at hrest
      rw [if_pos ht]
      omega

/-! ## What a call holds -/

/-- The bytes a running `read` has put into the caller's buffer. -/
def Endpoint.inHand (e : Endpoint) : List UInt8 :=
  match e.call with
  | .reading got _ => got
  | _ => []

def Endpoint.held (e : Endpoint) : List UInt8 := e.inHand ++ e.socket.ringbuf.toList

/-- The bytes returned by `read`. -/
def gotten : List Output → List UInt8
  | [] => []
  | .got bytes :: out => bytes ++ gotten out
  | _ :: out => gotten out

theorem gotten_append (out out' : List Output) : gotten (out ++ out') = gotten out ++ gotten out' := by
  induction out with
  | nil => rfl
  | cons o out ih => cases o <;> simp [gotten, ih]

@[simp] theorem gotten_sent (ps : List DatagramPack) : gotten (ps.map .sent) = [] := by
  induction ps with
  | nil => rfl
  | cons p ps ih => exact ih

namespace Endpoint

theorem disconnect_ringbuf (s : SocketStream) (address : UInt8) :
    (s.disconnect address).1.ringbuf = s.ringbuf := by
  rw [disconnect_socket]

theorem endRead_held (e : Endpoint) (got : List UInt8) :
    gotten (e.endRead got).2 ++ (e.endRead got).1.held = got ++ e.socket.ringbuf.toList := by
  unfold endRead
  dsimp only
  split
  · split
    · simp [gotten_append, gotten, held, inHand, disconnect_ringbuf]
    · simp [gotten, held, inHand]
  · simp [gotten, held, inHand]

theorem goOnReading_held (e : Endpoint) (got : List UInt8) (len : Nat) :
    gotten (e.goOnReading got len).2 ++ (e.goOnReading got len).1.held =
      got ++ e.socket.ringbuf.toList := by
  have hdrain := e.socket.ringbuf.drain_append (len - got.length)
  unfold goOnReading
  dsimp only
  split
  · simp [gotten, held, inHand, hdrain]
  · rw [endRead_held, List.append_assoc, hdrain]

theorem hangUp_held (e : Endpoint) (r : Int) :
    gotten (e.hangUp r).2 ++ (e.hangUp r).1.held = e.socket.ringbuf.toList := by
  simp [hangUp, gotten_append, gotten, held, inHand, disconnect_ringbuf]

theorem evaluate_ringbuf (w : WriteCall) (s : SocketStream) :
    (w.evaluate s).1.ringbuf = s.ringbuf := by
  rw [w.evaluate_socket]

theorem resume_held (e : Endpoint) (late : Bool) :
    gotten (e.resume late).2 ++ (e.resume late).1.held = e.held := by
  unfold resume
  split
  · rfl
  · next hc =>
    split
    · simp [returns, gotten, held, inHand, hc]
    split
    · rfl
    split
    · rw [hangUp_held]; simp [held, inHand, hc]
    · simp [gotten, held, inHand, hc]
  · next hc =>
    split
    · rw [hangUp_held]; simp [held, inHand, hc]
    split
    · rfl
    split
    · rw [hangUp_held]; simp [held, inHand, hc]
    · simp [returns, gotten, held, inHand, hc]
  · next got len hc =>
    split
    · rw [endRead_held]; simp [held, inHand, hc]
    · rw [goOnReading_held]; simp [held, inHand, hc]
  · next w hc =>
    have heval := evaluate_ringbuf w e.socket
    split
    · rfl
    · simp [gotten, held, inHand, hc]
    · split
      · unfold afterPass
        split <;>
          next heq =>
            rw [heq] at heval
            dsimp only at heval
            simp [gotten, held, inHand, hc, heval]
      · rfl

end Endpoint

/-! ## The ledger -/

/-- An endpoint, what has been read from it and what it has accepted. -/
structure Ledger where
  endpoint : Endpoint
  returned : List UInt8 := []
  accepted : List UInt8 := []

/-- The bytes of the frames that are accepted in a step. -/
def Endpoint.acceptedIn (e : Endpoint) : Action → List UInt8
  | .poll as _ => e.socket.acceptedAll F e.kind e.address as
  | _ => []

def Endpoint.FitsIn (e : Endpoint) : Action → Prop
  | .poll as _ => e.socket.AllFit F e.kind e.address as
  | _ => True

instance (e : Endpoint) (a : Action) : Decidable (e.FitsIn F a) := by
  cases a <;> unfold Endpoint.FitsIn <;> infer_instance

def Ledger.step (l : Ledger) (a : Action) : Option Ledger :=
  (l.endpoint.step F a).map fun (e, out) =>
    { endpoint := e
      returned := l.returned ++ gotten out
      accepted := l.accepted ++ l.endpoint.acceptedIn F a }

theorem Endpoint.step_held {e e' : Endpoint} {a : Action} {out : List Output}
    (h : e.step F a = some (e', out)) (ha : ∀ as late, a ≠ .poll as late) :
    gotten out ++ e'.held = e.held := by
  cases a with
  | poll as late => exact absurd rfl (ha as late)
  | burst =>
    obtain ⟨w, hc, -, rfl, rfl⟩ := step_burst.mp h
    simp [gotten, held, inHand, hc]
  | connect r port =>
    obtain ⟨-, hc, rfl, rfl⟩ := step_connect.mp h
    unfold connect
    split <;> simp [returns, gotten, held, inHand, hc, SocketStream.sendSyn]
  | listen =>
    obtain ⟨-, hc, rfl, rfl⟩ := step_listen.mp h
    unfold listen
    split <;> simp [gotten, held, inHand, hc]
  | accept =>
    obtain ⟨-, hc, rfl, rfl⟩ := step_accept.mp h
    unfold accept
    split <;> simp [gotten, held, inHand, hc, SocketStream.sendSyn]
  | disconnect =>
    obtain ⟨hc, rfl, rfl⟩ := step_disconnect.mp h
    simp [disconnect, held, inHand, hc, disconnect_ringbuf]
  | write bytes =>
    obtain ⟨hc, rfl, rfl⟩ := step_write.mp h
    unfold write
    split
    · simp [gotten, held, inHand, hc]
    split <;> simp [gotten, held, inHand, hc]
  | read len =>
    obtain ⟨hc, rfl, rfl⟩ := step_read.mp h
    unfold read
    split
    · simp [gotten, held, inHand, hc]
    · rw [goOnReading_held]; simp [held, inHand, hc]

/-- A poll moves the bytes of the accepted frames into the ring buffer, if they
fit. -/
theorem Endpoint.step_poll_held {e e' : Endpoint} {as : List Arrival} {late : Bool}
    {out : List Output} (h : e.step F (.poll as late) = some (e', out)) :
    gotten out ++ e'.held =
      e.inHand ++ (e.socket.handleAll F e.kind e.address as).1.ringbuf.toList := by
  obtain ⟨-, rfl, rfl⟩ := step_poll.mp h
  have htake : gotten (e.takeAll F as).2 = [] := gotten_sent _
  rw [gotten_append, htake, List.nil_append, resume_held]
  rfl

/-! ## The balance -/

def Ledger.total (l : Ledger) : List UInt8 := l.returned ++ l.endpoint.held

/-- What has come out and what is still there, against `start` and what went in. -/
def Ledger.Balanced (start : List UInt8) (l : Ledger) : Prop := l.total = start ++ l.accepted

theorem Ledger.step_total {l l' : Ledger} {a : Action} (h : l.step F a = some l') :
    (l.endpoint.FitsIn F a → l'.total = l.total ++ l.endpoint.acceptedIn F a) ∧
      l'.total.length ≤ l.total.length + (l.endpoint.acceptedIn F a).length ∧
      (¬ l.endpoint.FitsIn F a →
        l'.total.length < l.total.length + (l.endpoint.acceptedIn F a).length) ∧
      l'.accepted = l.accepted ++ l.endpoint.acceptedIn F a := by
  obtain ⟨⟨e, out⟩, hstep, rfl⟩ := Option.map_eq_some_iff.mp h
  unfold Ledger.total
  by_cases hp : ∃ as late, a = .poll as late
  · obtain ⟨as, late, rfl⟩ := hp
    have hheld := Endpoint.step_poll_held F hstep
    dsimp only
    rw [List.append_assoc, hheld]
    unfold Endpoint.held Endpoint.FitsIn Endpoint.acceptedIn
    refine ⟨?_, ?_, ?_, rfl⟩
    · intro hfit
      rw [SocketStream.handleAll_fit F _ _ _ _ hfit]
      simp only [List.append_assoc]
    · have := l.endpoint.socket.handleAll_length F l.endpoint.kind l.endpoint.address as
      simp only [List.length_append]
      omega
    · intro hfit
      have := l.endpoint.socket.handleAll_not_fit F l.endpoint.kind l.endpoint.address as hfit
      simp only [List.length_append]
      omega
  · have hne : ∀ as late, a ≠ .poll as late := fun as late ha => hp ⟨as, late, ha⟩
    have hheld := Endpoint.step_held F hstep hne
    have hnone : l.endpoint.acceptedIn F a = [] := by
      cases a with
      | poll as late => exact absurd rfl (hne as late)
      | _ => rfl
    have hfits : l.endpoint.FitsIn F a := by
      cases a with
      | poll as late => exact absurd rfl (hne as late)
      | _ => trivial
    dsimp only
    rw [List.append_assoc, hheld, hnone]
    exact ⟨fun _ => (List.append_nil _).symm, Nat.le_refl _, fun hfit => absurd hfits hfit, rfl⟩

/-- What has been lost does not come back. -/
theorem Ledger.run_short (start : List UInt8) {l l' : Ledger} {as : List Action}
    (hl : l.total.length < (start ++ l.accepted).length)
    (h : Runs.run (Ledger.step F) l as = some l') :
    l'.total.length < (start ++ l'.accepted).length := by
  refine Runs.run_always (I := fun l => l.total.length < (start ++ l.accepted).length) ?_ hl h
  intro l a l' hl h
  obtain ⟨-, hle, -, hacc⟩ := step_total F h
  rw [hacc]
  simp only [List.length_append] at hl ⊢
  omega

theorem Ledger.balanced_iff (start : List UInt8) (l l' : Ledger) (hl : l.Balanced start)
    (as : List Action) (h : Runs.run (Ledger.step F) l as = some l') :
    l'.Balanced start ↔ Runs.Meets (Ledger.step F) (fun l a => l.endpoint.FitsIn F a) l as := by
  induction as generalizing l with
  | nil =>
    cases h
    exact ⟨fun _ => trivial, fun _ => hl⟩
  | cons a as ih =>
    obtain ⟨m, hm, h⟩ := Runs.run_cons.mp h
    obtain ⟨hfit, -, hshort, hacc⟩ := step_total F hm
    by_cases hf : l.endpoint.FitsIn F a
    · have hbal : m.Balanced start := by
        unfold Balanced at hl ⊢
        rw [hfit hf, hl, hacc, List.append_assoc]
      rw [ih m hbal h]
      constructor
      · intro hrest
        refine ⟨hf, fun t ht => ?_⟩
        cases hm.symm.trans ht
        exact hrest
      · exact fun hall => hall.2 m hm
    · constructor
      · intro hbal
        have hlt : m.total.length < (start ++ m.accepted).length := by
          have := hshort hf
          rw [hacc]
          unfold Balanced at hl
          rw [hl] at this
          simp only [List.length_append] at this ⊢
          omega
        have hend := run_short F start hlt h
        rw [hbal] at hend
        exact absurd hend (Nat.lt_irrefl _)
      · exact fun hall => absurd hall.1 hf

/-- **Room.**  In any run, the bytes returned by the reads with those still held
are those held at first with those of the accepted frames, exactly when every
accepted frame found room. -/
theorem balances_iff (e : Endpoint) (as : List Action) (l : Ledger)
    (h : Runs.run (Ledger.step F) { endpoint := e } as = some l) :
    l.returned ++ l.endpoint.held = e.held ++ l.accepted ↔
      Runs.Meets (Ledger.step F) (fun l a => l.endpoint.FitsIn F a) { endpoint := e } as :=
  Ledger.balanced_iff F e.held { endpoint := e } l (List.append_nil _).symm as h

/-! ## A frame longer than the buffer -/

/-- An open server with a ring buffer of four bytes. -/
def smallServer : Endpoint where
  kind := .server
  address := 1
  socket :=
    { port := 80, remote := 7, ringbuf := .empty 4, state := .opened, remoteSequence := 5,
      remotePort := 9 }

def dataFrom7 (seq : UInt8) (body : List UInt8) : Arrival where
  pack := ⟨6, 7, 1, 80, BoundedList.empty.appendAll ([MessageType.data, seq] ++ body)⟩
  behind _ := 0

theorem smallServer_balances : ∃ l,
    Runs.run (Ledger.step (OnFull.refuse UInt8)) { endpoint := smallServer }
      [.poll [dataFrom7 6 [10, 11, 12]] false, .read 2, .poll [dataFrom7 7 [13, 14]] false] =
        some l ∧
      (l.returned ++ l.endpoint.held = smallServer.held ++ l.accepted ↔
        Runs.Meets (Ledger.step (OnFull.refuse UInt8))
          (fun l a => l.endpoint.FitsIn (OnFull.refuse UInt8) a) { endpoint := smallServer }
          [.poll [dataFrom7 6 [10, 11, 12]] false, .read 2,
            .poll [dataFrom7 7 [13, 14]] false]) :=
  ⟨_, rfl, balances_iff (OnFull.refuse UInt8) smallServer _ _ rfl⟩

/-- Five bytes come, and four are read. -/
def tightRead : List Action := [.poll [dataFrom7 6 [10, 11, 12, 13, 14]] false, .read 4]

/-- The frame is acknowledged, and its last byte is gone, or its first one. -/
theorem longFrame_short :
    (∃ l, Runs.run (Ledger.step (OnFull.refuse UInt8)) { endpoint := smallServer } tightRead =
        some l ∧ l.endpoint.socket.remoteSequence = 6 ∧ l.returned = [10, 11, 12, 13] ∧
        l.returned ++ l.endpoint.held ≠ smallServer.held ++ l.accepted) ∧
    ∃ l, Runs.run (Ledger.step (OnFull.overwrite UInt8)) { endpoint := smallServer } tightRead =
        some l ∧ l.endpoint.socket.remoteSequence = 6 ∧ l.returned = [11, 12, 13, 14] ∧
        l.returned ++ l.endpoint.held ≠ smallServer.held ++ l.accepted :=
  ⟨⟨_, rfl, by decide +kernel, by decide +kernel, by decide +kernel⟩,
    ⟨_, rfl, by decide +kernel, by decide +kernel, by decide +kernel⟩⟩

end PicoLan
