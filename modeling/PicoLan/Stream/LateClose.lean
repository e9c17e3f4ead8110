import PicoLan.Stream.DeadLink

/-!
# A CLOSE while `write` runs

`write` looks at the state once, when it is called, but every `iface->read()` in it
can close the stream.  What it sends after that goes out all the same, and it can
report success; it behaves only where the CLOSE comes in the wait of a pass that
fails anyway (`lateClose_iff`).
-/

namespace PicoLan

def DatagramPack.IsData (p : DatagramPack) : Prop := p.payload.toList.head? = some MessageType.data

instance (p : DatagramPack) : Decidable p.IsData := inferInstanceAs (Decidable (_ = _))

theorem message_isData (s : SocketStream) (address t : UInt8) (rest : List UInt8) :
    (s.message address (t :: rest)).IsData ↔ t = MessageType.data := by
  unfold DatagramPack.IsData
  rw [message_payload, payloadSz, List.take_succ_cons, List.head?_cons, Option.some.injEq]

section

variable (F : OnFull UInt8)

/-- The state of the stream when the running call goes on. -/
def Endpoint.stateAt (e : Endpoint) : Action → ConnectionState
  | .poll as _ => (e.takeAll F as).1.socket.state
  | _ => e.socket.state

/-- In this step no DATA packet is sent unless the stream is open, and no `write`
returns from a closed one but with an error. -/
def Endpoint.Decent (e : Endpoint) (a : Action) : Prop :=
  ∀ e' out, e.step F a = some (e', out) →
    (∀ p ∈ sentOf out, p.IsData → e.stateAt F a = .opened) ∧
    ((∃ w, e.call = .writing w) → e'.call = .idle → e'.socket.state ≠ .opened →
      ∃ r, retsOf out = [r] ∧ r < 0)

/-- The wait is bound to end in `TIMEOUT` or `ACK_OUT_OF_SEQUENCE`. -/
def WriteCall.Fails (w : WriteCall) (s : SocketStream) : Prop :=
  (s.lastRecvedAck = s.sequenceNumber ∧ w.noAckCount + 1 = 3) ∨
    (s.lastRecvedAck ≠ s.sequenceNumber ∧ ∀ j < 4, s.lastRecvedAck ≠ (w.frameBytePos j).seq)

instance (w : WriteCall) (s : SocketStream) : Decidable (w.Fails s) :=
  inferInstanceAs (Decidable ((_ ∧ _) ∨ (_ ∧ ∀ j < 4, _)))

/-- No CLOSE is handled in a running `write`, except while it waits in vain. -/
def Endpoint.Undisturbing (e : Endpoint) (a : Action) : Prop :=
  ∀ w as late, e.call = .writing w → a = .poll as late →
    (e.takeAll F as).1.socket.state = .opened ∨
      (w.pc = .waiting ∧ w.Fails (e.takeAll F as).1.socket)

theorem Endpoint.undisturbing_poll {e : Endpoint} {w : WriteCall} (hcall : e.call = .writing w)
    (as : List Arrival) (late : Bool) : e.Undisturbing F (.poll as late) ↔
      (e.takeAll F as).1.socket.state = .opened ∨
        (w.pc = .waiting ∧ w.Fails (e.takeAll F as).1.socket) := by
  constructor
  · exact fun h => h w as late hcall rfl
  · intro h w' as' late' hw' ha
    cases hcall.symm.trans hw'
    cases ha
    exact h

theorem Endpoint.undisturbing_other {e : Endpoint} {a : Action}
    (h : ∀ w as late, e.call = .writing w → a ≠ .poll as late) : e.Undisturbing F a :=
  fun w as late hcall ha => absurd ha (h w as late hcall)

/-! ## What the other calls send -/

theorem SocketStream.handle_noData (k : Kind) (s : SocketStream) (address : UInt8) (a : Arrival) :
    ∀ p ∈ (s.handle F k address a).2, ¬ p.IsData := by
  have hack : ∀ (s : SocketStream) (n : UInt8), ¬ (s.message address [MessageType.ack, n]).IsData :=
    fun s n h => absurd ((message_isData _ _ _ _).mp h) (by decide)
  unfold handle
  split
  · have hr := receive_reaction F k s address a
    generalize s.receive F k address a = io at hr ⊢
    cases hr with
    | accepted =>
      intro p hp
      obtain rfl := List.mem_singleton.mp hp
      exact hack _ _
    | refused =>
      intro p hp
      obtain rfl := List.mem_singleton.mp hp
      exact hack _ _
    | _ => exact fun p hp => (by cases hp)
  · exact fun p hp => (by cases hp)

theorem SocketStream.handleAll_noData (k : Kind) (s : SocketStream) (address : UInt8)
    (as : List Arrival) : ∀ p ∈ (s.handleAll F k address as).2, ¬ p.IsData := by
  induction as generalizing s with
  | nil => exact fun p hp => (by cases hp)
  | cons a as ih =>
    intro p hp
    rcases List.mem_append.mp hp with hp | hp
    · exact handle_noData F k s address a p hp
    · exact ih _ p hp

/-- An open stream stays open or is closed. -/
theorem SocketStream.handle_state (k : Kind) (s : SocketStream) (address : UInt8) (a : Arrival)
    (hs : s.state = .opened ∨ s.state = .closed) : (s.handle F k address a).1.state = .opened ∨
      (s.handle F k address a).1.state = .closed := by
  unfold handle
  split
  · have hr := receive_reaction F k s address a
    generalize s.receive F k address a = io at hr ⊢
    cases hr with
    | answered h => rcases hs with hs | hs <;> exact absurd (hs.symm.trans h) (by decide)
    | called h => rcases hs with hs | hs <;> exact absurd (hs.symm.trans h) (by decide)
    | confirmed h => rcases hs with hs | hs <;> exact absurd (hs.symm.trans h) (by decide)
    | hungUp => exact .inr rfl
    | _ => exact hs
  · exact hs

theorem SocketStream.handleAll_state (k : Kind) (s : SocketStream) (address : UInt8)
    (as : List Arrival) (hs : s.state = .opened ∨ s.state = .closed) :
    (s.handleAll F k address as).1.state = .opened ∨
      (s.handleAll F k address as).1.state = .closed := by
  induction as generalizing s with
  | nil => exact hs
  | cons a as ih => exact ih _ (handle_state F k s address a hs)

end

namespace Endpoint

theorem disconnect_noData (s : SocketStream) (address : UInt8) :
    ∀ p ∈ (s.disconnect address).2, ¬ p.IsData := by
  intro p hp
  rw [mem_disconnect hp, message_isData]
  decide

theorem endRead_noData (e : Endpoint) (got : List UInt8) :
    (∀ p ∈ sentOf (e.endRead got).2, ¬ p.IsData) := by
  unfold endRead
  dsimp only
  split
  · split
    · rw [sentOf_append, sentOf_sent]
      intro p hp
      exact disconnect_noData _ _ p (by simpa [sentOf] using hp)
    · exact fun p hp => (by cases hp)
  · exact fun p hp => (by cases hp)

theorem goOnReading_noData (e : Endpoint) (got : List UInt8) (len : Nat) :
    ∀ p ∈ sentOf (e.goOnReading got len).2, ¬ p.IsData := by
  unfold goOnReading
  dsimp only
  split
  · exact fun p hp => (by cases hp)
  · exact endRead_noData _ _

theorem hangUp_noData (e : Endpoint) (r : Int) : ∀ p ∈ sentOf (e.hangUp r).2, ¬ p.IsData := by
  show ∀ p ∈ sentOf ((e.socket.disconnect e.address).2.map .sent ++ [.ret r]), ¬ p.IsData
  rw [sentOf_append, sentOf_sent]
  intro p hp
  exact disconnect_noData _ _ p (by simpa [sentOf] using hp)

theorem endRead_idle (e : Endpoint) (got : List UInt8) : (e.endRead got).1.call = .idle := by
  unfold endRead
  dsimp only
  split
  · split <;> rfl
  · rfl

/-- A call that is no `write` does not become one, and sends no data. -/
theorem resume_other {e : Endpoint} (he : ∀ w, e.call ≠ .writing w) (late : Bool) :
    (∀ p ∈ sentOf (e.resume late).2, ¬ p.IsData) ∧ ∀ w, (e.resume late).1.call ≠ .writing w := by
  have hread : ∀ (e : Endpoint) (got : List UInt8) (w : WriteCall),
      (e.endRead got).1.call ≠ .writing w := by
    intro e got w
    rw [endRead_idle]
    simp
  unfold resume
  split
  · exact ⟨fun p hp => (by cases hp), he⟩
  · split
    · exact ⟨fun p hp => (by cases hp), fun w h => (by cases h)⟩
    split
    · exact ⟨fun p hp => (by cases hp), he⟩
    split
    · exact ⟨hangUp_noData _ _, fun w h => (by cases h)⟩
    · refine ⟨fun p hp => ?_, fun w h => (by cases h)⟩
      obtain rfl := List.mem_singleton.mp hp
      exact fun h => absurd ((message_isData _ _ _ _).mp h) (by decide)
  · split
    · exact ⟨hangUp_noData _ _, fun w h => (by cases h)⟩
    split
    · exact ⟨fun p hp => (by cases hp), he⟩
    split
    · exact ⟨hangUp_noData _ _, fun w h => (by cases h)⟩
    · exact ⟨fun p hp => (by cases hp), fun w h => (by cases h)⟩
  · next got len _ =>
    split
    · exact ⟨endRead_noData _ _, hread _ _⟩
    · refine ⟨goOnReading_noData _ _ _, ?_⟩
      unfold goOnReading
      dsimp only
      split
      · exact fun w h => (by cases h)
      · exact hread _ _
  · next w hw => exact absurd hw (he w)

theorem takeAll_noData (F : OnFull UInt8) (e : Endpoint) (as : List Arrival) :
    ∀ p ∈ sentOf (e.takeAll F as).2, ¬ p.IsData := by
  show ∀ p ∈ sentOf ((e.socket.handleAll F e.kind e.address as).2.map .sent), ¬ p.IsData
  rw [sentOf_sent]
  exact SocketStream.handleAll_noData F e.kind e.socket e.address as

/-- Only `write()` begins a `write`, on an open stream. -/
theorem step_other {F : OnFull UInt8} {e e' : Endpoint} {a : Action} {out : List Output}
    (he : ∀ w, e.call ≠ .writing w) (h : e.step F a = some (e', out)) :
    (∀ p ∈ sentOf out, ¬ p.IsData) ∧ ∀ w, e'.call = .writing w → ∃ bytes, a = .write bytes ∧
      e'.socket.state = .opened ∧ bytes ≠ [] ∧ w = { bytes } := by
  have hnone : ∀ e' : Endpoint, e'.call = e.call → ∀ w, e'.call = .writing w → ∃ bytes,
      a = .write bytes ∧ e'.socket.state = .opened ∧ bytes ≠ [] ∧ w = { bytes } :=
    fun e' hcall w hw => absurd (hcall.symm.trans hw) (he w)
  have hmsg : ∀ (s : SocketStream) (address t : UInt8) (rest : List UInt8), t ≠ MessageType.data →
      ¬ (s.message address (t :: rest)).IsData :=
    fun s address t rest ht hd => ht ((message_isData s address t rest).mp hd)
  cases a with
  | poll as late =>
    obtain ⟨-, rfl, rfl⟩ := step_poll.mp h
    have htake : ∀ w, (e.takeAll F as).1.call ≠ .writing w := he
    obtain ⟨hsent, hcall⟩ := resume_other htake late
    refine ⟨fun p hp => ?_, fun w hw => absurd hw (hcall w)⟩
    rw [sentOf_append] at hp
    rcases List.mem_append.mp hp with hp | hp
    · exact takeAll_noData F e as p hp
    · exact hsent p hp
  | burst =>
    obtain ⟨w, hcall, -⟩ := step_burst.mp h
    exact absurd hcall (he w)
  | connect r port =>
    obtain ⟨-, hidle, rfl, rfl⟩ := step_connect.mp h
    unfold connect
    split
    · exact ⟨fun p hp => (by cases hp), fun w hw => (by cases hw)⟩
    · refine ⟨fun p hp => ?_, fun w hw => (by cases hw)⟩
      obtain rfl := List.mem_singleton.mp hp
      exact hmsg _ _ _ _ (by decide)
  | listen =>
    obtain ⟨-, hidle, rfl, rfl⟩ := step_listen.mp h
    unfold listen
    split
    · exact ⟨fun p hp => (by cases hp), hnone _ rfl⟩
    · exact ⟨fun p hp => (by cases hp), hnone _ rfl⟩
  | accept =>
    obtain ⟨-, hidle, rfl, rfl⟩ := step_accept.mp h
    unfold accept
    split
    · refine ⟨fun p hp => ?_, fun w hw => (by cases hw)⟩
      rcases List.mem_pair.mp hp with rfl | rfl
      · exact hmsg _ _ _ _ (by decide)
      · exact hmsg _ _ _ _ (by decide)
    · exact ⟨fun p hp => (by cases hp), hnone _ rfl⟩
  | disconnect =>
    obtain ⟨hidle, rfl, rfl⟩ := step_disconnect.mp h
    refine ⟨?_, hnone _ rfl⟩
    show ∀ p ∈ sentOf ((e.socket.disconnect e.address).2.map .sent), ¬ p.IsData
    rw [sentOf_sent]
    exact disconnect_noData e.socket e.address
  | write bytes =>
    obtain ⟨hidle, rfl, rfl⟩ := step_write.mp h
    unfold write
    split
    · exact ⟨fun p hp => (by cases hp), hnone _ rfl⟩
    split
    · exact ⟨fun p hp => (by cases hp), hnone _ rfl⟩
    · next hstate hlen =>
      refine ⟨fun p hp => (by cases hp), fun w hw => ⟨bytes, rfl, Classical.not_not.mp hstate, ?_, ?_⟩⟩
      · rintro rfl
        exact hlen rfl
      · cases hw
        rfl
  | read len =>
    obtain ⟨hidle, rfl, rfl⟩ := step_read.mp h
    unfold read
    split
    · exact ⟨fun p hp => (by cases hp), hnone _ rfl⟩
    · refine ⟨goOnReading_noData e [] len, fun w hw => ?_⟩
      unfold goOnReading at hw
      dsimp only at hw
      split at hw
      · cases hw
      · rw [endRead_idle] at hw
        cases hw

end Endpoint

/-! ## A `write` and its stream -/

section

variable {F : OnFull UInt8}

/-- A running `write` has an open stream, or waits in vain on a closed one. -/
def Endpoint.Steady (e : Endpoint) : Prop :=
  ∀ w, e.call = .writing w → e.socket.state = .opened ∨
    (e.socket.state = .closed ∧ w.pc = .waiting ∧ w.Fails e.socket)

theorem WriteCall.Fails.evaluate {w : WriteCall} {s : SocketStream} (h : w.Fails s) :
    ∃ v, w.evaluate s = (s, .returns v) ∧ v < 0 := by
  rcases h with ⟨hack, h3⟩ | ⟨hack, hslots⟩
  · refine ⟨Error.timeout, ?_, by decide⟩
    unfold WriteCall.evaluate
    rw [if_pos hack]
    exact if_pos h3
  · exact ⟨Error.ackOutOfSequence, w.evaluate_notFound s hack hslots, by decide⟩

/-- A pass that does not fail is followed by another one or reports success. -/
theorem AllSent.evaluate_of_not_fails {q : UInt8} {p : Nat} {w : WriteCall} (hw : AllSent q p w)
    (hp : p < w.len) (s : SocketStream) (hq : s.sequenceNumber = q) (h : ¬ w.Fails s) :
    (w.evaluate s).1.state = s.state ∧ ((∃ w', (w.evaluate s).2 = .goesOn w' ∧ w'.pc = .top ∧
      w'.bytes = w.bytes) ∨ (w.evaluate s).2 = .returns (asInt w.len)) := by
  have hverdict := hw.verdict hp s hq
  generalize w.evaluate s = r at hverdict ⊢
  cases hverdict with
  | timedOut hack h3 => exact absurd (.inl ⟨hack.trans hq.symm, h3⟩) h
  | retry => exact ⟨rfl, .inl ⟨_, rfl, rfl, rfl⟩⟩
  | cleared => exact ⟨rfl, .inl ⟨_, rfl, rfl, rfl⟩⟩
  | acked j =>
    refine ⟨rfl, ?_⟩
    by_cases hend : frameEnd w.len p j = w.len
    · exact .inr (WriteCall.again_returns _ hend)
    · exact .inl ⟨_, WriteCall.again_goesOn _ hend, rfl, rfl⟩
  | strange hack hframe hclear =>
    refine absurd (.inr ⟨by rwa [hq], fun j hj hslot => ?_⟩) h
    rcases (hw.slot_iff _ j).mp hslot with ⟨hlt, hj'⟩ | ⟨hge, h255⟩
    · exact hframe j hlt hj'
    · exact hclear ⟨h255, by omega⟩

/-! ## Steps that meet the condition -/

/-- Datagrams for a closed stream change nothing a waiting `write` looks at. -/
theorem Endpoint.takeAll_closed {e : Endpoint} (as : List Arrival) (hs : e.socket.state = .closed) :
    ∃ r, (e.takeAll F as).1 = { e with socket := { e.socket with remote := r } } := by
  obtain ⟨⟨r, hr⟩, -⟩ := SocketStream.handleAll_of_closed F e.kind e.socket e.address as hs
  refine ⟨r, ?_⟩
  unfold takeAll
  rw [hr]

theorem WriteCall.evaluate_state (w : WriteCall) (s : SocketStream) :
    (w.evaluate s).1.state = s.state := by
  rw [w.evaluate_socket]

theorem retsOf_sent (ps : List DatagramPack) : retsOf (ps.map .sent) = [] := by
  induction ps with
  | nil => rfl
  | cons p ps ih => exact ih

theorem WriteStep.decent {e e' : Endpoint} {w : WriteCall} {a : Action} {out : List Output}
    (h : WriteStep F e w a e' out) (hcall : e.call = .writing w) (hsteady : e.Steady)
    (hok : e.Undisturbing F a) :
    ((∀ p ∈ sentOf out, p.IsData → e.stateAt F a = .opened) ∧
      (e'.call = .idle → e'.socket.state ≠ .opened → ∃ r, retsOf out = [r] ∧ r < 0)) ∧
      e'.Steady := by
  have hrets : ∀ as, retsOf (e.takeAll F as).2 = [] := fun as => retsOf_sent _
  have hstate : ∀ as, (e.takeAll F as).1.socket.state = .opened ∨
      (e.takeAll F as).1.socket.state = .closed := by
    intro as
    refine SocketStream.handleAll_state F e.kind e.socket e.address as ?_
    rcases hsteady w hcall with hs | ⟨hs, -⟩
    · exact .inl hs
    · exact .inr hs
  have hdata : ∀ as p, p ∈ sentOf (e.takeAll F as).2 → ¬ p.IsData :=
    fun as => Endpoint.takeAll_noData F e as
  cases h with
  | burst hpc =>
    have hopen : e.socket.state = .opened := by
      rcases hsteady w hcall with hs | ⟨-, hpc', -⟩
      · exact hs
      · exact absurd (hpc.symm.trans hpc') (by simp)
    refine ⟨⟨fun p hp => (by cases hp), fun hidle => (by cases hidle)⟩, fun w' hw' => .inl hopen⟩
  | @frame as late i pack hpc =>
    have hopen : (e.takeAll F as).1.socket.state = .opened := by
      rcases hok w as late hcall rfl with hs | ⟨hpc', -⟩
      · exact hs
      · exact absurd (hpc.symm.trans hpc') (by simp)
    exact ⟨⟨fun p _ _ => hopen, fun hidle => (by cases hidle)⟩, fun w' hw' => .inl hopen⟩
  | @wait as late hpc hgo =>
    refine ⟨⟨fun p hp hd => absurd hd (hdata as p hp), fun hidle => ?_⟩, fun w' hw' => ?_⟩
    · exact absurd (hcall.symm.trans hidle) (by simp)
    · obtain rfl : w = w' := by injection hcall.symm.trans hw'
      rcases hok w as late hcall rfl with hs | ⟨-, hfails⟩
      · exact .inl hs
      · rcases hstate as with hs | hs
        · exact .inl hs
        · exact .inr ⟨hs, hpc, hfails⟩
  | @ended as late hpc hend =>
    have hsent : sentOf ((e.takeAll F as).2 ++ ((e.takeAll F as).1.afterPass
        (w.evaluate (e.takeAll F as).1.socket)).2) = sentOf (e.takeAll F as).2 := by
      rw [sentOf_append]
      generalize w.evaluate (e.takeAll F as).1.socket = r
      obtain ⟨s, r⟩ := r
      cases r <;> exact List.append_nil _
    rw [hsent]
    have hsock : ((e.takeAll F as).1.afterPass
        (w.evaluate (e.takeAll F as).1.socket)).1.socket.state =
          (e.takeAll F as).1.socket.state := by
      rw [← w.evaluate_state (e.takeAll F as).1.socket]
      generalize w.evaluate (e.takeAll F as).1.socket = r
      obtain ⟨s, r⟩ := r
      cases r <;> rfl
    rcases hok w as late hcall rfl with hs | ⟨-, hfails⟩
    · refine ⟨⟨fun p hp hd => absurd hd (hdata as p hp), fun _ hne => ?_⟩, fun w' _ => ?_⟩
      · exact absurd (hsock.trans hs) hne
      · exact .inl (hsock.trans hs)
    · obtain ⟨v, hev, hneg⟩ := hfails.evaluate
      rw [hev]
      refine ⟨⟨fun p hp hd => absurd hd (hdata as p hp), fun _ _ => ⟨v, ?_, hneg⟩⟩,
        fun w' hw' => (by cases hw')⟩
      show retsOf ((e.takeAll F as).2 ++ [.ret v]) = [v]
      rw [retsOf_append, hrets]
      rfl

theorem Endpoint.decent_step {e e' : Endpoint} {a : Action} {out : List Output}
    (hsteady : e.Steady) (hok : e.Undisturbing F a) (h : e.step F a = some (e', out)) :
    e.Decent F a ∧ e'.Steady := by
  by_cases hw : ∃ w, e.call = .writing w
  · obtain ⟨w, hcall⟩ := hw
    obtain ⟨⟨hsent, hret⟩, hsteady'⟩ := (writeStep F hcall h).decent hcall hsteady hok
    refine ⟨fun e₁ out₁ h₁ => ?_, hsteady'⟩
    obtain ⟨rfl, rfl⟩ : e' = e₁ ∧ out = out₁ := by
      have := h.symm.trans h₁
      exact Prod.ext_iff.mp (Option.some.inj this)
    exact ⟨hsent, fun _ => hret⟩
  · have he : ∀ w, e.call ≠ .writing w := fun w hcall => hw ⟨w, hcall⟩
    refine ⟨fun e₁ out₁ h₁ => ⟨fun p hp hd => ?_, fun hcall => absurd hcall hw⟩, fun w hcall => ?_⟩
    · exact absurd hd ((step_other he h₁).1 p hp)
    · obtain ⟨bytes, -, hopen, -⟩ := (step_other he h).2 w hcall
      exact .inl hopen

theorem Endpoint.run_decent {e : Endpoint} {as : List Action} (hsteady : e.Steady)
    (hok : Runs.Meets (Endpoint.next F) (fun e a => e.Undisturbing F a) e as) :
    Runs.Meets (Endpoint.next F) (fun e a => e.Decent F a) e as := by
  refine hok.imp_of_invariant (I := Endpoint.Steady) (fun e a m hs ha hm => ?_)
    (fun e a hs ha e₁ out₁ h₁ => (decent_step hs ha h₁).1 e₁ out₁ h₁) hsteady
  obtain ⟨⟨m, out⟩, hstep, rfl⟩ := Option.map_eq_some_iff.mp hm
  exact (decent_step hs ha hstep).2

/-! ## Steps that do not -/

/-- The stream is closed, and the running `write` will send more or report success. -/
def Endpoint.Doomed (e : Endpoint) : Prop :=
  ∃ w, e.call = .writing w ∧ e.socket.state = .closed ∧ w.len < 2 ^ 31 ∧
    ¬ (w.pc = .waiting ∧ w.Fails e.socket)

theorem WriteStep.doomed {e e' : Endpoint} {w : WriteCall} {a : Action} {out : List Output}
    (h : WriteStep F e w a e' out) (hcall : e.call = .writing w) (he : e.InPass)
    (hlen : w.len < 2 ^ 31) (hclosed : e.stateAt F a = .closed)
    (hnot : ∀ as late, a = .poll as late →
      ¬ (w.pc = .waiting ∧ w.Fails (e.takeAll F as).1.socket))
    (hsent : ∀ p ∈ sentOf out, p.IsData → e.stateAt F a = .opened)
    (hret : e'.call = .idle → e'.socket.state ≠ .opened → ∃ r, retsOf out = [r] ∧ r < 0) :
    e'.Doomed := by
  obtain ⟨hst, -⟩ := he w hcall
  cases h with
  | burst hpc =>
    have hpos := hst.of_top hpc
    obtain ⟨-, hstart⟩ := start_atFrame w e.socket e.address hpos
    refine ⟨_, rfl, hclosed, ?_, fun hw => absurd (hstart.symm.trans hw.1) (by simp)⟩
    rw [WriteCall.len, (w.start_same e.socket e.address).1]
    exact hlen
  | @frame as late i pack hpc =>
    obtain ⟨-, -, hpack⟩ := hst.of_sending hpc
    have hdata : pack.IsData := by
      unfold DatagramPack.IsData
      rw [hpack]
      rfl
    have hmem : pack ∈ sentOf ((e.takeAll F as).2 ++ [.sent pack]) := by
      rw [sentOf_frame]
      exact List.mem_append_right _ List.mem_cons_self
    exact absurd (hclosed.symm.trans (hsent pack hmem hdata)) (by decide)
  | @wait as late hpc hgo => exact ⟨w, hcall, hclosed, hlen, hnot as late rfl⟩
  | @ended as late hpc hend =>
    obtain ⟨hall, hpos⟩ := hst.of_waiting hpc
    have hseq := e.takeAll_sequenceNumber F as
    have hfails : ¬ w.Fails (e.takeAll F as).1.socket := fun hf => hnot as late rfl ⟨hpc, hf⟩
    obtain ⟨hs, hres⟩ := hall.evaluate_of_not_fails hpos (e.takeAll F as).1.socket hseq hfails
    have hs : (w.evaluate (e.takeAll F as).1.socket).1.state = .closed := hs.trans hclosed
    generalize w.evaluate (e.takeAll F as).1.socket = r at hs hres hret ⊢
    obtain ⟨s, r⟩ := r
    rcases hres with ⟨w', rfl, hpc', hbytes⟩ | rfl
    · refine ⟨w', rfl, hs, ?_, fun hw => absurd (hpc'.symm.trans hw.1) (by simp)⟩
      rw [WriteCall.len, hbytes]
      exact hlen
    · -- success is reported
      exfalso
      have hne : s.state ≠ .opened := by
        rw [show s.state = .closed from hs]
        decide
      obtain ⟨v, hv, hneg⟩ := hret rfl hne
      have hrets : retsOf ((e.takeAll F as).2 ++ [.ret (asInt w.len)]) = [asInt w.len] := by
        rw [retsOf_append]
        exact congrArg (· ++ _) (retsOf_sent _)
      have hv : asInt w.len = v := by
        have := hrets.symm.trans hv
        exact List.head_eq_of_cons_eq this
      rw [← hv, asInt_of_lt hlen] at hneg
      omega

theorem Endpoint.step_inPass {e e' : Endpoint} {a : Action} {out : List Output} (he : e.InPass)
    (h : e.step F a = some (e', out)) : e'.InPass := by
  by_cases hw : ∃ w, e.call = .writing w
  · obtain ⟨w, hcall⟩ := hw
    exact (writeStep F hcall h).inPass F hcall he
  · intro w hcall
    obtain ⟨bytes, -, -, hne, rfl⟩ := (step_other (fun w hw' => hw ⟨w, hw'⟩) h).2 w hcall
    exact ⟨.top rfl (List.length_pos_of_ne_nil hne), Nat.zero_lt_succ 2⟩

/-- A doomed `write` misbehaves before it returns. -/
theorem Endpoint.Doomed.run {e e' : Endpoint} {as : List Action} (hd : e.Doomed) (he : e.InPass)
    (h : Runs.run (Endpoint.next F) e as = some e') (hidle : e'.call = .idle) :
    ¬ Runs.Meets (Endpoint.next F) (fun e a => e.Decent F a) e as := by
  induction as generalizing e with
  | nil =>
    cases h
    obtain ⟨w, hcall, -⟩ := hd
    exact absurd (hidle.symm.trans hcall) (by simp)
  | cons a as ih =>
    rintro ⟨hnow, hthen⟩
    obtain ⟨m, hm, h⟩ := Runs.run_cons.mp h
    have hrest := hthen m hm
    obtain ⟨⟨m, out⟩, hstep, rfl⟩ := Option.map_eq_some_iff.mp hm
    obtain ⟨w, hcall, hs, hlen, hnot⟩ := hd
    have hws := writeStep F hcall hstep
    have hclosed : e.stateAt F a = .closed := by
      cases a with
      | poll as late =>
        obtain ⟨r, hr⟩ := takeAll_closed (F := F) as hs
        show (e.takeAll F as).1.socket.state = .closed
        rw [hr]
        exact hs
      | _ => exact hs
    have hpolls : ∀ as late, a = .poll as late →
        ¬ (w.pc = .waiting ∧ w.Fails (e.takeAll F as).1.socket) := by
      intro as late _
      obtain ⟨r, hr⟩ := takeAll_closed (F := F) as hs
      rw [hr]
      exact hnot
    obtain ⟨hsent, hret⟩ := hnow _ _ hstep
    exact ih (hws.doomed hcall he hlen hclosed hpolls hsent (hret ⟨w, hcall⟩))
      (step_inPass he hstep) h hrest

/-- The strings of the running `write`s are short enough for their lengths to be
told from errors. -/
def Endpoint.Short (e : Endpoint) : Prop := ∀ w, e.call = .writing w → w.len < 2 ^ 31

theorem WriteStep.short {e e' : Endpoint} {w : WriteCall} {a : Action} {out : List Output}
    (h : WriteStep F e w a e' out) (hcall : e.call = .writing w) (he : e.InPass)
    (hlen : w.len < 2 ^ 31) : e'.Short := by
  have hsame : ∀ w' w'' : WriteCall, w''.bytes = w.bytes → Call.writing w'' = .writing w' →
      w'.len < 2 ^ 31 := by
    rintro w' w'' hb ⟨⟩
    rw [WriteCall.len, hb]
    exact hlen
  intro w' hw'
  obtain ⟨hst, -⟩ := he w hcall
  cases h with
  | burst => exact hsame w' _ (w.start_same e.socket e.address).1 hw'
  | frame => exact hsame w' _ (w.afterSend_same _ _ _).bytes hw'
  | wait => exact hsame w' w rfl (hcall.symm.trans hw')
  | @ended as late hpc hend =>
    obtain ⟨hall, hpos⟩ := hst.of_waiting hpc
    have hverdict := hall.verdict hpos (e.takeAll F as).1.socket (e.takeAll_sequenceNumber F as)
    generalize w.evaluate (e.takeAll F as).1.socket = r at hverdict hw'
    obtain ⟨s, r⟩ := r
    cases r with
    | returns v => cases hw'
    | goesOn w'' => exact hsame w' w'' (hverdict.goesOn rfl).2.1 hw'

theorem Endpoint.step_short {e e' : Endpoint} {a : Action} {out : List Output} (he : e.InPass)
    (hshort : e.Short) (ha : ∀ bytes, a = .write bytes → bytes.length < 2 ^ 31)
    (h : e.step F a = some (e', out)) : e'.Short := by
  by_cases hw : ∃ w, e.call = .writing w
  · obtain ⟨w, hcall⟩ := hw
    exact (writeStep F hcall h).short hcall he (hshort w hcall)
  · intro w hcall
    obtain ⟨bytes, hbytes, -, -, rfl⟩ := (step_other (fun w hw' => hw ⟨w, hw'⟩) h).2 w hcall
    exact ha bytes hbytes

/-- In a run that behaves to its end no step is one of those excluded. -/
theorem Endpoint.run_undisturbing {e e' : Endpoint} {as : List Action} (he : e.InPass)
    (hsteady : e.Steady) (hshort : e.Short)
    (has : ∀ bytes, .write bytes ∈ as → bytes.length < 2 ^ 31)
    (h : Runs.run (Endpoint.next F) e as = some e') (hidle : e'.call = .idle)
    (hdecent : Runs.Meets (Endpoint.next F) (fun e a => e.Decent F a) e as) :
    Runs.Meets (Endpoint.next F) (fun e a => e.Undisturbing F a) e as := by
  induction as generalizing e with
  | nil => trivial
  | cons a as ih =>
    obtain ⟨m, hm, hrun⟩ := Runs.run_cons.mp h
    have hrest := hdecent.2 m hm
    obtain ⟨⟨m, out⟩, hstep, rfl⟩ := Option.map_eq_some_iff.mp hm
    have hpass := step_inPass he hstep
    have hok : e.Undisturbing F a := by
      by_contra hnot
      simp only [Undisturbing, not_forall] at hnot
      obtain ⟨w, bs, late, hcall, rfl, hnot⟩ := hnot
      obtain ⟨hopen, hfails⟩ := not_or.mp hnot
      have hclosed : (e.takeAll F bs).1.socket.state = .closed := by
        refine (SocketStream.handleAll_state F e.kind e.socket e.address bs ?_).resolve_left hopen
        rcases hsteady w hcall with hs | ⟨hs, -⟩
        · exact .inl hs
        · exact .inr hs
      obtain ⟨hsent, hret⟩ := hdecent.1 _ _ hstep
      have hdoomed := (writeStep F hcall hstep).doomed hcall he (hshort w hcall) hclosed
        (by rintro _ _ ⟨⟩; exact hfails) hsent (hret ⟨w, hcall⟩)
      exact hdoomed.run hpass hrun hidle hrest
    refine ⟨hok, fun m' hm' => ?_⟩
    obtain rfl : m = m' := Option.some.inj (hm.symm.trans hm')
    exact ih hpass (decent_step hsteady hok hstep).2
      (step_short he hshort (fun bytes hb => has bytes (hb ▸ List.mem_cons_self)) hstep)
      (fun bytes hb => has bytes (List.mem_cons_of_mem a hb)) hrun hrest

end

/-- **Late CLOSE.**  In every run from an endpoint with no call running: if no CLOSE
is handled in a running `write` but in the wait of a pass that is bound to fail, then
every DATA packet is sent while the stream is open, and a `write` whose stream has
been closed returns an error.  When no call runs at the end, and no string is too long
for its length to be returned, the reverse holds as well. -/
theorem lateClose_iff (F : OnFull UInt8) (e : Endpoint) (hidle : e.call = .idle)
    (as : List Action) (e' : Endpoint) (h : Runs.run (Endpoint.next F) e as = some e') :
    (Runs.Meets (Endpoint.next F) (fun e a => e.Undisturbing F a) e as →
      Runs.Meets (Endpoint.next F) (fun e a => e.Decent F a) e as) ∧
    (e'.call = .idle → (∀ bytes, .write bytes ∈ as → bytes.length < 2 ^ 31) →
      Runs.Meets (Endpoint.next F) (fun e a => e.Decent F a) e as →
      Runs.Meets (Endpoint.next F) (fun e a => e.Undisturbing F a) e as) := by
  have hno : ∀ w, e.call ≠ .writing w := by
    intro w hcall
    rw [hidle] at hcall
    cases hcall
  have hsteady : e.Steady := fun w hcall => absurd hcall (hno w)
  have hshort : e.Short := fun w hcall => absurd hcall (hno w)
  constructor
  · exact Endpoint.run_decent hsteady
  · intro hend has
    exact Endpoint.run_undisturbing (Endpoint.inPass_of_idle hidle) hsteady hshort has h hend

/-! ## Three CLOSEs -/

/-- The peer hangs up before the frame has gone out. -/
def closedBefore : List Action :=
  [.write [65], .burst, .poll [datagramTo80 7 [MessageType.close, 1]] false]

/-- The peer acknowledges the frame and hangs up. -/
def closedBehind : List Action :=
  [.write [65], .burst, .poll [] false,
    .poll [datagramTo80 7 [MessageType.ack, 2], datagramTo80 7 [MessageType.close, 1]] false]

/-- The peer acknowledges something else and hangs up. -/
def closedInVain : List Action :=
  [.write [65], .burst, .poll [] false,
    .poll [datagramTo80 7 [MessageType.ack, 9], datagramTo80 7 [MessageType.close, 1]] false]

theorem closedInVain_undisturbing : Runs.Meets (Endpoint.next (OnFull.refuse UInt8))
    (fun e a => e.Undisturbing (OnFull.refuse UInt8) a) smallServer closedInVain := by
  refine ⟨Endpoint.undisturbing_other _ (fun _ _ _ h => (by cases h)), ?_⟩
  rintro _ ⟨⟩
  refine ⟨Endpoint.undisturbing_other _ (fun _ _ _ _ h => (by cases h)), ?_⟩
  rintro _ ⟨⟩
  refine ⟨(Endpoint.undisturbing_poll _ rfl _ _).mpr (.inl rfl), ?_⟩
  rintro _ ⟨⟩
  refine ⟨(Endpoint.undisturbing_poll _ rfl _ _).mpr (.inr ⟨rfl, by decide +kernel⟩), ?_⟩
  exact fun _ _ => trivial

theorem closedInVain_decent : ∃ e', Runs.run (Endpoint.next (OnFull.refuse UInt8)) smallServer
      closedInVain = some e' ∧ e'.socket.state = .closed ∧
    Runs.Meets (Endpoint.next (OnFull.refuse UInt8))
      (fun e a => e.Decent (OnFull.refuse UInt8) a) smallServer closedInVain :=
  ⟨_, rfl, rfl, (lateClose_iff (OnFull.refuse UInt8) smallServer rfl closedInVain _ rfl).1
    closedInVain_undisturbing⟩

/-- A frame is sent by a stream that is closed, and `write` reports success on one. -/
theorem lateClose_unnoticed :
    (∃ l, Runs.run (Log.step (OnFull.refuse UInt8)) { endpoint := smallServer } closedBefore =
        some l ∧ l.endpoint.socket.state = .closed ∧ (∃ p ∈ sentOf l.out, p.IsData) ∧
      ¬ Runs.Meets (Endpoint.next (OnFull.refuse UInt8))
        (fun e a => e.Decent (OnFull.refuse UInt8) a) smallServer closedBefore) ∧
    ∃ l, Runs.run (Log.step (OnFull.refuse UInt8)) { endpoint := smallServer } closedBehind =
        some l ∧ l.endpoint.socket.state = .closed ∧ retsOf l.out = [1] ∧
      ¬ Runs.Meets (Endpoint.next (OnFull.refuse UInt8))
        (fun e a => e.Decent (OnFull.refuse UInt8) a) smallServer closedBehind := by
  refine ⟨⟨_, rfl, rfl, by decide +kernel, ?_⟩, ⟨_, rfl, rfl, by decide +kernel, ?_⟩⟩
  · intro h
    have hlast := ((h.2 _ rfl).2 _ rfl).1 _ _ rfl
    have hopen := hlast.1 _ List.mem_cons_self rfl
    exact absurd hopen (by decide +kernel)
  · intro h
    have hlast := (((h.2 _ rfl).2 _ rfl).2 _ rfl).1 _ _ rfl
    obtain ⟨r, hr, hneg⟩ := hlast.2 ⟨_, rfl⟩ rfl (by decide +kernel)
    have hr : asInt 1 = r := List.head_eq_of_cons_eq hr
    rw [← hr] at hneg
    exact absurd hneg (by decide)

end PicoLan
