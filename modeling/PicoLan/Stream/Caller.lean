import PicoLan.Stream.Net
import PicoLan.Stream.Sessions

/-!
# Whom a server talks to

`listen` leaves `remote` and `remote_port` as they are; they are those of the caller
once a SYN has been taken.  Before that only `disconnect` sends anything, since its
test for `CONNECTION_LISTENING` comes after the state has been changed; and a SYN of
fewer than three bytes names no port to answer to (`talksToCaller_iff`).
-/

namespace PicoLan

/-- A server, and the SYN it has taken since it began to listen. -/
structure Reception where
  endpoint : Endpoint
  caller : Option Arrival := none

/-- The datagram is for the source and the port of the SYN. -/
def Addressed (caller : Option Arrival) (p : DatagramPack) : Prop :=
  ∃ a, caller = some a ∧ p.destAddr = a.pack.sourceAddr ∧
    a.pack.payload.toList[2]? = some p.port

section

variable (F : OnFull UInt8)

/-- The stream listens, and the datagram is a SYN for it. -/
def SocketStream.Rings (s : SocketStream) (address : UInt8) (a : Arrival) : Prop :=
  s.state = .listening ∧ a.IsFor address s.port ∧ a.data.cell 0 = MessageType.syn

instance (s : SocketStream) (address : UInt8) (a : Arrival) : Decidable (s.Rings address a) :=
  inferInstanceAs (Decidable (_ ∧ _ ∧ _))

/-- The SYN taken after a row of datagrams. -/
def SocketStream.callerAfter (k : Kind) (s : SocketStream) (address : UInt8)
    (caller : Option Arrival) : List Arrival → Option Arrival
  | [] => caller
  | a :: as => callerAfter k (s.handle F k address a).1 address
      (if s.Rings address a then some a else caller) as

namespace Reception

def callerIn (r : Reception) : Action → Option Arrival
  | .poll as _ => r.endpoint.socket.callerAfter F r.endpoint.kind r.endpoint.address r.caller as
  | .listen => if r.endpoint.socket.state = .closed then none else r.caller
  | _ => r.caller

def step (r : Reception) (a : Action) : Option Reception :=
  (r.endpoint.step F a).map fun (e, _) => { endpoint := e, caller := r.callerIn F a }

/-- Whatever is sent in this step goes to the caller. -/
def TalksToCaller (r : Reception) (a : Action) : Prop :=
  ∀ e' out, r.endpoint.step F a = some (e', out) → ∀ p ∈ sentOf out, Addressed r.caller p

/-- The SYN says to which port to answer. -/
def NamesPort (r : Reception) : Prop := ∀ a ∈ r.caller, 3 ≤ a.pack.payload.size

instance (r : Reception) : Decidable r.NamesPort :=
  inferInstanceAs (Decidable (∀ a ∈ r.caller, _))

/-- `disconnect` is not called while the server listens, and nothing is done about a SYN
without a port. -/
def Proper (r : Reception) : Action → Prop
  | .disconnect => r.endpoint.socket.state ≠ .listening ∧
      (r.endpoint.socket.state = .synRecved → r.NamesPort)
  | .accept => r.endpoint.socket.state = .synRecved → r.NamesPort
  | _ => True

instance (r : Reception) : ∀ a, Decidable (r.Proper a)
  | .disconnect => inferInstanceAs (Decidable (_ ∧ _))
  | .accept => inferInstanceAs (Decidable (_ → _))
  | .connect _ _ => isTrue trivial
  | .listen => isTrue trivial
  | .write _ => isTrue trivial
  | .read _ => isTrue trivial
  | .poll _ _ => isTrue trivial
  | .burst => isTrue trivial

end Reception

/-- All that a step receives is sent by `d`. -/
def Action.From (d : UInt8) : Action → Prop
  | .poll as _ => ∀ a ∈ as, a.pack.sourceAddr = d
  | _ => True

instance (d : UInt8) : ∀ a : Action, Decidable (a.From d)
  | .poll as _ => inferInstanceAs (Decidable (∀ a ∈ as, _))
  | .connect _ _ => isTrue trivial
  | .listen => isTrue trivial
  | .accept => isTrue trivial
  | .disconnect => isTrue trivial
  | .write _ => isTrue trivial
  | .read _ => isTrue trivial
  | .burst => isTrue trivial

/-! ## Before a SYN is accepted -/

/-- The peer of the stream is the caller. -/
structure Known (d : UInt8) (caller : Option Arrival) (s : SocketStream) : Prop where
  remote : s.remote = d
  syn : ∃ a, caller = some a ∧ a.pack.sourceAddr = d ∧
    a.pack.payload.toList[2]? = some s.remotePort

/-- Nobody has been answered yet. -/
inductive Waiting (d : UInt8) : Option Arrival → SocketStream → Prop where
  | closed {caller : Option Arrival} {s : SocketStream} (hs : s.state = .closed) :
    Waiting d caller s
  | listening {s : SocketStream} (hs : s.state = .listening) : Waiting d none s
  | rung {a : Arrival} {s : SocketStream} (hs : s.state = .synRecved)
      (ha : a.pack.sourceAddr = d) (hremote : s.remote = d) (hport : s.remotePort = a.data.cell 2) :
    Waiting d (some a) s

theorem Known.addressed {d : UInt8} {caller : Option Arrival} {s : SocketStream}
    (h : Known d caller s) (address : UInt8) (payload : List UInt8) :
    Addressed caller (s.message address payload) := by
  obtain ⟨a, hc, ha, hport⟩ := h.syn
  exact ⟨a, hc, h.remote.trans ha.symm, hport⟩

theorem Arrival.getElem?_payload (a : Arrival) {i : Nat} (h : i < a.pack.payload.size) :
    a.pack.payload.toList[i]? = some (a.data.cell i) := by
  have hlt : i < a.pack.payload.toList.length := h
  show _ = some (a.pack.payload.toList.getD i _)
  rw [List.getD_eq_getElem?_getD, List.getElem?_eq_getElem hlt]
  rfl

section

variable (address : UInt8) {d : UInt8} {caller : Option Arrival} {s : SocketStream} {a : Arrival}

theorem Waiting.cases_state (h : Waiting d caller s) :
    s.state = .closed ∨ s.state = .listening ∨ s.state = .synRecved := by
  cases h with
  | closed hs => exact .inl hs
  | listening hs => exact .inr (.inl hs)
  | rung hs => exact .inr (.inr hs)

theorem Waiting.state (h : Waiting d caller s) : s.state ≠ .pending ∧ s.state ≠ .opened := by
  rcases h.cases_state with hs | hs | hs <;> rw [hs] <;> decide

/-- A server that listens has not been called yet. -/
theorem Waiting.nobody (h : Waiting d caller s) (hs : s.state = .listening) : caller = none := by
  cases h with
  | closed hs' => exact absurd (hs.symm.trans hs') (by decide)
  | listening => rfl
  | rung hs' => exact absurd (hs.symm.trans hs') (by decide)

theorem Waiting.handle (h : Waiting d caller s) (ha : a.pack.sourceAddr = d) :
    Waiting d (if s.Rings address a then some a else caller) (s.handle F .server address a).1 ∧
      (s.handle F .server address a).2 = [] := by
  by_cases hfor : a.IsFor address s.port
  · obtain ⟨hpending, hopened⟩ := h.state
    have hr := s.receive_reaction F .server address a
    unfold SocketStream.handle
    rw [if_pos hfor]
    generalize s.receive F .server address a = io at hr ⊢
    cases hr with
    | ignored hun =>
      refine ⟨?_, rfl⟩
      cases h with
      | closed hs => exact .closed hs
      | listening hs =>
        rw [if_neg fun hr => hun.listening rfl hs hr.2.2]
        exact .listening hs
      | rung hs ha' hremote hport =>
        rw [if_neg fun hr => absurd (hs.symm.trans hr.1) (by decide)]
        exact .rung hs ha' ha hport
    | called hs hd =>
      rw [if_pos ⟨hs, hfor, hd⟩]
      exact ⟨.rung rfl ha ha rfl, rfl⟩
    | hungUp => exact ⟨.closed rfl, rfl⟩
    | confirmed hs => exact absurd hs hpending
    | acked hs => exact absurd hs hopened
    | accepted hs => exact absurd hs hopened
    | refused hs => exact absurd hs hopened
  · rw [if_neg fun hr => hfor hr.2.1, SocketStream.handle, if_neg hfor]
    exact ⟨h, rfl⟩

theorem Waiting.handleAll {as : List Arrival} (h : Waiting d caller s)
    (has : ∀ a ∈ as, a.pack.sourceAddr = d) :
    Waiting d (s.callerAfter F .server address caller as) (s.handleAll F .server address as).1 ∧
      (s.handleAll F .server address as).2 = [] := by
  induction as generalizing s caller with
  | nil => exact ⟨h, rfl⟩
  | cons a as ih =>
    obtain ⟨hhead, hnone⟩ := h.handle F address (has a List.mem_cons_self)
    obtain ⟨hrest, hnone'⟩ := ih hhead fun b hb => has b (List.mem_cons_of_mem a hb)
    unfold SocketStream.handleAll SocketStream.callerAfter
    dsimp only
    rw [hnone, hnone']
    exact ⟨hrest, rfl⟩

/-! ## After it has been accepted -/

/-- A connection is being made, is open or is over. -/
def SocketStream.Answered (s : SocketStream) : Prop :=
  s.state = .pending ∨ s.state = .opened ∨ s.state = .closed

theorem Known.handle (h : Known d caller s) (hs : s.Answered) (ha : a.pack.sourceAddr = d) :
    Known d caller (s.handle F .server address a).1 ∧ (s.handle F .server address a).1.Answered ∧
      (∀ p ∈ (s.handle F .server address a).2, Addressed caller p) ∧ ¬ s.Rings address a := by
  have hsyn := h.syn
  have hnot : ¬ s.Rings address a := by
    intro hr
    rcases hs with hs | hs | hs <;> exact absurd (hs.symm.trans hr.1) (by decide)
  by_cases hfor : a.IsFor address s.port
  · have hr := s.receive_reaction F .server address a
    have hnone : ∀ p ∈ ([] : List DatagramPack), Addressed caller p := fun p hp => (by cases hp)
    have hack : ∀ (s' : SocketStream) (bytes : List UInt8), Known d caller s' →
        ∀ p ∈ [s'.message address bytes], Addressed caller p := by
      intro s' bytes hk p hp
      obtain rfl := List.mem_singleton.mp hp
      exact hk.addressed address bytes
    unfold SocketStream.handle
    rw [if_pos hfor]
    generalize s.receive F .server address a = io at hr ⊢
    cases hr with
    | ignored => exact ⟨⟨ha, hsyn⟩, hs, hnone, hnot⟩
    | called hl =>
      rcases hs with hs | hs | hs <;> exact absurd (hs.symm.trans hl) (by decide)
    | confirmed => exact ⟨⟨ha, hsyn⟩, .inr (.inl rfl), hnone, hnot⟩
    | hungUp => exact ⟨⟨ha, hsyn⟩, .inr (.inr rfl), hnone, hnot⟩
    | acked => exact ⟨⟨ha, hsyn⟩, hs, hnone, hnot⟩
    | accepted => exact ⟨⟨ha, hsyn⟩, hs, hack _ _ ⟨ha, hsyn⟩, hnot⟩
    | refused => exact ⟨⟨ha, hsyn⟩, hs, hack _ _ ⟨ha, hsyn⟩, hnot⟩
  · rw [SocketStream.handle, if_neg hfor]
    exact ⟨h, hs, fun p hp => (by cases hp), hnot⟩

theorem Known.handleAll {as : List Arrival} (h : Known d caller s) (hs : s.Answered)
    (has : ∀ a ∈ as, a.pack.sourceAddr = d) :
    Known d caller (s.handleAll F .server address as).1 ∧
      (s.handleAll F .server address as).1.Answered ∧
      (∀ p ∈ (s.handleAll F .server address as).2, Addressed caller p) ∧
      s.callerAfter F .server address caller as = caller := by
  induction as generalizing s with
  | nil => exact ⟨h, hs, fun p hp => (by cases hp), rfl⟩
  | cons a as ih =>
    obtain ⟨hk, hs', hsent, hnot⟩ := h.handle F address hs (has a List.mem_cons_self)
    obtain ⟨hk', hs'', hsent', hcaller⟩ := ih hk hs' fun b hb => has b (List.mem_cons_of_mem a hb)
    unfold SocketStream.handleAll SocketStream.callerAfter
    dsimp only
    rw [if_neg hnot]
    refine ⟨hk', hs'', fun p hp => ?_, hcaller⟩
    rcases List.mem_append.mp hp with hp | hp
    · exact hsent p hp
    · exact hsent' p hp

end

/-! ## A server that has answered -/

/-- The server talks to its caller, and so does the packet it is about to send. -/
structure Endpoint.Talks (d : UInt8) (caller : Option Arrival) (e : Endpoint) : Prop where
  known : Known d caller e.socket
  answered : e.socket.Answered
  frame : ∀ w i pack, e.call = .writing w → w.pc = .sending i pack → Addressed caller pack

/-- What is sent goes to the caller, and the server goes on talking to it. -/
def GoesOn (d : UInt8) (caller : Option Arrival) (r : Endpoint × List Output) : Prop :=
  r.1.Talks d caller ∧ ∀ p ∈ sentOf r.2, Addressed caller p

namespace Endpoint

variable {d : UInt8} {caller : Option Arrival} {e : Endpoint}

theorem Talks.idle (hk : Known d caller e.socket) (hs : e.socket.Answered) (hcall : e.call = .idle) :
    e.Talks d caller :=
  ⟨hk, hs, fun w i pack hw => absurd (hcall.symm.trans hw) (by simp)⟩

theorem Talks.writing {w : WriteCall} (hk : Known d caller e.socket) (hs : e.socket.Answered)
    (hcall : e.call = .writing w)
    (hframe : ∀ i pack, w.pc = .sending i pack → Addressed caller pack) : e.Talks d caller := by
  refine ⟨hk, hs, fun w' i pack hw => ?_⟩
  obtain rfl : w = w' := by injection hcall.symm.trans hw
  exact hframe i pack

theorem addressed_disconnect {s : SocketStream} (hk : Known d caller s) (address : UInt8) :
    ∀ p ∈ (s.disconnect address).2, Addressed caller p := by
  intro p hp
  rw [mem_disconnect hp]
  exact hk.addressed _ _

theorem Talks.hangUp (h : e.Talks d caller) (r : Int) : GoesOn d caller (e.hangUp r) := by
  constructor
  · refine .idle ?_ ?_ rfl
    · show Known d caller (e.socket.disconnect e.address).1
      rw [disconnect_socket]
      exact ⟨h.known.remote, h.known.syn⟩
    · show (e.socket.disconnect e.address).1.Answered
      rw [disconnect_socket]
      exact .inr (.inr rfl)
  · show ∀ p ∈ sentOf ((e.socket.disconnect e.address).2.map .sent ++ [.ret r]), _
    rw [sentOf_append, sentOf_sent]
    intro p hp
    exact addressed_disconnect h.known _ p (by simpa [sentOf] using hp)

theorem goesOn_endRead (hk : Known d caller e.socket) (hs : e.socket.Answered) (got : List UInt8) :
    GoesOn d caller (e.endRead got) := by
  unfold Endpoint.endRead
  dsimp only
  split
  · split
    · constructor
      · refine .idle ?_ ?_ rfl
        · dsimp only
          rw [disconnect_socket]
          exact ⟨hk.remote, hk.syn⟩
        · dsimp only
          rw [disconnect_socket]
          exact .inr (.inr rfl)
      · rw [sentOf_append, sentOf_sent]
        intro p hp
        exact addressed_disconnect hk _ p (by simpa [sentOf] using hp)
    · exact ⟨.idle ⟨hk.remote, hk.syn⟩ hs rfl, fun p hp => (by cases hp)⟩
  · exact ⟨.idle hk hs rfl, fun p hp => (by cases hp)⟩

theorem goesOn_goOnReading (hk : Known d caller e.socket) (hs : e.socket.Answered)
    (got : List UInt8) (len : Nat) : GoesOn d caller (e.goOnReading got len) := by
  unfold Endpoint.goOnReading
  dsimp only
  split
  · refine ⟨⟨⟨hk.remote, hk.syn⟩, hs, fun w i pack hw => ?_⟩, fun p hp => (by cases hp)⟩
    cases hw
  · refine goesOn_endRead ?_ ?_ _
    · exact ⟨hk.remote, hk.syn⟩
    · exact hs

theorem Talks.afterPass (h : e.Talks d caller) (w : WriteCall) :
    GoesOn d caller (e.afterPass (w.evaluate e.socket)) := by
  have hsock := w.evaluate_socket e.socket
  have hknown : Known d caller (w.evaluate e.socket).1 := by
    rw [hsock]
    exact ⟨h.known.remote, h.known.syn⟩
  have hanswered : (w.evaluate e.socket).1.Answered := by
    rw [hsock]
    exact h.answered
  have hnone : ∀ p ∈ sentOf (e.afterPass (w.evaluate e.socket)).2, Addressed caller p := by
    unfold Endpoint.afterPass
    split <;> exact fun p hp => (by cases hp)
  refine ⟨?_, hnone⟩
  unfold Endpoint.afterPass
  split
  · next s w' heq =>
    rw [heq] at hknown hanswered
    refine .writing hknown hanswered rfl fun i pack hpc => ?_
    exact absurd ((WriteCall.evaluate_top heq).symm.trans hpc) (by simp)
  · next s r heq =>
    rw [heq] at hknown hanswered
    exact .idle hknown hanswered rfl

theorem Talks.resume (h : e.Talks d caller) (late : Bool) : GoesOn d caller (e.resume late) := by
  have hstay : GoesOn d caller (e, []) := ⟨h, fun p hp => (by cases hp)⟩
  unfold Endpoint.resume
  split
  · exact hstay
  · split
    · exact ⟨.idle ⟨h.known.remote, h.known.syn⟩ (.inr (.inr rfl)) rfl, fun p hp => (by cases hp)⟩
    split
    · exact hstay
    split
    · exact h.hangUp _
    · next hnot =>
      have hs : e.socket.state = .synRecved := Classical.not_not.mp hnot
      rcases h.answered with hs' | hs' | hs' <;> exact absurd (hs.symm.trans hs') (by decide)
  · split
    · exact h.hangUp _
    split
    · exact hstay
    split
    · exact h.hangUp _
    · exact ⟨.idle h.known h.answered rfl, fun p hp => (by cases hp)⟩
  · split
    · exact goesOn_endRead h.known h.answered _
    · exact goesOn_goOnReading h.known h.answered _ _
  · next w hcall =>
    split
    · exact hstay
    · next i pack hpc =>
      constructor
      · refine .writing h.known h.answered rfl fun j pack' hpc' => ?_
        obtain ⟨n, rest, rfl⟩ := WriteCall.burst_sending _ _ _ hpc'
        exact h.known.addressed _ _
      · intro p hp
        obtain rfl := List.mem_singleton.mp hp
        exact h.frame w i _ hcall hpc
    · split
      · exact h.afterPass w
      · exact hstay

end Endpoint

/-! ## Steps -/

namespace Reception

variable {d : UInt8} {r r' : Reception} {a : Action}

/-- Where a server stands. -/
inductive Stage (d : UInt8) (r : Reception) : Prop where
  | waiting (hcall : r.endpoint.call = .idle) (h : Waiting d r.caller r.endpoint.socket)
  | talking (h : r.endpoint.Talks d r.caller)

theorem talksToCaller_of {e' : Endpoint} {out : List Output}
    (hstep : r.endpoint.step F a = some (e', out)) :
    r.TalksToCaller F a ↔ ∀ p ∈ sentOf out, Addressed r.caller p := by
  constructor
  · exact fun h => h e' out hstep
  · intro h e'' out' hstep'
    cases hstep.symm.trans hstep'
    exact h

/-- What is left to show when no datagram comes and no listening begins. -/
theorem Stage.of_goesOn {e' : Endpoint} {out : List Output}
    (hstep : r.endpoint.step F a = some (e', out)) (hr : r' = ⟨e', r.callerIn F a⟩)
    (hcaller : r.callerIn F a = r.caller) (h : GoesOn d r.caller (e', out)) :
    r'.Stage d ∧ r.TalksToCaller F a := by
  rw [hcaller] at hr
  subst hr
  exact ⟨.talking h.1, (talksToCaller_of F hstep).mpr h.2⟩

theorem step_talking (h : r.endpoint.Talks d r.caller) (hk : r.endpoint.kind = .server)
    (ha : a.From d) (hstep : r.step F a = some r') :
    r'.Stage d ∧ r.TalksToCaller F a := by
  obtain ⟨⟨e', out⟩, hs, rfl⟩ := Option.map_eq_some_iff.mp hstep
  have hstay : ∀ v, GoesOn d r.caller (r.endpoint, [.ret v]) :=
    fun v => ⟨h, fun p hp => (by cases hp)⟩
  cases a with
  | poll as late =>
    obtain ⟨-, rfl, rfl⟩ := Endpoint.step_poll.mp hs
    obtain ⟨hknown, hanswered, hsent, hcaller⟩ :=
      h.known.handleAll F r.endpoint.address h.answered ha
    have htake : ((r.endpoint.takeAll F as).1).Talks d r.caller := by
      refine ⟨?_, ?_, h.frame⟩
      · show Known d r.caller (r.endpoint.socket.handleAll F r.endpoint.kind _ as).1
        rw [hk]
        exact hknown
      · show (r.endpoint.socket.handleAll F r.endpoint.kind _ as).1.Answered
        rw [hk]
        exact hanswered
    obtain ⟨htalks, hout⟩ := htake.resume late
    refine Stage.of_goesOn F hs rfl ?_ ⟨htalks, fun p hp => ?_⟩
    · show r.endpoint.socket.callerAfter F r.endpoint.kind _ r.caller as = r.caller
      rw [hk]
      exact hcaller
    · rw [sentOf_append] at hp
      rcases List.mem_append.mp hp with hp | hp
      · have htook : sentOf (r.endpoint.takeAll F as).2 =
            (r.endpoint.socket.handleAll F .server r.endpoint.address as).2 := by
          rw [← hk]
          exact sentOf_sent _
        rw [htook] at hp
        exact hsent p hp
      · exact hout p hp
  | burst =>
    obtain ⟨w, -, -, rfl, rfl⟩ := Endpoint.step_burst.mp hs
    refine Stage.of_goesOn F hs rfl rfl ⟨?_, fun p hp => (by cases hp)⟩
    refine .writing h.known h.answered rfl fun i pack hpc => ?_
    obtain ⟨n, rest, rfl⟩ := WriteCall.burst_sending _ _ _ hpc
    exact h.known.addressed _ _
  | connect q port => exact absurd (hk.symm.trans (Endpoint.step_connect.mp hs).1) (by decide)
  | listen =>
    obtain ⟨-, hidle, rfl, rfl⟩ := Endpoint.step_listen.mp hs
    by_cases hclosed : r.endpoint.socket.state = .closed
    · have hnew : r.callerIn F .listen = none := if_pos hclosed
      have hout : r.endpoint.listen = ({ r.endpoint with
          socket := { r.endpoint.socket with state := .listening } }, [.ret Error.none]) :=
        if_pos hclosed
      rw [talksToCaller_of F hs, hnew, hout]
      exact ⟨.waiting hidle (.listening rfl), fun p hp => (by cases hp)⟩
    · have hsame : r.callerIn F .listen = r.caller := if_neg hclosed
      have hout : r.endpoint.listen = (r.endpoint, [.ret Error.badState]) := if_neg hclosed
      refine Stage.of_goesOn F hs rfl hsame ?_
      rw [hout]
      exact hstay _
  | accept =>
    obtain ⟨-, -, rfl, rfl⟩ := Endpoint.step_accept.mp hs
    have hne : r.endpoint.socket.state ≠ .synRecved := by
      intro hs'
      rcases h.answered with hs | hs | hs <;> exact absurd (hs.symm.trans hs') (by decide)
    have hout : r.endpoint.accept = (r.endpoint, [.ret Error.badState]) := if_neg hne
    refine Stage.of_goesOn F hs rfl rfl ?_
    rw [hout]
    exact hstay _
  | disconnect =>
    obtain ⟨hidle, rfl, rfl⟩ := Endpoint.step_disconnect.mp hs
    refine Stage.of_goesOn F hs rfl rfl ⟨.idle ?_ ?_ hidle, ?_⟩
    · show Known d r.caller (r.endpoint.socket.disconnect r.endpoint.address).1
      rw [disconnect_socket]
      exact ⟨h.known.remote, h.known.syn⟩
    · show (r.endpoint.socket.disconnect r.endpoint.address).1.Answered
      rw [disconnect_socket]
      exact .inr (.inr rfl)
    · show ∀ p ∈ sentOf ((r.endpoint.socket.disconnect r.endpoint.address).2.map .sent), _
      rw [sentOf_sent]
      exact Endpoint.addressed_disconnect h.known _
  | write bytes =>
    obtain ⟨-, rfl, rfl⟩ := Endpoint.step_write.mp hs
    refine Stage.of_goesOn F hs rfl rfl ?_
    unfold Endpoint.write
    split
    · exact hstay _
    split
    · exact hstay _
    · refine ⟨.writing h.known h.answered rfl fun i pack hpc => ?_, fun p hp => (by cases hp)⟩
      cases hpc
  | read len =>
    obtain ⟨-, rfl, rfl⟩ := Endpoint.step_read.mp hs
    refine Stage.of_goesOn F hs rfl rfl ?_
    unfold Endpoint.read
    split
    · exact hstay _
    · exact Endpoint.goesOn_goOnReading h.known h.answered [] len

/-- A SYN with a port tells who calls. -/
theorem known_of_rung (h : Waiting d r.caller r.endpoint.socket)
    (hs : r.endpoint.socket.state = .synRecved) (hport : r.NamesPort) :
    Known d r.caller r.endpoint.socket := by
  unfold NamesPort at hport
  generalize r.caller = caller at h hport
  cases h with
  | closed hs' => exact absurd (hs.symm.trans hs') (by decide)
  | listening hs' => exact absurd (hs.symm.trans hs') (by decide)
  | @rung a s hs' ha hremote hcell =>
    refine ⟨hremote, a, rfl, ha, ?_⟩
    rw [hcell]
    exact a.getElem?_payload (hport a rfl)

/-- Nothing goes to a caller whose SYN was too short. -/
theorem not_addressed (h : ¬ r.NamesPort) (p : DatagramPack) : ¬ Addressed r.caller p := by
  rintro ⟨a, hc, -, hport⟩
  refine h fun b hb => ?_
  have hab : a = b := Option.some.inj (hc.symm.trans hb)
  obtain ⟨hlt, -⟩ := List.getElem?_eq_some_iff.mp hport
  rw [← hab]
  exact hlt

theorem step_waiting (hcall : r.endpoint.call = .idle) (h : Waiting d r.caller r.endpoint.socket)
    (hk : r.endpoint.kind = .server) (ha : a.From d) (hproper : r.Proper a)
    (hstep : r.step F a = some r') : r'.Stage d ∧ r.TalksToCaller F a := by
  obtain ⟨⟨e', out⟩, hs, rfl⟩ := Option.map_eq_some_iff.mp hstep
  have hstay : ∀ v, r.endpoint.step F a = some (r.endpoint, [.ret v]) →
      r.callerIn F a = r.caller →
      Stage d ⟨r.endpoint, r.callerIn F a⟩ ∧ r.TalksToCaller F a := by
    intro v hv hcaller
    rw [talksToCaller_of F hv, hcaller]
    exact ⟨.waiting hcall h, fun p hp => (by cases hp)⟩
  cases a with
  | poll as late =>
    obtain ⟨-, rfl, rfl⟩ := Endpoint.step_poll.mp hs
    obtain ⟨hwaiting, hsilent⟩ := h.handleAll F r.endpoint.address ha
    rw [← hk] at hwaiting hsilent
    have hidle : (r.endpoint.takeAll F as).1.call = .idle := hcall
    rw [talksToCaller_of F hs, Endpoint.resume_idle hidle, List.append_nil]
    refine ⟨.waiting hcall hwaiting, fun p hp => ?_⟩
    have hnone : sentOf (r.endpoint.takeAll F as).2 = [] := (sentOf_sent _).trans hsilent
    rw [hnone] at hp
    cases hp
  | burst =>
    obtain ⟨w, hw, -⟩ := Endpoint.step_burst.mp hs
    exact absurd (hcall.symm.trans hw) (by simp)
  | connect q port => exact absurd (hk.symm.trans (Endpoint.step_connect.mp hs).1) (by decide)
  | listen =>
    obtain ⟨-, -, rfl, rfl⟩ := Endpoint.step_listen.mp hs
    by_cases hclosed : r.endpoint.socket.state = .closed
    · have hnew : r.callerIn F .listen = none := if_pos hclosed
      have hout : r.endpoint.listen = ({ r.endpoint with
          socket := { r.endpoint.socket with state := .listening } }, [.ret Error.none]) :=
        if_pos hclosed
      rw [talksToCaller_of F hs, hnew, hout]
      exact ⟨.waiting hcall (.listening rfl), fun p hp => (by cases hp)⟩
    · have hout : r.endpoint.listen = (r.endpoint, [.ret Error.badState]) := if_neg hclosed
      rw [hout] at hs ⊢
      exact hstay _ hs (if_neg hclosed)
  | accept =>
    obtain ⟨-, -, rfl, rfl⟩ := Endpoint.step_accept.mp hs
    by_cases hrung : r.endpoint.socket.state = .synRecved
    · have hknown := known_of_rung h hrung (hproper hrung)
      refine Stage.of_goesOn F hs rfl rfl ?_
      unfold Endpoint.accept
      rw [if_pos hrung]
      refine ⟨⟨⟨hknown.remote, hknown.syn⟩, .inl rfl, fun w i pack hw => (by cases hw)⟩, ?_⟩
      intro p hp
      rcases List.mem_pair.mp hp with rfl | rfl
      · exact hknown.addressed _ _
      · exact hknown.addressed _ _
    · have hout : r.endpoint.accept = (r.endpoint, [.ret Error.badState]) := if_neg hrung
      rw [hout] at hs ⊢
      exact hstay _ hs rfl
  | disconnect =>
    obtain ⟨-, rfl, rfl⟩ := Endpoint.step_disconnect.mp hs
    have hclosed : (r.endpoint.disconnect).1.socket.state = .closed := by
      show (r.endpoint.socket.disconnect r.endpoint.address).1.state = .closed
      rw [disconnect_socket]
    refine ⟨.waiting hcall (.closed hclosed), (talksToCaller_of F hs).mpr ?_⟩
    show ∀ p ∈ sentOf ((r.endpoint.socket.disconnect r.endpoint.address).2.map .sent), _
    rw [sentOf_sent, disconnect_sent]
    split
    · exact fun p hp => (by cases hp)
    · next hopen =>
      have hrung := (h.cases_state.resolve_left hopen).resolve_left hproper.1
      intro p hp
      obtain rfl := List.mem_singleton.mp hp
      exact (known_of_rung h hrung (hproper.2 hrung)).addressed _ _
  | write bytes =>
    obtain ⟨-, rfl, rfl⟩ := Endpoint.step_write.mp hs
    have hout : r.endpoint.write bytes = (r.endpoint, [.ret Error.badState]) := if_pos h.state.2
    rw [hout] at hs ⊢
    exact hstay _ hs rfl
  | read len =>
    obtain ⟨-, rfl, rfl⟩ := Endpoint.step_read.mp hs
    have hout : r.endpoint.read len = (r.endpoint, [.ret Error.badState]) := if_pos h.state.2
    rw [hout] at hs ⊢
    exact hstay _ hs rfl

theorem step_improper (h : r.Stage d) (hproper : ¬ r.Proper a) (hstep : r.step F a = some r') :
    ¬ r.TalksToCaller F a := by
  obtain ⟨⟨e', out⟩, hs, rfl⟩ := Option.map_eq_some_iff.mp hstep
  rw [talksToCaller_of F hs]
  intro hall
  cases a with
  | accept =>
    obtain ⟨hrung, hport⟩ := Classical.not_imp.mp hproper
    obtain ⟨-, -, rfl, rfl⟩ := Endpoint.step_accept.mp hs
    unfold Endpoint.accept at hall
    rw [if_pos hrung] at hall
    exact not_addressed hport _ (hall _ List.mem_cons_self)
  | disconnect =>
    obtain ⟨-, rfl, rfl⟩ := Endpoint.step_disconnect.mp hs
    have hopen : r.endpoint.socket.state ≠ .closed := by
      intro hclosed
      refine hproper ⟨?_, fun hrung => absurd (hclosed.symm.trans hrung) (by decide)⟩
      rw [hclosed]
      decide
    have hsent : sentOf r.endpoint.disconnect.2 = [r.endpoint.socket.message r.endpoint.address
        [MessageType.close, r.endpoint.socket.sequenceNumber]] := by
      show sentOf ((r.endpoint.socket.disconnect r.endpoint.address).2.map .sent) = _
      rw [sentOf_sent, disconnect_sent, if_neg hopen]
    have haddressed := hall _ (by rw [hsent]; exact List.mem_singleton_self _)
    cases h with
    | waiting hcall h =>
      by_cases hlisten : r.endpoint.socket.state = .listening
      · obtain ⟨a, hc, -⟩ := haddressed
        exact absurd (hc.symm.trans (h.nobody hlisten)) (by simp)
      · obtain ⟨-, hport⟩ := Classical.not_imp.mp fun h => hproper ⟨hlisten, h⟩
        exact not_addressed hport _ haddressed
    | talking h =>
      refine hproper ⟨?_, ?_⟩
      · rcases h.answered with hs | hs | hs <;> rw [hs] <;> decide
      · intro hrung
        rcases h.answered with hs | hs | hs <;> exact absurd (hs.symm.trans hrung) (by decide)
  | _ => exact hproper trivial

theorem Stage.step (h : r.Stage d) (hk : r.endpoint.kind = .server) (ha : a.From d)
    (hproper : r.Proper a) (hstep : r.step F a = some r') : r'.Stage d ∧ r.TalksToCaller F a := by
  cases h with
  | waiting hcall h => exact step_waiting F hcall h hk ha hproper hstep
  | talking h => exact step_talking F h hk ha hstep

theorem Stage.run {as : List Action} (h : r.Stage d) (hk : r.endpoint.kind = .server)
    (has : ∀ a ∈ as, a.From d) (hrun : Runs.run (Reception.step F) r as = some r') :
    Runs.Meets (Reception.step F) (fun r a => r.TalksToCaller F a) r as ↔
      Runs.Meets (Reception.step F) Reception.Proper r as := by
  refine Runs.Meets.congr_of_run (I := fun r => r.Stage d ∧ r.endpoint.kind = .server)
    (fun r a m hmem hr hstep => ?_) ⟨h, hk⟩ hrun
  obtain ⟨h, hk⟩ := hr
  have hgood := fun hproper => h.step F hk (has a hmem) hproper hstep
  have hkind : m.endpoint.kind = .server := by
    obtain ⟨⟨e', out⟩, hs, rfl⟩ := Option.map_eq_some_iff.mp hstep
    exact (Endpoint.step_fixed hs).1.trans hk
  refine ⟨⟨fun hnow => ?_, fun hproper => (hgood hproper).2⟩,
    fun hproper => ⟨(hgood hproper).1, hkind⟩⟩
  by_contra hnot
  exact step_improper F h hnot hstep hnow

end Reception

end

/-- **The caller.**  In every run of a new server to which one device sends, whatever
the server sends goes to the source and the port of the SYN it has taken since it
began to listen, exactly when `disconnect` is not called while it listens and a SYN
of fewer than three bytes is neither accepted nor hung up on. -/
theorem talksToCaller_iff (F : OnFull UInt8) (e : Endpoint) (hkind : e.kind = .server)
    (hclosed : e.socket.state = .closed) (hidle : e.call = .idle) (d : UInt8) (as : List Action)
    (has : ∀ a ∈ as, a.From d) (r : Reception)
    (h : Runs.run (Reception.step F) { endpoint := e } as = some r) :
    Runs.Meets (Reception.step F) (fun r a => r.TalksToCaller F a) { endpoint := e } as ↔
      Runs.Meets (Reception.step F) Reception.Proper { endpoint := e } as :=
  Reception.Stage.run F (.waiting hidle (.closed hclosed)) hkind has h

/-! ## Hanging up on nobody -/

/-- 7 is accepted, and hangs up. -/
def calledOnce : List Action :=
  acceptFrom 7 5 ++ [.poll [dataFrom7 6 [65], datagramTo80 7 [MessageType.close, 7]] false]

theorem calledOnce_talks : ∃ r,
    Runs.run (Reception.step (OnFull.refuse UInt8)) { endpoint := unusedServer } calledOnce =
      some r ∧ r.caller.isSome = true ∧
    Runs.Meets (Reception.step (OnFull.refuse UInt8))
      (fun r a => r.TalksToCaller (OnFull.refuse UInt8) a) { endpoint := unusedServer } calledOnce :=
  ⟨_, rfl, by decide +kernel, (talksToCaller_iff (OnFull.refuse UInt8) unusedServer rfl rfl rfl 7
    calledOnce (by decide +kernel) _ rfl).mpr (by decide +kernel)⟩

/-- A server that listens and is told to disconnect sends a CLOSE to address 0 when it
is new, and to the last client later on. -/
theorem listening_hangsUp :
    (∃ r e out, Runs.run (Reception.step (OnFull.refuse UInt8)) { endpoint := unusedServer }
        [.listen] = some r ∧ r.endpoint.step (OnFull.refuse UInt8) .disconnect = some (e, out) ∧
        (sentOf out).map (fun p => (p.destAddr, p.port, p.payload.toList)) =
          [(0, 0, [MessageType.close, 1])] ∧
        ¬ r.TalksToCaller (OnFull.refuse UInt8) .disconnect) ∧
    ∃ r e out, Runs.run (Reception.step (OnFull.refuse UInt8)) { endpoint := unusedServer }
        (calledOnce ++ [.listen]) = some r ∧
        r.endpoint.step (OnFull.refuse UInt8) .disconnect = some (e, out) ∧
        (sentOf out).map (fun p => (p.destAddr, p.port, p.payload.toList)) =
          [(7, 9, [MessageType.close, 2])] ∧
        ¬ r.TalksToCaller (OnFull.refuse UInt8) .disconnect := by
  refine ⟨⟨_, _, _, rfl, rfl, by decide +kernel, fun h => ?_⟩,
    ⟨_, _, _, rfl, rfl, by decide +kernel, fun h => ?_⟩⟩
  · obtain ⟨a, hc, -⟩ := h _ _ rfl _ List.mem_cons_self
    cases hc
  · obtain ⟨a, hc, -⟩ := h _ _ rfl _ List.mem_cons_self
    cases hc

end PicoLan
