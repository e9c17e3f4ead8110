import PicoLan.Stream.Agreement
import PicoLan.Stream.Rounds

/-!
# Connecting

From two closed sockets, one call each of `listen()`, `connect()` and `accept()`,
with any polls in between: either a call fails or both sides come to be open with
nothing left on the link (`joined_of_returned`).
-/

namespace PicoLan

namespace Net

/-- The application calls nothing else, and the packets arrive in any portions. -/
def Connecting (_ : Net) : NetAction → Prop
  | .act _ .listen => True
  | .act _ (.connect _ _) => True
  | .act _ .accept => True
  | .act _ _ => False
  | .poll _ _ _ => True

instance (n : Net) : ∀ a, Decidable (n.Connecting a)
  | .act _ .listen => isTrue trivial
  | .act _ (.connect _ _) => isTrue trivial
  | .act _ .accept => isTrue trivial
  | .act _ .disconnect => isFalse id
  | .act _ (.write _) => isFalse id
  | .act _ (.read _) => isFalse id
  | .act _ (.poll _ _) => isFalse id
  | .act _ .burst => isFalse id
  | .poll _ _ _ => isTrue trivial

/-- Nothing has been called; the counters, addresses and buffers are arbitrary. -/
structure New (n : Net) : Prop extends Fresh n where
  returned : ∀ i, (n.hist i).returned = []

section

variable (n₀ : Net)

/-- The SYN that an end sends. -/
def synOf (e : Endpoint) : DatagramPack := (e.socket.sendSyn e.address).2

/-- The client in `connect(r, port)`. -/
def dialling (r port : UInt8) : Endpoint :=
  { n₀.ends .left with socket := { (n₀.ends .left).socket with remotePort := port, remote := r } }

/-- The client, when it has sent its SYN and its peer is `remote`. -/
def dialled (remote port : UInt8) : Endpoint :=
  { n₀.dialling remote port with
    socket := { (n₀.dialling remote port).socket with
      sequenceNumber := (n₀.ends .left).socket.sequenceNumber + 1
      state := .synSent }
    call := .connecting }

/-- The server before it has been called.  A packet for its port sets `remote`. -/
def waiting (state : ConnectionState) (remote : UInt8) : Endpoint :=
  { n₀.ends .right with socket := { (n₀.ends .right).socket with state, remote } }

/-- The server, when the SYN has come. -/
def rung : Endpoint :=
  { n₀.ends .right with
    socket := { (n₀.ends .right).socket with
      remote := (n₀.ends .left).address
      remoteSequence := (n₀.ends .left).socket.sequenceNumber
      remotePort := (n₀.ends .left).socket.port
      state := .synRecved } }

/-- The server, when it has answered. -/
def answering (state : ConnectionState) (call : Call) : Endpoint :=
  { n₀.rung with
    socket := { n₀.rung.socket with
      sequenceNumber := (n₀.ends .right).socket.sequenceNumber + 1
      state }
    call }

/-- The client, when the answer has come. -/
def answered (state : ConnectionState) (call : Call) : Endpoint :=
  { n₀.ends .left with
    socket := { (n₀.ends .left).socket with
      remote := (n₀.ends .right).address
      remotePort := (n₀.ends .right).socket.port
      sequenceNumber := (n₀.ends .left).socket.sequenceNumber + 1
      remoteSequence := (n₀.ends .right).socket.sequenceNumber
      state }
    call }

/-- The server has not been called; what it has returned. -/
inductive Waits : Endpoint → List Int → Prop where
  | closed (remote : UInt8) : Waits (n₀.waiting .closed remote) []
  | listening (remote : UInt8) : Waits (n₀.waiting .listening remote) [Error.none]

/-- The stages of a connection that succeeds: the two ends, the packets on their
way to them and their results. -/
inductive Stages : Endpoint → Endpoint → List DatagramPack → List DatagramPack → List Int →
    List Int → Prop where
  | start {e : Endpoint} {rs : List Int} (h : n₀.Waits e rs) : Stages (n₀.ends .left) e [] [] [] rs
  | dialled {e : Endpoint} {rs : List Int} (h : n₀.Waits e rs) (r port : UInt8)
    (ps : List DatagramPack) (hps : ps = [] ∨ ps = [synOf (n₀.dialling r port)]) :
    Stages (n₀.dialled r port) e [] ps [] rs
  | rung (r : UInt8) :
    Stages (n₀.dialled r (n₀.ends .right).socket.port) n₀.rung [] [] [] [Error.none]
  | answering (r : UInt8) (ps : List DatagramPack)
    (hps : ps = [n₀.rung.socket.sendAck (n₀.ends .right).address, synOf n₀.rung] ∨
      ps = [synOf n₀.rung]) :
    Stages (n₀.dialled r (n₀.ends .right).socket.port) (n₀.answering .pending .accepting) ps [] []
      [Error.none]
  | answered : Stages (n₀.answered .synRecved .connecting) (n₀.answering .pending .accepting) [] [] []
      [Error.none]
  | opened : Stages (n₀.answered .opened .idle) (n₀.answering .pending .accepting) []
      [(n₀.answered .opened .idle).socket.sendAck (n₀.ends .left).address] [Error.none] [Error.none]
  | confirmed : Stages (n₀.answered .opened .idle) (n₀.answering .opened .accepting) [] []
      [Error.none] [Error.none]
  | joined : Stages (n₀.answered .opened .idle) (n₀.answering .opened .idle) [] [] [Error.none]
      [Error.none, Error.none]

end

section

variable {F : OnFull UInt8} {n₀ : Net} {l r : Endpoint} {wl wr : List DatagramPack}
  {rl rr : List Int}

/-- A packet to the client. -/
theorem Stages.deliver_left {p : DatagramPack} {ps : List DatagramPack}
    (h : n₀.Stages l r (p :: ps) wr rl rr) (h₀ : n₀.New) (behind : Nat → UInt8) :
    ∃ l', l.takeAll F [⟨p, behind⟩] = (l', []) ∧ n₀.Stages l' r ps wr rl rr := by
  cases h with
  | answering r _ hps =>
    have hkind : (n₀.dialled r (n₀.ends .right).socket.port).kind = .client := h₀.client
    rcases hps with hps | hps
    · obtain ⟨rfl, rfl⟩ := List.cons.inj hps
      have hne : MessageType.ack ≠ MessageType.syn ∧ MessageType.ack ≠ MessageType.close := by decide
      have hhandle := (SocketStream.handle_synSent F
        (n₀.dialled r (n₀.ends .right).socket.port).socket (n₀.ends .left).address
        ⟨n₀.rung.socket.sendAck (n₀.ends .right).address, behind⟩ ⟨.inl rfl, rfl⟩ rfl hne.2).trans
        (if_neg hne.1)
      exact ⟨_, Endpoint.takeAll_silent _ hkind hhandle,
        .answering (n₀.ends .right).address _ (.inr rfl)⟩
    · obtain ⟨rfl, rfl⟩ := List.cons.inj hps
      have hne : MessageType.syn ≠ MessageType.close := by decide
      have hhandle := (SocketStream.handle_synSent F
        (n₀.dialled r (n₀.ends .right).socket.port).socket (n₀.ends .left).address
        ⟨synOf n₀.rung, behind⟩ ⟨.inl rfl, rfl⟩ rfl hne).trans (if_pos rfl)
      exact ⟨_, Endpoint.takeAll_silent _ hkind hhandle, .answered⟩

/-- A packet to the server. -/
theorem Stages.deliver_right {p : DatagramPack} {ps : List DatagramPack}
    (h : n₀.Stages l r wl (p :: ps) rl rr) (h₀ : n₀.New) (behind : Nat → UInt8) :
    ∃ r', r.takeAll F [⟨p, behind⟩] = (r', []) ∧ n₀.Stages l r' wl ps rl rr := by
  have hkind : (n₀.ends .right).kind = .server := h₀.server
  cases h with
  | dialled h r port _ hps =>
    obtain ⟨rfl, rfl⟩ := List.cons.inj (hps.resolve_left (by simp))
    cases h with
    | closed remote =>
      by_cases hfor : (Arrival.mk (synOf (n₀.dialling r port)) behind).IsFor
          (n₀.ends .right).address (n₀.ends .right).socket.port
      · have hhandle := SocketStream.handle_closed F (n₀.waiting .closed remote).socket
          (n₀.ends .right).address _ hfor .server rfl
        exact ⟨_, Endpoint.takeAll_silent (n₀.waiting .closed remote) hkind hhandle,
          .dialled (.closed (n₀.ends .left).address) r port _ (.inl rfl)⟩
      · exact ⟨_, Endpoint.takeAll_silent _ rfl (if_neg hfor),
          .dialled (.closed remote) r port _ (.inl rfl)⟩
    | listening remote =>
      by_cases hfor : (Arrival.mk (synOf (n₀.dialling r port)) behind).IsFor
          (n₀.ends .right).address (n₀.ends .right).socket.port
      · have hhandle := SocketStream.handle_listening F (n₀.waiting .listening remote).socket
          (n₀.ends .right).address _ hfor rfl rfl
        obtain rfl : (n₀.ends .right).socket.port = port := hfor.2
        exact ⟨_, Endpoint.takeAll_silent (n₀.waiting .listening remote) hkind hhandle, .rung r⟩
      · exact ⟨_, Endpoint.takeAll_silent _ rfl (if_neg hfor),
          .dialled (.listening remote) r port _ (.inl rfl)⟩
  | opened =>
    have hhandle := SocketStream.handle_pending F (n₀.answering .pending .accepting).socket
      (n₀.ends .right).address
      ⟨(n₀.answered .opened .idle).socket.sendAck (n₀.ends .left).address, behind⟩ ⟨.inl rfl, rfl⟩
      rfl rfl
    exact ⟨_, Endpoint.takeAll_silent (n₀.answering .pending .accepting) hkind hhandle, .confirmed⟩

/-- A call has failed. -/
def Spoilt (n : Net) : Prop := ∃ i, ∃ x ∈ (n.hist i).returned, x ≠ Error.none

/-- While the client waits, it waits or gives up. -/
theorem dialled_resume (remote port : UInt8) (late : Bool) :
    retsOf ((n₀.dialled remote port).resume late).2 = [-1] ∨
      (n₀.dialled remote port).resume late = (n₀.dialled remote port, []) := by
  cases late with
  | true => exact .inl rfl
  | false => exact .inr rfl

theorem answering_resume (late : Bool) :
    retsOf ((n₀.answering .pending .accepting).resume late).2 = [Error.timeout] ∨
      (n₀.answering .pending .accepting).resume late = (n₀.answering .pending .accepting, []) := by
  cases late with
  | true => exact .inl rfl
  | false => exact .inr rfl

/-- The client's call goes on. -/
theorem Stages.resume_left (h : n₀.Stages l r wl wr rl rr) (h₀ : n₀.New) (late : Bool) :
    (∃ x ∈ retsOf (l.resume late).2, x ≠ Error.none) ∨
      n₀.Stages (l.resume late).1 r wl (wr ++ sentOf (l.resume late).2)
        (rl ++ retsOf (l.resume late).2) rr := by
  have hgive : ∀ {out : List Output}, retsOf out = [-1] → ∃ x ∈ retsOf out, x ≠ Error.none := by
    intro out hout
    exact ⟨-1, by rw [hout]; exact List.mem_singleton_self _, by decide⟩
  have hstay : ∀ {e : Endpoint}, e.resume late = (e, []) → n₀.Stages e r wl wr rl rr →
      n₀.Stages (e.resume late).1 r wl (wr ++ sentOf (e.resume late).2)
        (rl ++ retsOf (e.resume late).2) rr := by
    intro e he hs
    rw [he]
    simpa [sentOf, retsOf] using hs
  cases h with
  | start h => exact .inr (hstay (Endpoint.resume_idle (h₀.idle .left)) (.start h))
  | dialled h r port ps hps =>
    exact (dialled_resume r port late).imp hgive fun he => hstay he (.dialled h r port _ hps)
  | rung r => exact (dialled_resume r _ late).imp hgive fun he => hstay he (.rung r)
  | answering r ps hps =>
    exact (dialled_resume r _ late).imp hgive fun he => hstay he (.answering r _ hps)
  | answered =>
    cases late with
    | true => exact .inl (hgive rfl)
    | false => exact .inr .opened
  | opened => exact .inr (hstay (Endpoint.resume_idle rfl) .opened)
  | confirmed => exact .inr (hstay (Endpoint.resume_idle rfl) .confirmed)
  | joined => exact .inr (hstay (Endpoint.resume_idle rfl) .joined)

/-- The server's call goes on. -/
theorem Stages.resume_right (h : n₀.Stages l r wl wr rl rr) (h₀ : n₀.New) (late : Bool) :
    (∃ x ∈ retsOf (r.resume late).2, x ≠ Error.none) ∨
      n₀.Stages l (r.resume late).1 (wl ++ sentOf (r.resume late).2) wr rl
        (rr ++ retsOf (r.resume late).2) := by
  have hgive : ∀ {out : List Output}, retsOf out = [Error.timeout] →
      ∃ x ∈ retsOf out, x ≠ Error.none := by
    intro out hout
    exact ⟨Error.timeout, by rw [hout]; exact List.mem_singleton_self _, by decide⟩
  have hstay : ∀ {e : Endpoint}, e.resume late = (e, []) → n₀.Stages l e wl wr rl rr →
      n₀.Stages l (e.resume late).1 (wl ++ sentOf (e.resume late).2) wr rl
        (rr ++ retsOf (e.resume late).2) := by
    intro e he hs
    rw [he]
    simpa [sentOf, retsOf] using hs
  have hwaits : ∀ {e : Endpoint} {rs : List Int}, n₀.Waits e rs → e.call = .idle := by
    intro e rs hw
    cases hw <;> exact h₀.idle .right
  cases h with
  | start h => exact .inr (hstay (Endpoint.resume_idle (hwaits h)) (.start h))
  | dialled h r port ps hps =>
    exact .inr (hstay (Endpoint.resume_idle (hwaits h)) (.dialled h r port _ hps))
  | rung r => exact .inr (hstay (Endpoint.resume_idle (h₀.idle .right)) (.rung r))
  | answering r ps hps =>
    exact (answering_resume late).imp hgive fun he => hstay he (.answering r _ hps)
  | answered => exact (answering_resume late).imp hgive fun he => hstay he .answered
  | opened => exact (answering_resume late).imp hgive fun he => hstay he .opened
  | confirmed =>
    cases late with
    | true => exact .inl (hgive rfl)
    | false => exact .inr .joined
  | joined => exact .inr (hstay (Endpoint.resume_idle rfl) .joined)

theorem Stages.listen (h : n₀.Stages l r wl wr rl rr) :
    (∃ x ∈ retsOf r.listen.2, x ≠ Error.none) ∨
      n₀.Stages l r.listen.1 (wl ++ sentOf r.listen.2) wr rl (rr ++ retsOf r.listen.2) := by
  by_cases hs : r.socket.state = .closed
  · refine .inr ?_
    cases h with
    | start h =>
      cases h with
      | closed remote => exact .start (.listening remote)
      | listening => cases hs
    | dialled h r port _ hps =>
      cases h with
      | closed remote => exact .dialled (.listening remote) r port _ hps
      | listening => cases hs
    | _ => cases hs
  · refine .inl ⟨Error.badState, ?_, by decide⟩
    unfold Endpoint.listen
    rw [if_neg hs]
    exact List.mem_singleton_self _

theorem Stages.accept (h : n₀.Stages l r wl wr rl rr) :
    (∃ x ∈ retsOf r.accept.2, x ≠ Error.none) ∨
      n₀.Stages l r.accept.1 (wl ++ sentOf r.accept.2) wr rl (rr ++ retsOf r.accept.2) := by
  by_cases hs : r.socket.state = .synRecved
  · refine .inr ?_
    cases h with
    | start h => cases h <;> cases hs
    | dialled h => cases h <;> cases hs
    | rung r => exact .answering r _ (.inl rfl)
    | _ => cases hs
  · refine .inl ⟨Error.badState, ?_, by decide⟩
    unfold Endpoint.accept
    rw [if_neg hs]
    exact List.mem_singleton_self _

theorem Stages.connect (h : n₀.Stages l r wl wr rl rr) (h₀ : n₀.New) (a port : UInt8) :
    (∃ x ∈ retsOf (l.connect a port).2, x ≠ Error.none) ∨
      n₀.Stages (l.connect a port).1 r wl (wr ++ sentOf (l.connect a port).2)
        (rl ++ retsOf (l.connect a port).2) rr := by
  by_cases hs : l.socket.state = .closed
  · refine .inr ?_
    cases h with
    | start h =>
      have hconnect : (n₀.ends .left).connect a port =
          (n₀.dialled a port, [.sent (synOf (n₀.dialling a port))]) :=
        if_neg (fun hne => hne (h₀.closed .left))
      rw [hconnect]
      exact .dialled h a port _ (.inr rfl)
    | _ => cases hs
  · refine .inl ⟨Error.badState, ?_, by decide⟩
    unfold Endpoint.connect
    rw [if_pos hs]
    exact List.mem_singleton_self _

/-- What has been put out so far. -/
def Stage (n₀ n : Net) : Prop :=
  n₀.Stages (n.ends .left) (n.ends .right) (n.wire .left) (n.wire .right)
    (n.hist .left).returned (n.hist .right).returned

theorem Spoilt.put {n : Net} (h : n.Spoilt) (i : Side) (e : Endpoint) (out : List Output) :
    (n.put i e out).Spoilt := by
  obtain ⟨j, x, hx, hne⟩ := h
  refine ⟨j, x, ?_, hne⟩
  obtain rfl | rfl := i.eq_or_other j
  · rw [put_hist_self, (History.noteAll_returned _ _).1]
    exact List.mem_append_left _ hx
  · simpa using hx

theorem spoilt_of_ret (n : Net) (i : Side) (e : Endpoint) {out : List Output}
    (h : ∃ x ∈ retsOf out, x ≠ Error.none) : (n.put i e out).Spoilt := by
  obtain ⟨x, hx, hne⟩ := h
  refine ⟨i, x, ?_, hne⟩
  rw [put_hist_self, (History.noteAll_returned _ _).1]
  exact List.mem_append_right _ hx

theorem stage_put_left {n : Net} {e : Endpoint} {out : List Output} :
    n₀.Stage (n.put .left e out) ↔ n₀.Stages e (n.ends .right) (n.wire .left)
      (n.wire .right ++ sentOf out) ((n.hist .left).returned ++ retsOf out)
      (n.hist .right).returned := by
  simp [Stage, (History.noteAll_returned _ _).1]

theorem stage_put_right {n : Net} {e : Endpoint} {out : List Output} :
    n₀.Stage (n.put .right e out) ↔ n₀.Stages (n.ends .left) e (n.wire .left ++ sentOf out)
      (n.wire .right) (n.hist .left).returned ((n.hist .right).returned ++ retsOf out) := by
  simp [Stage, (History.noteAll_returned _ _).1]

theorem Stages.kinds (h : n₀.Stages l r wl wr rl rr) (h₀ : n₀.New) :
    l.kind = .client ∧ r.kind = .server := by
  have hl := h₀.client
  have hr := h₀.server
  cases h with
  | start h => cases h <;> exact ⟨hl, hr⟩
  | dialled h => cases h <;> exact ⟨hl, hr⟩
  | _ => exact ⟨hl, hr⟩

theorem called_returned (n : Net) (i : Side) (a : Action) (j : Side) :
    ((n.called i a).hist j).returned = (n.hist j).returned := by
  obtain rfl | rfl := i.eq_or_other j
  · rw [called_hist_self]
    cases a <;> rfl
  · rw [called_hist_ne _ _ _ i.other_ne]

/-- One call, delivery or resumption. -/
theorem stage_step (h₀ : n₀.New) : ∀ n a n', n.Spoilt ∨ n₀.Stage n → n.Connecting a →
    n.step F a = some n' → n'.Spoilt ∨ n₀.Stage n' := by
  refine step_invariant (I := fun n => n.Spoilt ∨ n₀.Stage n) ?_ ?_ ?_
  · intro n i a e out h hok _ hact
    rcases h with h | h
    · obtain ⟨j, x, hx, hne⟩ := h
      have h' : (n.called i a).Spoilt := ⟨j, x, by rw [called_returned]; exact hx, hne⟩
      exact .inl (h'.put i e out)
    · have h' : n₀.Stage (n.called i a) := by
        unfold Stage
        rw [called_returned, called_returned]
        exact h
      obtain ⟨hl, hr⟩ := Stages.kinds h h₀
      cases a with
      | listen =>
        obtain ⟨hk, -, rfl, rfl⟩ := Endpoint.step_listen.mp hact
        cases i with
        | left => cases hl.symm.trans hk
        | right => exact (Stages.listen h').imp (spoilt_of_ret _ _ _) stage_put_right.mpr
      | accept =>
        obtain ⟨hk, -, rfl, rfl⟩ := Endpoint.step_accept.mp hact
        cases i with
        | left => cases hl.symm.trans hk
        | right => exact (Stages.accept h').imp (spoilt_of_ret _ _ _) stage_put_right.mpr
      | connect r port =>
        obtain ⟨hk, -, rfl, rfl⟩ := Endpoint.step_connect.mp hact
        cases i with
        | left => exact (Stages.connect h' h₀ r port).imp (spoilt_of_ret _ _ _) stage_put_left.mpr
        | right => cases hr.symm.trans hk
      | _ => exact absurd hok id
  · intro n i behind p ps h hw
    rcases h with h | h
    · have h' : (n.withWire i ps).Spoilt := h
      exact .inl (h'.put i _ _)
    · refine .inr ?_
      have h : n₀.Stages _ _ _ _ _ _ := h
      cases i with
      | left =>
        rw [hw] at h
        obtain ⟨l', htake, h'⟩ := h.deliver_left (F := F) h₀ behind
        rw [htake]
        exact stage_put_left.mpr (by simpa [sentOf, retsOf] using h')
      | right =>
        rw [hw] at h
        obtain ⟨r', htake, h'⟩ := h.deliver_right (F := F) h₀ behind
        rw [htake]
        exact stage_put_right.mpr (by simpa [sentOf, retsOf] using h')
  · intro n i late h
    rcases h with h | h
    · exact .inl (h.put i _ _)
    · cases i with
      | left => exact (Stages.resume_left h h₀ late).imp (spoilt_of_ret _ _ _) stage_put_left.mpr
      | right => exact (Stages.resume_right h h₀ late).imp (spoilt_of_ret _ _ _) stage_put_right.mpr

theorem New.stage (h₀ : n₀.New) : n₀.Stage n₀ := by
  unfold Stage
  rw [h₀.wire, h₀.wire, h₀.returned, h₀.returned]
  have hwaits : n₀.Waits (n₀.waiting .closed (n₀.ends .right).socket.remote) [] := .closed _
  have hsame : n₀.waiting .closed (n₀.ends .right).socket.remote = n₀.ends .right := by
    unfold waiting
    rw [← h₀.closed .right]
  rw [hsame] at hwaits
  exact .start hwaits

end

/-- The number in the SYN of each side. -/
def firstNumber (n₀ : Net) (i : Side) : UInt8 := (n₀.ends i).socket.sequenceNumber

/-- The two ends when both calls have returned. -/
def joinedEnds (n₀ : Net) : Side → Endpoint
  | .left => n₀.answered .opened .idle
  | .right => n₀.answering .opened .idle

/-- The last stage. -/
theorem New.joined {n₀ n : Net} (h₀ : n₀.New) (hl : n.ends .left = n₀.answered .opened .idle)
    (hr : n.ends .right = n₀.answering .opened .idle) (hw : ∀ j, n.wire j = []) :
    n.Joined n₀.firstNumber (n₀.ends .left).socket.lastRecvedAck := by
  have hends : n.ends = n₀.joinedEnds := by
    funext j
    cases j with
    | left => exact hl
    | right => exact hr
  constructor
  · rw [hends]
    exact h₀.client
  · rw [hends]
    exact h₀.server
  · intro j
    rw [hends]
    cases j <;> rfl
  · intro j
    rw [hends]
    cases j <;> rfl
  · intro j
    rw [hends]
    cases j <;> rfl
  · intro j
    rw [hends]
    cases j <;> rfl
  · intro j
    rw [hends]
    cases j <;> rfl
  · rw [hends]
    rfl
  · intro j
    rw [hends]
    cases j <;> rfl
  · exact hw

/-- **The connection has been made.** -/
theorem joined_of_returned {F : OnFull UInt8} {n₀ n : Net} (h₀ : n₀.New) {as : List NetAction}
    (hq : Runs.Meets (Net.step F) Net.Connecting n₀ as)
    (hrun : Runs.run (Net.step F) n₀ as = some n)
    (hl : (n.hist .left).returned = [Error.none])
    (hr : (n.hist .right).returned = [Error.none, Error.none]) :
    n.Joined n₀.firstNumber (n₀.ends .left).socket.lastRecvedAck := by
  have h := Runs.run_invariant (I := fun n => n.Spoilt ∨ n₀.Stage n) (stage_step h₀)
    (.inr h₀.stage) hq hrun
  rcases h with ⟨i, x, hx, hne⟩ | h
  · cases i with
    | left =>
      rw [hl] at hx
      exact absurd (List.mem_singleton.mp hx) hne
    | right =>
      rw [hr] at hx
      simp only [List.mem_cons, List.not_mem_nil, or_false, or_self] at hx
      exact absurd hx hne
  · unfold Stage at h
    rw [hl, hr] at h
    generalize hle : n.ends .left = l at h
    generalize hre : n.ends .right = r at h
    generalize hwl : n.wire .left = wl at h
    generalize hwr : n.wire .right = wr at h
    cases h with
    | joined =>
      refine h₀.joined hle hre ?_
      intro j
      cases j with
      | left => exact hwl
      | right => exact hwr

end Net

/-- **The first write.**  When the connection has been made, the first write works
on a perfect link for a string of two frames from a client whose SYN carried 255
and that does not hold 2, the number of the second frame, for acknowledged already;
and for no other one. -/
theorem firstWrite_iff (F : OnFull UInt8) (n₀ : Net) (h₀ : n₀.New) (as : List NetAction)
    (hq : Runs.Meets (Net.step F) Net.Connecting n₀ as) (n : Net)
    (hrun : Runs.run (Net.step F) n₀ as = some n)
    (hl : (n.hist .left).returned = [Error.none])
    (hr : (n.hist .right).returned = [Error.none, Error.none]) (i : Side) (b : List UInt8)
    (hne : b ≠ []) (hroom : b.length ≤ (n.ends i.other).socket.ringbuf.free) :
    n.WriteWorks F i b ↔ i = .left ∧ (n₀.ends .left).socket.sequenceNumber = 255 ∧
      (n₀.ends .left).socket.lastRecvedAck ≠ 2 ∧
      bytesPerFrame < b.length ∧ b.length ≤ 2 * bytesPerFrame :=
  (Net.joined_of_returned h₀ hq hrun hl hr).works_iff hne hroom

/-! ## Two examples -/

/-- `freshNet` with another number and a larger buffer. -/
def wrappedNet : Net where
  ends
    | .left =>
      { freshNet.ends .left with
        socket := { (freshNet.ends .left).socket with sequenceNumber := 255 } }
    | .right =>
      { freshNet.ends .right with
        socket := { (freshNet.ends .right).socket with ringbuf := .empty 128 } }

theorem freshNet_new : freshNet.New :=
  ⟨freshNet_fresh, fun _ => rfl⟩

theorem wrappedNet_new : wrappedNet.New :=
  ⟨⟨rfl, rfl, fun i => by cases i <;> rfl, fun i => by cases i <;> rfl, fun _ => rfl⟩,
    fun _ => rfl⟩

theorem wrappedNet_works : ∃ n,
    Runs.run (Net.step (OnFull.refuse UInt8)) wrappedNet oneAttempt = some n ∧
      n.WriteWorks (OnFull.refuse UInt8) .left (List.replicate 60 65) :=
  ⟨_, rfl, (firstWrite_iff (OnFull.refuse UInt8) wrappedNet wrappedNet_new oneAttempt
    (by decide +kernel) _ rfl (by decide +kernel) (by decide +kernel) .left (List.replicate 60 65)
    (by decide +kernel) (by decide +kernel)).mpr (by decide +kernel)⟩

/-- The frame goes out, the peer answers, and the time is over. -/
def refusedBurst : List NetAction :=
  [.act .left .burst, .poll .left [] false, arrives .right, .poll .left [fun _ => 0] true]

/-- With both counters at their initial value 1. -/
theorem freshNet_fails : freshNet.New ∧
    Runs.Meets (Net.step (OnFull.refuse UInt8)) Net.Connecting freshNet oneAttempt ∧ ∃ n m m',
    Runs.run (Net.step (OnFull.refuse UInt8)) freshNet oneAttempt = some n ∧
      (n.hist .left).returned = [Error.none] ∧
      (n.hist .right).returned = [Error.none, Error.none] ∧
      [65].length ≤ (n.ends .right).socket.ringbuf.free ∧
      n.step (OnFull.refuse UInt8) (.act .left (.write [65])) = some m ∧
      Runs.Meets (Net.step (OnFull.refuse UInt8)) (Net.Perfect .left) m refusedBurst ∧
      Runs.run (Net.step (OnFull.refuse UInt8)) m refusedBurst = some m' ∧
      (m'.ends .left).call.doing = .idle ∧
      (m'.hist .left).returned = [Error.none, Error.ackOutOfSequence] ∧
      (m'.ends .right).socket.ringbuf.toList = [] :=
  ⟨freshNet_new, by decide +kernel, _, _, _, rfl, by decide +kernel, by decide +kernel,
    by decide +kernel, rfl, by decide +kernel, rfl, by decide +kernel, by decide +kernel,
    by decide +kernel⟩

end PicoLan
