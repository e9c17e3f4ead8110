import PicoLan.Host.Connection
import PicoLan.Host.Lifecycle

/-!
# Hanging up

Once one `listen`, one `connect` and one `accept` have opened a connection, either application may
hang up, and a stream does it of itself when three reads have come to nothing.  No such connection
stays open at one end only: as soon as a device has read all that is on its way to it, its stream
is closed if the other one is (`Cable.hang_up_heard`).
-/

namespace PicoLan

open Runs

/-- The packet is a CLOSE. -/
def DatagramPack.Closes (p : DatagramPack) : Prop :=
  p.payload.toList.head? = some MessageType.close

/-- The handler reads what was written. -/
theorem DatagramPack.closes_iff {p : DatagramPack} (h : p.payload.toList ≠ [])
    (behind : Nat → UInt8) : (Arrival.mk p behind).data.cell 0 = MessageType.close ↔ p.Closes := by
  obtain ⟨t, rest, hp⟩ := List.exists_cons_of_ne_nil h
  show p.payload.toList.getD 0 _ = _ ↔ _
  unfold DatagramPack.Closes
  rw [hp]
  simp

theorem message_closes_iff (s : SocketStream) (address t : UInt8) (rest : List UInt8) :
    (s.message address (t :: rest)).Closes ↔ t = MessageType.close := by
  unfold DatagramPack.Closes
  rw [message_payload, payloadSz, List.take_succ_cons, List.head?_cons, Option.some.injEq]

namespace Endpoint

variable {F : OnFull UInt8} {e e' : Endpoint} {out : List Output} {r : Endpoint × List Output}

/-- A message from `e` to its peer. -/
structure Sends (e : Endpoint) (p : DatagramPack) : Prop where
  source : p.sourceAddr = e.address
  dest : p.destAddr = e.socket.remote
  port : p.port = e.socket.remotePort
  payload : p.payload.toList ≠ []

theorem sends_message (s : SocketStream) (hr : s.remote = e.socket.remote)
    (hp : s.remotePort = e.socket.remotePort) (t : UInt8) (rest : List UInt8) :
    e.Sends (s.message e.address (t :: rest)) where
  source := rfl
  dest := hr
  port := hp
  payload := by
    rw [message_payload, payloadSz, List.take_succ_cons]
    exact List.cons_ne_nil _ _

/-- A connection is open, or over. -/
structure Linked (e : Endpoint) : Prop where
  state : e.socket.state = .closed ∨ e.socket.state = .opened
  call : e.call ≠ .connecting ∧ e.call ≠ .accepting
  frame : ∀ w i pack, e.call = .writing w → w.pc = .sending i pack → e.Sends pack ∧ ¬ pack.Closes

/-- The addresses and ports are the same. -/
structure SamePeer (e e' : Endpoint) : Prop where
  address : e'.address = e.address
  port : e'.socket.port = e.socket.port
  remote : e'.socket.remote = e.socket.remote
  remotePort : e'.socket.remotePort = e.socket.remotePort

/-- The stream goes on in its connection: it sends to its peer only, and a stream that closes has
been told to (`told`) or tells its peer. -/
structure Goes (told : Prop) (e : Endpoint) (r : Endpoint × List Output) : Prop where
  linked : r.1.Linked
  same : SamePeer e r.1
  sent : ∀ p ∈ sentOf r.2, e.Sends p ∧ (p.Closes → r.1.socket.state = .closed)
  closed : e.socket.state = .closed → r.1.socket.state = .closed
  closes : r.1.socket.state = .closed →
    e.socket.state = .closed ∨ told ∨ ∃ p ∈ sentOf r.2, p.Closes

theorem SamePeer.sends (h : SamePeer e e') {p : DatagramPack} (hp : e.Sends p) : e'.Sends p :=
  ⟨hp.source.trans h.address.symm, hp.dest.trans h.remote.symm, hp.port.trans h.remotePort.symm,
    hp.payload⟩

theorem linked_of_idle (hs : e.socket.state = .closed ∨ e.socket.state = .opened)
    (hc : e.call = .idle) : e.Linked := by
  refine ⟨hs, ⟨?_, ?_⟩, fun w i pack hw => ?_⟩
  · rw [hc]
    simp
  · rw [hc]
    simp
  · cases hc.symm.trans hw

theorem linked_writing (hs : e'.socket.state = .closed ∨ e'.socket.state = .opened)
    (hsame : SamePeer e e') {w : WriteCall} (hc : e'.call = .writing w)
    (hframe : ∀ i pack, w.pc = .sending i pack → e.Sends pack ∧ ¬ pack.Closes) : e'.Linked := by
  refine ⟨hs, ⟨?_, ?_⟩, fun w' i pack hw hpc => ?_⟩
  · rw [hc]
    simp
  · rw [hc]
    simp
  · obtain rfl : w = w' := by injection hc.symm.trans hw
    exact (hframe i pack hpc).imp_left hsame.sends

/-- The call that is running is the same. -/
theorem Linked.moved (h : e.Linked) {s : SocketStream} (hsame : SamePeer e { e with socket := s })
    (hs : s.state = .closed ∨ s.state = .opened) : ({ e with socket := s } : Endpoint).Linked :=
  ⟨hs, h.call, fun w i pack hw hpc => (h.frame w i pack hw hpc).imp_left hsame.sends⟩

variable {told : Prop}

/-- Nothing is sent, and the stream is as open as before. -/
theorem goes_silent (hlinked : r.1.Linked) (hsame : SamePeer e r.1) (hsent : sentOf r.2 = [])
    (hstate : r.1.socket.state = e.socket.state) : Goes told e r := by
  refine ⟨hlinked, hsame, ?_, hstate.trans, fun hs => .inl (hstate.symm.trans hs)⟩
  rw [hsent]
  exact forall_sentOf_nil _

theorem goes_stays (h : e.Linked) (hout : sentOf out = []) : Goes told e (e, out) :=
  goes_silent h ⟨rfl, rfl, rfl, rfl⟩ hout rfl

/-- `disconnect()`. -/
theorem goes_disconnect (hs : r.1.socket.state = .closed) (hc : r.1.call = .idle)
    (hsame : SamePeer e r.1) (hout : sentOf r.2 = (e.socket.disconnect e.address).2) :
    Goes told e r := by
  refine ⟨linked_of_idle (.inl hs) hc, hsame, fun p hp => ⟨?_, fun _ => hs⟩, fun _ => hs,
    fun _ => ?_⟩
  · rw [hout] at hp
    rw [mem_disconnect hp]
    exact sends_message e.socket rfl rfl _ _
  · by_cases hclosed : e.socket.state = .closed
    · exact .inl hclosed
    · have hcloses := (message_closes_iff e.socket e.address _ [e.socket.sequenceNumber]).mpr rfl
      refine .inr (.inr ⟨_, ?_, hcloses⟩)
      rw [hout, disconnect_sent, if_neg hclosed]
      exact List.mem_singleton_self _

theorem goes_endRead (hs : e.socket.state = .closed ∨ e.socket.state = .opened) (got : List UInt8) :
    Goes told e (e.endRead got) := by
  unfold endRead
  dsimp only
  split
  · split
    · refine goes_disconnect ?_ rfl ?_ ?_
      · rw [disconnect_socket]
      · rw [disconnect_socket]
        exact ⟨rfl, rfl, rfl, rfl⟩
      · rw [sentOf_append, sentOf_sent]
        exact List.append_nil _
    · exact goes_silent (linked_of_idle hs rfl) ⟨rfl, rfl, rfl, rfl⟩ rfl rfl
  · exact goes_silent (linked_of_idle hs rfl) ⟨rfl, rfl, rfl, rfl⟩ rfl rfl

theorem goes_goOnReading (hs : e.socket.state = .closed ∨ e.socket.state = .opened)
    (got : List UInt8) (len : Nat) : Goes told e (e.goOnReading got len) := by
  unfold goOnReading
  dsimp only
  split
  · refine goes_silent ⟨hs, ⟨?_, ?_⟩, fun w i pack hw => ?_⟩ ⟨rfl, rfl, rfl, rfl⟩ rfl rfl
    · simp
    · simp
    · cases hw
  · have h : Goes told _ _ := goes_endRead (e := { e with socket := { e.socket with
      ringbuf := (e.socket.ringbuf.drain (len - got.length)).2 } }) hs
      (got ++ (e.socket.ringbuf.drain (len - got.length)).1)
    refine ⟨h.linked, ⟨h.same.address, h.same.port, h.same.remote, h.same.remotePort⟩,
      fun p hp => ?_, h.closed, h.closes⟩
    obtain ⟨hsends, hcloses⟩ := h.sent p hp
    exact ⟨⟨hsends.source, hsends.dest, hsends.port, hsends.payload⟩, hcloses⟩

/-- A pass of `write` is over. -/
theorem goes_afterPass (hs : e.socket.state = .closed ∨ e.socket.state = .opened) (w : WriteCall) :
    Goes told e (e.afterPass (w.evaluate e.socket)) := by
  have hsocket := w.evaluate_socket e.socket
  generalize hr : w.evaluate e.socket = r at hsocket ⊢
  obtain ⟨s, w' | x⟩ := r
  · dsimp only at hsocket
    rw [hsocket]
    refine goes_silent (linked_writing (e := e) hs ⟨rfl, rfl, rfl, rfl⟩ rfl fun i pack hpc => ?_)
      ⟨rfl, rfl, rfl, rfl⟩ rfl rfl
    cases (WriteCall.evaluate_top hr).symm.trans hpc
  · dsimp only at hsocket
    rw [hsocket]
    exact goes_silent (linked_of_idle hs rfl) ⟨rfl, rfl, rfl, rfl⟩ rfl rfl

/-- The frame at hand is for the peer. -/
theorem sends_burst (w : WriteCall) (i j : Nat) (pack : DatagramPack)
    (h : (w.burst e.socket e.address i).pc = .sending j pack) : e.Sends pack ∧ ¬ pack.Closes := by
  obtain ⟨n, rest, rfl⟩ := w.burst_sending e.socket e.address h
  refine ⟨sends_message e.socket rfl rfl _ _, fun hc => ?_⟩
  exact absurd ((message_closes_iff ..).mp hc) (by decide)

/-- **The running call.** -/
theorem Linked.resume (h : e.Linked) (late : Bool) : Goes told e (e.resume late) := by
  unfold Endpoint.resume
  split
  · exact goes_stays h rfl
  · next hc => exact absurd hc h.call.1
  · next hc => exact absurd hc h.call.2
  · split
    · exact goes_endRead h.state _
    · exact goes_goOnReading h.state _ _
  · next w hc =>
    split
    · exact goes_stays h rfl
    · next i pack hpc =>
      refine ⟨linked_writing (e := e) h.state ⟨rfl, rfl, rfl, rfl⟩ rfl (sends_burst _ _),
        ⟨rfl, rfl, rfl, rfl⟩, fun p hp => ?_, id, .inl⟩
      obtain rfl := List.mem_singleton.mp hp
      obtain ⟨hsends, hcloses⟩ := h.frame w i p hc hpc
      exact ⟨hsends, fun hp => absurd hp hcloses⟩
    · split
      · exact goes_afterPass h.state w
      · exact goes_stays h rfl

/-- **The application's calls.** -/
theorem Linked.act {a : Action} (h : e.Linked) (hc : ¬ a.Connects)
    (ha : ∀ as late, a ≠ .poll as late) (hstep : e.step F a = some (e', out)) :
    Goes told e (e', out) := by
  cases a with
  | poll as late => exact absurd rfl (ha as late)
  | connect r port => exact absurd trivial hc
  | listen => exact absurd trivial hc
  | accept => exact absurd trivial hc
  | burst =>
    obtain ⟨w, -, -, rfl, rfl⟩ := step_burst.mp hstep
    exact goes_silent (linked_writing (e := e) h.state ⟨rfl, rfl, rfl, rfl⟩ rfl (sends_burst _ _))
      ⟨rfl, rfl, rfl, rfl⟩ rfl rfl
  | disconnect =>
    obtain ⟨hcall, rfl, rfl⟩ := step_disconnect.mp hstep
    refine goes_disconnect ?_ hcall ?_ (sentOf_sent _)
    · show (e.socket.disconnect e.address).1.state = _
      rw [disconnect_socket]
    · show SamePeer e { e with socket := (e.socket.disconnect e.address).1 }
      rw [disconnect_socket]
      exact ⟨rfl, rfl, rfl, rfl⟩
  | write bytes =>
    obtain ⟨-, rfl, rfl⟩ := step_write.mp hstep
    unfold write
    split
    · exact goes_stays h rfl
    split
    · exact goes_stays h rfl
    · refine goes_silent (linked_writing (e := e) h.state ⟨rfl, rfl, rfl, rfl⟩ rfl ?_)
        ⟨rfl, rfl, rfl, rfl⟩ rfl rfl
      intro i pack hpc
      cases hpc
  | read len =>
    obtain ⟨-, rfl, rfl⟩ := step_read.mp hstep
    unfold read
    split
    · exact goes_stays h rfl
    · exact goes_goOnReading h.state _ _

/-- A frame is answered. -/
theorem Linked.answer (h : e.Linked) {s s₀ : SocketStream}
    (hsame : SamePeer e { e with socket := s }) (hs : s.state = e.socket.state)
    (hr : s₀.remote = e.socket.remote)
    (hp : s₀.remotePort = e.socket.remotePort) (n : UInt8) :
    Goes told e ({ e with socket := s }, [.sent (s₀.message e.address [MessageType.ack, n])]) := by
  refine ⟨h.moved hsame (hs.symm ▸ h.state), hsame, fun p hmem => ?_, hs.trans,
    fun h => .inl (hs.symm.trans h)⟩
  obtain rfl := List.mem_singleton.mp hmem
  refine ⟨sends_message s₀ hr hp _ _, fun hc => ?_⟩
  exact absurd ((message_closes_iff ..).mp hc) (by decide)

/-- **A packet from the peer.** -/
theorem Linked.take (F : OnFull UInt8) (h : e.Linked) {p : DatagramPack} (behind : Nat → UInt8)
    (hfor : (Arrival.mk p behind).IsFor e.address e.socket.port)
    (hsource : p.sourceAddr = e.socket.remote) (hp : p.payload.toList ≠ []) :
    Goes p.Closes e (e.takeAll F [⟨p, behind⟩]) ∧
      (p.Closes → (e.takeAll F [⟨p, behind⟩]).1.socket.state = .closed) := by
  have hcloses := DatagramPack.closes_iff hp behind
  rw [takeAll_one]
  rcases h.state with hs | hs
  · rw [SocketStream.handle_closed F e.socket e.address _ hfor e.kind hs]
    have hsame : SamePeer e { e with socket := { e.socket with remote := p.sourceAddr } } :=
      ⟨rfl, rfl, hsource, rfl⟩
    exact ⟨goes_silent (h.moved hsame h.state) hsame rfl rfl, fun _ => hs⟩
  · rw [SocketStream.handle_opened F e.kind e.socket e.address _ hs, if_pos hfor]
    unfold SocketStream.onOpened
    split
    · next hd =>
      have hsame : SamePeer e { e with socket := { e.socket with
          remote := p.sourceAddr, state := .closed } } := ⟨rfl, rfl, hsource, rfl⟩
      exact ⟨⟨h.moved hsame (.inl rfl), hsame, forall_sentOf_nil _, fun _ => rfl,
        fun _ => .inr (.inl (hcloses.mp hd))⟩, fun _ => rfl⟩
    · next hd =>
      refine ⟨?_, fun hc => absurd (hcloses.mpr hc) hd⟩
      split
      · have hsame : SamePeer e { e with socket := { e.socket with
            remote := p.sourceAddr, lastRecvedAck := (Arrival.mk p behind).data.cell 1 } } :=
          ⟨rfl, rfl, hsource, rfl⟩
        exact goes_silent (h.moved hsame h.state) hsame rfl rfl
      split
      · split
        · apply h.answer
          · exact ⟨rfl, rfl, hsource, rfl⟩
          · rfl
          · exact hsource
          · rfl
        · apply h.answer
          · exact ⟨rfl, rfl, hsource, rfl⟩
          · rfl
          · exact hsource
          · rfl
      · have hsame : SamePeer e { e with socket := { e.socket with remote := p.sourceAddr } } :=
          ⟨rfl, rfl, hsource, rfl⟩
        exact goes_silent (h.moved hsame h.state) hsame rfl rfl

end Endpoint

namespace Net

variable {F : OnFull UInt8} {n n' : Net} {i : Side} {told : Prop} {r : Endpoint × List Output}

/-- Two streams that are or have been connected to each other. -/
structure Linked (n : Net) : Prop where
  ends : ∀ i, (n.ends i).Linked
  remote : ∀ i, (n.ends i).socket.remote = (n.ends i.other).address
  remotePort : ∀ i, (n.ends i).socket.remotePort = (n.ends i.other).socket.port
  sent : ∀ i, ∀ p ∈ n.wire i, (n.ends i.other).Sends p ∧
    (p.Closes → (n.ends i.other).socket.state = .closed)
  told : ∀ i, (n.ends i.other).socket.state = .closed →
    (n.ends i).socket.state = .closed ∨ ∃ p ∈ n.wire i, p.Closes

/-- One end goes on, when it has taken the packets that are not in `ps`. -/
theorem Linked.put (h : n.Linked) (i : Side) {ps : List DatagramPack} (hps : ∀ p ∈ ps, p ∈ n.wire i)
    (hgoes : (n.ends i).Goes told r) (htold : told → (n.ends i.other).socket.state = .closed)
    (hclose : ∀ p ∈ n.wire i, p.Closes → p ∈ ps ∨ r.1.socket.state = .closed) :
    ((n.withWire i ps).put i r.1 r.2).Linked := by
  have hsides : ∀ {P : Side → Prop}, P i → P i.other → ∀ j, P j := by
    intro P hi hother j
    obtain rfl | rfl := i.eq_or_other j
    · exact hi
    · exact hother
  have hself : ((n.withWire i ps).put i r.1 r.2).ends i = r.1 := put_ends_self ..
  have hother : ((n.withWire i ps).put i r.1 r.2).ends i.other = n.ends i.other :=
    put_ends_ne _ _ _ _ i.other_ne
  have hwire : ((n.withWire i ps).put i r.1 r.2).wire i = ps := by simp
  have hwire' : ((n.withWire i ps).put i r.1 r.2).wire i.other =
      n.wire i.other ++ sentOf r.2 := by simp
  constructor
  · refine hsides ?_ ?_
    · rw [hself]
      exact hgoes.linked
    · rw [hother]
      exact h.ends i.other
  · refine hsides ?_ ?_
    · rw [hself, hother, hgoes.same.remote]
      exact h.remote i
    · rw [i.other_other, hself, hother, hgoes.same.address, h.remote i.other, i.other_other]
  · refine hsides ?_ ?_
    · rw [hself, hother, hgoes.same.remotePort]
      exact h.remotePort i
    · rw [i.other_other, hself, hother, hgoes.same.port, h.remotePort i.other, i.other_other]
  · refine hsides ?_ ?_
    · rw [hwire, hother]
      exact fun p hp => h.sent i p (hps p hp)
    · rw [hwire', i.other_other, hself]
      intro p hp
      rcases List.mem_append.mp hp with hp | hp
      · have hsent := h.sent i.other p hp
        rw [i.other_other] at hsent
        exact ⟨hgoes.same.sends hsent.1, fun hc => hgoes.closed (hsent.2 hc)⟩
      · obtain ⟨hsends, hc⟩ := hgoes.sent p hp
        exact ⟨hgoes.same.sends hsends, hc⟩
  · refine hsides ?_ ?_
    · rw [hwire, hself, hother]
      intro hs
      rcases h.told i hs with hs | ⟨p, hp, hc⟩
      · exact .inl (hgoes.closed hs)
      · exact (hclose p hp hc).symm.imp_right fun hp => ⟨p, hp, hc⟩
    · rw [hwire', i.other_other, hself, hother]
      intro hs
      rcases hgoes.closes hs with hs | ht | ⟨p, hp, hc⟩
      · have htold' := h.told i.other
        rw [i.other_other] at htold'
        exact (htold' hs).imp_right fun ⟨p, hp, hc⟩ => ⟨p, List.mem_append_left _ hp, hc⟩
      · exact .inl (htold ht)
      · exact .inr ⟨p, List.mem_append_right _ hp, hc⟩

/-- Nothing is taken from the wire. -/
theorem Linked.goes (h : n.Linked) (i : Side) (hgoes : (n.ends i).Goes False r) :
    (n.put i r.1 r.2).Linked := by
  have hput := h.put i (fun _ hp => hp) hgoes False.elim fun _ hp _ => .inl hp
  rwa [withWire_self] at hput

/-- **One step**, when no connection is made. -/
theorem Linked.step {a : NetAction} (h : n.Linked) (hok : ∀ i b, a = .act i b → ¬ b.Connects)
    (hstep : n.step F a = some n') : n'.Linked := by
  refine step_invariant (I := Linked) (P := fun _ a => ∀ i b, a = .act i b → ¬ b.Connects)
    ?_ ?_ ?_ n a n' h hok hstep
  · intro n i a e out h hok ha hact
    have h' : (n.called i a).Linked := ⟨h.ends, h.remote, h.remotePort, h.sent, h.told⟩
    exact h'.goes i ((h.ends i).act (hok i a rfl) ha hact)
  · intro n i behind p ps h hw
    have hmem : p ∈ n.wire i := by
      rw [hw]
      exact List.mem_cons_self
    obtain ⟨hsends, hclosed⟩ := h.sent i p hmem
    have hto := h.remote i.other
    have hport := h.remotePort i.other
    rw [i.other_other] at hto hport
    obtain ⟨hgoes, hhears⟩ := (h.ends i).take F behind
      ⟨.inl (hsends.dest.trans hto), (hsends.port.trans hport).symm⟩
      (hsends.source.trans (h.remote i).symm) hsends.payload
    refine h.put i (fun q hq => ?_) hgoes hclosed fun q hq hc => ?_
    · rw [hw]
      exact List.mem_cons_of_mem _ hq
    · rw [hw] at hq
      rcases List.mem_cons.mp hq with rfl | hq
      · exact .inr (hhears hc)
      · exact .inl hq
  · intro n i late h
    rw [resume_eq]
    exact h.goes i ((h.ends i).resume late)

theorem Joined.linked {x : Side → UInt8} {k : UInt8} (h : n.Joined x k) : n.Linked where
  ends i := Endpoint.linked_of_idle (.inr (h.opened i)) (h.idle i)
  remote := h.remote
  remotePort := h.remotePort
  sent i p hp := by
    rw [h.wire i] at hp
    cases hp
  told i hs := by cases (h.opened i.other).symm.trans hs

end Net

namespace Cable

/-- **A hang-up is heard.**  Whatever else two devices do, in a run without `set_address` in which
both streams stay bound and only they send to their ports: when two new streams have been
connected by one `listen`, one `connect` and one `accept`, their only calls until then, each of
which has returned `NONE`, and from then on anything but these is called on them, they are open or
closed, and when nothing is on its way to a device whose stream is open, the other stream is open,
too.  (Behind a call that has failed, an old CLOSE can close a newer connection at one end.) -/
theorem hang_up_heard (F : OnFull UInt8) (l : Side → Nat) (e : Side → Endpoint) (C₀ : Cable)
    (h₀ : C₀.New l e) (cs₁ : List (Side × HostAction))
    (hok₁ : Meets (Cable.step F)
      (fun C x => Private F l C x ∧ Calls l (fun _ => Action.Connects) x) C₀ cs₁) (C₁ : Cable)
    (hrun₁ : run (Cable.step F) C₀ cs₁ = some C₁)
    (hl : retsOf (outputsOf (l .left) (C₁.log .left)) = [Error.none])
    (hr : retsOf (outputsOf (l .right) (C₁.log .right)) = [Error.none, Error.none])
    (cs₂ : List (Side × HostAction))
    (hok₂ : Meets (Cable.step F)
      (fun C x => Private F l C x ∧ Calls l (fun _ a => ¬ a.Connects) x) C₁ cs₂) (C : Cable)
    (hrun₂ : run (Cable.step F) C₁ cs₂ = some C) :
    ∃ e' : Side → Endpoint, ∀ i, (C.host i).endpoint (l i) = some (e' i) ∧
      ((e' i).socket.state = .closed ∨ (e' i).socket.state = .opened) ∧
      (e' i).socket.remote = (e' i.other).address ∧
      (e' i).socket.remotePort = (e' i.other).socket.port ∧
      (C.wire i = [] → (e' i).socket.state = .opened → (e' i.other).socket.state = .opened) := by
  obtain ⟨n₁, hR₁, -, hjoined⟩ := joined_of_connects h₀ hok₁ hrun₁ hl hr
  obtain ⟨n, ⟨as, has, hnet⟩, hR⟩ := (refines F l fun _ a => ¬ a.Connects).run hR₁ hok₂ hrun₂
  have hlinked : n.Linked := run_invariant (I := Net.Linked)
    (fun _ _ _ h hok hstep => h.step hok hstep) hjoined.linked has hnet
  refine ⟨n.ends, fun i => ⟨hR.endpoint i, (hlinked.ends i).state, hlinked.remote i,
    hlinked.remotePort i, fun hw hs => ((hlinked.ends i.other).state.resolve_left fun hc => ?_)⟩⟩
  rcases hlinked.told i hc with hclosed | ⟨p, hp, -⟩
  · cases hs.symm.trans hclosed
  · rw [hR.wire_nil hw] at hp
    cases hp

end Cable

/-- The client hangs up. -/
def oneHangUp : List (Side × HostAction) :=
  [(.left, .socket 0 .disconnect),
    (.right, .device (.read (bytesFor (streamPacket 2 1 80 [3, 2]))))]

theorem oneHangUp_heard : ∃ C,
    run (Cable.step (OnFull.refuse UInt8)) twoDevices (oneCall ++ oneHangUp) = some C ∧
    ∃ e : Side → Endpoint, ∀ i, (C.host i).endpoint 0 = some (e i) ∧
      (e i).socket.state = .closed := by
  let F := OnFull.refuse UInt8
  let l : Side → Nat := fun _ => 0
  have hbefore : (run (Cable.step F) twoDevices oneCall).map (fun C =>
      ((retsOf (outputsOf 0 (C.log .left)), retsOf (outputsOf 0 (C.log .right))),
        decide (Meets (Cable.step F)
            (fun C x => Cable.Private F l C x ∧ Cable.Calls l (fun _ a => ¬ a.Connects) x)
            C oneHangUp ∧
          (run (Cable.step F) C oneHangUp).map (fun C =>
            (C.wire .right, ((C.host .left).endpoint 0).map fun e => e.socket.state)) =
              some ([], some .closed)))) =
      some (([Error.none], [Error.none, Error.none]), true) := by decide +kernel
  obtain ⟨C₁, hrun₁, hret⟩ := Option.map_eq_some_iff.mp hbefore
  obtain ⟨hrets, hafter⟩ := Prod.ext_iff.mp hret
  obtain ⟨hl, hr⟩ := Prod.ext_iff.mp hrets
  obtain ⟨hok₂, hrun⟩ := of_decide_eq_true hafter
  obtain ⟨C, hrun₂, hstate⟩ := Option.map_eq_some_iff.mp hrun
  obtain ⟨hwire, hclosed⟩ := Prod.ext_iff.mp hstate
  obtain ⟨e, he⟩ := Cable.hang_up_heard F l newPair twoDevices twoDevices_new oneCall
    (by decide +kernel) C₁ hrun₁ hl hr oneHangUp hok₂ C hrun₂
  dsimp only at hclosed
  rw [(he .left).1] at hclosed
  have hleft : (e .left).socket.state = .closed := Option.some.inj hclosed
  have hright : (e .right).socket.state = .closed := by
    refine (he .right).2.1.resolve_right fun hs => ?_
    cases hleft.symm.trans ((he .right).2.2.2.2 hwire hs)
  refine ⟨C, ?_, e, fun i => ⟨(he i).1, by cases i <;> assumption⟩⟩
  rw [run_append, hrun₁]
  exact hrun₂

end PicoLan
