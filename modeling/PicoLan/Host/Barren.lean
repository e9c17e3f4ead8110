import PicoLan.Host.HangUp

/-!
# A connection that carries nothing

`send_syn` counts `sequence_number` up, and `write` gives its first frame the number after that:
not the one that the peer awaits, but the next.  So the first frame is refused, and as a refusal
acknowledges the SYN, which no entry of `frame_byte_pos` has as its number, so is every other one.
Unless a counter was 255, which is the number of the cleared entries, no byte that is written to a
stream ever reaches the other end of a connection that one `listen`, one `connect` and one `accept`
have made, each returning `NONE` (`Cable.carries_nothing`).  A second `connect` behind one that has
failed sends the next number, and then the frames can be the awaited ones.
-/

namespace PicoLan

open Runs

/-! ## Numbers -/

/-- The numbers from which a burst begins, when the SYN had the number `x` and `a` was the one
acknowledged last. -/
def Ahead (x a q : UInt8) : Prop := ∃ k < 4, q = x + UInt8.ofNat (k + 1) ∧ (k = 0 ∨ q + 1 = a)

theorem ahead_frameSeq {x q : UInt8} {k : Nat} (hq : q = x + UInt8.ofNat (k + 1)) (j : Nat) :
    frameSeq q j = x + UInt8.ofNat (k + 1 + (j + 1)) := by
  unfold frameSeq
  rw [hq, UInt8.add_assoc, ← UInt8.ofNat_add]

/-- No frame has the number of the SYN or the next. -/
theorem Ahead.frame {x a q : UInt8} (h : Ahead x a q) {j : Nat} (hj : j < 4) :
    frameSeq q j ≠ x ∧ frameSeq q j ≠ x + 1 := by
  obtain ⟨k, hk, hq, -⟩ := h
  have hne : ∀ m, m < 2 → frameSeq q j ≠ x + UInt8.ofNat m := by
    intro m hm heq
    rw [ahead_frameSeq hq, add_ofNat_inj x (by omega) (by omega)] at heq
    omega
  constructor
  · have h := hne 0 (by omega)
    rwa [show x + UInt8.ofNat 0 = x from UInt8.add_zero x] at h
  · exact hne 1 (by omega)

/-- A frame seems to be acknowledged. -/
theorem Ahead.acked {x a q : UInt8} (h : Ahead x a q) {j : Nat} (hj : j < 4)
    (hack : frameSeq q j = a ∨ frameSeq q j = x) : Ahead x a (q + UInt8.ofNat j) := by
  have hack := hack.resolve_right (h.frame hj).1
  obtain ⟨k, hk, hq, hcase⟩ := h
  rcases hcase with rfl | hnext
  · refine ⟨j, hj, ?_, .inr ?_⟩
    · rw [hq, UInt8.add_assoc, ← UInt8.ofNat_add, Nat.zero_add, Nat.add_comm]
    · rw [UInt8.add_assoc, ofNat_succ]
      exact hack
  · have hj₀ : j = 0 := by
      have heq : q + UInt8.ofNat (j + 1) = q + UInt8.ofNat 1 := hack.trans hnext.symm
      rw [add_ofNat_inj q (by omega) (by omega)] at heq
      omega
    subst hj₀
    rw [show q + UInt8.ofNat 0 = q from UInt8.add_zero q]
    exact ⟨k, hk, hq, .inr hnext⟩

theorem Verdict.ahead {x a q : UInt8} {p : Nat} {w : WriteCall} {s : SocketStream}
    {r : SocketStream × WriteResult} (h : Verdict q p w s r) (hq : s.sequenceNumber = q)
    (hahead : Ahead x a q) (hn : w.packetsToSend ≤ 4)
    (hack : s.lastRecvedAck = a ∨ s.lastRecvedAck = x) (hx : x ≠ 255) (ha : a ≠ 255) :
    Ahead x a r.1.sequenceNumber := by
  cases h with
  | timedOut => rwa [hq]
  | retry => rwa [hq]
  | cleared q' _ h255 =>
    rw [h255] at hack
    rcases hack with hack | hack
    · exact absurd hack.symm ha
    · exact absurd hack.symm hx
  | acked j hj hj' =>
    rw [hj'] at hack
    exact hahead.acked (by omega) hack
  | strange => rwa [hq]

/-! ## Packets -/

/-- The header of a packet between two streams whose SYNs had the numbers `x` and `y`, and which
gets the second no further: a frame that it does not await, or an acknowledgement of its SYN. -/
def DatagramPack.Vain (x y : UInt8) (p : DatagramPack) : Prop :=
  ∃ t m rest, p.payload.toList = t :: m :: rest ∧ (t = MessageType.data → m ≠ x + 1) ∧
    (t = MessageType.ack → m = y)

theorem vain_message {x y t m : UInt8} (s : SocketStream) (address : UInt8) (rest : List UInt8)
    (hdata : t = MessageType.data → m ≠ x + 1) (hack : t = MessageType.ack → m = y) :
    (s.message address (t :: m :: rest)).Vain x y :=
  ⟨t, m, rest.take 52, message_payload s address _, hdata, hack⟩

theorem vain_disconnect {s : SocketStream} {address x y : UInt8} :
    ∀ p ∈ (s.disconnect address).2, p.Vain x y := by
  intro p hp
  rw [mem_disconnect hp]
  exact vain_message _ _ _ (fun h => absurd h (by decide)) fun h => absurd h (by decide)

section

variable {F : OnFull UInt8} {x y : UInt8}

/-- Nothing new has been heard but that `x` is acknowledged. -/
structure SocketStream.Unmoved (x : UInt8) (s s' : SocketStream) : Prop where
  heard : s'.remoteSequence = s.remoteSequence
  acked : s'.lastRecvedAck = s.lastRecvedAck ∨ s'.lastRecvedAck = x
  ringbuf : s'.ringbuf = s.ringbuf
  state : s'.state = .closed ∨ s'.state = .opened

theorem SocketStream.handle_vain (k : Kind) (s : SocketStream) (address : UInt8) (b : Arrival)
    (hs : s.state = .closed ∨ s.state = .opened) (hy : s.remoteSequence = y)
    (hb : b.pack.Vain y x) : s.Unmoved x (s.handle F k address b).1 ∧
      ∀ p ∈ (s.handle F k address b).2, p.Vain x y := by
  obtain ⟨t, m, rest, hp, hdata, hack⟩ := hb
  have hcell₀ : b.data.cell 0 = t := by simp [Arrival.data, hp]
  have hcell₁ : b.data.cell 1 = m := by simp [Arrival.data, hp]
  have hnone : ∀ p ∈ ([] : List DatagramPack), p.Vain x y := fun p hp => by cases hp
  have hnot : ∀ {state : ConnectionState}, s.state = state → state ≠ .closed → state ≠ .opened →
      False := by
    intro state hs' hc ho
    rw [hs'] at hs
    exact hs.elim hc ho
  unfold SocketStream.handle
  split
  · have hr := s.receive_reaction F k address b
    generalize s.receive F k address b = io at hr ⊢
    cases hr with
    | ignored => exact ⟨⟨rfl, .inl rfl, rfl, hs⟩, hnone⟩
    | answered hs' => exact (hnot hs' (by decide) (by decide)).elim
    | called hs' => exact (hnot hs' (by decide) (by decide)).elim
    | confirmed hs' => exact (hnot hs' (by decide) (by decide)).elim
    | hungUp => exact ⟨⟨rfl, .inl rfl, rfl, .inl rfl⟩, hnone⟩
    | acked _ hd =>
      refine ⟨⟨rfl, .inr ?_, rfl, hs⟩, hnone⟩
      exact hcell₁.trans (hack (hcell₀.symm.trans hd))
    | accepted _ hd hq =>
      refine absurd (hcell₁.symm.trans hq.cell) ?_
      show m ≠ s.remoteSequence + 1
      rw [hy]
      exact hdata (hcell₀.symm.trans hd)
    | refused =>
      refine ⟨⟨rfl, .inl rfl, rfl, hs⟩, fun p hp => ?_⟩
      obtain rfl := List.mem_singleton.mp hp
      exact vain_message _ _ _ (fun h => absurd h (by decide)) fun _ => hy
  · exact ⟨⟨rfl, .inl rfl, rfl, hs⟩, hnone⟩

theorem SocketStream.handleAll_vain (k : Kind) (s : SocketStream) (address : UInt8)
    (as : List Arrival) (hs : s.state = .closed ∨ s.state = .opened) (hy : s.remoteSequence = y)
    (has : ∀ b ∈ as, b.pack.Vain y x) : s.Unmoved x (s.handleAll F k address as).1 ∧
      ∀ p ∈ (s.handleAll F k address as).2, p.Vain x y := by
  induction as generalizing s with
  | nil => exact ⟨⟨rfl, .inl rfl, rfl, hs⟩, fun p hp => by cases hp⟩
  | cons b as ih =>
    obtain ⟨hhead, hsent⟩ := handle_vain (F := F) k s address b hs hy (has b List.mem_cons_self)
    obtain ⟨htail, hsent'⟩ := ih (s.handle F k address b).1 hhead.state (hhead.heard.trans hy)
      fun c hc => has c (List.mem_cons_of_mem b hc)
    refine ⟨⟨htail.heard.trans hhead.heard, ?_, htail.ringbuf.trans hhead.ringbuf, htail.state⟩,
      fun p hp => ?_⟩
    · rcases htail.acked with h | h
      · exact hhead.acked.imp h.trans h.trans
      · exact .inr h
    · exact (List.mem_append.mp hp).elim (hsent p) (hsent' p)

end

/-! ## The stream -/

namespace Endpoint

variable {F : OnFull UInt8} {x y a : UInt8} {e e' : Endpoint} {b : Action} {out : List Output}

/-- The stream's SYN had the number `x` and that of its peer `y`, and neither has come further. -/
structure Stuck (x y a : UInt8) (e : Endpoint) : Prop where
  heard : e.socket.remoteSequence = y
  acked : e.socket.lastRecvedAck = a ∨ e.socket.lastRecvedAck = x
  number : Ahead x a e.socket.sequenceNumber
  inPass : e.InPass

/-- Only a CLOSE is sent, and no counter of the connection changes. -/
structure Rests (e : Endpoint) (r : Endpoint × List Output) : Prop where
  heard : r.1.socket.remoteSequence = e.socket.remoteSequence
  acked : r.1.socket.lastRecvedAck = e.socket.lastRecvedAck
  number : r.1.socket.sequenceNumber = e.socket.sequenceNumber
  sent : ∀ p ∈ sentOf r.2, p ∈ (e.socket.disconnect e.address).2

theorem rests_silent {r : Endpoint × List Output}
    (hheard : r.1.socket.remoteSequence = e.socket.remoteSequence)
    (hacked : r.1.socket.lastRecvedAck = e.socket.lastRecvedAck)
    (hnumber : r.1.socket.sequenceNumber = e.socket.sequenceNumber) (hout : sentOf r.2 = []) :
    Rests e r := by
  refine ⟨hheard, hacked, hnumber, ?_⟩
  rw [hout]
  exact forall_sentOf_nil _

theorem rests_disconnect : Rests e e.disconnect := by
  unfold Endpoint.disconnect
  dsimp only
  rw [disconnect_socket]
  refine ⟨rfl, rfl, rfl, fun p hp => ?_⟩
  rwa [sentOf_sent] at hp

theorem rests_endRead (got : List UInt8) : Rests e (e.endRead got) := by
  unfold endRead
  dsimp only
  split
  · split
    · rw [disconnect_socket]
      refine ⟨rfl, rfl, rfl, fun p hp => ?_⟩
      rw [sentOf_append, sentOf_sent] at hp
      exact (List.mem_append.mp hp).resolve_right fun h => by cases h
    · exact rests_silent rfl rfl rfl rfl
  · exact rests_silent rfl rfl rfl rfl

theorem rests_goOnReading (got : List UInt8) (len : Nat) : Rests e (e.goOnReading got len) := by
  unfold goOnReading
  dsimp only
  split
  · exact rests_silent rfl rfl rfl rfl
  · have h := rests_endRead (e := { e with socket := { e.socket with
      ringbuf := (e.socket.ringbuf.drain (len - got.length)).2 } })
      (got ++ (e.socket.ringbuf.drain (len - got.length)).1)
    refine ⟨h.heard, h.acked, h.number, fun p hp => ?_⟩
    have hmem := h.sent p hp
    rw [disconnect_sent] at hmem ⊢
    exact hmem

/-- When no `write` is running. -/
theorem rests_resume (hc : e.call ≠ .connecting ∧ e.call ≠ .accepting)
    (hw : ∀ w, e.call ≠ .writing w) (late : Bool) :
    Rests e (e.resume late) := by
  unfold Endpoint.resume
  split
  · exact rests_silent rfl rfl rfl rfl
  · next h => exact absurd h hc.1
  · next h => exact absurd h hc.2
  · split
    · exact rests_endRead _
    · exact rests_goOnReading _ _
  · next w h => exact absurd h (hw w)

theorem rests_act (hb : ¬ b.Connects) (hpoll : ∀ as late, b ≠ .poll as late)
    (hstep : e.step F b = some (e', out)) : Rests e (e', out) := by
  cases b with
  | poll as late => exact absurd rfl (hpoll as late)
  | connect r port => exact absurd trivial hb
  | listen => exact absurd trivial hb
  | accept => exact absurd trivial hb
  | burst =>
    obtain ⟨w, -, -, rfl, rfl⟩ := step_burst.mp hstep
    exact rests_silent rfl rfl rfl rfl
  | disconnect =>
    obtain ⟨-, rfl, rfl⟩ := step_disconnect.mp hstep
    exact rests_disconnect
  | write bytes =>
    obtain ⟨-, rfl, rfl⟩ := step_write.mp hstep
    unfold write
    split
    · exact rests_silent rfl rfl rfl rfl
    split <;> exact rests_silent rfl rfl rfl rfl
  | read len =>
    obtain ⟨-, rfl, rfl⟩ := step_read.mp hstep
    unfold read
    split
    · exact rests_silent rfl rfl rfl rfl
    · exact rests_goOnReading _ _

/-- A running `write` sends frames that are not awaited. -/
theorem Stuck.writing (h : e.Stuck x y a) (hx : x ≠ 255) (ha : a ≠ 255) {w : WriteCall}
    (hw : e.call = .writing w) {as : List Arrival} {late : Bool}
    (hnew : (e.takeAll F as).1.socket.lastRecvedAck = a ∨
      (e.takeAll F as).1.socket.lastRecvedAck = x)
    (hstep : WriteStep F e w (.poll as late) e' out) :
    e'.socket.remoteSequence = (e.takeAll F as).1.socket.remoteSequence ∧
      e'.socket.lastRecvedAck = (e.takeAll F as).1.socket.lastRecvedAck ∧
      Ahead x a e'.socket.sequenceNumber ∧
      ∀ p ∈ sentOf out, p ∈ sentOf (e.takeAll F as).2 ∨ p.Vain x y := by
  have hseq := e.takeAll_sequenceNumber F as
  have hnumber := h.number
  rw [← hseq] at hnumber
  have hstage := (h.inPass w hw).1
  cases hstep with
  | frame hpc =>
    refine ⟨rfl, rfl, hnumber, fun p hp => ?_⟩
    rw [sentOf_append] at hp
    refine (List.mem_append.mp hp).imp_right fun hp => ?_
    obtain rfl := List.mem_singleton.mp hp
    obtain ⟨hframe, -, hpack⟩ := hstage.of_sending hpc
    have hlt : _ < 4 := Nat.lt_of_lt_of_le hframe.lt (hframe.bursting.packets ▸ packetsFor_le _)
    exact ⟨_, _, _, hpack, fun _ => (h.number.frame hlt).2, fun h => absurd h (by decide)⟩
  | wait => exact ⟨rfl, rfl, hnumber, fun p hp => .inl hp⟩
  | ended hpc =>
    obtain ⟨hsent, hpos⟩ := hstage.of_waiting hpc
    have hverdict := hsent.verdict hpos (e.takeAll F as).1.socket hseq
    have hahead := hverdict.ahead hseq h.number hsent.packets_le hnew hx ha
    have hsocket := w.evaluate_socket (e.takeAll F as).1.socket
    generalize w.evaluate (e.takeAll F as).1.socket = r at hahead hsocket ⊢
    obtain ⟨s, w' | v⟩ := r
    · dsimp only at hsocket hahead
      refine ⟨?_, ?_, hahead, fun p hp => .inl ?_⟩
      · show s.remoteSequence = _
        rw [hsocket]
      · show s.lastRecvedAck = _
        rw [hsocket]
      · rw [sentOf_append] at hp
        exact (List.mem_append.mp hp).resolve_right fun h => by cases h
    · dsimp only at hsocket hahead
      refine ⟨?_, ?_, hahead, fun p hp => .inl ?_⟩
      · show s.remoteSequence = _
        rw [hsocket]
      · show s.lastRecvedAck = _
        rw [hsocket]
      · rw [sentOf_append] at hp
        exact (List.mem_append.mp hp).resolve_right fun h => by cases h

/-- **One step** of a stream whose peer is stuck as well. -/
theorem Stuck.step (h : e.Stuck x y a) (hx : x ≠ 255) (ha : a ≠ 255) (hl : e.Linked)
    (hb : ¬ b.Connects)
    (has : ∀ as late, b = .poll as late → ∀ c ∈ as, c.pack.Vain y x)
    (hstep : e.step F b = some (e', out)) :
    e'.Stuck x y a ∧ (∀ p ∈ sentOf out, p.Vain x y) ∧ gotten out ++ e'.held = e.held := by
  have hpass : e'.InPass := step_inPass h.inPass hstep
  by_cases hpoll : ∃ as late, b = .poll as late
  · obtain ⟨as, late, rfl⟩ := hpoll
    obtain ⟨hmoved, hsent⟩ := e.socket.handleAll_vain (F := F) e.kind e.address as hl.state h.heard
      (has as late rfl)
    have hheld : gotten out ++ e'.held = e.held := by
      rw [step_poll_held F hstep, hmoved.ringbuf]
      rfl
    have hheard : (e.takeAll F as).1.socket.remoteSequence = y := hmoved.heard.trans h.heard
    have hacked : (e.takeAll F as).1.socket.lastRecvedAck = a ∨
        (e.takeAll F as).1.socket.lastRecvedAck = x := by
      rcases hmoved.acked with hack | hack
      · exact h.acked.imp hack.trans hack.trans
      · exact .inr hack
    have hsent' : ∀ p ∈ sentOf (e.takeAll F as).2, p.Vain x y := by
      intro p hp
      exact hsent p (by rwa [show sentOf (e.takeAll F as).2 = _ from sentOf_sent _] at hp)
    by_cases hw : ∃ w, e.call = .writing w
    · obtain ⟨w, hw⟩ := hw
      obtain ⟨hheard', hack', hnumber', hout⟩ :=
        h.writing hx ha hw hacked (writeStep F hw hstep)
      refine ⟨⟨hheard'.trans hheard, ?_, hnumber', hpass⟩,
        fun p hp => (hout p hp).elim (hsent' p) id, hheld⟩
      rw [hack']
      exact hacked
    · obtain ⟨-, rfl, rfl⟩ := step_poll.mp hstep
      have hr := rests_resume (e := (e.takeAll F as).1) hl.call (fun w h => hw ⟨w, h⟩) late
      refine ⟨⟨hr.heard.trans hheard, ?_, ?_, hpass⟩, fun p hp => ?_, hheld⟩
      · rw [hr.acked]
        exact hacked
      · rw [hr.number, e.takeAll_sequenceNumber F as]
        exact h.number
      · rw [sentOf_append] at hp
        exact (List.mem_append.mp hp).elim (hsent' p) fun hp => vain_disconnect p (hr.sent p hp)
  · have hpoll' : ∀ as late, b ≠ .poll as late := fun as late hb => hpoll ⟨as, late, hb⟩
    have hr := rests_act hb hpoll' hstep
    refine ⟨⟨hr.heard.trans h.heard, ?_, ?_, hpass⟩, fun p hp => vain_disconnect p (hr.sent p hp),
      step_held F hstep hpoll'⟩
    · rw [hr.acked]
      exact h.acked
    · rw [hr.number]
      exact h.number

end Endpoint

namespace Net

/-- Both streams are stuck, and so is what is on its way between them. -/
structure Stuck (x a : Side → UInt8) (n : Net) : Prop where
  ends : ∀ i, (n.ends i).Stuck (x i) (x i.other) (a i)
  wire : ∀ i, ∀ p ∈ n.wire i, p.Vain (x i.other) (x i)

theorem Stuck.put {x a : Side → UInt8} {n : Net} (h : n.Stuck x a) (i : Side)
    {ps : List DatagramPack} (hps : ∀ p ∈ ps, p ∈ n.wire i) {e : Endpoint}
    (he : e.Stuck (x i) (x i.other) (a i))
    {out : List Output} (hout : ∀ p ∈ sentOf out, p.Vain (x i) (x i.other)) :
    ((n.withWire i ps).put i e out).Stuck x a := by
  constructor
  · intro j
    obtain rfl | rfl := i.eq_or_other j
    · rw [put_ends_self]
      exact he
    · rw [put_ends_ne _ _ _ _ i.other_ne]
      exact h.ends i.other
  · intro j p hp
    obtain rfl | rfl := i.eq_or_other j
    · rw [put_wire_self, withWire_wire_self] at hp
      exact h.wire j p (hps p hp)
    · rw [put_wire_ne _ _ _ _ i.other_ne, withWire_wire_ne _ _ _ i.other_ne] at hp
      refine (List.mem_append.mp hp).elim (h.wire i.other p) fun hp => ?_
      rw [i.other_other]
      exact hout p hp

end Net

theorem Net.stuck_of_joined {n₀ n : Net} (hends : n.ends = n₀.joinedEnds) (hw : ∀ i, n.wire i = []) :
    n.Stuck n₀.firstNumber fun i => (n₀.ends i).socket.lastRecvedAck where
  ends i := by
    have hidle : (n₀.joinedEnds i).InPass := Endpoint.inPass_of_idle (by cases i <;> rfl)
    rw [hends]
    cases i with
    | left => exact ⟨rfl, .inl rfl, ⟨0, by decide, rfl, .inl rfl⟩, hidle⟩
    | right => exact ⟨rfl, .inl rfl, ⟨0, by decide, rfl, .inl rfl⟩, hidle⟩
  wire i p hp := by
    rw [hw i] at hp
    cases hp

namespace Cable

variable {F : OnFull UInt8} {l : Side → Nat} {x a : Side → UInt8} {g : Side → List UInt8}
  {C C' : Cable}

/-- The two streams are stuck, and what their applications have read and can still read is `g`. -/
def Barren (l : Side → Nat) (x a : Side → UInt8) (g : Side → List UInt8) (C : Cable) : Prop :=
  ∃ n, Abs l C n ∧ n.Linked ∧ n.Stuck x a ∧
    ∀ i, gotten (outputsOf (l i) (C.log i)) ++ (n.ends i).held = g i

theorem Barren.step (h : Barren l x a g C) (hx : ∀ i, x i ≠ 255) (ha : ∀ i, a i ≠ 255)
    {c : Side × HostAction} (hok : Private F l C c ∧ Calls l (fun _ b => ¬ b.Connects) c)
    (hstep : C.step F c = some C') : Barren l x a g C' := by
  obtain ⟨i, c⟩ := c
  obtain ⟨n, hR, hlinked, hstuck, hg⟩ := h
  obtain ⟨n', out, hshown, hR', hlog, hother⟩ := hR.step hok.1 hstep
  -- the other stream has read nothing, and holds what it held
  have hgain : ∀ {e : Endpoint}, n'.ends i = e → n'.ends i.other = n.ends i.other →
      gotten out ++ e.held = (n.ends i).held →
      ∀ j, gotten (outputsOf (l j) (C'.log j)) ++ (n'.ends j).held = g j := by
    intro e hself hsame hheld j
    obtain rfl | rfl := i.eq_or_other j
    · rw [hlog, gotten_append, List.append_assoc, hself, hheld]
      exact hg j
    · rw [hother, hsame]
      exact hg i.other
  cases hshown with
  | same => exact ⟨n, hR', hlinked, hstuck, hgain rfl rfl rfl⟩
  | @call b _ e _ hc he hn hact =>
    subst hc
    have hb : ¬ b.Connects := hok.2 rfl
    have hnopoll : ∀ as late, b ≠ .poll as late := (Net.step_act hact).1
    obtain ⟨he', hsent, hheld⟩ := (hstuck.ends i).step (hx i) (ha i) (hlinked.ends i) hb
      (fun as late hb => absurd hb (hnopoll as late)) he
    have hput := Net.Stuck.put (n := n.called i b) ⟨hstuck.ends, hstuck.wire⟩ i (fun _ hp => hp)
      he' hsent
    rw [Net.withWire_self, ← hn] at hput
    refine ⟨n', hR', hlinked.step (fun j b' heq => ?_) hact, hput, hgain ?_ ?_ hheld⟩
    · cases heq
      exact hb
    · rw [hn, Net.put_ends_self]
    · rw [hn, Net.put_ends_ne _ _ _ _ i.other_ne, Net.called_ends]
  | @poll as rest late _ e _ _ _ hw he hn hpoll =>
    have has : ∀ c ∈ as, c.pack.Vain (x i.other) (x i) := fun c hc =>
      hstuck.wire i c.pack (by
        rw [hw]
        exact List.mem_append_left _ (List.mem_map_of_mem hc))
    obtain ⟨he', hsent, hheld⟩ := (hstuck.ends i).step (hx i) (ha i) (hlinked.ends i) id
      (fun as' late' hb => by
        cases hb
        exact has) he
    have hput := hstuck.put i (fun p hp => by
      rw [hw]
      exact List.mem_append_right _ hp) he' hsent
    rw [← hn] at hput
    refine ⟨n', hR', hlinked.step (fun j b' heq => by cases heq) hpoll, hput, hgain ?_ ?_ hheld⟩
    · rw [hn, Net.put_ends_self]
    · rw [hn, Net.put_ends_ne _ _ _ _ i.other_ne, Net.withWire_ends]

/-- **A connection carries nothing.**  Whatever two devices do, in a run without `set_address` in
which both streams stay bound and only they send to their ports: when two new streams, none of
whose counters was 255, have been connected by one `listen`, one `connect` and one `accept`, their
only calls until then, each of which has returned `NONE`, and these are not called again, what an
application has read from its stream, with what the stream still holds, is from then on what it
was when the connection was made. -/
theorem carries_nothing (F : OnFull UInt8) (l : Side → Nat) (e : Side → Endpoint) (C₀ : Cable)
    (h₀ : C₀.New l e)
    (h255 : ∀ i, (e i).socket.sequenceNumber ≠ 255 ∧ (e i).socket.lastRecvedAck ≠ 255)
    (cs₁ : List (Side × HostAction))
    (hok₁ : Meets (Cable.step F)
      (fun C x => Private F l C x ∧ Calls l (fun _ => Action.Connects) x) C₀ cs₁) (C₁ : Cable)
    (hrun₁ : run (Cable.step F) C₀ cs₁ = some C₁)
    (hl : retsOf (outputsOf (l .left) (C₁.log .left)) = [Error.none])
    (hr : retsOf (outputsOf (l .right) (C₁.log .right)) = [Error.none, Error.none])
    (cs₂ : List (Side × HostAction))
    (hok₂ : Meets (Cable.step F)
      (fun C x => Private F l C x ∧ Calls l (fun _ a => ¬ a.Connects) x) C₁ cs₂) (C : Cable)
    (hrun₂ : run (Cable.step F) C₁ cs₂ = some C) :
    ∃ e' : Side → Endpoint, ∀ i, (C.host i).endpoint (l i) = some (e' i) ∧
      gotten (outputsOf (l i) (C.log i)) ++ (e' i).held =
        gotten (outputsOf (l i) (C₁.log i)) ++ (e i).socket.ringbuf.toList := by
  obtain ⟨n₁, hR₁, hends, hjoined⟩ := joined_of_connects h₀ hok₁ hrun₁ hl hr
  have hbarren : Barren l (fun i => (e i).socket.sequenceNumber)
      (fun i => (e i).socket.lastRecvedAck)
      (fun i => gotten (outputsOf (l i) (C₁.log i)) ++ (e i).socket.ringbuf.toList) C₁ := by
    refine ⟨n₁, hR₁, hjoined.linked, Net.stuck_of_joined hends hjoined.wire, fun i => ?_⟩
    rw [hends]
    cases i <;> rfl
  obtain ⟨n, hR, -, -, hg⟩ := run_invariant (I := Barren l _ _ _)
    (fun _ _ _ h hok hstep => h.step (fun i => (h255 i).1) (fun i => (h255 i).2) hok hstep)
    hbarren hok₂ hrun₂
  exact ⟨n.ends, fun i => ⟨hR.endpoint i, hg i⟩⟩

end Cable

/-- The client writes a byte, and the server waits for it in vain. -/
def oneWrite : List (Side × HostAction) :=
  [(.left, .socket 0 (.write [65])),
    (.left, .socket 0 .burst),
    (.left, .poll [] false),
    (.right, .socket 0 (.read 1)),
    (.right, .poll (bytesFor (streamPacket 2 1 80 [2, 3, 65])) true),
    (.left, .poll (bytesFor (streamPacket 1 2 40 [0, 1])) false)]

theorem oneWrite_carries_nothing : ∃ C,
    run (Cable.step (OnFull.refuse UInt8)) twoDevices (oneCall ++ oneWrite) = some C ∧
    gotten (outputsOf 0 (C.log .right)) = [] := by
  let F := OnFull.refuse UInt8
  let l : Side → Nat := fun _ => 0
  have hbefore : (run (Cable.step F) twoDevices oneCall).map (fun C =>
      ((retsOf (outputsOf 0 (C.log .left)), retsOf (outputsOf 0 (C.log .right)),
        gotten (outputsOf 0 (C.log .right))),
        decide (Meets (Cable.step F)
            (fun C x => Cable.Private F l C x ∧ Cable.Calls l (fun _ a => ¬ a.Connects) x)
            C oneWrite ∧
          (run (Cable.step F) C oneWrite).isSome))) =
      some (([Error.none], [Error.none, Error.none], []), true) := by decide +kernel
  obtain ⟨C₁, hrun₁, hret⟩ := Option.map_eq_some_iff.mp hbefore
  obtain ⟨hrets, hafter⟩ := Prod.ext_iff.mp hret
  obtain ⟨hl, hrest⟩ := Prod.ext_iff.mp hrets
  obtain ⟨hr, hnone⟩ := Prod.ext_iff.mp hrest
  obtain ⟨hok₂, hrun⟩ := of_decide_eq_true hafter
  obtain ⟨C, hrun₂⟩ := Option.isSome_iff_exists.mp hrun
  obtain ⟨e, he⟩ := Cable.carries_nothing F l newPair twoDevices twoDevices_new
    (fun i => by cases i <;> decide) oneCall (by decide +kernel) C₁ hrun₁ hl hr oneWrite hok₂ C hrun₂
  refine ⟨C, ?_, ?_⟩
  · rw [run_append, hrun₁]
    exact hrun₂
  · have hg := (he .right).2
    rw [show gotten (outputsOf (l .right) (C₁.log .right)) = [] from hnone] at hg
    exact (List.append_eq_nil_iff.mp hg).1

end PicoLan
