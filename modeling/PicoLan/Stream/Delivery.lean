import PicoLan.Stream.Transfer

/-!
# Delivery in step

An acknowledged burst of `n` frames adds `n - 1` to `sequence_number`, not `n`,
so the sender is in step with its receiver until a burst is acknowledged and out
of step from then on.  In runs whose bursts all start in step
(`StartsInStep`), what has been written with success is what has been received
(`transfer_exact`).
-/

namespace PicoLan

section

variable {F : OnFull UInt8} {s : UInt8} {b : List UInt8} {r₀ : RingBuffer UInt8} {n : Net}
  {k a : Nat} {os : List Nat}

/-- Nothing has been written yet. -/
structure Net.Before (s : UInt8) (r₀ : RingBuffer UInt8) (n : Net) : Prop where
  inStep : n.InStep s
  ringbuf : (n.ends .right).socket.ringbuf = r₀

/-- How far a run has come. -/
inductive Net.Progress (s : UInt8) (r₀ : RingBuffer UInt8) (n : Net) : Prop where
  | before (h : n.Before s r₀)
  | during {b : List UInt8} {k a : Nat} {os : List Nat} (h : During s b r₀ n k a os)
  | outOfStep (h : n.OutOfStep)
  | failed (h : (n.hist .left).Failed)

/-- The first call. -/
theorem Net.Before.write (h : n.Before s r₀) (hne : b ≠ []) :
    During s b r₀ ((n.called .left (.write b)).put .left
      { n.ends .left with call := .writing { bytes := b } } []) 0 0 [] := by
  obtain ⟨⟨hopen, hidle, hseq, hack, hheard, hwire, hhist⟩, hring⟩ := h
  refine ⟨?_, ?_, hne, ?_, ?_, Nat.zero_le _, ?_, ?_, ?_, ?_, ?_, by simp, by simp, ?_⟩
  · intro i
    cases i with
    | left => simpa using hopen .left
    | right => simpa using hopen .right
  · simpa using hidle .right
  · simp [hhist, History.call, History.noteAll]
  · simpa using hheard
  · simp [hring]
  · simp [hring]
  · intro p hp
    simp [hwire .right, sentOf] at hp
  · simpa using hack
  · simp [hwire .left]
  · refine .top { bytes := b } (by simp) rfl rfl rfl ?_ ?_
    · simpa using hseq
    · simp [hhist, History.call, History.noteAll]

/-- Another call, when the first has returned. -/
theorem During.write (h : During s b r₀ n k a os) (hc : (n.ends .left).call = .idle)
    (b' : List UInt8) : ((n.called .left (.write b')).put .left
      { n.ends .left with call := .writing { bytes := b' } } []).OutOfStep := by
  cases h.stage with
  | done hc' ha hs hr hlen =>
    have hN := packetsFor_le b.length
    have hpos := packetsFor_pos (List.length_pos_of_ne_nil h.nonempty)
    refine ⟨⟨_, by rw [Net.put_ends_self], rfl⟩, ?_, ?_⟩
    · rw [Net.put_ends_self]
      show (n.ends .left).socket.lastRecvedAck ≠ (n.ends .left).socket.sequenceNumber
      rw [h.acked, hs]
      intro heq
      have := (add_ofNat_inj s (by omega) (by omega)).mp heq
      omega
    · simp [History.noteAll, History.call, hr, h.written]
  | top w hc' => cases hc.symm.trans hc'
  | sending w i pack hc' => cases hc.symm.trans hc'
  | waiting w hc' => cases hc.symm.trans hc'

theorem History.Failed.put (hf : (n.hist .left).Failed) (i : Side) (e : Endpoint)
    (out : List Output) : ((n.put i e out).hist .left).Failed := by
  cases i with
  | left => simpa using hf.noteAll out
  | right => simpa using hf

theorem Net.OutOfStep.put_right (h : n.OutOfStep) (e : Endpoint) (out : List Output) :
    (n.put .right e out).OutOfStep :=
  ⟨by simpa using h.top, by simpa using h.ne, by simpa using h.returned⟩

/-- A packet arrives. -/
theorem Net.Progress.deliver (h : n.Progress s r₀)
    (hroom : (n.hist .left).written.flatten.length ≤ r₀.free) (i : Side) (p : DatagramPack)
    (ps : List DatagramPack) (behind : Nat → UInt8) (hw : n.wire i = p :: ps)
    (htop : (n.ends i).atTop = false) :
    let e := (n.ends i).takeAll F [⟨p, behind⟩]
    ((n.withWire i ps).put i e.1 e.2).Progress s r₀ := by
  dsimp only
  cases h with
  | before h =>
    rw [h.inStep.wire i] at hw
    cases hw
  | during h =>
    cases i with
    | left =>
      obtain ⟨a', os', h'⟩ := h.deliver_left p ps behind hw
      exact .during h'
    | right =>
      rw [h.written] at hroom
      obtain ⟨k', os', h'⟩ := h.deliver_right (by simpa using hroom) p ps behind hw
      exact .during h'
  | outOfStep h =>
    cases i with
    | left =>
      obtain ⟨w, hc, hpc⟩ := h.top
      simp [Endpoint.atTop, hc, hpc] at htop
    | right =>
      have h' : (n.withWire .right ps).OutOfStep := ⟨h.top, h.ne, h.returned⟩
      exact .outOfStep (h'.put_right _ _)
  | failed h =>
    have h' : ((n.withWire i ps).hist .left).Failed := h
    exact .failed (h'.put i _ _)

/-- The running call goes on. -/
theorem Net.Progress.resume (h : n.Progress s r₀) (i : Side) (late : Bool) :
    (n.resume i late).Progress s r₀ := by
  cases h with
  | before h =>
    rw [Net.resume_eq, Endpoint.resume_idle (h.inStep.idle i), Net.put_self]
    exact .before h
  | during h =>
    cases i with
    | left =>
      obtain hf | ho | h' := h.resume_left late
      · exact .failed hf
      · exact .outOfStep ho
      · exact .during h'
    | right => exact .during (h.resume_right late)
  | outOfStep h =>
    cases i with
    | left =>
      obtain ⟨w, hc, hpc⟩ := h.top
      rw [Net.resume_eq, Endpoint.resume_top hc hpc, Net.put_self]
      exact .outOfStep h
    | right => exact .outOfStep (h.put_right _ _)
  | failed h => exact .failed (h.put i _ _)

theorem Net.put_written (n : Net) (i : Side) (e : Endpoint) (out : List Output) :
    ((n.put i e out).hist .left).written = (n.hist .left).written := by
  cases i with
  | left => simp [(History.noteAll_returned _ _).2]
  | right => simp

theorem Net.poll_written {i : Side} {behind : List (Nat → UInt8)} {late : Bool} {n' : Net}
    (hstep : n.step F (.poll i behind late) = some n') :
    (n'.hist .left).written = (n.hist .left).written := by
  obtain ⟨-, m, hm, rfl⟩ := Net.step_poll hstep
  rw [Net.resume_eq, Net.put_written]
  refine Runs.run_always (I := fun m => (m.hist .left).written = (n.hist .left).written) ?_ rfl hm
  intro m x m' hwr hdel
  obtain ⟨p, ps, -, rfl⟩ := Net.deliver_cases hdel
  rw [Net.put_written]
  exact hwr

theorem Net.Progress.poll (h : n.Progress s r₀)
    (hroom : (n.hist .left).written.flatten.length ≤ r₀.free) {i : Side}
    {behind : List (Nat → UInt8)} {late : Bool} {n' : Net}
    (hstep : n.step F (.poll i behind late) = some n') : n'.Progress s r₀ := by
  obtain ⟨htop, m, hm, rfl⟩ := Net.step_poll hstep
  refine Net.Progress.resume (And.left (Runs.run_always (I := fun m => m.Progress s r₀ ∧
    (m.ends i).atTop = false ∧ (m.hist .left).written.flatten.length ≤ r₀.free) ?_
    ⟨h, htop, hroom⟩ hm)) i late
  rintro m x m' ⟨hp, htop, hroom⟩ hdel
  obtain ⟨p, ps, hw, rfl⟩ := Net.deliver_cases hdel
  refine ⟨hp.deliver hroom i p ps x hw htop, ?_, ?_⟩
  · rw [Net.put_ends_self]
    exact htop
  · rw [Net.put_written]
    exact hroom

/-- Everything a step can be. -/
theorem Net.transfer_cases {n' : Net} {act : TransferAction} (h : n.transfer F act = some n') :
    (∃ bytes, act = .write bytes ∧ bytes ≠ [] ∧ (n.ends .left).call = .idle ∧
      n' = (n.called .left (.write bytes)).put .left ((n.ends .left).write bytes).1
        ((n.ends .left).write bytes).2) ∨
    (∃ w, act = .burst ∧ (n.ends .left).call = .writing w ∧ w.pc = .top ∧
      n' = n.put .left { n.ends .left with
        call := .writing (w.start (n.ends .left).socket (n.ends .left).address) } []) ∨
    (∃ i behind late, act = .poll i behind late ∧ n.step F (.poll i behind late) = some n') ∨
    ∃ i j, act = .drop i j ∧ j < (n.wire i).length ∧
      n' = n.withWire i ((n.wire i).eraseIdx j) := by
  cases act with
  | write bytes =>
    simp only [transfer] at h
    split at h
    · cases h
    · next hne =>
      obtain ⟨-, e, out, hstep, rfl⟩ := step_act h
      obtain ⟨hc, rfl, rfl⟩ := Endpoint.step_write.mp hstep
      exact .inl ⟨bytes, rfl, hne, hc, rfl⟩
  | burst =>
    have h : n.step F (.act .left .burst) = some n' := h
    obtain ⟨-, e, out, hstep, rfl⟩ := step_act h
    obtain ⟨w, hc, hpc, rfl, rfl⟩ := Endpoint.step_burst.mp hstep
    exact .inr (.inl ⟨w, rfl, hc, hpc, by rw [called_burst]⟩)
  | poll i behind late => exact .inr (.inr (.inl ⟨i, behind, late, rfl, h⟩))
  | drop i j =>
    simp only [transfer] at h
    split at h
    · next hj =>
      cases h
      exact .inr (.inr (.inr ⟨i, j, rfl, hj, rfl⟩))
    · cases h

/-- Strings are only added. -/
theorem Net.transfer_written {n' : Net} {act : TransferAction} (h : n.transfer F act = some n') :
    ∃ bs, (n'.hist .left).written = (n.hist .left).written ++ bs := by
  obtain ⟨bytes, -, -, -, rfl⟩ | ⟨w, -, -, -, rfl⟩ | ⟨i, behind, late, -, hstep⟩ |
    ⟨i, j, -, -, rfl⟩ := Net.transfer_cases h
  · refine ⟨[bytes], ?_⟩
    rw [Net.put_written]
    simp [History.call]
  · exact ⟨[], by rw [Net.put_written, List.append_nil]⟩
  · exact ⟨[], by rw [Net.poll_written hstep, List.append_nil]⟩
  · exact ⟨[], (List.append_nil _).symm⟩

/-- One step of a run. -/
theorem Net.Progress.step (h : n.Progress s r₀) {act : TransferAction} {n' : Net}
    (hok : n.StartsInStep act) (hstep : n.transfer F act = some n')
    (hroom : (n.hist .left).written.flatten.length ≤ r₀.free) : n'.Progress s r₀ := by
  obtain ⟨bytes, rfl, hne, hc, rfl⟩ | ⟨w, rfl, hc, hpc, rfl⟩ | ⟨i, behind, late, rfl, hpoll⟩ |
    ⟨i, j, rfl, hj, rfl⟩ := Net.transfer_cases hstep
  · cases h with
    | before h =>
      rw [Endpoint.write_opened (h.inStep.opened .left) hne]
      exact .during (h.write hne)
    | during h =>
      rw [Endpoint.write_opened (h.opened .left) hne]
      exact .outOfStep (h.write hc bytes)
    | outOfStep h =>
      obtain ⟨w, hc', -⟩ := h.top
      cases hc.symm.trans hc'
    | failed h =>
      obtain ⟨hret, hwr⟩ := History.noteAll_returned ((n.hist .left).call (.write bytes))
        ((n.ends .left).write bytes).2
      refine .failed (h.append (retsOf ((n.ends .left).write bytes).2) [bytes] ?_ ?_)
      · rw [Net.put_hist_self, Net.called_hist_self]
        exact hret
      · rw [Net.put_hist_self, Net.called_hist_self]
        exact hwr
  · cases h with
    | before h => cases hc.symm.trans (h.inStep.idle .left)
    | during h => exact .during (h.burst hc hpc)
    | outOfStep h => exact absurd hok h.ne
    | failed h => exact .failed (h.put _ _ _)
  · exact h.poll hroom hpoll
  · cases h with
    | before h =>
      rw [h.inStep.wire i] at hj
      cases hj
    | during h =>
      obtain ⟨os', h'⟩ := h.drop i j
      exact .during h'
    | outOfStep h => exact .outOfStep ⟨h.top, h.ne, h.returned⟩
    | failed h => exact .failed h

/-- What has been written with success has been received. -/
theorem Net.Progress.exact (h : n.Progress s r₀)
    (hret : (n.hist .left).returned = (n.hist .left).written.map fun b => (b.length : Int)) :
    (n.ends .right).socket.ringbuf.toList = r₀.toList ++ (n.hist .left).written.flatten := by
  cases h with
  | before h => simp [h.inStep.hist, h.ringbuf]
  | during h =>
    rw [h.written] at hret
    have hret : (n.hist .left).returned ≠ [] := by simp [hret]
    cases h.stage with
    | top w hc hb hpc hpos hs hr => exact absurd hr hret
    | sending w i pack hc hb hpc hw hp hs hr => exact absurd hr hret
    | waiting w hc hb hw hs hr => exact absurd hr hret
    | done hc ha hs hr hlen =>
      have hka := h.bound _ List.mem_cons_self
      have hmul := Nat.mul_le_mul_left bytesPerFrame hka
      rw [h.ring, h.written, List.take_of_length_le (by omega)]
      simp
  | outOfStep h =>
    have := congrArg List.length hret
    rw [List.length_map] at this
    exact absurd this h.returned.ne
  | failed h => exact absurd hret h.not_all

end

/-- **Reliable delivery, in step.**  In every run whose bursts all start in step:
when every write has returned its length and there was room, the receiver has put
the strings written into its ring buffer and nothing else. -/
theorem transfer_exact (F : OnFull UInt8) (s : UInt8) (n₀ : Net) (h₀ : n₀.InStep s)
    (as : List TransferAction) (hq : Runs.Meets (Net.transfer F) Net.StartsInStep n₀ as) (n : Net)
    (hrun : Runs.run (Net.transfer F) n₀ as = some n)
    (hroom : (n.hist .left).written.flatten.length ≤ (n₀.ends .right).socket.ringbuf.free)
    (hret : (n.hist .left).returned = (n.hist .left).written.map fun b => (b.length : Int)) :
    (n.ends .right).socket.ringbuf.toList =
      (n₀.ends .right).socket.ringbuf.toList ++ (n.hist .left).written.flatten := by
  have hn : (n.hist .left).written.flatten.length ≤ (n₀.ends .right).socket.ringbuf.free →
      n.Progress s (n₀.ends .right).socket.ringbuf := by
    refine Runs.run_invariant (I := fun m => (m.hist .left).written.flatten.length ≤
      (n₀.ends .right).socket.ringbuf.free → m.Progress s (n₀.ends .right).socket.ringbuf) ?_
      (fun _ => .before ⟨h₀, rfl⟩) hq hrun
    intro m act m' hm hok hstep hroom
    obtain ⟨bs, hbs⟩ := Net.transfer_written hstep
    rw [hbs, List.flatten_append, List.length_append] at hroom
    have hroom := (Nat.le_add_right _ _).trans hroom
    exact (hm hroom).step hok hstep hroom
  exact (hn hroom).exact hret

/-! ## Two frames -/

/-- A sender at address 2 and a receiver at address 1, open and in step at 0. -/
def openPair : Net where
  ends
    | .left =>
      { kind := .client, address := 2
        socket := { port := 40, remote := 1, ringbuf := .empty 64, state := .opened
                    sequenceNumber := 0, remoteSequence := 0, remotePort := 80 } }
    | .right =>
      { kind := .server, address := 1
        socket := { port := 80, remote := 2, ringbuf := .empty 64, state := .opened
                    remoteSequence := 0, remotePort := 40 } }

theorem openPair_inStep : openPair.InStep 0 :=
  ⟨fun i => by cases i <;> rfl, fun i => by cases i <;> rfl, rfl, rfl, rfl, fun _ => rfl, rfl⟩

def sixtyBytes : List UInt8 := (List.range 60).map UInt8.ofNat

/-- Of the two frames the first is lost, and so is what the other is answered.  Both go out again
and arrive, and the acknowledgement of the first is lost. -/
def lossyWrite : List TransferAction :=
  [.write sixtyBytes, .burst, .poll .left [] false, .poll .left [] false, .drop .right 0,
    .poll .right [fun _ => 0] false, .drop .left 0, .poll .left [] true,
    .burst, .poll .left [] false, .poll .left [] false,
    .poll .right [fun _ => 0, fun _ => 0] false, .drop .left 0, .poll .left [fun _ => 0] false]

theorem lossyWrite_exact : ∃ n,
    Runs.run (Net.transfer (OnFull.refuse UInt8)) openPair lossyWrite = some n ∧
      (n.hist .left).returned = [60] ∧ (n.ends .right).socket.ringbuf.toList =
        (openPair.ends .right).socket.ringbuf.toList ++ (n.hist .left).written.flatten := by
  have hends : (Runs.run (Net.transfer (OnFull.refuse UInt8)) openPair lossyWrite).map
      (fun n => ((n.hist .left).returned, (n.hist .left).written)) = some ([60], [sixtyBytes]) := by
    decide +kernel
  obtain ⟨n, hrun, hn⟩ := Option.map_eq_some_iff.mp hends
  obtain ⟨hret, hwritten⟩ := Prod.ext_iff.mp hn
  refine ⟨n, hrun, hret, transfer_exact (OnFull.refuse UInt8) 0 openPair openPair_inStep lossyWrite
    (by decide +kernel) n hrun ?_ ?_⟩
  · rw [show (n.hist .left).written = _ from hwritten]
    decide +kernel
  · rw [show (n.hist .left).written = _ from hwritten]
    exact hret

/-! ## A second write -/

/-- The frame of a short write goes out, arrives and is acknowledged. -/
def shortWrite (byte : UInt8) : List TransferAction :=
  [.write [byte], .burst, .poll .left [] false, .poll .right [fun _ => 0] false,
    .poll .left [fun _ => 0] false]

/-- The frame of the second write has the number of the first one's again, and that
number has been acknowledged.  So the write ends without a look at the link. -/
theorem secondWrite_lost : ∃ n,
    Runs.run (Net.transfer (OnFull.refuse UInt8)) openPair
        (shortWrite 65 ++ [.write [66], .burst, .poll .left [] false, .poll .left [] false]) =
      some n ∧
      (n.hist .left).written = [[65], [66]] ∧ (n.hist .left).returned = [1, 1] ∧
      (n.hist .left).written.flatten.length ≤ (openPair.ends .right).socket.ringbuf.free ∧
      (n.ends .right).socket.ringbuf.toList ≠
        (openPair.ends .right).socket.ringbuf.toList ++ (n.hist .left).written.flatten :=
  ⟨_, rfl, by decide +kernel, by decide +kernel, by decide +kernel, by decide +kernel⟩

end PicoLan
