import PicoLan.Stream.Net
import PicoLan.Stream.Passes
import PicoLan.Stream.Sessions

/-!
# A link that is dead

When nothing arrives, `last_recved_ack` keeps the number that an earlier handshake
or `write` has left in it, and every pass of `write` looks at that number.  It says
that the link is dead exactly when the number happens to be `sequence_number`
(`deadLink_iff`).
-/

namespace PicoLan

/-- An endpoint and all that it has put out. -/
structure Log where
  endpoint : Endpoint
  out : List Output := []

def Log.step (F : OnFull UInt8) (l : Log) (a : Action) : Option Log :=
  (l.endpoint.step F a).map fun (e, out) => { endpoint := e, out := l.out ++ out }

/-- `iface->read()` finds no packet. -/
def Action.Silent : Action → Prop
  | .poll as _ => as = []
  | .burst => True
  | _ => False

theorem Action.Silent.waits {a : Action} (h : a.Silent) : a.Waits := by
  cases a with
  | poll as late => trivial
  | burst => trivial
  | _ => cases h

theorem retsOf_append (out out' : List Output) : retsOf (out ++ out') = retsOf out ++ retsOf out' := by
  induction out with
  | nil => rfl
  | cons o out ih => cases o <;> simp [retsOf, ih]

/-- The first `i` frames of the burst that `write` begins with. -/
def Endpoint.firstFrames (e : Endpoint) (bytes : List UInt8) (i : Nat) : List DatagramPack :=
  (List.range i).map (e.socket.frame e.address e.socket.sequenceNumber bytes 0)

def Endpoint.firstBurst (e : Endpoint) (bytes : List UInt8) : List DatagramPack :=
  e.firstFrames bytes (packetsFor bytes.length)

/-- `write` has sent its first burst three times and returned `TIMEOUT`. -/
structure TimedOut (e : Endpoint) (bytes : List UInt8) (l : Log) : Prop where
  sent : sentOf l.out = e.firstBurst bytes ++ e.firstBurst bytes ++ e.firstBurst bytes
  returned : retsOf l.out = [Error.timeout]
  sequenceNumber : l.endpoint.socket.sequenceNumber = e.socket.sequenceNumber

/-- When no packet comes, `write` returns once the clock has run out often enough,
and then it has timed out. -/
def ReportsDeadLink (F : OnFull UInt8) (e : Endpoint) (bytes : List UInt8) : Prop :=
  ∀ as l, (∀ a ∈ as, a.Silent) →
    Runs.run (Log.step F) { endpoint := (e.write bytes).1 } as = some l →
    (5 * (bytes.length + 3) ≤ as.countP Action.isLate → l.endpoint.call = .idle) ∧
      (l.endpoint.call = .idle → TimedOut e bytes l)

section

variable {F : OnFull UInt8}

theorem Log.step_some {l l' : Log} {a : Action} (h : l.step F a = some l') : ∃ out,
    l.endpoint.step F a = some (l'.endpoint, out) ∧ l'.out = l.out ++ out := by
  obtain ⟨⟨e, out⟩, hstep, rfl⟩ := Option.map_eq_some_iff.mp h
  exact ⟨out, hstep, rfl⟩

theorem Log.run_next {l l' : Log} {as : List Action}
    (h : Runs.run (Log.step F) l as = some l') :
    Runs.run (Endpoint.next F) l.endpoint as = some l'.endpoint := by
  induction as generalizing l with
  | nil =>
    cases h
    rfl
  | cons a as ih =>
    obtain ⟨m, hm, h⟩ := Runs.run_cons.mp h
    obtain ⟨out, hstep, -⟩ := step_some hm
    refine Runs.run_cons.mpr ⟨m.endpoint, ?_, ih h⟩
    unfold Endpoint.next
    rw [hstep]
    rfl

theorem Endpoint.takeAll_nil (e : Endpoint) : e.takeAll F [] = (e, []) := rfl

/-! ## With the number of the last frame acknowledged -/

/-- The three passes of a `write` that began at `e`: `k` bursts are behind it. -/
inductive Dying (e : Endpoint) (bytes : List UInt8) : Log → Prop where
  | top {w : WriteCall} {out : List Output} (hb : w.bytes = bytes) (hk : w.noAckCount < 3)
      (hpc : w.pc = .top) (hpos : w.bytesPos = 0)
      (hs : sentOf out = (List.replicate w.noAckCount (e.firstBurst bytes)).flatten)
      (hr : retsOf out = []) :
    Dying e bytes ⟨{ e with call := .writing w }, out⟩
  | frame {w : WriteCall} {out : List Output} {i : Nat} (hb : w.bytes = bytes)
      (hk : w.noAckCount < 3)
      (hpc : w.pc = .sending i (e.socket.frame e.address e.socket.sequenceNumber bytes 0 i))
      (hframe : AtFrame e.socket.sequenceNumber 0 w i)
      (hs : sentOf out = (List.replicate w.noAckCount (e.firstBurst bytes)).flatten ++
        e.firstFrames bytes i)
      (hr : retsOf out = []) :
    Dying e bytes ⟨{ e with call := .writing w }, out⟩
  | wait {w : WriteCall} {out : List Output} (hb : w.bytes = bytes) (hk : w.noAckCount < 3)
      (hsent : AllSent e.socket.sequenceNumber 0 w)
      (hs : sentOf out = (List.replicate (w.noAckCount + 1) (e.firstBurst bytes)).flatten)
      (hr : retsOf out = []) :
    Dying e bytes ⟨{ e with call := .writing w }, out⟩
  | ended {l : Log} (hidle : l.endpoint.call = .idle) (h : TimedOut e bytes l) : Dying e bytes l

theorem firstFrames_succ (e : Endpoint) (bytes : List UInt8) (i : Nat) :
    e.firstFrames bytes i ++ [e.socket.frame e.address e.socket.sequenceNumber bytes 0 i] =
      e.firstFrames bytes (i + 1) := by
  unfold Endpoint.firstFrames
  rw [List.range_succ, List.map_append]
  rfl

theorem sentOf_frame (out : List Output) (pack : DatagramPack) :
    sentOf (out ++ [.sent pack]) = sentOf out ++ [pack] := by
  rw [sentOf_append]
  rfl

theorem retsOf_frame (out : List Output) (pack : DatagramPack) :
    retsOf (out ++ [.sent pack]) = retsOf out := by
  rw [retsOf_append]
  exact List.append_nil _

section

variable {e e' : Endpoint} {bytes : List UInt8} {w : WriteCall} {a : Action}
  {out out' : List Output}

theorem Dying.step_top (hne : bytes ≠ []) (hb : w.bytes = bytes) (hk : w.noAckCount < 3)
    (hpc : w.pc = .top) (hpos : w.bytesPos = 0)
    (hs : sentOf out = (List.replicate w.noAckCount (e.firstBurst bytes)).flatten)
    (hr : retsOf out = []) (h : WriteStep F { e with call := .writing w } w a e' out') :
    Dying e bytes ⟨e', out ++ out'⟩ := by
  cases h with
  | burst =>
    have hlt : w.bytesPos < w.len := by
      rw [hpos, WriteCall.len, hb]
      exact List.length_pos_of_ne_nil hne
    obtain ⟨hframe, hstart⟩ := start_atFrame w e.socket e.address hlt
    obtain ⟨hbytes, hcount, -⟩ := w.start_same e.socket e.address
    rw [hpos] at hframe hstart
    rw [hb] at hstart
    rw [List.append_nil]
    refine .frame (hbytes.trans hb) (by rw [hcount]; exact hk) hstart hframe ?_ hr
    rw [hcount, hs]
    exact (List.append_nil _).symm
  | frame hpc' => exact absurd (hpc.symm.trans hpc') (by simp)
  | wait hpc' => exact absurd (hpc.symm.trans hpc') (by simp)
  | ended hpc' => exact absurd (hpc.symm.trans hpc') (by simp)

theorem Dying.step_frame (ha : a.Silent) {i : Nat} (hb : w.bytes = bytes) (hk : w.noAckCount < 3)
    (hpc : w.pc = .sending i (e.socket.frame e.address e.socket.sequenceNumber bytes 0 i))
    (hframe : AtFrame e.socket.sequenceNumber 0 w i)
    (hs : sentOf out = (List.replicate w.noAckCount (e.firstBurst bytes)).flatten ++
      e.firstFrames bytes i)
    (hr : retsOf out = []) (h : WriteStep F { e with call := .writing w } w a e' out') :
    Dying e bytes ⟨e', out ++ out'⟩ := by
  cases h with
  | burst hpc' => exact absurd (hpc.symm.trans hpc') (by simp)
  | @frame as late j pack hpc' =>
    obtain rfl : as = [] := ha
    cases hpc.symm.trans hpc'
    rw [Endpoint.takeAll_nil, List.nil_append]
    obtain ⟨hbytes, -, hcount, -⟩ := w.afterSend_same e.socket e.address i
    have hsent : sentOf (out ++ [.sent (e.socket.frame e.address e.socket.sequenceNumber bytes 0
        i)]) = (List.replicate w.noAckCount (e.firstBurst bytes)).flatten ++
          e.firstFrames bytes (i + 1) := by
      rw [sentOf_frame, hs, List.append_assoc, firstFrames_succ]
    rcases hframe.afterSend e.socket e.address rfl with ⟨-, hnext, hpc''⟩ | ⟨hlast, hwait⟩
    · rw [hb] at hpc''
      refine .frame (hbytes.trans hb) (by rw [hcount]; exact hk) hpc'' hnext ?_
        ((retsOf_frame _ _).trans hr)
      rw [hsent, hcount]
    · refine .wait (hbytes.trans hb) (by rw [hcount]; exact hk) hwait ?_
        ((retsOf_frame _ _).trans hr)
      rw [hsent, hcount, hlast, hframe.bursting.packets_zero hb, List.replicate_succ',
        List.flatten_append, List.flatten_singleton]
      rfl
  | wait hpc' => exact absurd (hpc.symm.trans hpc') (by simp)
  | ended hpc' => exact absurd (hpc.symm.trans hpc') (by simp)

/-- The wait lasts until the clock has run out, and no frame has been acknowledged. -/
theorem Dying.step_wait (hack : e.socket.lastRecvedAck = e.socket.sequenceNumber) (hne : bytes ≠ [])
    (ha : a.Silent) (hb : w.bytes = bytes) (hk : w.noAckCount < 3)
    (hsent : AllSent e.socket.sequenceNumber 0 w)
    (hs : sentOf out = (List.replicate (w.noAckCount + 1) (e.firstBurst bytes)).flatten)
    (hr : retsOf out = []) (h : WriteStep F { e with call := .writing w } w a e' out') :
    Dying e bytes ⟨e', out ++ out'⟩ := by
  cases h with
  | burst hpc' => exact absurd (hsent.pc.symm.trans hpc') (by simp)
  | frame hpc' => exact absurd (hsent.pc.symm.trans hpc') (by simp)
  | @wait as late hpc' =>
    obtain rfl : as = [] := ha
    rw [Endpoint.takeAll_nil, List.append_nil]
    exact .wait hb hk hsent hs hr
  | @ended as late hpc' =>
    obtain rfl : as = [] := ha
    have hlen : (0 : Nat) ≠ w.len := by
      rw [WriteCall.len, hb]
      exact (List.length_pos_of_ne_nil hne).ne
    rw [Endpoint.takeAll_nil, List.nil_append]
    dsimp only
    rw [hsent.evaluate_unacked hlen e.socket rfl hack]
    split
    · next h3 =>
      refine .ended rfl ⟨?_, ?_, rfl⟩
      · show sentOf (out ++ [.ret Error.timeout]) = _
        rw [sentOf_append, hs, h3]
        simp [List.replicate, sentOf]
      · show retsOf (out ++ [.ret Error.timeout]) = _
        rw [retsOf_append, hr]
        rfl
    · next h3 =>
      show Dying e bytes ⟨_, out ++ []⟩
      rw [List.append_nil]
      exact .top hb (show w.noAckCount + 1 < 3 by omega) rfl rfl hs hr

end

theorem Dying.step {e : Endpoint} {bytes : List UInt8} {l l' : Log} {a : Action}
    (hack : e.socket.lastRecvedAck = e.socket.sequenceNumber) (hne : bytes ≠ [])
    (hl : Dying e bytes l) (ha : a.Silent) (h : l.step F a = some l') : Dying e bytes l' := by
  obtain ⟨out', hstep, hout⟩ := Log.step_some h
  obtain ⟨e', out''⟩ := l'
  dsimp only at hstep hout
  subst hout
  cases hl with
  | top hb hk hpc hpos hs hr =>
    exact step_top hne hb hk hpc hpos hs hr (Endpoint.writeStep F rfl hstep)
  | frame hb hk hpc hframe hs hr =>
    exact step_frame ha hb hk hpc hframe hs hr (Endpoint.writeStep F rfl hstep)
  | wait hb hk hsent hs hr =>
    exact step_wait hack hne ha hb hk hsent hs hr (Endpoint.writeStep F rfl hstep)
  | ended hidle hover =>
    cases a with
    | poll as late =>
      obtain rfl : as = [] := ha
      obtain ⟨-, rfl, rfl⟩ := Endpoint.step_poll.mp hstep
      rw [Endpoint.takeAll_nil, Endpoint.resume_idle hidle, List.append_nil, List.append_nil]
      exact .ended hidle hover
    | burst =>
      obtain ⟨w, hcall, -⟩ := Endpoint.step_burst.mp hstep
      exact absurd (hidle.symm.trans hcall) (by simp)
    | _ => cases ha

theorem Dying.run {e : Endpoint} {bytes : List UInt8} {l l' : Log} {as : List Action}
    (hack : e.socket.lastRecvedAck = e.socket.sequenceNumber) (hne : bytes ≠ [])
    (hl : Dying e bytes l) (has : ∀ a ∈ as, a.Silent)
    (h : Runs.run (Log.step F) l as = some l') : Dying e bytes l' := by
  induction as generalizing l with
  | nil =>
    cases h
    exact hl
  | cons a as ih =>
    obtain ⟨m, hm, h⟩ := Runs.run_cons.mp h
    exact ih (hl.step hack hne (has a List.mem_cons_self) hm)
      (fun b hb => has b (List.mem_cons_of_mem a hb)) h

/-- No pass of these finds a cleared entry. -/
theorem Dying.clear {e : Endpoint} {bytes : List UInt8} {l : Log} {a : Action}
    (hack : e.socket.lastRecvedAck = e.socket.sequenceNumber) (hl : Dying e bytes l)
    (ha : a.Silent) : l.endpoint.Clear F a := by
  rintro w s hlook ⟨h255, hne, -⟩
  obtain ⟨as, late, rfl, hcall, -, rfl⟩ := Endpoint.look_eq F hlook
  obtain rfl : as = [] := ha
  rw [Endpoint.takeAll_nil] at h255 hne
  have hsock : l.endpoint.socket = e.socket := by
    cases hl with
    | ended hidle => exact absurd (hidle.symm.trans hcall) (by simp)
    | _ => rfl
  apply hne
  rw [← h255, hsock]
  exact hack.symm

theorem Dying.run_clear {e : Endpoint} {bytes : List UInt8} {l : Log} {as : List Action}
    (hack : e.socket.lastRecvedAck = e.socket.sequenceNumber) (hne : bytes ≠ [])
    (hl : Dying e bytes l) (has : ∀ a ∈ as, a.Silent) :
    Runs.Meets (Endpoint.next F) (fun e a => e.Clear F a) l.endpoint as := by
  induction as generalizing l with
  | nil => trivial
  | cons a as ih =>
    have ha := has a List.mem_cons_self
    refine ⟨hl.clear hack ha, fun m hm => ?_⟩
    obtain ⟨⟨m', out⟩, hstep, rfl⟩ := Option.map_eq_some_iff.mp hm
    have hlog : l.step F a = some ⟨m', l.out ++ out⟩ := by
      unfold Log.step
      rw [hstep]
      rfl
    exact ih (hl.step hack hne ha hlog) (fun b hb => has b (List.mem_cons_of_mem a hb))

/-! ## With another number -/

/-- Of what `write` has put behind it, each packet of the `n` sent has taken up to a
frame. -/
def WriteCall.Covered (w : WriteCall) (n : Nat) : Prop :=
  match w.pc with
  | .top => w.bytesPos ≤ bytesPerFrame * n
  | .sending i _ => w.initialBytePos + bytesPerFrame * i ≤ bytesPerFrame * n
  | .waiting => w.initialBytePos + bytesPerFrame * w.packetsToSend ≤ bytesPerFrame * n

theorem WriteCall.covered_top {w : WriteCall} (hpc : w.pc = .top) (n : Nat) :
    w.Covered n ↔ w.bytesPos ≤ bytesPerFrame * n := by
  unfold Covered
  rw [hpc]

theorem WriteCall.covered_sending {w : WriteCall} {i : Nat} {pack : DatagramPack}
    (hpc : w.pc = .sending i pack) (n : Nat) :
    w.Covered n ↔ w.initialBytePos + bytesPerFrame * i ≤ bytesPerFrame * n := by
  unfold Covered
  rw [hpc]

theorem WriteCall.covered_waiting {w : WriteCall} (hpc : w.pc = .waiting) (n : Nat) :
    w.Covered n ↔
      w.initialBytePos + bytesPerFrame * w.packetsToSend ≤ bytesPerFrame * n := by
  unfold Covered
  rw [hpc]

/-- How a `write` can end on a dead link: it times out on the number that was there
before, it does not find it, or it takes it for the end of the string. -/
def Ending (e : Endpoint) (bytes : List UInt8) (l : Log) (r : Int) : Prop :=
  (r = Error.timeout ∧ l.endpoint.socket.sequenceNumber = e.socket.lastRecvedAck) ∨
    r = Error.ackOutOfSequence ∨
    (r = asInt bytes.length ∧ bytes.length ≤ bytesPerFrame * (sentOf l.out).length)

/-- A `write` on a dead link, whatever was acknowledged before. -/
structure Deaf (e : Endpoint) (bytes : List UInt8) (l : Log) : Prop where
  ack : l.endpoint.socket.lastRecvedAck = e.socket.lastRecvedAck
  inPass : l.endpoint.InPass
  writes : l.endpoint.OnlyWrites
  running : ∀ w, l.endpoint.call = .writing w →
    w.bytes = bytes ∧ retsOf l.out = [] ∧ w.Covered (sentOf l.out).length
  ended : l.endpoint.call = .idle → ∃ r, retsOf l.out = [r] ∧ Ending e bytes l r

theorem Verdict.deaf {e : Endpoint} {bytes : List UInt8} {q : UInt8} {w : WriteCall}
    {s : SocketStream} {r : SocketStream × WriteResult} {n : Nat}
    (h : Verdict q w.initialBytePos w s r) (hb : w.bytes = bytes) (hq : s.sequenceNumber = q)
    (hack : s.lastRecvedAck = e.socket.lastRecvedAck)
    (hcov : w.initialBytePos + bytesPerFrame * w.packetsToSend ≤ bytesPerFrame * n) :
    r.1.lastRecvedAck = e.socket.lastRecvedAck ∧
      (∀ w', r.2 = .goesOn w' → w'.bytes = bytes ∧ w'.Covered n) ∧
      ∀ v, r.2 = .returns v →
        (v = Error.timeout ∧ r.1.sequenceNumber = e.socket.lastRecvedAck) ∨
          v = Error.ackOutOfSequence ∨ (v = asInt bytes.length ∧ bytes.length ≤ bytesPerFrame * n) := by
  cases h with
  | timedOut hq' =>
    refine ⟨hack, by simp, fun v hv => ?_⟩
    cases hv
    exact .inl ⟨rfl, hq.trans (hq'.symm.trans hack)⟩
  | retry =>
    refine ⟨hack, fun w' hw' => ?_, by simp⟩
    cases hw'
    exact ⟨hb, (WriteCall.covered_top rfl n).mpr (by dsimp only; omega)⟩
  | cleared =>
    refine ⟨hack, fun w' hw' => ?_, by simp⟩
    cases hw'
    exact ⟨hb, (WriteCall.covered_top rfl n).mpr (Nat.zero_le _)⟩
  | acked j hj =>
    have hend : frameEnd w.len w.initialBytePos j ≤ bytesPerFrame * n := by
      have h52 : bytesPerFrame = 52 := rfl
      unfold frameEnd
      rw [h52] at hcov ⊢
      omega
    by_cases hlast : frameEnd w.len w.initialBytePos j = w.len
    · rw [WriteCall.again_returns _ hlast]
      refine ⟨hack, by simp, fun v hv => .inr (.inr ⟨?_, ?_⟩)⟩
      · rw [← WriteResult.returns.inj hv, ← hb]
        rfl
      · rw [hlast] at hend
        rw [← hb]
        exact hend
    · rw [WriteCall.again_goesOn _ hlast]
      refine ⟨hack, fun w' hw' => ?_, by simp⟩
      cases hw'
      exact ⟨hb, (WriteCall.covered_top rfl n).mpr hend⟩
  | strange =>
    refine ⟨hack, by simp, fun v hv => ?_⟩
    cases hv
    exact .inr (.inl rfl)

theorem Deaf.idle {e : Endpoint} {bytes : List UInt8} {l : Log} (hl : Deaf e bytes l)
    (hidle : l.endpoint.call = .idle) {a : Action} {l' : Log} (ha : a.Silent)
    (h : l.step F a = some l') : Deaf e bytes l' := by
  obtain ⟨out', hstep, hout⟩ := Log.step_some h
  obtain ⟨e', out''⟩ := l'
  dsimp only at hstep hout
  subst hout
  cases a with
  | poll as late =>
    obtain rfl : as = [] := ha
    obtain ⟨-, rfl, rfl⟩ := Endpoint.step_poll.mp hstep
    rw [Endpoint.takeAll_nil, Endpoint.resume_idle hidle, List.append_nil, List.append_nil]
    exact hl
  | burst =>
    obtain ⟨w, hcall, -⟩ := Endpoint.step_burst.mp hstep
    exact absurd (hidle.symm.trans hcall) (by simp)
  | _ => cases ha

/-- What a running call keeps, and what it has put out when it ends. -/
theorem Deaf.of_writing {e e' : Endpoint} {bytes : List UInt8} {out : List Output} {w : WriteCall}
    (hack : e'.socket.lastRecvedAck = e.socket.lastRecvedAck) (hpass : e'.InPass)
    (hcall : e'.call = .writing w) (hb : w.bytes = bytes) (hr : retsOf out = [])
    (hcov : w.Covered (sentOf out).length) : Deaf e bytes ⟨e', out⟩ := by
  refine ⟨hack, hpass, .inr ⟨w, hcall⟩, fun w' hw' => ?_, fun hidle => ?_⟩
  · obtain rfl : w = w' := by injection hcall.symm.trans hw'
    exact ⟨hb, hr, hcov⟩
  · exact absurd (hidle.symm.trans hcall) (by simp)

theorem Deaf.step {e : Endpoint} {bytes : List UInt8} {l l' : Log} {a : Action}
    (hl : Deaf e bytes l) (ha : a.Silent) (h : l.step F a = some l') : Deaf e bytes l' := by
  rcases hl.writes with hidle | ⟨w, hcall⟩
  · exact hl.idle hidle ha h
  obtain ⟨out', hstep, hout⟩ := Log.step_some h
  obtain ⟨e', out''⟩ := l'
  dsimp only at hstep hout
  subst hout
  obtain ⟨hb, hr, hcov⟩ := hl.running w hcall
  obtain ⟨hst, h3⟩ := hl.inPass w hcall
  have hws := Endpoint.writeStep F hcall hstep
  have hpass := hws.inPass F hcall hl.inPass
  have h52 : bytesPerFrame = 52 := rfl
  cases hws with
  | burst hpc =>
    have hpos := hst.of_top hpc
    obtain ⟨-, hstart⟩ := start_atFrame w l.endpoint.socket l.endpoint.address hpos
    obtain ⟨hbytes, -, hinit⟩ := w.start_same l.endpoint.socket l.endpoint.address
    rw [List.append_nil]
    refine .of_writing hl.ack hpass rfl (hbytes.trans hb) hr ?_
    rw [WriteCall.covered_sending hstart, hinit]
    exact (WriteCall.covered_top hpc _).mp hcov
  | @frame as late i pack hpc =>
    obtain rfl : as = [] := ha
    rw [Endpoint.takeAll_nil] at hpass ⊢
    rw [List.nil_append]
    obtain ⟨hframe, -, -⟩ := hst.of_sending hpc
    obtain ⟨hbytes, hinit, -, hpackets⟩ :=
      w.afterSend_same l.endpoint.socket l.endpoint.address i
    have hlt := (WriteCall.covered_sending hpc _).mp hcov
    have hlen : (sentOf (l.out ++ [.sent pack])).length = (sentOf l.out).length + 1 := by
      rw [sentOf_frame, List.length_append]
      rfl
    refine .of_writing hl.ack hpass rfl (hbytes.trans hb) ((retsOf_frame _ _).trans hr) ?_
    rw [hlen]
    rcases hframe.afterSend l.endpoint.socket l.endpoint.address rfl with
      ⟨-, -, hnext⟩ | ⟨hlast, hsent⟩
    · rw [WriteCall.covered_sending hnext, hinit, Nat.mul_succ, Nat.mul_succ]
      omega
    · rw [WriteCall.covered_waiting hsent.pc, hinit, hpackets, ← hlast, Nat.mul_succ, Nat.mul_succ]
      omega
  | @wait as late hpc =>
    obtain rfl : as = [] := ha
    rw [Endpoint.takeAll_nil, List.append_nil]
    exact hl
  | @ended as late hpc =>
    obtain rfl : as = [] := ha
    rw [Endpoint.takeAll_nil] at hpass ⊢
    rw [List.nil_append]
    obtain ⟨hsent, hpos⟩ := hst.of_waiting hpc
    have hcov := (WriteCall.covered_waiting hpc _).mp hcov
    obtain ⟨hack', hgoes, hrets⟩ := (hsent.verdict hpos l.endpoint.socket rfl).deaf hb rfl hl.ack hcov
    dsimp only at hpass ⊢
    generalize w.evaluate l.endpoint.socket = r at hack' hgoes hrets hpass ⊢
    obtain ⟨s, r⟩ := r
    cases r with
    | goesOn w' =>
      obtain ⟨hb', hcov'⟩ := hgoes w' rfl
      show Deaf e bytes ⟨_, l.out ++ []⟩
      rw [List.append_nil]
      exact .of_writing hack' hpass rfl hb' hr hcov'
    | returns v =>
      have hsame : sentOf (l.out ++ [.ret v]) = sentOf l.out := by
        rw [sentOf_append]
        exact List.append_nil _
      refine ⟨hack', hpass, .inl rfl, fun w' hw' => (by cases hw'), fun _ => ⟨v, ?_, ?_⟩⟩
      · show retsOf (l.out ++ [.ret v]) = [v]
        rw [retsOf_append, hr]
        rfl
      · show _ ∨ _ ∨ (_ ∧ _ ≤ bytesPerFrame * (sentOf (l.out ++ [.ret v])).length)
        rw [hsame]
        exact hrets v rfl

theorem Deaf.run {e : Endpoint} {bytes : List UInt8} {l l' : Log} {as : List Action}
    (hl : Deaf e bytes l) (has : ∀ a ∈ as, a.Silent)
    (h : Runs.run (Log.step F) l as = some l') : Deaf e bytes l' := by
  induction as generalizing l with
  | nil =>
    cases h
    exact hl
  | cons a as ih =>
    obtain ⟨m, hm, h⟩ := Runs.run_cons.mp h
    exact ih (hl.step (has a List.mem_cons_self) hm) (fun b hb => has b (List.mem_cons_of_mem a hb)) h

/-! ## The clock -/

theorem Endpoint.atTop_iff {e : Endpoint} :
    e.atTop = true ↔ ∃ w, e.call = .writing w ∧ w.pc = .top := by
  unfold atTop
  cases hcall : e.call with
  | writing w => cases hpc : w.pc <;> simp [hpc]
  | _ => simp

/-- However long nothing arrives, the run goes on. -/
theorem Log.exists_silent (n : Nat) (l : Log) : ∃ as l', (∀ a ∈ as, a.Silent) ∧
    as.countP Action.isLate = n ∧ Runs.run (Log.step F) l as = some l' := by
  induction n generalizing l with
  | zero => exact ⟨[], l, by simp, rfl, rfl⟩
  | succ n ih =>
    have hpoll : ∀ l : Log, l.endpoint.atTop = false →
        ∃ as l', (∀ a ∈ as, a.Silent) ∧ as.countP Action.isLate = n + 1 ∧
          Runs.run (Log.step F) l as = some l' := by
      intro l htop
      have hstep : l.step F (.poll [] true) =
          some ⟨(l.endpoint.resume true).1, l.out ++ (l.endpoint.resume true).2⟩ := by
        unfold Log.step
        rw [Endpoint.step_poll.mpr ⟨htop, rfl, rfl⟩]
        rfl
      obtain ⟨as, l', has, hcount, hrun⟩ := ih _
      refine ⟨.poll [] true :: as, l', ?_, ?_, Runs.run_cons.mpr ⟨_, hstep, hrun⟩⟩
      · intro a ha
        rcases List.mem_cons.mp ha with rfl | ha
        · rfl
        · exact has a ha
      · rw [List.countP_cons_of_pos rfl, hcount]
    cases htop : l.endpoint.atTop with
    | false => exact hpoll l htop
    | true =>
      obtain ⟨w, hcall, hpc⟩ := Endpoint.atTop_iff.mp htop
      let m : Log := ⟨{ l.endpoint with
        call := .writing (w.start l.endpoint.socket l.endpoint.address) }, l.out ++ []⟩
      have hstep : l.step F .burst = some m := by
        unfold Log.step
        rw [Endpoint.step_burst.mpr ⟨w, hcall, hpc, rfl, rfl⟩]
        rfl
      have hm : m.endpoint.atTop = false := by
        rw [Bool.eq_false_iff]
        intro htop
        obtain ⟨w', hcall', hpc'⟩ := Endpoint.atTop_iff.mp htop
        obtain rfl : w.start l.endpoint.socket l.endpoint.address = w' := by injection hcall'
        unfold WriteCall.start WriteCall.burst at hpc'
        dsimp only at hpc'
        split at hpc' <;> cases hpc'
      obtain ⟨as, l', has, hcount, hrun⟩ := hpoll m hm
      refine ⟨.burst :: as, l', ?_, ?_, Runs.run_cons.mpr ⟨m, hstep, hrun⟩⟩
      · intro a ha
        rcases List.mem_cons.mp ha with rfl | ha
        · trivial
        · exact has a ha
      · rw [List.countP_cons_of_neg (by simp [Action.isLate]), hcount]

/-! ## When `TIMEOUT` is reported -/

theorem Dying.start {e : Endpoint} {bytes : List UInt8} (hopen : e.socket.state = .opened)
    (hne : bytes ≠ []) : Dying e bytes { endpoint := (e.write bytes).1 } := by
  rw [Endpoint.write_opened hopen hne]
  exact .top rfl (Nat.zero_lt_succ 2) rfl rfl rfl rfl

theorem Deaf.start {e : Endpoint} {bytes : List UInt8} (hopen : e.socket.state = .opened)
    (hidle : e.call = .idle) (hne : bytes ≠ []) :
    Deaf e bytes { endpoint := (e.write bytes).1 } := by
  have hpass : (e.write bytes).1.InPass := Endpoint.write_inPass hidle
  rw [Endpoint.write_opened hopen hne] at hpass ⊢
  exact .of_writing rfl hpass rfl rfl rfl (Nat.zero_le _)

theorem reports_of_acked {e : Endpoint} {bytes : List UInt8} (hopen : e.socket.state = .opened)
    (hidle : e.call = .idle) (hne : bytes ≠ [])
    (hack : e.socket.lastRecvedAck = e.socket.sequenceNumber) : ReportsDeadLink F e bytes := by
  intro as l has hrun
  have hstart := Dying.start hopen hne
  constructor
  · intro hlate
    have hpass := (Deaf.start hopen hidle hne).inPass
    have hclear := hstart.run_clear (F := F) hack hne has
    have hnext := Log.run_next hrun
    obtain ⟨-, hleft⟩ := Endpoint.run_left F (Deaf.start hopen hidle hne).writes hpass
      (fun a ha => (has a ha).waits) hclear hnext
    by_contra hcall
    have := (hleft hcall).2
    rw [Endpoint.write_opened hopen hne] at this
    have hpasses : ({ e with call := .writing { bytes } } : Endpoint).passesLeft =
      bytes.length + 2 := rfl
    have hpolls : ({ e with call := .writing { bytes } } : Endpoint).pollsLeft = 0 := rfl
    dsimp only at this
    rw [hpasses, hpolls] at this
    omega
  · intro hcall
    have hl := hstart.run hack hne has hrun
    cases hl with
    | ended _ h => exact h
    | _ => cases hcall

theorem acked_of_reports {e : Endpoint} {bytes : List UInt8} (hopen : e.socket.state = .opened)
    (hidle : e.call = .idle) (hne : bytes ≠ []) (h : ReportsDeadLink F e bytes) :
    e.socket.lastRecvedAck = e.socket.sequenceNumber := by
  obtain ⟨as, l, has, hcount, hrun⟩ := Log.exists_silent (F := F) (5 * (bytes.length + 3))
    { endpoint := (e.write bytes).1 }
  obtain ⟨hends, hout⟩ := h as l has hrun
  have hcall := hends (Nat.le_of_eq hcount.symm)
  obtain ⟨hsent, hret, hseq⟩ := hout hcall
  obtain ⟨r, hr, hend⟩ := ((Deaf.start hopen hidle hne).run has hrun).ended hcall
  obtain rfl : r = Error.timeout := by
    have := hr.symm.trans hret
    injection this
  rcases hend with ⟨-, heq⟩ | habs | ⟨hlen, hle⟩
  · exact heq.symm.trans hseq
  · exact absurd habs (by decide)
  · -- three bursts do not carry so long a string
    exfalso
    have hburst : (e.firstBurst bytes).length ≤ 4 := by
      unfold Endpoint.firstBurst Endpoint.firstFrames
      rw [List.length_map, List.length_range]
      exact packetsFor_le _
    have h52 : bytesPerFrame = 52 := rfl
    rw [hsent, List.length_append, List.length_append, h52] at hle
    rw [asInt_of_lt (by omega)] at hlen
    have : (-1 : Int) = bytes.length := hlen
    omega

end

/-- **Dead links.**  When nothing arrives, a `write` sends its first burst three
times, returns `TIMEOUT` and keeps `sequence_number`, exactly when the number that
was acknowledged last before the call is `sequence_number`. -/
theorem deadLink_iff (F : OnFull UInt8) (e : Endpoint) (bytes : List UInt8)
    (hopen : e.socket.state = .opened) (hidle : e.call = .idle) (hne : bytes ≠ []) :
    ReportsDeadLink F e bytes ↔ e.socket.lastRecvedAck = e.socket.sequenceNumber :=
  ⟨acked_of_reports hopen hidle hne, reports_of_acked hopen hidle hne⟩

/-! ## After a handshake -/

/-- A byte is written and its frame acknowledged. -/
def oneByteSent : List Action :=
  [.write [65], .burst, .poll [] false, .poll [datagramTo80 7 [MessageType.ack, 3]] false]

/-- The counters of a second connection happen to agree. -/
theorem secondConnection_reports : ∃ l,
    Runs.run (Log.step (OnFull.refuse UInt8)) { endpoint := unusedServer }
      (acceptFrom 7 5 ++ oneByteSent ++ [.disconnect] ++ acceptFrom 7 20) = some l ∧
    ReportsDeadLink (OnFull.refuse UInt8) l.endpoint [66] :=
  ⟨_, rfl, (deadLink_iff (OnFull.refuse UInt8) _ [66] rfl rfl (by decide)).mpr rfl⟩

/-- Right after the handshake one burst is sent and reported as out of sequence;
after a byte that was acknowledged, another one is reported as sent. -/
theorem deadLink_believed :
    (∃ l m, Runs.run (Log.step (OnFull.refuse UInt8)) { endpoint := unusedServer }
        (acceptFrom 7 5) = some l ∧ l.endpoint.socket.state = .opened ∧
      Runs.run (Log.step (OnFull.refuse UInt8)) { endpoint := (l.endpoint.write [65]).1 }
        [.burst, .poll [] true, .poll [] true] = some m ∧
      (sentOf m.out).length = 1 ∧ retsOf m.out = [Error.ackOutOfSequence] ∧
      ¬ ReportsDeadLink (OnFull.refuse UInt8) l.endpoint [65]) ∧
    ∃ l m, Runs.run (Log.step (OnFull.refuse UInt8)) { endpoint := unusedServer }
        (acceptFrom 7 5 ++ oneByteSent) = some l ∧ retsOf l.out = [0, 0, 1] ∧
      Runs.run (Log.step (OnFull.refuse UInt8)) { endpoint := (l.endpoint.write [66]).1 }
        [.burst, .poll [] false, .poll [] false] = some m ∧
      (sentOf m.out).length = 1 ∧ retsOf m.out = [1] ∧
      ¬ ReportsDeadLink (OnFull.refuse UInt8) l.endpoint [66] := by
  refine ⟨⟨_, _, rfl, rfl, rfl, by decide +kernel, by decide +kernel, ?_⟩,
    ⟨_, _, rfl, by decide +kernel, rfl, by decide +kernel, by decide +kernel, ?_⟩⟩
  · intro h
    have hout := h [.burst, .poll [] true, .poll [] true] _ (by simp [Action.Silent]) rfl
    exact absurd (hout.2 rfl).returned (by decide +kernel)
  · intro h
    have hout := h [.burst, .poll [] false, .poll [] false] _ (by simp [Action.Silent]) rfl
    exact absurd (hout.2 rfl).returned (by decide +kernel)

end PicoLan
