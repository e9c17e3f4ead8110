import PicoLan.Lib.Runs
import PicoLan.Stream.OnData
import PicoLan.Stream.Write

/-!
# One end of a connection

A stream, the interface's address and the call that is running on it.  A call
blocks by calling `iface->read()` until something has happened or its time is
over, so a step is what happens between two such calls: `poll as late` is one
`iface->read()` that finds the datagrams `as`, after which the clock says whether
the call is `late`.  With no call running it is the application that polls.
-/

namespace PicoLan

inductive Call where
  | idle
  | connecting
  | accepting
  | writing (w : WriteCall)
  | reading (got : List UInt8) (len : Nat)

structure Endpoint where
  kind : Kind
  address : UInt8
  socket : SocketStream
  call : Call := .idle

inductive Action where
  | connect (r port : UInt8)
  | listen
  | accept
  | disconnect
  | write (bytes : List UInt8)
  | read (len : Nat)
  | poll (as : List Arrival) (late : Bool)
  /-- The head of the outer loop of `write`, where nothing is polled. -/
  | burst

inductive Output where
  | sent (pack : DatagramPack)
  | ret (r : Int)
  | got (bytes : List UInt8)
deriving DecidableEq

namespace Endpoint

def returns (e : Endpoint) (r : Int) : Endpoint × List Output := ({ e with call := .idle }, [.ret r])

/-- `disconnect()`, then return. -/
def hangUp (e : Endpoint) (r : Int) : Endpoint × List Output :=
  let (s, out) := e.socket.disconnect e.address
  ({ e with socket := s, call := .idle }, out.map .sent ++ [.ret r])

def connect (e : Endpoint) (r port : UInt8) : Endpoint × List Output :=
  if e.socket.state ≠ .closed then e.returns Error.badState
  else
    let s : SocketStream := { e.socket with remotePort := port, remote := r }
    let (s, pack) := s.sendSyn e.address
    ({ e with socket := { s with state := .synSent }, call := .connecting }, [.sent pack])

def listen (e : Endpoint) : Endpoint × List Output :=
  if e.socket.state = .closed then
    ({ e with socket := { e.socket with state := .listening } }, [.ret Error.none])
  else (e, [.ret Error.badState])

def accept (e : Endpoint) : Endpoint × List Output :=
  if e.socket.state = .synRecved then
    let ack := e.socket.sendAck e.address
    let (s, pack) := e.socket.sendSyn e.address
    ({ e with socket := { s with state := .pending }, call := .accepting }, [.sent ack, .sent pack])
  else (e, [.ret Error.badState])

def disconnect (e : Endpoint) : Endpoint × List Output :=
  let (s, out) := e.socket.disconnect e.address
  ({ e with socket := s }, out.map .sent)

def write (e : Endpoint) (bytes : List UInt8) : Endpoint × List Output :=
  if e.socket.state ≠ .opened then (e, [.ret Error.badState])
  else if bytes.length = 0 then (e, [.ret 0])
  else ({ e with call := .writing { bytes } }, [])

/-- What `SocketStream::read` does with what `Socket::read` has read. -/
def endRead (e : Endpoint) (got : List UInt8) : Endpoint × List Output :=
  let e := { e with call := .idle }
  if got.length = 0 then
    let zeroReadCount := e.socket.zeroReadCount + 1
    if zeroReadCount ≥ 3 then
      let (s, out) := e.socket.disconnect e.address
      ({ e with socket := { s with zeroReadCount := 0 } }, out.map .sent ++ [.got got])
    else ({ e with socket := { e.socket with zeroReadCount } }, [.got got])
  else (e, [.got got])

/-- `Socket::read` up to the next `iface->read()`: the ring buffer is emptied
into the caller's. -/
def goOnReading (e : Endpoint) (got : List UInt8) (len : Nat) : Endpoint × List Output :=
  let (bytes, ringbuf) := e.socket.ringbuf.drain (len - got.length)
  let got := got ++ bytes
  let e := { e with socket := { e.socket with ringbuf } }
  if got.length < len then ({ e with call := .reading got len }, []) else e.endRead got

def read (e : Endpoint) (len : Nat) : Endpoint × List Output :=
  if e.socket.state ≠ .opened then (e, [.ret Error.badState]) else e.goOnReading [] len

/-- A pass of `write` is over. -/
def afterPass (e : Endpoint) : SocketStream × WriteResult → Endpoint × List Output
  | (s, .goesOn w) => ({ e with socket := s, call := .writing w }, [])
  | (s, .returns r) => ({ e with socket := s, call := .idle }, [.ret r])

/-- What the running call does when `iface->read()` returns. -/
def resume (e : Endpoint) (late : Bool) : Endpoint × List Output :=
  match e.call with
  | .idle => (e, [])
  | .connecting =>
    if late then ({ e with socket := { e.socket with state := .closed } } : Endpoint).returns (-1)
    else if e.socket.state = .synSent then (e, [])
    else if e.socket.state ≠ .synRecved then e.hangUp Error.badState
    else
      ({ e with socket := { e.socket with state := .opened }, call := .idle },
        [.sent (e.socket.sendAck e.address), .ret Error.none])
  | .accepting =>
    if late then e.hangUp Error.timeout
    else if e.socket.state = .pending then (e, [])
    else if e.socket.state ≠ .opened then e.hangUp Error.badState
    else e.returns Error.none
  | .reading got len => if late then e.endRead got else e.goOnReading got len
  | .writing w =>
    match w.pc with
    | .top => (e, [])
    | .sending i pack =>
      ({ e with call := .writing (w.afterSend e.socket e.address i) }, [.sent pack])
    | .waiting =>
      if e.socket.lastRecvedAck = w.finalSeq ∨ late then e.afterPass (w.evaluate e.socket)
      else (e, [])

/-- The datagrams are handled one after the other. -/
def takeAll (F : OnFull UInt8) (e : Endpoint) (as : List Arrival) : Endpoint × List Output :=
  let (s, out) := e.socket.handleAll F e.kind e.address as
  ({ e with socket := s }, out.map .sent)

theorem takeAll_cons (F : OnFull UInt8) (e : Endpoint) (a : Arrival) (as : List Arrival) :
    e.takeAll F (a :: as) = (((e.takeAll F [a]).1.takeAll F as).1,
      (e.takeAll F [a]).2 ++ ((e.takeAll F [a]).1.takeAll F as).2) := by
  simp [takeAll, SocketStream.handleAll]

theorem takeAll_sequenceNumber (F : OnFull UInt8) (e : Endpoint) (as : List Arrival) :
    (e.takeAll F as).1.socket.sequenceNumber = e.socket.sequenceNumber :=
  (SocketStream.handleAll_counters F e.kind e.socket e.address as).1

theorem takeAll_one (F : OnFull UInt8) (e : Endpoint) (x : Arrival) : e.takeAll F [x] =
    ({ e with socket := (e.socket.handle F e.kind e.address x).1 },
      (e.socket.handle F e.kind e.address x).2.map .sent) := by
  simp [Endpoint.takeAll, SocketStream.handleAll]

theorem takeAll_silent {F : OnFull UInt8} (e : Endpoint) {k : Kind} (hk : e.kind = k) {x : Arrival}
    {s : SocketStream} (h : e.socket.handle F k e.address x = (s, [])) :
    e.takeAll F [x] = ({ e with socket := s }, []) := by
  rw [takeAll_one, hk, h]
  rfl

/-- `write` is at the head of its outer loop. -/
def atTop (e : Endpoint) : Bool :=
  match e.call with
  | .writing w => match w.pc with
    | .top => true
    | _ => false
  | _ => false

/-- A step of the application or of the running call.  `none` when the call that
is running is at another point, or the class has no such function. -/
def step (F : OnFull UInt8) (e : Endpoint) : Action → Option (Endpoint × List Output)
  | .poll as late =>
    if e.atTop then none
    else
      let (e, out) := e.takeAll F as
      let (e, out') := e.resume late
      some (e, out ++ out')
  | .burst =>
    match e.call with
    | .writing w => match w.pc with
      | .top => some ({ e with call := .writing (w.start e.socket e.address) }, [])
      | _ => none
    | _ => none
  | .connect r port =>
    match e.kind, e.call with
    | .client, .idle => some (e.connect r port)
    | _, _ => none
  | .listen =>
    match e.kind, e.call with
    | .server, .idle => some e.listen
    | _, _ => none
  | .accept =>
    match e.kind, e.call with
    | .server, .idle => some e.accept
    | _, _ => none
  | .disconnect =>
    match e.call with
    | .idle => some e.disconnect
    | _ => none
  | .write bytes =>
    match e.call with
    | .idle => some (e.write bytes)
    | _ => none
  | .read len =>
    match e.call with
    | .idle => some (e.read len)
    | _ => none

/-! ## When a step is available -/

section

variable {F : OnFull UInt8} {e e' : Endpoint} {out : List Output}

theorem step_poll {as : List Arrival} {late : Bool} :
    e.step F (.poll as late) = some (e', out) ↔ e.atTop = false ∧
      e' = ((e.takeAll F as).1.resume late).1 ∧
      out = (e.takeAll F as).2 ++ ((e.takeAll F as).1.resume late).2 := by
  unfold step
  cases h : e.atTop with
  | true => simp
  | false => simp [Prod.ext_iff, eq_comm]

theorem step_burst : e.step F .burst = some (e', out) ↔ ∃ w, e.call = .writing w ∧ w.pc = .top ∧
    e' = { e with call := .writing (w.start e.socket e.address) } ∧ out = [] := by
  cases hc : e.call with
  | writing w =>
    cases hp : w.pc <;> simp [step, hc, hp, eq_comm]
  | _ => simp [step, hc]

theorem step_connect {r port : UInt8} : e.step F (.connect r port) = some (e', out) ↔
    e.kind = .client ∧ e.call = .idle ∧
      e' = (e.connect r port).1 ∧ out = (e.connect r port).2 := by
  unfold step
  cases e.kind <;> cases e.call <;> simp [Prod.ext_iff, eq_comm]

theorem step_listen : e.step F .listen = some (e', out) ↔
    e.kind = .server ∧ e.call = .idle ∧ e' = e.listen.1 ∧ out = e.listen.2 := by
  unfold step
  cases e.kind <;> cases e.call <;> simp [Prod.ext_iff, eq_comm]

theorem step_accept : e.step F .accept = some (e', out) ↔
    e.kind = .server ∧ e.call = .idle ∧ e' = e.accept.1 ∧ out = e.accept.2 := by
  unfold step
  cases e.kind <;> cases e.call <;> simp [Prod.ext_iff, eq_comm]

theorem step_disconnect : e.step F .disconnect = some (e', out) ↔
    e.call = .idle ∧ e' = e.disconnect.1 ∧ out = e.disconnect.2 := by
  unfold step
  cases e.call <;> simp [Prod.ext_iff, eq_comm]

theorem step_write {bytes : List UInt8} : e.step F (.write bytes) = some (e', out) ↔
    e.call = .idle ∧ e' = (e.write bytes).1 ∧ out = (e.write bytes).2 := by
  unfold step
  cases e.call <;> simp [Prod.ext_iff, eq_comm]

theorem step_read {len : Nat} : e.step F (.read len) = some (e', out) ↔
    e.call = .idle ∧ e' = (e.read len).1 ∧ out = (e.read len).2 := by
  unfold step
  cases e.call <;> simp [Prod.ext_iff, eq_comm]

end

/-! ## What no step changes -/

section

variable (e : Endpoint)

theorem endRead_fixed (got : List UInt8) :
    (e.endRead got).1.kind = e.kind ∧ (e.endRead got).1.address = e.address := by
  unfold endRead
  dsimp only
  split
  · split <;> exact ⟨rfl, rfl⟩
  · exact ⟨rfl, rfl⟩

theorem goOnReading_fixed (got : List UInt8) (len : Nat) :
    (e.goOnReading got len).1.kind = e.kind ∧ (e.goOnReading got len).1.address = e.address := by
  unfold goOnReading
  dsimp only
  split
  · exact ⟨rfl, rfl⟩
  · exact endRead_fixed _ _

theorem resume_fixed (late : Bool) :
    (e.resume late).1.kind = e.kind ∧ (e.resume late).1.address = e.address := by
  unfold resume
  split
  · exact ⟨rfl, rfl⟩
  · split
    · exact ⟨rfl, rfl⟩
    split
    · exact ⟨rfl, rfl⟩
    split <;> exact ⟨rfl, rfl⟩
  · split
    · exact ⟨rfl, rfl⟩
    split
    · exact ⟨rfl, rfl⟩
    split <;> exact ⟨rfl, rfl⟩
  · split
    · exact endRead_fixed e _
    · exact goOnReading_fixed e _ _
  · split
    · exact ⟨rfl, rfl⟩
    · exact ⟨rfl, rfl⟩
    · split
      · unfold afterPass
        split <;> exact ⟨rfl, rfl⟩
      · exact ⟨rfl, rfl⟩

end

/-- The class and the address stay. -/
theorem step_fixed {F : OnFull UInt8} {e e' : Endpoint} {a : Action} {out : List Output}
    (h : e.step F a = some (e', out)) : e'.kind = e.kind ∧ e'.address = e.address := by
  cases a with
  | poll as late =>
    obtain ⟨-, rfl, -⟩ := step_poll.mp h
    exact resume_fixed (e.takeAll F as).1 late
  | burst =>
    obtain ⟨w, -, -, rfl, -⟩ := step_burst.mp h
    exact ⟨rfl, rfl⟩
  | connect r port =>
    obtain ⟨-, -, rfl, -⟩ := step_connect.mp h
    unfold connect
    split <;> exact ⟨rfl, rfl⟩
  | listen =>
    obtain ⟨-, -, rfl, -⟩ := step_listen.mp h
    unfold listen
    split <;> exact ⟨rfl, rfl⟩
  | accept =>
    obtain ⟨-, -, rfl, -⟩ := step_accept.mp h
    unfold accept
    split <;> exact ⟨rfl, rfl⟩
  | disconnect =>
    obtain ⟨-, rfl, -⟩ := step_disconnect.mp h
    exact ⟨rfl, rfl⟩
  | write bytes =>
    obtain ⟨-, rfl, -⟩ := step_write.mp h
    unfold write
    split
    · exact ⟨rfl, rfl⟩
    split <;> exact ⟨rfl, rfl⟩
  | read len =>
    obtain ⟨-, rfl, -⟩ := step_read.mp h
    unfold read
    split
    · exact ⟨rfl, rfl⟩
    · exact goOnReading_fixed e [] len

/-! ## What a running `write` does next -/

section

variable {e : Endpoint} {w : WriteCall} {late : Bool}

theorem write_opened {bytes : List UInt8} (hs : e.socket.state = .opened) (hne : bytes ≠ []) :
    e.write bytes = ({ e with call := .writing { bytes } }, []) := by
  unfold write
  rw [if_neg (fun h => h hs), if_neg (fun h => hne (List.eq_nil_of_length_eq_zero h))]

theorem resume_idle (hc : e.call = .idle) : e.resume late = (e, []) := by
  unfold resume
  rw [hc]

theorem resume_top (hc : e.call = .writing w) (hpc : w.pc = .top) : e.resume late = (e, []) := by
  unfold resume
  rw [hc]
  dsimp only
  rw [hpc]

theorem resume_sending {i : Nat} {pack : DatagramPack} (hc : e.call = .writing w)
    (hpc : w.pc = .sending i pack) : e.resume late =
      ({ e with call := .writing (w.afterSend e.socket e.address i) }, [.sent pack]) := by
  unfold resume
  rw [hc]
  dsimp only
  rw [hpc]

theorem resume_waiting (hc : e.call = .writing w) (hpc : w.pc = .waiting) : e.resume late =
    if e.socket.lastRecvedAck = w.finalSeq ∨ late then e.afterPass (w.evaluate e.socket)
    else (e, []) := by
  unfold resume
  rw [hc]
  dsimp only
  rw [hpc]

end

end Endpoint

end PicoLan
