import PicoLan.Stream.Endpoint

/-!
# Two endpoints and an in-order link

What an endpoint sends is appended to the packets on their way to the other one,
and a poll takes as many of the first of them as have arrived.  Each side keeps
a `History`, which no step reads.

A poll is a number of deliveries followed by what the running call then does;
`Net.step_invariant` reduces an invariant of all steps to these two and to the
application's calls.
-/

namespace PicoLan

inductive Side where
  | left
  | right
deriving DecidableEq, Repr

def Side.other : Side → Side
  | left => right
  | right => left

@[simp] theorem Side.other_other (i : Side) : i.other.other = i := by cases i <;> rfl

@[simp] theorem Side.other_ne (i : Side) : i.other ≠ i := by cases i <;> decide

@[simp] theorem Side.ne_other (i : Side) : i ≠ i.other := by cases i <;> decide

theorem Side.eq_or_other (i j : Side) : j = i ∨ j = i.other := by
  cases i <;> cases j <;> simp [other]

/-- The number a SYN carries. -/
def synNumber (p : DatagramPack) : Option UInt8 :=
  match p.payload.toList with
  | t :: n :: _ => if t = MessageType.syn then some n else none
  | _ => none

/-- What one side has done: the number in the last SYN it sent, whether `write`
has been called since then, the strings written and the results returned. -/
structure History where
  syn : Option UInt8 := none
  wrote : Bool := false
  written : List (List UInt8) := []
  returned : List Int := []

namespace History

def call (h : History) : Action → History
  | .write bytes => { h with wrote := true, written := h.written ++ [bytes] }
  | _ => h

def note (h : History) : Output → History
  | .sent p => match synNumber p with
    | some n => { h with syn := some n, wrote := false }
    | none => h
  | .ret r => { h with returned := h.returned ++ [r] }
  | .got _ => h

def noteAll (h : History) (out : List Output) : History := out.foldl note h

end History

/-- The packets among the outputs. -/
def sentOf : List Output → List DatagramPack
  | [] => []
  | .sent p :: out => p :: sentOf out
  | _ :: out => sentOf out

theorem sentOf_append (out out' : List Output) : sentOf (out ++ out') = sentOf out ++ sentOf out' := by
  induction out with
  | nil => rfl
  | cons o out ih => cases o <;> simp [sentOf, ih]

@[simp] theorem sentOf_sent (ps : List DatagramPack) : sentOf (ps.map .sent) = ps := by
  induction ps with
  | nil => rfl
  | cons p ps ih => exact congrArg (p :: ·) ih

/-- Nothing is sent. -/
theorem forall_sentOf_nil (P : DatagramPack → Prop) : ∀ p ∈ sentOf [], P p := by
  intro p hp
  cases hp

/-- The results among the outputs. -/
def retsOf : List Output → List Int
  | [] => []
  | .ret r :: out => r :: retsOf out
  | _ :: out => retsOf out

theorem History.noteAll_returned (h : History) (out : List Output) :
    (h.noteAll out).returned = h.returned ++ retsOf out ∧ (h.noteAll out).written = h.written := by
  induction out generalizing h with
  | nil => exact ⟨(List.append_nil _).symm, rfl⟩
  | cons o out ih =>
    obtain ⟨h₁, h₂⟩ := ih (h.note o)
    show (h.note o |>.noteAll out).returned = _ ∧ (h.note o |>.noteAll out).written = _
    rw [h₁, h₂]
    cases o with
    | sent p => cases hp : synNumber p <;> simp [History.note, hp, retsOf]
    | ret r => exact ⟨List.append_assoc _ _ _, rfl⟩
    | got bytes => exact ⟨rfl, rfl⟩

/-- `wire i` are the packets on their way to `i`. -/
structure Net where
  ends : Side → Endpoint
  wire : Side → List DatagramPack := fun _ => []
  hist : Side → History := fun _ => {}

namespace Net

def withWire (n : Net) (i : Side) (w : List DatagramPack) : Net :=
  { n with wire := Function.update n.wire i w }

/-- The application of `i` has called a function. -/
def called (n : Net) (i : Side) (a : Action) : Net :=
  { n with hist := Function.update n.hist i ((n.hist i).call a) }

/-- `i` is now `e` and has put out `out`. -/
def put (n : Net) (i : Side) (e : Endpoint) (out : List Output) : Net where
  ends := Function.update n.ends i e
  wire := Function.update n.wire i.other (n.wire i.other ++ sentOf out)
  hist := Function.update n.hist i ((n.hist i).noteAll out)

section

variable (F : OnFull UInt8)

/-- The first packet on its way to `i` arrives. -/
def deliver (i : Side) (n : Net) (behind : Nat → UInt8) : Option Net :=
  match n.wire i with
  | [] => none
  | p :: ps =>
    let (e, out) := (n.ends i).takeAll F [⟨p, behind⟩]
    some ((n.withWire i ps).put i e out)

/-- The running call of `i` goes on. -/
def resume (n : Net) (i : Side) (late : Bool) : Net :=
  let (e, out) := (n.ends i).resume late
  n.put i e out

/-- `iface->read()` finds as many packets as `behind` has entries. -/
def poll (n : Net) (i : Side) (behind : List (Nat → UInt8)) (late : Bool) : Option Net :=
  if (n.ends i).atTop then none
  else (Runs.run (deliver F i) n behind).map fun n => n.resume i late

end

end Net

inductive NetAction where
  | act (i : Side) (a : Action)
  | poll (i : Side) (behind : List (Nat → UInt8)) (late : Bool)

namespace Net

section

variable (F : OnFull UInt8)

/-- Polls are the link's business, so `act` is for the other actions. -/
def step (n : Net) : NetAction → Option Net
  | .act _ (.poll _ _) => none
  | .act i a => ((n.ends i).step F a).map fun (e, out) => (n.called i a).put i e out
  | .poll i behind late => n.poll F i behind late

end

variable {F : OnFull UInt8}

/-! ## Reading a net after a step -/

section

variable (n : Net) (i : Side) (w : List DatagramPack)

@[simp] theorem withWire_ends : (n.withWire i w).ends = n.ends := rfl

@[simp] theorem withWire_hist : (n.withWire i w).hist = n.hist := rfl

@[simp] theorem withWire_wire_self : (n.withWire i w).wire i = w := Function.update_self ..

@[simp] theorem withWire_wire_ne {j : Side} (h : j ≠ i) : (n.withWire i w).wire j = n.wire j :=
  Function.update_of_ne h ..

@[simp] theorem withWire_withWire (w' : List DatagramPack) :
    (n.withWire i w).withWire i w' = n.withWire i w' := by
  simp [withWire]

theorem withWire_self : n.withWire i (n.wire i) = n := by
  simp [withWire]

variable (a : Action)

@[simp] theorem called_ends : (n.called i a).ends = n.ends := rfl

@[simp] theorem called_wire : (n.called i a).wire = n.wire := rfl

@[simp] theorem called_hist_self : (n.called i a).hist i = (n.hist i).call a :=
  Function.update_self ..

@[simp] theorem called_hist_ne {j : Side} (h : j ≠ i) : (n.called i a).hist j = n.hist j :=
  Function.update_of_ne h ..

theorem called_burst : n.called i .burst = n := by
  simp [called, History.call]

variable (e : Endpoint) (out : List Output)

@[simp] theorem put_ends_self : (n.put i e out).ends i = e := Function.update_self ..

@[simp] theorem put_ends_ne {j : Side} (h : j ≠ i) : (n.put i e out).ends j = n.ends j :=
  Function.update_of_ne h ..

@[simp] theorem put_wire_self : (n.put i e out).wire i = n.wire i :=
  Function.update_of_ne i.ne_other ..

@[simp] theorem put_wire_ne {j : Side} (h : j ≠ i) :
    (n.put i e out).wire j = n.wire j ++ sentOf out := by
  obtain rfl := (i.eq_or_other j).resolve_left h
  exact Function.update_self ..

@[simp] theorem put_hist_self : (n.put i e out).hist i = (n.hist i).noteAll out :=
  Function.update_self ..

@[simp] theorem put_hist_ne {j : Side} (h : j ≠ i) : (n.put i e out).hist j = n.hist j :=
  Function.update_of_ne h ..

end

/-- Nothing happens. -/
theorem put_self (n : Net) (i : Side) : n.put i (n.ends i) [] = n := by
  simp [put, sentOf, History.noteAll]

theorem resume_eq (n : Net) (i : Side) (late : Bool) :
    n.resume i late = n.put i ((n.ends i).resume late).1 ((n.ends i).resume late).2 := rfl

theorem put_withWire (n : Net) (i : Side) (w : List DatagramPack) (e : Endpoint)
    (out : List Output) : (n.put i e out).withWire i w = (n.withWire i w).put i e out := by
  unfold put withWire
  simp only [Function.update_of_ne i.other_ne, Function.update_comm i.ne_other]

/-- Putting out in two parts. -/
theorem put_put (n : Net) (i : Side) (e e' : Endpoint) (out out' : List Output) :
    (n.put i e out).put i e' out' = n.put i e' (out ++ out') := by
  unfold put
  simp [sentOf_append, History.noteAll]

/-! ## Steps and invariants -/

theorem step_act {n n' : Net} {i : Side} {a : Action} (h : n.step F (.act i a) = some n') :
    (∀ as late, a ≠ .poll as late) ∧ ∃ e out, (n.ends i).step F a = some (e, out) ∧
      n' = (n.called i a).put i e out := by
  cases a with
  | poll as late => cases h
  | _ =>
    obtain ⟨⟨e, out⟩, hstep, rfl⟩ := Option.map_eq_some_iff.mp h
    exact ⟨(fun _ _ hp => by cases hp), e, out, hstep, rfl⟩

theorem deliver_cases {n n' : Net} {i : Side} {behind : Nat → UInt8}
    (h : deliver F i n behind = some n') : ∃ p ps, n.wire i = p :: ps ∧
      n' = (n.withWire i ps).put i
        ((n.ends i).takeAll F [⟨p, behind⟩]).1 ((n.ends i).takeAll F [⟨p, behind⟩]).2 := by
  unfold deliver at h
  split at h
  · cases h
  · next p ps hw =>
    cases h
    exact ⟨p, ps, hw, rfl⟩

theorem step_poll {n n' : Net} {i : Side} {behind : List (Nat → UInt8)} {late : Bool}
    (h : n.step F (.poll i behind late) = some n') : (n.ends i).atTop = false ∧
      ∃ m, Runs.run (deliver F i) n behind = some m ∧ n' = m.resume i late := by
  simp only [step, poll] at h
  split at h
  · cases h
  · next hat =>
    obtain ⟨m, hm, rfl⟩ := Option.map_eq_some_iff.mp h
    exact ⟨by simpa using hat, m, hm, rfl⟩

/-- As many packets as are on their way can arrive. -/
theorem exists_run_deliver (F : OnFull UInt8) {n : Net} {i : Side} (behind : List (Nat → UInt8))
    (h : behind.length ≤ (n.wire i).length) : ∃ m, Runs.run (deliver F i) n behind = some m := by
  induction behind generalizing n with
  | nil => exact ⟨n, rfl⟩
  | cons x behind ih =>
    cases hw : n.wire i with
    | nil => simp [hw] at h
    | cons p ps =>
      have hdel : deliver F i n x = some ((n.withWire i ps).put i
          ((n.ends i).takeAll F [⟨p, x⟩]).1 ((n.ends i).takeAll F [⟨p, x⟩]).2) := by
        simp [deliver, hw]
      obtain ⟨m, hm⟩ := ih (n := (n.withWire i ps).put i
        ((n.ends i).takeAll F [⟨p, x⟩]).1 ((n.ends i).takeAll F [⟨p, x⟩]).2) (by
          rw [hw] at h
          simpa using h)
      exact ⟨m, Runs.run_cons.mpr ⟨_, hdel, hm⟩⟩

theorem step_poll_of_run {n m : Net} {i : Side} {behind : List (Nat → UInt8)}
    (htop : (n.ends i).atTop = false) (hm : Runs.run (deliver F i) n behind = some m)
    (late : Bool) : n.step F (.poll i behind late) = some (m.resume i late) := by
  show n.poll F i behind late = _
  unfold poll
  rw [htop, hm]
  rfl

/-- **The invariant rule.**  What the calls, the deliveries and the resumptions
keep is kept by every step. -/
theorem step_invariant {I : Net → Prop} {P : Net → NetAction → Prop}
    (hact : ∀ n i a e out, I n → P n (.act i a) → (∀ as late, a ≠ .poll as late) →
      (n.ends i).step F a = some (e, out) →
      I ((n.called i a).put i e out))
    (hdel : ∀ n i behind p ps, I n → n.wire i = p :: ps →
      I ((n.withWire i ps).put i
        ((n.ends i).takeAll F [⟨p, behind⟩]).1 ((n.ends i).takeAll F [⟨p, behind⟩]).2))
    (hres : ∀ n i late, I n → I (n.resume i late)) :
    ∀ n a n', I n → P n a → n.step F a = some n' → I n' := by
  intro n a n' hI hok h
  cases a with
  | act i a =>
    obtain ⟨hne, e, out, hstep, rfl⟩ := step_act h
    exact hact n i a e out hI hok hne hstep
  | poll i behind late =>
    obtain ⟨-, m, hm, rfl⟩ := step_poll h
    refine hres m i late (Runs.run_always (I := I) ?_ hI hm)
    intro n b n' hI h
    obtain ⟨p, ps, hw, rfl⟩ := deliver_cases h
    exact hdel n i b p ps hI hw

/-! ## A poll is a step of the endpoint -/

theorem run_deliver {n m : Net} {i : Side} {behind : List (Nat → UInt8)}
    (h : Runs.run (deliver F i) n behind = some m) : ∃ as : List Arrival,
      as.map Arrival.pack ++ m.wire i = n.wire i ∧ as.map Arrival.behind = behind ∧
      m = (n.withWire i (m.wire i)).put i
        ((n.ends i).takeAll F as).1 ((n.ends i).takeAll F as).2 := by
  induction behind generalizing n with
  | nil =>
    cases h
    refine ⟨[], rfl, rfl, ?_⟩
    rw [withWire_self]
    simp [put, Endpoint.takeAll, SocketStream.handleAll, sentOf, History.noteAll]
  | cons b bs ih =>
    obtain ⟨n₁, h₁, h⟩ := Runs.run_cons.mp h
    obtain ⟨p, ps, hw, rfl⟩ := deliver_cases h₁
    obtain ⟨as, hpacks, hbs, hm⟩ := ih h
    refine ⟨⟨p, b⟩ :: as, ?_, by simp [hbs], ?_⟩
    · rw [hw, List.map_cons, List.cons_append, hpacks]
      simp
    · refine hm.trans ?_
      rw [put_withWire, put_put, withWire_withWire, put_ends_self]
      conv_rhs => rw [Endpoint.takeAll_cons]

/-- The link does to an endpoint what the endpoint's own step says. -/
theorem step_poll_endpoint {n n' : Net} {i : Side} {behind : List (Nat → UInt8)} {late : Bool}
    (h : n.step F (.poll i behind late) = some n') : ∃ (as : List Arrival) (out : List Output),
      as.map Arrival.pack <+: n.wire i ∧
      (n.ends i).step F (.poll as late) = some (n'.ends i, out) ∧
      n'.wire i.other = n.wire i.other ++ sentOf out := by
  obtain ⟨hat, m, hm, rfl⟩ := step_poll h
  obtain ⟨as, hpacks, -, hm⟩ := run_deliver hm
  refine ⟨as, _, ⟨_, hpacks⟩, Endpoint.step_poll.mpr ⟨hat, ?_, rfl⟩, ?_⟩
  · rw [hm]
    simp [resume]
  · rw [hm]
    simp [resume, sentOf_append]

end Net

end PicoLan
