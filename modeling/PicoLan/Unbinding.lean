import PicoLan.Binding

/-!
# The lives of sockets

Sockets are made, bound, unbound and destroyed.  `destroy` and the destructor both
call `unbind_socket`, which looks for the port and not for the socket, and `iface` is
never reset; so who is unbound, or has been bound once and is destroyed, can take
another socket with its port off the list, and nobody else can (`unbind_spares_iff`).
-/

namespace PicoLan

namespace Table

/-- `Socket::destroy`; `iface` is left as it is. -/
def destroy (T : Table) (l : Nat) : Table := if T.iface l then T.unbindSocket l else T

/-- `Socket::~Socket`. -/
def destruct (T : Table) (l : Nat) : Table := if T.iface l then T.unbindSocket l else T

/-- The constructor: `iface` is null. -/
def construct (T : Table) (l : Nat) (b : Bound) : Table :=
  { T with
    object := Function.update T.object l b
    iface := Function.update T.iface l false }

end Table

inductive LifeAction where
  | construct (l : Nat) (b : Bound)
  | bind (l : Nat)
  | unbindSocket (l : Nat)
  | destroy (l : Nat)
  | destruct (l : Nat)
  | datagram (a : Arrival)

/-- The socket a step means to unbind. -/
def LifeAction.subject : LifeAction → Option Nat
  | .unbindSocket l => some l
  | .destroy l => some l
  | .destruct l => some l
  | _ => none

/-- A table, and the sockets that exist. -/
structure Population where
  table : Table
  alive : Nat → Bool

namespace Population

variable (F : OnFull UInt8)

/-- `none` for a call on a socket that does not exist, and for a second socket in
one place. -/
def step (P : Population) : LifeAction → Option Population
  | .construct l b =>
    if P.alive l then none
    else some { table := P.table.construct l b, alive := Function.update P.alive l true }
  | .bind l => if P.alive l then some { P with table := (P.table.bind l).1 } else none
  | .unbindSocket l => if P.alive l then some { P with table := P.table.unbindSocket l } else none
  | .destroy l => if P.alive l then some { P with table := P.table.destroy l } else none
  | .destruct l =>
    if P.alive l then
      some { table := P.table.destruct l, alive := Function.update P.alive l false }
    else none
  | .datagram a => some
    { P with table := { P.table with
        toInterface := (P.table.toInterface.datagramPackHandler F a).1 } }

/-- Every socket on the list but the one meant stays on it, as it was, and goes on
receiving what comes for its port. -/
def Spares (P : Population) (c : LifeAction) : Prop :=
  ∀ P', P.step F c = some P' → ∀ m ∈ P.table.sockets.toList, c.subject ≠ some m →
    m ∈ P'.table.sockets.toList ∧
    (c.subject ≠ none → P'.table.object m = P.table.object m) ∧
    ∀ a : Arrival, a.IsFor P'.table.address (P'.table.object m).port → P'.table.handed F a = [m]

/-- No other socket with the port of `l` is on the list. -/
def Alone (P : Population) (l : Nat) : Prop :=
  ∀ m ∈ P.table.sockets.toList, (P.table.object m).port = (P.table.object l).port → m = l

instance (P : Population) (l : Nat) : Decidable (P.Alone l) :=
  inferInstanceAs (Decidable (∀ m ∈ P.table.sockets.toList, _))

/-- Who is unbound, or has been bound and is destroyed, has its port for itself. -/
def Careful (P : Population) : LifeAction → Prop
  | .unbindSocket l => P.Alone l
  | .destroy l => P.table.iface l = true → P.Alone l
  | .destruct l => P.table.iface l = true → P.Alone l
  | _ => True

instance (P : Population) : ∀ c, Decidable (P.Careful c)
  | .construct _ _ => inferInstanceAs (Decidable True)
  | .bind _ => inferInstanceAs (Decidable True)
  | .unbindSocket l => inferInstanceAs (Decidable (P.Alone l))
  | .destroy l => inferInstanceAs (Decidable (P.table.iface l = true → P.Alone l))
  | .destruct l => inferInstanceAs (Decidable (P.table.iface l = true → P.Alone l))
  | .datagram _ => inferInstanceAs (Decidable True)

/-! ## What a step can do -/

/-- A step that unbinds takes the sockets of a port off the list, or does nothing
to it. -/
inductive Change (P : Population) : LifeAction → Population → Prop where
  | construct {l : Nat} {b : Bound} (hl : P.alive l = false) :
    Change P (.construct l b)
      { table := P.table.construct l b, alive := Function.update P.alive l true }
  | bind {l : Nat} (hl : P.alive l = true) :
    Change P (.bind l) { P with table := (P.table.bind l).1 }
  | unbound {l : Nat} {c : LifeAction} {alive : Nat → Bool} (hc : c.subject = some l)
      (hcare : P.Careful c ↔ P.Alone l) (halive : ∀ m, m ≠ l → alive m = P.alive m) :
    Change P c { table := P.table.unbindSocket l, alive }
  | untouched {l : Nat} {c : LifeAction} {alive : Nat → Bool} (hc : c.subject = some l)
      (hcare : P.Careful c) (hnull : P.table.iface l = false)
      (halive : ∀ m, m ≠ l → alive m = P.alive m) :
    Change P c { table := P.table, alive }
  | datagram {a : Arrival} :
    Change P (.datagram a)
      { P with table := { P.table with
          toInterface := (P.table.toInterface.datagramPackHandler F a).1 } }

theorem step_change {P P' : Population} {c : LifeAction} (h : P.step F c = some P') :
    Change F P c P' := by
  have hdead : ∀ l m, m ≠ l → Function.update P.alive l false m = P.alive m :=
    fun l m hm => Function.update_of_ne hm _ _
  cases c with
  | construct l b =>
    obtain ⟨hl, h⟩ := Option.ite_none_left_eq_some.mp h
    cases h
    exact .construct (Bool.eq_false_iff.mpr hl)
  | bind l =>
    obtain ⟨hl, h⟩ := Option.ite_none_right_eq_some.mp h
    cases h
    exact .bind hl
  | unbindSocket l =>
    obtain ⟨-, h⟩ := Option.ite_none_right_eq_some.mp h
    cases h
    exact .unbound rfl Iff.rfl fun _ _ => rfl
  | destroy l =>
    obtain ⟨-, h⟩ := Option.ite_none_right_eq_some.mp h
    cases h
    unfold Table.destroy
    split
    · next hi => exact .unbound rfl (forall_prop_of_true hi) fun _ _ => rfl
    · next hi =>
      exact .untouched (l := l) rfl (fun h => absurd h hi) (Bool.eq_false_iff.mpr hi) fun _ _ => rfl
  | destruct l =>
    obtain ⟨-, h⟩ := Option.ite_none_right_eq_some.mp h
    cases h
    unfold Table.destruct
    split
    · next hi => exact .unbound rfl (forall_prop_of_true hi) (hdead l)
    · next hi =>
      exact .untouched (l := l) rfl (fun h => absurd h hi) (Bool.eq_false_iff.mpr hi) (hdead l)
  | datagram a =>
    cases h
    exact .datagram

/-! ## Who is on the list -/

/-- The sockets on the list exist and point to the interface, and their ports differ. -/
structure Sound (P : Population) : Prop where
  distinct : P.table.Distinct
  alive : ∀ m ∈ P.table.sockets.toList, P.alive m = true
  iface : ∀ m ∈ P.table.sockets.toList, P.table.iface m = true

variable {P P' : Population}

/-- A socket that is made now is not on the list. -/
theorem Sound.construct_object (h : P.Sound) {l : Nat} (hl : P.alive l = false) (b : Bound) {m : Nat}
    (hm : m ∈ P.table.sockets.toList) : (P.table.construct l b).object m = P.table.object m ∧
      (P.table.construct l b).iface m = P.table.iface m := by
  have hne : m ≠ l := by
    rintro rfl
    exact Bool.false_ne_true (hl.symm.trans (h.alive m hm))
  exact ⟨Function.update_of_ne hne _ _, Function.update_of_ne hne _ _⟩

theorem Change.sound {c : LifeAction} (hc : Change F P c P') (h : P.Sound) : P'.Sound := by
  cases hc with
  | @construct l b hl =>
    have hobj := fun m hm => (h.construct_object hl b (m := m) hm)
    refine ⟨?_, fun m hm => ?_, fun m hm => ?_⟩
    · have hports : (P.table.sockets.toList.map fun m => ((P.table.construct l b).object m).port) =
          P.table.sockets.toList.map fun m => (P.table.object m).port :=
        List.map_congr_left fun m hm => congrArg Bound.port (hobj m hm).1
      show (P.table.sockets.toList.map _).Nodup
      rw [hports]
      exact h.distinct
    · show Function.update P.alive l true m = true
      by_cases hml : m = l
      · rw [hml, Function.update_self]
      · rw [Function.update_of_ne hml]
        exact h.alive m hm
    · exact (hobj m hm).2.trans (h.iface m hm)
  | @bind l hl =>
    obtain ⟨-, heq⟩ | ⟨-, heq⟩ := P.table.bind_cases l
    · rw [heq]
      exact h
    have hmem : ∀ m ∈ (P.table.sockets.append l).toList, m ∈ P.table.sockets.toList ∨ m = l := by
      intro m hm
      rw [BoundedList.append_toList] at hm
      exact (List.mem_append.mp (List.mem_of_mem_take hm)).imp id List.mem_singleton.mp
    have hdistinct := h.distinct.bind l
    rw [heq] at hdistinct ⊢
    refine ⟨hdistinct, fun m hm => ?_, fun m hm => ?_⟩
    · rcases hmem m hm with hm | rfl
      · exact h.alive m hm
      · exact hl
    · show Function.update P.table.iface l true m = true
      by_cases hml : m = l
      · rw [hml, Function.update_self]
      · rw [Function.update_of_ne hml]
        exact h.iface m ((hmem m hm).resolve_right hml)
  | @unbound l c alive hc hcare halive =>
    refine ⟨h.distinct.unbindSocket l, fun m hm => ?_, fun m hm => ?_⟩
    · obtain ⟨hm, hp⟩ := (h.distinct.mem_unbindSocket l m).mp hm
      have hne : m ≠ l := by
        rintro rfl
        exact hp rfl
      exact (halive m hne).trans (h.alive m hm)
    · exact h.iface m ((h.distinct.mem_unbindSocket l m).mp hm).1
  | @untouched l c alive hc hcare hnull halive =>
    refine ⟨h.distinct, fun m hm => ?_, h.iface⟩
    have hne : m ≠ l := by
      rintro rfl
      exact Bool.false_ne_true (hnull.symm.trans (h.iface m hm))
    exact (halive m hne).trans (h.alive m hm)
  | datagram =>
    refine ⟨h.distinct.receives F _, ?_, ?_⟩
    · dsimp only
      rw [(Interface.handler_address F _ _).2]
      exact h.alive
    · dsimp only
      rw [(Interface.handler_address F _ _).2]
      exact h.iface

/-! ## Who stays on it -/

theorem Change.keeps {c : LifeAction} (hc : Change F P c P') (h : P.Sound) (hcare : P.Careful c)
    {m : Nat} (hm : m ∈ P.table.sockets.toList) (hne : c.subject ≠ some m) :
    m ∈ P'.table.sockets.toList ∧
      (c.subject ≠ none → P'.table.object m = P.table.object m) := by
  cases hc with
  | construct => exact ⟨hm, fun h => absurd rfl h⟩
  | @bind l hl =>
    refine ⟨?_, fun h => absurd rfl h⟩
    obtain ⟨-, heq⟩ | ⟨-, heq⟩ := P.table.bind_cases l
    · rw [heq]
      exact hm
    · rw [heq]
      show m ∈ (P.table.sockets.append l).toList
      unfold BoundedList.append
      split
      · exact List.mem_append_left _ hm
      · exact hm
  | @unbound l c alive hc hiff halive =>
    have hml : m ≠ l := fun h => hne (hc.trans (congrArg some h.symm))
    have hport := fun hp => hml (hiff.mp hcare m hm hp)
    exact ⟨(h.distinct.mem_unbindSocket l m).mpr ⟨hm, hport⟩, fun _ => rfl⟩
  | untouched => exact ⟨hm, fun _ => rfl⟩
  | datagram =>
    refine ⟨?_, fun h => absurd rfl h⟩
    dsimp only
    rw [(Interface.handler_address F _ _).2]
    exact hm

/-- **One step.** -/
theorem Sound.spares_iff (h : P.Sound) {c : LifeAction} (hstep : P.step F c = some P') :
    P.Spares F c ↔ P.Careful c := by
  have hc := step_change F hstep
  constructor
  · intro hspares
    cases hc with
    | @unbound l c alive hc hiff halive =>
      refine hiff.mpr fun m hm hp => ?_
      by_contra hne
      have hne' : c.subject ≠ some m := fun h => hne (Option.some.inj (hc.symm.trans h)).symm
      have hgone := (hspares _ hstep m hm hne').1
      exact ((h.distinct.mem_unbindSocket l m).mp hgone).2 hp
    | untouched hc hcare => exact hcare
    | _ => trivial
  · intro hcare P'' hstep' m hm hne
    cases hstep.symm.trans hstep'
    obtain ⟨hmem, hobj⟩ := hc.keeps F h hcare hm hne
    exact ⟨hmem, hobj, fun a ha => (hc.sound F h).distinct.handed F hmem ha⟩

theorem Sound.run_spares {as : List LifeAction} (h : P.Sound)
    (hrun : Runs.run (Population.step F) P as = some P') :
    Runs.Meets (Population.step F) (fun P c => P.Spares F c) P as ↔
      Runs.Meets (Population.step F) Population.Careful P as :=
  Runs.Meets.congr_of_run (I := Population.Sound)
    (fun _ _ _ _ h hstep => ⟨h.spares_iff F hstep, fun _ => (step_change F hstep).sound F h⟩) h hrun

theorem sound_of_empty (h : P.table.sockets = .empty) : P.Sound where
  distinct := by
    unfold Table.Distinct
    rw [h]
    exact List.nodup_nil
  alive m hm := by
    rw [h] at hm
    cases hm
  iface m hm := by
    rw [h] at hm
    cases hm

end Population

/-- **Sockets of one port.**  In every run from an interface without sockets, no step
takes another socket off the list than the one it means, exactly when no socket is
unbound, and none that has been bound is destroyed, while another one with its port
is on the list.  Whatever is done, the sockets on the list exist. -/
theorem unbind_spares_iff (F : OnFull UInt8) (P : Population) (hP : P.table.sockets = .empty)
    (as : List LifeAction) (P' : Population)
    (h : Runs.run (Population.step F) P as = some P') :
    (Runs.Meets (Population.step F) (fun P c => P.Spares F c) P as ↔
      Runs.Meets (Population.step F) Population.Careful P as) ∧
    ∀ m ∈ P'.table.sockets.toList, P'.alive m = true := by
  have hsound := Population.sound_of_empty hP
  refine ⟨hsound.run_spares F h, ?_⟩
  exact (Runs.run_always (fun P c P' hs hstep => (Population.step_change F hstep).sound F hs)
    hsound h).alive

/-! ## Two sockets on port 80 -/

/-- No socket has been made yet. -/
def noSockets : Population where
  table := unboundSockets.table
  alive _ := false

def socketOn80 : Bound := .datagram { port := 80, ringbuf := .empty 64 }

/-- One socket is unbound before another one takes its port. -/
def oneByOne : List LifeAction :=
  [.construct 0 socketOn80, .bind 0, .destroy 0, .destruct 0, .construct 1 socketOn80, .bind 1]

/-- It lives on until the other one is bound. -/
def oneTooLong : List LifeAction :=
  [.construct 0 socketOn80, .bind 0, .destroy 0, .construct 1 socketOn80, .bind 1]

theorem oneByOne_spares : ∃ P, Runs.run (Population.step (OnFull.refuse UInt8)) noSockets oneByOne =
      some P ∧ P.table.sockets.toList = [1] ∧
    Runs.Meets (Population.step (OnFull.refuse UInt8))
      (fun P c => P.Spares (OnFull.refuse UInt8) c) noSockets oneByOne :=
  ⟨_, rfl, by decide +kernel, (unbind_spares_iff (OnFull.refuse UInt8) noSockets rfl oneByOne _
    rfl).1.mpr (by decide +kernel)⟩

/-- The destructor of the first socket takes the second one off the list. -/
theorem oneTooLong_unbinds : ∃ P P',
    Runs.run (Population.step (OnFull.refuse UInt8)) noSockets oneTooLong = some P ∧
    P.table.sockets.toList = [1] ∧
    P.step (OnFull.refuse UInt8) (.destruct 0) = some P' ∧ P'.alive 1 = true ∧
    P'.table.sockets.toList = [] ∧ ¬ P.Spares (OnFull.refuse UInt8) (.destruct 0) := by
  refine ⟨_, _, rfl, by decide +kernel, rfl, by decide +kernel, by decide +kernel, fun h => ?_⟩
  have hgone := (h _ rfl 1 (by decide +kernel) (by decide)).1
  exact absurd hgone (by decide +kernel)

end PicoLan
