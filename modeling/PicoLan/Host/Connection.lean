import PicoLan.Host.Refinement
import PicoLan.Stream.Joining

/-!
# Connecting over the cable

Two devices with any sockets, of which one is a new client and one a new server that both
are bound.  Whatever else the devices do but `set_address`, when `listen`, `connect` and `accept`
have each been called once and returned `NONE` the two streams are open to each other
(`Cable.connection`).
-/

namespace PicoLan

open Runs

/-- The calls that make a connection. -/
def Action.Connects : Action → Prop
  | .listen => True
  | .connect _ _ => True
  | .accept => True
  | _ => False

instance : ∀ a : Action, Decidable a.Connects
  | .listen => isTrue trivial
  | .connect _ _ => isTrue trivial
  | .accept => isTrue trivial
  | .disconnect => isFalse id
  | .write _ => isFalse id
  | .read _ => isFalse id
  | .poll _ _ => isFalse id
  | .burst => isFalse id

/-- The two ends of a connection that has just been made. -/
theorem Net.joined_ends {n₀ n : Net} (h : n₀.Stage n) (hl : (n.hist .left).returned = [Error.none])
    (hr : (n.hist .right).returned = [Error.none, Error.none]) :
    n.ends = n₀.joinedEnds ∧ ∀ i, n.wire i = [] := by
  have hstage : n₀.Stages _ _ _ _ _ _ := h
  rw [hl, hr] at hstage
  generalize hle : n.ends .left = left at hstage
  generalize hre : n.ends .right = right at hstage
  generalize hwl : n.wire .left = wl at hstage
  generalize hwr : n.wire .right = wr at hstage
  cases hstage with
  | joined => exact ⟨funext fun i => by cases i <;> assumption, fun i => by cases i <;> assumption⟩

namespace Cable

variable {F : OnFull UInt8} {l : Side → Nat} {e : Side → Endpoint} {C C' : Cable}

theorem New.net (h : C.New l e) : Net.New { ends := e } where
  client := h.client
  server := h.server
  closed := h.closed
  idle := h.idle
  wire _ := rfl
  returned _ := rfl

theorem connecting_of_connects {n : Net} {as : List NetAction}
    (h : Meets (Net.step F) (fun _ x => ∀ i a, x = .act i a → a.Connects) n as) :
    Meets (Net.step F) Net.Connecting n as := by
  refine h.imp fun n x hx => ?_
  cases x with
  | poll i behind late => trivial
  | act i a =>
    have ha := hx i a rfl
    cases a <;> exact ha

/-- Nothing on the cable is nothing on the net. -/
theorem Abs.wire_nil {n : Net} (h : Abs l C n) {i : Side} (hw : C.wire i = []) : n.wire i = [] := by
  obtain ⟨xs, hpend, hxs, -⟩ := h.pending i
  have hdecoded := hpend.decoded
  rw [hw] at hdecoded
  rw [hxs, List.map_eq_nil_iff.mp hdecoded.symm]
  rfl

/-- Two new streams, when no call has failed. -/
theorem stage_of_connects (h₀ : C.New l e) {cs : List (Side × HostAction)}
    (hok : Meets (Cable.step F)
      (fun C x => Private F l C x ∧ Calls l (fun _ => Action.Connects) x) C cs)
    (hrun : run (Cable.step F) C cs = some C')
    (hl : ∀ x ∈ retsOf (outputsOf (l .left) (C'.log .left)), x = Error.none)
    (hr : ∀ x ∈ retsOf (outputsOf (l .right) (C'.log .right)), x = Error.none) :
    ∃ n as, run (Net.step F) { ends := e } as = some n ∧ Abs l C' n ∧ Net.Stage { ends := e } n := by
  obtain ⟨n, ⟨as, has, hrun'⟩, hR⟩ := (refines F l fun _ => Action.Connects).run h₀.abs hok hrun
  refine ⟨n, as, hrun', hR, ?_⟩
  refine (run_invariant (Net.stage_step h₀.net) (.inr h₀.net.stage)
    (connecting_of_connects has) hrun').resolve_left ?_
  rintro ⟨i, x, hx, hne⟩
  rw [hR.returned] at hx
  cases i with
  | left => exact hne (hl x hx)
  | right => exact hne (hr x hx)

/-- Two new streams, when each call has been made once and returned `NONE`. -/
theorem joined_of_connects (h₀ : C.New l e) {cs : List (Side × HostAction)}
    (hok : Meets (Cable.step F)
      (fun C x => Private F l C x ∧ Calls l (fun _ => Action.Connects) x) C cs)
    (hrun : run (Cable.step F) C cs = some C')
    (hl : retsOf (outputsOf (l .left) (C'.log .left)) = [Error.none])
    (hr : retsOf (outputsOf (l .right) (C'.log .right)) = [Error.none, Error.none]) :
    ∃ n, Abs l C' n ∧ n.ends = Net.joinedEnds { ends := e } ∧
      n.Joined (Net.firstNumber { ends := e }) (e .left).socket.lastRecvedAck := by
  obtain ⟨n, -, -, hR, hstage⟩ := stage_of_connects h₀ hok hrun (by simp [hl]) (by simp [hr])
  rw [← hR.returned] at hl hr
  obtain ⟨hends, hw⟩ := Net.joined_ends hstage hl hr
  refine ⟨n, hR, hends, h₀.net.joined ?_ ?_ hw⟩
  · rw [hends]
    rfl
  · rw [hends]
    rfl

/-- No packet on the cable is for this stream. -/
theorem Abs.nothing_left {n : Net} (h : Abs l C n) {i : Side} (hw : n.wire i = []) (p : DatagramPack)
    (hp : .datagramPack p ∈ calls ((C.host i).parser.feed (C.wire i)).2) (behind : Nat → UInt8) :
    ¬ (Arrival.mk p behind).IsFor (n.ends i).address (n.ends i).socket.port := by
  obtain ⟨xs, hpend, hxs, hharm⟩ := h.pending i
  have hmem : .datagramPack p ∈ xs.map Parcel.packet := by
    rw [← hpend.decoded]
    exact hp
  obtain ⟨x, hx, hpacket⟩ := List.mem_map.mp hmem
  match x with
  | .inl q =>
    rw [hw] at hxs
    have hq := List.filterMap_eq_nil_iff.mp hxs.symm _ hx
    cases hq
  | .inr q =>
    cases hpacket
    exact hharm p hx behind

/-- **A connection.**  Whatever else two devices do, in a run without `set_address` in which both
streams stay bound and only they send to their ports: when the only calls of two new streams are
one `listen`, one `connect` and one `accept`, and each has returned `NONE`, both streams are open
to each other, in step, and no packet of theirs is left on the cable. -/
theorem connection (F : OnFull UInt8) (l : Side → Nat) (e : Side → Endpoint) (C : Cable)
    (h₀ : C.New l e) (cs : List (Side × HostAction))
    (hok : Meets (Cable.step F) (fun C x => Private F l C x ∧ Calls l (fun _ => Action.Connects) x)
      C cs) (C' : Cable) (hrun : run (Cable.step F) C cs = some C')
    (hl : retsOf (outputsOf (l .left) (C'.log .left)) = [Error.none])
    (hr : retsOf (outputsOf (l .right) (C'.log .right)) = [Error.none, Error.none]) :
    ∃ e' : Side → Endpoint, ∀ i, (C'.host i).endpoint (l i) = some (e' i) ∧
      (e' i).call = .idle ∧ (e' i).socket.state = .opened ∧
      (e' i).socket.remote = (e' i.other).address ∧
      (e' i).socket.remotePort = (e' i.other).socket.port ∧
      (e' i).socket.sequenceNumber = (e i).socket.sequenceNumber + 1 ∧
      (e' i).socket.remoteSequence = (e i.other).socket.sequenceNumber ∧
      ∀ p behind, .datagramPack p ∈ calls ((C'.host i).parser.feed (C'.wire i)).2 →
        ¬ (Arrival.mk p behind).IsFor (e' i).address (e' i).socket.port := by
  obtain ⟨n', hR, -, hj⟩ := joined_of_connects h₀ hok hrun hl hr
  refine ⟨n'.ends, fun i => ⟨hR.endpoint i, hj.idle i, hj.opened i, hj.remote i, hj.remotePort i,
    hj.sequenceNumber i, ?_, fun p behind hp => hR.nothing_left (hj.wire i) p hp behind⟩⟩
  have hseq := hj.remoteSequence i.other
  rw [Side.other_other] at hseq
  exact hseq

end Cable

theorem oneCall_joined : ∃ C, run (Cable.step (OnFull.refuse UInt8)) twoDevices oneCall = some C ∧
    ∃ e : Side → Endpoint, ∀ i, (C.host i).endpoint 0 = some (e i) ∧ (e i).socket.state = .opened := by
  have hrets : (run (Cable.step (OnFull.refuse UInt8)) twoDevices oneCall).map (fun C =>
      (retsOf (outputsOf 0 (C.log .left)), retsOf (outputsOf 0 (C.log .right)))) =
      some ([Error.none], [Error.none, Error.none]) := by decide +kernel
  obtain ⟨C, hrun, hret⟩ := Option.map_eq_some_iff.mp hrets
  obtain ⟨e, he⟩ := Cable.connection (OnFull.refuse UInt8) (fun _ => 0) newPair twoDevices twoDevices_new
    oneCall (by decide +kernel) C hrun (Prod.ext_iff.mp hret).1 (Prod.ext_iff.mp hret).2
  exact ⟨C, hrun, e, fun i => ⟨(he i).1, (he i).2.2.1⟩⟩

end PicoLan
