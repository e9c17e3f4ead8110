import PicoLan.Stream.OnData

/-!
# Datagrams of third parties

`onData` compares the sender with the peer address, but the handler has written
the sender's address there just before the call.  So the comparison always
succeeds, and a stream is undisturbed exactly by those runs in which no third
party sends to its port (`undisturbed_iff`).
-/

namespace PicoLan

variable (F : OnFull UInt8)

/-! ## Runs of the handler -/

def Interface.handleAll (I : Interface) : List Arrival → Interface × List (Nat × DatagramPack)
  | [] => (I, [])
  | a :: as =>
    let (I, out) := I.datagramPackHandler F a
    let (I, out') := handleAll I as
    (I, out ++ out')

theorem Interface.handleAll_append (I : Interface) (as bs : List Arrival) :
    I.handleAll F (as ++ bs) =
      (((I.handleAll F as).1.handleAll F bs).1,
        (I.handleAll F as).2 ++ ((I.handleAll F as).1.handleAll F bs).2) := by
  induction as generalizing I with
  | nil => rfl
  | cons a as ih =>
    simp only [List.cons_append, Interface.handleAll]
    rw [ih, List.append_assoc]

/-- A run of the handler is, for each bound stream, a run of that stream. -/
theorem Interface.handleAll_stream (I : Interface) (as : List Arrival) (l : Nat)
    (hl : l ∈ I.sockets.toList) (hnd : I.sockets.toList.Nodup) (k : Kind) (s : SocketStream)
    (hs : I.object l = .stream k s) :
    (I.handleAll F as).1.object l = .stream k (s.handleAll F k I.address as).1 ∧
      sentBy l (I.handleAll F as).2 = (s.handleAll F k I.address as).2 := by
  induction as generalizing I s with
  | nil => exact ⟨hs, rfl⟩
  | cons a as ih =>
    obtain ⟨h₁, h₂⟩ := handler_stream F I a l hl hnd k s hs
    obtain ⟨h₃, h₄⟩ := handler_address F I a
    obtain ⟨h₅, h₆⟩ := ih (I.datagramPackHandler F a).1 (by rw [h₄]; exact hl)
      (by rw [h₄]; exact hnd) _ h₁
    rw [h₃] at h₅ h₆
    refine ⟨h₅, ?_⟩
    simp only [Interface.handleAll, SocketStream.handleAll, sentBy_append, h₂, h₆]

/-! ## The peer address -/

/-- Whoever sent the last datagram for the port is the peer. -/
theorem SocketStream.handle_remote (k : Kind) (s : SocketStream) (address : UInt8) (a : Arrival) :
    (s.handle F k address a).1.remote =
        (if a.IsFor address s.port then a.pack.sourceAddr else s.remote) ∧
      (s.handle F k address a).1.port = s.port := by
  unfold handle
  split
  · exact (receive_reaction F k s address a).remote
  · exact ⟨rfl, rfl⟩

theorem SocketStream.handleAll_port (k : Kind) (s : SocketStream) (address : UInt8)
    (as : List Arrival) : (s.handleAll F k address as).1.port = s.port := by
  induction as generalizing s with
  | nil => rfl
  | cons a as ih => exact (ih _).trans (handle_remote F k s address a).2

/-- While only the peer sends, it stays the peer. -/
theorem SocketStream.handleAll_remote (k : Kind) (s : SocketStream) (address : UInt8)
    (as : List Arrival) (h : ∀ a ∈ as, a.pack.sourceAddr = s.remote) :
    (s.handleAll F k address as).1.remote = s.remote := by
  induction as generalizing s with
  | nil => rfl
  | cons a as ih =>
    have ha := h a List.mem_cons_self
    have hstep : (s.handle F k address a).1.remote = s.remote := by
      rw [(handle_remote F k s address a).1]
      split
      · exact ha
      · rfl
    have hrest : ∀ b ∈ as, b.pack.sourceAddr = (s.handle F k address a).1.remote := by
      intro b hb
      rw [hstep]
      exact h b (List.mem_cons_of_mem a hb)
    exact (ih _ hrest).trans hstep

/-- Datagrams that are not for the port can be left out. -/
theorem SocketStream.handleAll_filter (k : Kind) (s : SocketStream) (address : UInt8)
    (as : List Arrival) (p : Arrival → Bool)
    (h : ∀ a ∈ as, a.IsFor address s.port → p a = true) :
    s.handleAll F k address (as.filter p) = s.handleAll F k address as := by
  induction as generalizing s with
  | nil => rfl
  | cons a as ih =>
    have hport := (handle_remote F k s address a).2
    have ih := ih (s.handle F k address a).1 (by
      rw [hport]
      exact fun b hb => h b (List.mem_cons_of_mem a hb))
    by_cases hp : p a = true
    · rw [List.filter_cons_of_pos hp]
      simp only [handleAll, ih]
    · have hfor : ¬ a.IsFor address s.port := fun hf => hp (h a List.mem_cons_self hf)
      have hskip : s.handle F k address a = (s, []) := if_neg hfor
      rw [hskip] at ih
      rw [List.filter_cons_of_neg hp]
      simp only [handleAll, hskip, ih, List.nil_append]

/-! ## Two runs -/

/-- What can be seen of a stream after a run. -/
structure View where
  state : ConnectionState
  remote : UInt8
  remotePort : UInt8
  remoteSequence : UInt8
  lastRecvedAck : UInt8
  contents : List UInt8
  sent : List DatagramPack
deriving DecidableEq

def SocketStream.view (s : SocketStream) (sent : List DatagramPack) : View where
  state := s.state
  remote := s.remote
  remotePort := s.remotePort
  remoteSequence := s.remoteSequence
  lastRecvedAck := s.lastRecvedAck
  contents := s.ringbuf.toList
  sent := sent

def Interface.view (l : Nat) (io : Interface × List (Nat × DatagramPack)) : Option View :=
  match io.1.object l with
  | .stream _ s => some (s.view (sentBy l io.2))
  | .datagram _ => none

/-- At every moment of the run, the stream `l` points to is as if only `peer`
had sent. -/
def Undisturbed (I : Interface) (l : Nat) (peer : UInt8) (as : List Arrival) : Prop :=
  ∀ ps, ps <+: as →
    Interface.view l (I.handleAll F ps) =
      Interface.view l (I.handleAll F (ps.filter (·.pack.sourceAddr = peer)))

/-- **Third parties.**  A stream is undisturbed exactly when every datagram for
its port comes from its peer. -/
theorem undisturbed_iff (I : Interface) (l : Nat) (hl : l ∈ I.sockets.toList)
    (hnd : I.sockets.toList.Nodup) (k : Kind) (s : SocketStream) (hs : I.object l = .stream k s)
    (as : List Arrival) :
    Undisturbed F I l s.remote as ↔
      ∀ a ∈ as, a.IsFor I.address s.port → a.pack.sourceAddr = s.remote := by
  have hview : ∀ ps, Interface.view l (I.handleAll F ps) =
      some ((s.handleAll F k I.address ps).1.view (s.handleAll F k I.address ps).2) := by
    intro ps
    obtain ⟨h₁, h₂⟩ := I.handleAll_stream F ps l hl hnd k s hs
    unfold Interface.view
    rw [h₁, h₂]
  constructor
  · intro h a ha hfor
    obtain ⟨us, vs, rfl⟩ := List.append_of_mem ha
    have hlast := h (us ++ [a]) (by simp)
    rw [hview, hview, Option.some.injEq] at hlast
    have hremote := congrArg View.remote hlast
    -- the stream took the sender of `a` for its peer
    have hleft : (s.handleAll F k I.address (us ++ [a])).1.remote = a.pack.sourceAddr := by
      rw [SocketStream.handleAll_append]
      show ((s.handleAll F k I.address us).1.handle F k I.address a).1.remote = _
      rw [(SocketStream.handle_remote F k _ I.address a).1, SocketStream.handleAll_port,
        if_pos hfor]
    have hright : (s.handleAll F k I.address
        ((us ++ [a]).filter (·.pack.sourceAddr = s.remote))).1.remote = s.remote := by
      apply SocketStream.handleAll_remote
      intro b hb
      exact of_decide_eq_true (List.mem_filter.mp hb).2
    exact hleft.symm.trans (hremote.trans hright)
  · intro h ps hps
    rw [hview, hview, SocketStream.handleAll_filter]
    intro a ha hfor
    exact decide_eq_true (h a (hps.subset ha) hfor)

/-! ## A stranger hangs up -/

/-- An interface at address 1 with an open server on port 80, talking to 7. -/
def openServer : Interface where
  address := 1
  sockets := ⟨[0], by decide⟩
  object _ := .stream .server
    { port := 80, remote := 7, ringbuf := .empty 64, state := .opened, remoteSequence := 5,
      remotePort := 9 }

def datagramTo80 (source : UInt8) (payload : List UInt8) : Arrival where
  pack := ⟨6, source, 1, 80, BoundedList.empty.appendAll payload⟩
  behind _ := 0

theorem peerData_undisturbed :
    Undisturbed (OnFull.refuse UInt8) openServer 0 7 [datagramTo80 7 [2, 6, 65]] ↔
      ∀ a ∈ [datagramTo80 7 [2, 6, 65]], a.IsFor 1 80 → a.pack.sourceAddr = 7 :=
  undisturbed_iff (OnFull.refuse UInt8) openServer 0 (by decide) (by decide) .server _ rfl _

/-- A CLOSE from address 66 closes the connection with 7. -/
theorem strangerClose_disturbs :
    (Interface.view 0 (openServer.handleAll (OnFull.refuse UInt8) [datagramTo80 66 [3, 0]])).map
        View.state = some .closed ∧
      ¬ Undisturbed (OnFull.refuse UInt8) openServer 0 7 [datagramTo80 66 [3, 0]] := by
  refine ⟨by decide +kernel, ?_⟩
  intro h
  have hall := h [datagramTo80 66 [3, 0]] (List.prefix_refl _)
  exact absurd hall (by decide +kernel)

end PicoLan
