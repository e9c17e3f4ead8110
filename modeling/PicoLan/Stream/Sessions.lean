import PicoLan.Stream.Closing

/-!
# One connection after the other

The ring buffer belongs to the socket and outlives its connections.  Here the
ledger is opened anew with every connection, so that `returned` and `accepted`
are those of the connection at hand; the bytes returned are among those accepted
as long as every connection begins with an empty buffer (`connections_apart`).
-/

namespace PicoLan

/-- `connect()` and `accept()` begin a connection once they are past their look at
the state. -/
def Endpoint.Opens (e : Endpoint) : Action → Prop
  | .connect _ _ => e.socket.state = .closed
  | .accept => e.socket.state = .synRecved
  | _ => False

instance (e : Endpoint) : ∀ a, Decidable (e.Opens a)
  | .connect _ _ => inferInstanceAs (Decidable (_ = _))
  | .accept => inferInstanceAs (Decidable (_ = _))
  | .listen => isFalse id
  | .disconnect => isFalse id
  | .write _ => isFalse id
  | .read _ => isFalse id
  | .poll _ _ => isFalse id
  | .burst => isFalse id

/-- No byte is left over from before. -/
def Endpoint.OpensEmpty (e : Endpoint) (a : Action) : Prop :=
  e.Opens a → e.socket.ringbuf.toList = []

instance (e : Endpoint) (a : Action) : Decidable (e.OpensEmpty a) :=
  inferInstanceAs (Decidable (_ → _))

theorem Endpoint.Opens.idle {F : OnFull UInt8} {e e' : Endpoint} {a : Action} {out : List Output}
    (h : e.Opens a) (hstep : e.step F a = some (e', out)) : e.call = .idle := by
  cases a with
  | connect r port => exact (step_connect.mp hstep).2.1
  | accept => exact (step_accept.mp hstep).2.1
  | _ => cases h

namespace Ledger

variable (F : OnFull UInt8)

/-- A connection that begins has a page of its own. -/
def turnPage (l : Ledger) (a : Action) : Ledger :=
  if l.endpoint.Opens a then { endpoint := l.endpoint } else l

def stepPaged (l : Ledger) (a : Action) : Option Ledger := (l.turnPage a).step F a

/-- What has been returned and what is held was accepted in this connection. -/
def Own (l : Ledger) : Prop := l.total.Sublist l.accepted

end Ledger

section

variable (F : OnFull UInt8) (hF : F.Keeps)

include hF

/-- Whether the frames fit or not. -/
theorem SocketStream.handleAll_sublist (k : Kind) (s : SocketStream) (address : UInt8)
    (as : List Arrival) : (s.handleAll F k address as).1.ringbuf.toList.Sublist
      (s.ringbuf.toList ++ s.acceptedAll F k address as) := by
  induction as generalizing s with
  | nil => exact List.sublist_append_left _ _
  | cons a as ih =>
    have hhead : (s.handle F k address a).1.ringbuf.toList.Sublist
        (s.ringbuf.toList ++ if s.Takes F k address a then a.body else []) := by
      rw [handle_ringbuf]
      split
      · exact RingBuffer.putAll_sublist F hF _ _
      · exact List.sublist_append_left _ _
    have htail := hhead.append_right ((s.handle F k address a).1.acceptedAll F k address as)
    rw [List.append_assoc] at htail
    exact (ih (s.handle F k address a).1).trans htail

theorem Ledger.step_sublist {l l' : Ledger} {a : Action} (h : l.step F a = some l') :
    l'.total.Sublist (l.total ++ l.endpoint.acceptedIn F a) := by
  obtain ⟨⟨e, out⟩, hstep, rfl⟩ := Option.map_eq_some_iff.mp h
  unfold Ledger.total
  dsimp only
  rw [List.append_assoc, List.append_assoc]
  apply List.Sublist.append_left
  by_cases hp : ∃ as late, a = .poll as late
  · obtain ⟨as, late, rfl⟩ := hp
    rw [Endpoint.step_poll_held F hstep]
    unfold Endpoint.held
    rw [List.append_assoc]
    apply List.Sublist.append_left
    exact SocketStream.handleAll_sublist F hF _ _ _ as
  · rw [Endpoint.step_held F hstep (fun as late ha => hp ⟨as, late, ha⟩)]
    exact List.sublist_append_left _ _

theorem Ledger.Own.step {l l' : Ledger} {a : Action} (hl : l.Own) (ha : l.endpoint.OpensEmpty a)
    (h : l.stepPaged F a = some l') : l'.Own := by
  have hpage : (l.turnPage a).Own := by
    unfold turnPage
    split
    · next hopens =>
      obtain ⟨⟨e, out⟩, hstep, -⟩ := Option.map_eq_some_iff.mp h
      have hidle : l.endpoint.call = .idle := by
        unfold turnPage at hstep
        rw [if_pos hopens] at hstep
        exact hopens.idle hstep
      show ([] ++ (l.endpoint.inHand ++ l.endpoint.socket.ringbuf.toList)).Sublist []
      unfold Endpoint.inHand
      rw [hidle, ha hopens]
      exact List.Sublist.refl []
    · exact hl
  have hacc : l'.accepted = (l.turnPage a).accepted ++ (l.turnPage a).endpoint.acceptedIn F a := by
    obtain ⟨⟨e, out⟩, -, rfl⟩ := Option.map_eq_some_iff.mp h
    rfl
  unfold Own
  rw [hacc]
  exact (step_sublist F hF h).trans (hpage.append_right _)

end

/-- The first read of a connection takes what the last one has left. -/
theorem Ledger.leftover_read (F : OnFull UInt8) {l l' : Ledger}
    (hopen : l.endpoint.socket.state = .opened) (hnew : l.accepted = [])
    (hleft : l.endpoint.socket.ringbuf.toList ≠ [])
    (h : l.stepPaged F (.read 1) = some l') : ¬ l'.returned.Sublist l'.accepted := by
  obtain ⟨⟨e, out⟩, hstep, rfl⟩ := Option.map_eq_some_iff.mp h
  have hpage : l.turnPage (.read 1) = l := if_neg (fun h => h)
  rw [hpage] at hstep ⊢
  obtain ⟨-, rfl, rfl⟩ := Endpoint.step_read.mp hstep
  obtain ⟨b, bs, hb⟩ := List.exists_cons_of_ne_nil hleft
  obtain ⟨hd, -, -⟩ := l.endpoint.socket.ringbuf.drain_eq 1
  have hread : gotten (l.endpoint.read 1).2 = [b] := by
    have hfull : ¬ ([] ++ (l.endpoint.socket.ringbuf.drain (1 - 0)).1 : List UInt8).length < 1 := by
      rw [Nat.sub_zero, hd, hb]
      simp
    unfold Endpoint.read Endpoint.goOnReading
    rw [if_neg (fun h => h hopen)]
    dsimp only [List.length_nil]
    rw [if_neg hfull, (Endpoint.endRead_gotten _ _).1, Nat.sub_zero, hd, hb]
    rfl
  dsimp only
  rw [hread, hnew]
  intro hsub
  have := hsub.length_le
  simp [Endpoint.acceptedIn] at this

/-- **One connection, one stream.**  In every run from an endpoint that holds no
byte, when each connection begins with an empty ring buffer, the bytes that the
reads of a connection return were all accepted in it.  Where one begins with a byte
in the buffer, its first read returns a byte that was not. -/
theorem connections_apart (F : OnFull UInt8) (hF : F.Keeps) :
    (∀ (e : Endpoint) (as : List Action) (l : Ledger), e.held = [] →
      Runs.run (Ledger.stepPaged F) { endpoint := e } as = some l →
      Runs.Meets (Ledger.stepPaged F) (fun l a => l.endpoint.OpensEmpty a) { endpoint := e } as →
      l.returned.Sublist l.accepted) ∧
    ∀ (l l' : Ledger), l.endpoint.socket.state = .opened → l.accepted = [] →
      l.endpoint.socket.ringbuf.toList ≠ [] →
      l.stepPaged F (.read 1) = some l' → ¬ l'.returned.Sublist l'.accepted := by
  constructor
  · intro e as l he hrun hok
    have hstart : ({ endpoint := e } : Ledger).Own := by
      show ([] ++ e.held).Sublist []
      rw [he]
      exact List.Sublist.refl []
    have hown : l.Own :=
      Runs.run_invariant (fun l a l' hl ha h => hl.step F hF ha h) hstart hok hrun
    exact (List.sublist_append_left l.returned l.endpoint.held).trans hown
  · intro l l' hopen hnew hleft h
    exact Ledger.leftover_read F hopen hnew hleft h

/-! ## Two connections -/

/-- A server on port 80 that has not been used. -/
def unusedServer : Endpoint where
  kind := .server
  address := 1
  socket := { port := 80, ringbuf := .empty 8, remoteSequence := 0, remotePort := 0 }

/-- `source` calls, with the number `seq` in its SYN, and is accepted. -/
def acceptFrom (source seq : UInt8) : List Action :=
  [.listen, .poll [datagramTo80 source [MessageType.syn, seq, 9]] false, .accept,
    .poll [datagramTo80 source [MessageType.ack, 1]] false]

/-- 7 sends three bytes and hangs up; then 8 is accepted and there is a read. -/
def twoPeers : List Action :=
  acceptFrom 7 5 ++ [.poll [dataFrom7 6 [10, 11, 12], datagramTo80 7 [MessageType.close, 7]] false] ++
    acceptFrom 8 20 ++ [.read 3]

/-- The same with a read before 7 hangs up, and a byte from 8. -/
def twoPeersRead : List Action :=
  acceptFrom 7 5 ++ [.poll [dataFrom7 6 [10, 11, 12]] false, .read 3, .disconnect] ++
    acceptFrom 8 20 ++ [.poll [datagramTo80 8 [MessageType.data, 21, 13]] false, .read 1]

theorem twoPeersRead_apart : ∃ l,
    Runs.run (Ledger.stepPaged (OnFull.refuse UInt8)) { endpoint := unusedServer } twoPeersRead =
      some l ∧ l.returned = [13] ∧ l.returned.Sublist l.accepted :=
  ⟨_, rfl, by decide +kernel, (connections_apart (OnFull.refuse UInt8) (OnFull.refuse_keeps UInt8)).1
    unusedServer twoPeersRead _ rfl rfl (by decide +kernel)⟩

/-- The bytes of 7 are read in the connection with 8. -/
theorem twoPeers_mixed : ∃ l,
    Runs.run (Ledger.stepPaged (OnFull.refuse UInt8)) { endpoint := unusedServer } twoPeers =
      some l ∧ l.endpoint.socket.remote = 8 ∧ l.returned = [10, 11, 12] ∧ l.accepted = [] ∧
      ¬ l.returned.Sublist l.accepted :=
  ⟨_, rfl, by decide +kernel, by decide +kernel, by decide +kernel, by decide +kernel⟩

end PicoLan
