import PicoLan.Stream.Handshake
import PicoLan.Stream.Net

/-!
# A net with a client and a server is a handshake

`Net.shake` forgets what the handshake does not need; every delivery, every
resumption and every call is then a step of `Handshake` (`hears_of_take`,
`moves_of_resume`, `moves_of_step`), so its invariant holds of all runs in which
`connect` is called quietly (`handshake_agrees`).
-/

namespace PicoLan

/-! ## Forgetting -/

/-- The message with the header bytes `t` and `n`. -/
def Msg.read (t n : UInt8) : Msg :=
  if t = MessageType.syn then .syn n
  else if t = MessageType.ack then .ack
  else if t = MessageType.data then .data
  else .close

def DatagramPack.msg (p : DatagramPack) : Msg :=
  match p.payload.toList with
  | t :: n :: _ => Msg.read t n
  | _ => .close

/-- The payload has its two header bytes. -/
def DatagramPack.Headed (p : DatagramPack) : Prop :=
  ∃ t n rest, p.payload.toList = t :: n :: rest

def Call.doing : Call → Doing
  | .idle => .idle
  | .connecting => .connecting
  | .accepting => .accepting
  | .writing _ => .writing
  | .reading _ _ => .reading

def Endpoint.party (e : Endpoint) (h : History) : Party where
  state := e.socket.state
  doing := e.call.doing
  heard := e.socket.remoteSequence
  called := h.syn
  wrote := h.wrote

/-- The client is on the left. -/
def Net.shake (n : Net) : Handshake where
  client := (n.ends .left).party (n.hist .left)
  server := (n.ends .right).party (n.hist .right)
  toServer := (n.wire .right).map DatagramPack.msg
  toClient := (n.wire .left).map DatagramPack.msg

/-! ## The messages of the source -/

@[simp] theorem Msg.read_syn (n : UInt8) : Msg.read MessageType.syn n = .syn n := rfl
@[simp] theorem Msg.read_ack (n : UInt8) : Msg.read MessageType.ack n = .ack := rfl
@[simp] theorem Msg.read_data (n : UInt8) : Msg.read MessageType.data n = .data := rfl
@[simp] theorem Msg.read_close (n : UInt8) : Msg.read MessageType.close n = .close := rfl

theorem Msg.read_eq_syn {t n m : UInt8} : Msg.read t n = .syn m ↔ t = MessageType.syn ∧ n = m := by
  unfold Msg.read
  split_ifs with h <;> simp [h]

theorem message_headed (s : SocketStream) (address t n : UInt8) (rest : List UInt8) :
    (s.message address (t :: n :: rest)).Headed :=
  ⟨t, n, rest.take 52, message_payload s address _⟩

@[simp] theorem message_msg (s : SocketStream) (address t n : UInt8) (rest : List UInt8) :
    (s.message address (t :: n :: rest)).msg = Msg.read t n := by
  unfold DatagramPack.msg
  rw [message_payload]
  rfl

theorem synNumber_eq_some (p : DatagramPack) (n : UInt8) : synNumber p = some n ↔ p.msg = .syn n := by
  unfold synNumber DatagramPack.msg
  match p.payload.toList with
  | [] => simp
  | [_] => simp
  | t :: m :: rest =>
    rw [Msg.read_eq_syn]
    dsimp only
    split
    · next h => simp [h]
    · next h => simp [h]

@[simp] theorem synNumber_message (s : SocketStream) (address t n : UInt8) (rest : List UInt8) :
    synNumber (s.message address (t :: n :: rest)) =
      if t = MessageType.syn then some n else none := by
  unfold synNumber
  rw [message_payload]
  rfl

theorem synNumber_eq_none (p : DatagramPack) : synNumber p = none ↔ ∀ n, p.msg ≠ .syn n := by
  rw [Option.eq_none_iff_forall_ne_some]
  exact forall_congr' fun n => not_congr (synNumber_eq_some p n)

/-- The receiver reads what was written. -/
theorem DatagramPack.Headed.cells {p : DatagramPack} (h : p.Headed) (behind : Nat → UInt8) :
    p.msg = Msg.read ((Arrival.mk p behind).data.cell 0) ((Arrival.mk p behind).data.cell 1) := by
  obtain ⟨t, n, rest, hl⟩ := h
  simp [msg, Arrival.data, hl]

/-! ## Histories -/

namespace History

/-- Without a SYN the number and the mark stay. -/
theorem noteAll_noSyn (h : History) (out : List Output)
    (hn : Handshake.NoSyn ((sentOf out).map DatagramPack.msg)) :
    (h.noteAll out).syn = h.syn ∧ (h.noteAll out).wrote = h.wrote := by
  induction out generalizing h with
  | nil => exact ⟨rfl, rfl⟩
  | cons o out ih =>
    cases o with
    | sent p =>
      simp only [sentOf, List.map_cons, Handshake.noSyn_cons] at hn
      obtain ⟨h₁, h₂⟩ := ih (h.note (.sent p)) hn.2
      have hp : h.note (.sent p) = h := by
        simp only [note]
        rw [(synNumber_eq_none p).mpr hn.1]
      rw [hp] at h₁ h₂
      show (h.note (.sent p) |>.noteAll out).syn = _ ∧ (h.note (.sent p) |>.noteAll out).wrote = _
      rw [hp]
      exact ⟨h₁, h₂⟩
    | ret r => exact ih (h.note (.ret r)) hn
    | got bytes => exact ih (h.note (.got bytes)) hn

end History

/-! ## Deliveries -/

section

variable (F : OnFull UInt8)

theorem party_noSyn (e : Endpoint) (h : History) (out : List Output)
    (hn : Handshake.NoSyn ((sentOf out).map DatagramPack.msg)) :
    e.party (h.noteAll out) = e.party h := by
  obtain ⟨h₁, h₂⟩ := h.noteAll_noSyn out hn
  simp [Endpoint.party, h₁, h₂]

/-- An arriving packet is heard, and every packet sent in return has its header. -/
theorem hears_of_take (e : Endpoint) (h : History) (p : DatagramPack) (behind : Nat → UInt8)
    (hp : p.Headed) :
    Hears e.kind (e.party h) p.msg
        ((e.takeAll F [⟨p, behind⟩]).1.party (h.noteAll (e.takeAll F [⟨p, behind⟩]).2))
        ((sentOf (e.takeAll F [⟨p, behind⟩]).2).map DatagramPack.msg) ∧
      ∀ q ∈ sentOf (e.takeAll F [⟨p, behind⟩]).2, q.Headed := by
  have hm := hp.cells behind
  obtain ⟨k, address, s, call⟩ := e
  simp only [Endpoint.takeAll, SocketStream.handleAll, List.append_nil, sentOf_sent]
  unfold SocketStream.handle
  split
  · have hr := s.receive_reaction F k address ⟨p, behind⟩
    generalize s.receive F k address ⟨p, behind⟩ = io at hr ⊢
    cases hr with
    | ignored => exact ⟨.ignored, by simp⟩
    | answered hs hd =>
      rw [hm, hd, Msg.read_syn]
      exact ⟨.answered hs, by simp⟩
    | called hs hd =>
      rw [hm, hd, Msg.read_syn]
      exact ⟨.called hs, by simp⟩
    | confirmed hs hd =>
      rw [hm, hd, Msg.read_ack]
      exact ⟨.confirmed hs, by simp⟩
    | hungUp hs hl hd =>
      rw [hm, hd, Msg.read_close]
      exact ⟨.hungUp hl, by simp⟩
    | acked => exact ⟨.ignored, by simp⟩
    | accepted hs hd hq =>
      rw [hm, hd, Msg.read_data, party_noSyn _ _ _ (by simp [sentOf])]
      refine ⟨?_, by simpa using message_headed _ _ _ _ _⟩
      simp only [List.map_cons, List.map_nil, message_msg, Msg.read_ack]
      exact .accepted hs
    | refused hs hd hq =>
      rw [hm, hd, Msg.read_data, party_noSyn _ _ _ (by simp [sentOf, SocketStream.sendAck])]
      refine ⟨?_, by simpa [SocketStream.sendAck] using message_headed _ _ _ _ _⟩
      simp only [SocketStream.sendAck, List.map_cons, List.map_nil, message_msg, Msg.read_ack]
      exact .refused hs
  · exact ⟨.ignored, by simp⟩

end

/-! ## Calls -/

/-- The packet that `write` is about to send is a frame of data. -/
def Endpoint.PackOk (e : Endpoint) : Prop :=
  ∀ w i pack, e.call = .writing w → w.pc = .sending i pack → pack.msg = .data ∧ pack.Headed

theorem burst_pack (w : WriteCall) (s : SocketStream) (address : UInt8) (i j : Nat)
    (pack : DatagramPack) (h : (w.burst s address i).pc = .sending j pack) :
    pack.msg = .data ∧ pack.Headed := by
  obtain ⟨n, rest, rfl⟩ := w.burst_sending s address h
  exact ⟨message_msg _ _ _ _ _, message_headed _ _ _ _ _⟩

theorem disconnect_moves (s : SocketStream) (address : UInt8) :
    (s.disconnect address).1 = { s with state := .closed } ∧
      ((s.disconnect address).2.map DatagramPack.msg =
        if s.state = .closed then [] else [.close]) ∧
      ∀ q ∈ (s.disconnect address).2, q.Headed := by
  unfold SocketStream.disconnect
  split
  · next h => exact ⟨by rw [← h], rfl, by simp⟩
  · next h => exact ⟨rfl, by simp, by simpa using message_headed _ _ _ _ _⟩

/-- What a call makes of an endpoint is a move of its party. -/
structure Simulated (e : Endpoint) (h : History) (r : Endpoint × List Output) : Prop where
  moves : Moves e.kind (e.party h) (r.1.party (h.noteAll r.2)) ((sentOf r.2).map DatagramPack.msg)
  headed : ∀ q ∈ sentOf r.2, q.Headed
  packOk : r.1.PackOk
  kind : r.1.kind = e.kind

theorem packOk_of_idle {e : Endpoint} (h : e.call.doing ≠ .writing) : e.PackOk := by
  intro w i pack hc
  rw [hc] at h
  exact absurd rfl h

theorem simulated_silent {e : Endpoint} {h : History} {r : Endpoint × List Output}
    (hsent : sentOf r.2 = []) (hm : Moves e.kind (e.party h) (r.1.party h) []) (hp : r.1.PackOk)
    (hk : r.1.kind = e.kind) : Simulated e h r := by
  refine ⟨?_, by simp [hsent], hp, hk⟩
  rw [party_noSyn _ _ _ (by simp [hsent]), hsent]
  exact hm

namespace Endpoint

theorem simulated_stays {e : Endpoint} (h : History) {out : List Output} (hsent : sentOf out = [])
    (hp : e.PackOk) : Simulated e h (e, out) :=
  simulated_silent hsent .stays hp rfl

theorem simulated_hangUp (e : Endpoint) (h : History) (out : List Output)
    (hsent : sentOf out = []) (zeros : UInt8)
    (hd : e.call = .connecting → e.socket.state ≠ .synSent ∧ e.socket.state ≠ .synRecved)
    (hw : e.call.doing ≠ .writing) :
    Simulated e h ({ e with
      socket := { (e.socket.disconnect e.address).1 with zeroReadCount := zeros }, call := .idle },
      (e.socket.disconnect e.address).2.map .sent ++ out) := by
  obtain ⟨hs, hm, hh⟩ := disconnect_moves e.socket e.address
  have hsent' : sentOf ((e.socket.disconnect e.address).2.map .sent ++ out) =
      (e.socket.disconnect e.address).2 := by
    rw [sentOf_append, sentOf_sent, hsent, List.append_nil]
  refine ⟨?_, by rw [hsent']; exact hh, packOk_of_idle nofun, rfl⟩
  have hn : Handshake.NoSyn ((e.socket.disconnect e.address).2.map DatagramPack.msg) := by
    rw [hm]
    split <;> simp
  rw [party_noSyn _ _ _ (by rw [hsent']; exact hn), hsent', hm, hs]
  refine .hangsUp (fun hc => hd ?_) hw
  cases hcall : e.call <;> simp [party, hcall, Call.doing] at hc ⊢

theorem simulated_endRead (e : Endpoint) (h : History) (got : List UInt8)
    (hd : e.call.doing = .idle ∨ e.call.doing = .reading) : Simulated e h (e.endRead got) := by
  have hc : e.call.doing ≠ .connecting ∧ e.call.doing ≠ .accepting ∧ e.call.doing ≠ .writing := by
    rcases hd with hd | hd <;> rw [hd] <;> decide
  have hreturns : Moves e.kind (e.party h) { e.party h with doing := .idle } [] :=
    .returns hc.1 (fun ha => absurd ha hc.2.1)
  unfold endRead
  dsimp only
  split
  · split
    · refine e.simulated_hangUp h [.got got] rfl 0 (fun hcall => ?_) hc.2.2
      rw [hcall] at hc
      exact absurd rfl hc.1
    · exact simulated_silent rfl hreturns (packOk_of_idle nofun) rfl
  · exact simulated_silent rfl hreturns (packOk_of_idle nofun) rfl

theorem simulated_goOnReading (e : Endpoint) (h : History) (got : List UInt8) (len : Nat)
    (hd : e.call.doing = .idle ∧ e.socket.state = .opened ∨ e.call.doing = .reading) :
    Simulated e h (e.goOnReading got len) := by
  unfold goOnReading
  dsimp only
  split
  · rcases hd with ⟨hd, hs⟩ | hd
    · exact simulated_silent rfl (.reads hd hs) (packOk_of_idle nofun) rfl
    · refine simulated_silent rfl ?_ (packOk_of_idle nofun) rfl
      have hstay : Moves e.kind (e.party h) (e.party h) [] := .stays
      have : e.party h = { e.party h with doing := .reading } := by
        rw [← hd]; rfl
      rw [this] at hstay ⊢
      exact hstay
  · have hend := simulated_endRead { e with socket := { e.socket with
      ringbuf := (e.socket.ringbuf.drain (len - got.length)).2 } } h
      (got ++ (e.socket.ringbuf.drain (len - got.length)).1) (hd.imp And.left id)
    exact ⟨hend.moves, hend.headed, hend.packOk, hend.kind⟩

theorem simulated_connecting (e : Endpoint) (h : History) (late : Bool) (hc : e.call = .connecting) :
    Simulated e h (e.resume late) := by
  have hp : e.PackOk := packOk_of_idle (by rw [hc]; decide)
  have hd : (e.party h).doing = .connecting := by simp [party, hc, Call.doing]
  unfold resume
  rw [hc]
  dsimp only
  split
  · exact simulated_silent rfl (.givesUp hd) (packOk_of_idle nofun) rfl
  split
  · exact simulated_stays h rfl hp
  · next hs₁ =>
    split
    · next hs₂ =>
      exact e.simulated_hangUp h [.ret _] rfl _ (fun _ => ⟨hs₁, hs₂⟩) (by rw [hc]; decide)
    · next hs₂ =>
      have hs : e.socket.state = .synRecved := not_not.mp hs₂
      refine ⟨?_, by simpa [sentOf, SocketStream.sendAck] using message_headed _ _ _ _ _,
        packOk_of_idle nofun, rfl⟩
      rw [party_noSyn _ _ _ (by simp [sentOf, SocketStream.sendAck])]
      simp only [sentOf, SocketStream.sendAck, List.map_cons, List.map_nil, message_msg,
        Msg.read_ack]
      exact .opens hd hs

theorem simulated_accepting (e : Endpoint) (h : History) (late : Bool) (hc : e.call = .accepting) :
    Simulated e h (e.resume late) := by
  have hp : e.PackOk := packOk_of_idle (by rw [hc]; decide)
  have hw : e.call.doing ≠ .writing := by rw [hc]; decide
  have hn : e.call ≠ .connecting := by rw [hc]; nofun
  unfold resume
  rw [hc]
  dsimp only
  split
  · exact e.simulated_hangUp h [.ret _] rfl _ (fun h => absurd h hn) hw
  split
  · exact simulated_stays h rfl hp
  split
  · exact e.simulated_hangUp h [.ret _] rfl _ (fun h => absurd h hn) hw
  · next hs =>
    exact simulated_silent rfl (.returns (by simp [party, hc, Call.doing])
      (fun _ => not_not.mp hs)) (packOk_of_idle nofun) rfl

/-- What `write` has got to does not matter. -/
theorem party_writing {e : Endpoint} {w : WriteCall} (h : History) (hc : e.call = .writing w)
    (w' : WriteCall) : ({ e with call := .writing w' } : Endpoint).party h = e.party h := by
  simp [party, hc, Call.doing]

theorem simulated_afterPass (e : Endpoint) (h : History) (w : WriteCall)
    (hc : e.call = .writing w) : Simulated e h (e.afterPass (w.evaluate e.socket)) := by
  have hs := w.evaluate_socket e.socket
  have hd : (e.party h).doing = .writing := by simp [party, hc, Call.doing]
  cases heq : w.evaluate e.socket with
  | mk s res =>
    rw [heq] at hs
    obtain ⟨q, rfl⟩ : ∃ q, s = { e.socket with sequenceNumber := q } := ⟨_, hs⟩
    cases res with
    | goesOn w' =>
      refine simulated_silent rfl ?_ ?_ rfl
      · show Moves e.kind (e.party h) (({ e with call := .writing w' } : Endpoint).party h) []
        rw [party_writing h hc]
        exact .stays
      · intro u j pack hcall hpc
        cases hcall
        rw [WriteCall.evaluate_top heq] at hpc
        cases hpc
    | returns r =>
      refine simulated_silent rfl ?_ (packOk_of_idle nofun) rfl
      exact .returns (by rw [hd]; decide) (by rw [hd]; nofun)

theorem simulated_writing (e : Endpoint) (h : History) (late : Bool) (hp : e.PackOk)
    (w : WriteCall) (hc : e.call = .writing w) : Simulated e h (e.resume late) := by
  cases hpc : w.pc with
  | top =>
    rw [resume_top hc hpc]
    exact simulated_stays h rfl hp
  | sending i pack =>
    obtain ⟨hdata, hhead⟩ := hp w i pack hc hpc
    rw [resume_sending hc hpc]
    refine ⟨?_, by simpa [sentOf] using hhead, ?_, rfl⟩
    · rw [party_noSyn _ _ _ (by simp [sentOf, hdata]), party_writing h hc]
      simp only [sentOf, List.map_cons, List.map_nil, hdata]
      exact .sends (by simp [party, hc, Call.doing])
    · intro w' j pack' hcall hpc'
      cases hcall
      exact burst_pack _ _ _ _ _ _ hpc'
  | waiting =>
    rw [resume_waiting hc hpc]
    split
    · exact e.simulated_afterPass h w hc
    · exact simulated_stays h rfl hp

/-- **Resumptions.** -/
theorem simulated_resume (e : Endpoint) (h : History) (late : Bool) (hp : e.PackOk) :
    Simulated e h (e.resume late) := by
  cases hc : e.call with
  | idle =>
    rw [resume_idle hc]
    exact simulated_stays h rfl hp
  | connecting => exact e.simulated_connecting h late hc
  | accepting => exact e.simulated_accepting h late hc
  | reading got len =>
    have hd : e.call.doing = .reading := by rw [hc]; rfl
    unfold resume
    rw [hc]
    dsimp only
    split
    · exact e.simulated_endRead h got (.inr hd)
    · exact e.simulated_goOnReading h got len (.inr hd)
  | writing w => exact e.simulated_writing h late hp w hc

/-- What a call of the application is in the handshake. -/
structure Called (e : Endpoint) (h : History) (a : Action) (r : Endpoint × List Output) : Prop where
  moves : Moves e.kind (e.party h) (r.1.party ((h.call a).noteAll r.2))
      ((sentOf r.2).map DatagramPack.msg) ∨
    ∃ r' port n, a = .connect r' port ∧ e.call = .idle ∧ e.socket.state = .closed ∧
      e.kind = .client ∧ r.1.party ((h.call a).noteAll r.2) = (e.party h).connects n ∧
      (sentOf r.2).map DatagramPack.msg = [.syn n]
  headed : ∀ q ∈ sentOf r.2, q.Headed
  packOk : r.1.PackOk
  kind : r.1.kind = e.kind

theorem Simulated.called {e : Endpoint} {h : History} {a : Action} {r : Endpoint × List Output}
    (hs : Simulated e h r) (ha : h.call a = h) : Called e h a r :=
  ⟨.inl (by rw [ha]; exact hs.moves), hs.headed, hs.packOk, hs.kind⟩

theorem called_connect (e : Endpoint) (h : History) (r port : UInt8) (hk : e.kind = .client)
    (hc : e.call = .idle) : Called e h (.connect r port) (e.connect r port) := by
  unfold connect
  split
  · refine Simulated.called (simulated_silent rfl ?_ (packOk_of_idle nofun) rfl) rfl
    have : ({ e with call := .idle } : Endpoint).party h = e.party h := by
      simp [party, hc]
    rw [returns, this]
    exact .stays
  · next hs =>
    have hs : e.socket.state = .closed := not_not.mp hs
    refine ⟨.inr ⟨r, port, e.socket.sequenceNumber, rfl, hc, hs, hk, ?_, ?_⟩, ?_,
      packOk_of_idle nofun, rfl⟩
    · simp [party, Party.connects, SocketStream.sendSyn, History.noteAll, History.note,
        History.call, Call.doing]
    · simp [sentOf, SocketStream.sendSyn]
    · simpa [sentOf, SocketStream.sendSyn] using message_headed _ _ _ _ _

theorem called_accept (e : Endpoint) (h : History) (hk : e.kind = .server) (hc : e.call = .idle) :
    Called e h .accept e.accept := by
  unfold accept
  split
  · next hs =>
    refine ⟨.inl ?_, ?_, packOk_of_idle nofun, rfl⟩
    · have hmoves : Moves .server (e.party h) { e.party h with
          state := .pending, doing := .accepting, called := some e.socket.sequenceNumber,
          wrote := false } [.ack, .syn e.socket.sequenceNumber] :=
        .accepts (by simp [party, hc, Call.doing]) hs
      rw [hk]
      simpa [party, SocketStream.sendSyn, SocketStream.sendAck, History.noteAll, History.note,
        History.call, Call.doing, sentOf] using hmoves
    · intro q hq
      simp only [sentOf, SocketStream.sendSyn, SocketStream.sendAck, List.mem_cons,
        List.not_mem_nil, or_false] at hq
      rcases hq with rfl | rfl
      · exact message_headed _ _ _ _ _
      · exact message_headed _ _ _ _ _
  · exact Simulated.called (simulated_stays h rfl (packOk_of_idle (by rw [hc]; decide))) rfl

theorem called_write (e : Endpoint) (h : History) (bytes : List UInt8) (hc : e.call = .idle) :
    Called e h (.write bytes) (e.write bytes) := by
  have hd : (e.party h).doing = .idle := by simp [party, hc, Call.doing]
  have hrefused : Moves e.kind (e.party h) (e.party (h.call (.write bytes))) [] := by
    have hmoves : Moves e.kind (e.party h) { e.party h with doing := .idle, wrote := true } [] :=
      .writes hd .idle (.inl rfl)
    rw [← hd] at hmoves
    exact hmoves
  unfold write
  split
  · exact ⟨.inl hrefused, by simp [sentOf], packOk_of_idle (by rw [hc]; decide), rfl⟩
  · next hs =>
    have hs : e.socket.state = .opened := not_not.mp hs
    split
    · exact ⟨.inl hrefused, by simp [sentOf], packOk_of_idle (by rw [hc]; decide), rfl⟩
    · refine ⟨.inl (.writes hd .writing (.inr ⟨rfl, hs⟩)), by simp [sentOf], ?_, rfl⟩
      intro w i pack hcall hpc
      cases hcall
      cases hpc

/-- **Calls.** -/
theorem called_step {F : OnFull UInt8} {e e' : Endpoint} {a : Action} {out : List Output}
    (h : History) (hne : ∀ as late, a ≠ .poll as late) (hstep : e.step F a = some (e', out)) :
    Called e h a (e', out) := by
  cases a with
  | poll as late => exact absurd rfl (hne as late)
  | burst =>
    obtain ⟨w, hc, -, rfl, rfl⟩ := step_burst.mp hstep
    refine Simulated.called (simulated_silent rfl ?_ ?_ rfl) rfl
    · have hstay : Moves e.kind (e.party h) (e.party h) [] := .stays
      simpa [party, hc, Call.doing] using hstay
    · intro w' j pack hcall hpc
      cases hcall
      exact burst_pack _ _ _ _ _ _ hpc
  | connect r port =>
    obtain ⟨hk, hc, rfl, rfl⟩ := step_connect.mp hstep
    exact called_connect e h r port hk hc
  | listen =>
    obtain ⟨hk, hc, rfl, rfl⟩ := step_listen.mp hstep
    have hp : e.PackOk := packOk_of_idle (by rw [hc]; decide)
    unfold listen
    split
    · next hs =>
      refine Simulated.called (simulated_silent rfl ?_ (packOk_of_idle (by
        dsimp only
        rw [hc]
        decide)) rfl) rfl
      rw [hk]
      exact .listens (by simp [party, hc, Call.doing]) hs
    · exact Simulated.called (simulated_stays h rfl hp) rfl
  | accept =>
    obtain ⟨hk, hc, rfl, rfl⟩ := step_accept.mp hstep
    exact called_accept e h hk hc
  | disconnect =>
    obtain ⟨hc, rfl, rfl⟩ := step_disconnect.mp hstep
    have hs := e.simulated_hangUp h [] rfl (e.socket.disconnect e.address).1.zeroReadCount
      (fun h => by rw [hc] at h; cases h) (by rw [hc]; decide)
    rw [List.append_nil] at hs
    refine Simulated.called ⟨?_, hs.headed, packOk_of_idle (by
      show e.call.doing ≠ _
      rw [hc]
      decide), rfl⟩ rfl
    have hm := hs.moves
    simp only [party, Call.doing] at hm ⊢
    simpa [disconnect, hc, Call.doing] using hm
  | write bytes =>
    obtain ⟨hc, rfl, rfl⟩ := step_write.mp hstep
    exact called_write e h bytes hc
  | read len =>
    obtain ⟨hc, rfl, rfl⟩ := step_read.mp hstep
    unfold read
    split
    · exact Simulated.called (simulated_stays h rfl (packOk_of_idle (by rw [hc]; decide))) rfl
    · next hs =>
      exact Simulated.called
        (e.simulated_goOnReading h [] len (.inl ⟨by rw [hc]; rfl, not_not.mp hs⟩)) rfl

end Endpoint

/-! ## The net -/

namespace Net

theorem shake_put_left (n : Net) (e : Endpoint) (out : List Output) :
    (n.put .left e out).shake =
      { n.shake with
        client := e.party ((n.hist .left).noteAll out)
        toServer := n.shake.toServer ++ (sentOf out).map DatagramPack.msg } := by
  simp [shake]

theorem shake_put_right (n : Net) (e : Endpoint) (out : List Output) :
    (n.put .right e out).shake =
      { n.shake with
        server := e.party ((n.hist .right).noteAll out)
        toClient := n.shake.toClient ++ (sentOf out).map DatagramPack.msg } := by
  simp [shake]

/-- The classes of the two ends, and the form of the packets. -/
structure Sound (n : Net) : Prop where
  client : (n.ends .left).kind = .client
  server : (n.ends .right).kind = .server
  headed : ∀ i, ∀ p ∈ n.wire i, p.Headed
  packOk : ∀ i, (n.ends i).PackOk

theorem Sound.put {n : Net} (hn : n.Sound) (i : Side) (e : Endpoint) (out : List Output)
    (hh : ∀ q ∈ sentOf out, q.Headed) (hp : e.PackOk) (hk : e.kind = (n.ends i).kind) :
    (n.put i e out).Sound := by
  have hkind : ∀ j, ((n.put i e out).ends j).kind = (n.ends j).kind := by
    intro j
    rcases i.eq_or_other j with rfl | rfl
    · rw [put_ends_self, hk]
    · rw [put_ends_ne _ _ _ _ i.other_ne]
  refine ⟨(hkind _).trans hn.client, (hkind _).trans hn.server, ?_, ?_⟩
  · intro j
    rcases i.eq_or_other j with rfl | rfl
    · rw [put_wire_self]
      exact hn.headed j
    · rw [put_wire_ne _ _ _ _ i.other_ne]
      intro q hq
      exact (List.mem_append.mp hq).elim (hn.headed _ q) (hh q)
  · intro j
    rcases i.eq_or_other j with rfl | rfl
    · rw [put_ends_self]
      exact hp
    · rw [put_ends_ne _ _ _ _ i.other_ne]
      exact hn.packOk _

/-- No SYN is on its way, and the server holds no attempt it has not answered or
that has not been confirmed. -/
def Quiet (n : Net) : Prop :=
  (∀ p ∈ n.wire .left, synNumber p = none) ∧ (∀ p ∈ n.wire .right, synNumber p = none) ∧
    (n.ends .right).socket.state ≠ .synRecved ∧ (n.ends .right).socket.state ≠ .pending

instance (n : Net) : Decidable n.Quiet := inferInstanceAs (Decidable (_ ∧ _ ∧ _ ∧ _))

/-- If the step is a `connect()` of the closed client, it is called quietly. -/
def ConnectsQuietly (n : Net) : NetAction → Prop
  | .act _ (.connect _ _) => (n.ends .left).socket.state = .closed → n.Quiet
  | _ => True

instance (n : Net) (a : NetAction) : Decidable (n.ConnectsQuietly a) := by
  unfold ConnectsQuietly
  split <;> infer_instance

theorem quiet_shake {n : Net} (h : n.Quiet) : n.shake.Quiet := by
  obtain ⟨h₁, h₂, h₃, h₄⟩ := h
  have hsyn : ∀ ps : List DatagramPack, (∀ p ∈ ps, synNumber p = none) →
      Handshake.NoSyn (ps.map DatagramPack.msg) := by
    intro ps hps m hm
    obtain ⟨p, hp, hpm⟩ := List.mem_map.mp hm
    exact (synNumber_eq_none p).mp (hps p hp) m hpm
  exact ⟨hsyn _ h₂, hsyn _ h₁, h₃, h₄⟩

/-- Sound, and at some stage of an attempt. -/
def Orderly (n : Net) : Prop := n.Sound ∧ n.shake.Settled

theorem Orderly.resume {n : Net} (hn : n.Orderly) (i : Side) (late : Bool) :
    (n.resume i late).Orderly := by
  obtain ⟨hsound, hset⟩ := hn
  have hsim := (n.ends i).simulated_resume (n.hist i) late (hsound.packOk i)
  refine ⟨hsound.put i _ _ hsim.headed hsim.packOk hsim.kind, ?_⟩
  cases i with
  | left =>
    have hm := hsim.moves
    rw [hsound.client] at hm
    show (n.put .left _ _).shake.Settled
    rw [shake_put_left]
    exact hset.step (.clientMoves hm)
  | right =>
    have hm := hsim.moves
    rw [hsound.server] at hm
    show (n.put .right _ _).shake.Settled
    rw [shake_put_right]
    exact hset.step (.serverMoves hm)

theorem Orderly.deliver {F : OnFull UInt8} {n : Net} (hn : n.Orderly) (i : Side)
    (behind : Nat → UInt8) (p : DatagramPack) (ps : List DatagramPack) (hw : n.wire i = p :: ps) :
    ((n.withWire i ps).put i ((n.ends i).takeAll F [⟨p, behind⟩]).1
      ((n.ends i).takeAll F [⟨p, behind⟩]).2).Orderly := by
  obtain ⟨hsound, hset⟩ := hn
  have hhead : ∀ q ∈ n.wire i, q.Headed := hsound.headed i
  rw [hw] at hhead
  obtain ⟨hh, hheaded⟩ := hears_of_take F (n.ends i) (n.hist i) p behind (hhead p List.mem_cons_self)
  have hrest : (n.withWire i ps).Sound := by
    refine ⟨hsound.client, hsound.server, fun j => ?_, hsound.packOk⟩
    rcases i.eq_or_other j with rfl | rfl
    · rw [withWire_wire_self]
      exact fun q hq => hhead q (List.mem_cons_of_mem p hq)
    · rw [withWire_wire_ne _ _ _ i.other_ne]
      exact hsound.headed _
  refine ⟨hrest.put i _ _ hheaded (hsound.packOk i) rfl, ?_⟩
  cases i with
  | left =>
    rw [hsound.client] at hh
    rw [shake_put_left]
    have hx : n.shake.toClient = p.msg :: ps.map DatagramPack.msg := by simp [shake, hw]
    have hstep := hset.step (.clientHears hx hh)
    simpa [shake] using hstep
  | right =>
    rw [hsound.server] at hh
    rw [shake_put_right]
    have hx : n.shake.toServer = p.msg :: ps.map DatagramPack.msg := by simp [shake, hw]
    have hstep := hset.step (.serverHears hx hh)
    simpa [shake] using hstep

theorem Orderly.act {F : OnFull UInt8} {n : Net} (hn : n.Orderly) (i : Side) (a : Action)
    (e : Endpoint) (out : List Output) (hq : n.ConnectsQuietly (.act i a))
    (hne : ∀ as late, a ≠ .poll as late) (hstep : (n.ends i).step F a = some (e, out)) :
    ((n.called i a).put i e out).Orderly := by
  obtain ⟨hsound, hset⟩ := hn
  have hcall := Endpoint.called_step (n.hist i) hne hstep
  have hsound' : (n.called i a).Sound := ⟨hsound.client, hsound.server, hsound.headed, hsound.packOk⟩
  refine ⟨hsound'.put i e out hcall.headed hcall.packOk hcall.kind, ?_⟩
  cases i with
  | left =>
    rw [shake_put_left, called_hist_self]
    rcases hcall.moves with hm | ⟨r, port, m, rfl, hc, hs, -, hparty, hsent⟩
    · rw [hsound.client] at hm
      have hx := hset.step (.clientMoves hm)
      simpa [shake] using hx
    · have hd : n.shake.client.doing = .idle := by simp [shake, Endpoint.party, hc, Call.doing]
      have hx := hset.step (.connects (n := m) hd hs (quiet_shake (hq hs)))
      rw [hparty, hsent]
      simpa [shake] using hx
  | right =>
    rw [shake_put_right, called_hist_self]
    rcases hcall.moves with hm | ⟨r, port, m, rfl, -, -, hk, -⟩
    · rw [hsound.server] at hm
      have hx := hset.step (.serverMoves hm)
      simpa [shake] using hx
    · rw [hsound.server] at hk
      cases hk

theorem Orderly.step {F : OnFull UInt8} : ∀ n a n', Orderly n → n.ConnectsQuietly a →
    n.step F a = some n' → n'.Orderly :=
  step_invariant (fun _ i a e out hn hq hne hstep => hn.act i a e out hq hne hstep)
    (fun _ i behind p ps hn hw => hn.deliver i behind p ps hw) (fun _ i late hn => hn.resume i late)

/-- Two closed sockets on which nothing has been called, and nothing on the link. -/
structure Fresh (n : Net) : Prop where
  client : (n.ends .left).kind = .client
  server : (n.ends .right).kind = .server
  closed : ∀ i, (n.ends i).socket.state = .closed
  idle : ∀ i, (n.ends i).call = .idle
  wire : ∀ i, n.wire i = []

theorem Fresh.orderly {n : Net} (h : n.Fresh) : n.Orderly := by
  have hidle : ∀ i, ((n.ends i).party (n.hist i)).doing = .idle := fun i => by
    simp [Endpoint.party, h.idle i, Call.doing]
  have hclosed : ∀ i, ((n.ends i).party (n.hist i)).state = .closed := h.closed
  refine ⟨⟨h.client, h.server, fun i => by simp [h.wire i], fun i => packOk_of_idle (by
    rw [h.idle i]
    decide)⟩, ⟨?_, ?_, ?_⟩⟩
  · constructor <;> simp [shake, hidle, hclosed]
  · constructor <;> simp [shake, hidle, hclosed]
  · refine .quiet ?_ ?_ (.inl (hclosed .right)) (fun _ => ?_) (fun hc => ?_)
    · simp [shake, h.wire]
    · simp [shake, h.wire]
    · simp [shake, hclosed]
    · simp [shake, hclosed] at hc

end Net

/-- **Handshake agreement.**  From two fresh sockets, in every run in which the
client calls `connect()` quietly: when both are open and neither has written, each
expects the sequence number that follows the other's SYN. -/
theorem handshake_agrees (F : OnFull UInt8) (n₀ : Net) (h₀ : n₀.Fresh) (as : List NetAction)
    (hq : Runs.Meets (Net.step F) Net.ConnectsQuietly n₀ as) (n : Net)
    (hrun : Runs.run (Net.step F) n₀ as = some n)
    (hc : (n.ends .left).socket.state = .opened) (hs : (n.ends .right).socket.state = .opened)
    (hcw : (n.hist .left).wrote = false) (hsw : (n.hist .right).wrote = false) :
    (n.hist .left).syn = some (n.ends .right).socket.remoteSequence ∧
      (n.hist .right).syn = some (n.ends .left).socket.remoteSequence := by
  have hn : n.Orderly := Runs.run_invariant Net.Orderly.step h₀.orderly hq hrun
  exact hn.2.agree hc hs hcw hsw

/-! ## An abandoned attempt -/

/-- A fresh client at address 2 and a fresh server at address 1, port 80. -/
def freshNet : Net where
  ends
    | .left =>
      { kind := .client, address := 2
        socket := { port := 40, ringbuf := .empty 64, remoteSequence := 0, remotePort := 0 } }
    | .right =>
      { kind := .server, address := 1
        socket := { port := 80, ringbuf := .empty 64, remoteSequence := 0, remotePort := 0 } }

theorem freshNet_fresh : freshNet.Fresh :=
  ⟨rfl, rfl, fun i => by cases i <;> rfl, fun i => by cases i <;> rfl, fun _ => rfl⟩

/-- One packet arrives at `i`. -/
def arrives (i : Side) : NetAction := .poll i [fun _ => 0] false

/-- The server listens, the client connects, the server accepts. -/
def oneAttempt : List NetAction :=
  [.act .right .listen, .act .left (.connect 1 80), arrives .right, .act .right .accept,
    arrives .left, arrives .left, arrives .right]

/-- The client gives up and tries again before the server accepts. -/
def twoAttempts : List NetAction :=
  [.act .right .listen, .act .left (.connect 1 80), arrives .right, .poll .left [] true,
    .act .left (.connect 1 80), arrives .right, .act .right .accept, arrives .left, arrives .left,
    arrives .right]

theorem oneAttempt_agrees : ∃ n,
    Runs.run (Net.step (OnFull.refuse UInt8)) freshNet oneAttempt = some n ∧
      (n.hist .left).syn = some (n.ends .right).socket.remoteSequence ∧
      (n.hist .right).syn = some (n.ends .left).socket.remoteSequence :=
  ⟨_, rfl, handshake_agrees (OnFull.refuse UInt8) freshNet freshNet_fresh oneAttempt
    (by decide +kernel) _ rfl (by decide +kernel) (by decide +kernel) (by decide +kernel)
    (by decide +kernel)⟩

/-- The server has taken the first SYN, the client is open by its second. -/
theorem twoAttempts_disagree : ∃ n,
    Runs.run (Net.step (OnFull.refuse UInt8)) freshNet twoAttempts = some n ∧
      (n.ends .left).socket.state = .opened ∧ (n.ends .right).socket.state = .opened ∧
      (n.hist .left).wrote = false ∧ (n.hist .right).wrote = false ∧
      (n.hist .left).syn ≠ some (n.ends .right).socket.remoteSequence :=
  ⟨_, rfl, by decide +kernel, by decide +kernel, by decide +kernel, by decide +kernel,
    by decide +kernel⟩

end PicoLan
