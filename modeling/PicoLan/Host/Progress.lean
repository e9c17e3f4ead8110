import PicoLan.Host.Connection
import PicoLan.Host.Lifecycle

/-!
# Connecting gets on

A new client calls a new server, with which nothing but one `listen` has been done, and from then
on nothing is done with the two streams but `accept` when the server has been called.  As long as
no call of theirs is late and no address is set, the connection cannot get stuck: whenever nothing
is on the cable, either the server has been called and its application is due, or both calls have
returned and the streams are open to each other (`Cable.call_goes_through`).
-/

namespace PicoLan

open Runs

/-- A datagram does not make a server listen. -/
theorem Turns.listening {k : Kind} {state : ConnectionState} (h : Turns k state .listening) :
    state = .listening := by
  cases h
  rfl

namespace Net

variable {F : OnFull UInt8} {n₀ n n' : Net} {l r : Endpoint} {wl wr : List DatagramPack}
  {rl rr : List Int}

/-! ## In time -/

theorem Stages.resume_left_inTime (h : n₀.Stages l r wl wr rl rr) (h₀ : n₀.New) :
    ∀ x ∈ retsOf (l.resume false).2, x = Error.none := by
  have hidle : l.call = .idle → ∀ x ∈ retsOf (l.resume false).2, x = Error.none := by
    intro hc x hx
    rw [Endpoint.resume_idle hc] at hx
    cases hx
  cases h with
  | start => exact hidle (h₀.idle .left)
  | dialled => exact fun x hx => by cases hx
  | rung => exact fun x hx => by cases hx
  | answering => exact fun x hx => by cases hx
  | answered => exact fun x hx => List.mem_singleton.mp hx
  | opened => exact hidle rfl
  | confirmed => exact hidle rfl
  | joined => exact hidle rfl

/-- The server's call returns nothing else either, and leaves the state alone. -/
theorem Stages.resume_right_inTime (h : n₀.Stages l r wl wr rl rr) (h₀ : n₀.New) :
    (∀ x ∈ retsOf (r.resume false).2, x = Error.none) ∧
      (r.resume false).1.socket.state = r.socket.state := by
  have hidle : r.call = .idle → (∀ x ∈ retsOf (r.resume false).2, x = Error.none) ∧
      (r.resume false).1.socket.state = r.socket.state := by
    intro hc
    rw [Endpoint.resume_idle hc]
    exact ⟨(fun x hx => by cases hx), rfl⟩
  have hwaits : ∀ {rs : List Int}, n₀.Waits r rs → r.call = .idle := by
    intro rs hw
    cases hw <;> exact h₀.idle .right
  cases h with
  | start h => exact hidle (hwaits h)
  | dialled h => exact hidle (hwaits h)
  | rung => exact hidle (h₀.idle .right)
  | answering => exact ⟨(fun x hx => by cases hx), rfl⟩
  | answered => exact ⟨(fun x hx => by cases hx), rfl⟩
  | opened => exact ⟨(fun x hx => by cases hx), rfl⟩
  | confirmed => exact ⟨fun x hx => List.mem_singleton.mp hx, rfl⟩
  | joined => exact hidle rfl

/-- The SYN reaches a server that is listening. -/
theorem Stages.rings {p : DatagramPack} {ps : List DatagramPack}
    (h : n₀.Stages l r wl (p :: ps) rl rr)
    (h₀ : n₀.New) (hs : r.socket.state = .listening) {q : DatagramPack} (hq : q ∈ p :: ps)
    (hfor : ∀ behind, (Arrival.mk q behind).IsFor (n₀.ends .right).address
      (n₀.ends .right).socket.port)
    (behind : Nat → UInt8) : (r.takeAll F [⟨p, behind⟩]).1.socket.state = .synRecved := by
  have hkind : (n₀.ends .right).kind = .server := h₀.server
  cases h with
  | dialled h r port _ hps =>
    obtain ⟨rfl, rfl⟩ := List.cons.inj (hps.resolve_left (by simp))
    obtain rfl := List.mem_singleton.mp hq
    cases h with
    | closed => cases hs
    | listening remote =>
      have hhandle := SocketStream.handle_listening F (n₀.waiting .listening remote).socket
        (n₀.ends .right).address _ (hfor behind) rfl rfl
      rw [Endpoint.takeAll_silent (n₀.waiting .listening remote) hkind hhandle]
  | opened => cases hs

/-! ## What is kept -/

/-- The client has called, and the server is listening or has heard. -/
structure Calling (n₀ n : Net) : Prop where
  stage : n₀.Stage n
  listened : (n.hist .right).returned ≠ []
  called : (n.ends .right).socket.state = .listening → ∃ p ∈ n.wire .right, ∀ behind,
    (Arrival.mk p behind).IsFor (n₀.ends .right).address (n₀.ends .right).socket.port

theorem Calling.deliver (h : n₀.Calling n) (h₀ : n₀.New) {i : Side} {behind : Nat → UInt8}
    (hdel : deliver F i n behind = some n') : n₀.Calling n' := by
  obtain ⟨p, ps, hw, rfl⟩ := deliver_cases hdel
  have hstage : n₀.Stages _ _ _ _ _ _ := h.stage
  cases i with
  | left =>
    rw [hw] at hstage
    obtain ⟨l', htake, hstage'⟩ := hstage.deliver_left (F := F) h₀ behind
    rw [htake]
    refine ⟨stage_put_left.mpr (by simpa [sentOf, retsOf] using hstage'), ?_, ?_⟩
    · simpa [History.noteAll] using h.listened
    · simpa [sentOf] using h.called
  | right =>
    rw [hw] at hstage
    obtain ⟨r', htake, hstage'⟩ := hstage.deliver_right (F := F) h₀ behind
    refine ⟨?_, ?_, fun hs => ?_⟩
    · rw [htake]
      exact stage_put_right.mpr (by simpa [sentOf, retsOf] using hstage')
    · rw [htake]
      simpa [History.noteAll] using h.listened
    · exfalso
      rw [put_ends_self] at hs
      by_cases hbefore : (n.ends .right).socket.state = .listening
      · obtain ⟨q, hq, hfor⟩ := h.called hbefore
        rw [hw] at hq
        cases hs.symm.trans (hstage.rings h₀ hbefore hq hfor behind)
      · rw [Endpoint.takeAll_one] at hs
        have hturns := SocketStream.handle_turns F (n.ends .right).kind (n.ends .right).socket
          (n.ends .right).address ⟨p, behind⟩
        rw [show ((n.ends .right).socket.handle F (n.ends .right).kind (n.ends .right).address
          ⟨p, behind⟩).1.state = .listening from hs] at hturns
        exact hbefore hturns.listening

theorem Calling.resume (h : n₀.Calling n) (h₀ : n₀.New) {i : Side} {late : Bool}
    (hlate : late = true → (n.ends i).call = .idle) : n₀.Calling (n.resume i late) := by
  have hstage : n₀.Stages _ _ _ _ _ _ := h.stage
  cases late with
  | true =>
    rw [resume_eq, Endpoint.resume_idle (hlate rfl), put_self]
    exact h
  | false =>
    rw [resume_eq]
    cases i with
    | left =>
      have hnone := hstage.resume_left_inTime h₀
      refine ⟨stage_put_left.mpr ((hstage.resume_left h₀ false).resolve_left ?_), ?_, ?_⟩
      · rintro ⟨x, hx, hne⟩
        exact hne (hnone x hx)
      · simpa using h.listened
      · intro hs
        obtain ⟨p, hp, hfor⟩ := h.called (by simpa using hs)
        exact ⟨p, by simp [hp], hfor⟩
    | right =>
      obtain ⟨hnone, hstate⟩ := hstage.resume_right_inTime h₀
      refine ⟨stage_put_right.mpr ((hstage.resume_right h₀ false).resolve_left ?_), ?_, ?_⟩
      · rintro ⟨x, hx, hne⟩
        exact hne (hnone x hx)
      · rw [put_hist_self, (History.noteAll_returned _ _).1]
        exact List.append_ne_nil_of_left_ne_nil h.listened _
      · intro hs
        rw [put_ends_self, hstate] at hs
        obtain ⟨p, hp, hfor⟩ := h.called hs
        exact ⟨p, by simpa using hp, hfor⟩

theorem Calling.accept (h : n₀.Calling n) (h₀ : n₀.New) {i : Side} {e : Endpoint}
    {out : List Output} (hs : (n.ends i).socket.state = .synRecved)
    (hstep : (n.ends i).step F .accept = some (e, out)) :
    n₀.Calling ((n.called i .accept).put i e out) := by
  obtain ⟨hl, -⟩ := Stages.kinds h.stage h₀
  obtain ⟨hk, -, rfl, rfl⟩ := Endpoint.step_accept.mp hstep
  cases i with
  | left => cases hl.symm.trans hk
  | right =>
    have hstage : n₀.Stages _ _ _ _ _ _ := h.stage
    have haccept : (n.ends .right).accept.2 =
        [.sent ((n.ends .right).socket.sendAck (n.ends .right).address),
          .sent ((n.ends .right).socket.sendSyn (n.ends .right).address).2] ∧
        (n.ends .right).accept.1.socket.state = .pending := by
      unfold Endpoint.accept
      rw [if_pos hs]
      exact ⟨rfl, rfl⟩
    refine ⟨stage_put_right.mpr ?_, ?_, fun hs' => ?_⟩
    · rw [called_returned, called_returned]
      refine (Stages.accept hstage).resolve_left ?_
      rintro ⟨x, hx, -⟩
      rw [haccept.1] at hx
      cases hx
    · rw [put_hist_self, (History.noteAll_returned _ _).1, called_returned]
      exact List.append_ne_nil_of_left_ne_nil h.listened _
    · rw [put_ends_self, haccept.2] at hs'
      cases hs'

/-- Nothing but `accept` when the server has been called, and no call is late. -/
def InTime (n : Net) : NetAction → Prop
  | .act i a => a = .accept ∧ (n.ends i).socket.state = .synRecved
  | .poll i _ late => late = true → (n.ends i).call = .idle

theorem Calling.step (h : n₀.Calling n) (h₀ : n₀.New) {a : NetAction} (hok : n.InTime a)
    (hstep : n.step F a = some n') : n₀.Calling n' := by
  cases a with
  | act i a =>
    obtain ⟨rfl, hs⟩ := hok
    obtain ⟨-, e, out, hact, rfl⟩ := step_act hstep
    exact h.accept h₀ hs hact
  | poll i behind late =>
    obtain ⟨-, m, hm, rfl⟩ := step_poll hstep
    have hcall : (m.ends i).call = (n.ends i).call := by
      obtain ⟨as, -, -, hput⟩ := run_deliver hm
      rw [hput, put_ends_self]
      rfl
    have hmid : n₀.Calling m :=
      run_always (I := n₀.Calling) (fun _ _ _ hI hdel => hI.deliver h₀ hdel) h hm
    exact hmid.resume h₀ fun hlate => hcall.trans (hok hlate)

/-- Every end makes a step of its own, or none. -/
theorem step_lives {a : NetAction} (h : ∀ i, (n.ends i).Lives) (hstep : n.step F a = some n') :
    ∀ i, (n'.ends i).Lives := by
  have hsides : ∀ {j : Side}, (n'.ends j).Lives → n'.ends j.other = n.ends j.other →
      ∀ i, (n'.ends i).Lives := by
    intro j hj hsame i
    obtain rfl | rfl := j.eq_or_other i
    · exact hj
    · rw [hsame]
      exact h _
  cases a with
  | act i a =>
    obtain ⟨-, e, out, hact, rfl⟩ := step_act hstep
    refine hsides (j := i) ?_ ?_
    · rw [put_ends_self]
      exact (h i).step hact
    · rw [put_ends_ne _ _ _ _ i.other_ne, called_ends]
  | poll i behind late =>
    obtain ⟨as, out, -, hpoll, -⟩ := step_poll_endpoint hstep
    obtain ⟨-, m, hm, rfl⟩ := step_poll hstep
    obtain ⟨bs, -, -, hput⟩ := run_deliver hm
    refine hsides (j := i) ((h i).step hpoll) ?_
    rw [resume_eq, put_ends_ne _ _ _ _ i.other_ne, hput, put_ends_ne _ _ _ _ i.other_ne,
      withWire_ends]

/-- **Nothing on the way.** -/
theorem Calling.quiet (h : n₀.Calling n) (h₀ : n₀.New) (hlives : ∀ i, (n.ends i).Lives)
    (hw : ∀ i, n.wire i = []) :
    ((n.ends .left).call = .connecting ∧ (n.ends .right).call = .idle ∧
        (n.ends .right).socket.state = .synRecved) ∨
      ((n.hist .left).returned = [Error.none] ∧
        (n.hist .right).returned = [Error.none, Error.none] ∧
        n.Joined n₀.firstNumber (n₀.ends .left).socket.lastRecvedAck) := by
  have hstage : n₀.Stages _ _ _ _ _ _ := h.stage
  have hcalled := h.called
  have hlistened := h.listened
  have hl := hlives .left
  have hr := hlives .right
  rw [hw, hw] at hstage
  rw [hw] at hcalled
  have hlistening : (n.ends .right).socket.state ≠ .listening := fun hs => by
    obtain ⟨p, hp, -⟩ := hcalled hs
    cases hp
  generalize hle : n.ends .left = left at hstage hl ⊢
  generalize hre : n.ends .right = right at hstage hr hlistening ⊢
  generalize (n.hist .left).returned = rl at hstage ⊢
  generalize (n.hist .right).returned = rr at hstage hlistened ⊢
  have hwaits : ¬ n₀.Waits right rr := by
    intro hwaits
    cases hwaits with
    | closed => exact hlistened rfl
    | listening => exact hlistening rfl
  cases hstage with
  | start h => exact absurd h hwaits
  | dialled h => exact absurd h hwaits
  | rung => exact .inl ⟨rfl, h₀.idle .right, rfl⟩
  | answering _ _ hps => exact absurd hps (by simp)
  | answered => cases hl.2
  | confirmed => cases hr.2
  | joined => exact .inr ⟨rfl, rfl, h₀.joined hle hre hw⟩

end Net

namespace Cable

/-- The addresses stay, both streams stay bound and only they send to their ports.  Nothing is
called on either, the client's included, but `accept` on the one that has been called, and no
call of theirs is late. -/
def Dials (F : OnFull UInt8) (l : Side → Nat) (C : Cable) (x : Side × HostAction) : Prop :=
  Private F l C x ∧
  match x.2 with
  | .socket m a => m = l x.1 → a = .accept ∧
    ((C.host x.1).endpoint m).map (fun e => e.socket.state) = some .synRecved
  | .poll _ late => late = true → ∀ r ∈ (C.host x.1).running, r.1 ≠ l x.1
  | _ => True

instance : ∀ a : Action, Decidable (a = .accept)
  | .accept => isTrue rfl
  | .listen => isFalse nofun
  | .connect _ _ => isFalse nofun
  | .disconnect => isFalse nofun
  | .write _ => isFalse nofun
  | .read _ => isFalse nofun
  | .poll _ _ => isFalse nofun
  | .burst => isFalse nofun

instance (F : OnFull UInt8) (l : Side → Nat) (C : Cable) :
    ∀ x : Side × HostAction, Decidable (Dials F l C x)
  | (_, .socket _ _) => inferInstanceAs (Decidable (_ ∧ (_ = _ → _ ∧ _ = _)))
  | (_, .poll _ _) => inferInstanceAs (Decidable (_ ∧ (_ = _ → ∀ r ∈ Host.running _, r.1 ≠ _)))
  | (_, .device _) => inferInstanceAs (Decidable (_ ∧ True))
  | (_, .destroy _) => inferInstanceAs (Decidable (_ ∧ True))
  | (_, .write _ _ _ _) => inferInstanceAs (Decidable (_ ∧ True))
  | (_, .subscribe _ _) => inferInstanceAs (Decidable (_ ∧ True))
  | (_, .receive _ _) => inferInstanceAs (Decidable (_ ∧ True))

variable {F : OnFull UInt8} {l : Side → Nat} {C C' : Cable} {n n' : Net} {i : Side}
  {c : HostAction}

/-- What is done in time on the cable is done in time on the net. -/
theorem Shown.inTime {out : List Output} (hR : Abs l C n) (hok : Dials F l C (i, c))
    (h : Shown F l n i c n' out) :
    n' = n ∨ ∃ a, n.step F a = some n' ∧ n.InTime a := by
  obtain ⟨-, hok⟩ := hok
  cases h with
  | @call a _ _ _ hc _ _ hact =>
    subst hc
    obtain ⟨rfl, hs⟩ := hok rfl
    rw [hR.endpoint i] at hs
    exact .inr ⟨_, hact, rfl, Option.some.inj hs⟩
  | poll _ hlate _ _ _ hpoll =>
    refine .inr ⟨_, hpoll, fun hl => ?_⟩
    obtain ⟨bytes, rfl⟩ := hlate hl
    obtain ⟨-, -, hcall⟩ := Host.endpoint_some.mp (hR.endpoint i)
    rw [hcall]
    cases hrun : (C.host i).running with
    | none => exact Host.callOf_of_none hrun _
    | some r => exact Host.callOf_of_ne hrun (Ne.symm (hok rfl r hrun))
  | same => exact .inl rfl

/-- The two streams, while the client is calling. -/
def Rings (n₀ : Net) (l : Side → Nat) (C : Cable) : Prop :=
  ∃ n, Abs l C n ∧ n₀.Calling n ∧ ∀ i, (n.ends i).Lives

theorem Rings.step {n₀ : Net} (h₀ : n₀.New) (h : Rings n₀ l C) (hok : Dials F l C (i, c))
    (hstep : C.step F (i, c) = some C') : Rings n₀ l C' := by
  obtain ⟨n, hR, hcalling, hlives⟩ := h
  obtain ⟨n', out, hshown, hR', -⟩ := hR.step hok.1 hstep
  obtain rfl | ⟨a, hact, htime⟩ := hshown.inTime hR hok
  · exact ⟨n', hR', hcalling, hlives⟩
  · exact ⟨n', hR', hcalling.step h₀ htime hact, Net.step_lives hlives hact⟩

/-- A stream's own calls. -/
theorem private_call (F : OnFull UInt8) (l : Side → Nat) (C : Cable) (i : Side) (a : Action) :
    Private F l C (i, .socket (l i) a) := by
  refine ⟨trivial, fun o ho => ?_⟩
  cases hstep : (C.host i).step F (.socket (l i) a) with
  | none =>
    unfold Host.outs at ho
    rw [hstep] at ho
    cases ho
  | some r =>
    obtain ⟨H, out⟩ := r
    rw [Host.outs_of_step hstep] at ho
    generalize hr : (H, out) = r at hstep
    cases Host.step_did F hstep with
    | socket =>
      obtain ⟨-, rfl⟩ := Prod.ext_iff.mp hr
      obtain ⟨o', -, rfl⟩ := List.mem_map.mp ho
      cases o' with
      | sent p => exact fun hne => absurd rfl hne
      | ret r => trivial
      | got bytes => trivial

/-- The client calls a server that is listening. -/
theorem rings_of_connect {e : Side → Endpoint} (h : Abs l C n) (h₀ : Net.New { ends := e })
    (hstage : Net.Stage { ends := e } n) (hlives : ∀ i, (n.ends i).Lives)
    (hclosed : (n.ends .left).socket.state = .closed) (hlistened : (n.hist .right).returned ≠ [])
    {r : UInt8} (hto : r = (e .right).address ∨ r = broadcastAddr ∨ r = multicastAddr)
    (hstep : C.step F (.left, .socket (l .left) (.connect r (e .right).socket.port)) = some C') :
    Rings { ends := e } l C' := by
  obtain ⟨n', out, hshown, hR', -⟩ := h.step (private_call ..) hstep
  cases hshown with
  | poll hc => exact absurd rfl (hc _)
  | same hc => exact absurd rfl (hc _)
  | @call a _ _ _ hc _ _ hact =>
    cases hc
    have hlives' := Net.step_lives hlives hact
    obtain ⟨-, e', out, hcall, rfl⟩ := Net.step_act hact
    obtain ⟨-, -, rfl, rfl⟩ := Endpoint.step_connect.mp hcall
    obtain ⟨p, hp, hfor⟩ : ∃ p,
        ((n.ends .left).connect r (e .right).socket.port).2 = [.sent p] ∧
        p.destAddr = r ∧ p.port = (e .right).socket.port := by
      unfold Endpoint.connect
      rw [if_neg (not_not_intro hclosed)]
      exact ⟨_, rfl, rfl, rfl⟩
    refine ⟨_, hR', ⟨?_, ?_, fun _ => ⟨p, ?_, fun behind => ?_⟩⟩, hlives'⟩
    · refine Net.stage_put_left.mpr ?_
      rw [Net.called_returned, Net.called_returned]
      refine (Net.Stages.connect hstage h₀ r _).resolve_left ?_
      rintro ⟨x, hx, -⟩
      rw [hp] at hx
      cases hx
    · rw [Net.put_hist_ne _ _ _ _ (by decide), Net.called_returned]
      exact hlistened
    · rw [hp]
      simp [sentOf]
    · exact ⟨by rw [← hfor.1] at hto; exact hto, hfor.2.symm⟩

/-- **Connecting gets on.**  When a new client calls a new server, and the only call on the two so
far is one `listen` that has returned `NONE`, whatever else the two devices do (`Dials`: they call
neither `set_address` nor anything on the two streams but `accept`): whenever nothing is on the
cable, the server has been called and its application is due, or both calls have returned `NONE`
and the streams are open to each other. -/
theorem call_goes_through (F : OnFull UInt8) (l : Side → Nat) (e : Side → Endpoint) (C₀ : Cable)
    (h₀ : C₀.New l e) (cs₁ : List (Side × HostAction))
    (hok₁ : Meets (Cable.step F)
      (fun C x => Private F l C x ∧ Calls l (fun _ => Action.Connects) x) C₀ cs₁) (C₁ : Cable)
    (hrun₁ : run (Cable.step F) C₀ cs₁ = some C₁)
    (hl : retsOf (outputsOf (l .left) (C₁.log .left)) = [])
    (hr : retsOf (outputsOf (l .right) (C₁.log .right)) = [Error.none])
    (hclosed : ((C₁.host .left).endpoint (l .left)).map (fun e => e.socket.state) = some .closed)
    (r : UInt8) (hto : r = (e .right).address ∨ r = broadcastAddr ∨ r = multicastAddr) (C₂ : Cable)
    (hconnect : C₁.step F (.left, .socket (l .left) (.connect r (e .right).socket.port)) = some C₂)
    (cs₂ : List (Side × HostAction)) (hok₂ : Meets (Cable.step F) (Dials F l) C₂ cs₂) (C : Cable)
    (hrun₂ : run (Cable.step F) C₂ cs₂ = some C) (hquiet : ∀ i, C.wire i = []) :
    ∃ e' : Side → Endpoint, (∀ i, (C.host i).endpoint (l i) = some (e' i)) ∧
      ((e' .left).call = .connecting ∧ (e' .right).call = .idle ∧
          (e' .right).socket.state = .synRecved ∨
        retsOf (outputsOf (l .left) (C.log .left)) = [Error.none] ∧
          retsOf (outputsOf (l .right) (C.log .right)) = [Error.none, Error.none] ∧
          ∀ i, (e' i).call = .idle ∧ (e' i).socket.state = .opened ∧
            (e' i).socket.remote = (e' i.other).address ∧
            (e' i).socket.remotePort = (e' i.other).socket.port) := by
  obtain ⟨n₁, as, hnet, hR₁, hstage⟩ := stage_of_connects h₀ hok₁ hrun₁ (by simp [hl]) (by simp [hr])
  have hlives : ∀ i, (n₁.ends i).Lives := run_always (I := fun n : Net => ∀ i, (n.ends i).Lives)
    (fun _ _ _ hI h => Net.step_lives hI h)
    (fun i => Endpoint.lives_of_idle (h₀.idle i) (.inl (h₀.closed i))) hnet
  rw [hR₁.endpoint .left] at hclosed
  have hlistened : (n₁.hist .right).returned ≠ [] := by
    rw [hR₁.returned, hr]
    exact List.cons_ne_nil _ _
  have hrings : Rings { ends := e } l C :=
    run_invariant (fun _ x _ hI hok hstep => Rings.step h₀.net hI hok hstep)
      (rings_of_connect hR₁ h₀.net hstage hlives (Option.some.inj hclosed) hlistened hto hconnect)
      hok₂ hrun₂
  obtain ⟨n, hR, hcalling, hlives⟩ := hrings
  refine ⟨n.ends, hR.endpoint, ?_⟩
  rw [← hR.returned, ← hR.returned]
  refine (hcalling.quiet h₀.net hlives fun i => hR.wire_nil (hquiet i)).imp_right ?_
  rintro ⟨hl, hr, hj⟩
  exact ⟨hl, hr, fun i => ⟨hj.idle i, hj.opened i, hj.remote i, hj.remotePort i⟩⟩

end Cable

theorem oneCall_goes_through : ∃ C,
    run (Cable.step (OnFull.refuse UInt8)) twoDevices oneCall = some C ∧
    ∃ e : Side → Endpoint, (∀ i, (C.host i).endpoint 0 = some (e i)) ∧
      ((e .right).socket.state = .synRecved ∨ ∀ i, (e i).socket.state = .opened) := by
  let F := OnFull.refuse UInt8
  let l : Side → Nat := fun _ => 0
  have hbefore : (run (Cable.step F) twoDevices (oneCall.take 3)).map (fun C =>
      (retsOf (outputsOf 0 (C.log .left)), retsOf (outputsOf 0 (C.log .right)),
        ((C.host .left).endpoint 0).map fun e => e.socket.state)) =
      some ([], [Error.none], some .closed) := by decide +kernel
  have hafter : (run (Cable.step F) twoDevices (oneCall.take 4)).map (fun C =>
      decide (Meets (Cable.step F) (Cable.Dials F l) C (oneCall.drop 4) ∧
        ((run (Cable.step F) C (oneCall.drop 4)).map fun C =>
          (C.wire .left, C.wire .right)) = some ([], []))) = some true := by decide +kernel
  obtain ⟨C₁, hrun₁, hret⟩ := Option.map_eq_some_iff.mp hbefore
  obtain ⟨C₂, hrun₂, hdials⟩ := Option.map_eq_some_iff.mp hafter
  obtain ⟨hdials, hquiet⟩ := of_decide_eq_true hdials
  obtain ⟨C, hrun₃, hwire⟩ := Option.map_eq_some_iff.mp hquiet
  have hconnect : C₁.step F (.left, .socket 0 (.connect 1 80)) = some C₂ := by
    have h := hrun₂
    rw [show oneCall.take 4 = oneCall.take 3 ++ [(.left, .socket 0 (.connect 1 80))] from rfl,
      run_append, hrun₁] at h
    obtain ⟨C', hstep, hnil⟩ := run_cons.mp h
    cases hnil
    exact hstep
  obtain ⟨hl, hrest⟩ := Prod.ext_iff.mp hret
  obtain ⟨hr, hclosed⟩ := Prod.ext_iff.mp hrest
  obtain ⟨hwl, hwr⟩ := Prod.ext_iff.mp hwire
  refine ⟨C, ?_, ?_⟩
  · rw [← List.take_append_drop 4 oneCall, run_append, hrun₂]
    exact hrun₃
  · obtain ⟨e, he, hout⟩ := Cable.call_goes_through F l newPair twoDevices twoDevices_new
      (oneCall.take 3) (by decide +kernel) C₁ hrun₁ hl hr hclosed 1 (.inl rfl) C₂ hconnect
      (oneCall.drop 4) hdials C hrun₃ (fun i => by cases i <;> assumption)
    exact ⟨e, he, hout.imp (fun h => h.2.2) fun h i => (h.2.2 i).2.1⟩

end PicoLan
