import PicoLan.Stream.Socket

/-!
# The handshake

What is left of a client and a server when data, acknowledgement numbers and
buffers are forgotten: two parties and the messages on their way.  The messages
carry no mark of the attempt they belong to, so a party that is heard late may be
taken for another one.  As long as no attempt is begun before the one before it
has died out (`Quiet`), the two agree on the numbers of their SYNs whenever both
are open and neither has written (`Settled.agree`).
-/

namespace PicoLan

/-- A message, with the number if it is a SYN. -/
inductive Msg where
  | syn (n : UInt8)
  | ack
  | data
  | close
deriving DecidableEq

inductive Doing where
  | idle
  | connecting
  | accepting
  | writing
  | reading
deriving DecidableEq

/-- `heard` is the sequence number expected of the other one, `called` the number
in the last SYN sent, and `wrote` tells whether `write` has been called since. -/
structure Party where
  state : ConnectionState
  doing : Doing
  heard : UInt8
  called : Option UInt8
  wrote : Bool

/-- What a message can do, and the messages sent in return. -/
inductive Hears : Kind → Party → Msg → Party → List Msg → Prop where
  | ignored {k : Kind} {p : Party} {m : Msg} : Hears k p m p []
  | answered {p : Party} {n : UInt8} (hs : p.state = .synSent) :
    Hears .client p (.syn n) { p with state := .synRecved, heard := n } []
  | called {p : Party} {n : UInt8} (hs : p.state = .listening) :
    Hears .server p (.syn n) { p with state := .synRecved, heard := n } []
  | confirmed {p : Party} (hs : p.state = .pending) :
    Hears .server p .ack { p with state := .opened } []
  | hungUp {k : Kind} {p : Party} (hl : p.state ≠ .listening) :
    Hears k p .close { p with state := .closed } []
  | accepted {k : Kind} {p : Party} {n : UInt8} (hs : p.state = .opened) :
    Hears k p .data { p with heard := n } [.ack]
  | refused {k : Kind} {p : Party} (hs : p.state = .opened) : Hears k p .data p [.ack]

/-- `connect` sends the number `n`. -/
def Party.connects (p : Party) (n : UInt8) : Party :=
  { p with state := .synSent, doing := .connecting, called := some n, wrote := false }

/-- Everything else that happens without a message. -/
inductive Moves : Kind → Party → Party → List Msg → Prop where
  | stays {k : Kind} {p : Party} : Moves k p p []
  | givesUp {k : Kind} {p : Party} (hd : p.doing = .connecting) :
    Moves k p { p with state := .closed, doing := .idle } []
  | opens {k : Kind} {p : Party} (hd : p.doing = .connecting) (hs : p.state = .synRecved) :
    Moves k p { p with state := .opened, doing := .idle } [.ack]
  | hangsUp {k : Kind} {p : Party}
      (hd : p.doing = .connecting → p.state ≠ .synSent ∧ p.state ≠ .synRecved)
      (hw : p.doing ≠ .writing) :
    Moves k p { p with state := .closed, doing := .idle }
      (if p.state = .closed then [] else [.close])
  | listens {p : Party} (hd : p.doing = .idle) (hs : p.state = .closed) :
    Moves .server p { p with state := .listening } []
  | accepts {p : Party} {n : UInt8} (hd : p.doing = .idle) (hs : p.state = .synRecved) :
    Moves .server p { p with state := .pending, doing := .accepting, called := some n, wrote := false }
      [.ack, .syn n]
  | returns {k : Kind} {p : Party} (hd : p.doing ≠ .connecting)
      (hs : p.doing = .accepting → p.state = .opened) :
    Moves k p { p with doing := .idle } []
  | writes {k : Kind} {p : Party} (hd : p.doing = .idle) (d : Doing)
      (ho : d = .idle ∨ d = .writing ∧ p.state = .opened) :
    Moves k p { p with doing := d, wrote := true } []
  | sends {k : Kind} {p : Party} (hd : p.doing = .writing) : Moves k p p [.data]
  | reads {k : Kind} {p : Party} (hd : p.doing = .idle) (hs : p.state = .opened) :
    Moves k p { p with doing := .reading } []

structure Handshake where
  client : Party
  server : Party
  toServer : List Msg
  toClient : List Msg

namespace Handshake

def NoSyn (ms : List Msg) : Prop := ∀ n, Msg.syn n ∉ ms

/-- No attempt is under way that could be mistaken for another. -/
structure Quiet (x : Handshake) : Prop where
  toServer : NoSyn x.toServer
  toClient : NoSyn x.toClient
  synRecved : x.server.state ≠ .synRecved
  pending : x.server.state ≠ .pending

/-- A step of either party; `connect` is called when it is quiet. -/
inductive Step : Handshake → Handshake → Prop where
  | clientHears {x : Handshake} {m : Msg} {ms : List Msg} {p : Party} {out : List Msg}
      (hm : x.toClient = m :: ms) (h : Hears .client x.client m p out) :
    Step x { x with client := p, toClient := ms, toServer := x.toServer ++ out }
  | serverHears {x : Handshake} {m : Msg} {ms : List Msg} {p : Party} {out : List Msg}
      (hm : x.toServer = m :: ms) (h : Hears .server x.server m p out) :
    Step x { x with server := p, toServer := ms, toClient := x.toClient ++ out }
  | clientMoves {x : Handshake} {p : Party} {out : List Msg} (h : Moves .client x.client p out) :
    Step x { x with client := p, toServer := x.toServer ++ out }
  | serverMoves {x : Handshake} {p : Party} {out : List Msg} (h : Moves .server x.server p out) :
    Step x { x with server := p, toClient := x.toClient ++ out }
  | connects {x : Handshake} {n : UInt8} (hd : x.client.doing = .idle)
      (hs : x.client.state = .closed) (hq : x.Quiet) :
    Step x { x with client := x.client.connects n, toServer := x.toServer ++ [.syn n] }

/-! ## The invariant -/

/-- Neither has heard more than the other's SYN unless that one has written. -/
structure Agree (x : Handshake) : Prop where
  server : x.client.wrote = false → x.client.called = some x.server.heard ∧ .data ∉ x.toServer
  client : x.server.wrote = false → x.server.called = some x.client.heard ∧ .data ∉ x.toClient

/-- The client is waiting, or has given up. -/
structure Waiting (p : Party) : Prop where
  state : p.state = .synSent ∨ p.state = .closed
  doing : p.doing = .connecting ∨ p.doing = .idle

/-- The stages of an attempt. -/
inductive Phase (x : Handshake) : Prop where
  /-- Nothing is under way. -/
  | quiet (h₁ : NoSyn x.toServer) (h₂ : NoSyn x.toClient)
      (hs : x.server.state = .closed ∨ x.server.state = .listening ∨ x.server.state = .opened)
      (hr : x.client.state = .synRecved → x.server.state ≠ .opened)
      (ho : x.client.state = .opened → x.server.state = .opened → Agree x)
  /-- The client's SYN is on its way and the last of its messages. -/
  | calling (ms : List Msg) (n : UInt8) (h₁ : x.toServer = ms ++ [.syn n]) (hms : NoSyn ms)
      (h₂ : NoSyn x.toClient) (hn : x.client.called = some n) (hc : Waiting x.client)
      (hs : x.server.state = .closed ∨ x.server.state = .listening ∨ x.server.state = .opened)
  /-- The server has taken it. -/
  | taken (h₁ : x.toServer = []) (h₂ : NoSyn x.toClient)
      (hn : x.client.called = some x.server.heard) (hc : Waiting x.client)
      (hs : x.server.state = .synRecved)
  /-- The server has accepted, and its SYN is on its way. -/
  | answering (ms : List Msg) (n : UInt8) (h₁ : x.toServer = [])
      (h₂ : x.toClient = ms ++ [.syn n]) (hms : NoSyn ms)
      (hn : x.client.called = some x.server.heard) (hm : x.server.called = some n)
      (hc : Waiting x.client) (hs : x.server.state = .pending)
  /-- The same, but the server has given up. -/
  | tooLate (ms ms' : List Msg) (n : UInt8) (h₁ : x.toServer = [])
      (h₂ : x.toClient = ms ++ .syn n :: ms') (hms : NoSyn ms) (hms' : NoSyn ms')
      (hc : Waiting x.client) (hs : x.server.state = .closed ∨ x.server.state = .listening)
      (hd : x.server.doing = .idle)
  /-- The client has heard it, and the server waits for the ACK. -/
  | answered (h₁ : NoSyn x.toServer) (h₂ : x.toClient = [])
      (hn : x.client.called = some x.server.heard)
      (hm : x.client.state = .synRecved ∨ x.client.state = .opened →
        x.server.called = some x.client.heard)
      (hc : x.client.state = .synSent ∨ x.client.state = .synRecved → x.toServer = [])
      (hw : x.client.wrote = false → .data ∉ x.toServer) (hs : x.server.state = .pending)

/-- Which calls of a client go with which states. -/
structure ClientOk (p : Party) : Prop where
  connecting : p.doing = .connecting →
    p.state = .synSent ∨ p.state = .synRecved ∨ p.state = .closed
  attempt : p.state = .synSent ∨ p.state = .synRecved → p.doing = .connecting
  other : p.state ≠ .listening ∧ p.state ≠ .pending ∧ p.doing ≠ .accepting
  wrote : p.doing = .writing → p.wrote = true

/-- And of a server. -/
structure ServerOk (p : Party) : Prop where
  accepting : p.doing = .accepting → p.state = .pending ∨ p.state = .opened ∨ p.state = .closed
  pending : p.state = .pending → p.doing = .accepting
  waiting : p.state = .listening ∨ p.state = .synRecved → p.doing = .idle
  other : p.state ≠ .synSent ∧ p.doing ≠ .connecting
  wrote : p.doing = .writing → p.wrote = true

structure Settled (x : Handshake) : Prop where
  client : ClientOk x.client
  server : ServerOk x.server
  phase : Phase x

/-! ## Messages without a SYN -/

@[simp] theorem noSyn_nil : NoSyn [] := fun _ h => by cases h

@[simp] theorem noSyn_append {ms ms' : List Msg} : NoSyn (ms ++ ms') ↔ NoSyn ms ∧ NoSyn ms' := by
  simp [NoSyn, forall_and]

@[simp] theorem noSyn_cons {m : Msg} {ms : List Msg} :
    NoSyn (m :: ms) ↔ (∀ n, m ≠ .syn n) ∧ NoSyn ms := by
  simp [NoSyn, forall_and, eq_comm]

theorem hears_noSyn {k : Kind} {p p' : Party} {m : Msg} {out : List Msg} (h : Hears k p m p' out) :
    NoSyn out := by
  cases h <;> simp

theorem hears_called {k : Kind} {p p' : Party} {m : Msg} {out : List Msg}
    (h : Hears k p m p' out) : p'.called = p.called := by
  cases h <;> rfl

/-- Only `accept` sends a SYN here. -/
theorem moves_noSyn {k : Kind} {p p' : Party} {out : List Msg} (h : Moves k p p' out)
    (hk : k = .client ∨ p.state ≠ .synRecved) : NoSyn out := by
  cases h with
  | hangsUp => split <;> simp
  | accepts hd hs => exact absurd hs (hk.resolve_left (by decide))
  | _ => simp

/-! ## One party at a time -/

theorem ClientOk.hears {p p' : Party} {m : Msg} {out : List Msg} (hp : ClientOk p)
    (h : Hears .client p m p' out) : ClientOk p' := by
  obtain ⟨h₁, h₂, h₃, h₄⟩ := hp
  cases h with
  | ignored => exact ⟨h₁, h₂, h₃, h₄⟩
  | answered hs => exact ⟨fun _ => .inr (.inl rfl), fun _ => h₂ (.inl hs), ⟨nofun, nofun, h₃.2.2⟩, h₄⟩
  | hungUp => exact ⟨fun _ => .inr (.inr rfl), nofun, ⟨nofun, nofun, h₃.2.2⟩, h₄⟩
  | accepted hs => exact ⟨h₁, h₂, h₃, h₄⟩
  | refused hs => exact ⟨h₁, h₂, h₃, h₄⟩

theorem ClientOk.moves {p p' : Party} {out : List Msg} (hp : ClientOk p)
    (h : Moves .client p p' out) : ClientOk p' := by
  obtain ⟨h₁, h₂, h₃, h₄⟩ := hp
  cases h with
  | stays => exact ⟨h₁, h₂, h₃, h₄⟩
  | givesUp => exact ⟨nofun, nofun, ⟨nofun, nofun, nofun⟩, nofun⟩
  | opens => exact ⟨nofun, nofun, ⟨nofun, nofun, nofun⟩, nofun⟩
  | hangsUp => exact ⟨nofun, nofun, ⟨nofun, nofun, nofun⟩, nofun⟩
  | returns hd =>
    exact ⟨nofun, fun hs => absurd (h₂ hs) hd, ⟨h₃.1, h₃.2.1, nofun⟩, nofun⟩
  | writes hd d ho =>
    have hidle : p.state ≠ .synSent ∧ p.state ≠ .synRecved := by
      constructor <;> intro hs <;> simp [hs, hd] at h₂
    rcases ho with rfl | ⟨rfl, ho⟩
    · exact ⟨nofun, fun hs => absurd hs (by simp [hidle]), ⟨h₃.1, h₃.2.1, nofun⟩, nofun⟩
    · exact ⟨nofun, fun hs => absurd hs (by simp [hidle]), ⟨h₃.1, h₃.2.1, nofun⟩, fun _ => rfl⟩
  | sends => exact ⟨h₁, h₂, h₃, h₄⟩
  | reads hd hs => exact ⟨nofun, fun hs' => absurd hs' (by simp [hs]), ⟨h₃.1, h₃.2.1, nofun⟩, nofun⟩

theorem ServerOk.hears {p p' : Party} {m : Msg} {out : List Msg} (hp : ServerOk p)
    (h : Hears .server p m p' out) : ServerOk p' := by
  obtain ⟨h₁, h₂, h₃, h₄, h₅⟩ := hp
  cases h with
  | ignored => exact ⟨h₁, h₂, h₃, h₄, h₅⟩
  | called hs =>
    have hd := h₃ (.inl hs)
    exact ⟨fun ha => by simp [hd] at ha, nofun, fun _ => hd, ⟨nofun, h₄.2⟩, h₅⟩
  | confirmed hs => exact ⟨fun _ => .inr (.inl rfl), nofun, nofun, ⟨nofun, h₄.2⟩, h₅⟩
  | hungUp => exact ⟨fun _ => .inr (.inr rfl), nofun, nofun, ⟨nofun, h₄.2⟩, h₅⟩
  | accepted hs => exact ⟨h₁, h₂, h₃, h₄, h₅⟩
  | refused hs => exact ⟨h₁, h₂, h₃, h₄, h₅⟩

theorem ServerOk.moves {p p' : Party} {out : List Msg} (hp : ServerOk p)
    (h : Moves .server p p' out) : ServerOk p' := by
  obtain ⟨h₁, h₂, h₃, h₄, h₅⟩ := hp
  cases h with
  | stays => exact ⟨h₁, h₂, h₃, h₄, h₅⟩
  | givesUp hd => exact absurd hd h₄.2
  | opens hd => exact absurd hd h₄.2
  | hangsUp => exact ⟨nofun, nofun, nofun, ⟨nofun, nofun⟩, nofun⟩
  | listens hd hs => exact ⟨fun ha => by simp [hd] at ha, nofun, fun _ => hd, ⟨nofun, h₄.2⟩, h₅⟩
  | accepts => exact ⟨fun _ => .inl rfl, fun _ => rfl, nofun, ⟨nofun, nofun⟩, nofun⟩
  | returns hd ha =>
    have hidle : p.state ≠ .pending := fun hs =>
      absurd (hs.symm.trans (ha (h₂ hs))) (by decide)
    exact ⟨nofun, fun hs => absurd hs hidle, fun _ => rfl, ⟨h₄.1, nofun⟩, nofun⟩
  | writes hd d ho =>
    have hidle : p.state ≠ .pending := fun hs => by simp [hs, hd] at h₂
    rcases ho with rfl | ⟨rfl, ho⟩
    · exact ⟨nofun, fun hs => absurd hs hidle, fun _ => rfl, ⟨h₄.1, nofun⟩, nofun⟩
    · exact ⟨nofun, fun hs => absurd hs hidle, fun hs => by simp [ho] at hs, ⟨h₄.1, nofun⟩,
        fun _ => rfl⟩
  | sends => exact ⟨h₁, h₂, h₃, h₄, h₅⟩
  | reads hd hs =>
    exact ⟨nofun, fun hs' => by simp [hs] at hs', fun hs' => by simp [hs] at hs', ⟨h₄.1, nofun⟩,
      nofun⟩

theorem Waiting.notOpen {p : Party} (hp : Waiting p) :
    p.state ≠ .opened ∧ p.state ≠ .synRecved := by
  rcases hp.state with hs | hs <;> rw [hs] <;> decide

/-- A waiting client sends nothing, until it hears a SYN. -/
theorem Waiting.hears {p p' : Party} {m : Msg} {out : List Msg} (hp : Waiting p)
    (h : Hears .client p m p' out) (hm : ∀ n, m ≠ .syn n) : Waiting p' ∧ out = [] := by
  have ho := hp.notOpen.1
  cases h with
  | ignored => exact ⟨hp, rfl⟩
  | answered => exact absurd rfl (hm _)
  | hungUp => exact ⟨⟨.inr rfl, hp.doing⟩, rfl⟩
  | accepted hs => exact absurd hs ho
  | refused hs => exact absurd hs ho

theorem Waiting.moves {p p' : Party} {out : List Msg} (hp : Waiting p) (hok : ClientOk p)
    (h : Moves .client p p' out) : Waiting p' ∧ out = [] ∧ p'.called = p.called := by
  have ho := hp.notOpen
  have hd : p.doing ≠ .writing := by rcases hp.doing with hd | hd <;> rw [hd] <;> decide
  cases h with
  | stays => exact ⟨hp, rfl, rfl⟩
  | givesUp => exact ⟨⟨.inr rfl, .inr rfl⟩, rfl, rfl⟩
  | opens _ hs => exact absurd hs ho.2
  | hangsUp hc =>
    have hclosed : p.state = .closed := by
      rcases hp.state with hs | hs
      · exact absurd hs (hc (hok.attempt (.inl hs))).1
      · exact hs
    exact ⟨⟨.inr rfl, .inr rfl⟩, if_pos hclosed, rfl⟩
  | returns => exact ⟨⟨hp.state, .inr rfl⟩, rfl, rfl⟩
  | writes _ d hw =>
    rcases hw with rfl | ⟨-, hs⟩
    · exact ⟨⟨hp.state, .inr rfl⟩, rfl, rfl⟩
    · exact absurd hs ho.1
  | sends hd' => exact absurd hd' hd
  | reads _ hs => exact absurd hs ho.1

/-- A server in `accept` waits or gives up. -/
theorem ServerOk.moves_pending {p p' : Party} {out : List Msg} (hp : ServerOk p)
    (hs : p.state = .pending) (h : Moves .server p p' out) : p' = p ∧ out = [] ∨
      p'.state = .closed ∧ p'.doing = .idle ∧ NoSyn out := by
  have hd := hp.pending hs
  cases h with
  | stays => exact .inl ⟨rfl, rfl⟩
  | givesUp hd' => rw [hd] at hd'; cases hd'
  | opens hd' => rw [hd] at hd'; cases hd'
  | hangsUp =>
    refine .inr ⟨rfl, rfl, ?_⟩
    split <;> simp
  | listens _ hs' => rw [hs] at hs'; cases hs'
  | accepts _ hs' => rw [hs] at hs'; cases hs'
  | returns _ ha => exact absurd (hs.symm.trans (ha hd)) (by decide)
  | writes hd' => rw [hd] at hd'; cases hd'
  | sends hd' => rw [hd] at hd'; cases hd'
  | reads hd' => rw [hd] at hd'; cases hd'

/-! ## The stages -/

theorem Phase.clientHears {x : Handshake} {m : Msg} {ms : List Msg} {p : Party} {out : List Msg}
    (hx : Phase x) (hm : x.toClient = m :: ms) (h : Hears .client x.client m p out) :
    Phase { x with client := p, toClient := ms, toServer := x.toServer ++ out } := by
  have hout := hears_noSyn h
  cases hx with
  | quiet h₁ h₂ hs hr ho =>
    rw [hm, noSyn_cons] at h₂
    have hto : NoSyn (x.toServer ++ out) := noSyn_append.mpr ⟨h₁, hout⟩
    cases h with
    | ignored =>
      refine .quiet hto h₂.2 hs hr fun hc hs => ?_
      obtain ⟨ha, hb⟩ := ho hc hs
      exact ⟨by simpa using ha, fun hw => ⟨(hb hw).1, fun hd => (hb hw).2 (by simp [hm, hd])⟩⟩
    | answered => exact absurd rfl (h₂.1 _)
    | hungUp => exact .quiet hto h₂.2 hs nofun nofun
    | accepted hc =>
      refine .quiet hto h₂.2 hs hr fun _ hs => ?_
      obtain ⟨ha, hb⟩ := ho hc hs
      exact ⟨fun hw => ⟨(ha hw).1, by simpa using (ha hw).2⟩,
        fun hw => absurd (by simp [hm]) (hb hw).2⟩
    | refused hc =>
      refine .quiet hto h₂.2 hs hr fun _ hs => ?_
      obtain ⟨ha, hb⟩ := ho hc hs
      exact ⟨fun hw => ⟨(ha hw).1, by simpa using (ha hw).2⟩,
        fun hw => absurd (by simp [hm]) (hb hw).2⟩
  | calling ms₁ n h₁ hms h₂ hn hc hs =>
    rw [hm, noSyn_cons] at h₂
    obtain ⟨hc', rfl⟩ := hc.hears h h₂.1
    refine .calling ms₁ n (by simp [h₁]) hms h₂.2 ?_ hc' hs
    rw [hears_called h]
    exact hn
  | taken h₁ h₂ hn hc hs =>
    rw [hm, noSyn_cons] at h₂
    obtain ⟨hc', rfl⟩ := hc.hears h h₂.1
    refine .taken (by simp [h₁]) h₂.2 ?_ hc' hs
    rw [hears_called h]
    exact hn
  | answering ms₁ n h₁ h₂ hms hn hm' hc hs =>
    cases ms₁ with
    | cons m₁ ms₁ =>
      rw [hm] at h₂
      obtain ⟨rfl, rfl⟩ := List.cons.inj h₂
      rw [noSyn_cons] at hms
      obtain ⟨hc', rfl⟩ := hc.hears h hms.1
      refine .answering ms₁ n (by simp [h₁]) rfl hms.2 ?_ hm' hc' hs
      rw [hears_called h]
      exact hn
    | nil =>
      -- the SYN itself
      rw [hm] at h₂
      obtain ⟨rfl, rfl⟩ := List.cons.inj h₂
      have ho := hc.notOpen
      cases h with
      | ignored =>
        refine .answered (by simp [h₁]) rfl hn ?_ (by simp [h₁]) (by simp [h₁]) hs
        exact fun hc => absurd hc (by simp [ho])
      | answered =>
        exact .answered (by simp [h₁]) rfl hn (fun _ => hm') (by simp [h₁]) (by simp [h₁]) hs
  | tooLate ms₁ ms₂ n h₁ h₂ hms hms' hc hs hd =>
    cases ms₁ with
    | cons m₁ ms₁ =>
      rw [hm] at h₂
      obtain ⟨rfl, rfl⟩ := List.cons.inj h₂
      rw [noSyn_cons] at hms
      obtain ⟨hc', rfl⟩ := hc.hears h hms.1
      exact .tooLate ms₁ ms₂ n (by simp [h₁]) rfl hms.2 hms' hc' hs hd
    | nil =>
      rw [hm] at h₂
      obtain ⟨rfl, rfl⟩ := List.cons.inj h₂
      have hs' : x.server.state ≠ .opened := by rcases hs with hs | hs <;> rw [hs] <;> decide
      exact .quiet (by simp [h₁, hout]) hms' (by rcases hs with hs | hs <;> simp [hs])
        (fun _ => hs') (fun _ hs => absurd hs hs')
  | answered h₁ h₂ => rw [hm] at h₂; cases h₂

theorem Phase.serverHears {x : Handshake} {m : Msg} {ms : List Msg} {p : Party} {out : List Msg}
    (hx : Phase x) (hm : x.toServer = m :: ms) (h : Hears .server x.server m p out) :
    Phase { x with server := p, toServer := ms, toClient := x.toClient ++ out } := by
  have hout := hears_noSyn h
  cases hx with
  | quiet h₁ h₂ hs hr ho =>
    rw [hm, noSyn_cons] at h₁
    have hto : NoSyn (x.toClient ++ out) := noSyn_append.mpr ⟨h₂, hout⟩
    cases h with
    | ignored =>
      refine .quiet h₁.2 hto hs hr fun hc hs => ?_
      obtain ⟨ha, hb⟩ := ho hc hs
      exact ⟨fun hw => ⟨(ha hw).1, fun hd => (ha hw).2 (by simp [hm, hd])⟩, by simpa using hb⟩
    | called => exact absurd rfl (h₁.1 _)
    | confirmed hp => rw [hp] at hs; simp at hs
    | hungUp => exact .quiet h₁.2 hto (.inl rfl) (fun _ => nofun) (fun _ => nofun)
    | accepted hp =>
      refine .quiet h₁.2 hto hs hr fun hc _ => ?_
      obtain ⟨ha, hb⟩ := ho hc hp
      exact ⟨fun hw => absurd (by simp [hm]) (ha hw).2,
        fun hw => ⟨(hb hw).1, by simpa using (hb hw).2⟩⟩
    | refused hp =>
      refine .quiet h₁.2 hto hs hr fun hc _ => ?_
      obtain ⟨ha, hb⟩ := ho hc hp
      exact ⟨fun hw => absurd (by simp [hm]) (ha hw).2,
        fun hw => ⟨(hb hw).1, by simpa using (hb hw).2⟩⟩
  | calling ms₁ n h₁ hms h₂ hn hc hs =>
    have ho := hc.notOpen
    have hto : NoSyn (x.toClient ++ out) := noSyn_append.mpr ⟨h₂, hout⟩
    cases ms₁ with
    | cons m₁ ms₁ =>
      rw [hm] at h₁
      obtain ⟨rfl, rfl⟩ := List.cons.inj h₁
      rw [noSyn_cons] at hms
      refine .calling ms₁ n rfl hms.2 hto hn hc ?_
      cases h with
      | ignored => exact hs
      | called => exact absurd rfl (hms.1 _)
      | confirmed hp => rw [hp] at hs; simp at hs
      | hungUp => exact .inl rfl
      | accepted => exact hs
      | refused => exact hs
    | nil =>
      rw [hm] at h₁
      obtain ⟨rfl, rfl⟩ := List.cons.inj h₁
      cases h with
      | ignored =>
        exact .quiet noSyn_nil hto hs (fun hc => absurd hc ho.2) (fun hc => absurd hc ho.1)
      | called => exact .taken rfl hto hn hc rfl
  | taken h₁ => rw [hm] at h₁; cases h₁
  | answering _ _ h₁ => rw [hm] at h₁; cases h₁
  | tooLate _ _ _ h₁ => rw [hm] at h₁; cases h₁
  | answered h₁ h₂ hn hm' hc hw hs =>
    have hc' : x.client.state ≠ .synSent ∧ x.client.state ≠ .synRecved := by
      constructor <;> intro hst <;> simp [hst, hm] at hc
    rw [hm, noSyn_cons] at h₁
    cases h with
    | ignored =>
      refine .answered h₁.2 (by simp [h₂]) hn hm' (fun hst => absurd hst (by simp [hc'])) ?_ hs
      exact fun hw' hd => hw hw' (by simp [hm, hd])
    | called hl => rw [hs] at hl; cases hl
    | confirmed =>
      -- the connection is open
      refine .quiet h₁.2 (by simp [h₂]) (.inr (.inr rfl)) (fun hst => absurd hst hc'.2) ?_
      intro hst _
      refine ⟨fun hw' => ⟨hn, fun hd => hw hw' (by simp [hm, hd])⟩, fun _ => ⟨?_, by simp [h₂]⟩⟩
      exact hm' (.inr hst)
    | hungUp =>
      exact .quiet h₁.2 (by simp [h₂]) (.inl rfl) (fun _ => nofun) (fun _ => nofun)
    | accepted hp => rw [hs] at hp; cases hp
    | refused hp => rw [hs] at hp; cases hp

theorem Phase.clientMoves {x : Handshake} {p : Party} {out : List Msg} (hx : Phase x)
    (hok : ClientOk x.client) (h : Moves .client x.client p out) :
    Phase { x with client := p, toServer := x.toServer ++ out } := by
  have hout := moves_noSyn h (.inl rfl)
  cases hx with
  | quiet h₁ h₂ hs hr ho =>
    have hto : NoSyn (x.toServer ++ out) := noSyn_append.mpr ⟨h₁, hout⟩
    cases h with
    | stays => exact .quiet hto h₂ hs hr fun hc hs =>
        ⟨by simpa using (ho hc hs).server, (ho hc hs).client⟩
    | givesUp => exact .quiet hto h₂ hs nofun nofun
    | opens _ hc => exact .quiet hto h₂ hs nofun (fun _ hs => absurd hs (hr hc))
    | hangsUp => exact .quiet hto h₂ hs nofun nofun
    | returns => exact .quiet hto h₂ hs hr fun hc hs =>
        ⟨by simpa using (ho hc hs).server, (ho hc hs).client⟩
    | writes => exact .quiet hto h₂ hs hr fun hc hs => ⟨nofun, (ho hc hs).client⟩
    | sends hd => exact .quiet hto h₂ hs hr fun hc hs =>
        ⟨fun hw => absurd ((hok.wrote hd).symm.trans hw) (by decide), (ho hc hs).client⟩
    | reads => exact .quiet hto h₂ hs hr fun hc hs =>
        ⟨by simpa using (ho hc hs).server, (ho hc hs).client⟩
  | calling ms n h₁ hms h₂ hn hc hs =>
    obtain ⟨hc', rfl, hp⟩ := hc.moves hok h
    exact .calling ms n (by simp [h₁]) hms h₂ (hp.trans hn) hc' hs
  | taken h₁ h₂ hn hc hs =>
    obtain ⟨hc', rfl, hp⟩ := hc.moves hok h
    exact .taken (by simp [h₁]) h₂ (hp.trans hn) hc' hs
  | answering ms n h₁ h₂ hms hn hm hc hs =>
    obtain ⟨hc', rfl, hp⟩ := hc.moves hok h
    exact .answering ms n (by simp [h₁]) h₂ hms (hp.trans hn) hm hc' hs
  | tooLate ms ms' n h₁ h₂ hms hms' hc hs hd =>
    obtain ⟨hc', rfl, -⟩ := hc.moves hok h
    exact .tooLate ms ms' n (by simp [h₁]) h₂ hms hms' hc' hs hd
  | answered h₁ h₂ hn hm hc hw hs =>
    have hto : NoSyn (x.toServer ++ out) := noSyn_append.mpr ⟨h₁, hout⟩
    cases h with
    | stays => exact .answered hto h₂ hn hm (by simpa using hc) (by simpa using hw) hs
    | givesUp => exact .answered hto h₂ hn nofun nofun (by simpa using hw) hs
    | opens _ hr =>
      exact .answered hto h₂ hn (fun _ => hm (.inl hr)) nofun (by simpa using hw) hs
    | hangsUp =>
      refine .answered hto h₂ hn nofun nofun ?_ hs
      intro hw'
      split <;> simpa using hw hw'
    | returns => exact .answered hto h₂ hn hm (by simpa using hc) (by simpa using hw) hs
    | writes => exact .answered hto h₂ hn hm (by simpa using hc) nofun hs
    | sends hd =>
      have hst : x.client.state ≠ .synSent ∧ x.client.state ≠ .synRecved := by
        constructor <;> intro hst <;> have := hok.attempt <;> simp [hst, hd] at this
      exact .answered hto h₂ hn hm (fun hc' => absurd hc' (by simp [hst]))
        (fun hw' => absurd ((hok.wrote hd).symm.trans hw') (by decide)) hs
    | reads => exact .answered hto h₂ hn hm (by simpa using hc) (by simpa using hw) hs

theorem Phase.serverMoves {x : Handshake} {p : Party} {out : List Msg} (hx : Phase x)
    (hok : ServerOk x.server) (h : Moves .server x.server p out) :
    Phase { x with server := p, toClient := x.toClient ++ out } := by
  cases hx with
  | quiet h₁ h₂ hs hr ho =>
    have hout := moves_noSyn h (.inr (by rcases hs with hs | hs | hs <;> rw [hs] <;> decide))
    have hto : NoSyn (x.toClient ++ out) := noSyn_append.mpr ⟨h₂, hout⟩
    cases h with
    | stays => exact .quiet h₁ hto hs hr fun hc hs =>
        ⟨(ho hc hs).server, by simpa using (ho hc hs).client⟩
    | givesUp => exact .quiet h₁ hto (.inl rfl) (fun _ => nofun) (fun _ => nofun)
    | opens hd => exact absurd hd hok.other.2
    | hangsUp => exact .quiet h₁ hto (.inl rfl) (fun _ => nofun) (fun _ => nofun)
    | listens => exact .quiet h₁ hto (.inr (.inl rfl)) (fun _ => nofun) (fun _ => nofun)
    | accepts _ hp => rw [hp] at hs; simp at hs
    | returns => exact .quiet h₁ hto hs hr fun hc hs =>
        ⟨(ho hc hs).server, by simpa using (ho hc hs).client⟩
    | writes => exact .quiet h₁ hto hs hr fun hc hs => ⟨(ho hc hs).server, nofun⟩
    | sends hd => exact .quiet h₁ hto hs hr fun hc hs =>
        ⟨(ho hc hs).server, fun hw => absurd ((hok.wrote hd).symm.trans hw) (by decide)⟩
    | reads => exact .quiet h₁ hto hs hr fun hc hs =>
        ⟨(ho hc hs).server, by simpa using (ho hc hs).client⟩
  | calling ms n h₁ hms h₂ hn hc hs =>
    have hout := moves_noSyn h (.inr (by rcases hs with hs | hs | hs <;> rw [hs] <;> decide))
    have hto : NoSyn (x.toClient ++ out) := noSyn_append.mpr ⟨h₂, hout⟩
    refine .calling ms n h₁ hms hto hn hc ?_
    cases h with
    | stays => exact hs
    | givesUp => exact .inl rfl
    | opens hd => exact absurd hd hok.other.2
    | hangsUp => exact .inl rfl
    | listens => exact .inr (.inl rfl)
    | accepts _ hp => rw [hp] at hs; simp at hs
    | returns => exact hs
    | writes => exact hs
    | sends => exact hs
    | reads => exact hs
  | taken h₁ h₂ hn hc hs =>
    have hd := hok.waiting (.inr hs)
    cases h with
    | stays => exact .taken h₁ (by simpa using h₂) hn hc hs
    | givesUp hd' => rw [hd] at hd'; cases hd'
    | opens hd' => rw [hd] at hd'; cases hd'
    | hangsUp =>
      refine .quiet (by simp [h₁]) ?_ (.inl rfl) (fun _ => nofun) (fun _ => nofun)
      split <;> simpa using h₂
    | listens _ hs' => rw [hs] at hs'; cases hs'
    | accepts =>
      exact .answering (x.toClient ++ [.ack]) _ h₁ (by simp) (by simpa using h₂) hn rfl hc rfl
    | returns => exact .taken h₁ (by simpa using h₂) hn hc hs
    | writes => exact .taken h₁ (by simpa using h₂) hn hc hs
    | sends hd' => rw [hd] at hd'; cases hd'
    | reads _ hs' => rw [hs] at hs'; cases hs'
  | answering ms n h₁ h₂ hms hn hm hc hs =>
    rcases hok.moves_pending hs h with ⟨rfl, rfl⟩ | ⟨hst, hd, hout⟩
    · exact .answering ms n h₁ (by simp [h₂]) hms hn hm hc hs
    · exact .tooLate ms out n h₁ (by simp [h₂]) hms hout hc (.inl hst) hd
  | tooLate ms ms' n h₁ h₂ hms hms' hc hs hd =>
    cases h with
    | stays => exact .tooLate ms ms' n h₁ (by simp [h₂]) hms hms' hc hs hd
    | givesUp hd' => rw [hd] at hd'; cases hd'
    | opens hd' => rw [hd] at hd'; cases hd'
    | hangsUp =>
      refine .tooLate ms (ms' ++ if x.server.state = .closed then [] else [.close]) n h₁
        (by simp [h₂]) hms ?_ hc (.inl rfl) rfl
      split <;> simpa using hms'
    | listens => exact .tooLate ms ms' n h₁ (by simp [h₂]) hms hms' hc (.inr rfl) hd
    | accepts _ hs' => rw [hs'] at hs; simp at hs
    | returns => exact .tooLate ms ms' n h₁ (by simp [h₂]) hms hms' hc hs rfl
    | writes _ d hw =>
      rcases hw with rfl | ⟨-, hs'⟩
      · exact .tooLate ms ms' n h₁ (by simp [h₂]) hms hms' hc hs rfl
      · rw [hs'] at hs; simp at hs
    | sends hd' => rw [hd] at hd'; cases hd'
    | reads _ hs' => rw [hs'] at hs; simp at hs
  | answered h₁ h₂ hn hm hc hw hs =>
    rcases hok.moves_pending hs h with ⟨rfl, rfl⟩ | ⟨hst, -, hout⟩
    · exact .answered h₁ (by simp [h₂]) hn hm hc hw hs
    · have hno : p.state ≠ .opened := by
        rw [hst]
        decide
      exact .quiet h₁ (by simp [h₂, hout]) (.inl hst) (fun _ => hno) (fun _ ho => absurd ho hno)

theorem Phase.connects {x : Handshake} {n : UInt8} (hx : Phase x) (hq : x.Quiet) :
    Phase { x with client := x.client.connects n, toServer := x.toServer ++ [.syn n] } := by
  refine .calling x.toServer n rfl hq.toServer hq.toClient rfl ⟨.inl rfl, .inl rfl⟩ ?_
  cases hx with
  | quiet _ _ hs => exact hs
  | calling _ _ _ _ _ _ _ hs => exact hs
  | taken _ _ _ _ hs => exact absurd hs hq.synRecved
  | answering _ _ _ _ _ _ _ _ hs => exact absurd hs hq.pending
  | tooLate _ _ _ _ _ _ _ _ hs => exact hs.elim .inl (fun hs => .inr (.inl hs))
  | answered _ _ _ _ _ _ hs => exact absurd hs hq.pending

/-- **A step keeps the stages.** -/
theorem Settled.step {x y : Handshake} (hx : Settled x) (h : Step x y) : Settled y := by
  obtain ⟨hc, hs, hp⟩ := hx
  cases h with
  | clientHears hm h => exact ⟨hc.hears h, hs, hp.clientHears hm h⟩
  | serverHears hm h => exact ⟨hc, hs.hears h, hp.serverHears hm h⟩
  | clientMoves h => exact ⟨hc.moves h, hs, hp.clientMoves hc h⟩
  | serverMoves h => exact ⟨hc, hs.moves h, hp.serverMoves hs h⟩
  | connects hd hst hq =>
    exact ⟨⟨fun _ => .inl rfl, fun _ => rfl, ⟨nofun, nofun, nofun⟩, nofun⟩, hs, hp.connects hq⟩

/-- When both are open and neither has written, each has heard the number the
other has called. -/
theorem Settled.agree {x : Handshake} (hx : Settled x) (hc : x.client.state = .opened)
    (hs : x.server.state = .opened) (hcw : x.client.wrote = false) (hsw : x.server.wrote = false) :
    x.client.called = some x.server.heard ∧ x.server.called = some x.client.heard := by
  cases hx.phase with
  | quiet _ _ _ _ ho => exact ⟨((ho hc hs).server hcw).1, ((ho hc hs).client hsw).1⟩
  | calling _ _ _ _ _ _ hw => have := hw.state; simp [hc] at this
  | taken _ _ _ _ hs' => rw [hs] at hs'; cases hs'
  | answering _ _ _ _ _ _ _ _ hs' => rw [hs] at hs'; cases hs'
  | tooLate _ _ _ _ _ _ _ _ hs' => simp [hs] at hs'
  | answered _ _ _ _ _ _ hs' => rw [hs] at hs'; cases hs'

end Handshake

end PicoLan
