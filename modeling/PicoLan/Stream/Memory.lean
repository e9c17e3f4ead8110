import PicoLan.Lib.Access
import PicoLan.Stream.OnData

/-!
# What `on_data` reads

The two `on_data` functions of the streams once more, load by load.  Most branches
look at `data[0]`, `data[1]` and `data[2]` without a look at `len`, so a payload that
is too short for its branch is read past its end; `loads_payload_iff` says when.
-/

namespace PicoLan

open Access

variable (F : OnFull UInt8)

/-! ## Load by load -/

/-- `on_data` of `Client`, with each access to `data`. -/
def Client.onDataAccess (s : SocketStream) (address r : UInt8) (len : Nat) :
    Access UInt8 (SocketStream × List DatagramPack) :=
  if s.remote ≠ r then pure (s, [])
  else match s.state with
  | .closed => pure (s, [])
  | .synSent => do
    let t ← cell 0
    if t = MessageType.syn then
      let seq ← cell 1
      pure ({ s with remoteSequence := seq, state := .synRecved }, [])
    else
      let t ← cell 0
      if t = MessageType.close then pure ({ s with state := .closed }, []) else pure (s, [])
  | .synRecved => do
    let t ← cell 0
    if t = MessageType.close then pure ({ s with state := .closed }, []) else pure (s, [])
  | .opened => do
    let t ← cell 0
    let s := if t = MessageType.close then { s with state := .closed } else s
    let t ← cell 0
    let s ← (if t = MessageType.ack then do
        let n ← cell 1
        pure { s with lastRecvedAck := n }
      else pure s)
    let t ← cell 0
    if t = MessageType.data then
      let seq ← cell 1
      let s ← (if seq.toNat = s.remoteSequence.toNat + 1 then do
          let bytes ← cells 2 (len - 2)
          pure { s with
            remoteSequence := s.remoteSequence + 1
            ringbuf := s.ringbuf.putAll F bytes }
        else pure s)
      pure (s, [s.sendAck address])
    else pure (s, [])
  | .listening => pure (s, [])
  | .pending => pure (s, [])

/-- `on_data` of `Server`, with each access to `data`. -/
def Server.onDataAccess (s : SocketStream) (address r : UInt8) (len : Nat) :
    Access UInt8 (SocketStream × List DatagramPack) :=
  match s.state with
  | .closed => pure (s, [])
  | .listening => do
    let t ← cell 0
    if t = MessageType.syn then
      let seq ← cell 1
      let port ← cell 2
      pure ({ s with
          remote := r
          remoteSequence := seq
          remotePort := port
          state := .synRecved }, [])
    else pure (s, [])
  | .synRecved =>
    if len ≠ 2 then pure (s, [])
    else if s.remote ≠ r then pure (s, [])
    else do
      let t ← cell 0
      if t = MessageType.close then pure ({ s with state := .closed }, []) else pure (s, [])
  | .pending =>
    if s.remote ≠ r then pure (s, [])
    else do
      let t ← cell 0
      let s := if t = MessageType.ack then { s with state := .opened } else s
      let t ← cell 0
      pure (if t = MessageType.close then { s with state := .closed } else s, [])
  | .opened =>
    if s.remote ≠ r then pure (s, [])
    else do
      let t ← cell 0
      let s := if t = MessageType.close then { s with state := .closed } else s
      let t ← cell 0
      let s ← (if t = MessageType.ack then do
          let n ← cell 1
          pure { s with lastRecvedAck := n }
        else pure s)
      let t ← cell 0
      if t = MessageType.data then
        let nextSequence := s.remoteSequence + 1
        let seq ← cell 1
        let s ← (if seq = nextSequence then do
            let bytes ← cells 2 (len - 2)
            pure { s with
              remoteSequence := nextSequence
              ringbuf := s.ringbuf.putAll F bytes }
          else pure s)
        pure (s, [s.sendAck address])
      else pure (s, [])
  | .synSent => pure (s, [])

def SocketStream.onDataAccess : Kind → SocketStream → UInt8 → UInt8 → Nat →
    Access UInt8 (SocketStream × List DatagramPack)
  | .client => Client.onDataAccess F
  | .server => Server.onDataAccess F

theorem Client.onDataAccess_value (s : SocketStream) (address r : UInt8) (d : Data) :
    (Client.onDataAccess F s address r d.len).value d.cell = Client.onData F s address r d := by
  unfold Client.onDataAccess Client.onData Data.rest
  rw [value_ite]
  split
  · rfl
  cases s.state with
  | closed => rfl
  | listening => rfl
  | pending => rfl
  | synSent =>
    dsimp only
    rw [value_bind, value_ite, value_bind, value_bind, value_ite]
    rfl
  | synRecved =>
    dsimp only
    rw [value_bind, value_ite]
    rfl
  | opened =>
    simp only [value_bind, value_cell, value_ite, value_pure, value_cells]

theorem Server.onDataAccess_value (s : SocketStream) (address r : UInt8) (d : Data) :
    (Server.onDataAccess F s address r d.len).value d.cell = Server.onData F s address r d := by
  unfold Server.onDataAccess Server.onData Data.rest
  cases s.state with
  | closed => rfl
  | synSent => rfl
  | listening =>
    dsimp only
    rw [value_bind, value_ite]
    rfl
  | synRecved =>
    dsimp only
    rw [value_ite, value_ite, value_bind, value_ite]
    rfl
  | pending =>
    dsimp only
    rw [value_ite]
    rfl
  | opened => simp only [value_bind, value_cell, value_ite, value_pure, value_cells]

/-- The loads and the function belong together. -/
theorem SocketStream.onDataAccess_value (k : Kind) (s : SocketStream) (address r : UInt8)
    (d : Data) : (SocketStream.onDataAccess F k s address r d.len).value d.cell =
      SocketStream.onData F k s address r d := by
  cases k with
  | client => exact Client.onDataAccess_value F s address r d
  | server => exact Server.onDataAccess_value F s address r d

/-! ## How far it reads -/

/-- The number of bytes that `on_data` looks at before the loop over the rest, for a
message of type `t`. -/
def headerRead (k : Kind) (state : ConnectionState) (t : UInt8) : Nat :=
  match k, state with
  | .client, .synSent => if t = MessageType.syn then 2 else 1
  | .client, .synRecved => 1
  | .server, .listening => if t = MessageType.syn then 3 else 1
  | .server, .pending => 1
  | _, .opened => if t = MessageType.ack ∨ t = MessageType.data then 2 else 1
  | _, _ => 0

theorem headerRead_le_zero (k : Kind) (state : ConnectionState) (t t' : UInt8) :
    headerRead k state t ≤ 0 ↔ headerRead k state t' ≤ 0 := by
  unfold headerRead
  cases k <;> cases state <;> simp [ite_eq_iff]

/-- The three tests in the open state. -/
theorem opened_reads {ack data : Prop} [Decidable (ack ∨ data)] {len : Nat} :
    (0 < len ∧ (ack → 1 < len) ∧ 0 < len ∧ (data → 1 < len)) ↔
      (if ack ∨ data then 2 else 1) ≤ len := by
  by_cases h : ack ∨ data
  · rw [if_pos h]
    constructor
    · rintro ⟨-, hack, -, hdata⟩
      exact h.elim hack hdata
    · exact fun hlen => ⟨by omega, fun _ => hlen, by omega, fun _ => hlen⟩
  · rw [if_neg h]
    obtain ⟨hack, hdata⟩ := not_or.mp h
    exact ⟨fun hlen => hlen.1, fun hlen => ⟨hlen, fun h => absurd h hack, hlen, fun h => absurd h hdata⟩⟩

theorem Client.onDataAccess_below (s : SocketStream) (address : UInt8) (len : Nat)
    (mem : Nat → UInt8) : (Client.onDataAccess F s address s.remote len).Below len mem ↔
      headerRead .client s.state (mem 0) ≤ len := by
  unfold Client.onDataAccess headerRead
  rw [if_neg (fun h => h rfl)]
  cases s.state with
  | closed => simp
  | listening => simp
  | pending => simp
  | synSent =>
    by_cases h : mem 0 = MessageType.syn
    · simp only [below_bind, below_cell, value_cell, h, if_true, below_pure, and_true]
      omega
    · simp only [below_bind, below_cell, value_cell, h, if_false, below_ite, below_pure, ite_self,
        and_true, and_self]
      omega
  | synRecved =>
    simp only [below_bind, below_cell, value_cell, below_ite, below_pure, ite_self, and_true]
    omega
  | opened =>
    simp only [below_bind, below_cell, value_cell, below_ite, below_pure, and_true, if_true_right,
      value_ite, value_bind, value_pure, below_cells_sub, and_self, ite_self, and_self_left]
    exact opened_reads

theorem Server.onDataAccess_below (s : SocketStream) (address : UInt8) (len : Nat)
    (mem : Nat → UInt8) : (Server.onDataAccess F s address s.remote len).Below len mem ↔
      headerRead .server s.state (mem 0) ≤ len := by
  unfold Server.onDataAccess headerRead
  cases s.state with
  | closed => simp
  | synSent => simp
  | listening =>
    by_cases h : mem 0 = MessageType.syn
    · simp only [below_bind, below_cell, value_cell, h, if_true, below_pure, and_true]
      omega
    · simp only [below_bind, below_cell, value_cell, h, if_false, below_pure, and_true]
      omega
  | synRecved =>
    -- the only branch that looks at `len` first
    simp only [ne_eq, not_true_eq_false, if_false, ite_not, below_ite, below_bind, below_cell,
      value_cell, below_pure, ite_self, and_true, if_true_right, Nat.zero_le, iff_true]
    omega
  | pending =>
    simp only [ne_eq, not_true_eq_false, if_false, below_bind, below_cell, value_cell, below_pure,
      and_true, and_self]
    omega
  | opened =>
    simp only [ne_eq, not_true_eq_false, if_false, below_bind, below_cell, value_cell, below_ite,
      below_pure, and_true, if_true_right, value_ite, value_bind, value_pure, below_cells_sub,
      and_self, ite_self, and_self_left]
    exact opened_reads

theorem SocketStream.onDataAccess_below (k : Kind) (s : SocketStream) (address : UInt8)
    (len : Nat) (mem : Nat → UInt8) :
    (SocketStream.onDataAccess F k s address s.remote len).Below len mem ↔
      headerRead k s.state (mem 0) ≤ len := by
  cases k with
  | client => exact Client.onDataAccess_below F s address len mem
  | server => exact Server.onDataAccess_below F s address len mem

/-! ## The payload and what lies behind it -/

/-- What `on_data` loads when the handler calls it with `a`. -/
def SocketStream.receiveAccess (k : Kind) (s : SocketStream) (address : UInt8) (a : Arrival) :
    Access UInt8 (SocketStream × List DatagramPack) :=
  SocketStream.onDataAccess F k { s with remote := a.pack.sourceAddr } address a.pack.sourceAddr
    a.data.len

theorem SocketStream.receiveAccess_value (k : Kind) (s : SocketStream) (address : UInt8)
    (a : Arrival) : (s.receiveAccess F k address a).value a.data.cell = s.receive F k address a :=
  SocketStream.onDataAccess_value F k { s with remote := a.pack.sourceAddr } address
    a.pack.sourceAddr a.data

/-- `on_data` loads nothing behind the payload, and what is there makes no
difference. -/
structure KeepsToPayload (k : Kind) (s : SocketStream) (address : UInt8) (pack : DatagramPack) :
    Prop where
  loads : ∀ behind, (s.receiveAccess F k address ⟨pack, behind⟩).Below pack.payload.size
    (Arrival.mk pack behind).data.cell
  effect : ∀ behind behind',
    s.receive F k address ⟨pack, behind⟩ = s.receive F k address ⟨pack, behind'⟩

theorem Arrival.cell_payload (pack : DatagramPack) (behind behind' : Nat → UInt8) (i : Nat)
    (hi : i < pack.payload.size) :
    (Arrival.mk pack behind).data.cell i = (Arrival.mk pack behind').data.cell i := by
  have hi : i < pack.payload.toList.length := hi
  show pack.payload.toList.getD i _ = pack.payload.toList.getD i _
  rw [List.getD_eq_getElem?_getD, List.getD_eq_getElem?_getD, List.getElem?_eq_getElem hi]
  rfl

theorem headerRead_payload (k : Kind) (state : ConnectionState) (pack : DatagramPack)
    (behind : Nat → UInt8) :
    headerRead k state ((Arrival.mk pack behind).data.cell 0) ≤ pack.payload.size ↔
      headerRead k state (pack.payload.toList.headD 0) ≤ pack.payload.size := by
  show headerRead k state (pack.payload.toList.getD 0 (behind 0)) ≤ pack.payload.toList.length ↔
    headerRead k state (pack.payload.toList.headD 0) ≤ pack.payload.toList.length
  cases pack.payload.toList with
  | nil => exact headerRead_le_zero k state _ _
  | cons t rest => rfl

/-- **Short messages.**  `on_data` keeps to the payload if and only if it has as many
bytes as the state and the type of the message, its first byte, ask for. -/
theorem loads_payload_iff (k : Kind) (s : SocketStream) (address : UInt8) (pack : DatagramPack) :
    KeepsToPayload F k s address pack ↔
      headerRead k s.state (pack.payload.toList.headD 0) ≤ pack.payload.size := by
  have hbelow : ∀ behind, (s.receiveAccess F k address ⟨pack, behind⟩).Below pack.payload.size
      (Arrival.mk pack behind).data.cell ↔
        headerRead k s.state (pack.payload.toList.headD 0) ≤ pack.payload.size := by
    intro behind
    rw [← headerRead_payload k s.state pack behind]
    exact SocketStream.onDataAccess_below F k { s with remote := pack.sourceAddr } address
      pack.payload.size _
  constructor
  · exact fun h => (hbelow fun _ => 0).mp (h.loads _)
  · intro h
    refine ⟨fun behind => (hbelow behind).mpr h, fun behind behind' => ?_⟩
    rw [← s.receiveAccess_value F k address ⟨pack, behind⟩,
      ← s.receiveAccess_value F k address ⟨pack, behind'⟩]
    exact ((hbelow behind).mpr h).value_congr (Arrival.cell_payload pack behind behind')

/-- A SYN without its number and its port. -/
def bareSyn : DatagramPack where
  ttl := 6
  sourceAddr := 7
  destAddr := 1
  port := 80
  payload := BoundedList.empty.appendAll [MessageType.syn]

def listeningStream : SocketStream where
  port := 80
  ringbuf := .empty 64
  state := .listening
  remoteSequence := 0
  remotePort := 0

/-- The number and the port come from behind the payload. -/
theorem bareSyn_accepted :
    ¬ KeepsToPayload (OnFull.refuse UInt8) .server listeningStream 1 bareSyn ∧
      (listeningStream.receiveAccess (OnFull.refuse UInt8) .server 1 ⟨bareSyn, fun _ => 0⟩).loads
        (Arrival.mk bareSyn fun _ => 0).data.cell = [0, 1, 2] ∧
      bareSyn.payload.size = 1 ∧
      ∀ b, (listeningStream.receive (OnFull.refuse UInt8) .server 1 ⟨bareSyn, fun _ => b⟩).1.remotePort
        = b := by
  refine ⟨fun h => ?_, by decide +kernel, by decide +kernel, fun b => rfl⟩
  have hport := congrArg (fun io => io.1.remotePort) (h.effect (fun _ => 0) (fun _ => 9))
  exact absurd hport (by decide +kernel)

end PicoLan
