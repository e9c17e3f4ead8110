import PicoLan.Lib.Runs
import PicoLan.Stream.OnData

/-!
# Binding sockets

`Interface::bind` and `unbind_socket` on the list of sockets.  `bind` looks for the
port but not for room, and `unbind_socket` takes any socket of the same port off the
list; where neither does harm the answer of `bind` is kept (`bind_kept_iff`).
-/

namespace PicoLan

/-- The loop of `unbind_socket` from `i` on; what follows a removed element is
passed over. -/
def unbindLoop {α : Type} {n : Nat} (p : α → Bool) (l : BoundedList α n) (i : Nat) :
    BoundedList α n :=
  if h : i < l.toList.length then
    if p l.toList[i] then unbindLoop p (l.remove i) (i + 1) else unbindLoop p l (i + 1)
  else l
termination_by l.toList.length - i
decreasing_by
  · have := List.length_eraseIdx_le l.toList i
    show (l.toList.eraseIdx i).length - (i + 1) < _
    omega
  · omega

/-- An interface, and the sockets whose `iface` points to it. -/
structure Table extends Interface where
  iface : Nat → Bool

namespace Table

def bind (T : Table) (l : Nat) : Table × Bool :=
  if ∃ m ∈ T.sockets.toList, (T.object m).port = (T.object l).port then (T, false)
  else ({ T with
    iface := Function.update T.iface l true
    sockets := T.sockets.append l }, true)

def unbindSocket (T : Table) (l : Nat) : Table :=
  { T with sockets := unbindLoop (fun m => (T.object m).port == (T.object l).port) T.sockets 0 }

end Table

/-! ## Whom the handler calls -/

namespace Interface

variable (F : OnFull UInt8)

/-- One pass of the handler's loop, with the sockets whose `on_data` was called. -/
def offerLogged (a : Arrival) (io : (Interface × List (Nat × DatagramPack)) × List Nat) (l : Nat) :
    (Interface × List (Nat × DatagramPack)) × List Nat :=
  (offer F a io.1 l, if (io.1.1.object l).port = a.pack.port then io.2 ++ [l] else io.2)

/-- The sockets whose `on_data` the handler calls, in order. -/
def handed (I : Interface) (a : Arrival) : List Nat :=
  if a.pack.destAddr = I.address ∨ a.pack.destAddr = broadcastAddr ∨
      a.pack.destAddr = multicastAddr then
    (I.sockets.toList.foldl (offerLogged F a) ((I, []), [])).2
  else []

theorem foldl_offerLogged_fst (a : Arrival) (ls : List Nat)
    (io : (Interface × List (Nat × DatagramPack)) × List Nat) :
    (ls.foldl (offerLogged F a) io).1 = ls.foldl (offer F a) io.1 := by
  induction ls generalizing io with
  | nil => rfl
  | cons l ls ih => exact ih (offerLogged F a io l)

theorem receive_port (address : UInt8) (a : Arrival) (b : Bound) :
    (b.receive F address a).1.port = b.port := by
  cases b with
  | stream k s => exact (SocketStream.receive_reaction F k s address a).remote.2
  | datagram s => rfl

theorem offer_port (a : Arrival) (io : Interface × List (Nat × DatagramPack)) (l m : Nat) :
    ((offer F a io l).1.object m).port = (io.1.object m).port := by
  by_cases h : l = m
  · subst h
    unfold offer
    split
    · show (Function.update io.1.object l _ l).port = _
      rw [Function.update_self, receive_port]
    · rfl
  · rw [(offer_other F a io m l h).1]

theorem foldl_offer_ports (a : Arrival) (ls : List Nat) (io : Interface × List (Nat × DatagramPack))
    (m : Nat) : ((ls.foldl (offer F a) io).1.object m).port = (io.1.object m).port := by
  induction ls generalizing io with
  | nil => rfl
  | cons l ls ih => exact (ih (offer F a io l)).trans (offer_port F a io l m)

theorem handler_port (I : Interface) (a : Arrival) (m : Nat) :
    ((I.datagramPackHandler F a).1.object m).port = (I.object m).port := by
  unfold datagramPackHandler
  split
  · exact foldl_offer_ports F a _ _ m
  · rfl

theorem foldl_offerLogged_snd (a : Arrival) (ls : List Nat)
    (io : (Interface × List (Nat × DatagramPack)) × List Nat) :
    (ls.foldl (offerLogged F a) io).2 =
      io.2 ++ ls.filter fun l => (io.1.1.object l).port = a.pack.port := by
  induction ls generalizing io with
  | nil => exact (List.append_nil _).symm
  | cons l ls ih =>
    have hport : (fun m => decide (((offerLogged F a io l).1.1.object m).port = a.pack.port)) =
        fun m => decide ((io.1.1.object m).port = a.pack.port) := by
      funext m
      rw [offerLogged, offer_port]
    rw [List.foldl_cons, ih, hport, List.filter_cons]
    unfold offerLogged
    by_cases h : (io.1.1.object l).port = a.pack.port
    · simp [h]
    · simp [h]

/-- The log is that of the handler. -/
theorem handler_logged (I : Interface) (a : Arrival)
    (h : a.pack.destAddr = I.address ∨ a.pack.destAddr = broadcastAddr ∨
      a.pack.destAddr = multicastAddr) :
    I.datagramPackHandler F a = (I.sockets.toList.foldl (offerLogged F a) ((I, []), [])).1 := by
  unfold datagramPackHandler
  rw [if_pos h, foldl_offerLogged_fst]

theorem handed_eq (I : Interface) (a : Arrival) :
    I.handed F a = I.sockets.toList.filter fun l => a.IsFor I.address (I.object l).port := by
  unfold handed Arrival.IsFor
  split
  · next h => simp [foldl_offerLogged_snd, h]
  · next h => simp [h]

end Interface

/-! ## Taking sockets off the list -/

section

variable {α : Type} {n : Nat} (p : α → Bool)

theorem unbindLoop_of_none (l : BoundedList α n) (i : Nat) (h : ∀ a ∈ l.toList, p a = false) :
    unbindLoop p l i = l := by
  fun_induction unbindLoop p l i with
  | case1 l i hi hp => exact absurd hp (by simp [h _ (List.getElem_mem hi)])
  | case2 l i hi hp ih => exact ih h
  | case3 l i hi => rfl

/-- Of a list in which `p` holds at most once nothing is passed over. -/
theorem unbindLoop_unique (l : BoundedList α n) (i : Nat)
    (hpre : ∀ a ∈ l.toList.take i, p a = false) (hone : (l.toList.filter p).length ≤ 1) :
    (unbindLoop p l i).toList = l.toList.filter fun a => !p a := by
  fun_induction unbindLoop p l i with
  | case1 l i hi hp =>
    have hsplit : l.toList = l.toList.take i ++ l.toList[i] :: l.toList.drop (i + 1) := by
      rw [List.getElem_cons_drop, List.take_append_drop]
    have hpost : ∀ a ∈ l.toList.drop (i + 1), p a = false := by
      rw [hsplit, List.filter_append, List.filter_cons_of_pos hp, List.length_append,
        List.length_cons] at hone
      have hnil : (l.toList.drop (i + 1)).filter p = [] := List.length_eq_zero_iff.mp (by omega)
      intro a ha
      exact Bool.eq_false_iff.mpr (List.filter_eq_nil_iff.mp hnil a ha)
    have hrest : (l.remove i).toList = l.toList.take i ++ l.toList.drop (i + 1) :=
      List.eraseIdx_eq_take_drop_succ _ _
    have hnone : ∀ a ∈ (l.remove i).toList, p a = false := by
      intro a ha
      rw [hrest] at ha
      exact (List.mem_append.mp ha).elim (hpre a) (hpost a)
    have hkeep : ∀ as : List α, (∀ a ∈ as, p a = false) → as.filter (fun a => !p a) = as :=
      fun as h => List.filter_eq_self.mpr fun a ha => by rw [h a ha]; rfl
    rw [unbindLoop_of_none p _ _ hnone, hrest]
    conv_rhs => rw [hsplit, List.filter_append, List.filter_cons_of_neg (by simp [hp]),
      hkeep _ hpre, hkeep _ hpost]
  | case2 l i hi hp ih =>
    refine ih (fun a ha => ?_) hone
    rw [List.take_succ_eq_append_getElem hi] at ha
    rcases List.mem_append.mp ha with ha | ha
    · exact hpre a ha
    · obtain rfl := List.mem_singleton.mp ha
      exact Bool.eq_false_iff.mpr hp
  | case3 l i hi =>
    rw [List.take_of_length_le (by omega)] at hpre
    exact (List.filter_eq_self.mpr fun a ha => by rw [hpre a ha]; rfl).symm

end

namespace Table

/-- No two sockets on the list have one port. -/
def Distinct (T : Table) : Prop := (T.sockets.toList.map fun l => (T.object l).port).Nodup

variable {T : Table}

theorem Distinct.eq (h : T.Distinct) {l m : Nat} (hl : l ∈ T.sockets.toList)
    (hm : m ∈ T.sockets.toList) (hp : (T.object l).port = (T.object m).port) : l = m :=
  List.inj_on_of_nodup_map h hl hm hp

/-- The one socket of a port. -/
theorem Distinct.filter_port (h : T.Distinct) {l : Nat} (hl : l ∈ T.sockets.toList) :
    (T.sockets.toList.filter fun m => (T.object m).port = (T.object l).port) = [l] := by
  calc (T.sockets.toList.filter fun m => (T.object m).port = (T.object l).port)
      = T.sockets.toList.filter (· == l) := by
        refine List.filter_congr fun m hm => ?_
        rw [Bool.beq_eq_decide_eq]
        refine decide_eq_decide.mpr ⟨fun hp => h.eq hm hl hp, ?_⟩
        rintro rfl
        rfl
    _ = List.replicate (T.sockets.toList.count l) l := List.filter_beq l
    _ = [l] := by
        rw [(List.Nodup.of_map _ h).count, if_pos hl]
        rfl

/-- A socket on the list gets every datagram for its port, once and alone. -/
theorem Distinct.handed (F : OnFull UInt8) (h : T.Distinct) {l : Nat} (hl : l ∈ T.sockets.toList)
    {a : Arrival} (ha : a.IsFor T.address (T.object l).port) : T.handed F a = [l] := by
  have hfor : ∀ m, a.IsFor T.address (T.object m).port ↔ (T.object m).port = (T.object l).port :=
    fun m => ⟨fun hm => hm.2.trans ha.2.symm, fun hp => ⟨ha.1, hp.trans ha.2⟩⟩
  rw [Interface.handed_eq]
  simp only [hfor]
  exact h.filter_port hl

theorem Distinct.filter_length (h : T.Distinct) (q : UInt8) :
    (T.sockets.toList.filter fun m => (T.object m).port == q).length ≤ 1 := by
  by_cases hq : ∃ l ∈ T.sockets.toList, (T.object l).port = q
  · obtain ⟨l, hl, rfl⟩ := hq
    have := congrArg List.length (h.filter_port hl)
    exact Nat.le_of_eq this
  · have hnil : (T.sockets.toList.filter fun m => (T.object m).port == q) = [] :=
      List.filter_eq_nil_iff.mpr fun m hm hp => hq ⟨m, hm, beq_iff_eq.mp hp⟩
    rw [hnil]
    exact Nat.zero_le 1

theorem Distinct.unbindSocket_toList (h : T.Distinct) (l : Nat) :
    (T.unbindSocket l).sockets.toList =
      T.sockets.toList.filter fun m => !((T.object m).port == (T.object l).port) :=
  unbindLoop_unique _ T.sockets 0 (fun a ha => (by cases ha)) (h.filter_length _)

/-- `unbind_socket` takes the socket with that port off the list. -/
theorem Distinct.mem_unbindSocket (h : T.Distinct) (l m : Nat) :
    m ∈ (T.unbindSocket l).sockets.toList ↔
      m ∈ T.sockets.toList ∧ (T.object m).port ≠ (T.object l).port := by
  rw [h.unbindSocket_toList, List.mem_filter]
  simp

theorem Distinct.unbindSocket (h : T.Distinct) (l : Nat) : (T.unbindSocket l).Distinct := by
  show ((T.unbindSocket l).sockets.toList.map _).Nodup
  rw [h.unbindSocket_toList]
  exact (List.filter_sublist.map _).nodup h

theorem Distinct.receives (F : OnFull UInt8) (h : T.Distinct) (a : Arrival) :
    ({ T with toInterface := (T.toInterface.datagramPackHandler F a).1 } : Table).Distinct := by
  unfold Distinct
  dsimp only
  rw [(Interface.handler_address F _ a).2]
  simp only [Interface.handler_port]
  exact h

/-- What `bind` can do. -/
theorem bind_cases (T : Table) (l : Nat) :
    ((∃ m ∈ T.sockets.toList, (T.object m).port = (T.object l).port) ∧ T.bind l = (T, false)) ∨
    ((∀ m ∈ T.sockets.toList, (T.object m).port ≠ (T.object l).port) ∧
      T.bind l = ({ T with
        iface := Function.update T.iface l true
        sockets := T.sockets.append l }, true)) := by
  unfold bind
  by_cases h : ∃ m ∈ T.sockets.toList, (T.object m).port = (T.object l).port
  · exact .inl ⟨h, if_pos h⟩
  · exact .inr ⟨fun m hm hp => h ⟨m, hm, hp⟩, if_neg h⟩

theorem Distinct.bind (h : T.Distinct) (l : Nat) : (T.bind l).1.Distinct := by
  obtain ⟨-, heq⟩ | ⟨hnew, heq⟩ := T.bind_cases l
  · rw [heq]
    exact h
  · rw [heq]
    show ((T.sockets.append l).toList.map fun m => (T.object m).port).Nodup
    rw [BoundedList.append_toList]
    refine (List.Sublist.map _ (List.take_sublist _ _)).nodup ?_
    rw [List.map_append, List.map_singleton, List.nodup_append]
    refine ⟨h, List.nodup_singleton _, fun p hp q hq => ?_⟩
    obtain ⟨m, hm, rfl⟩ := List.mem_map.mp hp
    obtain rfl := List.mem_singleton.mp hq
    exact hnew m hm

/-- **A refusal changes nothing.** -/
theorem bind_false (T : Table) (l : Nat) (h : (T.bind l).2 = false) : (T.bind l).1 = T := by
  obtain ⟨-, heq⟩ | ⟨-, heq⟩ := T.bind_cases l
  · rw [heq]
  · rw [heq] at h
    cases h

end Table

/-! ## Runs -/

/-- What can happen to an interface. -/
inductive TableAction where
  | bind (l : Nat)
  | unbindSocket (l : Nat)
  | datagram (a : Arrival)

/-- A table with the sockets whose `bind` has returned true and that have not been
unbound since. -/
structure Registry where
  table : Table
  promised : Nat → Bool

namespace Registry

variable (F : OnFull UInt8)

def step (R : Registry) : TableAction → Option Registry
  | .bind l => some
    { table := (R.table.bind l).1
      promised := if (R.table.bind l).2 then Function.update R.promised l true else R.promised }
  | .unbindSocket l => some
    { table := R.table.unbindSocket l
      promised := Function.update R.promised l false }
  | .datagram a => some
    { R with table := { R.table with
        toInterface := (R.table.toInterface.datagramPackHandler F a).1 } }

/-- `bind` tells the truth in this state. -/
structure Truthful (R : Registry) : Prop where
  distinct : R.table.Distinct
  refused : ∀ l, (R.table.bind l).2 = false → (R.table.bind l).1 = R.table
  handed : ∀ l, R.promised l = true → ∀ a : Arrival,
    a.IsFor R.table.address (R.table.object l).port → R.table.handed F a = [l]

/-- There is room for a socket whose port is free, and who has another one's port
is not unbound. -/
def Careful (R : Registry) : TableAction → Prop
  | .bind l => (∀ m ∈ R.table.sockets.toList, (R.table.object m).port ≠ (R.table.object l).port) →
      R.table.sockets.size < 16
  | .unbindSocket l => ∀ m ∈ R.table.sockets.toList,
      (R.table.object m).port = (R.table.object l).port → m = l
  | .datagram _ => True

instance (R : Registry) : ∀ c, Decidable (R.Careful c)
  | .bind _ => inferInstanceAs (Decidable (_ → _))
  | .unbindSocket _ => inferInstanceAs (Decidable (∀ m ∈ R.table.sockets.toList, _))
  | .datagram _ => inferInstanceAs (Decidable True)

/-- The list holds the sockets that are to be on it. -/
structure Listed (R : Registry) : Prop where
  distinct : R.table.Distinct
  mem_iff : ∀ l, l ∈ R.table.sockets.toList ↔ R.promised l = true

variable {R R' : Registry}

theorem step_distinct {c : TableAction} (h : R.table.Distinct) (hstep : R.step F c = some R') :
    R'.table.Distinct := by
  cases c with
  | bind l =>
    cases hstep
    exact h.bind l
  | unbindSocket l =>
    cases hstep
    exact h.unbindSocket l
  | datagram a =>
    cases hstep
    exact h.receives F a

theorem Listed.truthful (h : R.Listed) : R.Truthful F where
  distinct := h.distinct
  refused := R.table.bind_false
  handed l hl _ ha := h.distinct.handed F ((h.mem_iff l).mpr hl) ha

/-! ### Careful steps -/

theorem Listed.step {c : TableAction} (h : R.Listed) (hc : R.Careful c)
    (hstep : R.step F c = some R') : R'.Listed := by
  refine ⟨step_distinct F h.distinct hstep, fun m => ?_⟩
  cases c with
  | bind l =>
    cases hstep
    obtain ⟨-, heq⟩ | ⟨hnew, heq⟩ := R.table.bind_cases l
    · rw [heq]
      exact h.mem_iff m
    · have hroom : R.table.sockets.toList.length + 1 ≤ 16 := hc hnew
      have happ := R.table.sockets.appendAll_of_fits [l] hroom
      rw [heq]
      show m ∈ (R.table.sockets.appendAll [l]).toList ↔ Function.update R.promised l true m = true
      rw [happ, List.mem_append, List.mem_singleton, h.mem_iff]
      by_cases hm : m = l
      · rw [hm, Function.update_self]
        simp
      · rw [Function.update_of_ne hm]
        exact or_iff_left hm
  | unbindSocket l =>
    cases hstep
    rw [h.distinct.mem_unbindSocket, h.mem_iff]
    show _ ↔ Function.update R.promised l false m = true
    by_cases hm : m = l
    · rw [hm, Function.update_self]
      simp
    · rw [Function.update_of_ne hm]
      refine and_iff_left_of_imp fun hl hp => ?_
      exact hm (hc m ((h.mem_iff m).mpr hl) hp)
  | datagram a =>
    cases hstep
    dsimp only
    rw [(Interface.handler_address F _ a).2]
    exact h.mem_iff m

/-! ### Careless ones -/

/-- A datagram for the socket `l`. -/
def datagramFor (R : Registry) (l : Nat) : Arrival where
  pack := ⟨6, 0, R.table.address, (R.table.object l).port, .empty⟩
  behind _ := 0

theorem not_truthful {l : Nat} (hl : R.promised l = true)
    (hnone : ∀ m ∈ R.table.sockets.toList, (R.table.object m).port ≠ (R.table.object l).port) :
    ¬ R.Truthful F := by
  intro h
  have hhanded := h.handed l hl (R.datagramFor l) ⟨.inl rfl, rfl⟩
  have hmem : l ∈ R.table.handed F (R.datagramFor l) := by
    rw [hhanded]
    exact List.mem_singleton_self l
  rw [Interface.handed_eq, List.mem_filter] at hmem
  exact hnone l hmem.1 rfl

theorem Listed.step_careless {c : TableAction} (h : R.Listed) (hc : ¬ R.Careful c)
    (hstep : R.step F c = some R') : ¬ R'.Truthful F := by
  cases c with
  | bind l =>
    cases hstep
    obtain ⟨hnew, hfull⟩ := Classical.not_imp.mp hc
    obtain ⟨⟨m, hm, hp⟩, -⟩ | ⟨-, heq⟩ := R.table.bind_cases l
    · exact absurd hp (hnew m hm)
    have hsame : (R.table.sockets.append l) = R.table.sockets := dif_neg hfull
    rw [heq, hsame]
    refine not_truthful F (l := l) ?_ hnew
    exact Function.update_self ..
  | unbindSocket l =>
    cases hstep
    unfold Careful at hc
    simp only [not_forall] at hc
    obtain ⟨m, hm, hp, hne⟩ := hc
    refine not_truthful F (l := m) ?_ fun k hk hpk => ?_
    · show Function.update R.promised l false m = true
      rw [Function.update_of_ne hne]
      exact (h.mem_iff m).mp hm
    · exact ((h.distinct.mem_unbindSocket l k).mp hk).2 (hpk.trans hp)
  | datagram a => exact absurd trivial hc

theorem Listed.run {as : List TableAction} (h : R.Listed) :
    Runs.Meets (Registry.step F) (fun R c => ∀ R', R.step F c = some R' → R'.Truthful F) R as ↔
      Runs.Meets (Registry.step F) (fun R c => R.Careful c) R as := by
  refine Runs.Meets.congr_of_invariant (I := Registry.Listed)
    (fun R c R' _ h hc hstep => h.step F hc hstep) (fun R c _ h => ?_) h
  constructor
  · intro hnow
    by_contra hc
    cases hstep : R.step F c with
    | none => cases c <;> cases hstep
    | some R' => exact h.step_careless F hc hstep (hnow R' hstep)
  · exact fun hc R' hstep => (h.step F hc hstep).truthful F

/-- Nothing has been bound yet. -/
structure New (R : Registry) : Prop where
  sockets : R.table.sockets = .empty
  promised : ∀ l, R.promised l = false

theorem New.listed (h : R.New) : R.Listed := by
  constructor
  · unfold Table.Distinct
    rw [h.sockets]
    exact List.nodup_nil
  · intro l
    rw [h.sockets, h.promised]
    exact iff_of_false (List.not_mem_nil) Bool.false_ne_true

end Registry

/-- **`bind` and its word.**  In every run the ports on the list differ, and a `bind`
that returns false changes nothing.  Every socket for which `bind` returned true
gets every datagram for its port, once and alone, as long as it is not unbound, if
and only if no socket with a free port is bound to a full list and no socket is
unbound while another one with its port is on it. -/
theorem bind_kept_iff (F : OnFull UInt8) (R : Registry) (hR : R.New) (as : List TableAction)
    (R' : Registry) (h : Runs.run (Registry.step F) R as = some R') :
    (R'.table.Distinct ∧ ∀ l, (R'.table.bind l).2 = false → (R'.table.bind l).1 = R'.table) ∧
    (Runs.Meets (Registry.step F) (fun R c => ∀ R', R.step F c = some R' → R'.Truthful F) R as ↔
      Runs.Meets (Registry.step F) (fun R c => R.Careful c) R as) := by
  refine ⟨⟨?_, R'.table.bind_false⟩, hR.listed.run F⟩
  exact Runs.run_always (fun R c R' hd hstep => Registry.step_distinct F hd hstep)
    hR.listed.distinct h

/-! ## Seventeen sockets -/

/-- No socket is bound; the port of the socket `l` is `l`. -/
def unboundSockets : Registry where
  table :=
    { address := 1
      sockets := .empty
      object l := .datagram { port := UInt8.ofNat l, ringbuf := .empty 64 }
      iface _ := false }
  promised _ := false

theorem twoSockets_kept : ∃ R, Runs.run (Registry.step (OnFull.refuse UInt8)) unboundSockets
      [.bind 80, .bind 81, .unbindSocket 80] = some R ∧
    Runs.Meets (Registry.step (OnFull.refuse UInt8))
      (fun R c => ∀ R', R.step (OnFull.refuse UInt8) c = some R' →
        R'.Truthful (OnFull.refuse UInt8))
      unboundSockets [.bind 80, .bind 81, .unbindSocket 80] :=
  ⟨_, rfl, (bind_kept_iff (OnFull.refuse UInt8) unboundSockets ⟨rfl, fun _ => rfl⟩
    [.bind 80, .bind 81, .unbindSocket 80] _ rfl).2.mpr (by decide +kernel)⟩

/-- The last of seventeen sockets with different ports is not on the list, and a
socket is taken off it when another one with its port is unbound. -/
theorem seventeenth_lost :
    (∃ R, Runs.run (Registry.step (OnFull.refuse UInt8)) unboundSockets
        ((List.range 17).map .bind) = some R ∧ R.promised 16 = true ∧
      R.table.handed (OnFull.refuse UInt8) (R.datagramFor 16) = [] ∧
      ¬ R.Truthful (OnFull.refuse UInt8)) ∧
    ∃ R, Runs.run (Registry.step (OnFull.refuse UInt8)) unboundSockets
        [.bind 80, .unbindSocket 336] = some R ∧ R.promised 80 = true ∧
      R.table.handed (OnFull.refuse UInt8) (R.datagramFor 80) = [] ∧
      ¬ R.Truthful (OnFull.refuse UInt8) := by
  refine ⟨⟨_, rfl, by decide +kernel, by decide +kernel, ?_⟩, _, rfl, by decide +kernel,
    by decide +kernel, ?_⟩
  · exact Registry.not_truthful _ (l := 16) (by decide +kernel) (by decide +kernel)
  · exact Registry.not_truthful _ (l := 80) (by decide +kernel) (by decide +kernel)

end PicoLan
