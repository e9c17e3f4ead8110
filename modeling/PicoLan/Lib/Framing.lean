import Mathlib.Data.List.Basic
import Mathlib.Tactic.Common

/-!
# Messages over a stream of symbols

A decoder takes symbols one after the other and calls out messages.  `Framing` is such
a decoder with an encoding it understands whenever it is `Clean`; between two encodings
it is.  So the symbols on their way to a decoder amount to a queue of messages
(`Pending`): sending one appends it (`Pending.send`), and reading any number of symbols
takes some messages from the front (`Pending.take`).

Where nothing is known of the decoder and of the symbols on their way, nothing is lost or made
up all the same (`Carried`); and if every message leaves the decoder clean, then all symbols
are messages as soon as one has been sent (`Carried.mend`).
-/

structure Framing (σ β μ : Type*) where
  feed : σ → List β → σ × List μ
  encode : μ → List β
  Clean : σ → Prop
  feed_nil : ∀ s, feed s [] = (s, [])
  feed_append : ∀ s xs ys, feed s (xs ++ ys) =
    ((feed (feed s xs).1 ys).1, (feed s xs).2 ++ (feed (feed s xs).1 ys).2)
  feed_encode : ∀ s m, Clean s → (feed s (encode m)).2 = [m] ∧ Clean (feed s (encode m)).1

namespace Framing

variable {σ β μ : Type*} (C : Framing σ β μ)

def encodeAll (ms : List μ) : List β := ms.flatMap C.encode

theorem encodeAll_length {n : Nat} (h : ∀ m, (C.encode m).length ≤ n) (ms : List μ) :
    (C.encodeAll ms).length ≤ n * ms.length := by
  induction ms with
  | nil => exact Nat.zero_le _
  | cons m ms ih =>
    have hm := h m
    show (C.encode m ++ C.encodeAll ms).length ≤ _
    rw [List.length_append, List.length_cons, Nat.mul_succ]
    omega

/-- The symbols `bs`, on their way to a decoder in the state `s`, are the messages `ms`. -/
structure Pending (s : σ) (bs : List β) (ms : List μ) : Prop where
  decoded : (C.feed s bs).2 = ms
  clean : C.Clean (C.feed s bs).1

namespace Pending

variable {C} {s : σ} {bs : List β} {ms : List μ}

theorem nil (h : C.Clean s) : C.Pending s [] [] := by
  constructor
  · rw [C.feed_nil]
  · rw [C.feed_nil]
    exact h

theorem send (h : C.Pending s bs ms) (m : μ) : C.Pending s (bs ++ C.encode m) (ms ++ [m]) := by
  obtain ⟨hone, hclean⟩ := C.feed_encode _ m h.clean
  constructor
  · rw [C.feed_append, h.decoded, hone]
  · rw [C.feed_append]
    exact hclean

theorem sendAll (h : C.Pending s bs ms) (ms' : List μ) :
    C.Pending s (bs ++ C.encodeAll ms') (ms ++ ms') := by
  induction ms' generalizing bs ms with
  | nil =>
    show C.Pending s (bs ++ []) (ms ++ [])
    rw [List.append_nil, List.append_nil]
    exact h
  | cons m ms' ih =>
    have hrest := ih (h.send m)
    rw [List.append_assoc, List.append_assoc] at hrest
    exact hrest

/-- Reading `xs` calls out the first messages; the others are still on their way. -/
theorem take {xs ys : List β} (h : C.Pending s (xs ++ ys) ms) :
    ∃ rest, ms = (C.feed s xs).2 ++ rest ∧ C.Pending (C.feed s xs).1 ys rest := by
  refine ⟨(C.feed (C.feed s xs).1 ys).2, ?_, ⟨rfl, ?_⟩⟩
  · rw [← h.decoded, C.feed_append]
  · have hclean := h.clean
    rw [C.feed_append] at hclean
    exact hclean

end Pending

/-- Every message leaves the decoder clean, whatever it was in the middle of. -/
def Mends : Prop := ∀ s m, C.Clean (C.feed s (C.encode m)).1

variable {C} {s₀ s : σ} {bs₀ bs : List β} {got ms : List μ}

theorem Mends.pending (h : C.Mends) (s : σ) (bs : List β) (m : μ) :
    C.Pending s (bs ++ C.encode m) (C.feed s (bs ++ C.encode m)).2 := by
  refine ⟨rfl, ?_⟩
  rw [C.feed_append]
  exact h _ m

variable (C) in
/-- At first the decoder was in the state `s₀` and the symbols `bs₀` were on their way.  Since
then the messages `ms` have been sent, and now it has called out `got` and the symbols `bs` are on
their way. -/
structure Carried (s₀ : σ) (bs₀ : List β) (ms : List μ) (s : σ) (bs : List β) (got : List μ) :
    Prop where
  state : (C.feed s₀ (bs₀ ++ C.encodeAll ms)).1 = (C.feed s bs).1
  called : (C.feed s₀ (bs₀ ++ C.encodeAll ms)).2 = got ++ (C.feed s bs).2

namespace Carried

theorem start (s : σ) (bs : List β) : C.Carried s bs [] s bs [] := by
  constructor
  · exact congrArg (fun xs => (C.feed s xs).1) (List.append_nil bs)
  · exact congrArg (fun xs => (C.feed s xs).2) (List.append_nil bs)

theorem send (h : C.Carried s₀ bs₀ ms s bs got) (ms' : List μ) :
    C.Carried s₀ bs₀ (ms ++ ms') s (bs ++ C.encodeAll ms') got := by
  have hall : bs₀ ++ C.encodeAll (ms ++ ms') = bs₀ ++ C.encodeAll ms ++ C.encodeAll ms' := by
    rw [List.append_assoc]
    exact congrArg (bs₀ ++ ·) List.flatMap_append
  constructor
  · rw [hall, C.feed_append, C.feed_append s, h.state]
  · rw [hall, C.feed_append, C.feed_append s, h.state, h.called, List.append_assoc]

theorem take {xs ys : List β} (h : C.Carried s₀ bs₀ ms s (xs ++ ys) got) :
    C.Carried s₀ bs₀ ms (C.feed s xs).1 ys (got ++ (C.feed s xs).2) := by
  obtain ⟨hstate, hcalled⟩ := h
  rw [C.feed_append s] at hstate hcalled
  exact ⟨hstate, by rw [hcalled, List.append_assoc]⟩

/-- **Whatever was on its way at first**, all messages but the first arrive, behind what the
first symbols and the first message are taken for. -/
theorem mend {m : μ} (h : C.Carried s₀ bs₀ (m :: ms) s bs got) (hC : C.Mends) :
    got ++ (C.feed s bs).2 = (C.feed s₀ (bs₀ ++ C.encode m)).2 ++ ms ∧ C.Clean (C.feed s bs).1 := by
  have hpend := (hC.pending s₀ bs₀ m).sendAll ms
  rw [List.append_assoc] at hpend
  exact ⟨h.called.symm.trans hpend.decoded, h.state ▸ hpend.clean⟩

end Carried

end Framing
