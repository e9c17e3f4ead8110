import Mathlib.Data.List.Basic

/-!
# Byte stuffing

An escape symbol and a set of special symbols (the escape among them).  `stuff`
puts the escape before every special symbol; `tokens` undoes it, and says of
every symbol whether it came behind an escape.  Facts the parsers need:

* `tokens_stuff`: stuffed text gives its symbols back, the special ones escaped.
* `tokens_append`, `pending_append`: a stream may be cut anywhere, the escape
  pending at the cut being the only thing carried over.
-/

namespace Stuffing

/-- A symbol and whether an escape stood before it. -/
structure Token (α : Type) where
  escaped : Bool
  sym : α
deriving DecidableEq, Repr

structure Scheme (α : Type) where
  esc : α
  special : α → Bool
  special_esc : special esc = true

variable {α : Type}

def Scheme.stuffOne (S : Scheme α) (b : α) : List α := if S.special b then [S.esc, b] else [b]

def Scheme.stuff (S : Scheme α) : List α → List α
  | [] => []
  | b :: bs => S.stuffOne b ++ S.stuff bs

variable (S : Scheme α)

theorem Scheme.stuff_length (bs : List α) : (S.stuff bs).length ≤ 2 * bs.length := by
  induction bs with
  | nil => exact Nat.le_refl 0
  | cons b bs ih =>
    have hone : (S.stuffOne b).length ≤ 2 := by
      unfold Scheme.stuffOne
      split <;> simp
    rw [Scheme.stuff, List.length_append, List.length_cons]
    omega

variable [DecidableEq α]

/-- The symbols of a stream, read with an escape pending or not. -/
def Scheme.tokens (S : Scheme α) : Bool → List α → List (Token α)
  | _, [] => []
  | pend, b :: bs =>
    if b = S.esc ∧ pend = false then S.tokens true bs
    else ⟨pend, b⟩ :: S.tokens false bs

/-- Is an escape pending at the end of the stream? -/
def Scheme.pending (S : Scheme α) : Bool → List α → Bool
  | pend, [] => pend
  | pend, b :: bs => S.pending (decide (b = S.esc ∧ pend = false)) bs

theorem Scheme.tokens_esc (pend : Bool) (b : α) (bs : List α) (h : b = S.esc ∧ pend = false) :
    S.tokens pend (b :: bs) = S.tokens true bs := if_pos h

theorem Scheme.tokens_sym (pend : Bool) (b : α) (bs : List α) (h : ¬ (b = S.esc ∧ pend = false)) :
    S.tokens pend (b :: bs) = ⟨pend, b⟩ :: S.tokens false bs := if_neg h

theorem Scheme.pending_esc (pend : Bool) (b : α) (bs : List α) (h : b = S.esc ∧ pend = false) :
    S.pending pend (b :: bs) = S.pending true bs := by
  rw [Scheme.pending, decide_eq_true h]

theorem Scheme.pending_sym (pend : Bool) (b : α) (bs : List α) (h : ¬ (b = S.esc ∧ pend = false)) :
    S.pending pend (b :: bs) = S.pending false bs := by
  rw [Scheme.pending, decide_eq_false h]

theorem Scheme.pending_append (pend : Bool) (xs ys : List α) :
    S.pending pend (xs ++ ys) = S.pending (S.pending pend xs) ys := by
  induction xs generalizing pend with
  | nil => rfl
  | cons x xs ih => exact ih _

theorem Scheme.tokens_append (pend : Bool) (xs ys : List α) :
    S.tokens pend (xs ++ ys) = S.tokens pend xs ++ S.tokens (S.pending pend xs) ys := by
  induction xs generalizing pend with
  | nil => rfl
  | cons x xs ih =>
    rw [List.cons_append]
    by_cases h : x = S.esc ∧ pend = false
    · rw [tokens_esc S _ _ _ h, tokens_esc S _ _ _ h, pending_esc S _ _ _ h, ih]
    · rw [tokens_sym S _ _ _ h, tokens_sym S _ _ _ h, pending_sym S _ _ _ h, ih, List.cons_append]

theorem Scheme.pending_stuffOne (b : α) : S.pending false (S.stuffOne b) = false := by
  unfold Scheme.stuffOne
  split
  · simp [Scheme.pending]
  · next h =>
    have hb : b ≠ S.esc := by rintro rfl; exact h S.special_esc
    simp [Scheme.pending, hb]

theorem Scheme.tokens_stuffOne (b : α) : S.tokens false (S.stuffOne b) = [⟨S.special b, b⟩] := by
  unfold Scheme.stuffOne
  split
  · next h => simp [Scheme.tokens, h]
  · next h =>
    have hb : b ≠ S.esc := by rintro rfl; exact h S.special_esc
    simp [Scheme.tokens, hb, h]

theorem Scheme.pending_stuff (bs : List α) : S.pending false (S.stuff bs) = false := by
  induction bs with
  | nil => rfl
  | cons b bs ih => rw [Scheme.stuff, pending_append, pending_stuffOne, ih]

/-- **Stuffed text comes back**, its special symbols escaped and no other. -/
theorem Scheme.tokens_stuff (bs : List α) :
    S.tokens false (S.stuff bs) = bs.map fun b => ⟨S.special b, b⟩ := by
  induction bs with
  | nil => rfl
  | cons b bs ih =>
    rw [Scheme.stuff, tokens_append, pending_stuffOne, tokens_stuffOne, ih, List.map_cons,
      List.singleton_append]

/-- The last symbol of a stream that ends outside an escape, as a token. -/
theorem Scheme.tokens_concat (pend : Bool) (xs : List α) (c : α)
    (h : ¬ (c = S.esc ∧ S.pending pend xs = false)) :
    S.tokens pend (xs ++ [c]) = S.tokens pend xs ++ [⟨S.pending pend xs, c⟩] := by
  rw [tokens_append, tokens_sym S _ _ _ h]
  rfl

end Stuffing
