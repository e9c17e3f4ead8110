import Mathlib.Data.List.Basic
import Mathlib.Tactic.Common

/-!
# Bounded sequences

`BoundedList α n`: at most `n` elements, appending to a full one stores nothing.
-/

structure BoundedList (α : Type) (n : Nat) where
  toList : List α
  length_le : toList.length ≤ n
deriving DecidableEq, Repr

namespace BoundedList

variable {α : Type} {n : Nat}

theorem ext {l l' : BoundedList α n} (h : l.toList = l'.toList) : l = l' := by
  cases l; cases l'; cases h; rfl

def empty : BoundedList α n := ⟨[], Nat.zero_le _⟩

def size (l : BoundedList α n) : Nat := l.toList.length

def append (l : BoundedList α n) (a : α) : BoundedList α n :=
  if h : l.toList.length < n then ⟨l.toList ++ [a], by rw [List.length_append]; exact h⟩ else l

def appendAll (l : BoundedList α n) (as : List α) : BoundedList α n := as.foldl append l

/-- The elements behind `i` move up. -/
def remove (l : BoundedList α n) (i : Nat) : BoundedList α n :=
  ⟨l.toList.eraseIdx i, Nat.le_trans (List.length_eraseIdx_le ..) l.length_le⟩

theorem append_toList (l : BoundedList α n) (a : α) :
    (l.append a).toList = (l.toList ++ [a]).take n := by
  have hl := l.length_le
  unfold append
  split
  · next h => exact (List.take_of_length_le (by rw [List.length_append]; exact h)).symm
  · next h =>
    have hn : n = l.toList.length := by omega
    rw [List.take_append_of_le_length (by omega), List.take_of_length_le (by omega)]

theorem take_take_append (xs ys : List α) : (xs.take n ++ ys).take n = (xs ++ ys).take n := by
  rcases Nat.le_total xs.length n with h | h
  · rw [List.take_of_length_le h]
  · rw [List.take_append_of_le_length h,
      List.take_append_of_le_length (by rw [List.length_take]; omega), List.take_take, Nat.min_self]

/-- Of what is appended, the first elements are kept. -/
theorem appendAll_toList (l : BoundedList α n) (as : List α) :
    (l.appendAll as).toList = (l.toList ++ as).take n := by
  induction as generalizing l with
  | nil => simp [appendAll, List.take_of_length_le l.length_le]
  | cons a as ih =>
    show ((l.append a).appendAll as).toList = _
    rw [ih, append_toList, take_take_append, List.append_assoc, List.singleton_append]

theorem appendAll_of_fits (l : BoundedList α n) (as : List α) (h : l.toList.length + as.length ≤ n) :
    (l.appendAll as).toList = l.toList ++ as := by
  rw [appendAll_toList, List.take_of_length_le (by simpa using h)]

theorem empty_appendAll (l : BoundedList α n) : empty.appendAll l.toList = l := by
  apply ext
  rw [appendAll_of_fits _ _ (by simpa [empty] using l.length_le)]
  rfl

end BoundedList
