import Mathlib.Data.List.Basic
import Mathlib.Tactic.Common

/-!
# Ring buffers

A FIFO of fixed capacity.  What `put` does to a full buffer is a parameter
(`OnFull`): all that is known is that the byte is not stored without losing one.
-/

/-- What `put` makes of a full buffer. -/
structure OnFull (α : Type) where
  put : List α → α → List α
  length_put_le : ∀ l a, (put l a).length ≤ l.length

namespace OnFull

/-- A full buffer refuses the element. -/
def refuse (α : Type) : OnFull α := ⟨fun l _ => l, fun _ _ => Nat.le_refl _⟩

/-- A full buffer gives up its oldest element. -/
def overwrite (α : Type) : OnFull α where
  put l a := (l ++ [a]).drop 1
  length_put_le := by
    intro l a
    rw [List.length_drop, List.length_append, List.length_singleton]
    omega

/-- What a full buffer holds after `put` are elements that were put, in order. -/
def Keeps {α : Type} (F : OnFull α) : Prop := ∀ l a, (F.put l a).Sublist (l ++ [a])

theorem refuse_keeps (α : Type) : (refuse α).Keeps := by
  intro l a
  exact List.sublist_append_left l [a]

theorem overwrite_keeps (α : Type) : (overwrite α).Keeps := by
  intro l a
  exact List.drop_sublist 1 (l ++ [a])

end OnFull

structure RingBuffer (α : Type) where
  cap : Nat
  toList : List α
  length_le : toList.length ≤ cap

namespace RingBuffer

variable {α : Type}

def empty (cap : Nat) : RingBuffer α := ⟨cap, [], Nat.zero_le _⟩

def free (r : RingBuffer α) : Nat := r.cap - r.toList.length

def put (F : OnFull α) (r : RingBuffer α) (a : α) : RingBuffer α :=
  if h : r.toList.length < r.cap then
    ⟨r.cap, r.toList ++ [a], by rw [List.length_append]; exact h⟩
  else ⟨r.cap, F.put r.toList a, Nat.le_trans (F.length_put_le _ _) r.length_le⟩

def putAll (F : OnFull α) (r : RingBuffer α) (as : List α) : RingBuffer α := as.foldl (put F) r

/-- The oldest element, when there is one. -/
def get (r : RingBuffer α) : Option (α × RingBuffer α) :=
  match r with
  | ⟨_, [], _⟩ => none
  | ⟨cap, a :: l, h⟩ => some (a, ⟨cap, l, Nat.le_of_succ_le h⟩)

/-- `get` until `n` elements have been taken or none is left. -/
def drain : Nat → RingBuffer α → List α × RingBuffer α
  | 0, r => ([], r)
  | n + 1, r =>
    match r.get with
    | none => ([], r)
    | some (a, r) =>
      let (l, r) := drain n r
      (a :: l, r)

section

variable (F : OnFull α)

@[simp] theorem put_cap (r : RingBuffer α) (a : α) : (r.put F a).cap = r.cap := by
  unfold put
  split <;> rfl

@[simp] theorem putAll_cap (r : RingBuffer α) (as : List α) : (r.putAll F as).cap = r.cap := by
  induction as generalizing r with
  | nil => rfl
  | cons a as ih => exact (ih _).trans (put_cap F r a)

theorem putAll_append (r : RingBuffer α) (as bs : List α) :
    r.putAll F (as ++ bs) = (r.putAll F as).putAll F bs :=
  List.foldl_append

theorem putAll_of_fits (r : RingBuffer α) (as : List α) (h : as.length ≤ r.free) :
    (r.putAll F as).toList = r.toList ++ as := by
  induction as generalizing r with
  | nil => exact (List.append_nil _).symm
  | cons a as ih =>
    have hlt : r.toList.length < r.cap := by
      simp only [List.length_cons, free] at h
      omega
    have hput : (r.put F a).toList = r.toList ++ [a] := by
      unfold put
      rw [dif_pos hlt]
    show ((r.put F a).putAll F as).toList = _
    rw [ih, hput, List.append_assoc, List.singleton_append]
    simp only [free, put_cap, hput, List.length_append, List.length_cons, List.length_nil] at h ⊢
    omega

/-- More than fits is not all there afterwards. -/
theorem length_putAll_lt (r : RingBuffer α) (as : List α) (h : r.free < as.length) :
    (r.putAll F as).toList.length < r.toList.length + as.length := by
  have hle := (r.putAll F as).length_le
  rw [putAll_cap] at hle
  have := r.length_le
  unfold free at h
  omega

theorem length_putAll_le (r : RingBuffer α) (as : List α) :
    (r.putAll F as).toList.length ≤ r.toList.length + as.length := by
  rcases Nat.lt_or_ge r.free as.length with h | h
  · exact Nat.le_of_lt (length_putAll_lt F r as h)
  · exact Nat.le_of_eq (by rw [putAll_of_fits F r as h, List.length_append])

theorem put_sublist (hF : F.Keeps) (r : RingBuffer α) (a : α) :
    (r.put F a).toList.Sublist (r.toList ++ [a]) := by
  unfold put
  split
  · exact List.Sublist.refl _
  · exact hF r.toList a

theorem putAll_sublist (hF : F.Keeps) (r : RingBuffer α) (as : List α) :
    (r.putAll F as).toList.Sublist (r.toList ++ as) := by
  induction as generalizing r with
  | nil => exact List.sublist_append_left r.toList []
  | cons a as ih =>
    have hput := (put_sublist F hF r a).append_right as
    rw [List.append_assoc, List.singleton_append] at hput
    exact (ih (r.put F a)).trans hput

end

theorem drain_eq (n : Nat) (r : RingBuffer α) :
    (r.drain n).1 = r.toList.take n ∧ (r.drain n).2.toList = r.toList.drop n ∧
      (r.drain n).2.cap = r.cap := by
  induction n generalizing r with
  | zero => exact ⟨rfl, rfl, rfl⟩
  | succ n ih =>
    match r with
    | ⟨cap, [], h⟩ => exact ⟨rfl, rfl, rfl⟩
    | ⟨cap, a :: l, h⟩ =>
      obtain ⟨h₁, h₂, h₃⟩ := ih ⟨cap, l, Nat.le_of_succ_le h⟩
      exact ⟨congrArg (a :: ·) h₁, h₂, h₃⟩

/-- Draining loses nothing and keeps the order. -/
theorem drain_append (n : Nat) (r : RingBuffer α) :
    (r.drain n).1 ++ (r.drain n).2.toList = r.toList := by
  obtain ⟨h₁, h₂, -⟩ := drain_eq n r
  rw [h₁, h₂, List.take_append_drop]

end RingBuffer
