import Mathlib.Data.List.Forall2
import Mathlib.Data.Nat.ModEq
import Mathlib.Tactic.Common

/-!
# Fletcher's checksum

Two running sums modulo `m`: of the symbols, and of the first sums.  A step can be
undone when its symbol is known, so two lists that differ in a window of two symbols
have the same sums only if they agree modulo `m` (`sums_eq_iff`).
-/

namespace Fletcher

/-- One symbol more. -/
def step (m : Nat) (s : Nat × Nat) (x : Nat) : Nat × Nat :=
  ((s.1 + x) % m, (s.2 + (s.1 + x) % m) % m)

def sums (m : Nat) (s : Nat × Nat) (xs : List Nat) : Nat × Nat := xs.foldl (step m) s

variable {m : Nat}

theorem sums_append (s : Nat × Nat) (xs ys : List Nat) :
    sums m s (xs ++ ys) = sums m (sums m s xs) ys :=
  List.foldl_append

/-- Both sums are reduced. -/
def Reduced (m : Nat) (s : Nat × Nat) : Prop := s.1 < m ∧ s.2 < m

theorem sums_reduced {s : Nat × Nat} (hs : Reduced m s) (xs : List Nat) :
    Reduced m (sums m s xs) := by
  induction xs generalizing s with
  | nil => exact hs
  | cons x xs ih =>
    have hm : 0 < m := Nat.zero_lt_of_lt hs.1
    exact ih ⟨Nat.mod_lt _ hm, Nat.mod_lt _ hm⟩

/-! ## Sums modulo `m` -/

/-- Equal modulo `m` in both sums. -/
def Congr (m : Nat) (s t : Nat × Nat) : Prop := s.1 ≡ t.1 [MOD m] ∧ s.2 ≡ t.2 [MOD m]

theorem Reduced.eq_iff {s t : Nat × Nat} (hs : Reduced m s) (ht : Reduced m t) :
    s = t ↔ Congr m s t := by
  constructor
  · rintro rfl
    exact ⟨rfl, rfl⟩
  · intro h
    exact Prod.ext (h.1.eq_of_lt_of_lt hs.1 ht.1) (h.2.eq_of_lt_of_lt hs.2 ht.2)

theorem step_congr {s t : Nat × Nat} {x y : Nat} : Congr m (step m s x) (step m t y) ↔
    s.1 + x ≡ t.1 + y [MOD m] ∧ s.2 ≡ t.2 [MOD m] := by
  have hfst : (step m s x).1 ≡ (step m t y).1 [MOD m] ↔ s.1 + x ≡ t.1 + y [MOD m] := by
    unfold step Nat.ModEq
    rw [Nat.mod_mod, Nat.mod_mod]
  have hsnd : (step m s x).2 ≡ (step m t y).2 [MOD m] ↔
      s.2 + (step m s x).1 ≡ t.2 + (step m t y).1 [MOD m] := by
    unfold step Nat.ModEq
    rw [Nat.mod_mod, Nat.mod_mod]
  unfold Congr
  constructor
  · rintro ⟨h₁, h₂⟩
    exact ⟨hfst.mp h₁, h₁.add_iff_right.mp (hsnd.mp h₂)⟩
  · rintro ⟨h₁, h₂⟩
    exact ⟨hfst.mpr h₁, hsnd.mpr (h₂.add (hfst.mpr h₁))⟩

/-- A known symbol can be taken back. -/
theorem step_congr_state {s t : Nat × Nat} {x : Nat} :
    Congr m (step m s x) (step m t x) ↔ Congr m s t := by
  rw [step_congr, (Nat.ModEq.refl x).add_iff_right]
  rfl

theorem sums_congr_state {s t : Nat × Nat} (xs : List Nat) :
    Congr m (sums m s xs) (sums m t xs) ↔ Congr m s t := by
  induction xs generalizing s t with
  | nil => rfl
  | cons x xs ih => exact ih.trans step_congr_state

theorem step_congr_symbol {s : Nat × Nat} {x y : Nat} :
    Congr m (step m s x) (step m s y) ↔ x ≡ y [MOD m] := by
  rw [step_congr, (Nat.ModEq.refl s.1).add_iff_left]
  exact and_iff_left rfl

/-- The second sum fixes the first of two symbols, and with it the first sum fixes
the other. -/
theorem step_congr_pair {s : Nat × Nat} {x x' y y' : Nat} :
    Congr m (step m (step m s x) x') (step m (step m s y) y') ↔
      x ≡ y [MOD m] ∧ x' ≡ y' [MOD m] := by
  rw [step_congr]
  have hfirst : (step m s x).2 ≡ (step m s y).2 [MOD m] ↔ x ≡ y [MOD m] := by
    constructor
    · intro h
      have h : s.2 + (s.1 + x) ≡ s.2 + (s.1 + y) [MOD m] := by
        simpa [step, Nat.ModEq] using h
      exact (h.add_left_cancel' s.2).add_left_cancel' s.1
    · exact fun h => (step_congr_symbol.mpr h).2
  rw [hfirst, and_comm]
  refine and_congr_right fun h => ?_
  exact (step_congr_symbol.mpr h).1.add_iff_left

/-! ## A window of two symbols -/

theorem sums_congr_window {s : Nat × Nat} : ∀ {us vs : List Nat}, us.length = vs.length →
    us.length ≤ 2 →
      (Congr m (sums m s us) (sums m s vs) ↔ List.Forall₂ (· ≡ · [MOD m]) us vs)
  | [], [], _, _ => iff_of_true ⟨rfl, rfl⟩ .nil
  | [x], [y], _, _ => by
    rw [List.forall₂_cons]
    exact step_congr_symbol.trans (and_iff_left .nil).symm
  | [x, x'], [y, y'], _, _ => by
    rw [List.forall₂_cons, List.forall₂_cons]
    exact step_congr_pair.trans (and_congr_right fun _ => (and_iff_left .nil).symm)
  | _ :: _ :: _ :: _, _, _, h => absurd h (by simp)

theorem sums_split (s : Nat × Nat) (xs : List Nat) (i : Nat) : sums m s xs =
    sums m (sums m (sums m s (xs.take i)) ((xs.drop i).take 2)) (xs.drop (i + 2)) := by
  rw [← sums_append, ← sums_append, ← List.drop_drop, List.take_append_drop,
    List.take_append_drop]

theorem forall₂_split {α β : Type*} {R : α → β → Prop} {xs : List α} {ys : List β} (i : Nat) :
    List.Forall₂ R xs ys ↔ List.Forall₂ R (xs.take i) (ys.take i) ∧
      List.Forall₂ R ((xs.drop i).take 2) ((ys.drop i).take 2) ∧
      List.Forall₂ R (xs.drop (i + 2)) (ys.drop (i + 2)) := by
  constructor
  · intro h
    exact ⟨List.forall₂_take i h, List.forall₂_take 2 (List.forall₂_drop i h),
      List.forall₂_drop (i + 2) h⟩
  · rintro ⟨hpre, hwin, hsuf⟩
    rw [← List.drop_drop, ← List.drop_drop] at hsuf
    have hrest := List.rel_append hwin hsuf
    simp only [List.take_append_drop] at hrest
    have h := List.rel_append hpre hrest
    simp only [List.take_append_drop] at h
    exact h

/-- **Two lists that agree outside of a window of two symbols.** -/
theorem sums_eq_iff {s : Nat × Nat} (hs : Reduced m s) {xs ys : List Nat}
    (hlen : xs.length = ys.length) {i : Nat} (hpre : xs.take i = ys.take i)
    (hsuf : xs.drop (i + 2) = ys.drop (i + 2)) :
    sums m s xs = sums m s ys ↔ List.Forall₂ (· ≡ · [MOD m]) xs ys := by
  have hsame : ∀ zs : List Nat, List.Forall₂ (· ≡ · [MOD m]) zs zs :=
    fun zs => List.forall₂_same.mpr fun z _ => Nat.ModEq.refl z
  have hwin : ((xs.drop i).take 2).length = ((ys.drop i).take 2).length := by
    simp only [List.length_take, List.length_drop, hlen]
  calc sums m s xs = sums m s ys
      ↔ Congr m (sums m s xs) (sums m s ys) :=
        (sums_reduced hs xs).eq_iff (sums_reduced hs ys)
    _ ↔ Congr m (sums m (sums m s (xs.take i)) ((xs.drop i).take 2))
          (sums m (sums m s (xs.take i)) ((ys.drop i).take 2)) := by
        rw [sums_split s xs i, sums_split s ys i, ← hpre, ← hsuf, sums_congr_state]
    _ ↔ List.Forall₂ (· ≡ · [MOD m]) ((xs.drop i).take 2) ((ys.drop i).take 2) :=
        sums_congr_window hwin (List.length_take_le 2 _)
    _ ↔ List.Forall₂ (· ≡ · [MOD m]) xs ys := by
        constructor
        · intro h
          refine (forall₂_split i).mpr ⟨?_, h, ?_⟩
          · rw [hpre]
            exact hsame _
          · rw [hsuf]
            exact hsame _
        · exact fun h => ((forall₂_split i).mp h).2.1

end Fletcher
