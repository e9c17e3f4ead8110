import Mathlib.Data.Nat.ModEq

/-!
# Timers on a clock that wraps around

A clock shows the time modulo `n`.  A wait notes what it shows and, at every look, compares the
difference with a limit.  The difference is the time that has passed, less whole rounds of the
clock (`passed_eq`): so a wait never gives up early (`passed_le`), and one that looks often
enough never waits for longer than its limit (`goesOn`).
-/

namespace Timer

variable {n s t : Nat}

/-- What the clock shows. -/
def shown (n t : Nat) : Nat := t % n

/-- The difference of what it shows at `s` and at `t`. -/
def passed (n s t : Nat) : Nat := (n - shown n s + shown n t) % n

theorem passed_eq (hn : 0 < n) (h : s ≤ t) : passed n s t = (t - s) % n := by
  obtain ⟨d, rfl⟩ := Nat.exists_eq_add_of_le h
  have hlt : s % n < n := Nat.mod_lt s hn
  have hadd : n - s % n + (s + d) % n ≡ d [MOD n] := by
    calc n - s % n + (s + d) % n
        ≡ n - s % n + (s % n + d) [MOD n] :=
          Nat.ModEq.add_left _ ((Nat.mod_modEq _ _).trans ((Nat.mod_modEq s n).symm.add_right d))
      _ = n + d := by omega
      _ ≡ d [MOD n] := Nat.add_modEq_left
  rw [Nat.add_sub_cancel_left]
  exact hadd

/-- No more than has passed. -/
theorem passed_le (hn : 0 < n) (h : s ≤ t) : passed n s t ≤ t - s := by
  rw [passed_eq hn h]
  exact Nat.mod_le _ _

theorem passed_of_lt (h : s ≤ t) (hlt : t - s < n) : passed n s t = t - s := by
  rw [passed_eq (by omega) h, Nat.mod_eq_of_lt hlt]

/-- **A wait goes on.**  It began at `s`, was within its limit at the last look and is so
at this one: the clock has not gone round in between. -/
theorem goesOn {limit gap last : Nat} (hround : limit + gap < n) (hs : s ≤ last)
    (hlast : last ≤ s + limit) (ht : last ≤ t) (hgap : t ≤ last + gap)
    (hlook : passed n s t ≤ limit) : t ≤ s + limit := by
  rw [passed_of_lt (by omega) (by omega)] at hlook
  omega

end Timer
