import Mathlib.Data.List.Basic
import Mathlib.Tactic.Common

/-!
# Loads from a memory, by index

A computation that may load any cell of a memory (`Nat → α`) and go on with what it
finds.  It is a tree and not a function of the memory, so its result can depend on
nothing but the cells it loads (`value_congr`).
-/

inductive Access (α β : Type) where
  | done (b : β)
  | load (i : Nat) (k : α → Access α β)

namespace Access

variable {α β γ : Type}

def bind : Access α β → (β → Access α γ) → Access α γ
  | done b, f => f b
  | load i k, f => load i fun a => (k a).bind f

instance : Monad (Access α) where
  pure := done
  bind := bind

/-- The content of cell `i`. -/
def cell (i : Nat) : Access α α := load i done

/-- The contents of `n` cells from `pos` on. -/
def cells : Nat → Nat → Access α (List α)
  | _, 0 => pure []
  | pos, n + 1 => do
    let a ← cell pos
    let as ← cells (pos + 1) n
    pure (a :: as)

/-- The result over the memory `mem`. -/
def value (mem : Nat → α) : Access α β → β
  | done b => b
  | load i k => (k (mem i)).value mem

/-- The cells loaded, in order. -/
def loads (mem : Nat → α) : Access α β → List Nat
  | done _ => []
  | load i k => i :: (k (mem i)).loads mem

variable (mem : Nat → α)

@[simp] theorem value_pure (b : β) : value mem (pure b : Access α β) = b := rfl

@[simp] theorem loads_pure (b : β) : loads mem (pure b : Access α β) = [] := rfl

-- the brackets keep `simp` from rewriting a condition without its `Decidable` instance
@[simp] theorem value_cell (i : Nat) : value mem (cell i) = mem i := (rfl)

@[simp] theorem loads_cell (i : Nat) : loads mem (cell i) = [i] := rfl

@[simp] theorem value_bind (x : Access α β) (f : β → Access α γ) :
    value mem (x >>= f) = value mem (f (value mem x)) := by
  induction x with
  | done b => rfl
  | load i k ih => exact ih (mem i)

@[simp] theorem loads_bind (x : Access α β) (f : β → Access α γ) :
    loads mem (x >>= f) = loads mem x ++ loads mem (f (value mem x)) := by
  induction x with
  | done b => rfl
  | load i k ih => exact congrArg (i :: ·) (ih (mem i))

@[simp] theorem value_ite (p : Prop) [Decidable p] (x y : Access α β) :
    value mem (if p then x else y) = if p then value mem x else value mem y :=
  apply_ite (value mem) p x y

@[simp] theorem value_cells (pos n : Nat) :
    value mem (cells pos n) = (List.range' pos n).map mem := by
  induction n generalizing pos with
  | zero => rfl
  | succ n ih => simp [cells, ih, List.range'_succ]

@[simp] theorem loads_cells (pos n : Nat) : loads mem (cells pos n) = List.range' pos n := by
  induction n generalizing pos with
  | zero => rfl
  | succ n ih => simp [cells, ih, List.range'_succ]

variable {mem}

/-- **Only the cells loaded matter.** -/
theorem value_congr {mem' : Nat → α} {x : Access α β} (h : ∀ i ∈ x.loads mem, mem i = mem' i) :
    x.value mem = x.value mem' := by
  induction x with
  | done b => rfl
  | load i k ih =>
    have hi : mem i = mem' i := h i List.mem_cons_self
    show (k (mem i)).value mem = (k (mem' i)).value mem'
    rw [← hi]
    exact ih (mem i) fun j hj => h j (List.mem_cons_of_mem i hj)

/-- Every load is below `n`. -/
def Below (n : Nat) (mem : Nat → α) (x : Access α β) : Prop := ∀ i ∈ x.loads mem, i < n

@[simp] theorem below_pure (n : Nat) (b : β) : Below n mem (pure b : Access α β) :=
  fun i hi => (by cases hi)

@[simp] theorem below_cell (n i : Nat) : Below n mem (cell i) ↔ i < n := by
  simp [Below]

@[simp] theorem below_bind (n : Nat) (x : Access α β) (f : β → Access α γ) :
    Below n mem (x >>= f) ↔ Below n mem x ∧ Below n mem (f (value mem x)) := by
  simp only [Below, loads_bind, List.mem_append, or_imp, forall_and]

@[simp] theorem below_ite (n : Nat) (p : Prop) [Decidable p] (x y : Access α β) :
    Below n mem (if p then x else y) ↔ if p then Below n mem x else Below n mem y := by
  split <;> rfl

/-- A loop that stops at the bound. -/
@[simp] theorem below_cells_sub (n pos : Nat) : Below n mem (cells pos (n - pos)) := by
  intro i hi
  rw [loads_cells, List.mem_range'_1] at hi
  omega

theorem Below.value_congr {n : Nat} {mem' : Nat → α} {x : Access α β} (h : x.Below n mem)
    (hmem : ∀ i < n, mem i = mem' i) : x.value mem = x.value mem' :=
  Access.value_congr fun i hi => hmem i (h i hi)

end Access
