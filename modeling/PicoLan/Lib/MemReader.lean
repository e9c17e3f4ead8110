import Mathlib.Data.List.Basic
import Mathlib.Tactic.Common

/-!
# Reading a memory cell by cell

A cursor walks over a memory (`Nat → α`) and keeps a log of the cells loaded.
`Reads r bs v` is the triple of such a reader: wherever the cells ahead are `bs`,
`r` returns `v` having loaded exactly these cells.  Triples compose along `>>=`
(`Reads.bind`), and a triple that holds of the cells actually ahead fixes both
the loads and the result (`Reads.run`).
-/

namespace MemReader

structure Cursor (α : Type) where
  mem : Nat → α
  pos : Nat
  loads : List Nat

abbrev Reader (α : Type) := StateM (Cursor α)

variable {α β γ : Type}

/-- A cursor that has loaded nothing yet. -/
def start (mem : Nat → α) (pos : Nat) : Cursor α := { mem, pos, loads := [] }

/-- The cell under the cursor; the cursor moves on. -/
def next : Reader α α := fun c =>
  (c.mem c.pos, { c with pos := c.pos + 1, loads := c.loads ++ [c.pos] })

def Cursor.advance (c : Cursor α) (n : Nat) : Cursor α :=
  { c with pos := c.pos + n, loads := c.loads ++ List.range' c.pos n }

/-- The `n` cells from `pos` on. -/
def cells (mem : Nat → α) (pos : Nat) : Nat → List α
  | 0 => []
  | n + 1 => mem pos :: cells mem (pos + 1) n

@[simp] theorem length_cells (mem : Nat → α) (pos n : Nat) : (cells mem pos n).length = n := by
  induction n generalizing pos with
  | zero => rfl
  | succ n ih => simp [cells, ih]

theorem cells_add (mem : Nat → α) (pos m n : Nat) :
    cells mem pos (m + n) = cells mem pos m ++ cells mem (pos + m) n := by
  induction m generalizing pos with
  | zero => simp [cells]
  | succ m ih =>
    rw [Nat.add_right_comm, cells, ih, cells, List.cons_append]
    congr 3
    omega

theorem getElem_cells (mem : Nat → α) (pos n i : Nat) (h : i < (cells mem pos n).length) :
    (cells mem pos n)[i] = mem (pos + i) := by
  induction n generalizing pos i with
  | zero => simp [cells] at h
  | succ n ih =>
    cases i with
    | zero => rfl
    | succ i =>
      simp only [cells, List.getElem_cons_succ]
      rw [ih]
      congr 1
      omega

theorem cells_congr (mem mem' : Nat → α) (pos n : Nat)
    (h : ∀ i, pos ≤ i → i < pos + n → mem i = mem' i) : cells mem pos n = cells mem' pos n := by
  apply List.ext_getElem
  · simp
  · intro i h1 h2
    rw [length_cells] at h1
    rw [getElem_cells, getElem_cells, h _ (by omega) (by omega)]

theorem advance_zero (c : Cursor α) : c.advance 0 = c := by simp [Cursor.advance]

theorem advance_add (c : Cursor α) (m n : Nat) : (c.advance m).advance n = c.advance (m + n) := by
  simp only [Cursor.advance, List.append_assoc, Nat.add_assoc, List.range'_append_1]

/-- Wherever the cells ahead are `bs`, `r` returns `v` and loads just these. -/
def Reads (r : Reader α β) (bs : List α) (v : β) : Prop :=
  ∀ c : Cursor α, cells c.mem c.pos bs.length = bs → r c = (v, c.advance bs.length)

theorem Reads.pure (v : β) : Reads (α := α) (Pure.pure v) [] v := by
  intro c _
  show (v, c) = _
  rw [List.length_nil, advance_zero]

theorem Reads.next (b : α) : Reads next [b] b := by
  intro c h
  simp only [List.length_singleton, cells, List.cons.injEq, and_true] at h
  simp [MemReader.next, Cursor.advance, h]

theorem Reads.bind {r : Reader α β} {f : β → Reader α γ} {bs bs' : List α} {v : β} {w : γ}
    (h : Reads r bs v) (h' : Reads (f v) bs' w) : Reads (r >>= f) (bs ++ bs') w := by
  intro c hc
  rw [List.length_append, cells_add] at hc
  obtain ⟨h1, h2⟩ := List.append_inj hc (length_cells ..)
  show f (r c).1 (r c).2 = _
  rw [h c h1]
  show f v (c.advance bs.length) = _
  rw [h' _ h2, advance_add, List.length_append]

theorem Reads.bind_pure {r : Reader α β} {bs : List α} {v : β} (f : β → γ) (h : Reads r bs v) :
    Reads (r >>= fun x => Pure.pure (f x)) bs (f v) := by
  have hf : Reads (Pure.pure (f v)) ([] : List α) (f v) := Reads.pure (f v)
  rw [← List.append_nil bs]
  exact h.bind hf

/-- What a reader does to a memory whose cells it is known to read. -/
theorem Reads.run {r : Reader α β} {bs : List α} {v : β} (h : Reads r bs v) (mem : Nat → α)
    (pos : Nat) (hm : cells mem pos bs.length = bs) :
    (r (start mem pos)).1 = v ∧ (r (start mem pos)).2.loads = List.range' pos bs.length := by
  rw [h (start mem pos) hm]
  exact ⟨rfl, List.nil_append _⟩

end MemReader
