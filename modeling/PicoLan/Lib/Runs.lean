import Mathlib.Data.List.Basic
import Mathlib.Tactic.Common

/-!
# Runs of a partial step function

`run` takes the labels of a list one after the other.  A property of all states
that a run reaches is proved once for the start and once for a step
(`run_invariant`); `Meets` says that every step of the run satisfies a condition
on the state before it and its label, and `Reaches` that some such run leads from
one state to another.
-/

namespace Runs

variable {σ α : Type*} (step : σ → α → Option σ)

/-- `none` when one of the steps is not available. -/
def run : σ → List α → Option σ
  | s, [] => some s
  | s, a :: as => (step s a).bind fun t => run t as

/-- Every step taken meets `ok`. -/
def Meets (ok : σ → α → Prop) : σ → List α → Prop
  | _, [] => True
  | s, a :: as => ok s a ∧ ∀ t, step s a = some t → Meets ok t as

instance Meets.decidable {ok : σ → α → Prop} [∀ s a, Decidable (ok s a)] :
    ∀ (s : σ) (as : List α), Decidable (Meets step ok s as)
  | _, [] => isTrue trivial
  | s, a :: as =>
    match h : step s a with
    | none => decidable_of_iff (ok s a) (by simp [Meets, h])
    | some t =>
      have : Decidable (Meets step ok t as) := Meets.decidable t as
      decidable_of_iff (ok s a ∧ Meets step ok t as) (by simp [Meets, h])

variable {step}

/-- What is kept by every step that meets the condition can be used with it. -/
theorem Meets.imp_of_invariant {ok ok' : σ → α → Prop} {I : σ → Prop}
    (hstep : ∀ s a t, I s → ok s a → step s a = some t → I t)
    (h : ∀ s a, I s → ok s a → ok' s a) {s : σ} {as : List α} (hs : I s)
    (hok : Meets step ok s as) : Meets step ok' s as := by
  induction as generalizing s with
  | nil => trivial
  | cons a as ih => exact ⟨h s a hs hok.1, fun t ht => ih (hstep s a t hs hok.1 ht) (hok.2 t ht)⟩

theorem Meets.imp {ok ok' : σ → α → Prop} (h : ∀ s a, ok s a → ok' s a) {s : σ} {as : List α}
    (hok : Meets step ok s as) : Meets step ok' s as :=
  hok.imp_of_invariant (I := fun _ => True) (fun _ _ _ _ _ _ => trivial) (fun s a _ => h s a) trivial

/-- Conditions that agree under an invariant. -/
theorem Meets.congr_of_invariant {ok ok' : σ → α → Prop} {I : σ → Prop} {as : List α}
    (hstep : ∀ s a t, a ∈ as → I s → ok' s a → step s a = some t → I t)
    (h : ∀ s a, a ∈ as → I s → (ok s a ↔ ok' s a)) {s : σ} (hs : I s) :
    Meets step ok s as ↔ Meets step ok' s as := by
  induction as generalizing s with
  | nil => exact Iff.rfl
  | cons a as ih =>
    have hnow := h s a List.mem_cons_self hs
    have hthen : ok' s a → ∀ t, step s a = some t → (Meets step ok t as ↔ Meets step ok' t as) :=
      fun ha t ht => ih (fun s b t hb => hstep s b t (List.mem_cons_of_mem a hb))
        (fun s b hb => h s b (List.mem_cons_of_mem a hb))
        (hstep s a t List.mem_cons_self hs ha ht)
    constructor
    · rintro ⟨ha, hrest⟩
      exact ⟨hnow.mp ha, fun t ht => (hthen (hnow.mp ha) t ht).mp (hrest t ht)⟩
    · rintro ⟨ha, hrest⟩
      exact ⟨hnow.mpr ha, fun t ht => (hthen ha t ht).mpr (hrest t ht)⟩

theorem run_cons {s u : σ} {a : α} {as : List α} :
    run step s (a :: as) = some u ↔ ∃ t, step s a = some t ∧ run step t as = some u :=
  Option.bind_eq_some_iff

/-- The same along a run, whose steps all exist. -/
theorem Meets.congr_of_run {ok ok' : σ → α → Prop} {I : σ → Prop} {as : List α}
    (h : ∀ s a t, a ∈ as → I s → step s a = some t → (ok s a ↔ ok' s a) ∧ (ok' s a → I t))
    {s u : σ} (hs : I s) (hrun : run step s as = some u) :
    Meets step ok s as ↔ Meets step ok' s as := by
  induction as generalizing s with
  | nil => exact Iff.rfl
  | cons a as ih =>
    obtain ⟨t, ht, hrun⟩ := run_cons.mp hrun
    obtain ⟨hnow, hkeep⟩ := h s a t List.mem_cons_self hs ht
    have hthen : ok' s a → (Meets step ok t as ↔ Meets step ok' t as) :=
      fun ha => ih (fun s b t hb => h s b t (List.mem_cons_of_mem a hb)) (hkeep ha) hrun
    have honly : ∀ {P : σ → Prop}, P t → ∀ t', step s a = some t' → P t' := by
      intro P hP t' ht'
      cases ht.symm.trans ht'
      exact hP
    constructor
    · rintro ⟨ha, hrest⟩
      exact ⟨hnow.mp ha, honly ((hthen (hnow.mp ha)).mp (hrest t ht))⟩
    · rintro ⟨ha, hrest⟩
      exact ⟨hnow.mpr ha, honly ((hthen ha).mpr (hrest t ht))⟩

/-- What holds at the start and is kept by every step that meets the condition
holds of every state reached. -/
theorem run_invariant {ok : σ → α → Prop} {I : σ → Prop}
    (hstep : ∀ s a t, I s → ok s a → step s a = some t → I t) {s t : σ} {as : List α}
    (hs : I s) (hok : Meets step ok s as) (h : run step s as = some t) : I t := by
  induction as generalizing s with
  | nil => cases h; exact hs
  | cons a as ih =>
    obtain ⟨u, hu, h⟩ := run_cons.mp h
    exact ih (hstep s a u hs hok.1 hu) (hok.2 u hu) h

/-- The same for runs without a condition. -/
theorem run_always {I : σ → Prop} (hstep : ∀ s a t, I s → step s a = some t → I t) {s t : σ}
    {as : List α} (hs : I s) (h : run step s as = some t) : I t := by
  induction as generalizing s with
  | nil => cases h; exact hs
  | cons a as ih =>
    obtain ⟨u, hu, h⟩ := run_cons.mp h
    exact ih (hstep s a u hs hu) h

/-! ## Reachability -/

/-- Some run whose steps all meet `ok` leads from `s` to `t`. -/
def Reaches (step : σ → α → Option σ) (ok : σ → α → Prop) (s t : σ) : Prop :=
  ∃ as, Meets step ok s as ∧ run step s as = some t

namespace Reaches

variable {ok : σ → α → Prop} {s t u : σ}

theorem refl (s : σ) : Reaches step ok s s := ⟨[], trivial, rfl⟩

theorem head {a : α} (hok : ok s a) (hstep : step s a = some t) (h : Reaches step ok t u) :
    Reaches step ok s u := by
  obtain ⟨as, has, hrun⟩ := h
  refine ⟨a :: as, ⟨hok, fun t' ht' => ?_⟩, run_cons.mpr ⟨t, hstep, hrun⟩⟩
  obtain rfl : t = t' := by injection hstep.symm.trans ht'
  exact has

theorem single {a : α} (hok : ok s a) (hstep : step s a = some t) : Reaches step ok s t :=
  head hok hstep (refl t)

theorem trans (h : Reaches step ok s t) (h' : Reaches step ok t u) : Reaches step ok s u := by
  obtain ⟨as, has, hrun⟩ := h
  induction as generalizing s with
  | nil =>
    cases hrun
    exact h'
  | cons a as ih =>
    obtain ⟨v, hv, hrun⟩ := run_cons.mp hrun
    exact head has.1 hv (ih (has.2 v hv) hrun)

theorem invariant {I : σ → Prop} (hstep : ∀ s a t, I s → ok s a → step s a = some t → I t)
    (h : Reaches step ok s t) (hs : I s) : I t := by
  obtain ⟨as, has, hrun⟩ := h
  exact run_invariant hstep hs has hrun

end Reaches

end Runs
