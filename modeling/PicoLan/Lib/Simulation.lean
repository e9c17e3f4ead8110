import PicoLan.Lib.Runs

/-!
# Simulations

`logged` keeps what a step function puts out.  Where every step of one system is
matched by some steps of another one (`Simulates`), so is every run (`Simulates.run`).
-/

namespace Runs

variable {σ τ ρ α β γ ω : Type*}

theorem run_append {step : σ → α → Option σ} (s : σ) (as bs : List α) :
    run step s (as ++ bs) = (run step s as).bind fun t => run step t bs := by
  induction as generalizing s with
  | nil => rfl
  | cons a as ih =>
    show (step s a).bind _ = ((step s a).bind _).bind _
    rw [Option.bind_assoc]
    exact congrArg _ (funext fun t => ih t)

theorem Meets.of_forall_mem {step : σ → α → Option σ} {ok : σ → α → Prop} {as : List α}
    (h : ∀ s, ∀ a ∈ as, ok s a) (s : σ) : Meets step ok s as := by
  induction as generalizing s with
  | nil => trivial
  | cons a as ih =>
    exact ⟨h s a List.mem_cons_self, fun t _ => ih (fun s b hb => h s b (List.mem_cons_of_mem a hb)) t⟩

theorem Meets.of_forall {step : σ → α → Option σ} {ok : σ → α → Prop} (h : ∀ s a, ok s a) (s : σ)
    (as : List α) : Meets step ok s as := Meets.of_forall_mem (fun s a _ => h s a) s

/-! ## Outputs -/

/-- A step function that puts something out, beside all that has been put out before. -/
def logged (step : σ → α → Option (σ × List ω)) (x : σ × List ω) (a : α) : Option (σ × List ω) :=
  (step x.1 a).map fun y => (y.1, x.2 ++ y.2)

section

variable {step : σ → α → Option (σ × List ω)}

theorem logged_some {x y : σ × List ω} {a : α} :
    logged step x a = some y ↔ ∃ out, step x.1 a = some (y.1, out) ∧ y.2 = x.2 ++ out := by
  constructor
  · intro h
    obtain ⟨⟨s, out⟩, hs, rfl⟩ := Option.map_eq_some_iff.mp h
    exact ⟨out, hs, rfl⟩
  · rintro ⟨out, hs, hy⟩
    exact Option.map_eq_some_iff.mpr ⟨(y.1, out), hs, Prod.ext rfl hy.symm⟩

/-- An earlier log changes nothing. -/
theorem run_logged {s t : σ} {log out : List ω} {as : List α}
    (h : run (logged step) (s, []) as = some (t, out)) :
    run (logged step) (s, log) as = some (t, log ++ out) := by
  suffices hgen : ∀ (as : List α) (s : σ) (pre : List ω),
      run (logged step) (s, log ++ pre) as =
        (run (logged step) (s, pre) as).map fun y => (y.1, log ++ y.2) by
    have := hgen as s []
    rw [List.append_nil, h] at this
    exact this
  intro as
  induction as with
  | nil => exact fun s pre => rfl
  | cons a as ih =>
    intro s pre
    show (logged step (s, log ++ pre) a).bind _ = ((logged step (s, pre) a).bind _).map _
    unfold logged
    dsimp only
    cases step s a with
    | none => rfl
    | some y =>
      show run _ (y.1, (log ++ pre) ++ y.2) as = _
      rw [List.append_assoc]
      exact ih y.1 (pre ++ y.2)

/-- One step is a run. -/
theorem run_logged_one {s t : σ} {out : List ω} {a : α} :
    run (logged step) (s, []) [a] = some (t, out) ↔ step s a = some (t, out) := by
  constructor
  · intro h
    obtain ⟨x, hx, hrun⟩ := run_cons.mp h
    cases hrun
    obtain ⟨out', hs, rfl⟩ := logged_some.mp hx
    exact hs
  · exact fun h => run_cons.mpr ⟨(t, out), logged_some.mpr ⟨out, h, rfl⟩, rfl⟩

end

/-! ## Simulations -/

/-- Steps of `stepC` that meet `okC` are matched by steps of `stepA` that meet `okA`. -/
def Simulates (stepC : σ → α → Option σ) (okC : σ → α → Prop) (stepA : τ → β → Option τ)
    (okA : τ → β → Prop) (R : σ → τ → Prop) : Prop :=
  ∀ s a s' t, R s t → okC s a → stepC s a = some s' → ∃ t', Reaches stepA okA t t' ∧ R s' t'

section

variable {stepC : σ → α → Option σ} {okC : σ → α → Prop} {stepA : τ → β → Option τ}
  {okA : τ → β → Prop} {R : σ → τ → Prop}

/-- **The simulation rule.** -/
theorem Simulates.run (h : Simulates stepC okC stepA okA R) {s s' : σ} {t : τ} {as : List α}
    (hR : R s t) (hok : Meets stepC okC s as) (hrun : Runs.run stepC s as = some s') :
    ∃ t', Reaches stepA okA t t' ∧ R s' t' := by
  induction as generalizing s t with
  | nil =>
    cases hrun
    exact ⟨t, .refl t, hR⟩
  | cons a as ih =>
    obtain ⟨u, hu, hrun⟩ := run_cons.mp hrun
    obtain ⟨v, hv, hRv⟩ := h s a u t hR hok.1 hu
    obtain ⟨t', ht', hR'⟩ := ih hRv (hok.2 u hu) hrun
    exact ⟨t', hv.trans ht', hR'⟩

end

end Runs
