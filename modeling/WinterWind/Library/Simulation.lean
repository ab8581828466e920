import WinterWind.Library.Runs

/-!
# Simulation between labelled transition relations

`T s e s'` is a step from `s` to `s'` with the label `e`, which holds what an observer sees: the
input and the output of the step. `Trace T s es s'` is a run with the labels `es`.

`Simulates R T U`: whatever `T` does from a state that `R` relates to one of `U`, `U` can do with
the same label, and `R` relates the states after it.

Results:
* **`Simulates.trace`**: then every run of `T` is a run of `U` with the same labels.
* `Trace.invariant`: what every step with an admissible label keeps holds at the end of a run.
* `Trace.forall_labels`: what every step with an admissible label shows, from a good state, is shown
  by all labels of a run.
* `run_eq_some_iff_trace`: the runs of a partial step function are traces.
-/

namespace WinterWind.Library

variable {σ τ ε : Type}

/-- The runs of a labelled transition relation. -/
inductive Trace (T : σ → ε → σ → Prop) : σ → List ε → σ → Prop
  | nil (s : σ) : Trace T s [] s
  | cons {s t u : σ} {e : ε} {es : List ε} (h : T s e t) (rest : Trace T t es u) :
    Trace T s (e :: es) u

/-- Every step of `T` is a step of `U` with the same label, up to `R`. -/
def Simulates (R : σ → τ → Prop) (T : σ → ε → σ → Prop) (U : τ → ε → τ → Prop) : Prop :=
  ∀ s t e s', R s t → T s e s' → ∃ t', U t e t' ∧ R s' t'

variable {T : σ → ε → σ → Prop} {U : τ → ε → τ → Prop} {R : σ → τ → Prop}

/-- **Forward simulation**: the runs of `T` are runs of `U`. -/
theorem Simulates.trace (h : Simulates R T U) {s s' : σ} {t : τ} {es : List ε} (hs : R s t)
    (hrun : Trace T s es s') : ∃ t', Trace U t es t' ∧ R s' t' := by
  induction hrun generalizing t with
  | nil s => exact ⟨t, .nil t, hs⟩
  | cons hstep _ ih =>
    obtain ⟨t', ht', hs'⟩ := h _ _ _ _ hs hstep
    obtain ⟨u, hu, hend⟩ := ih hs'
    exact ⟨u, .cons ht' hu, hend⟩

theorem Trace.invariant {I : σ → Prop} {P : ε → Prop}
    (hstep : ∀ s e s', I s → P e → T s e s' → I s') {s s' : σ} {es : List ε} (hs : I s)
    (hP : ∀ e ∈ es, P e) (hrun : Trace T s es s') : I s' := by
  induction hrun with
  | nil => exact hs
  | cons h _ ih =>
    obtain ⟨he, hes⟩ := List.forall_mem_cons.mp hP
    exact ih (hstep _ _ _ hs he h) hes

theorem Trace.forall_labels {I : σ → Prop} {P Q : ε → Prop}
    (hstep : ∀ s e s', I s → P e → T s e s' → Q e ∧ I s') {s s' : σ} {es : List ε} (hs : I s)
    (hP : ∀ e ∈ es, P e) (hrun : Trace T s es s') : ∀ e ∈ es, Q e := by
  induction hrun with
  | nil => exact fun e he => absurd he List.not_mem_nil
  | cons h _ ih =>
    obtain ⟨he, hes⟩ := List.forall_mem_cons.mp hP
    obtain ⟨hQ, ht⟩ := hstep _ _ _ hs he h
    exact List.forall_mem_cons.mpr ⟨hQ, ih ht hes⟩

theorem run_eq_some_iff_trace {step : σ → ε → Option σ} {s t : σ} {es : List ε} :
    run step s es = some t ↔ Trace (fun s e s' => step s e = some s') s es t := by
  constructor
  · intro h
    induction es generalizing s with
    | nil =>
      obtain rfl := Option.some.inj h
      exact .nil s
    | cons e es ih =>
      obtain ⟨s', hs', hrun⟩ := Option.bind_eq_some_iff.mp h
      exact .cons hs' (ih hrun)
  · intro h
    induction h with
    | nil => rfl
    | cons hstep _ ih =>
      rw [run, hstep]
      exact ih

end WinterWind.Library
