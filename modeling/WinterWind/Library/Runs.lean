import Mathlib.Data.List.Basic

/-!
# Runs of a partial step function

A system is a step function `step : σ → ε → Option σ`: event `e` takes state `s` to `s'` when
`step s e = some s'`, and is not enabled when it is `none`. A run is a list of events.

* `Everywhere P s es`: `P` holds in every state the run `es` from `s` passes through.
* `Always ok s es`: every step of that run meets the step condition `ok`.
* `Henceforth Q R s es`: from every state of the run with `Q` on, `R` relates it to each later one.
* `Through P Q s es`: `P` holds in every state of the run, and `Q` where it ends.

Results:
* `everywhere_iff_reached`: `Everywhere` is a statement about the states reached by prefixes.
* `everywhere_of_always`: an invariant kept by every step that meets `ok` holds along every run
  whose steps all meet it.
* **`everywhere_iff_always`**: when a step that breaks `ok` also breaks `P`, the runs with `P`
  everywhere are exactly the runs whose steps all meet `ok`.
* `always_of_everywhere`: the same when a step that breaks `ok` leads to a doomed state, which can
  be left only through a state without `P`; the run must not end in a doomed state.
* `doomed_of_not_always`: the same when the doomed states cannot be left, for the end of the run.
* **`henceforth_iff_always`**: the exact rule for `Henceforth`.
* `Through.append`: one run after another.
-/

namespace WinterWind.Library

variable {σ ε : Type} (step : σ → ε → Option σ)

/-- The state after `es`, `none` when an event is not enabled at its turn. -/
def run : σ → List ε → Option σ
  | s, [] => some s
  | s, e :: es => (step s e).bind fun s' => run s' es

/-- `P` holds in every state the run passes through, the first and the last included. -/
def Everywhere (P : σ → Prop) : σ → List ε → Prop
  | s, [] => P s
  | s, e :: es => P s ∧ ∀ s', step s e = some s' → Everywhere P s' es

/-- Every step the run takes meets `ok`. -/
def Always (ok : σ → ε → Prop) : σ → List ε → Prop
  | _, [] => True
  | s, e :: es => ∀ s', step s e = some s' → ok s e ∧ Always ok s' es

variable {step}

theorem everywhere_head {P : σ → Prop} {s : σ} : ∀ {es : List ε}, Everywhere step P s es → P s
  | [], h => h
  | _ :: _, h => h.1

/-- `Everywhere` speaks of exactly the states that prefixes of the run reach. -/
theorem everywhere_iff_reached {P : σ → Prop} {es : List ε} {s : σ} :
    Everywhere step P s es ↔ ∀ pre s', pre <+: es → run step s pre = some s' → P s' := by
  induction es generalizing s with
  | nil =>
    simp only [Everywhere, List.prefix_nil]
    constructor
    · rintro h pre s' rfl hr
      obtain rfl := Option.some.inj hr
      exact h
    · intro h
      exact h [] s rfl rfl
  | cons e es ih =>
    simp only [Everywhere, ih]
    constructor
    · rintro ⟨h0, h⟩ pre s' hpre hr
      cases pre with
      | nil =>
        obtain rfl := Option.some.inj hr
        exact h0
      | cons e' pre =>
        obtain ⟨rfl, hpre'⟩ := List.cons_prefix_cons.mp hpre
        obtain ⟨s1, hs1, hr'⟩ := Option.bind_eq_some_iff.mp hr
        exact h s1 hs1 pre s' hpre' hr'
    · intro h
      refine ⟨h [] s (List.nil_prefix) rfl, fun s1 hs1 pre s' hpre hr => ?_⟩
      refine h (e :: pre) s' (List.cons_prefix_cons.mpr ⟨rfl, hpre⟩) ?_
      simp only [run, hs1, Option.bind_some]
      exact hr

/-- What holds everywhere holds at the end. -/
theorem everywhere_last {P : σ → Prop} {es : List ε} {s t : σ} (h : Everywhere step P s es)
    (hrun : run step s es = some t) : P t :=
  everywhere_iff_reached.mp h es t (List.prefix_refl es) hrun

theorem run_append (s : σ) (fs : List ε) : ∀ es : List ε,
    run step s (es ++ fs) = (run step s es).bind fun t => run step t fs
  | [] => rfl
  | e :: es => by
    rw [List.cons_append, run, run, Option.bind_assoc]
    exact Option.bind_congr fun s' _ => run_append s' fs es

theorem always_trivial : ∀ (es : List ε) (s : σ), Always step (fun _ _ => True) s es
  | [], _ => trivial
  | _ :: es, _ => fun s' _ => ⟨trivial, always_trivial es s'⟩

theorem always_cons {ok : σ → ε → Prop} {s s' : σ} {e : ε} {es : List ε}
    (h : step s e = some s') (hok : ok s e) (hs : Always step ok s' es) :
    Always step ok s (e :: es) := fun t ht => by
  obtain rfl := Option.some.inj (h.symm.trans ht)
  exact ⟨hok, hs⟩

section Invariant

variable {P Inv : σ → Prop} {ok : σ → ε → Prop}

/-- **The invariant rule.** What every step meeting `ok` keeps holds along every run whose steps
all meet `ok`. -/
theorem everywhere_of_always (hP : ∀ s, Inv s → P s)
    (hstep : ∀ s e s', Inv s → step s e = some s' → ok s e → Inv s') :
    ∀ {es : List ε} {s : σ}, Inv s → Always step ok s es → Everywhere step P s es
  | [], s, hs, _ => hP s hs
  | e :: _, s, hs, h =>
    ⟨hP s hs, fun s' hs' =>
      everywhere_of_always hP hstep (hstep s e s' hs hs' (h s' hs').1) (h s' hs').2⟩

/-- **The exact rule.** When, moreover, a step from a good state that breaks `ok` leads to a
state without `P`, no other run has `P` everywhere. -/
theorem everywhere_iff_always (hP : ∀ s, Inv s → P s)
    (hstep : ∀ s e s', Inv s → step s e = some s' → ok s e → Inv s')
    (hbad : ∀ s e s', Inv s → step s e = some s' → ¬ ok s e → ¬ P s') :
    ∀ {es : List ε} {s : σ}, Inv s → (Everywhere step P s es ↔ Always step ok s es)
  | [], s, hs => ⟨fun _ => trivial, fun _ => hP s hs⟩
  | e :: _, s, hs => by
    refine ⟨fun h s' hs' => ?_, everywhere_of_always hP hstep hs⟩
    have hok : ok s e := by
      by_contra hn
      exact hbad s e s' hs hs' hn (everywhere_head (h.2 s' hs'))
    exact ⟨hok, (everywhere_iff_always hP hstep hbad (hstep s e s' hs hs' hok)).mp (h.2 s' hs')⟩

variable {D : σ → Prop}

/-- A run that leaves the doomed states passes through a state without `P`. -/
theorem not_everywhere_of_doomed (hdoom : ∀ s e s', D s → step s e = some s' → D s' ∨ ¬ P s') :
    ∀ {es : List ε} {s t : σ}, D s → run step s es = some t → ¬ D t → ¬ Everywhere step P s es
  | [], s, t, hs, hrun, ht, _ => by
    obtain rfl := Option.some.inj hrun
    exact ht hs
  | e :: es, s, t, hs, hrun, ht, h => by
    obtain ⟨s', hs', hrun'⟩ := Option.bind_eq_some_iff.mp hrun
    rcases hdoom s e s' hs hs' with hd | hn
    · exact not_everywhere_of_doomed hdoom hd hrun' ht (h.2 s' hs')
    · exact hn (everywhere_head (h.2 s' hs'))

/-- The delayed exact rule, when a step from a good state that breaks `ok` leads to a doomed state
or at once to one without `P`. -/
theorem always_of_everywhere_or
    (hstep : ∀ s e s', Inv s → step s e = some s' → ok s e → Inv s')
    (hbad : ∀ s e s', Inv s → step s e = some s' → ¬ ok s e → D s' ∨ ¬ P s')
    (hdoom : ∀ s e s', D s → step s e = some s' → D s' ∨ ¬ P s') :
    ∀ {es : List ε} {s t : σ}, Inv s → run step s es = some t → ¬ D t →
      Everywhere step P s es → Always step ok s es
  | [], _, _, _, _, _, _ => trivial
  | e :: es, s, t, hs, hrun, ht, h => fun s' hs' => by
    have hrun' : run step s' es = some t := by
      obtain ⟨s'', hs'', hrun'⟩ := Option.bind_eq_some_iff.mp hrun
      obtain rfl := Option.some.inj (hs'.symm.trans hs'')
      exact hrun'
    have hok : ok s e := by
      by_contra hn
      rcases hbad s e s' hs hs' hn with hd | hp
      · exact not_everywhere_of_doomed hdoom hd hrun' ht (h.2 s' hs')
      · exact hp (everywhere_head (h.2 s' hs'))
    exact ⟨hok, always_of_everywhere_or hstep hbad hdoom (hstep s e s' hs hs' hok) hrun' ht
      (h.2 s' hs')⟩

/-- **The delayed exact rule.** When a step from a good state that breaks `ok` leads to a doomed
state, a run with `P` everywhere that does not end in a doomed state meets `ok` at every step. -/
theorem always_of_everywhere
    (hstep : ∀ s e s', Inv s → step s e = some s' → ok s e → Inv s')
    (hbad : ∀ s e s', Inv s → step s e = some s' → ¬ ok s e → D s')
    (hdoom : ∀ s e s', D s → step s e = some s' → D s' ∨ ¬ P s') {es : List ε} {s t : σ}
    (hs : Inv s) (hrun : run step s es = some t) (ht : ¬ D t) (h : Everywhere step P s es) :
    Always step ok s es :=
  always_of_everywhere_or hstep (fun s e s' hs h hn => Or.inl (hbad s e s' hs h hn)) hdoom hs hrun
    ht h

/-- **The rule of no return.** When a step from a good state that breaks `ok` leads to a doomed
state, and no step leads out of the doomed states, a run that breaks `ok` ends in one. -/
theorem doomed_of_not_always
    (hstep : ∀ s e s', Inv s → step s e = some s' → ok s e → Inv s')
    (hbad : ∀ s e s', Inv s → step s e = some s' → ¬ ok s e → D s')
    (hdoom : ∀ s e s', D s → step s e = some s' → D s') :
    ∀ {es : List ε} {s t : σ}, Inv s → run step s es = some t → ¬ Always step ok s es → D t
  | [], _, _, _, _, hn => absurd trivial hn
  | e :: es, s, t, hs, hrun, hn => by
    obtain ⟨s', hs', hrun'⟩ := Option.bind_eq_some_iff.mp hrun
    by_cases hok : ok s e
    · refine doomed_of_not_always hstep hbad hdoom (hstep s e s' hs hs' hok) hrun' fun ha => ?_
      exact hn (always_cons hs' hok ha)
    · have hd : D s' := hbad s e s' hs hs' hok
      refine everywhere_last
        (everywhere_of_always (fun _ h => h) ?_ hd (always_trivial es s')) hrun'
      exact fun s e s' h hstep' _ => hdoom s e s' h hstep'

end Invariant

/-! ## From a state on -/

section Henceforth

variable (step) in
/-- From every state of the run with `Q` on, `R` relates it to each later state of the run. -/
def Henceforth (Q : σ → Prop) (R : σ → σ → Prop) : σ → List ε → Prop
  | s, [] => Q s → R s s
  | s, e :: es =>
    (Q s → Everywhere step (R s) s (e :: es)) ∧ ∀ s', step s e = some s' → Henceforth Q R s' es

variable {Q : σ → Prop} {R : σ → σ → Prop} {ok : σ → ε → Prop}

/-- `Henceforth` speaks of exactly the pairs of states that a prefix of the run reaches and that
a longer prefix reaches from there. -/
theorem henceforth_iff_reached {es : List ε} {s : σ} :
    Henceforth step Q R s es ↔ ∀ pre mid t u, pre ++ mid <+: es → run step s pre = some t → Q t →
      run step t mid = some u → R t u := by
  induction es generalizing s with
  | nil =>
    simp only [Henceforth, List.prefix_nil, List.append_eq_nil_iff]
    constructor
    · rintro h pre mid t u ⟨rfl, rfl⟩ ht hQ hu
      obtain rfl := Option.some.inj ht
      obtain rfl := Option.some.inj hu
      exact h hQ
    · intro h hQ
      exact h [] [] s s ⟨rfl, rfl⟩ rfl hQ rfl
  | cons e es ih =>
    simp only [Henceforth, ih]
    constructor
    · rintro ⟨h0, h⟩ pre mid t u hpre ht hQ hu
      cases pre with
      | nil =>
        obtain rfl := Option.some.inj ht
        exact everywhere_iff_reached.mp (h0 hQ) mid u hpre hu
      | cons e' pre =>
        obtain ⟨rfl, hpre'⟩ := List.cons_prefix_cons.mp hpre
        obtain ⟨s1, hs1, ht'⟩ := Option.bind_eq_some_iff.mp ht
        exact h s1 hs1 pre mid t u hpre' ht' hQ hu
    · intro h
      refine ⟨fun hQ => everywhere_iff_reached.mpr fun mid u hpre hu => ?_,
        fun s1 hs1 pre mid t u hpre ht hQ hu => ?_⟩
      · exact h [] mid s u hpre rfl hQ hu
      · refine h (e :: pre) mid t u (List.cons_prefix_cons.mpr ⟨rfl, hpre⟩) ?_ hQ hu
        simp only [run, hs1, Option.bind_some]
        exact ht

/-- **The exact rule for `Henceforth`.** `Q` and `R` are kept by the steps that meet `ok`, and a
step that does not meet `ok` starts in a state with `Q` and breaks `R` at once. -/
theorem henceforth_iff_always (hrefl : ∀ s, Q s → R s s)
    (hstep : ∀ s e s', Q s → step s e = some s' → ok s e → Q s' ∧ R s s')
    (htrans : ∀ s t u, R s t → R t u → R s u)
    (hbad : ∀ s e s', step s e = some s' → ¬ ok s e → Q s ∧ ¬ R s s') :
    ∀ {es : List ε} {s : σ}, Henceforth step Q R s es ↔ Always step ok s es
  | [], s => ⟨fun _ => trivial, fun _ => hrefl s⟩
  | e :: es, s => by
    have ih : ∀ s', Henceforth step Q R s' es ↔ Always step ok s' es := fun _ =>
      henceforth_iff_always hrefl hstep htrans hbad
    refine ⟨fun h s' hs' => ⟨?_, (ih s').mp (h.2 s' hs')⟩, fun h => ⟨fun hQ => ?_, fun s' hs' =>
      (ih s').mpr (h s' hs').2⟩⟩
    · by_contra hn
      obtain ⟨hQ, hR⟩ := hbad s e s' hs' hn
      exact hR (everywhere_head ((h.1 hQ).2 s' hs'))
    · have hinv : ∀ t e' t', Q t ∧ R s t → step t e' = some t' → ok t e' → Q t' ∧ R s t' := by
        intro t e' t' ht ht' hok
        obtain ⟨hQ', hR'⟩ := hstep t e' t' ht.1 ht' hok
        exact ⟨hQ', htrans s t t' ht.2 hR'⟩
      exact everywhere_of_always (fun _ ht => ht.2) hinv ⟨hQ, hrefl s hQ⟩ h

end Henceforth

/-! ## Runs between two conditions -/

section Through

variable {P P' Q R : σ → Prop} {s : σ} {es fs : List ε}

variable (step) in
/-- Every state the run passes through has `P`, and the one it ends in has `Q`. -/
def Through (P Q : σ → Prop) (s : σ) (es : List ε) : Prop :=
  Everywhere step P s es ∧ ∀ t, run step s es = some t → Q t

theorem through_nil (hP : P s) (hQ : Q s) : Through step P Q s [] :=
  ⟨hP, fun _ ht => Option.some.inj ht ▸ hQ⟩

theorem through_cons {e : ε} (hP : P s) (h : ∀ t, step s e = some t → Through step P Q t es) :
    Through step P Q s (e :: es) := by
  refine ⟨⟨hP, fun t ht => (h t ht).1⟩, fun u hu => ?_⟩
  obtain ⟨t, ht, hrun⟩ := Option.bind_eq_some_iff.mp hu
  exact (h t ht).2 u hrun

/-- **One run after another.** -/
theorem Through.append (h : Through step P Q s es) (hf : ∀ t, Q t → Through step P R t fs) :
    Through step P R s (es ++ fs) := by
  induction es generalizing s with
  | nil => exact hf s (h.2 s rfl)
  | cons e es ih =>
    refine through_cons h.1.1 fun t ht => ih ⟨h.1.2 t ht, fun u hu => h.2 u ?_⟩
    rw [run, ht]
    exact hu

theorem Through.mono (h : Through step P Q s es) (hP : ∀ t, P t → P' t) :
    Through step P' Q s es := by
  refine ⟨everywhere_iff_reached.mpr fun pre t hpre ht => ?_, h.2⟩
  exact hP t (everywhere_iff_reached.mp h.1 pre t hpre ht)

end Through

end WinterWind.Library
