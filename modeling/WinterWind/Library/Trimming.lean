import Mathlib.Data.List.DropRight

/-!
# Trimming a list

`Trimmed p s r` says that `r` is `s` without what `p` holds of at its two ends, and has nothing more
of it there. `r` may be empty; else it goes from the first to the last element that `p` fails on.

Results:
* **`trimmed_iff`**: it is what two calls of `dropWhile` leave, one from each end.
* `Trimmed.trans`: trimming once is enough.
-/

namespace WinterWind.Library

variable {α : Type} {p : α → Bool} {s r : List α}

/-- `r` is `s`, trimmed. -/
structure Trimmed (p : α → Bool) (s r : List α) : Prop where
  surrounded : ∃ before after, s = before ++ r ++ after ∧
    (∀ c ∈ before, p c = true) ∧ ∀ c ∈ after, p c = true
  first : ∀ c, r.head? = some c → p c = false
  last : ∀ c, r.getLast? = some c → p c = false

theorem trimmed_dropWhile (p : α → Bool) (s : List α) :
    Trimmed p s ((s.dropWhile p).rdropWhile p) where
  surrounded := by
    refine ⟨s.takeWhile p, (s.dropWhile p).rtakeWhile p, ?_, fun c hc => ?_, fun c hc => ?_⟩
    · rw [List.append_assoc, List.rdropWhile_append_rtakeWhile, List.takeWhile_append_dropWhile]
    · exact List.mem_takeWhile_imp hc
    · exact List.mem_rtakeWhile_imp hc
  first := fun c hc => by
    obtain ⟨t, ht⟩ := List.rdropWhile_prefix p (s.dropWhile p)
    have hhead : (s.dropWhile p).head? = some c := by
      rw [← ht, List.head?_append, hc, Option.some_or]
    simpa [hhead] using List.head?_dropWhile_not p s
  last := fun c hc => by
    have hne : (s.dropWhile p).rdropWhile p ≠ [] := by
      intro hnil
      rw [hnil] at hc
      cases hc
    have hnot := List.rdropWhile_last_not p (s.dropWhile p) hne
    rw [List.getLast?_eq_some_getLast hne, Option.some.injEq] at hc
    rw [hc] at hnot
    exact Bool.eq_false_iff.mpr hnot

/-- **Trimming leaves one list.** -/
theorem trimmed_iff : Trimmed p s r ↔ r = (s.dropWhile p).rdropWhile p := by
  refine ⟨fun h => ?_, fun h => h ▸ trimmed_dropWhile p s⟩
  obtain ⟨before, after, rfl, hbefore, hafter⟩ := h.surrounded
  rw [List.append_assoc, List.dropWhile_append_of_pos hbefore]
  cases r with
  | nil =>
    rw [List.nil_append, List.dropWhile_eq_nil_iff.mpr hafter, List.rdropWhile_nil]
  | cons c r =>
    have hc := h.first c rfl
    have hlast : p ((c :: r).getLast (List.cons_ne_nil c r)) = false :=
      h.last _ (List.getLast?_eq_some_getLast _)
    have hself : (c :: r).rdropWhile p = c :: r :=
      List.rdropWhile_eq_self_iff.mpr fun _ => Bool.eq_false_iff.mp hlast
    rw [List.cons_append, List.dropWhile_cons_of_neg (Bool.eq_false_iff.mp hc), ← List.cons_append,
      List.rdropWhile, List.reverse_append,
      List.dropWhile_append_of_pos fun c hc => hafter c (List.mem_reverse.mp hc)]
    exact hself.symm

/-- What is trimmed stays as it is. -/
theorem Trimmed.trans (h : Trimmed p s r) : (r.dropWhile p).rdropWhile p = r := by
  refine (trimmed_iff.mp ⟨⟨[], [], ?_, ?_, ?_⟩, h.first, h.last⟩).symm
  · rw [List.nil_append, List.append_nil]
  · exact fun c hc => absurd hc List.not_mem_nil
  · exact fun c hc => absurd hc List.not_mem_nil

end WinterWind.Library
