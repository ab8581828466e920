import Mathlib.Data.List.Basic
import Mathlib.Logic.Relation

/-!
# Erasing occurrences of a pattern

`Erases pattern s t` takes one occurrence of the pattern out of `s`, any one; what is left of it may
form a new occurrence with what was next to it. `ErasesTo` is any number of such steps.

Results:
* `ErasesTo.sublist`, `ErasesTo.length_eq`: what is left is a sublist, shorter by a multiple of the
  pattern.
* `ErasesTo.filter_eq`: with a pattern of one element, the others stay.
-/

namespace WinterWind.Library

variable {α : Type} {pattern s t : List α}

/-- `t` is `s` without one occurrence of the pattern. -/
def Erases (pattern s t : List α) : Prop := ∃ l r, s = l ++ pattern ++ r ∧ t = l ++ r

/-- `t` is left of `s` after some occurrences have been erased, one after the other. -/
abbrev ErasesTo (pattern : List α) : List α → List α → Prop :=
  Relation.ReflTransGen (Erases pattern)

theorem Erases.sublist (h : Erases pattern s t) : t.Sublist s := by
  obtain ⟨l, r, rfl, rfl⟩ := h
  exact List.Sublist.append_right (List.sublist_append_left l pattern) r

theorem Erases.length_eq (h : Erases pattern s t) : s.length = t.length + pattern.length := by
  obtain ⟨l, r, rfl, rfl⟩ := h
  simp only [List.length_append]
  omega

theorem ErasesTo.sublist (h : ErasesTo pattern s t) : t.Sublist s := by
  induction h with
  | refl => exact List.Sublist.refl s
  | tail _ hstep ih => exact hstep.sublist.trans ih

theorem ErasesTo.length_eq (h : ErasesTo pattern s t) :
    ∃ n, s.length = t.length + n * pattern.length := by
  induction h with
  | refl => exact ⟨0, by rw [Nat.zero_mul, Nat.add_zero]⟩
  | tail _ hstep ih =>
    obtain ⟨n, hn⟩ := ih
    refine ⟨n + 1, ?_⟩
    rw [hn, hstep.length_eq, Nat.succ_mul]
    omega

/-- What is no part of the pattern stays. -/
theorem ErasesTo.filter_eq {p : α → Bool} (hp : ∀ x ∈ pattern, p x = false)
    (h : ErasesTo pattern s t) : t.filter p = s.filter p := by
  induction h with
  | refl => rfl
  | tail _ hstep ih =>
    obtain ⟨l, r, rfl, rfl⟩ := hstep
    have hnil : pattern.filter p = [] :=
      List.filter_eq_nil_iff.mpr fun x hx => Bool.eq_false_iff.mp (hp x hx)
    rw [← ih, List.filter_append, List.filter_append, List.filter_append, hnil, List.append_nil]

end WinterWind.Library
