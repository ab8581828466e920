import Mathlib.Data.List.TakeWhile

/-!
# Words

The words of a list, for a class of separators: its maximal non-empty runs without a separator.
`IsWords sep s ws` says that `ws` lists them in order. A word ends where a separator follows it or
the list does, and between two words there is nothing but separators.

Results:
* `IsWords.ne_nil`: no word is empty.
* `IsWords.word_takeWhile`: the first word of a list that does not begin with a separator.
-/

namespace WinterWind.Library

variable {α : Type} {sep : α → Bool}

/-- `ws` are the words of `s`, in order. -/
inductive IsWords (sep : α → Bool) : List α → List (List α) → Prop
  | nil : IsWords sep [] []
  | separator {c : α} {s : List α} {ws : List (List α)} :
      sep c = true → IsWords sep s ws → IsWords sep (c :: s) ws
  | word {w s : List α} {ws : List (List α)} :
      w ≠ [] → (∀ c ∈ w, sep c = false) → (∀ c, s.head? = some c → sep c = true) →
        IsWords sep s ws → IsWords sep (w ++ s) (w :: ws)

theorem IsWords.ne_nil {s : List α} {ws : List (List α)} (h : IsWords sep s ws) :
    [] ∉ ws := by
  induction h with
  | nil => exact List.not_mem_nil
  | separator _ _ ih => exact ih
  | word hne _ _ _ ih =>
    rw [List.mem_cons, not_or]
    exact ⟨Ne.symm hne, ih⟩

/-- The first word of a list is what comes before the first separator, unless that is nothing. -/
theorem IsWords.word_takeWhile {s : List α} {ws : List (List α)}
    (hne : s.takeWhile (!sep ·) ≠ []) (h : IsWords sep (s.dropWhile (!sep ·)) ws) :
    IsWords sep s (s.takeWhile (!sep ·) :: ws) := by
  have hword : ∀ c ∈ s.takeWhile (!sep ·), sep c = false := fun c hc => by
    simpa using List.mem_takeWhile_imp hc
  have hend : ∀ c, (s.dropWhile (!sep ·)).head? = some c → sep c = true := fun c hc => by
    simpa [hc] using List.head?_dropWhile_not (!sep ·) s
  have hwords := IsWords.word hne hword hend h
  rwa [List.takeWhile_append_dropWhile] at hwords

end WinterWind.Library
