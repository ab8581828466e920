import Mathlib.Data.List.Basic

/-!
# First in, first out

`Fifo pushed popped content` relates the history of a queue to its content: what was pushed is what
was popped, in that order, followed by what is still in it. Both histories grow at their ends, and
a pop may take several items at once.

Results:
* `Fifo.extend`: the step rule, with `Fifo.push` and `Fifo.popBatch` for the two operations.
* **`Fifo.popped_getElem`**: the item popped at some position is the one pushed at that position.
-/

namespace WinterWind.Library

variable {α : Type}

/-- The items pushed are the items popped, then the content. -/
def Fifo (pushed popped content : List α) : Prop := pushed = popped ++ content

namespace Fifo

variable {pushed popped content : List α}

theorem fresh : Fifo ([] : List α) [] [] := rfl

/-- **The step rule.** What is written goes behind the content, what is read is its front. -/
theorem extend {written read content' : List α} (h : Fifo pushed popped content)
    (hstep : content ++ written = read ++ content') :
    Fifo (pushed ++ written) (popped ++ read) content' := by
  unfold Fifo at h ⊢
  rw [h, List.append_assoc, hstep, List.append_assoc]

theorem push (h : Fifo pushed popped content) (a : α) :
    Fifo (pushed ++ [a]) popped (content ++ [a]) := by
  have := h.extend (List.nil_append (content ++ [a])).symm
  rwa [List.append_nil] at this

theorem popBatch {batch : List α} (h : Fifo pushed popped (batch ++ content)) :
    Fifo pushed (popped ++ batch) content := by
  have := h.extend (List.append_nil (batch ++ content))
  rwa [List.append_nil] at this

/-- **Order and multiplicity.** The item popped `k`-th is the item pushed `k`-th. -/
theorem popped_getElem {k : Nat} {a : α} (h : Fifo pushed popped content)
    (hk : popped[k]? = some a) : pushed[k]? = some a := by
  obtain ⟨hlt, -⟩ := List.getElem?_eq_some_iff.mp hk
  unfold Fifo at h
  rw [h, List.getElem?_append_left hlt, hk]

/-- Nothing is lost: every position pushed is popped or still in the queue. -/
theorem length (h : Fifo pushed popped content) :
    pushed.length = popped.length + content.length := by
  unfold Fifo at h
  rw [h, List.length_append]

end Fifo

end WinterWind.Library
