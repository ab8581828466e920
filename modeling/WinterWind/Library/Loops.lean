import Mathlib.Algebra.Group.Nat.Defs
import Mathlib.Data.List.Range

/-!
# Counting loops

`loop n body fuel i s` is `for (; i < n; i++) body(i)` with a counter of `w` bits and a bound of any
width, from the counter `i` and the state `s`, for at most `fuel` tests. The counter wraps around.

Results:
* `loop_of_le`: a bound that the counter cannot reach is never reached.
* **`loop_eq`**: the loop from 0 ends, with the body run once for each number below the bound, iff
  the bound fits the counter.
* `foldl_modify_length`: a loop over the indices of a list changes each element once.
-/

namespace WinterWind.Library

variable {σ : Type} {w : Nat} (n : Nat) (body : Nat → σ → σ)

/-- The state in which the loop ends, if that takes no more than `fuel` tests. -/
def loop : Nat → BitVec w → σ → Option σ
  | 0, _, _ => none
  | fuel + 1, i, s => if i.toNat < n then loop fuel (i + 1) (body i.toNat s) else some s

variable {n body}

theorem loop_of_le (h : 2 ^ w ≤ n) (fuel : Nat) (i : BitVec w) (s : σ) :
    loop n body fuel i s = none := by
  induction fuel generalizing i s with
  | zero => rfl
  | succ fuel ih => rw [loop, if_pos (i.isLt.trans_le h), ih]

/-- The counter does not wrap around below a bound that fits it. -/
theorem toNat_add_one (h : n < 2 ^ w) {i : BitVec w} (hi : i.toNat < n) :
    (i + 1).toNat = i.toNat + 1 := by
  have hpow : 1 < 2 ^ w := by omega
  have hone : (1 : BitVec w).toNat = 1 := Nat.mod_eq_of_lt hpow
  rw [BitVec.toNat_add, hone, Nat.mod_eq_of_lt (by omega)]

theorem loop_of_lt (h : n < 2 ^ w) (fuel : Nat) (i : BitVec w) (hi : i.toNat ≤ n) (s : σ) :
    loop n body fuel i s =
      if n - i.toNat < fuel then
        some ((List.range' i.toNat (n - i.toNat)).foldl (fun s j => body j s) s)
      else none := by
  induction fuel generalizing i s with
  | zero => rfl
  | succ fuel ih =>
    rw [loop]
    split
    · rename_i hlt
      have hnext := toNat_add_one h hlt
      have hleft : n - i.toNat = n - (i.toNat + 1) + 1 := by omega
      rw [ih (i + 1) (by omega), hnext, hleft, List.range'_succ, List.foldl_cons]
      exact if_congr (by omega) rfl rfl
    · rename_i hge
      have hleft : n - i.toNat = 0 := by omega
      rw [hleft, if_pos (Nat.zero_lt_succ fuel)]
      rfl

/-- **A counting loop ends** iff its bound fits the counter. -/
theorem loop_eq (fuel : Nat) (s : σ) : loop n body fuel (0 : BitVec w) s =
    if n < 2 ^ w ∧ n < fuel then some ((List.range n).foldl (fun s j => body j s) s) else none := by
  by_cases h : n < 2 ^ w
  · have hzero : (0 : BitVec w).toNat = 0 := Nat.zero_mod _
    rw [loop_of_lt h fuel 0 (hzero ▸ Nat.zero_le n), hzero, Nat.sub_zero, List.range_eq_range']
    exact if_congr (and_iff_right h).symm rfl rfl
  · rw [loop_of_le (Nat.le_of_not_lt h), if_neg fun hlt => h hlt.1]

section Modify

variable {α : Type} (f : α → α) (l : List α)

/-- A loop that changes the elements of a list has changed those that it came to. -/
theorem getElem?_foldl_modify (k j : Nat) :
    ((List.range k).foldl (fun l i => l.modify i f) l)[j]? =
      if j < k then l[j]?.map f else l[j]? := by
  induction k with
  | zero => rfl
  | succ k ih =>
    rw [List.range_succ, List.foldl_append, List.foldl_cons, List.foldl_nil, List.getElem?_modify,
      ih]
    rcases Nat.lt_trichotomy j k with hlt | rfl | hgt
    · simp [hlt, Nat.lt_succ_of_lt hlt, Nat.ne_of_gt hlt]
    · simp
    · have hle : ¬j < k + 1 := by omega
      simp [Nat.not_lt_of_gt hgt, Nat.ne_of_lt hgt, hle]

theorem foldl_modify_length :
    (List.range l.length).foldl (fun l i => l.modify i f) l = l.map f := by
  refine List.ext_getElem? fun j => ?_
  rw [getElem?_foldl_modify, List.getElem?_map]
  split
  · rfl
  · rename_i h
    rw [List.getElem?_eq_none (Nat.le_of_not_lt h)]
    rfl

end Modify

end WinterWind.Library
