import Mathlib.Algebra.Group.Nat.Defs
import Mathlib.Algebra.Ring.Int.Defs

/-!
# Signed 64-bit arithmetic

`checkedAdd` and `checkedMul` are the operations of a language in which the overflow of a signed
number is undefined: they have a result if the exact one can be represented.

Results:
* **`checkedAdd_eq_some_iff`**, **`checkedMul_eq_some_iff`**: the result is the exact one.
* `exists_checkedAdd`, `exists_checkedMul`: when there is one.
* `toInt_toInt64_of_nonneg`, `toInt_div`, `toInt_mod`: conversion and division, where they are
  exact.
-/

namespace WinterWind.Library

/-- The number, if it can be represented. -/
def checked (n : Int) : Option Int64 :=
  if -2 ^ 63 ≤ n ∧ n < 2 ^ 63 then some (Int64.ofInt n) else none

def checkedAdd (a b : Int64) : Option Int64 := checked (a.toInt + b.toInt)

def checkedMul (a b : Int64) : Option Int64 := checked (a.toInt * b.toInt)

theorem checked_eq_some_iff {n : Int} {c : Int64} : checked n = some c ↔ c.toInt = n := by
  unfold checked
  constructor
  · intro h
    split at h
    · rename_i hrange
      obtain rfl := Option.some.inj h
      exact Int64.toInt_ofInt_of_le hrange.1 hrange.2
    · cases h
  · rintro rfl
    rw [if_pos ⟨c.le_toInt, c.toInt_lt⟩, Int64.ofInt_toInt]

theorem checkedAdd_eq_some_iff {a b c : Int64} :
    checkedAdd a b = some c ↔ c.toInt = a.toInt + b.toInt :=
  checked_eq_some_iff

theorem checkedMul_eq_some_iff {a b c : Int64} :
    checkedMul a b = some c ↔ c.toInt = a.toInt * b.toInt :=
  checked_eq_some_iff

/-- A number is that of some `Int64` iff it can be represented. -/
theorem exists_toInt_eq_iff {n : Int} :
    (∃ c : Int64, c.toInt = n) ↔ -2 ^ 63 ≤ n ∧ n < 2 ^ 63 := by
  constructor
  · rintro ⟨c, rfl⟩
    exact ⟨c.le_toInt, c.toInt_lt⟩
  · rintro ⟨hlow, hhigh⟩
    exact ⟨Int64.ofInt n, Int64.toInt_ofInt_of_le hlow hhigh⟩

theorem exists_checkedAdd {a b : Int64} (hlow : -2 ^ 63 ≤ a.toInt + b.toInt)
    (hhigh : a.toInt + b.toInt < 2 ^ 63) :
    ∃ c, checkedAdd a b = some c ∧ c.toInt = a.toInt + b.toInt := by
  obtain ⟨c, hc⟩ := exists_toInt_eq_iff.mpr ⟨hlow, hhigh⟩
  exact ⟨c, checkedAdd_eq_some_iff.mpr hc, hc⟩

theorem exists_checkedMul {a b : Int64} (hlow : -2 ^ 63 ≤ a.toInt * b.toInt)
    (hhigh : a.toInt * b.toInt < 2 ^ 63) :
    ∃ c, checkedMul a b = some c ∧ c.toInt = a.toInt * b.toInt := by
  obtain ⟨c, hc⟩ := exists_toInt_eq_iff.mpr ⟨hlow, hhigh⟩
  exact ⟨c, checkedMul_eq_some_iff.mpr hc, hc⟩

/-- An unsigned number that is below `2^63` stays as it is. -/
theorem toInt_toInt64_of_lt {u : UInt64} (h : u.toNat < 2 ^ 63) : u.toInt64.toInt = u.toNat := by
  have hbmod : u.toInt64.toInt = (u.toNat : Int).bmod (2 ^ 64) :=
    BitVec.toInt_eq_toNat_bmod u.toBitVec
  rw [hbmod]
  exact Int.bmod_eq_of_le (by omega) (by omega)

/-- One that is not taken for a negative number, too. -/
theorem toInt_toInt64_of_nonneg {u : UInt64} (h : 0 ≤ u.toInt64.toInt) :
    u.toInt64.toInt = u.toNat := by
  have hzero : (0 : Int64) ≤ u.toInt64 := Int64.le_iff_toInt_le.mpr h
  have hnat := Int64.toNat_toUInt64_of_le hzero
  rw [UInt64.toUInt64_toInt64, Int64.toNatClampNeg] at hnat
  omega

/-- From 32 bits it stays as it is. -/
theorem toInt_toUInt64_toInt64 (u : UInt32) : u.toUInt64.toInt64.toInt = u.toNat := by
  have hlt := u.toNat_lt
  rw [toInt_toInt64_of_lt (by rw [UInt32.toNat_toUInt64]; omega), UInt32.toNat_toUInt64]

theorem toInt_div {a b : Int64} (ha : 0 ≤ a.toInt) (hb : 0 < b.toInt) :
    (a / b).toInt = a.toInt / b.toInt := by
  have hne : b ≠ -1 := by
    rintro rfl
    exact absurd hb (by decide)
  rw [Int64.toInt_div_of_ne_right a b hne, Int.tdiv_eq_ediv_of_nonneg ha]

theorem toInt_mod {a b : Int64} (ha : 0 ≤ a.toInt) : (a % b).toInt = a.toInt % b.toInt := by
  rw [Int64.toInt_mod, Int.tmod_eq_emod_of_nonneg ha]

end WinterWind.Library
