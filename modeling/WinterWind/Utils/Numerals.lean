import WinterWind.Utils.StringUtils

/-!
# Reading numerals (`strtol`, `atoi`, `atoll`)

`strtol` is that of the C library with a `long` of 64 bits: it stops at the first character that is
no digit and saturates. glibc's `atoi` keeps the low 32 bits of it, and `atoll` is it. By the
standard alone they are undefined for a number that does not fit.

Results:
* `strtol_signedDecimal`: a numeral is read as its number, or the nearest `long`.
* `toInt_atoi`, `toInt_atoll`: what is left of the number in 32 and in 64 bits.
-/

namespace WinterWind

open Library

/-- The nearest number in the range of `long`. -/
def clampLong (v : Int) : Int := max (-2 ^ 63) (min v (2 ^ 63 - 1))

/-- `strtol(s, NULL, 10)`. -/
def strtol (s : Bytes) : Int :=
  clampLong (match s.dropWhile isspace with
    | 45 :: digits => -readDigits (digits.takeWhile isDigit)
    | 43 :: digits => readDigits (digits.takeWhile isDigit)
    | digits => readDigits (digits.takeWhile isDigit))

/-- `atoi`. -/
def atoi (s : Bytes) : Int32 := Int32.ofInt (strtol s)

/-- `atoll`. -/
def atoll (s : Bytes) : Int64 := Int64.ofInt (strtol s)

/-- **A numeral is read as its number**, or as the nearest `long`. -/
theorem strtol_signedDecimal (v : Int) : strtol (signedDecimal v) = clampLong v := by
  unfold strtol
  cases v with
  | ofNat n =>
    obtain ⟨c, s, h, hc⟩ := exists_decimal_eq_cons n
    obtain ⟨hspace, hminus, hplus⟩ := digit_is_plain hc
    have hread := readDigits_decimal n
    rw [← takeWhile_decimal, h] at hread
    rw [signedDecimal, h, List.dropWhile_cons_of_neg (by simp [hspace])]
    split
    · rename_i heq
      exact absurd (List.cons.inj heq).1 hminus
    · rename_i heq
      exact absurd (List.cons.inj heq).1 hplus
    · rw [hread]
      rfl
  | negSucc n =>
    rw [signedDecimal, List.dropWhile_cons_of_neg (by decide)]
    change clampLong (-readDigits ((decimal (n + 1)).takeWhile isDigit)) = _
    rw [takeWhile_decimal, readDigits_decimal]
    rfl

theorem clampLong_of_mem {v : Int} (h : -2 ^ 63 ≤ v) (hlt : v < 2 ^ 63) : clampLong v = v := by
  unfold clampLong
  omega

theorem toInt_atoi {v : Int} (h : -2 ^ 63 ≤ v) (hlt : v < 2 ^ 63) :
    (atoi (signedDecimal v)).toInt = v.bmod (2 ^ 32) := by
  rw [atoi, strtol_signedDecimal, clampLong_of_mem h hlt, Int32.toInt_ofInt]
  rfl

theorem toNat_atoi {v : Int} (h : 0 ≤ v) (hlt : v < 2 ^ 32) :
    ((atoi (signedDecimal v)).toUInt32.toNat : Int) = v := by
  rw [atoi, strtol_signedDecimal, clampLong_of_mem (by omega) (by omega),
    ← UInt32.toNat_toBitVec, Int32.toBitVec_toUInt32, Int32.toBitVec_ofInt, BitVec.toNat_ofInt]
  omega

theorem toInt_atoll (v : Int) : (atoll (signedDecimal v)).toInt = clampLong v := by
  rw [atoll, strtol_signedDecimal]
  refine Int64.toInt_ofInt_of_le ?_ ?_
  · unfold clampLong
    omega
  · unfold clampLong
    omega

theorem toNat_atoll {v : Int} (h : 0 ≤ v) :
    ((atoll (signedDecimal v)).toUInt64.toNat : Int) = min v (2 ^ 63 - 1) := by
  rw [atoll, strtol_signedDecimal, ← UInt64.toNat_toBitVec, Int64.toBitVec_toUInt64,
    Int64.toBitVec_ofInt, BitVec.toNat_ofInt]
  unfold clampLong
  omega

end WinterWind
