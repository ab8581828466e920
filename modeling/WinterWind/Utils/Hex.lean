import Mathlib.Data.Nat.Digits.Defs
import WinterWind.Basic
import WinterWind.Library.Hexadecimal
import WinterWind.Library.SqlTokens

/-!
# Hexadecimal text (`src/core/utils/stringutils.cpp`)

`str_to_hex` writes each `char` as an `int` to a stream. `char` is signed, so a byte from 128 on is
sign-extended; `std::hex` prints an `int` as the `unsigned int` of the same bits; and `std::setw` is
a least width.

Results:
* `hexOfChar_eq`: a byte below 128 is written as two digits, any other as eight.
* `strToHex_injective`, `map_toLower_strToHex`: what holds of every string nevertheless.
* **`hexFaithful_iff`**: two digits a byte, which decode to the string, are written exactly for the
  strings of bytes below 128.
-/

namespace WinterWind.Utils

open Library

/-! ## The source function -/

/-- A digit under `std::uppercase` or `std::nouppercase`. -/
def hexChar (upperCase : Bool) (d : Nat) : UInt8 :=
  if d < 10 then UInt8.ofNat (48 + d)
  else if upperCase then UInt8.ofNat (55 + d) else UInt8.ofNat (87 + d)

/-- A number under `std::hex`. -/
def hexNumeral (upperCase : Bool) (n : UInt32) : Bytes :=
  if n = 0 then [48] else (Nat.digits 16 n.toNat).reverse.map (hexChar upperCase)

/-- `std::setfill('0') << std::setw(2)`. -/
def fillTwo (text : Bytes) : Bytes := List.replicate (2 - text.length) 48 ++ text

/-- `(int) i`, written. -/
def hexOfChar (upperCase : Bool) (i : UInt8) : Bytes :=
  fillTwo (hexNumeral upperCase i.toInt8.toInt32.toUInt32)

/-- `str_to_hex`: what `res` becomes. -/
def strToHex (str : Bytes) (upperCase : Bool) : Bytes := str.flatMap (hexOfChar upperCase)

/-! ## What is written for a byte -/

theorem hexValue_hexChar (upperCase : Bool) :
    ∀ n < 16, hexValue (hexChar upperCase n) = some n := by
  cases upperCase <;> decide

/-- **What is written for a byte**: its two digits, after those of the sign. -/
theorem hexOfChar_eq (upperCase : Bool) (i : UInt8) :
    hexOfChar upperCase i = (if i < 128 then [] else List.replicate 6 (hexChar upperCase 15)) ++
      hexPair (hexChar upperCase) i := by
  refine forall_byte (P := fun i => hexOfChar upperCase i =
    (if i < 128 then [] else List.replicate 6 (hexChar upperCase 15)) ++
      hexPair (hexChar upperCase) i) ?_ i
  cases upperCase <;> decide +kernel

theorem length_hexOfChar (upperCase : Bool) (i : UInt8) :
    (hexOfChar upperCase i).length = if i < 128 then 2 else 8 := by
  rw [hexOfChar_eq, List.length_append]
  split <;> rfl

theorem length_strToHex (str : Bytes) (upperCase : Bool) : (strToHex str upperCase).length =
    2 * str.length + 6 * str.countP (¬ · < 128) := by
  induction str with
  | nil => rfl
  | cons i str ih =>
    have hcons : strToHex (i :: str) upperCase = hexOfChar upperCase i ++ strToHex str upperCase :=
      List.flatMap_cons
    rw [hcons, List.length_append, length_hexOfChar, ih, List.length_cons]
    by_cases hi : i < 128
    · rw [if_pos hi, List.countP_cons_of_neg (by simp [hi])]
      omega
    · rw [if_neg hi, List.countP_cons_of_pos (by simp [hi])]
      omega

/-- Two digits a byte, when no sign is extended. -/
theorem strToHex_eq {str : Bytes} (h : ∀ i ∈ str, i < 128) (upperCase : Bool) :
    strToHex str upperCase = str.flatMap (hexPair (hexChar upperCase)) := by
  refine List.flatMap_congr fun i hi => ?_
  rw [hexOfChar_eq, if_pos (h i hi), List.nil_append]

/-! ## What holds of every string -/

/-- What is written for a byte can be told from what is written for another one, whatever follows:
the first digit says how many there are. -/
theorem hexOfChar_append_inj {upperCase : Bool} {i j : UInt8} {s t : Bytes}
    (h : hexOfChar upperCase i ++ s = hexOfChar upperCase j ++ t) : i = j ∧ s = t := by
  have hfirst : ∀ b : UInt8, b < 128 → hexChar upperCase (b.toNat / 16) ≠ hexChar upperCase 15 := by
    cases upperCase <;> exact forall_byte (by decide +kernel)
  have hsame : i < 128 ↔ j < 128 := by
    rw [hexOfChar_eq, hexOfChar_eq] at h
    by_cases hi : i < 128
    · by_cases hj : j < 128
      · exact iff_of_true hi hj
      · rw [if_pos hi, if_neg hj] at h
        exact absurd (List.cons.inj h).1 (hfirst i hi)
    · by_cases hj : j < 128
      · rw [if_neg hi, if_pos hj] at h
        exact absurd (List.cons.inj h).1.symm (hfirst j hj)
      · exact iff_of_false hi hj
  obtain ⟨hblock, hrest⟩ := List.append_inj h (by simp only [length_hexOfChar, hsame])
  refine ⟨?_, hrest⟩
  rw [hexOfChar_eq, hexOfChar_eq] at hblock
  simp only [hsame] at hblock
  exact hexPair_inj (hexValue_hexChar upperCase) (List.append_cancel_left hblock)

theorem hexOfChar_ne_nil (upperCase : Bool) (i : UInt8) : hexOfChar upperCase i ≠ [] := by
  intro h
  have hlen := length_hexOfChar upperCase i
  rw [h, List.length_nil] at hlen
  split at hlen <;> cases hlen

/-- No two strings have the same text. -/
theorem strToHex_injective {upperCase : Bool} : ∀ {s t : Bytes},
    strToHex s upperCase = strToHex t upperCase → s = t
  | [], [], _ => rfl
  | [], j :: t, h => absurd (List.append_eq_nil_iff.mp h.symm).1 (hexOfChar_ne_nil upperCase j)
  | i :: s, [], h => absurd (List.append_eq_nil_iff.mp h).1 (hexOfChar_ne_nil upperCase i)
  | i :: s, j :: t, h => by
    obtain ⟨rfl, hrest⟩ := hexOfChar_append_inj h
    rw [strToHex_injective hrest]

/-- The two cases differ in the case of their letters only. -/
theorem map_toLower_strToHex (str : Bytes) :
    (strToHex str true).map toLower = strToHex str false := by
  have hchar : ∀ i : UInt8, (hexOfChar true i).map toLower = hexOfChar false i :=
    forall_byte (by decide +kernel)
  unfold strToHex
  rw [List.map_flatMap]
  exact List.flatMap_congr fun i _ => hchar i

/-! ## When the text is faithful -/

/-- The text has two digits a byte, and they decode to the string; no other string has it; and the
two cases differ in the case of their letters only. -/
structure HexFaithful (str : Bytes) : Prop where
  twoDigits : ∀ upperCase, (strToHex str upperCase).length = 2 * str.length
  decodes : ∀ upperCase, hexDecode (strToHex str upperCase) = some str
  injective : ∀ upperCase t, strToHex t upperCase = strToHex str upperCase → t = str
  letterCase : (strToHex str true).map toLower = strToHex str false

/-- **The text is faithful exactly for the strings of bytes below 128.** -/
theorem hexFaithful_iff (str : Bytes) : HexFaithful str ↔ ∀ i ∈ str, i < 128 := by
  constructor
  · intro h
    have hlen := h.twoDigits false
    rw [length_strToHex] at hlen
    have hnone : str.countP (¬ · < 128) = 0 := by omega
    intro i hi
    simpa using List.countP_eq_zero.mp hnone i hi
  · intro hsmall
    refine ⟨fun upperCase => ?_, fun upperCase => ?_, fun _ _ => strToHex_injective,
      map_toLower_strToHex str⟩
    · have hnone : str.countP (¬ · < 128) = 0 :=
        List.countP_eq_zero.mpr fun i hi => by simpa using hsmall i hi
      rw [length_strToHex, hnone, Nat.mul_zero, Nat.add_zero]
    · rw [strToHex_eq hsmall]
      exact hexDecode_flatMap (hexValue_hexChar upperCase) str

/-- The byte 128 is written as `ffffff80`. -/
theorem not_hexFaithful_128 : ¬HexFaithful [128] := by
  intro h
  have hlen : (strToHex [128] false).length = 8 := by
    rw [length_strToHex]
    rfl
  exact absurd (hlen.symm.trans (h.twoDigits false)) (by decide)

end WinterWind.Utils
