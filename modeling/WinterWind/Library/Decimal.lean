import Mathlib.Data.List.TakeWhile
import Mathlib.Data.Nat.Digits.Lemmas

/-!
# Decimal numerals

Numbers as ASCII text: `decimal n` is the numeral of `n`, without leading zeros, and `readDigits`
the value of a sequence of digits, the most significant one first. `signedDecimal` and `readSigned`
do the same for integers, with a `-` in front of the negative ones.

Results:
* **`readDigits_decimal`**, `readSigned_signedDecimal`: a numeral is read back as its number.
* `isDigit_of_mem_decimal`, `decimal_ne_nil`: a numeral is a non-empty sequence of digits.
* `map_toString`: the numeral of an integer is what `toString` prints.
-/

namespace WinterWind.Library

/-- The characters `0` to `9`. -/
def isDigit (c : UInt8) : Bool := 48 ≤ c && c ≤ 57

/-- The character of a digit. -/
def digitChar (d : Nat) : UInt8 := UInt8.ofNat (48 + d)

/-- The numeral of `n`. -/
def decimal (n : Nat) : List UInt8 :=
  if n = 0 then [48] else (Nat.digits 10 n).reverse.map digitChar

/-- The value of a sequence of digits. -/
def readDigits (s : List UInt8) : Nat := s.foldl (fun v c => 10 * v + (c.toNat - 48)) 0

theorem toNat_digitChar {d : Nat} (h : d < 10) : (digitChar d).toNat = 48 + d := by
  unfold digitChar
  rw [UInt8.toNat_ofNat']
  omega

theorem isDigit_digitChar {d : Nat} (h : d < 10) : isDigit (digitChar d) = true := by
  have hd := toNat_digitChar h
  simp only [isDigit, Bool.and_eq_true, decide_eq_true_eq, UInt8.le_iff_toNat_le, hd]
  exact ⟨Nat.le_add_right 48 d, Nat.add_le_add_left (Nat.le_of_lt_succ h) 48⟩

theorem isDigit_of_mem_decimal {n : Nat} {c : UInt8} (h : c ∈ decimal n) : isDigit c = true := by
  unfold decimal at h
  split at h
  · obtain rfl := List.mem_singleton.mp h
    rfl
  · obtain ⟨d, hd, rfl⟩ := List.mem_map.mp h
    exact isDigit_digitChar (Nat.digits_lt_base (by decide) (List.mem_reverse.mp hd))

theorem takeWhile_decimal (n : Nat) : (decimal n).takeWhile isDigit = decimal n :=
  List.takeWhile_eq_self_iff.mpr fun _ hc => isDigit_of_mem_decimal hc

theorem decimal_ne_nil (n : Nat) : decimal n ≠ [] := by
  unfold decimal
  split
  · exact List.cons_ne_nil 48 []
  · rename_i h
    rw [Ne, List.map_eq_nil_iff, List.reverse_eq_nil_iff]
    exact Nat.digits_ne_nil_iff_ne_zero.mpr h

theorem readDigits_append (s : List UInt8) (c : UInt8) :
    readDigits (s ++ [c]) = 10 * readDigits s + (c.toNat - 48) := by
  unfold readDigits
  rw [List.foldl_append, List.foldl_cons, List.foldl_nil]

/-- Digits, the least significant first, are read back from their reversed characters. -/
theorem readDigits_map_digitChar {ds : List Nat} (h : ∀ d ∈ ds, d < 10) :
    readDigits (ds.reverse.map digitChar) = Nat.ofDigits 10 ds := by
  induction ds with
  | nil => rfl
  | cons d ds ih =>
    obtain ⟨hd, hds⟩ := List.forall_mem_cons.mp h
    rw [List.reverse_cons, List.map_append, List.map_singleton, readDigits_append, ih hds,
      toNat_digitChar hd, Nat.ofDigits_cons]
    omega

/-- **A numeral is read back as its number.** -/
theorem readDigits_decimal (n : Nat) : readDigits (decimal n) = n := by
  unfold decimal
  split
  · rename_i h
    rw [h]
    rfl
  · rw [readDigits_map_digitChar fun d hd => Nat.digits_lt_base (by decide) hd,
      Nat.ofDigits_digits]

/-- The first digit of a numeral. -/
theorem exists_decimal_eq_cons (n : Nat) : ∃ c s, decimal n = c :: s ∧ isDigit c = true := by
  obtain ⟨c, s, h⟩ := List.exists_cons_of_ne_nil (decimal_ne_nil n)
  exact ⟨c, s, h, isDigit_of_mem_decimal (h ▸ List.mem_cons_self)⟩

/-! ## Integers -/

/-- The numeral of an integer. -/
def signedDecimal : Int → List UInt8
  | .ofNat n => decimal n
  | .negSucc n => 45 :: decimal (n + 1)

/-- The value of a sequence of digits with a sign in front, if there is one. -/
def readSigned : List UInt8 → Int
  | 45 :: s => -readDigits s
  | s => readDigits s

theorem readSigned_signedDecimal (v : Int) : readSigned (signedDecimal v) = v := by
  cases v with
  | ofNat n =>
    obtain ⟨c, s, h, hc⟩ := exists_decimal_eq_cons n
    have hne : c ≠ 45 := by
      rintro rfl
      cases hc
    rw [signedDecimal, readSigned, readDigits_decimal]
    · rfl
    · intro s' h'
      exact hne (List.cons.inj (h.symm.trans h')).1
  | negSucc n =>
    rw [signedDecimal, readSigned, readDigits_decimal]
    rfl

/-- How long a numeral is. -/
theorem length_decimal_le {n k : Nat} (hk : 0 < k) (h : n < 10 ^ k) : (decimal n).length ≤ k := by
  unfold decimal
  split
  · exact hk
  · rw [List.length_map, List.length_reverse]
    exact (Nat.digits_length_le_iff (by decide) n).mpr h

theorem length_signedDecimal_le {v : Int} {k : Nat} (hk : 0 < k) (h : v.natAbs < 10 ^ k) :
    (signedDecimal v).length ≤ k + 1 := by
  cases v with
  | ofNat n => exact Nat.le_succ_of_le (length_decimal_le hk h)
  | negSucc n => exact Nat.succ_le_succ (length_decimal_le hk h)

/-- The characters of a numeral. -/
theorem map_toDigits (n : Nat) :
    (Nat.toDigits 10 n).map (fun c => UInt8.ofNat c.toNat) = decimal n := by
  have hdigit : ∀ d < 10, UInt8.ofNat d.digitChar.toNat = digitChar d := by decide
  induction n using Nat.strong_induction_on with
  | _ n ih =>
    by_cases hlt : n < 10
    · rw [Nat.toDigits_of_lt_base hlt, List.map_singleton, hdigit n hlt, decimal]
      split
      · rename_i h
        rw [h]
        rfl
      · rename_i h
        rw [Nat.digits_of_lt 10 n h hlt]
        rfl
    · have hpos : n / 10 ≠ 0 := by omega
      have hdigits : Nat.digits 10 n = n % 10 :: Nat.digits 10 (n / 10) :=
        Nat.digits_def' (by decide) (by omega)
      rw [Nat.toDigits_of_base_le (by decide) (by omega), List.map_append, ih (n / 10) (by omega),
        List.map_singleton, hdigit _ (Nat.mod_lt n (by decide)), decimal, decimal, if_neg hpos,
        if_neg (by omega), hdigits, List.reverse_cons, List.map_append, List.map_singleton]

/-- **The numeral of an integer is what `toString` prints.** -/
theorem map_toString (v : Int) :
    (toString v).toList.map (fun c => UInt8.ofNat c.toNat) = signedDecimal v := by
  cases v with
  | ofNat n =>
    change n.repr.toList.map _ = _
    rw [Nat.toList_repr, map_toDigits, signedDecimal]
  | negSucc n =>
    change ("-" ++ (n + 1).repr).toList.map _ = _
    rw [String.toList_append, List.map_append, Nat.toList_repr, map_toDigits, signedDecimal]
    rfl

end WinterWind.Library
