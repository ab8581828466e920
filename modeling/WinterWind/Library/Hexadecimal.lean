import WinterWind.Library.Percent

/-!
# Bytes in hexadecimal

`hexPair digit b` is a byte as two digits, the high half first. How a digit is written is a
parameter, which `hexValue` must be able to read. `hexDecode` reads digits in pairs, of either case.

Results:
* **`hexDecode_flatMap`**: a string of bytes is read back from its pairs.
* `hexPair_inj`: two bytes with the same pair are equal.
-/

namespace WinterWind.Library

/-- The two digits of a byte. -/
def hexPair (digit : Nat → UInt8) (b : UInt8) : List UInt8 :=
  [digit (b.toNat / 16), digit (b.toNat % 16)]

/-- The bytes that pairs of hexadecimal digits stand for. -/
def hexDecode : List UInt8 → Option (List UInt8)
  | [] => some []
  | a :: b :: rest => do
    let high ← hexValue a
    let low ← hexValue b
    let bytes ← hexDecode rest
    return UInt8.ofNat (16 * high + low) :: bytes
  | [_] => none

section Pairs

variable {digit : Nat → UInt8} (hdigit : ∀ n < 16, hexValue (digit n) = some n)

include hdigit

theorem hexDecode_hexPair (b : UInt8) (rest : List UInt8) :
    hexDecode (hexPair digit b ++ rest) = (hexDecode rest).map (b :: ·) := by
  have hhigh := hdigit (b.toNat / 16) (by have := b.toNat_lt; omega)
  have hlow := hdigit (b.toNat % 16) (Nat.mod_lt _ (by omega))
  have hb : UInt8.ofNat (16 * (b.toNat / 16) + b.toNat % 16) = b := by
    rw [Nat.div_add_mod, UInt8.ofNat_toNat]
  simp only [hexPair, List.cons_append, List.nil_append, hexDecode, hhigh, hlow, hb,
    Option.bind_eq_bind, Option.bind_some]
  exact Option.map_eq_bind.symm

/-- **Bytes are read back from their pairs.** -/
theorem hexDecode_flatMap (s : List UInt8) : hexDecode (s.flatMap (hexPair digit)) = some s := by
  induction s with
  | nil => rfl
  | cons b s ih =>
    rw [List.flatMap_cons, hexDecode_hexPair hdigit, ih]
    rfl

theorem hexPair_inj {b c : UInt8} (h : hexPair digit b = hexPair digit c) : b = c := by
  have hb := hexDecode_hexPair hdigit b []
  rw [h, hexDecode_hexPair hdigit c []] at hb
  exact (List.cons.inj (Option.some.inj hb)).1.symm

end Pairs

end WinterWind.Library
