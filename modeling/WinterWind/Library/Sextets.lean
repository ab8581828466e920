import Mathlib.Data.List.Basic
import Mathlib.Data.List.TakeWhile
import Mathlib.Tactic.Ring

/-!
# Regrouping bytes into 6-bit values (RFC 4648)

`sextets s` reads a byte string as 6-bit values, most significant bits first, the last value
padded with zero bits; `octets v` regroups 6-bit values into bytes and drops the incomplete
trailing bits. An alphabet and a padding rule on top of the two give the base64 encodings.

Results:
* **`octets_sextets`**: regrouping there and back is the identity.
* `sextets_lt`, `length_sextets`: the values fit in 6 bits, and their number.
* **`octets_take_sextets`**: the first `k` values carry exactly the first `⌊3k/4⌋` bytes. A reader
  that stops early therefore sees a proper prefix, and `take_sextets_lt` says it never sees all.
* `lt_of_large_sextet`: a value of 62 or 63 is never formed by the last byte alone when that byte
  is small; **`takeWhile_sextets_lt`**: what stops at such a value loses more than the last byte.
-/

namespace WinterWind.Library

/-- The 6-bit values of a byte string, the last one padded with zero bits. -/
def sextets : List UInt8 → List Nat
  | a :: b :: c :: rest =>
    a.toNat / 4 :: (a.toNat % 4 * 16 + b.toNat / 16) :: (b.toNat % 16 * 4 + c.toNat / 64) ::
      c.toNat % 64 :: sextets rest
  | [a, b] => [a.toNat / 4, a.toNat % 4 * 16 + b.toNat / 16, b.toNat % 16 * 4]
  | [a] => [a.toNat / 4, a.toNat % 4 * 16]
  | [] => []

/-- The bytes formed by 6-bit values, incomplete trailing bits dropped. -/
def octets : List Nat → List UInt8
  | w :: x :: y :: z :: rest =>
    UInt8.ofNat (w * 4 + x / 16) :: UInt8.ofNat (x % 16 * 16 + y / 4) ::
      UInt8.ofNat (y % 4 * 64 + z) :: octets rest
  | [w, x, y] => [UInt8.ofNat (w * 4 + x / 16), UInt8.ofNat (x % 16 * 16 + y / 4)]
  | [w, x] => [UInt8.ofNat (w * 4 + x / 16)]
  | _ => []

/-! ## The two regroupings are inverse -/

/-- A byte is recovered from any number that agrees with its value. -/
theorem ofNat_eq_of_toNat {a : UInt8} {n : Nat} (h : n = a.toNat) : UInt8.ofNat n = a := by
  rw [h, UInt8.ofNat_toNat]

theorem toNat_lt_256 (a : UInt8) : a.toNat < 256 := a.toNat_lt_size

theorem byte_of_halves (a b : UInt8) :
    UInt8.ofNat (a.toNat / 4 * 4 + (a.toNat % 4 * 16 + b.toNat / 16) / 16) = a := by
  have hb := toNat_lt_256 b
  exact ofNat_eq_of_toNat (by omega)

theorem byte_of_nibbles (a b c : UInt8) :
    UInt8.ofNat ((a.toNat % 4 * 16 + b.toNat / 16) % 16 * 16 +
      (b.toNat % 16 * 4 + c.toNat / 64) / 4) = b := by
  have hb := toNat_lt_256 b
  have hc := toNat_lt_256 c
  exact ofNat_eq_of_toNat (by omega)

theorem byte_of_rest (b c : UInt8) :
    UInt8.ofNat ((b.toNat % 16 * 4 + c.toNat / 64) % 4 * 64 + c.toNat % 64) = c := by
  have hc := toNat_lt_256 c
  exact ofNat_eq_of_toNat (by omega)

theorem sextets_lt : ∀ (s : List UInt8), ∀ v ∈ sextets s, v < 64
  | [], v, hv => absurd hv List.not_mem_nil
  | [a], v, hv => by
    have ha := toNat_lt_256 a
    simp only [sextets, List.mem_cons, List.not_mem_nil, or_false] at hv
    omega
  | [a, b], v, hv => by
    have ha := toNat_lt_256 a
    have hb := toNat_lt_256 b
    simp only [sextets, List.mem_cons, List.not_mem_nil, or_false] at hv
    omega
  | a :: b :: c :: rest, v, hv => by
    have ha := toNat_lt_256 a
    have hb := toNat_lt_256 b
    have hc := toNat_lt_256 c
    simp only [sextets, List.mem_cons] at hv
    rcases hv with h | h | h | h | h
    · omega
    · omega
    · omega
    · omega
    · exact sextets_lt rest v h

theorem length_sextets : ∀ s : List UInt8, (sextets s).length = (4 * s.length + 2) / 3
  | [] => by simp [sextets]
  | [_] => by simp [sextets]
  | [_, _] => by simp [sextets]
  | _ :: _ :: _ :: rest => by
    simp only [sextets, List.length_cons, length_sextets rest]
    omega

/-- The first `k` values carry exactly the first `⌊3k/4⌋` bytes. -/
theorem octets_take_sextets : ∀ (s : List UInt8) (k : Nat),
    octets ((sextets s).take k) = s.take (k * 3 / 4)
  | [], k => by simp [sextets, octets]
  | [a], 0 => rfl
  | [a], 1 => rfl
  | [a], k + 2 => by
    have h : (k + 2) * 3 / 4 = (k + 2) * 3 / 4 - 1 + 1 := by omega
    have e := byte_of_halves a 0
    simp only [UInt8.toNat_zero, Nat.zero_div, Nat.add_zero] at e
    rw [h]
    simp only [sextets, List.take_succ_cons, List.take_nil, octets, e]
  | [a, b], 0 => rfl
  | [a, b], 1 => rfl
  | [a, b], 2 => by
    simp only [sextets, List.take_succ_cons, List.take_zero, octets, byte_of_halves]
  | [a, b], k + 3 => by
    have h : (k + 3) * 3 / 4 = (k + 3) * 3 / 4 - 2 + 1 + 1 := by omega
    have e := byte_of_nibbles a b 0
    simp only [UInt8.toNat_zero, Nat.zero_div, Nat.add_zero] at e
    rw [h]
    simp only [sextets, List.take_succ_cons, List.take_nil, octets, byte_of_halves, e]
  | a :: b :: c :: rest, 0 => rfl
  | a :: b :: c :: rest, 1 => rfl
  | a :: b :: c :: rest, 2 => by
    simp only [sextets, List.take_succ_cons, List.take_zero, octets, byte_of_halves]
  | a :: b :: c :: rest, 3 => by
    simp only [sextets, List.take_succ_cons, List.take_zero, octets, byte_of_halves,
      byte_of_nibbles]
  | a :: b :: c :: rest, k + 4 => by
    have h : (k + 4) * 3 / 4 = k * 3 / 4 + 1 + 1 + 1 := by omega
    simp only [sextets, List.take_succ_cons, octets, byte_of_halves, byte_of_nibbles, byte_of_rest,
      octets_take_sextets rest k, h]

/-- **Regrouping there and back is the identity.** -/
theorem octets_sextets (s : List UInt8) : octets (sextets s) = s := by
  have h := octets_take_sextets s (sextets s).length
  rw [List.take_length, length_sextets, List.take_of_length_le (by omega)] at h
  exact h

theorem sextets_injective {s t : List UInt8} (h : sextets s = sextets t) : s = t := by
  rw [← octets_sextets s, h, octets_sextets]

/-- Fewer values than there are carry fewer bytes. -/
theorem take_sextets_lt {s : List UInt8} {k : Nat} (hk : k < (sextets s).length) :
    k * 3 / 4 < s.length := by
  rw [length_sextets] at hk
  omega

/-! ## Large values near the end -/

/-- With a last byte below 248 whose low bits stay small, a value of 62 or 63 at position `k`
uses a bit of an earlier byte: the bytes before it end before the last one. -/
theorem lt_of_large_sextet {b : UInt8} (h1 : b.toNat / 4 < 62) (h2 : b.toNat % 16 * 4 < 62)
    (h3 : b.toNat % 64 < 62) : ∀ (s : List UInt8) (k v : Nat), s.getLast? = some b →
      (sextets s)[k]? = some v → 62 ≤ v → k * 3 / 4 + 1 < s.length
  | [], _, _, hl, _, _ => by simp at hl
  | [a], k, v, hl, hv, hlarge => by
    obtain rfl : a = b := by simpa using hl
    match k with
    | 0 => simp [sextets] at hv; omega
    | 1 => simp [sextets] at hv; omega
    | k + 2 => simp [sextets] at hv
  | [a, c], k, v, hl, hv, hlarge => by
    obtain rfl : c = b := by simpa using hl
    match k with
    | 0 => simp
    | 1 => simp
    | 2 => simp [sextets] at hv; omega
    | k + 3 => simp [sextets] at hv
  | [a, c, d], k, v, hl, hv, hlarge => by
    obtain rfl : d = b := by simpa using hl
    match k with
    | 0 => simp
    | 1 => simp
    | 2 => simp
    | 3 => simp [sextets] at hv; omega
    | k + 4 => simp [sextets] at hv
  | a :: c :: d :: e :: rest, k, v, hl, hv, hlarge => by
    match k with
    | 0 => simp
    | 1 => simp
    | 2 => simp
    | 3 => simp
    | k + 4 =>
      have hl' : (e :: rest).getLast? = some b := by simpa using hl
      have hv' : (sextets (e :: rest))[k]? = some v := by simpa [sextets] using hv
      have ih := lt_of_large_sextet h1 h2 h3 (e :: rest) k v hl' hv' hlarge
      simp only [List.length_cons] at ih ⊢
      omega

/-- What `takeWhile` stops at does not satisfy the predicate. -/
theorem not_of_getElem?_takeWhile {α : Type} (p : α → Bool) : ∀ {l : List α} {v : α},
    l[(l.takeWhile p).length]? = some v → p v = false
  | [], v, h => by simp at h
  | a :: l, v, h => by
    rw [List.takeWhile_cons] at h
    split at h
    · exact not_of_getElem?_takeWhile p (by simpa using h)
    · rename_i ha
      obtain rfl : a = v := by simpa using h
      simpa using ha

/-- **A reader that stops at the first large value loses more than the last byte** when that byte
is small. -/
theorem takeWhile_sextets_lt {b : UInt8} (h1 : b.toNat / 4 < 62) (h2 : b.toNat % 16 * 4 < 62)
    (h3 : b.toNat % 64 < 62) {s : List UInt8} (hlast : s.getLast? = some b)
    (h : ¬∀ v ∈ sextets s, v < 62) :
    ((sextets s).takeWhile (· < 62)).length * 3 / 4 + 1 < s.length := by
  have hpre := List.takeWhile_prefix (· < 62) (l := sextets s)
  have hlt : ((sextets s).takeWhile (· < 62)).length < (sextets s).length := by
    refine lt_of_le_of_ne hpre.length_le fun e => h fun v hv => ?_
    rw [← hpre.eq_of_length e] at hv
    simpa using List.mem_takeWhile_imp hv
  have hv := List.getElem?_eq_getElem hlt
  have hlarge := not_of_getElem?_takeWhile _ hv
  exact lt_of_large_sextet h1 h2 h3 s _ _ hlast hv (by simpa using hlarge)

end WinterWind.Library
