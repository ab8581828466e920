import Mathlib.Data.List.Basic

/-!
# Percent-encoding

`percentEncode unreserved s` keeps the unreserved bytes of `s` and writes any other byte as `%`
and its two upper-case hexadecimal digits. The set of unreserved bytes is a parameter; what the
later lemmas need of it is that it has the digits and not `%`.

Results:
* `length_percentEncode`: every reserved byte costs two more.
* **`percentEncode_eq_self_iff`**: a string is its own encoding iff it has no reserved byte.
* **`percentDecode_percentEncode`**: decoding an encoding gives the string back.
* **`percentEncode_lt_iff`**: encodings are ordered as the strings are, once every reserved byte is
  put before every unreserved one.
* `countP_take_percentEncode`: the reserved bytes of an encoding are its `%`, and there is at most
  one in any three consecutive bytes from the start.
-/

namespace WinterWind.Library

/-- The upper-case hexadecimal digit of a number below 16. -/
def hexDigit (n : Nat) : UInt8 := if n < 10 then UInt8.ofNat (48 + n) else UInt8.ofNat (55 + n)

/-- Percent-encode the bytes that are not `unreserved`. -/
def percentEncode (unreserved : UInt8 → Bool) : List UInt8 → List UInt8
  | [] => []
  | b :: rest =>
    if unreserved b then b :: percentEncode unreserved rest
    else 37 :: hexDigit (b.toNat / 16) :: hexDigit (b.toNat % 16) :: percentEncode unreserved rest

variable {unreserved : UInt8 → Bool}

theorem length_percentEncode : ∀ s : List UInt8,
    (percentEncode unreserved s).length = s.length + 2 * s.countP (!unreserved ·)
  | [] => rfl
  | b :: rest => by
    have ih := length_percentEncode rest
    rw [percentEncode]
    by_cases hb : unreserved b = true
    · rw [if_pos hb, List.countP_cons_of_neg (by simp [hb])]
      simp only [List.length_cons, ih]
      omega
    · rw [if_neg hb, List.countP_cons_of_pos (by simp [hb])]
      simp only [List.length_cons, ih]
      omega

theorem percentEncode_of_unreserved : ∀ {s : List UInt8}, (∀ b ∈ s, unreserved b = true) →
    percentEncode unreserved s = s
  | [], _ => rfl
  | b :: rest, h => by
    rw [List.forall_mem_cons] at h
    rw [percentEncode, if_pos h.1, percentEncode_of_unreserved h.2]

/-- **The fixed points** are the strings without reserved bytes. -/
theorem percentEncode_eq_self_iff {s : List UInt8} :
    percentEncode unreserved s = s ↔ ∀ b ∈ s, unreserved b = true := by
  refine ⟨fun h => ?_, percentEncode_of_unreserved⟩
  have hlen : (percentEncode unreserved s).length = _ := length_percentEncode s
  rw [h] at hlen
  have hzero : s.countP (!unreserved ·) = 0 := by omega
  intro b hb
  simpa using List.countP_eq_zero.mp hzero b hb

/-- The bytes of an encoding are unreserved bytes, `%` and digits. -/
theorem mem_percentEncode : ∀ {s : List UInt8} {c : UInt8}, c ∈ percentEncode unreserved s →
    unreserved c = true ∨ c = 37 ∨ ∃ n < 16, c = hexDigit n
  | [], _, h => absurd h List.not_mem_nil
  | b :: rest, c, h => by
    have hdiv : b.toNat / 16 < 16 := by
      have := b.toNat_lt
      omega
    rw [percentEncode] at h
    split at h
    · rename_i hb
      rcases List.mem_cons.mp h with rfl | h
      · exact Or.inl hb
      · exact mem_percentEncode h
    · simp only [List.mem_cons] at h
      rcases h with rfl | rfl | rfl | h
      · exact Or.inr (Or.inl rfl)
      · exact Or.inr (Or.inr ⟨_, hdiv, rfl⟩)
      · exact Or.inr (Or.inr ⟨_, Nat.mod_lt _ (by omega), rfl⟩)
      · exact mem_percentEncode h

/-- In the first `r` bytes of an encoding at most every third one is reserved. -/
theorem countP_take_percentEncode (hpercent : unreserved 37 = false)
    (hdigit : ∀ n < 16, unreserved (hexDigit n) = true) : ∀ (s : List UInt8) (r : Nat),
    3 * ((percentEncode unreserved s).take r).countP (!unreserved ·) ≤ r + 2
  | [], r => by simp [percentEncode]
  | b :: rest, 0 => by simp
  | b :: rest, r + 1 => by
    rw [percentEncode]
    by_cases hb : unreserved b = true
    · have ih := countP_take_percentEncode hpercent hdigit rest r
      rw [if_pos hb, List.take_succ_cons, List.countP_cons_of_neg (by simp [hb])]
      omega
    · have hdiv : b.toNat / 16 < 16 := by
        have := b.toNat_lt
        omega
      have h1 := hdigit _ hdiv
      have h2 := hdigit _ (Nat.mod_lt b.toNat (by omega : 0 < 16))
      rw [if_neg hb, List.take_succ_cons, List.countP_cons_of_pos (by simp [hpercent])]
      match r with
      | 0 => simp
      | 1 => simp [h1]
      | r + 2 =>
        have ih := countP_take_percentEncode hpercent hdigit rest r
        rw [List.take_succ_cons, List.take_succ_cons, List.countP_cons_of_neg (by simp [h1]),
          List.countP_cons_of_neg (by simp [h2])]
        omega

/-! ## Decoding -/

/-- The value of a hexadecimal digit. -/
def hexValue (c : UInt8) : Option Nat :=
  if 48 ≤ c ∧ c ≤ 57 then some (c.toNat - 48)
  else if 65 ≤ c ∧ c ≤ 70 then some (c.toNat - 55)
  else if 97 ≤ c ∧ c ≤ 102 then some (c.toNat - 87)
  else none

/-- A `%` and two hexadecimal digits become a byte; anything else stays. -/
def percentDecode : List UInt8 → List UInt8
  | c :: a :: b :: rest =>
    match c == 37, hexValue a, hexValue b with
    | true, some x, some y => UInt8.ofNat (16 * x + y) :: percentDecode rest
    | _, _, _ => c :: percentDecode (a :: b :: rest)
  | s => s

theorem hexValue_hexDigit : ∀ n < 16, hexValue (hexDigit n) = some n := by decide

theorem percentDecode_cons {c : UInt8} (hc : c ≠ 37) (s : List UInt8) :
    percentDecode (c :: s) = c :: percentDecode s := by
  have hfalse : (c == 37) = false := beq_false_of_ne hc
  match s with
  | [] => rfl
  | [_] => rfl
  | a :: b :: rest => simp only [percentDecode, hfalse]

theorem percentDecode_triplet (b : UInt8) (s : List UInt8) :
    percentDecode (37 :: hexDigit (b.toNat / 16) :: hexDigit (b.toNat % 16) :: s) =
      b :: percentDecode s := by
  have hb : 16 * (b.toNat / 16) + b.toNat % 16 = b.toNat := Nat.div_add_mod b.toNat 16
  have hdiv : b.toNat / 16 < 16 := by
    have := b.toNat_lt
    omega
  simp only [percentDecode, beq_self_eq_true, hexValue_hexDigit _ hdiv,
    hexValue_hexDigit _ (Nat.mod_lt b.toNat (by omega : 0 < 16)), hb, UInt8.ofNat_toNat]

/-- **Decoding an encoding gives the string back.** -/
theorem percentDecode_percentEncode (hpercent : unreserved 37 = false) : ∀ s : List UInt8,
    percentDecode (percentEncode unreserved s) = s
  | [] => rfl
  | b :: rest => by
    rw [percentEncode]
    by_cases hb : unreserved b = true
    · have hne : b ≠ 37 := by
        rintro rfl
        exact absurd hb (by simp [hpercent])
      rw [if_pos hb, percentDecode_cons hne, percentDecode_percentEncode hpercent rest]
    · rw [if_neg hb, percentDecode_triplet, percentDecode_percentEncode hpercent rest]

theorem percentEncode_injective (hpercent : unreserved 37 = false) {s t : List UInt8}
    (h : percentEncode unreserved s = percentEncode unreserved t) : s = t := by
  rw [← percentDecode_percentEncode hpercent s, h, percentDecode_percentEncode hpercent t]

/-! ## The order of encodings -/

/-- `x` is encoded before `y`: as a byte if both are reserved or both are not, and otherwise if `y`
is the unreserved one. -/
def EncodedBefore (unreserved : UInt8 → Bool) (x y : UInt8) : Prop :=
  if unreserved x = unreserved y then x < y else unreserved y = true

theorem hexDigit_lt_iff : ∀ m < 16, ∀ n < 16, hexDigit m < hexDigit n ↔ m < n := by decide

theorem hexDigit_inj : ∀ m < 16, ∀ n < 16, hexDigit m = hexDigit n ↔ m = n := by decide

/-- Two encoded bytes are ordered as the bytes. -/
theorem triplet_lt_iff {x y : UInt8} (hne : x ≠ y) (s t : List UInt8) :
    37 :: hexDigit (x.toNat / 16) :: hexDigit (x.toNat % 16) :: s <
        37 :: hexDigit (y.toNat / 16) :: hexDigit (y.toNat % 16) :: t ↔ x < y := by
  have hx : x.toNat / 16 < 16 := by
    have := x.toNat_lt
    omega
  have hy : y.toNat / 16 < 16 := by
    have := y.toNat_lt
    omega
  have hx' : x.toNat % 16 < 16 := Nat.mod_lt _ (by omega)
  have hy' : y.toNat % 16 < 16 := Nat.mod_lt _ (by omega)
  have hne' : x.toNat ≠ y.toNat := fun e => hne (UInt8.toNat_inj.mp e)
  simp only [List.cons_lt_cons_iff, hexDigit_lt_iff _ hx _ hy, hexDigit_lt_iff _ hx' _ hy',
    hexDigit_inj _ hx _ hy, hexDigit_inj _ hx' _ hy', UInt8.lt_irrefl, false_or, true_and,
    UInt8.lt_iff_toNat_lt]
  omega

/-- **The order of encodings.** -/
theorem percentEncode_lt_iff (hunreserved : ∀ c, unreserved c = true → 37 < c) :
    ∀ s t : List UInt8, percentEncode unreserved s < percentEncode unreserved t ↔
      List.Lex (EncodedBefore unreserved) s t
  | [], [] => by simp [percentEncode]
  | [], y :: t => by
    simp only [percentEncode, List.Lex.nil, iff_true]
    split <;> exact List.nil_lt_cons _ _
  | x :: s, [] => by simp [percentEncode]
  | x :: s, y :: t => by
    have ih := percentEncode_lt_iff hunreserved s t
    rw [List.cons_lex_cons_iff]
    by_cases hxy : x = y
    · subst hxy
      have hirrefl : ¬EncodedBefore unreserved x x := by simp [EncodedBefore]
      simp only [percentEncode, hirrefl, false_or, true_and]
      split <;> simp [ih]
    · simp only [hxy, false_and, or_false]
      unfold EncodedBefore
      cases hx : unreserved x with
      | true =>
        cases hy : unreserved y with
        | true => simp [percentEncode, hx, hy, List.cons_lt_cons_iff, hxy]
        | false =>
          have h37 := hunreserved x hx
          have hne : x ≠ 37 := fun e => UInt8.lt_irrefl _ (e ▸ h37)
          simp [percentEncode, hx, hy, List.cons_lt_cons_iff, hne, UInt8.lt_asymm h37]
      | false =>
        cases hy : unreserved y with
        | true => simp [percentEncode, hx, hy, List.cons_lt_cons_iff, hunreserved y hy]
        | false =>
          simp only [percentEncode, hx, hy, Bool.false_eq_true, if_false, if_true]
          exact triplet_lt_iff hxy _ _

end WinterWind.Library
