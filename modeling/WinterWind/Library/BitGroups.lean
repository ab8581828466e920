import WinterWind.Library.Sextets

/-!
# Regrouping bits

`bits w n` is the `w` low bits of a number, most significant first, and `ofBits` the number that
bits spell. `bitGroups w` cuts a bit string into whole groups of `w` and drops what does not fill a
group; `zeroPadded w` completes the last group with zero bits.

Results:
* `bits_add`, `bits_append`, `ofBits_bits`: numbers are cut and joined like their bits.
* **`sextets_eq_bitGroups`**, **`octets_eq_bitGroups`**: the arithmetic regrouping of `Sextets` is
  the regrouping of the bits.
-/

namespace WinterWind.Library

/-- The `w` low bits of a number, most significant first. -/
def bits : Nat → Nat → List Bool
  | 0, _ => []
  | w + 1, n => bits w (n / 2) ++ [n % 2 == 1]

/-- The number that bits spell, most significant first. -/
def ofBits (bs : List Bool) : Nat := bs.foldl (fun n b => 2 * n + b.toNat) 0

/-- The whole groups of `w` bits; what does not fill a group is dropped. -/
def bitGroups (w : Nat) (bs : List Bool) : List (List Bool) :=
  (List.range (bs.length / w)).map fun i => (bs.drop (i * w)).take w

/-- Zero bits up to a multiple of `w`. -/
def zeroPadded (w : Nat) (bs : List Bool) : List Bool :=
  bs ++ List.replicate ((w - bs.length % w) % w) false

/-! ## The bits of a number -/

@[simp]
theorem length_bits (w n : Nat) : (bits w n).length = w := by
  induction w generalizing n with
  | zero => rfl
  | succ w ih => rw [bits, List.length_append, ih, List.length_singleton]

/-- Only the low bits are read. -/
theorem bits_mod (w n : Nat) : bits w (n % 2 ^ w) = bits w n := by
  induction w generalizing n with
  | zero => rfl
  | succ w ih =>
    have hhigh : n % 2 ^ (w + 1) / 2 = n / 2 % 2 ^ w := by
      rw [pow_succ', Nat.mod_mul_right_div_self]
    have hlow : n % 2 ^ (w + 1) % 2 = n % 2 :=
      Nat.mod_mod_of_dvd n (dvd_pow_self 2 (Nat.succ_ne_zero w))
    rw [bits, bits, hhigh, hlow, ih]

/-- The bits of a number split at any position. -/
theorem bits_add (a b n : Nat) : bits (a + b) n = bits a (n / 2 ^ b) ++ bits b n := by
  induction b generalizing n with
  | zero => simp [bits]
  | succ b ih =>
    rw [← Nat.add_assoc, bits, bits, ih, Nat.div_div_eq_div_mul, ← pow_succ', List.append_assoc]

/-- Bits written one after another are those of the joined number. -/
theorem bits_append {a b x y : Nat} (hy : y < 2 ^ b) :
    bits a x ++ bits b y = bits (a + b) (x * 2 ^ b + y) := by
  have hhigh : (x * 2 ^ b + y) / 2 ^ b = x := by
    rw [Nat.add_comm, Nat.add_mul_div_right _ _ (Nat.two_pow_pos b), Nat.div_eq_of_lt hy,
      Nat.zero_add]
  have hlow : (x * 2 ^ b + y) % 2 ^ b = y := by
    rw [Nat.add_comm, Nat.add_mul_mod_self_right, Nat.mod_eq_of_lt hy]
  rw [bits_add, hhigh, ← bits_mod b (x * 2 ^ b + y), hlow]

theorem bits_zero (w : Nat) : bits w 0 = List.replicate w false := by
  induction w with
  | zero => rfl
  | succ w ih =>
    rw [bits, Nat.zero_div, ih, List.replicate_succ']
    rfl

theorem ofBits_concat (bs : List Bool) (b : Bool) :
    ofBits (bs ++ [b]) = 2 * ofBits bs + b.toNat := by
  rw [ofBits, List.foldl_append, ofBits, List.foldl_cons, List.foldl_nil]

/-- A number is read back from its bits. -/
theorem ofBits_bits (w n : Nat) : ofBits (bits w n) = n % 2 ^ w := by
  induction w generalizing n with
  | zero => rw [pow_zero, Nat.mod_one, bits, ofBits, List.foldl_nil]
  | succ w ih =>
    have hbit : (n % 2 == 1).toNat = n % 2 := by
      rcases Nat.mod_two_eq_zero_or_one n with h | h <;> rw [h] <;> rfl
    rw [bits, ofBits_concat, ih, hbit, pow_succ', Nat.mod_mul, Nat.add_comm]

theorem ofBits_bits_of_lt {w n : Nat} (h : n < 2 ^ w) : ofBits (bits w n) = n := by
  rw [ofBits_bits, Nat.mod_eq_of_lt h]

/-! ## Groups -/

/-- A group that is full comes first. -/
theorem bitGroups_append {w : Nat} {g : List Bool} (hw : 0 < w) (hg : g.length = w)
    (bs : List Bool) : bitGroups w (g ++ bs) = g :: bitGroups w bs := by
  have hcount : (g ++ bs).length / w = bs.length / w + 1 := by
    rw [List.length_append, hg, Nat.add_div_left _ hw]
  have hrest : ∀ i, (g ++ bs).drop ((i + 1) * w) = bs.drop (i * w) := fun i => by
    rw [Nat.succ_mul, Nat.add_comm, ← hg, List.drop_length_add_append]
  rw [bitGroups, hcount, List.range_succ_eq_map, List.map_cons, List.map_map, Nat.zero_mul,
    List.drop_zero, List.take_left' hg]
  congr 1
  exact List.map_congr_left fun i _ => by rw [Function.comp_apply, hrest]

/-- Too few bits form no group. -/
theorem bitGroups_of_lt {w : Nat} {bs : List Bool} (h : bs.length < w) : bitGroups w bs = [] := by
  rw [bitGroups, Nat.div_eq_of_lt h, List.range_zero, List.map_nil]

/-- Groups written one after another are cut apart again; what follows them forms no group. -/
theorem bitGroups_flatMap {α : Type} {w : Nat} (hw : 0 < w) {f : α → List Bool}
    (hf : ∀ a, (f a).length = w) {rest : List Bool} (hrest : rest.length < w) (l : List α) :
    bitGroups w (l.flatMap f ++ rest) = l.map f := by
  induction l with
  | nil => exact bitGroups_of_lt hrest
  | cons a l ih =>
    rw [List.flatMap_cons, List.append_assoc, bitGroups_append hw (hf a), ih, List.map_cons]

/-! ## Bytes and 6-bit values -/

/-- The bits of a byte string. -/
def byteBits (s : List UInt8) : List Bool := s.flatMap fun a => bits 8 a.toNat

/-- The bits of 6-bit values. -/
def sextetBits (vs : List Nat) : List Bool := vs.flatMap (bits 6)

@[simp]
theorem byteBits_nil : byteBits [] = [] := rfl

theorem byteBits_ofNat_cons (n : Nat) (s : List UInt8) :
    byteBits (UInt8.ofNat n :: s) = bits 8 n ++ byteBits s := by
  rw [byteBits, List.flatMap_cons, UInt8.toNat_ofNat', bits_mod, byteBits]

/-- Padding looks at the remaining bits only. -/
theorem zeroPadded_append {w : Nat} {g : List Bool} (hg : g.length % w = 0) (bs : List Bool) :
    zeroPadded w (g ++ bs) = g ++ zeroPadded w bs := by
  rw [zeroPadded, zeroPadded, List.length_append, Nat.add_mod, hg, Nat.zero_add, Nat.mod_mod,
    List.append_assoc]

/-- The bits of the 6-bit values are those of the bytes, then the padding: both spell one number,
group of three bytes by group. -/
theorem sextetBits_sextets : ∀ s : List UInt8,
    sextetBits (sextets s) = zeroPadded 6 (byteBits s)
  | [] => rfl
  | [a] => by
    have ha := toNat_lt_256 a
    have hpad : zeroPadded 6 (byteBits [a]) = bits 8 a.toNat ++ bits 4 0 := by
      simp [zeroPadded, byteBits, bits_zero]
    have e : bits 6 (a.toNat / 4) ++ bits 6 (a.toNat % 4 * 16) = bits 8 a.toNat ++ bits 4 0 := by
      rw [bits_append (by omega), bits_append (by omega)]
      congr 1
      omega
    simpa [sextetBits, sextets, hpad] using e
  | [a, b] => by
    have ha := toNat_lt_256 a
    have hb := toNat_lt_256 b
    have hpad : zeroPadded 6 (byteBits [a, b]) = bits 8 a.toNat ++ bits 8 b.toNat ++ bits 2 0 := by
      simp [zeroPadded, byteBits, bits_zero]
    have e : bits 6 (a.toNat / 4) ++ bits 6 (a.toNat % 4 * 16 + b.toNat / 16) ++
          bits 6 (b.toNat % 16 * 4) =
        bits 8 a.toNat ++ bits 8 b.toNat ++ bits 2 0 := by
      rw [bits_append (by omega), bits_append (by omega), bits_append (by omega),
        bits_append (by omega)]
      congr 1
      omega
    simpa [sextetBits, sextets, hpad] using e
  | a :: b :: c :: rest => by
    have ha := toNat_lt_256 a
    have hb := toNat_lt_256 b
    have hc := toNat_lt_256 c
    have e : bits 6 (a.toNat / 4) ++ bits 6 (a.toNat % 4 * 16 + b.toNat / 16) ++
          bits 6 (b.toNat % 16 * 4 + c.toNat / 64) ++ bits 6 (c.toNat % 64) =
        bits 8 a.toNat ++ bits 8 b.toNat ++ bits 8 c.toNat := by
      rw [bits_append (by omega), bits_append (by omega), bits_append (by omega),
        bits_append (by omega), bits_append (by omega)]
      congr 1
      omega
    have hbytes : byteBits (a :: b :: c :: rest) =
        bits 8 a.toNat ++ bits 8 b.toNat ++ bits 8 c.toNat ++ byteBits rest := by
      simp only [byteBits, List.flatMap_cons, List.append_assoc]
    rw [hbytes, zeroPadded_append (by simp), ← e, ← sextetBits_sextets rest]
    simp only [sextets, sextetBits, List.flatMap_cons, List.append_assoc]

/-- The bits of 6-bit values are those of the bytes they form, and fewer than eight more. -/
theorem exists_sextetBits : ∀ vs : List Nat, (∀ v ∈ vs, v < 64) →
    ∃ rest : List Bool, rest.length < 8 ∧ sextetBits vs = byteBits (octets vs) ++ rest
  | [], _ => ⟨[], by simp, rfl⟩
  | [w], _ => ⟨bits 6 w, by simp, by simp [sextetBits, byteBits, octets]⟩
  | [w, x], h => by
    have hx := h x (by simp)
    have e : bits 6 w ++ bits 6 x = bits 8 (w * 4 + x / 16) ++ bits 4 (x % 16) := by
      rw [bits_append (by omega), bits_append (by omega)]
      congr 1
      omega
    refine ⟨bits 4 (x % 16), by simp, ?_⟩
    simpa only [sextetBits, List.flatMap_cons, List.flatMap_nil, List.append_nil, octets,
      byteBits_ofNat_cons, byteBits_nil] using e
  | [w, x, y], h => by
    have hx := h x (by simp)
    have hy := h y (by simp)
    have e : bits 6 w ++ bits 6 x ++ bits 6 y =
        bits 8 (w * 4 + x / 16) ++ bits 8 (x % 16 * 16 + y / 4) ++ bits 2 (y % 4) := by
      rw [bits_append (by omega), bits_append (by omega), bits_append (by omega),
        bits_append (by omega)]
      congr 1
      omega
    refine ⟨bits 2 (y % 4), by simp, ?_⟩
    simpa only [sextetBits, List.flatMap_cons, List.flatMap_nil, List.append_nil, octets,
      byteBits_ofNat_cons, byteBits_nil, List.append_assoc] using e
  | w :: x :: y :: z :: vs, h => by
    have hx := h x (by simp)
    have hy := h y (by simp)
    have hz := h z (by simp)
    obtain ⟨rest, hrest, ih⟩ := exists_sextetBits vs fun v hv => h v (by simp [hv])
    have e : bits 6 w ++ bits 6 x ++ bits 6 y ++ bits 6 z =
        bits 8 (w * 4 + x / 16) ++ bits 8 (x % 16 * 16 + y / 4) ++ bits 8 (y % 4 * 64 + z) := by
      rw [bits_append (by omega), bits_append (by omega), bits_append (by omega),
        bits_append (by omega), bits_append (by omega)]
      congr 1
      omega
    have hvalues : sextetBits (w :: x :: y :: z :: vs) =
        bits 6 w ++ bits 6 x ++ bits 6 y ++ bits 6 z ++ sextetBits vs := by
      simp only [sextetBits, List.flatMap_cons, List.append_assoc]
    refine ⟨rest, hrest, ?_⟩
    rw [hvalues, e, ih]
    simp only [octets, byteBits_ofNat_cons, List.append_assoc]

/-- **`sextets` cuts the zero-padded bits into groups of six.** -/
theorem sextets_eq_bitGroups (s : List UInt8) :
    sextets s = (bitGroups 6 (zeroPadded 6 (byteBits s))).map ofBits := by
  have hgroups : bitGroups 6 (sextetBits (sextets s) ++ []) = (sextets s).map (bits 6) :=
    bitGroups_flatMap (by omega) (length_bits 6) (by simp) _
  have hvalues : ∀ v ∈ sextets s, ofBits (bits 6 v) = v := fun v hv =>
    ofBits_bits_of_lt (sextets_lt s v hv)
  rw [← sextetBits_sextets, ← List.append_nil (sextetBits _), hgroups, List.map_map]
  exact ((List.map_congr_left hvalues).trans (List.map_id' _)).symm

/-- **`octets` cuts the bits of 6-bit values into groups of eight.** -/
theorem octets_eq_bitGroups {vs : List Nat} (h : ∀ v ∈ vs, v < 64) :
    octets vs = (bitGroups 8 (sextetBits vs)).map fun g => UInt8.ofNat (ofBits g) := by
  obtain ⟨rest, hrest, e⟩ := exists_sextetBits vs h
  have hgroups := bitGroups_flatMap (by omega) (fun a : UInt8 => length_bits 8 a.toNat) hrest
    (octets vs)
  have hbytes : ∀ a : UInt8, UInt8.ofNat (ofBits (bits 8 a.toNat)) = a := fun a => by
    rw [ofBits_bits, Nat.mod_eq_of_lt a.toNat_lt, UInt8.ofNat_toNat]
  rw [e, byteBits, hgroups, List.map_map]
  exact ((List.map_congr_left fun a _ => hbytes a).trans (List.map_id' _)).symm

end WinterWind.Library
