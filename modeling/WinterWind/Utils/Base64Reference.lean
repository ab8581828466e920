import WinterWind.Utils.Base64
import WinterWind.Library.BitGroups

/-!
# Standard base64 against its reference

`rfcEncode` and `rfcDecode` state the two directions of the RFC 4648 encoding on the bits of the
text: no masks, no buffers, no partial groups. `base64_encode` and `base64_decode` of
`src/core/utils/base64.cpp` compute these functions as long as the lengths fit their counters.

* `rfcEncode` looks up the 6-bit groups of the zero-padded bits and writes `=` up to a multiple of
  four characters.
* `rfcDecode` is defined on every string. It stops at the first character outside the alphabet,
  `=` included, and drops the bits that do not fill a byte.

Results:
* `base64Encode_eq_rfcEncode`, `base64Decode_eq_rfcDecode`: the code computes the reference.
* `rfcDecode_symbols`: the reference decodes what it encodes, with any amount of padding.
* **`base64_reference`**: the two put together.
-/

namespace WinterWind

open Library

/-- The characters of the 6-bit groups of a text. -/
def rfcSymbols (x : Bytes) : Bytes :=
  (bitGroups 6 (zeroPadded 6 (byteBits x))).map fun g => symbol base64Chars (ofBits g)

/-- The padded encoding of RFC 4648. -/
def rfcEncode (x : Bytes) : Bytes :=
  rfcSymbols x ++ List.replicate ((4 - (rfcSymbols x).length % 4) % 4) padChar

/-- The characters of the alphabet that `s` begins with. -/
def alphabetPrefix (s : Bytes) : Bytes := s.takeWhile fun c => base64Chars.contains c

/-- What `s` decodes to: the 6-bit values of its characters, regrouped into bytes. -/
def rfcDecode (s : Bytes) : Bytes :=
  (bitGroups 8 (sextetBits ((alphabetPrefix s).map fun c => base64Chars.idxOf c))).map fun g =>
    UInt8.ofNat (ofBits g)

/-! ## Encoding -/

theorem rfcSymbols_eq (x : Bytes) : rfcSymbols x = (sextets x).map (symbol base64Chars) := by
  rw [rfcSymbols, sextets_eq_bitGroups, List.map_map]
  rfl

/-- Both ways of counting the `=` agree. -/
theorem rfcEncode_eq (x : Bytes) :
    rfcEncode x =
      (sextets x).map (symbol base64Chars) ++ List.replicate (padding x.length) padChar := by
  have hpad : (4 - (4 * x.length + 2) / 3 % 4) % 4 = padding x.length := by
    have hmod : x.length % 3 = 0 ∨ x.length % 3 = 1 ∨ x.length % 3 = 2 := by omega
    unfold padding
    rcases hmod with h | h | h
    · omega
    · omega
    · omega
  rw [rfcEncode, rfcSymbols_eq, List.length_map, length_sextets, hpad]

theorem length_le_rfcEncode (x : Bytes) : x.length ≤ (rfcEncode x).length := by
  rw [rfcEncode_eq, List.length_append, List.length_map, length_sextets]
  omega

/-- **The encoder computes the reference**, on texts whose size fits an `unsigned int`. -/
theorem base64Encode_eq_rfcEncode {x : Bytes} (h : x.length < 2 ^ 32) :
    base64Encode x = rfcEncode x := by
  rw [base64Encode, Nat.mod_eq_of_lt h, base64EncodePriv_eq, List.take_length, rfcEncode_eq]

/-! ## Decoding -/

/-- The alphabet: the letters, the digits and two more. -/
theorem base64Chars_eq :
    base64Chars = (List.range' 65 26).map UInt8.ofNat ++ (List.range' 97 26).map UInt8.ofNat ++
      (List.range' 48 10).map UInt8.ofNat ++ [43, 47] := by
  decide +kernel

theorem mem_map_ofNat {first n : Nat} (h : first + n ≤ 256) (c : UInt8) :
    c ∈ (List.range' first n).map UInt8.ofNat ↔ first ≤ c.toNat ∧ c.toNat < first + n := by
  rw [List.mem_map]
  constructor
  · rintro ⟨m, hm, rfl⟩
    rw [List.mem_range'_1] at hm
    rwa [UInt8.toNat_ofNat', Nat.mod_eq_of_lt (by omega)]
  · intro hc
    exact ⟨c.toNat, List.mem_range'_1.mpr hc, UInt8.ofNat_toNat⟩

/-- The loop goes on over the characters of the standard alphabet and no others. -/
theorem accepts_iff_mem (c : UInt8) : (c != padChar && isBase64 c) = true ↔ c ∈ base64Chars := by
  rw [base64Chars_eq]
  simp only [List.mem_append, mem_map_ofNat (by omega : 65 + 26 ≤ 256),
    mem_map_ofNat (by omega : 97 + 26 ≤ 256), mem_map_ofNat (by omega : 48 + 10 ≤ 256),
    List.mem_cons, List.not_mem_nil, or_false, isBase64, padChar, Bool.and_eq_true, Bool.or_eq_true,
    bne_iff_ne, beq_iff_eq, decide_eq_true_eq, ne_eq, UInt8.le_iff_toNat_le, ← UInt8.toNat_inj,
    UInt8.reduceToNat]
  omega

theorem scan_eq_alphabetPrefix (s : Bytes) : scan s = alphabetPrefix s := by
  have hsame : (fun c => c != padChar && isBase64 c) = fun c => base64Chars.contains c := by
    funext c
    rw [Bool.eq_iff_iff, accepts_iff_mem, List.contains_iff_mem]
  rw [scan, alphabetPrefix, hsame]

theorem mem_of_mem_alphabetPrefix {s : Bytes} {c : UInt8} (h : c ∈ alphabetPrefix s) :
    c ∈ base64Chars := by
  simpa using List.mem_takeWhile_imp h

theorem idxOf_lt {c : UInt8} (h : c ∈ base64Chars) : base64Chars.idxOf c < 64 :=
  List.idxOf_lt_length_of_mem h

theorem symbol_idxOf {c : UInt8} (h : c ∈ base64Chars) :
    symbol base64Chars (base64Chars.idxOf c) = c := by
  rw [symbol, List.getD_eq_getElem?_getD, List.getElem?_eq_getElem (List.idxOf_lt_length_of_mem h),
    List.getElem_idxOf, Option.getD_some]

/-- Looking up the characters of the alphabet and regrouping is the reference. -/
theorem decodeChars_alphabetPrefix (s : Bytes) :
    decodeChars base64Chars (alphabetPrefix s) = rfcDecode s := by
  have hlt : ∀ v ∈ (alphabetPrefix s).map (fun c => base64Chars.idxOf c), v < 64 := by
    intro v hv
    obtain ⟨c, hc, rfl⟩ := List.mem_map.mp hv
    exact idxOf_lt (mem_of_mem_alphabetPrefix hc)
  have hsymbols : ((alphabetPrefix s).map fun c => base64Chars.idxOf c).map (symbol base64Chars) =
      alphabetPrefix s := by
    rw [List.map_map]
    exact (List.map_congr_left fun c hc => symbol_idxOf (mem_of_mem_alphabetPrefix hc)).trans
      (List.map_id' _)
  have h := decodeChars_symbols charIndex_symbol_std _ hlt
  rwa [hsymbols, octets_eq_bitGroups hlt] at h

/-- **The decoder computes the reference**, on strings whose size fits an `int`. -/
theorem base64Decode_eq_rfcDecode {s : Bytes} (h : s.length < 2 ^ 31) :
    base64Decode s = some (rfcDecode s) := by
  rw [base64Decode, base64DecodePriv_eq h, scan_eq_alphabetPrefix, decodeChars_alphabetPrefix]

/-! ## There and back -/

/-- The reference decodes what it encodes, with any amount of padding. -/
theorem rfcDecode_symbols (x : Bytes) (n : Nat) :
    rfcDecode ((sextets x).map (symbol base64Chars) ++ List.replicate n padChar) = x := by
  have hsymbols : ∀ c ∈ (sextets x).map (symbol base64Chars), base64Chars.contains c = true :=
    fun c hc => List.contains_iff_mem.mpr (symbols_subset rfl x hc)
  have hprefix : alphabetPrefix
      ((sextets x).map (symbol base64Chars) ++ List.replicate n padChar) =
        (sextets x).map (symbol base64Chars) := by
    rw [← scan_eq_alphabetPrefix, scan_append_pad, scan_eq_alphabetPrefix]
    exact List.takeWhile_eq_self_iff.mpr hsymbols
  have h := decodeChars_alphabetPrefix
    ((sextets x).map (symbol base64Chars) ++ List.replicate n padChar)
  rw [← h, hprefix, decodeChars_symbols charIndex_symbol_std _ (sextets_lt x), octets_sextets]

/-- **Standard base64 equals its reference on every input.** -/
theorem base64_reference {x s : Bytes} (hx : (rfcEncode x).length < 2 ^ 31)
    (hs : s.length < 2 ^ 31) :
    base64Encode x = rfcEncode x ∧ base64Decode s = some (rfcDecode s) ∧
      base64Decode (base64Encode x) = some x ∧
      base64Decode ((base64Encode x).filter (· ≠ padChar)) = some x := by
  have hsize := length_le_rfcEncode x
  have henc : base64Encode x = rfcEncode x := base64Encode_eq_rfcEncode (by omega)
  have hplain : (rfcEncode x).filter (· ≠ padChar) =
      (sextets x).map (symbol base64Chars) ++ List.replicate 0 padChar := by
    rw [rfcEncode_eq, filter_symbols rfl (by decide), List.replicate_zero, List.append_nil]
  have hshort : ((rfcEncode x).filter (· ≠ padChar)).length < 2 ^ 31 :=
    lt_of_le_of_lt (List.length_filter_le _ _) hx
  refine ⟨henc, base64Decode_eq_rfcDecode hs, ?_, ?_⟩
  · rw [henc, base64Decode_eq_rfcDecode hx, rfcEncode_eq, rfcDecode_symbols]
  · rw [henc, base64Decode_eq_rfcDecode hshort, hplain, rfcDecode_symbols]

/-- Two bytes with a padded encoding, and a malformed string of five usable characters. -/
theorem base64_reference_malformed :
    base64Encode [0xfb, 0xff] = rfcEncode [0xfb, 0xff] ∧
      base64Decode (ascii "+/8AB-==") = some (rfcDecode (ascii "+/8AB-==")) ∧
      base64Decode (base64Encode [0xfb, 0xff]) = some [0xfb, 0xff] ∧
      base64Decode ((base64Encode [0xfb, 0xff]).filter (· ≠ padChar)) = some [0xfb, 0xff] :=
  base64_reference (x := [0xfb, 0xff]) (s := ascii "+/8AB-==") (by decide) (by decide)

end WinterWind
