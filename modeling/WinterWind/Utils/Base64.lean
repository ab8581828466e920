import WinterWind.Basic
import WinterWind.Library.Sextets

/-!
# Base64 (`src/core/utils/base64.cpp`)

`base64EncodePriv` and `base64DecodePriv` are the two loops of the file, over a caller-chosen
alphabet; the four public functions instantiate them with `base64Chars` and `base64UrlChars`.

* Lengths are the machine integers of the source: the encoder takes `unsigned int len`, so it
  reads `size mod 2^32` bytes; the decoder counts `int in_len` down from the size converted to
  `int`. `decodeLoop` returns `none` where that count overflows, which is undefined behaviour.
* `char_array_3` and `char_array_4` are the buffers `buf`, filled up to `i = buf.length`.
* The scan of the decoder stops at `=` and at the first character `isBase64` refuses. `isBase64`
  knows the standard alphabet only, whatever alphabet the caller chose.

Results:
* `base64EncodePriv_eq`: the encoder is `sextets` through the alphabet, then the padding.
* `base64DecodePriv_eq`, `base64DecodePriv_long`: what the decoder reads, in terms of `octets`;
  `base64DecodePriv_eq_none_iff`: on which strings its count overflows.
* **`base64UrlDecode_urlEncode_iff`**: the URL-safe pair is inverse exactly on the strings without
  a 6-bit group of value 62 or 63 (and shorter than `2^32`), padded or not.
-/

namespace WinterWind

open Library

/-! ## The source functions -/

/-- `is_base64`, with `isalnum` of the "C" locale. -/
def isBase64 (c : UInt8) : Bool :=
  (48 ≤ c && c ≤ 57) || (65 ≤ c && c ≤ 90) || (97 ≤ c && c ≤ 122) || c == 43 || c == 47

def base64Chars : Bytes := ascii "ABCDEFGHIJKLMNOPQRSTUVWXYZabcdefghijklmnopqrstuvwxyz0123456789+/"

def base64UrlChars : Bytes :=
  ascii "ABCDEFGHIJKLMNOPQRSTUVWXYZabcdefghijklmnopqrstuvwxyz0123456789-_"

/-- `chars[i]`. -/
def charAt (chars : Bytes) (i : UInt8) : UInt8 := chars.getD i.toNat 0

/-- The character `=`. -/
def padChar : UInt8 := 61

/-- `char_array_4` from `char_array_3`. -/
def encodeGroup (a b c : UInt8) : List UInt8 :=
  [(a &&& 0xfc) >>> 2, ((a &&& 0x03) <<< 4) + ((b &&& 0xf0) >>> 4),
    ((b &&& 0x0f) <<< 2) + ((c &&& 0xc0) >>> 6), c &&& 0x3f]

/-- The loop of `base64_encode_priv` over the remaining input, then its tail: a started group is
completed with zero bytes, `i + 1` of its characters are written, and `=` up to four. -/
def encodeLoop (chars : Bytes) : Bytes → List UInt8 → Bytes → Bytes
  | c :: rest, [a, b], ret =>
    encodeLoop chars rest [] (ret ++ (encodeGroup a b c).map (charAt chars))
  | c :: rest, buf, ret => encodeLoop chars rest (buf ++ [c]) ret
  | [], [], ret => ret
  | [], buf, ret =>
    ret ++ ((encodeGroup (buf.getD 0 0) (buf.getD 1 0) (buf.getD 2 0)).take (buf.length + 1)).map
      (charAt chars) ++ List.replicate (3 - buf.length) padChar

/-- `base64_encode_priv(bytes_to_encode, in_len, chars)`. -/
def base64EncodePriv (bytes : Bytes) (inLen : Nat) (chars : Bytes) : Bytes :=
  encodeLoop chars (bytes.take inLen) [] []

/-- `chars.find(c)` stored in an `unsigned char`: `npos` becomes 255. -/
def charIndex (chars : Bytes) (c : UInt8) : UInt8 :=
  match chars.idxOf? c with
  | some i => UInt8.ofNat i
  | none => 255

/-- `char_array_3` from the looked-up `char_array_4`. -/
def decodeGroup (w x y z : UInt8) : List UInt8 :=
  [(w <<< 2) + ((x &&& 0x30) >>> 4), ((x &&& 0xf) <<< 4) + ((y &&& 0x3c) >>> 2),
    ((y &&& 0x3) <<< 6) + z]

/-- The tail of `base64_decode_priv`: a started group is completed with NUL characters, looked up
like the others, and `i - 1` of its bytes are written. -/
def decodeTail (chars : Bytes) (buf : List UInt8) (ret : Bytes) : Bytes :=
  if buf.isEmpty then ret
  else
    let at_ (j : Nat) := charIndex chars (buf.getD j 0)
    ret ++ (decodeGroup (at_ 0) (at_ 1) (at_ 2) (at_ 3)).take (buf.length - 1)

/-- The body of the decoding loop: the character is stored, and a full buffer is decoded. -/
def storeChar (chars : Bytes) (c : UInt8) : List UInt8 → Bytes → List UInt8 × Bytes
  | [p, q, r], ret =>
    ([], ret ++ decodeGroup (charIndex chars p) (charIndex chars q) (charIndex chars r)
      (charIndex chars c))
  | buf, ret => (buf ++ [c], ret)

/-- The loop of `base64_decode_priv`: `inLen` is tested and decremented first, then the character
at `in_` is looked at. Past the end that character is the terminating NUL, which is refused.
`none` is the decrement of the least `int`. -/
def decodeLoop (chars : Bytes) : Bytes → Int → List UInt8 → Bytes → Option Bytes
  | [], inLen, buf, ret => if inLen = -2 ^ 31 then none else some (decodeTail chars buf ret)
  | c :: rest, inLen, buf, ret =>
    if inLen = 0 then some (decodeTail chars buf ret)
    else if inLen = -2 ^ 31 then none
    else if c != padChar && isBase64 c then
      let st := storeChar chars c buf ret
      decodeLoop chars rest (inLen - 1) st.1 st.2
    else some (decodeTail chars buf ret)

/-- `base64_decode_priv(encoded_string, chars)`. -/
def base64DecodePriv (encoded chars : Bytes) : Option Bytes :=
  decodeLoop chars encoded (toInt encoded.length) [] []

/-- `base64_encode(str)`: the size is passed as an `unsigned int`. -/
def base64Encode (str : Bytes) : Bytes := base64EncodePriv str (str.length % 2 ^ 32) base64Chars

/-- `base64_urlencode(str)`. -/
def base64UrlEncode (str : Bytes) : Bytes :=
  base64EncodePriv str (str.length % 2 ^ 32) base64UrlChars

/-- `base64_decode(s)`. -/
def base64Decode (s : Bytes) : Option Bytes := base64DecodePriv s base64Chars

/-- `base64_urldecode(s)`. -/
def base64UrlDecode (s : Bytes) : Option Bytes := base64DecodePriv s base64UrlChars

/-! ## Bytes and 6-bit values -/

theorem toNat_add_of_lt {a b : UInt8} (h : a.toNat + b.toNat < 256) :
    (a + b).toNat = a.toNat + b.toNat := by
  rw [UInt8.toNat_add, Nat.mod_eq_of_lt h]

/-- The low bits of a number. -/
theorem and_low (n bits : Nat) : n &&& (2 ^ bits - 1) = n % 2 ^ bits :=
  Nat.and_two_pow_sub_one_eq_mod n bits

/-- The bits of a byte from `i` on, under a mask that has them all. -/
theorem and_shiftRight {n mask i : Nat} (h : n < 2 ^ 8) (hi : i ≤ 8)
    (hmask : mask >>> i = 2 ^ (8 - i) - 1) : (n &&& mask) >>> i = n / 2 ^ i := by
  have hlt : n / 2 ^ i < 2 ^ (8 - i) := by
    rw [Nat.div_lt_iff_lt_mul (Nat.two_pow_pos i), ← Nat.pow_add, Nat.sub_add_cancel hi]
    exact h
  rw [Nat.shiftRight_and_distrib, hmask, and_low, Nat.shiftRight_eq_div_pow, Nat.mod_eq_of_lt hlt]

theorem high_six (a : UInt8) : ((a &&& 0xfc) >>> 2).toNat = a.toNat / 4 := by
  rw [UInt8.toNat_shiftRight, UInt8.toNat_and]
  exact and_shiftRight a.toNat_lt_size (by omega) rfl

theorem high_four (a : UInt8) : ((a &&& 0xf0) >>> 4).toNat = a.toNat / 16 := by
  rw [UInt8.toNat_shiftRight, UInt8.toNat_and]
  exact and_shiftRight a.toNat_lt_size (by omega) rfl

theorem high_two (a : UInt8) : ((a &&& 0xc0) >>> 6).toNat = a.toNat / 64 := by
  rw [UInt8.toNat_shiftRight, UInt8.toNat_and]
  exact and_shiftRight a.toNat_lt_size (by omega) rfl

theorem low_two (a : UInt8) : ((a &&& 0x03) <<< 4).toNat = a.toNat % 4 * 16 := by
  rw [UInt8.toNat_shiftLeft, UInt8.toNat_and]
  change (a.toNat &&& (2 ^ 2 - 1)) <<< 4 % 256 = _
  rw [and_low, Nat.shiftLeft_eq]
  omega

theorem low_four (a : UInt8) : ((a &&& 0x0f) <<< 2).toNat = a.toNat % 16 * 4 := by
  rw [UInt8.toNat_shiftLeft, UInt8.toNat_and]
  change (a.toNat &&& (2 ^ 4 - 1)) <<< 2 % 256 = _
  rw [and_low, Nat.shiftLeft_eq]
  omega

theorem low_six (a : UInt8) : (a &&& 0x3f).toNat = a.toNat % 64 := by
  rw [UInt8.toNat_and]
  exact and_low a.toNat 6

/-- A group holds the four 6-bit values of its three bytes. -/
theorem encodeGroup_toNat (a b c : UInt8) :
    (encodeGroup a b c).map UInt8.toNat =
      [a.toNat / 4, a.toNat % 4 * 16 + b.toNat / 16, b.toNat % 16 * 4 + c.toNat / 64,
        c.toNat % 64] := by
  have hb := toNat_lt_256 b
  have hc := toNat_lt_256 c
  have h1 : ((a &&& 0x03) <<< 4).toNat + ((b &&& 0xf0) >>> 4).toNat < 256 := by
    rw [low_two, high_four]
    omega
  have h2 : ((b &&& 0x0f) <<< 2).toNat + ((c &&& 0xc0) >>> 6).toNat < 256 := by
    rw [low_four, high_two]
    omega
  simp only [encodeGroup, List.map_cons, List.map_nil, toNat_add_of_lt h1, toNat_add_of_lt h2,
    high_six, low_two, high_four, low_four, high_two, low_six]

/-- The bytes of a group of four 6-bit values. -/
theorem decodeGroup_ofNat {w x y : Nat} (z : Nat) (hw : w < 64) (hx : x < 64) (hy : y < 64) :
    decodeGroup (UInt8.ofNat w) (UInt8.ofNat x) (UInt8.ofNat y) (UInt8.ofNat z) =
      [UInt8.ofNat (w * 4 + x / 16), UInt8.ofNat (x % 16 * 16 + y / 4),
        UInt8.ofNat (y % 4 * 64 + z)] := by
  have e1 : ∀ n < 64, UInt8.ofNat n <<< 2 = UInt8.ofNat (n * 4) := by decide +kernel
  have e2 : ∀ n < 64, (UInt8.ofNat n &&& 0x30) >>> 4 = UInt8.ofNat (n / 16) := by decide +kernel
  have e3 : ∀ n < 64, (UInt8.ofNat n &&& 0xf) <<< 4 = UInt8.ofNat (n % 16 * 16) := by
    decide +kernel
  have e4 : ∀ n < 64, (UInt8.ofNat n &&& 0x3c) >>> 2 = UInt8.ofNat (n / 4) := by decide +kernel
  have e5 : ∀ n < 64, (UInt8.ofNat n &&& 0x3) <<< 6 = UInt8.ofNat (n % 4 * 64) := by
    decide +kernel
  simp only [decodeGroup, e1 w hw, e2 x hx, e3 x hx, e4 y hy, e5 y hy, UInt8.ofNat_add]

/-! ## What the encoder writes -/

/-- The symbol of a 6-bit value. -/
def symbol (chars : Bytes) (v : Nat) : UInt8 := chars.getD v 0

theorem symbol_mem {chars : Bytes} {v : Nat} (h : v < chars.length) : symbol chars v ∈ chars := by
  rw [symbol, List.getD_eq_getElem?_getD, List.getElem?_eq_getElem h]
  exact List.getElem_mem h

theorem symbols_subset {chars : Bytes} (hlen : chars.length = 64) (x : Bytes) :
    (sextets x).map (symbol chars) ⊆ chars := by
  intro c hc
  obtain ⟨v, hv, rfl⟩ := List.mem_map.mp hc
  have hlt := sextets_lt x v hv
  exact symbol_mem (hlen ▸ hlt)

/-- The number of `=` after the encoding of `n` bytes. -/
def padding (n : Nat) : Nat := (3 - n % 3) % 3

theorem map_charAt_encodeGroup (chars : Bytes) (a b c : UInt8) :
    (encodeGroup a b c).map (charAt chars) =
      ((encodeGroup a b c).map UInt8.toNat).map (symbol chars) := by
  rw [List.map_map]
  rfl

theorem encodeLoop_eq (chars : Bytes) : ∀ s ret : Bytes,
    encodeLoop chars s [] ret =
      ret ++ (sextets s).map (symbol chars) ++ List.replicate (padding s.length) padChar
  | [], ret => by simp [encodeLoop, sextets, padding]
  | [a], ret => by
    have h := encodeGroup_toNat a 0 0
    simp only [encodeLoop, List.nil_append, List.length_singleton, List.map_take,
      map_charAt_encodeGroup]
    simp [h, sextets, padding]
  | [a, b], ret => by
    have h := encodeGroup_toNat a b 0
    simp only [encodeLoop, List.nil_append, List.cons_append, List.map_take,
      map_charAt_encodeGroup]
    simp [h, sextets, padding]
  | a :: b :: c :: rest, ret => by
    have hp : padding (a :: b :: c :: rest).length = padding rest.length := by
      simp only [padding, List.length_cons]
      omega
    simp only [encodeLoop, List.nil_append, List.cons_append, map_charAt_encodeGroup,
      encodeGroup_toNat, encodeLoop_eq chars rest, hp, sextets, List.map_cons, List.map_nil,
      List.append_assoc]

/-- **The encoder writes the 6-bit values through the alphabet, then the padding.** -/
theorem base64EncodePriv_eq (bytes : Bytes) (inLen : Nat) (chars : Bytes) :
    base64EncodePriv bytes inLen chars =
      (sextets (bytes.take inLen)).map (symbol chars) ++
        List.replicate (padding (bytes.take inLen).length) padChar := by
  rw [base64EncodePriv, encodeLoop_eq, List.nil_append]

/-! ## What the decoder reads -/

/-- The characters the decoder takes: up to `=` or the first one `isBase64` refuses. -/
def scan (s : Bytes) : Bytes := s.takeWhile fun c => c != padChar && isBase64 c

/-- The bytes decoded from the characters taken. -/
def decodeChars (chars : Bytes) : Bytes → Bytes
  | p :: q :: r :: t :: rest =>
    decodeGroup (charIndex chars p) (charIndex chars q) (charIndex chars r) (charIndex chars t) ++
      decodeChars chars rest
  | buf => decodeTail chars buf []

theorem decodeTail_eq (chars : Bytes) (ret : Bytes) : ∀ buf : List UInt8, buf.length < 4 →
    decodeTail chars buf ret = ret ++ decodeChars chars buf
  | [], _ => by simp [decodeTail, decodeChars]
  | [_], _ => by simp [decodeTail, decodeChars]
  | [_, _], _ => by simp [decodeTail, decodeChars]
  | [_, _, _], _ => by simp [decodeTail, decodeChars]
  | _ :: _ :: _ :: _ :: _, h => by
    simp only [List.length_cons] at h
    omega

/-- Storing a character keeps the buffer below a group and decodes the same bytes in the end. -/
theorem storeChar_spec (chars : Bytes) (c : UInt8) (ret : Bytes) :
    ∀ buf : List UInt8, buf.length < 4 →
      (storeChar chars c buf ret).1.length < 4 ∧
      ∀ s, (storeChar chars c buf ret).2 ++ decodeChars chars ((storeChar chars c buf ret).1 ++ s) =
        ret ++ decodeChars chars (buf ++ c :: s)
  | [], _ => ⟨by simp [storeChar], fun s => rfl⟩
  | [p], _ => ⟨by simp [storeChar], fun s => rfl⟩
  | [p, q], _ => ⟨by simp [storeChar], fun s => rfl⟩
  | [p, q, r], _ => ⟨by simp [storeChar], fun s => by simp [storeChar, decodeChars]⟩
  | _ :: _ :: _ :: _ :: _, h => by
    simp only [List.length_cons] at h
    omega

/-- **A count that is not negative**: the loop takes at most that many characters. -/
theorem decodeLoop_eq (chars : Bytes) : ∀ (s : Bytes) (n : Nat) (buf : List UInt8) (ret : Bytes),
    buf.length < 4 →
      decodeLoop chars s n buf ret = some (ret ++ decodeChars chars (buf ++ (scan s).take n))
  | [], n, buf, ret, hbuf => by
    have hn : (n : Int) ≠ -2 ^ 31 := by omega
    rw [decodeLoop, if_neg hn, decodeTail_eq chars ret buf hbuf]
    simp [scan]
  | c :: rest, 0, buf, ret, hbuf => by
    rw [decodeLoop, if_pos Int.natCast_zero, decodeTail_eq chars ret buf hbuf, List.take_zero,
      List.append_nil]
  | c :: rest, n + 1, buf, ret, hbuf => by
    have hn0 : ((n + 1 : Nat) : Int) ≠ 0 := by omega
    have hn : ((n + 1 : Nat) : Int) ≠ -2 ^ 31 := by omega
    by_cases hc : (c != padChar && isBase64 c) = true
    · obtain ⟨hbuf', hsame⟩ := storeChar_spec chars c ret buf hbuf
      have hpred : ((n + 1 : Nat) : Int) - 1 = n := by omega
      have hscan : scan (c :: rest) = c :: scan rest := by
        rw [scan, List.takeWhile_cons, if_pos hc, scan]
      rw [decodeLoop, if_neg hn0, if_neg hn, if_pos hc, hpred,
        decodeLoop_eq chars rest n _ _ hbuf', hsame, hscan, List.take_succ_cons]
    · rw [decodeLoop, if_neg hn0, if_neg hn, if_neg hc, decodeTail_eq chars ret buf hbuf, scan,
        List.takeWhile_cons, if_neg hc, List.take_nil, List.append_nil]

/-- **A negative count**, from a size of `2^31` on: the loop ends at a refused character before
the count overflows, or it has no defined result. -/
theorem decodeLoop_neg (chars : Bytes) : ∀ (s : Bytes) (n : Int) (buf : List UInt8) (ret u : Bytes),
    buf.length < 4 → -2 ^ 31 ≤ n → n < 0 → decodeLoop chars s n buf ret = some u →
      u = ret ++ decodeChars chars (buf ++ scan s) ∧ ((scan s).length : Int) < n + 2 ^ 31
  | [], n, buf, ret, u, hbuf, hlo, hneg, h => by
    rw [decodeLoop] at h
    split at h
    · exact absurd h (by simp)
    · rename_i hn
      rw [decodeTail_eq chars ret buf hbuf] at h
      refine ⟨by simpa [scan] using (Option.some.inj h).symm, ?_⟩
      simp only [scan, List.takeWhile_nil, List.length_nil]
      omega
  | c :: rest, n, buf, ret, u, hbuf, hlo, hneg, h => by
    have hn0 : n ≠ 0 := by omega
    have hn : n ≠ -2 ^ 31 := by
      rintro rfl
      simp [decodeLoop] at h
    by_cases hc : (c != padChar && isBase64 c) = true
    · obtain ⟨hbuf', hsame⟩ := storeChar_spec chars c ret buf hbuf
      rw [decodeLoop, if_neg hn0, if_neg hn, if_pos hc] at h
      obtain ⟨hu, hlen⟩ := decodeLoop_neg chars rest (n - 1) _ _ u hbuf' (by omega) (by omega) h
      have hscan : scan (c :: rest) = c :: scan rest := by
        rw [scan, List.takeWhile_cons, if_pos hc, scan]
      rw [hscan, hu, hsame, List.length_cons]
      refine ⟨rfl, ?_⟩
      push_cast
      omega
    · rw [decodeLoop, if_neg hn0, if_neg hn, if_neg hc, decodeTail_eq chars ret buf hbuf] at h
      have hscan : scan (c :: rest) = [] := by rw [scan, List.takeWhile_cons, if_neg hc]
      rw [hscan, List.append_nil, List.length_nil]
      refine ⟨(Option.some.inj h).symm, ?_⟩
      push_cast
      omega

/-- The characters of a string shorter than `2^31` are all considered. -/
theorem base64DecodePriv_eq {s : Bytes} (h : s.length < 2 ^ 31) (chars : Bytes) :
    base64DecodePriv s chars = some (decodeChars chars (scan s)) := by
  have hint : toInt s.length = (s.length : Int) := by
    unfold toInt
    split <;> omega
  have hlen : (scan s).length ≤ s.length := (List.takeWhile_prefix _).length_le
  rw [base64DecodePriv, hint, decodeLoop_eq chars s s.length [] [] (by simp), List.nil_append,
    List.nil_append, List.take_of_length_le hlen]

/-- From `2^31` characters on, at least `2^31` of them are not decoded. -/
theorem base64DecodePriv_long {s u : Bytes} (h : 2 ^ 31 ≤ s.length) {chars : Bytes}
    (hu : base64DecodePriv s chars = some u) :
    ∃ k, k + 2 ^ 31 ≤ s.length ∧ u = decodeChars chars ((scan s).take k) := by
  rw [base64DecodePriv] at hu
  by_cases hneg : toInt s.length < 0
  · have hlo : -2 ^ 31 ≤ toInt s.length := by
      unfold toInt
      split <;> omega
    obtain ⟨rfl, hlen⟩ := decodeLoop_neg chars s _ [] [] u (by simp) hlo hneg hu
    refine ⟨(scan s).length, ?_, by simp⟩
    unfold toInt at hlen hneg
    split at hlen <;> omega
  · have hcast : toInt s.length = ((toInt s.length).toNat : Int) := by omega
    rw [hcast, decodeLoop_eq chars s _ [] [] (by simp)] at hu
    refine ⟨(toInt s.length).toNat, ?_, by simpa using (Option.some.inj hu).symm⟩
    unfold toInt at hneg ⊢
    split at hneg <;> split <;> omega

/-- A negative count that the accepted characters do not bring down to the least `int`. -/
theorem decodeLoop_neg_isSome (chars : Bytes) : ∀ (s : Bytes) (n : Int) (buf : List UInt8)
    (ret : Bytes), n < 0 → ((scan s).length : Int) < n + 2 ^ 31 →
      (decodeLoop chars s n buf ret).isSome
  | [], n, buf, ret, hneg, hlen => by
    have hn : n ≠ -2 ^ 31 := by
      simp only [scan, List.takeWhile_nil, List.length_nil] at hlen
      omega
    rw [decodeLoop, if_neg hn]
    rfl
  | c :: rest, n, buf, ret, hneg, hlen => by
    have hn0 : n ≠ 0 := by omega
    have hn : n ≠ -2 ^ 31 := by omega
    rw [decodeLoop, if_neg hn0, if_neg hn]
    by_cases hc : (c != padChar && isBase64 c) = true
    · have hscan : scan (c :: rest) = c :: scan rest := by
        rw [scan, List.takeWhile_cons, if_pos hc, scan]
      rw [hscan, List.length_cons] at hlen
      push_cast at hlen
      rw [if_pos hc]
      exact decodeLoop_neg_isSome chars rest (n - 1) _ _ (by omega) (by omega)
    · rw [if_neg hc]
      rfl

/-- The count of the decoder starts negative and overflows before a character is refused. -/
def Overflows (s : Bytes) : Prop :=
  2 ^ 31 ≤ s.length % 2 ^ 32 ∧ s.length % 2 ^ 32 ≤ (scan s).length + 2 ^ 31

/-- **When decoding has no defined result**: only from `2^31` characters on. -/
theorem base64DecodePriv_eq_none_iff (s chars : Bytes) :
    base64DecodePriv s chars = none ↔ Overflows s := by
  unfold base64DecodePriv Overflows
  by_cases hneg : s.length % 2 ^ 32 < 2 ^ 31
  · have hcast : toInt s.length = ((s.length % 2 ^ 32 : Nat) : Int) := by
      unfold toInt
      split <;> omega
    rw [hcast, decodeLoop_eq chars s _ [] [] (by simp)]
    simp only [reduceCtorEq, false_iff, not_and]
    omega
  · have hcast : toInt s.length = ((s.length % 2 ^ 32 : Nat) : Int) - 2 ^ 32 := by
      unfold toInt
      split <;> omega
    constructor
    · intro hnone
      refine ⟨by omega, Nat.le_of_not_lt fun hlt => ?_⟩
      have hsome := decodeLoop_neg_isSome chars s (toInt s.length) [] [] (by omega) (by omega)
      rw [hnone] at hsome
      simp at hsome
    · rintro ⟨-, hle⟩
      rw [Option.eq_none_iff_forall_ne_some]
      intro u hu
      have hlen := (decodeLoop_neg chars s _ [] [] u (by simp) (by omega) (by omega) hu).2
      omega

/-! ## The URL-safe pair -/

/-- The unpadded URL-safe encoding of RFC 4648. -/
def urlUnpadded (x : Bytes) : Bytes := (sextets x).map (symbol base64UrlChars)

theorem charIndex_symbol_url :
    ∀ v < 64, charIndex base64UrlChars (symbol base64UrlChars v) = UInt8.ofNat v := by
  decide +kernel

theorem charIndex_symbol_std :
    ∀ v < 64, charIndex base64Chars (symbol base64Chars v) = UInt8.ofNat v := by
  decide +kernel

/-- The predicate of the decoding loop refuses exactly the two symbols that differ from the
standard alphabet. -/
theorem accepts_symbol_url : ∀ v < 64,
    (symbol base64UrlChars v != padChar && isBase64 (symbol base64UrlChars v)) =
      decide (v < 62) := by
  decide +kernel

/-- Looking up the symbols of 6-bit values and regrouping gives `octets`. -/
theorem decodeChars_symbols {chars : Bytes}
    (hchars : ∀ v < 64, charIndex chars (symbol chars v) = UInt8.ofNat v) :
    ∀ vs : List Nat, (∀ v ∈ vs, v < 64) → decodeChars chars (vs.map (symbol chars)) = octets vs
  | [], _ => rfl
  | [w], _ => rfl
  | [w, x], h => by
    have hw := h w (by simp)
    have hx := h x (by simp)
    have e := decodeGroup_ofNat 0 hw hx (y := 0) (by omega)
    simp only [decodeGroup, List.cons.injEq] at e
    simp [decodeChars, decodeTail, hchars w hw, hchars x hx, decodeGroup, octets, e.1]
  | [w, x, y], h => by
    have hw := h w (by simp)
    have hx := h x (by simp)
    have hy := h y (by simp)
    have e := decodeGroup_ofNat 0 hw hx hy
    simp only [decodeGroup, List.cons.injEq] at e
    simp [decodeChars, decodeTail, hchars w hw, hchars x hx, hchars y hy, decodeGroup, octets, e.1,
      e.2.1]
  | w :: x :: y :: z :: rest, h => by
    have hw := h w (by simp)
    have hx := h x (by simp)
    have hy := h y (by simp)
    have hz := h z (by simp)
    have ih := decodeChars_symbols hchars rest fun v hv => h v (by simp [hv])
    simp only [List.map_cons, decodeChars, hchars w hw, hchars x hx, hchars y hy, hchars z hz,
      decodeGroup_ofNat z hw hx hy, ih, octets, List.cons_append, List.nil_append]

/-- The scan ends where the padding begins. -/
theorem scan_append_pad (s : Bytes) (n : Nat) : scan (s ++ List.replicate n padChar) = scan s := by
  have hpad : scan (List.replicate n padChar) = [] := by
    cases n with
    | zero => rfl
    | succ n => rw [scan, List.replicate_succ, List.takeWhile_cons, if_neg (by decide)]
  unfold scan at hpad ⊢
  rw [List.takeWhile_append]
  split
  · rename_i hall
    rw [hpad, List.append_nil]
    exact ((List.takeWhile_prefix _).eq_of_length hall).symm
  · rfl

/-- The decoder takes the symbols before the first value of 62 or 63, padding or not. -/
theorem scan_urlUnpadded (x : Bytes) (n : Nat) :
    scan (urlUnpadded x ++ List.replicate n padChar) =
      ((sextets x).takeWhile (· < 62)).map (symbol base64UrlChars) := by
  have hmap : ∀ vs : List Nat, (∀ v ∈ vs, v < 64) → scan (vs.map (symbol base64UrlChars)) =
      (vs.takeWhile (· < 62)).map (symbol base64UrlChars) := by
    intro vs hvs
    induction vs with
    | nil => rfl
    | cons v vs ih =>
      have hv := accepts_symbol_url v (hvs v List.mem_cons_self)
      rw [List.map_cons, scan, List.takeWhile_cons, hv, List.takeWhile_cons]
      split
      · rw [List.map_cons, ← ih fun w hw => hvs w (List.mem_cons_of_mem v hw), scan]
      · rfl
  rw [scan_append_pad, urlUnpadded, hmap _ (sextets_lt x)]

/-- **The URL-safe decoder on URL-safe text** below `2^31` characters. -/
theorem base64UrlDecode_urlUnpadded {x : Bytes} {n : Nat}
    (h : (urlUnpadded x ++ List.replicate n padChar).length < 2 ^ 31) :
    base64UrlDecode (urlUnpadded x ++ List.replicate n padChar) =
      some (octets ((sextets x).takeWhile (· < 62))) := by
  have hlt : ∀ v ∈ (sextets x).takeWhile (· < 62), v < 64 := fun v hv =>
    sextets_lt x v ((List.takeWhile_prefix _).subset hv)
  rw [base64UrlDecode, base64DecodePriv_eq h, scan_urlUnpadded,
    decodeChars_symbols charIndex_symbol_url _ hlt]

/-- What the decoder takes is a prefix of the values, so it yields a prefix of the bytes. -/
theorem octets_eq_take {x : Bytes} {vs : List Nat} (h : vs <+: sextets x) :
    octets vs = x.take (vs.length * 3 / 4) := by
  rw [List.prefix_iff_eq_take.mp h, octets_take_sextets, List.length_take]
  congr 2
  have := h.length_le
  omega

theorem octets_takeWhile_eq_iff (x : Bytes) :
    octets ((sextets x).takeWhile (· < 62)) = x ↔ ∀ v ∈ sextets x, v < 62 := by
  have hpre := List.takeWhile_prefix (· < 62) (l := sextets x)
  constructor
  · intro h
    by_contra hn
    have hne : (sextets x).takeWhile (· < 62) ≠ sextets x := by
      intro e
      refine hn fun v hv => ?_
      rw [← e] at hv
      simpa using List.mem_takeWhile_imp hv
    have hlt : ((sextets x).takeWhile (· < 62)).length < (sextets x).length :=
      lt_of_le_of_ne hpre.length_le fun e => hne (hpre.eq_of_length e)
    have hlen := congrArg List.length ((octets_eq_take hpre).symm.trans h)
    rw [List.length_take] at hlen
    have := take_sextets_lt hlt
    omega
  · intro h
    have e : (sextets x).takeWhile (· < 62) = sextets x :=
      List.takeWhile_eq_self_iff.mpr fun v hv => by simpa using h v hv
    rw [e, octets_sextets]

theorem base64UrlEncode_eq (s : Bytes) :
    base64UrlEncode s = urlUnpadded (s.take (s.length % 2 ^ 32)) ++
      List.replicate (padding (s.take (s.length % 2 ^ 32)).length) padChar :=
  base64EncodePriv_eq _ _ _

theorem filter_symbols {chars : Bytes} (hlen : chars.length = 64) (hpad : padChar ∉ chars)
    (x : Bytes) (n : Nat) :
    ((sextets x).map (symbol chars) ++ List.replicate n padChar).filter (· ≠ padChar) =
      (sextets x).map (symbol chars) := by
  have hall : ((sextets x).map (symbol chars)).filter (· ≠ padChar) =
      (sextets x).map (symbol chars) := by
    refine List.filter_eq_self.mpr fun c hc => decide_eq_true fun e => hpad ?_
    exact symbols_subset hlen x (e ▸ hc)
  rw [List.filter_append, hall, List.filter_replicate]
  simp

theorem filter_urlUnpadded (x : Bytes) (n : Nat) :
    (urlUnpadded x ++ List.replicate n padChar).filter (· ≠ padChar) = urlUnpadded x :=
  filter_symbols rfl (by decide) x n

/-- **URL-safe base64 is inverse exactly without large groups.** For a string whose encoding has
fewer than `2^31` characters, decoding the encoding, padded and unpadded, gives the string back
iff it is shorter than `2^32` bytes and none of its 6-bit groups has the value 62 or 63. -/
theorem base64UrlDecode_urlEncode_iff (s : Bytes) (h : (base64UrlEncode s).length < 2 ^ 31) :
    (base64UrlDecode (base64UrlEncode s) = some s ∧
      base64UrlDecode ((base64UrlEncode s).filter (· ≠ padChar)) = some s) ↔
    s.length < 2 ^ 32 ∧ ∀ v ∈ sextets s, v < 62 := by
  rw [base64UrlEncode_eq] at h ⊢
  have hshort : (urlUnpadded (s.take (s.length % 2 ^ 32)) ++ List.replicate 0 padChar).length <
      2 ^ 31 := by
    rw [List.length_append] at h ⊢
    simp only [List.length_replicate] at h ⊢
    omega
  have hplain := base64UrlDecode_urlUnpadded hshort
  rw [List.replicate_zero, List.append_nil] at hplain
  rw [filter_urlUnpadded, base64UrlDecode_urlUnpadded h, hplain, and_self, Option.some.injEq]
  by_cases hs : s.length < 2 ^ 32
  · rw [Nat.mod_eq_of_lt hs, List.take_length, octets_takeWhile_eq_iff]
    exact ⟨fun h => ⟨hs, h⟩, fun h => h.2⟩
  · -- the size was cut to an `unsigned int`: what comes back is too short
    refine ⟨fun e => ?_, fun e => absurd e.1 hs⟩
    have hlen := congrArg List.length e
    rw [octets_eq_take (List.takeWhile_prefix _), List.length_take, List.length_take] at hlen
    omega

theorem base64UrlDecode_urlEncode_ab :
    base64UrlDecode (base64UrlEncode (ascii "ab")) = some (ascii "ab") ∧
      base64UrlDecode ((base64UrlEncode (ascii "ab")).filter (· ≠ padChar)) = some (ascii "ab") :=
  (base64UrlDecode_urlEncode_iff (ascii "ab") (by decide)).mpr ⟨by decide, by decide⟩

/-- The byte `0xfb` encodes to `-w==`, of which the decoder takes nothing. -/
theorem base64UrlDecode_urlEncode_fb :
    (base64UrlEncode [0xfb]).length < 2 ^ 31 ∧
      ¬(base64UrlDecode (base64UrlEncode [0xfb]) = some [0xfb] ∧
        base64UrlDecode ((base64UrlEncode [0xfb]).filter (· ≠ padChar)) = some [0xfb]) := by
  decide

end WinterWind
