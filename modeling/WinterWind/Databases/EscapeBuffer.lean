import WinterWind.Databases.SchemaNames

/-!
# The buffer of `escape_string` (`src/core/databases/postgresqlclient.cpp`)

`PostgreSQLClient::escape_string` allocates one and a half times the size of its parameter;
`PQescapeStringConn` writes the parameter with each quote and each backslash twice, and a NUL.

* `exactBufferSize` is the size without the rounding of `float`; the conversion keeps the low 32
  bits. `exactBufferSize_eq` says up to where `escapeBufferSize` is the same.

Results:
* `length_pqEscapeString`: what is written.
* **`bufferSuffices_iff`**: the buffer is large enough exactly if less than half of the characters
  are quotes and backslashes, and the size does not wrap around.
* `escapeString_returns_iff`: so `escape_string` returns, for a parameter of moderate length.
-/

namespace WinterWind.Databases

/-- `(uint32_t) std::ceil(param.size() * 1.5f)`, exactly. -/
def exactBufferSize (size : Nat) : UInt32 := UInt32.ofNat ((3 * size + 1) / 2)

/-- A single quote or a backslash. -/
def isDoubled (c : UInt8) : Bool := c == 39 || c == 92

/-- How many bytes are written for some characters: one for each, one more for each that is doubled,
and the NUL. -/
def writtenSize (chars : Bytes) : Nat := chars.length + chars.countP isDoubled + 1

/-- The buffer for `param` takes what is written for `chars`. -/
def BufferSuffices (param chars : Bytes) : Prop :=
  writtenSize chars ≤ (exactBufferSize param.length).toNat

instance (param chars : Bytes) : Decidable (BufferSuffices param chars) := Nat.decLe _ _

/-! ## What is written -/

theorem length_pqEscapeString (s : Bytes) :
    (pqEscapeString s).length + 1 = writtenSize (cStr s) := by
  have hflat : ∀ chars : Bytes,
      (chars.flatMap fun c => if c = 39 ∨ c = 92 then [c, c] else [c]).length =
        chars.length + chars.countP isDoubled := by
    intro chars
    induction chars with
    | nil => rfl
    | cons c chars ih =>
      rw [List.flatMap_cons, List.length_append, ih, List.length_cons]
      by_cases hc : c = 39 ∨ c = 92
      · rw [if_pos hc, List.countP_cons_of_pos (by simpa [isDoubled] using hc)]
        simp only [List.length_cons, List.length_nil]
        omega
      · rw [if_neg hc, List.countP_cons_of_neg (by simpa [isDoubled] using hc)]
        simp only [List.length_cons, List.length_nil]
        omega
  rw [pqEscapeString, hflat, writtenSize]

/-! ## What is allocated -/

/-- How often the size wraps around. -/
def wraps (size : Nat) : Nat := (3 * size + 1) / 2 / 2 ^ 32

theorem toNat_exactBufferSize (size : Nat) :
    (exactBufferSize size).toNat + 2 ^ 32 * wraps size = (3 * size + 1) / 2 := by
  rw [exactBufferSize, UInt32.toNat_ofNat', wraps]
  exact Nat.mod_add_div _ _

/-- **When the buffer is large enough** for some characters of the parameter: what is doubled has to
fit into one half of the size, and the room of the characters left out. -/
theorem bufferSuffices_iff_of_le {param chars : Bytes} (h : chars.length ≤ param.length) :
    BufferSuffices param chars ↔
      2 * chars.countP isDoubled + 2 ^ 33 * wraps param.length <
        param.length + 2 * (param.length - chars.length) := by
  have hsize := toNat_exactBufferSize param.length
  rw [BufferSuffices, writtenSize]
  omega

/-- **When the buffer is large enough.** With all characters written: exactly if less than half of
them are quotes and backslashes, and one and a half times their number is below `2^32`. Up to the
first NUL, where `PQescapeStringConn` stops: what is not written makes room, too. -/
theorem bufferSuffices_iff (param : Bytes) :
    (BufferSuffices param param ↔
      2 * param.countP isDoubled < param.length ∧ param.length < 2863311531) ∧
    (BufferSuffices param (cStr param) ↔
      2 * (cStr param).countP isDoubled + 2 ^ 33 * wraps param.length <
        param.length + 2 * (param.length - (cStr param).length)) := by
  refine ⟨?_, bufferSuffices_iff_of_le (List.takeWhile_prefix _).length_le⟩
  rw [bufferSuffices_iff_of_le le_rfl, wraps]
  omega

/-- The empty string has no room for its NUL, and a quote none for the second one. -/
theorem not_bufferSuffices_nil : ¬BufferSuffices [] (cStr []) ∧
    ¬BufferSuffices (ascii "'") (cStr (ascii "'")) := by
  decide

/-! ## With the rounding -/

theorem exactBufferSize_eq {size : Nat} (h : 3 * size < 2 ^ 24) :
    escapeBufferSize size = .ok (exactBufferSize size).toNat := by
  rw [escapeBufferSize_of_lt h, exactBufferSize, UInt32.toNat_ofNat', Nat.mod_eq_of_lt (by omega)]

/-- **When `escape_string` returns**, for a parameter that is not rounded. -/
theorem escapeString_returns_iff {param : Bytes} (h : 3 * param.length < 2 ^ 24) :
    (∃ res, escapeString param = .ok res) ↔ BufferSuffices param (cStr param) := by
  rw [BufferSuffices, ← length_pqEscapeString, escapeString, exactBufferSize_eq h]
  simp only [bind, Except.bind]
  split
  · rename_i hfits
    exact iff_of_true ⟨_, rfl⟩ hfits
  · rename_i hshort
    refine iff_of_false ?_ hshort
    rintro ⟨res, hres⟩
    cases hres

end WinterWind.Databases
