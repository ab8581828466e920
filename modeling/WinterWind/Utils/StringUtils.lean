import WinterWind.Basic
import WinterWind.Library.Decimal
import WinterWind.Library.Erasure

/-!
# String helpers (`src/core/utils/stringutils.cpp`)

`strSplit`, `strRemoveSubstr` and `trim`, the helpers the token decoder, the HTTP server and the
clients are built on.

* `str_split` reads with `std::getline`: a piece ends at the delimiter, which is dropped, and a
  last piece is produced only when some character is left for it. `strSplit_eq` states it against
  `List.splitOn`: the same pieces, except that an empty last one is missing.
* `str_remove_substr` erases the first occurrence until there is none. `removeLoop` is that loop,
  bounded; `none` is a loop that does not end within the bound. **`removalEnds_iff`**: it ends
  unless the pattern is empty. **`strRemoveSubstr_removed`**: no occurrence is left, though erasing
  one may form another. For the one-character pattern the token code uses,
  `strRemoveSubstr_singleton` says that it deletes that character.
* `trim` works on a copy of the bytes as a C string, in the C locale.
-/

namespace WinterWind

open Library

/-! ## `str_split` -/

/-- The `getline` loop of `str_split`: `item` is what the current call has read. At the end of
the input a call that has read nothing fails, so no empty last piece is pushed. -/
def getlines (delim : UInt8) : Bytes → Bytes → List Bytes
  | [], item => if item.isEmpty then [] else [item]
  | c :: rest, item =>
    if c = delim then item :: getlines delim rest [] else getlines delim rest (item ++ [c])

/-- `str_split(str, delim, res)`: the pieces are appended to `res`. -/
def strSplit (str : Bytes) (delim : UInt8) (res : List Bytes) : List Bytes :=
  res ++ getlines delim str []

/-- Drop an empty last piece. -/
def dropEmptyLast (ps : List Bytes) : List Bytes :=
  if ps.getLast? = some [] then ps.dropLast else ps

theorem dropEmptyLast_cons {p : Bytes} {ps : List Bytes} (h : ps ≠ []) :
    dropEmptyLast (p :: ps) = p :: dropEmptyLast ps := by
  unfold dropEmptyLast
  obtain ⟨q, qs, rfl⟩ := List.exists_cons_of_ne_nil h
  rw [List.getLast?_cons_cons]
  split <;> rfl

/-- The last piece is empty when nothing follows the last delimiter. -/
theorem getLast?_splitOn (str : Bytes) (delim : UInt8) :
    (str.splitOn delim).getLast? = some [] ↔ str = [] ∨ str.getLast? = some delim := by
  by_cases hmem : delim ∈ str
  · obtain ⟨l, r, hrev, hfree⟩ := List.eq_append_cons_of_mem (List.mem_reverse.mpr hmem)
    have hstr : str = r.reverse ++ delim :: l.reverse := by
      simpa using congrArg List.reverse hrev
    have hpiece : l.reverse.splitOn delim = [l.reverse] :=
      List.splitOn_eq_singleton (by simpa using hfree)
    rw [hstr, List.splitOn_append_cons_self, hpiece]
    cases l with
    | nil => simp
    | cons c l =>
      rw [List.mem_cons, not_or] at hfree
      simp [List.getLast?_cons, Ne.symm hfree.1]
  · have hne : str.getLast? ≠ some delim := fun h => hmem (List.mem_of_getLast? h)
    rw [List.splitOn_eq_singleton hmem]
    simp [hne]

theorem getlines_eq (delim : UInt8) : ∀ (str item : Bytes), delim ∉ item →
    getlines delim str item = dropEmptyLast ((item ++ str).splitOn delim)
  | [], item, h => by
    rw [List.append_nil, List.splitOn_eq_singleton h]
    cases item with
    | nil => rfl
    | cons c item => rfl
  | c :: rest, item, h => by
    rw [getlines]
    by_cases hc : c = delim
    · subst hc
      rw [if_pos rfl, List.splitOn_append_cons_self_of_not_mem h,
        dropEmptyLast_cons (List.splitOn_ne_nil c rest), getlines_eq c rest [] List.not_mem_nil,
        List.nil_append]
    · have h' : delim ∉ item ++ [c] := by
        rw [List.mem_append, List.mem_singleton, not_or]
        exact ⟨h, Ne.symm hc⟩
      rw [if_neg hc, getlines_eq delim rest (item ++ [c]) h', List.append_assoc]
      rfl

/-- **`str_split` splits on the delimiter and drops an empty last piece.** -/
theorem strSplit_eq (str : Bytes) (delim : UInt8) (res : List Bytes) :
    strSplit str delim res = res ++ dropEmptyLast (str.splitOn delim) := by
  unfold strSplit
  rw [getlines_eq delim str [] List.not_mem_nil, List.nil_append]

/-- Splitting a delimited sequence of pieces gives the pieces back when the last is not empty. -/
theorem strSplit_intercalate {delim : UInt8} {ps : List Bytes} (hne : ps ≠ [])
    (hfree : ∀ p ∈ ps, delim ∉ p) (hlast : ps.getLast? ≠ some []) :
    strSplit ([delim].intercalate ps) delim [] = ps := by
  rw [strSplit_eq, List.splitOn_intercalate delim hfree hne, List.nil_append, dropEmptyLast,
    if_neg hlast]

theorem not_mem_of_mem_getlines {delim : UInt8} : ∀ {str item p : Bytes}, delim ∉ item →
    p ∈ getlines delim str item → delim ∉ p
  | [], [], p, _, hp => absurd hp List.not_mem_nil
  | [], _ :: _, p, h, hp => by
    obtain rfl := List.mem_singleton.mp hp
    exact h
  | c :: rest, item, p, h, hp => by
    rw [getlines] at hp
    split at hp
    · rcases List.mem_cons.mp hp with rfl | hp
      · exact h
      · exact not_mem_of_mem_getlines List.not_mem_nil hp
    · rename_i hc
      refine not_mem_of_mem_getlines (fun hmem => ?_) hp
      rcases List.mem_append.mp hmem with hmem | hmem
      · exact h hmem
      · exact hc (List.mem_singleton.mp hmem).symm

/-- No piece contains the delimiter. -/
theorem not_mem_of_mem_strSplit {str p : Bytes} {delim : UInt8} (hp : p ∈ strSplit str delim []) :
    delim ∉ p :=
  not_mem_of_mem_getlines List.not_mem_nil hp

/-- No piece of `splitOn` contains the delimiter, either. -/
theorem not_mem_of_mem_splitOn {str p : Bytes} {delim : UInt8} (hp : p ∈ str.splitOn delim) :
    delim ∉ p := by
  by_cases hnil : p = []
  · exact hnil ▸ List.not_mem_nil
  · refine @not_mem_of_mem_strSplit str p delim ?_
    rw [strSplit_eq, List.nil_append, dropEmptyLast]
    split
    · rename_i hlast
      obtain ⟨l, hl⟩ := List.getLast?_eq_some_iff.mp hlast
      rw [hl] at hp ⊢
      rw [List.dropLast_concat]
      exact (List.mem_append.mp hp).resolve_right fun h => hnil (List.mem_singleton.mp h)
    · exact hp

theorem length_getlines (delim : UInt8) : ∀ str item : Bytes,
    (getlines delim str item).length = str.count delim +
      if str.getLast? = some delim ∨ item = [] ∧ str = [] then 0 else 1
  | [], [] => rfl
  | [], _ :: _ => rfl
  | c :: rest, item => by
    have hlast : rest ≠ [] → (c :: rest).getLast? = rest.getLast? := fun hne => by
      obtain ⟨q, qs, rfl⟩ := List.exists_cons_of_ne_nil hne
      exact List.getLast?_cons_cons
    rw [getlines]
    by_cases hc : c = delim
    · subst hc
      rw [if_pos rfl, List.length_cons, length_getlines c rest [], List.count_cons_self]
      by_cases hne : rest = []
      · simp [hne]
      · rw [hlast hne]
        simp only [hne, and_false, or_false, reduceCtorEq]
        omega
    · rw [if_neg hc, length_getlines delim rest (item ++ [c]), List.count_cons_of_ne hc]
      by_cases hne : rest = []
      · simp [hne, hc]
      · rw [hlast hne]
        simp [hne]

/-- The number of pieces: one more than the delimiters, unless the last piece would be empty. -/
theorem length_strSplit (str : Bytes) (delim : UInt8) :
    (strSplit str delim []).length =
      str.count delim + if str.getLast? = some delim ∨ str = [] then 0 else 1 := by
  rw [strSplit, List.nil_append, length_getlines]
  simp only [true_and]

/-! ## `str_remove_substr` -/

/-- `src.find(pattern)`: the index of the first occurrence, `none` for `npos`. -/
def find : Bytes → Bytes → Option Nat
  | [], pattern => if pattern.isEmpty then some 0 else none
  | c :: rest, pattern =>
    if pattern.isPrefixOf (c :: rest) then some 0 else (find rest pattern).map (· + 1)

/-- `src.erase(i, len)`. -/
def eraseAt (src : Bytes) (i len : Nat) : Bytes := src.take i ++ src.drop (i + len)

/-- The loop of `str_remove_substr`, at most `fuel` tests of its condition. -/
def removeLoop (pattern : Bytes) : Nat → Bytes → Option Bytes
  | 0, _ => none
  | fuel + 1, src =>
    match find src pattern with
    | none => some src
    | some i => removeLoop pattern fuel (eraseAt src i pattern.length)

/-- `str_remove_substr(src, pattern)`: the final value of `src`. A non-empty pattern shortens
`src` at every turn, so `src.length + 1` tests are enough for it. -/
def strRemoveSubstr (src pattern : Bytes) : Option Bytes :=
  removeLoop pattern (src.length + 1) src

/-- The search fails where there is no occurrence. -/
theorem find_eq_none_iff {pattern : Bytes} : ∀ {src : Bytes},
    find src pattern = none ↔ ¬pattern <:+: src
  | [] => by
    rw [find, List.infix_nil]
    cases pattern <;> simp
  | c :: rest => by
    rw [find, List.infix_cons_iff, ← List.isPrefixOf_iff_prefix]
    by_cases hpre : pattern.isPrefixOf (c :: rest) = true
    · simp [hpre]
    · rw [if_neg hpre, Option.map_eq_none_iff, find_eq_none_iff, or_iff_right hpre]

/-- It finds an occurrence. -/
theorem exists_of_find {pattern : Bytes} : ∀ {src : Bytes} {i : Nat}, find src pattern = some i →
    ∃ l r, src = l ++ pattern ++ r ∧ l.length = i
  | [], i, h => by
    rw [find] at h
    split at h
    · rename_i hempty
      obtain rfl := Option.some.inj h
      exact ⟨[], [], by rw [List.isEmpty_iff.mp hempty]; rfl, rfl⟩
    · cases h
  | c :: rest, i, h => by
    rw [find] at h
    split at h
    · rename_i hpre
      obtain rfl := Option.some.inj h
      obtain ⟨r, hr⟩ := List.isPrefixOf_iff_prefix.mp hpre
      exact ⟨[], r, hr.symm, rfl⟩
    · obtain ⟨j, hj, rfl⟩ := Option.map_eq_some_iff.mp h
      obtain ⟨l, r, rfl, rfl⟩ := exists_of_find hj
      exact ⟨c :: l, r, rfl, rfl⟩

/-- A turn of the loop. -/
theorem erases_of_find {src pattern : Bytes} {i : Nat} (h : find src pattern = some i) :
    Erases pattern src (eraseAt src i pattern.length) := by
  obtain ⟨l, r, rfl, rfl⟩ := exists_of_find h
  refine ⟨l, r, rfl, ?_⟩
  rw [eraseAt, ← List.length_append, List.drop_left, List.append_assoc, List.take_left]

/-- **The loop ends** for a pattern that is not empty, when no occurrence is left. -/
theorem removeLoop_spec {pattern : Bytes} (hne : pattern ≠ []) : ∀ (fuel : Nat) (src : Bytes),
    src.length < fuel → ∃ r, removeLoop pattern fuel src = some r ∧ ErasesTo pattern src r ∧
      ¬pattern <:+: r
  | 0, _, h => absurd h (Nat.not_lt_zero _)
  | fuel + 1, src, h => by
    rw [removeLoop]
    cases hfind : find src pattern with
    | none => exact ⟨src, rfl, .refl, find_eq_none_iff.mp hfind⟩
    | some i =>
      have hstep := erases_of_find hfind
      have hshorter : (eraseAt src i pattern.length).length < fuel := by
        have hlen := hstep.length_eq
        have hpos := List.length_pos_iff.mpr hne
        omega
      obtain ⟨r, hr, herases, hfree⟩ := removeLoop_spec hne fuel _ hshorter
      exact ⟨r, hr, .head hstep herases, hfree⟩

/-- **Removing a one-character pattern ends and deletes exactly that character.** -/
theorem strRemoveSubstr_singleton (s : Bytes) (c : UInt8) :
    strRemoveSubstr s [c] = some (s.filter (· ≠ c)) := by
  obtain ⟨r, hr, herases, hfree⟩ :=
    removeLoop_spec (List.cons_ne_nil c []) _ s (Nat.lt_succ_self _)
  have hsame : r.filter (· ≠ c) = s.filter (· ≠ c) := herases.filter_eq (by simp)
  have hall : r.filter (· ≠ c) = r := by
    refine List.filter_eq_self.mpr fun b hb => decide_eq_true fun e => hfree ?_
    exact (List.singleton_infix_iff c r).mpr (e ▸ hb)
  rw [strRemoveSubstr, hr, ← hsame, hall]

/-- The loop of `str_remove_substr` ends. -/
def RemovalEnds (src pattern : Bytes) : Prop := ∃ fuel, (removeLoop pattern fuel src).isSome

/-- The empty pattern is found at the start, whatever is erased there. -/
theorem removeLoop_nil (fuel : Nat) (src : Bytes) : removeLoop [] fuel src = none := by
  induction fuel with
  | zero => rfl
  | succ fuel ih =>
    have hfind : find src [] = some 0 := by cases src <;> rfl
    simp only [removeLoop, hfind, eraseAt, List.length_nil, Nat.add_zero, List.take_zero,
      List.drop_zero, List.nil_append, ih]

/-- **Substring removal ends exactly for the patterns that are not empty.** -/
theorem removalEnds_iff (src pattern : Bytes) : RemovalEnds src pattern ↔ pattern ≠ [] := by
  constructor
  · rintro ⟨fuel, hsome⟩ rfl
    rw [removeLoop_nil] at hsome
    cases hsome
  · intro hne
    obtain ⟨r, hr, -⟩ := removeLoop_spec hne _ src (Nat.lt_succ_self _)
    exact ⟨_, Option.isSome_iff_exists.mpr ⟨r, hr⟩⟩

/-- With an empty pattern the loop goes round for ever, even on the empty string. -/
theorem not_removalEnds_nil : ¬RemovalEnds [] [] := by
  rintro ⟨fuel, hsome⟩
  rw [removeLoop_nil] at hsome
  cases hsome

/-- What `str_remove_substr` leaves of `src`. -/
structure Removed (src pattern r : Bytes) : Prop where
  free : ¬pattern <:+: r
  sublist : r.Sublist src
  length : ∃ n, src.length = r.length + n * pattern.length
  unchanged : ¬pattern <:+: src → r = src
  single : ∀ c, pattern = [c] → r = src.filter (· ≠ c)

/-- **What substring removal leaves.** -/
theorem strRemoveSubstr_removed (src : Bytes) {pattern : Bytes} (hne : pattern ≠ []) :
    ∃ r, strRemoveSubstr src pattern = some r ∧ Removed src pattern r := by
  obtain ⟨r, hr, herases, hfree⟩ := removeLoop_spec hne _ src (Nat.lt_succ_self _)
  refine ⟨r, hr, hfree, herases.sublist, herases.length_eq, fun hnone => ?_, fun c hc => ?_⟩
  · rw [removeLoop, find_eq_none_iff.mpr hnone] at hr
    exact (Option.some.inj hr).symm
  · subst hc
    exact Option.some.inj (hr.symm.trans (strRemoveSubstr_singleton src c))

/-- Two rounds: the second occurrence is made by the first erasure. -/
theorem strRemoveSubstr_removed_aabb :
    ∃ r, strRemoveSubstr (ascii "aabbc") (ascii "ab") = some r ∧
      Removed (ascii "aabbc") (ascii "ab") r :=
  strRemoveSubstr_removed (ascii "aabbc") (by decide)

/-! ## `trim` -/

/-- `isspace` in the C locale. -/
def isspace (c : UInt8) : Bool := c == 32 || 9 ≤ c && c ≤ 13

/-- A digit is neither white space nor a sign. -/
theorem digit_is_plain {c : UInt8} (h : Library.isDigit c = true) :
    isspace c = false ∧ c ≠ 45 ∧ c ≠ 43 := by
  have hc : 48 ≤ c.toNat ∧ c.toNat ≤ 57 := by
    simpa [Library.isDigit, UInt8.le_iff_toNat_le] using h
  refine ⟨Bool.eq_false_iff.mpr fun hspace => ?_, ?_, ?_⟩
  · simp only [isspace, Bool.or_eq_true, beq_iff_eq, Bool.and_eq_true, decide_eq_true_eq,
      UInt8.le_iff_toNat_le] at hspace
    rcases hspace with rfl | ⟨-, hle⟩
    · exact absurd hc.1 (by decide)
    · have : c.toNat ≤ 13 := hle
      omega
  · rintro rfl
    exact absurd hc.1 (by decide)
  · rintro rfl
    exact absurd hc.1 (by decide)

/-- `trim`: leading white space goes, then what follows up to the first NUL is kept less its
trailing white space. -/
def trim (str : Bytes) : Bytes :=
  ((cStr (str.dropWhile isspace)).reverse.dropWhile isspace).reverse

example : trim (ascii "  12 mn\t") = ascii "12 mn" := by decide

end WinterWind
