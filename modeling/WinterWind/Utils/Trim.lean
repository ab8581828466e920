import WinterWind.Library.Trimming
import WinterWind.Utils.StringUtils

/-!
# Trimming a string (`src/core/utils/stringutils.cpp`)

`trim` with its copy of the string in a buffer, which a NUL ends.

* A pointer into the copy is what it points at, up to the end of the copy; `end` is counted from
  `p`.
* `none` would be a read past the end of the copy.

Results:
* **`trimBuffer_eq`**: the two scans stay in the copy, and leave what `trim` says.
* **`trimsSpace_iff`**: that is the string without the white space around it exactly if it has no
  NUL.
-/

namespace WinterWind.Utils

open Library

/-! ## The source function -/

/-- `while (isspace((unsigned char)*p) != 0) p++`. -/
def skipSpace : Bytes → Option Bytes
  | [] => none
  | c :: rest => if isspace c then skipSpace rest else some (c :: rest)

/-- `while (end > p && (isspace((unsigned char)*end) != 0)) end--`. -/
def skipSpaceBack (p : Bytes) : Nat → Nat
  | 0 => 0
  | last + 1 => if isspace (p.getD (last + 1) 0) then skipSpaceBack p last else last + 1

/-- `trim`, over its copy of the string. -/
def trimBuffer (str : Bytes) : Option Bytes := do
  let p ← skipSpace (str ++ [0])
  if p.head? = some 0 then return []
  let last := skipSpaceBack p ((cStr p).length - 1)
  return cStr (p.set (last + 1) 0)

/-! ## The scans -/

/-- The terminating NUL stops the first scan. -/
theorem skipSpace_eq (str : Bytes) :
    skipSpace (str ++ [0]) = some (str.dropWhile isspace ++ [0]) := by
  induction str with
  | nil => rfl
  | cons c str ih =>
    rw [List.cons_append, skipSpace]
    by_cases hc : isspace c = true
    · rw [if_pos hc, ih, List.dropWhile_cons_of_pos hc]
    · rw [if_neg hc, List.dropWhile_cons_of_neg hc, List.cons_append]

/-- The second scan goes back over the white space at the end, and not past `p`. -/
theorem skipSpaceBack_spec {p : Bytes} (hfirst : ∀ c, p.head? = some c → isspace c = false) :
    ∀ last, last < p.length → skipSpaceBack p last ≤ last ∧
      p.take (skipSpaceBack p last + 1) = (p.take (last + 1)).rdropWhile isspace
  | 0, hlast => by
    obtain ⟨c, rest, rfl⟩ := List.exists_cons_of_length_pos hlast
    have hc : ¬isspace c = true := Bool.eq_false_iff.mp (hfirst c rfl)
    exact ⟨le_rfl, (List.rdropWhile_concat_neg isspace [] c hc).symm⟩
  | last + 1, hlast => by
    have hget : p.getD (last + 1) 0 = p[last + 1] := by
      rw [List.getD_eq_getElem?_getD, List.getElem?_eq_getElem hlast, Option.getD_some]
    have htake : p.take (last + 1 + 1) = p.take (last + 1) ++ [p[last + 1]] :=
      List.take_succ_eq_append_getElem hlast
    rw [skipSpaceBack, hget]
    by_cases hc : isspace p[last + 1] = true
    · obtain ⟨hle, hsame⟩ := skipSpaceBack_spec hfirst last (Nat.lt_of_succ_lt hlast)
      rw [if_pos hc, htake, List.rdropWhile_concat_pos _ _ _ hc]
      exact ⟨Nat.le_succ_of_le hle, hsame⟩
    · rw [if_neg hc, htake, List.rdropWhile_concat_neg _ _ _ hc]
      exact ⟨le_rfl, rfl⟩

/-- A NUL written into a C string ends it there. -/
theorem cStr_set {p : Bytes} {n : Nat} (h : n ≤ (cStr p).length) (hn : n < p.length) :
    cStr (p.set n 0) = p.take n := by
  have hpre : p.take n <+: cStr p :=
    List.prefix_of_prefix_length_le (List.take_prefix n p) (List.takeWhile_prefix _)
      ((List.length_take_le n p).trans h)
  have hfree : ∀ b ∈ p.take n, (b != 0) = true := fun b hb =>
    bne_iff_ne.mpr fun e => not_mem_cStr p (hpre.subset (e ▸ hb))
  rw [List.set_eq_take_append_cons_drop, if_pos hn, cStr, List.takeWhile_append_of_pos hfree,
    List.takeWhile_cons_of_neg (by decide), List.append_nil]

theorem length_cStr_lt {p : Bytes} (h : 0 ∈ p) : (cStr p).length < p.length := by
  have hpre : cStr p <+: p := List.takeWhile_prefix _
  refine lt_of_le_of_ne hpre.length_le fun e => not_mem_cStr p ?_
  rwa [hpre.eq_of_length e]

/-- What is returned, once `p` is at a character that is not white space. -/
theorem cStr_skipSpaceBack {c : UInt8} {rest : Bytes} (hc : isspace c = false) (hne : c ≠ 0)
    (hend : 0 ∈ rest) :
    cStr ((c :: rest).set (skipSpaceBack (c :: rest) ((cStr (c :: rest)).length - 1) + 1) 0) =
      (cStr (c :: rest)).rdropWhile isspace := by
  have hcons : cStr (c :: rest) = c :: cStr rest :=
    List.takeWhile_cons_of_pos (bne_iff_ne.mpr hne)
  have hlt := length_cStr_lt (List.mem_cons_of_mem c hend)
  have hfirst : ∀ b, (c :: rest).head? = some b → isspace b = false := fun b hb =>
    Option.some.inj hb ▸ hc
  generalize hlen : (cStr (c :: rest)).length = n at hlt ⊢
  have hpos : 0 < n := by
    rw [← hlen, hcons]
    exact Nat.succ_pos _
  obtain ⟨hle, hsame⟩ := skipSpaceBack_spec hfirst (n - 1) (by omega)
  have htake : (c :: rest).take n = cStr (c :: rest) := by
    rw [← hlen]
    exact (List.prefix_iff_eq_take.mp (List.takeWhile_prefix _)).symm
  rw [cStr_set (by omega) (by omega), hsame, Nat.sub_add_cancel hpos, htake]

/-- The copy's own NUL is no part of its C string. -/
theorem cStr_append_nul (s : Bytes) : cStr (s ++ [0]) = cStr s := by
  rw [cStr, List.takeWhile_append, List.takeWhile_cons_of_neg (by decide), List.append_nil]
  split
  · rename_i hall
    exact ((List.takeWhile_prefix _).eq_of_length hall).symm
  · rfl

/-- **What `trim` leaves.** -/
theorem trimBuffer_eq (str : Bytes) : trimBuffer str = some (trim str) := by
  have htrim : trim str = (cStr (str.dropWhile isspace)).rdropWhile isspace := rfl
  rw [trimBuffer, skipSpace_eq, htrim]
  cases hs : str.dropWhile isspace with
  | nil => rfl
  | cons c rest =>
    have hc : isspace c = false := by simpa [hs] using List.head?_dropWhile_not isspace str
    by_cases hnul : c = 0
    · subst hnul
      rfl
    · have hhead : ¬((c :: rest) ++ [0]).head? = some 0 := fun h => hnul (Option.some.inj h)
      have hend : 0 ∈ rest ++ [0] := List.mem_append_right rest (List.mem_singleton_self 0)
      simp only [Option.bind_eq_bind, Option.bind_some, if_neg hhead]
      rw [← cStr_append_nul (c :: rest), List.cons_append, cStr_skipSpaceBack hc hnul hend]
      rfl

/-! ## White space around a string -/

/-- `trim` leaves the string without the white space around it, and that as it is. -/
def TrimsSpace (str : Bytes) : Prop :=
  ∃ r, trimBuffer str = some r ∧ Trimmed isspace str r ∧ trimBuffer r = some r

/-- **White space, and nothing else, is trimmed exactly of the strings without NUL.** -/
theorem trimsSpace_iff (str : Bytes) : TrimsSpace str ↔ 0 ∉ str := by
  have hspace : ∀ {l : Bytes}, (∀ c ∈ l, isspace c = true) → 0 ∉ l := fun h hnul =>
    absurd (h 0 hnul) (by decide)
  have htrim : ∀ {s : Bytes}, 0 ∉ s → trim s = (s.dropWhile isspace).rdropWhile isspace := by
    intro s hs
    have hfree : 0 ∉ s.dropWhile isspace := fun h => hs ((List.dropWhile_suffix _).subset h)
    rw [← cStr_of_not_mem hfree]
    rfl
  constructor
  · rintro ⟨r, hr, htrimmed, -⟩
    rw [trimBuffer_eq] at hr
    obtain ⟨before, after, rfl, hbefore, hafter⟩ := htrimmed.surrounded
    have hfree : 0 ∉ r := by
      rw [← Option.some.inj hr]
      intro h
      exact not_mem_cStr _ ((List.rdropWhile_prefix isspace _).subset h)
    rw [List.mem_append, List.mem_append, not_or, not_or]
    exact ⟨⟨hspace hbefore, hfree⟩, hspace hafter⟩
  · intro hnul
    have htrimmed := trimmed_iff.mpr (htrim hnul)
    refine ⟨trim str, trimBuffer_eq str, htrimmed, ?_⟩
    have hfree : 0 ∉ trim str := by
      obtain ⟨before, after, hstr, -, -⟩ := htrimmed.surrounded
      rw [hstr, List.mem_append, List.mem_append, not_or, not_or] at hnul
      exact hnul.1.2
    rw [trimBuffer_eq, htrim hfree, htrimmed.trans]

/-- What follows the first NUL is lost. -/
theorem not_trimsSpace_nul : ¬TrimsSpace (ascii "a" ++ [0] ++ ascii "b") := by
  rintro ⟨r, hr, htrimmed, -⟩
  have hlost : r = ascii "a" := (Option.some.inj hr).symm
  have hkept : r = ascii "a" ++ [0] ++ ascii "b" := trimmed_iff.mp htrimmed
  exact absurd (hlost.symm.trans hkept) (by decide)

end WinterWind.Utils
