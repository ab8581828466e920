import WinterWind.Utils.StringUtils

/-!
# Splitting and joining (`stringutils.h`, `stringutils.cpp`)

What `str_split` appends, and `join`, which takes the pieces of a container in order. `join` adds
its separator when the result is not empty yet, so it passes over empty pieces at the start.

Results:
* **`strSplit_pieces`**: the pieces, joined by the delimiter, are the string less a delimiter at its
  end.
* `join_eq`: what `join` returns.
* **`joinsBack_iff`**: joining the pieces gives the string back exactly if it neither begins nor
  ends with the delimiter.
-/

namespace WinterWind.Utils

/-! ## What `str_split` appends -/

/-- The pieces of a string at a delimiter. -/
structure Pieces (str : Bytes) (delim : UInt8) (ps : List Bytes) : Prop where
  free : ∀ p ∈ ps, delim ∉ p
  joined : [delim].intercalate ps = if str.getLast? = some delim then str.dropLast else str
  nil_iff : ps = [] ↔ str = []
  length : ps.length =
    str.count delim + if str.getLast? = some delim ∨ str = [] then 0 else 1

theorem intercalate_dropEmptyLast (str : Bytes) (delim : UInt8) :
    [delim].intercalate (dropEmptyLast (str.splitOn delim)) =
      if str.getLast? = some delim then str.dropLast else str := by
  have hwhole : [delim].intercalate (str.splitOn delim) = str := List.intercalate_splitOn delim
  have hlast := getLast?_splitOn str delim
  unfold dropEmptyLast
  by_cases hempty : (str.splitOn delim).getLast? = some []
  · obtain ⟨l, hl⟩ := List.getLast?_eq_some_iff.mp hempty
    rw [if_pos hempty, hl, List.dropLast_concat]
    rw [hl] at hwhole
    by_cases hnil : l = []
    · rw [hnil] at hwhole ⊢
      rw [← hwhole]
      rfl
    · rw [intercalate_append (List.cons_ne_nil _ _) hnil, List.intercalate_singleton,
        List.append_nil] at hwhole
      rw [← hwhole, List.getLast?_concat, if_pos rfl, List.dropLast_concat]
  · have hne : ¬str.getLast? = some delim := fun h => hempty (hlast.mpr (Or.inr h))
    rw [if_neg hempty, if_neg hne, hwhole]

theorem pieces_dropEmptyLast (str : Bytes) (delim : UInt8) :
    Pieces str delim (dropEmptyLast (str.splitOn delim)) := by
  have hsplit : strSplit str delim [] = dropEmptyLast (str.splitOn delim) := by
    rw [strSplit_eq, List.nil_append]
  refine ⟨fun p hp => ?_, intercalate_dropEmptyLast str delim, ?_, ?_⟩
  · rw [← hsplit] at hp
    exact not_mem_of_mem_strSplit hp
  · rw [← hsplit, ← List.length_eq_zero_iff, length_strSplit]
    constructor
    · intro h
      by_contra hne
      have hlast : str.getLast? = some delim := by
        by_contra hlast
        rw [if_neg (not_or.mpr ⟨hlast, hne⟩)] at h
        omega
      have hmem : delim ∈ str := List.mem_of_getLast? hlast
      have hpos := List.count_pos_iff.mpr hmem
      omega
    · rintro rfl
      rfl
  · rw [← hsplit, length_strSplit]

/-- **What `str_split` appends.** -/
theorem strSplit_pieces (str : Bytes) (delim : UInt8) (res : List Bytes) :
    ∃ ps, strSplit str delim res = res ++ ps ∧ Pieces str delim ps :=
  ⟨_, strSplit_eq str delim res, pieces_dropEmptyLast str delim⟩

/-! ## What `join` returns -/

/-- The loop of `join`. -/
def joinLoop (t : Bytes) : List Bytes → Bytes → Bytes
  | [], result => result
  | piece :: rest, result =>
    joinLoop t rest ((if !result.isEmpty then result ++ t else result) ++ piece)

/-- `join`. -/
def join (pieces : List Bytes) (t : Bytes) : Bytes := joinLoop t pieces []

theorem append_intercalate (a t p : Bytes) (ps : List Bytes) :
    t.intercalate ((a ++ p) :: ps) = a ++ t.intercalate (p :: ps) := by
  cases ps with
  | nil => rw [List.intercalate_singleton, List.intercalate_singleton]
  | cons q ps =>
    rw [List.intercalate_cons_cons, List.intercalate_cons_cons]
    simp only [List.append_assoc]

theorem joinLoop_of_ne_nil (t : Bytes) : ∀ (pieces : List Bytes) (result : Bytes), result ≠ [] →
    joinLoop t pieces result = t.intercalate (result :: pieces)
  | [], result, _ => List.intercalate_singleton.symm
  | piece :: rest, result, hne => by
    have hfull : (!result.isEmpty) = true := by simpa using hne
    have hne' : result ++ t ++ piece ≠ [] := by simp [hne]
    rw [joinLoop, if_pos hfull, joinLoop_of_ne_nil t rest _ hne', append_intercalate,
      List.intercalate_cons_cons]

/-- **What `join` returns**: the empty pieces at the start are left out. -/
theorem join_eq (t : Bytes) : ∀ pieces : List Bytes,
    join pieces t = t.intercalate (pieces.dropWhile List.isEmpty)
  | [] => rfl
  | [] :: rest => join_eq t rest
  | (c :: piece) :: rest => joinLoop_of_ne_nil t rest (c :: piece) (List.cons_ne_nil c piece)

/-- It is never longer than the pieces with all separators. -/
theorem length_join_le (t : Bytes) : ∀ pieces : List Bytes,
    (join pieces t).length ≤ (t.intercalate pieces).length
  | [] => le_rfl
  | [[]] => le_rfl
  | [] :: piece :: rest => by
    have ih := length_join_le t (piece :: rest)
    rw [List.intercalate_cons_cons, List.nil_append, List.length_append]
    exact ih.trans (Nat.le_add_left _ _)
  | (c :: piece) :: rest => by
    rw [join_eq, List.dropWhile_cons_of_neg (by simp)]

/-! ## There and back -/

/-- Joining the pieces of a string gives it back. -/
def JoinsBack (str : Bytes) (delim : UInt8) : Prop := join (strSplit str delim []) [delim] = str

/-- **`join` inverts `str_split` exactly on the strings that neither begin nor end with the
delimiter.** -/
theorem joinsBack_iff (str : Bytes) (delim : UInt8) :
    JoinsBack str delim ↔ str.head? ≠ some delim ∧ str.getLast? ≠ some delim := by
  have hpieces := pieces_dropEmptyLast str delim
  unfold JoinsBack
  rw [strSplit_eq, List.nil_append]
  generalize dropEmptyLast (str.splitOn delim) = ps at hpieces ⊢
  have hjoined := hpieces.joined
  have hle := length_join_le [delim] ps
  by_cases hlast : str.getLast? = some delim
  · -- the last delimiter is not in the pieces
    rw [if_pos hlast] at hjoined
    refine iff_of_false (fun h => ?_) fun h => h.2 hlast
    have hpos : 0 < str.length := List.length_pos_of_mem (List.mem_of_getLast? hlast)
    rw [h, hjoined, List.length_dropLast] at hle
    omega
  · rw [if_neg hlast] at hjoined
    match ps with
    | [] =>
      obtain rfl := hpieces.nil_iff.mp rfl
      exact iff_of_true rfl ⟨(Option.some_ne_none delim).symm, (Option.some_ne_none delim).symm⟩
    | [[]] => exact absurd (hpieces.nil_iff.mpr hjoined.symm) (List.cons_ne_nil _ _)
    | [] :: piece :: rest =>
      -- the first delimiter follows an empty piece
      rw [List.intercalate_cons_cons, List.nil_append] at hjoined
      refine iff_of_false (fun h => ?_) fun h => h.1 (hjoined ▸ rfl)
      have hshort := length_join_le [delim] (piece :: rest)
      have hsame : join ([] :: piece :: rest) [delim] = join (piece :: rest) [delim] := rfl
      rw [← hsame, h, ← hjoined, List.length_append, List.length_singleton] at hshort
      omega
    | (c :: piece) :: rest =>
      have hc : c ≠ delim := fun e =>
        hpieces.free (c :: piece) List.mem_cons_self (e ▸ List.mem_cons_self)
      have hhead : str.head? = some c := by
        rw [← hjoined, show c :: piece = [c] ++ piece from rfl, append_intercalate]
        rfl
      rw [join_eq, List.dropWhile_cons_of_neg (by simp), hhead]
      exact iff_of_true hjoined ⟨fun e => hc (Option.some.inj e), hlast⟩

/-- The delimiter at the start is lost. -/
theorem not_joinsBack_leading : ¬JoinsBack (ascii ",a") 44 := by
  intro h
  have hlost : join (strSplit (ascii ",a") 44 []) [44] = ascii "a" := rfl
  exact absurd (hlost.symm.trans h) (by decide)

end WinterWind.Utils
