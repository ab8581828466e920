import Mathlib.Data.List.Basic

/-!
# Lines

Texts made of lines that a character ends, over any characters: what a text splits into, and what
a reader with a buffer of a fixed size takes from it at a time, also where the text comes in reads
of any lengths.

Results:
* **`splitLines_unlines`**: lines without their end character are what their text splits into.
* `takeLine_line`, `takeLine_full`: a buffer takes a line with its end character if that fits, and
  is full before otherwise.
* **`takeReads_eq`**: how the text comes makes no difference to what is taken.
* `takeReads_last`: what is left of the last read.
-/

namespace WinterWind.Library

variable {α : Type} [DecidableEq α] (nl : α)

/-- The text of the lines, each ended by `nl`. -/
def unlines (lines : List (List α)) : List α := lines.flatMap (· ++ [nl])

/-- The lines that `nl` ends, and what follows the last one. -/
def splitLines : List α → List (List α) × List α
  | [] => ([], [])
  | c :: s =>
    if c = nl then ([] :: (splitLines s).1, (splitLines s).2)
    else
      match (splitLines s).1 with
      | [] => ([], c :: (splitLines s).2)
      | line :: lines => ((c :: line) :: lines, (splitLines s).2)

/-- What a buffer for `n` characters takes of a text: up to the first `nl`, which it takes too. -/
def takeLine : Nat → List α → List α × List α
  | 0, s => ([], s)
  | _ + 1, [] => ([], [])
  | n + 1, c :: s =>
    if c = nl then ([nl], s) else (c :: (takeLine n s).1, (takeLine n s).2)

/-- The same where `buffer` is there and `reads` are to come: there is a read whenever the line is
not complete. Given back are what is taken, what stays in the buffer and the reads that are still
to come. -/
def takeReads (n : Nat) (buffer : List α) : List (List α) → List α × List α × List (List α)
  | [] => ((takeLine nl n buffer).1, (takeLine nl n buffer).2, [])
  | read :: reads =>
    let r := takeLine nl n buffer
    if r.1.length < n ∧ nl ∉ r.1 then
      let more := takeReads (n - r.1.length) read reads
      (r.1 ++ more.1, more.2)
    else (r.1, r.2, read :: reads)

variable {nl}

/-! ## Splitting -/

theorem splitLines_append {line : List α} (h : nl ∉ line) (s : List α) :
    splitLines nl (line ++ nl :: s) = (line :: (splitLines nl s).1, (splitLines nl s).2) := by
  induction line with
  | nil => rw [List.nil_append, splitLines, if_pos rfl]
  | cons c line ih =>
    rw [List.mem_cons, not_or] at h
    rw [List.cons_append, splitLines, if_neg (Ne.symm h.1), ih h.2]

/-- **Lines are read back from their text.** -/
theorem splitLines_unlines {lines : List (List α)} (h : ∀ line ∈ lines, nl ∉ line) :
    splitLines nl (unlines nl lines) = (lines, []) := by
  induction lines with
  | nil => rfl
  | cons line lines ih =>
    obtain ⟨hline, hlines⟩ := List.forall_mem_cons.mp h
    have htext : unlines nl (line :: lines) = line ++ nl :: unlines nl lines := by
      simp [unlines]
    rw [htext, splitLines_append hline, ih hlines]

/-! ## A buffer of a fixed size -/

theorem takeLine_line {line : List α} (hnl : nl ∉ line) {n : Nat} (hn : line.length < n)
    (s : List α) : takeLine nl n (line ++ nl :: s) = (line ++ [nl], s) := by
  induction line generalizing n with
  | nil =>
    obtain ⟨n, rfl⟩ := Nat.exists_eq_add_one.mpr hn
    rw [List.nil_append, takeLine, if_pos rfl]
    rfl
  | cons c line ih =>
    obtain ⟨n, rfl⟩ := Nat.exists_eq_add_one.mpr (Nat.zero_lt_of_lt hn)
    rw [List.mem_cons, not_or] at hnl
    rw [List.cons_append, takeLine, if_neg (Ne.symm hnl.1),
      ih hnl.2 (Nat.lt_of_succ_lt_succ hn)]
    rfl

theorem takeLine_full {line : List α} (hnl : nl ∉ line) (s : List α) :
    takeLine nl line.length (line ++ s) = (line, s) := by
  induction line with
  | nil => rfl
  | cons c line ih =>
    rw [List.mem_cons, not_or] at hnl
    rw [List.length_cons, List.cons_append, takeLine, if_neg (Ne.symm hnl.1), ih hnl.2]

theorem length_takeLine_le (n : Nat) (s : List α) : (takeLine nl n s).1.length ≤ n := by
  induction s generalizing n with
  | nil => cases n <;> exact Nat.zero_le _
  | cons c s ih =>
    cases n with
    | zero => exact Nat.zero_le _
    | succ n =>
      rw [takeLine]
      split
      · exact Nat.succ_le_succ (Nat.zero_le n)
      · exact Nat.succ_le_succ (ih n)

/-- What is taken and what is left make up the text. -/
theorem append_takeLine (n : Nat) (s : List α) :
    (takeLine nl n s).1 ++ (takeLine nl n s).2 = s := by
  induction s generalizing n with
  | nil => cases n <;> rfl
  | cons c s ih =>
    cases n with
    | zero => rfl
    | succ n =>
      rw [takeLine]
      split
      · rename_i hc
        rw [hc]
        rfl
      · exact congrArg (c :: ·) (ih n)

/-- The character that ends a line is taken last. -/
theorem takeLine_append_nl {n : Nat} {s p q : List α} (h : (takeLine nl n s).1 = p ++ nl :: q) :
    q = [] := by
  induction s generalizing n p with
  | nil => cases n <;> simp [takeLine] at h
  | cons c s ih =>
    cases n with
    | zero => simp [takeLine] at h
    | succ n =>
      rw [takeLine] at h
      split at h
      · cases p with
        | nil => exact (List.cons.inj h).2.symm
        | cons d p => simp at h
      · rename_i hc
        cases p with
        | nil => exact absurd (List.cons.inj h).1 hc
        | cons d p => exact ih (List.cons.inj h).2

/-- What is left over was cut off by the end of a line or by that of the buffer. -/
theorem takeLine_complete {n : Nat} {s : List α} (h : (takeLine nl n s).2 ≠ []) :
    nl ∈ (takeLine nl n s).1 ∨ (takeLine nl n s).1.length = n := by
  induction s generalizing n with
  | nil => cases n <;> exact absurd rfl h
  | cons c s ih =>
    cases n with
    | zero => exact Or.inr rfl
    | succ n =>
      rw [takeLine] at h ⊢
      split
      · exact Or.inl List.mem_cons_self
      · rename_i hc
        rw [if_neg hc] at h
        exact (ih h).imp (List.mem_cons_of_mem c) (congrArg (· + 1))

/-- A complete line is taken whatever follows. -/
theorem takeLine_append_of_complete {n : Nat} {s : List α}
    (h : nl ∈ (takeLine nl n s).1 ∨ (takeLine nl n s).1.length = n) (t : List α) :
    takeLine nl n (s ++ t) = ((takeLine nl n s).1, (takeLine nl n s).2 ++ t) := by
  induction s generalizing n with
  | nil =>
    cases n with
    | zero => rfl
    | succ n => simp [takeLine] at h
  | cons c s ih =>
    cases n with
    | zero => rfl
    | succ n =>
      rw [List.cons_append, takeLine, takeLine]
      split
      · rfl
      · rename_i hc
        rw [takeLine, if_neg hc] at h
        have hcomplete : nl ∈ (takeLine nl n s).1 ∨ (takeLine nl n s).1.length = n :=
          h.imp (fun hmem => (List.mem_cons.mp hmem).resolve_left (Ne.symm hc)) Nat.succ.inj
        rw [ih hcomplete]

/-- A text that is not a complete line is taken, and what follows with it. -/
theorem takeLine_append_of_short {n : Nat} {s : List α} (hn : s.length < n) (hnl : nl ∉ s)
    (t : List α) : takeLine nl n (s ++ t) =
      (s ++ (takeLine nl (n - s.length) t).1, (takeLine nl (n - s.length) t).2) := by
  induction s generalizing n with
  | nil => rfl
  | cons c s ih =>
    obtain ⟨n, rfl⟩ := Nat.exists_eq_add_one.mpr (Nat.zero_lt_of_lt hn)
    rw [List.mem_cons, not_or] at hnl
    rw [List.cons_append, takeLine, if_neg (Ne.symm hnl.1),
      ih (Nat.lt_of_succ_lt_succ hn) hnl.2, List.length_cons, Nat.add_sub_add_right]
    rfl

/-- An incomplete line is all that there was. -/
theorem takeLine_of_incomplete {n : Nat} {s : List α} (hn : (takeLine nl n s).1.length < n)
    (hnl : nl ∉ (takeLine nl n s).1) : takeLine nl n s = (s, []) := by
  have hrest : (takeLine nl n s).2 = [] := by
    by_contra h
    exact (takeLine_complete h).elim hnl (Nat.ne_of_lt hn)
  have happend : (takeLine nl n s).1 ++ (takeLine nl n s).2 = s := append_takeLine n s
  rw [hrest, List.append_nil] at happend
  exact Prod.ext happend hrest

/-! ## Reads -/

/-- **How a text comes** makes no difference to what is taken of it. -/
theorem takeReads_eq (n : Nat) (buffer : List α) (reads : List (List α)) :
    ((takeReads nl n buffer reads).1,
        (takeReads nl n buffer reads).2.1 ++ (takeReads nl n buffer reads).2.2.flatten) =
      takeLine nl n (buffer ++ reads.flatten) := by
  induction reads generalizing n buffer with
  | nil => rw [takeReads, List.flatten_nil, List.append_nil, List.append_nil]
  | cons read reads ih =>
    rw [takeReads, List.flatten_cons]
    dsimp only
    split
    · rename_i h
      have hall := takeLine_of_incomplete h.1 h.2
      rw [hall] at h ⊢
      rw [takeLine_append_of_short h.1 h.2, ← ih]
    · rename_i h
      rw [not_and_or, not_not, Nat.not_lt] at h
      have hcomplete : nl ∈ (takeLine nl n buffer).1 ∨ (takeLine nl n buffer).1.length = n :=
        h.symm.imp_right fun hle => Nat.le_antisymm (length_takeLine_le n buffer) hle
      rw [takeLine_append_of_complete hcomplete, List.flatten_cons]

/-- The line that is taken does not depend on how the text comes. -/
theorem takeReads_fst (n : Nat) (buffer : List α) (reads : List (List α)) :
    (takeReads nl n buffer reads).1 = (takeLine nl n (buffer ++ reads.flatten)).1 :=
  congrArg Prod.fst (takeReads_eq n buffer reads)

/-- The reads that are still to come end as the reads did. -/
theorem takeReads_suffix (n : Nat) (buffer : List α) (reads : List (List α)) :
    (takeReads nl n buffer reads).2.2 <:+ reads := by
  induction reads generalizing n buffer with
  | nil => exact List.suffix_refl []
  | cons read reads ih =>
    rw [takeReads]
    dsimp only
    split
    · exact (ih _ _).trans (List.suffix_cons read reads)
    · exact List.suffix_refl _

/-- **What is left of the last read**, once it has been made: the line was not complete before. -/
theorem takeReads_last {n : Nat} {buffer : List α} {reads : List (List α)} (hne : reads ≠ [])
    (hnil : (takeReads nl n buffer reads).2.2 = []) :
    ∃ x p, (takeReads nl n buffer reads).1 = x ++ p ∧ nl ∉ x ∧
      reads.getLast? = some (p ++ (takeReads nl n buffer reads).2.1) := by
  induction reads generalizing n buffer with
  | nil => exact absurd rfl hne
  | cons read reads ih =>
    rw [takeReads] at hnil ⊢
    dsimp only at hnil ⊢
    split
    · rename_i h
      rw [if_pos h] at hnil
      cases reads with
      | nil =>
        refine ⟨_, _, rfl, h.2, ?_⟩
        rw [takeReads]
        exact congrArg some (append_takeLine _ _).symm
      | cons read' reads =>
        obtain ⟨x, p, hpiece, hx, hlast⟩ := ih (List.cons_ne_nil _ _) hnil
        refine ⟨(takeLine nl n buffer).1 ++ x, p, ?_, ?_, ?_⟩
        · rw [hpiece, List.append_assoc]
        · rw [List.mem_append, not_or]
          exact ⟨h.2, hx⟩
        · rw [List.getLast?_cons_cons]
          exact hlast
    · rename_i h
      rw [if_neg h] at hnil
      exact absurd hnil (List.cons_ne_nil _ _)

end WinterWind.Library
