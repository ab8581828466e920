import Mathlib.Data.List.Infix
import Mathlib.Data.List.TakeWhile
import WinterWind.Library.Decimal

/-!
# The tokens of SQL text

The lexical structure of SQL as PostgreSQL reads it, in its default configuration: what ends a
token, and what an identifier stands for.

* White space and comments (`--` to the end of the line, and `/* */`, which nest) separate tokens.
* An unquoted identifier is folded to lower case. A quoted one stands between `"`, doubled inside.
  Either is cut after 63 bytes. A key word is an identifier here.
* A literal stands between `'`, doubled inside, or, after an `E`, escaped by a backslash; after a
  `B` or an `X` it is a bit string. A dollar quote ends at the next copy of its opening.
* `;` and any other byte is a token. Numbers are read up to the first byte that no identifier has.
* The forms that start with `U&`, and literals that continue on another line, are left out.

Results:
* `tokens_cons`: the tokens of a text, one scan at a time.
* `exists_scan_of_mem_tokens`: every token was scanned at some suffix of the text.
* **`isPlain_of_mem_tokens`**: an unquoted identifier stands for a plain name.
* **`count_of_mem_tokens`**: a text with a quoted identifier has the quotes of that name twice, and
  two more.
* **`tokens_identifier`**: an identifier in front of what cannot continue it is its first token.
-/

namespace WinterWind.Library

/-! ## Characters -/

/-- Space, and the control characters from tab to carriage return. -/
def isSqlSpace (c : UInt8) : Bool := c == 32 || (9 ≤ c && c ≤ 13)

/-- The letters `A` to `Z`. -/
def isUpper (c : UInt8) : Bool := 65 ≤ c && c ≤ 90

/-- A letter, the underscore, or a byte that is not ASCII. -/
def identStart (c : UInt8) : Bool := isUpper c || (97 ≤ c && c ≤ 122) || c == 95 || 128 ≤ c

/-- A character of an identifier. -/
def identCont (c : UInt8) : Bool := identStart c || isDigit c || c == 36

/-- A character of the tag of a dollar quote. -/
def tagCont (c : UInt8) : Bool := identStart c || isDigit c

/-- The lower-case letter of an upper-case one. -/
def toLower (c : UInt8) : UInt8 := if isUpper c then c + 32 else c

/-! ## Scanning -/

/-- A token. An identifier carries the name it stands for, a string its opening and its body. -/
inductive Token where
  | identifier (quoted : Bool) (name : List UInt8)
  | string (opening body : List UInt8)
  | number (text : List UInt8)
  | semicolon
  | other (c : UInt8)
  | unterminated
  deriving Repr, DecidableEq

/-- The name of an unquoted identifier. -/
def foldName (word : List UInt8) : List UInt8 := (word.map toLower).take 63

/-- Put characters before a body that was found. -/
def prepend (cs : List UInt8) (found : Option (List UInt8 × List UInt8)) :
    Option (List UInt8 × List UInt8) :=
  found.map fun p => (cs ++ p.1, p.2)

/-- What stands before the quote that ends it, each `quote` of it doubled, and the text after. -/
def quotedBody (quote : UInt8) : List UInt8 → Option (List UInt8 × List UInt8)
  | [] => none
  | [c] => if c = quote then some ([], []) else none
  | c :: d :: s =>
    if c = quote then
      if d = quote then prepend [quote] (quotedBody quote s) else some ([], d :: s)
    else prepend [c] (quotedBody quote (d :: s))

/-- The same with a backslash before any character. -/
def escapedBody : List UInt8 → Option (List UInt8 × List UInt8)
  | [] => none
  | [c] => if c = 39 then some ([], []) else none
  | c :: d :: s =>
    if c = 92 then prepend [c, d] (escapedBody s)
    else if c = 39 then
      if d = 39 then prepend [39] (escapedBody s) else some ([], d :: s)
    else prepend [c] (escapedBody (d :: s))

/-- What stands before the next `delimiter`, and the text after. -/
def bodyBefore (delimiter : List UInt8) : List UInt8 → Option (List UInt8 × List UInt8)
  | [] => none
  | c :: s =>
    if delimiter <+: c :: s then some ([], (c :: s).drop delimiter.length)
    else prepend [c] (bodyBefore delimiter s)

/-- The text after a comment in which `depth` more are open. -/
def afterComment (depth : Nat) : List UInt8 → Option (List UInt8)
  | [] => none
  | [_] => none
  | c :: d :: s =>
    if c = 42 ∧ d = 47 then
      match depth with
      | 0 => some s
      | depth + 1 => afterComment depth s
    else if c = 47 ∧ d = 42 then afterComment (depth + 1) s
    else afterComment depth (d :: s)

/-- The tag of the dollar quote that starts before `s`. -/
def dollarTag (s : List UInt8) : Option (List UInt8) :=
  let tag := s.takeWhile tagCont
  if (s.drop tag.length).head? = some 36 ∧ tag.head?.all identStart then some tag else none

/-- The token of a body that was found, or of one that never ends. -/
def closing (token : List UInt8 → Token) (found : Option (List UInt8 × List UInt8)) :
    Option Token × List UInt8 :=
  match found with
  | some (body, s) => (some (token body), s)
  | none => (some .unterminated, [])

/-- What starts at a character. -/
inductive Start where
  | space
  | lineComment
  | comment
  | quotedIdentifier
  | literal
  | escapedLiteral
  | bitString
  | word
  | number
  | dollar
  | semicolon
  | other
  deriving Repr, DecidableEq

/-- What starts at a character of identifiers, given the next one. -/
def wordStart (c : UInt8) (next : Option UInt8) : Start :=
  if next = some 39 then
    if c = 69 ∨ c = 101 then .escapedLiteral
    else if c = 66 ∨ c = 98 ∨ c = 88 ∨ c = 120 then .bitString
    else .word
  else .word

/-- What starts at another character. -/
def symbolStart (c : UInt8) (next : Option UInt8) : Start :=
  if isSqlSpace c then .space
  else if c = 45 ∧ next = some 45 then .lineComment
  else if c = 47 ∧ next = some 42 then .comment
  else if c = 34 then .quotedIdentifier
  else if c = 39 then .literal
  else if isDigit c then .number
  else if c = 36 then .dollar
  else if c = 59 then .semicolon
  else .other

/-- What starts at the character `c`, given the next one. -/
def startOf (c : UInt8) (next : Option UInt8) : Start :=
  if identStart c then wordStart c next else symbolStart c next

/-- Scan from the character `c`: a token, unless it was a space or a comment, and the text after. -/
def scan (c : UInt8) (s : List UInt8) : Option Token × List UInt8 :=
  match startOf c s.head? with
  | .space => (none, s)
  | .lineComment => (none, s.dropWhile fun b => b != 10 && b != 13)
  | .comment =>
    match afterComment 0 s.tail with
    | some s => (none, s)
    | none => (some .unterminated, [])
  | .quotedIdentifier =>
    closing (fun body => .identifier true (body.take 63)) (quotedBody 34 s)
  | .literal => closing (.string [c]) (quotedBody 39 s)
  | .escapedLiteral => closing (.string [c, 39]) (escapedBody s.tail)
  | .bitString => closing (.string [c, 39]) (quotedBody 39 s.tail)
  | .word =>
    (some (.identifier false (foldName (c :: s.takeWhile identCont))), s.dropWhile identCont)
  | .number => (some (.number (c :: s.takeWhile identCont)), s.dropWhile identCont)
  | .dollar =>
    match dollarTag s with
    | some tag =>
      closing (.string (c :: tag ++ [36]))
        (bodyBefore (c :: tag ++ [36]) (s.drop (tag.length + 1)))
    | none => (some (.other c), s)
  | .semicolon => (some .semicolon, s)
  | .other => (some (.other c), s)

/-- The tokens of at most `n` scans. -/
def scans : Nat → List UInt8 → List Token
  | 0, _ => []
  | _, [] => []
  | n + 1, c :: s => (scan c s).1.toList ++ scans n (scan c s).2

/-- The tokens of a text. -/
def tokens (s : List UInt8) : List Token := scans s.length s

/-! ## What a scan leaves -/

theorem prepend_eq_some {cs body rest : List UInt8} {found : Option (List UInt8 × List UInt8)} :
    prepend cs found = some (body, rest) ↔ ∃ b, found = some (b, rest) ∧ cs ++ b = body := by
  unfold prepend
  rw [Option.map_eq_some_iff]
  constructor
  · rintro ⟨⟨b, r⟩, hb, h⟩
    obtain ⟨rfl, rfl⟩ := Prod.mk.inj h
    exact ⟨b, hb, rfl⟩
  · rintro ⟨b, hb, rfl⟩
    exact ⟨(b, rest), hb, rfl⟩

/-- What is put before a body leaves the text after it alone. -/
theorem suffix_of_prepend {cs body rest s : List UInt8}
    {found : Option (List UInt8 × List UInt8)} (h : prepend cs found = some (body, rest))
    (ih : ∀ {b}, found = some (b, rest) → rest <:+ s) : rest <:+ s := by
  obtain ⟨b, hb, -⟩ := prepend_eq_some.mp h
  exact ih hb

theorem suffix_cons_cons {s rest : List UInt8} (h : rest <:+ s) (c d : UInt8) :
    rest <:+ c :: d :: s :=
  (h.trans (List.suffix_cons d s)).trans (List.suffix_cons c (d :: s))

theorem quotedBody_suffix {quote : UInt8} {s body rest : List UInt8}
    (h : quotedBody quote s = some (body, rest)) : rest <:+ s := by
  fun_induction quotedBody quote s generalizing body with
  | case1 => cases h
  | case2 =>
    cases h
    exact List.nil_suffix
  | case3 => cases h
  | case4 s ih => exact suffix_cons_cons (suffix_of_prepend h ih) _ _
  | case5 =>
    cases h
    exact List.suffix_cons _ _
  | case6 c d s hc ih => exact (suffix_of_prepend h ih).trans (List.suffix_cons _ _)

theorem escapedBody_suffix {s body rest : List UInt8}
    (h : escapedBody s = some (body, rest)) : rest <:+ s := by
  fun_induction escapedBody s generalizing body with
  | case1 => cases h
  | case2 =>
    cases h
    exact List.nil_suffix
  | case3 => cases h
  | case4 d s ih => exact suffix_cons_cons (suffix_of_prepend h ih) _ _
  | case5 s _ ih => exact suffix_cons_cons (suffix_of_prepend h ih) _ _
  | case6 =>
    cases h
    exact List.suffix_cons _ _
  | case7 c d s _ _ ih => exact (suffix_of_prepend h ih).trans (List.suffix_cons _ _)

theorem bodyBefore_suffix {delimiter s body rest : List UInt8}
    (h : bodyBefore delimiter s = some (body, rest)) : rest <:+ s := by
  induction s generalizing body with
  | nil => cases h
  | cons c s ih =>
    rw [bodyBefore] at h
    split at h
    · cases h
      exact List.drop_suffix _ _
    · exact (suffix_of_prepend h ih).trans (List.suffix_cons c s)

theorem afterComment_suffix {depth : Nat} {s rest : List UInt8}
    (h : afterComment depth s = some rest) : rest <:+ s := by
  fun_induction afterComment depth s with
  | case1 => cases h
  | case2 => cases h
  | case3 c d s =>
    cases h
    exact suffix_cons_cons List.suffix_rfl _ _
  | case4 c d s _ _ ih => exact suffix_cons_cons (ih h) _ _
  | case5 depth c d s _ _ ih => exact suffix_cons_cons (ih h) _ _
  | case6 depth c d s _ _ ih => exact (ih h).trans (List.suffix_cons _ _)

theorem closing_suffix {token : List UInt8 → Token} {found : Option (List UInt8 × List UInt8)}
    {s : List UInt8} (h : ∀ body rest, found = some (body, rest) → rest <:+ s) :
    (closing token found).2 <:+ s := by
  unfold closing
  split
  · exact h _ _ rfl
  · exact List.nil_suffix

/-- **A scan leaves the end of the text.** -/
theorem scan_suffix (c : UInt8) (s : List UInt8) : (scan c s).2 <:+ s := by
  have htail : s.tail <:+ s := List.tail_suffix s
  unfold scan
  cases startOf c s.head? with
  | space => exact List.suffix_rfl
  | lineComment => exact List.dropWhile_suffix _
  | comment =>
    dsimp only
    split
    · rename_i h
      exact (afterComment_suffix h).trans htail
    · exact List.nil_suffix
  | quotedIdentifier => exact closing_suffix fun _ _ => quotedBody_suffix
  | literal => exact closing_suffix fun _ _ => quotedBody_suffix
  | escapedLiteral => exact closing_suffix fun _ _ h => (escapedBody_suffix h).trans htail
  | bitString => exact closing_suffix fun _ _ h => (quotedBody_suffix h).trans htail
  | word => exact List.dropWhile_suffix _
  | number => exact List.dropWhile_suffix _
  | dollar =>
    dsimp only
    split
    · exact closing_suffix fun _ _ h => (bodyBefore_suffix h).trans (List.drop_suffix _ _)
    · exact List.suffix_rfl
  | semicolon => exact List.suffix_rfl
  | other => exact List.suffix_rfl

/-! ## The tokens of a text -/

theorem scans_of_le {n : Nat} {s : List UInt8} (h : s.length ≤ n) : scans n s = tokens s := by
  induction n using Nat.strong_induction_on generalizing s with
  | _ n ih =>
    match n, s with
    | 0, [] => rfl
    | n + 1, [] => rfl
    | n + 1, c :: s =>
      have hrest := (scan_suffix c s).length_le
      rw [List.length_cons] at h
      have hscans : scans s.length (scan c s).2 = tokens (scan c s).2 := ih _ (by omega) hrest
      rw [tokens, scans, List.length_cons, scans, hscans, ih n (by omega) (by omega)]

/-- **One scan**, and the tokens of the text after it. -/
theorem tokens_cons (c : UInt8) (s : List UInt8) :
    tokens (c :: s) = (scan c s).1.toList ++ tokens (scan c s).2 := by
  rw [← scans_of_le (scan_suffix c s).length_le]
  rfl

/-- Every token was scanned at some suffix of the text. -/
theorem exists_scan_of_mem_tokens {token : Token} (s : List UInt8) (h : token ∈ tokens s) :
    ∃ c rest, c :: rest <:+ s ∧ (scan c rest).1 = some token := by
  induction hn : s.length using Nat.strong_induction_on generalizing s with
  | _ n ih =>
    cases s with
    | nil => cases h
    | cons c s =>
      rw [tokens_cons, List.mem_append, Option.mem_toList] at h
      rcases h with h | h
      · exact ⟨c, s, List.suffix_rfl, h⟩
      · have hrest := scan_suffix c s
        have hlt : (scan c s).2.length < n := by
          have hle := hrest.length_le
          rw [List.length_cons] at hn
          omega
        obtain ⟨d, rest, hsuffix, hscan⟩ := ih _ hlt _ h rfl
        exact ⟨d, rest, (hsuffix.trans hrest).trans (List.suffix_cons c s), hscan⟩

/-! ## Identifiers -/

/-- A name that an unquoted identifier can stand for. -/
structure IsPlain (name : List UInt8) : Prop where
  start : ∃ c ∈ name.head?, identStart c = true
  chars : ∀ c ∈ name, identCont c = true ∧ isUpper c = false
  length : name.length ≤ 63

theorem toLower_eq (c : UInt8) : (toLower c).toNat =
    if 65 ≤ c.toNat ∧ c.toNat ≤ 90 then c.toNat + 32 else c.toNat := by
  unfold toLower isUpper
  simp only [Bool.and_eq_true, decide_eq_true_eq, UInt8.le_iff_toNat_le, UInt8.reduceToNat]
  split
  · simp only [UInt8.toNat_add, UInt8.reduceToNat]
    omega
  · rfl

theorem identStart_iff (c : UInt8) : identStart c = true ↔ (65 ≤ c.toNat ∧ c.toNat ≤ 90) ∨
    (97 ≤ c.toNat ∧ c.toNat ≤ 122) ∨ c.toNat = 95 ∨ 128 ≤ c.toNat := by
  simp only [identStart, isUpper, Bool.or_eq_true, Bool.and_eq_true, decide_eq_true_eq, beq_iff_eq,
    UInt8.le_iff_toNat_le, ← UInt8.toNat_inj, UInt8.reduceToNat, or_assoc]

theorem identCont_iff (c : UInt8) : identCont c = true ↔ identStart c = true ∨
    (48 ≤ c.toNat ∧ c.toNat ≤ 57) ∨ c.toNat = 36 := by
  simp only [identCont, isDigit, Bool.or_eq_true, Bool.and_eq_true, decide_eq_true_eq, beq_iff_eq,
    UInt8.le_iff_toNat_le, ← UInt8.toNat_inj, UInt8.reduceToNat, or_assoc]

theorem isUpper_eq_false_iff (c : UInt8) :
    isUpper c = false ↔ ¬(65 ≤ c.toNat ∧ c.toNat ≤ 90) := by
  simp only [isUpper, Bool.and_eq_false_iff, decide_eq_false_iff_not, UInt8.le_iff_toNat_le,
    UInt8.reduceToNat]
  tauto

theorem identStart_toLower {c : UInt8} (h : identStart c = true) :
    identStart (toLower c) = true := by
  have hc := c.toNat_lt_size
  rw [identStart_iff, toLower_eq] at *
  split <;> omega

theorem identCont_toLower {c : UInt8} (h : identCont c = true) :
    identCont (toLower c) = true ∧ isUpper (toLower c) = false := by
  rw [identCont_iff, identStart_iff] at *
  rw [isUpper_eq_false_iff, toLower_eq]
  split <;> omega

theorem toLower_of_not_isUpper {c : UInt8} (h : isUpper c = false) : toLower c = c := by
  rw [toLower, h]
  rfl

/-- The name of a word is plain. -/
theorem isPlain_foldName {c : UInt8} {word : List UInt8} (hc : identStart c = true)
    (hword : ∀ b ∈ word, identCont b = true) : IsPlain (foldName (c :: word)) where
  start := ⟨toLower c, by simp [foldName], identStart_toLower hc⟩
  chars := by
    intro b hb
    obtain ⟨a, ha, rfl⟩ := List.mem_map.mp (List.mem_of_mem_take hb)
    rcases List.mem_cons.mp ha with rfl | ha
    · exact identCont_toLower ((identCont_iff _).mpr (Or.inl hc))
    · exact identCont_toLower (hword a ha)
  length := List.length_take_le _ _

/-- A plain name stands for itself. -/
theorem foldName_of_isPlain {name : List UInt8} (h : IsPlain name) : foldName name = name := by
  have hmap : name.map toLower = name := by
    conv_rhs => rw [← List.map_id name]
    exact List.map_congr_left fun c hc => toLower_of_not_isUpper (h.chars c hc).2
  rw [foldName, hmap, List.take_of_length_le h.length]

/-! ## The identifiers of a text -/

theorem symbolStart_cases (c : UInt8) (next : Option UInt8) :
    symbolStart c next ≠ .word ∧ (symbolStart c next = .quotedIdentifier → c = 34) := by
  unfold symbolStart
  split_ifs
  all_goals simp_all

theorem identStart_of_startOf {c : UInt8} {next : Option UInt8} (h : startOf c next = .word) :
    identStart c = true := by
  by_contra hc
  rw [startOf, if_neg hc] at h
  exact (symbolStart_cases c next).1 h

theorem eq_of_startOf {c : UInt8} {next : Option UInt8}
    (h : startOf c next = .quotedIdentifier) : c = 34 := by
  rw [startOf] at h
  split at h
  · unfold wordStart at h
    split_ifs at h
  · exact (symbolStart_cases c next).2 h

theorem closing_fst {token : List UInt8 → Token} {found : Option (List UInt8 × List UInt8)}
    {t : Token} (h : (closing token found).1 = some t) :
    (∃ body rest, found = some (body, rest) ∧ t = token body) ∨ t = .unterminated := by
  unfold closing at h
  split at h
  · exact Or.inl ⟨_, _, rfl, (Option.some.inj h).symm⟩
  · exact Or.inr (Option.some.inj h).symm

theorem closing_string_ne {opening name : List UInt8} {quoted : Bool}
    {found : Option (List UInt8 × List UInt8)} :
    (closing (.string opening) found).1 ≠ some (.identifier quoted name) := by
  intro h
  rcases closing_fst h with ⟨_, _, _, ht⟩ | ht
  · cases ht
  · cases ht

/-- Where an identifier comes from. -/
theorem scan_identifier {c : UInt8} {s name : List UInt8} {quoted : Bool}
    (h : (scan c s).1 = some (.identifier quoted name)) :
    (quoted = false ∧ identStart c = true ∧ name = foldName (c :: s.takeWhile identCont)) ∨
      (quoted = true ∧ c = 34 ∧
        ∃ body rest, quotedBody 34 s = some (body, rest) ∧ name = body.take 63) := by
  unfold scan at h
  cases hstart : startOf c s.head? with
  | word =>
    rw [hstart] at h
    obtain ⟨rfl, rfl⟩ := Token.identifier.inj (Option.some.inj h)
    exact Or.inl ⟨rfl, identStart_of_startOf hstart, rfl⟩
  | quotedIdentifier =>
    rw [hstart] at h
    rcases closing_fst h with ⟨body, rest, hbody, ht⟩ | ht
    · obtain ⟨rfl, rfl⟩ := Token.identifier.inj ht
      exact Or.inr ⟨rfl, eq_of_startOf hstart, body, rest, hbody, rfl⟩
    · cases ht
  | literal | escapedLiteral | bitString =>
    rw [hstart] at h
    exact absurd h closing_string_ne
  | dollar =>
    rw [hstart] at h
    dsimp only at h
    split at h
    · exact absurd h closing_string_ne
    · cases h
  | comment =>
    rw [hstart] at h
    dsimp only at h
    split at h <;> cases h
  | space | lineComment | number | semicolon | other =>
    rw [hstart] at h
    cases h

/-- **An unquoted identifier stands for a plain name.** -/
theorem isPlain_of_mem_tokens {s name : List UInt8} (h : .identifier false name ∈ tokens s) :
    IsPlain name := by
  obtain ⟨c, rest, -, hscan⟩ := exists_scan_of_mem_tokens s h
  rcases scan_identifier hscan with ⟨-, hc, rfl⟩ | ⟨hquoted, -⟩
  · exact isPlain_foldName hc fun _ => List.mem_takeWhile_imp
  · cases hquoted

/-- A quoted body has one quote for two of the text, and one more ends it. -/
theorem quotedBody_count {quote : UInt8} {s body rest : List UInt8}
    (h : quotedBody quote s = some (body, rest)) :
    2 * body.count quote + 1 + rest.count quote = s.count quote := by
  fun_induction quotedBody quote s generalizing body with
  | case1 => cases h
  | case2 =>
    cases h
    simp
  | case3 => cases h
  | case4 s ih =>
    obtain ⟨b, hb, rfl⟩ := prepend_eq_some.mp h
    simp only [List.count_append, List.count_cons_self, List.count_nil, ← ih hb]
    omega
  | case5 d s hd =>
    cases h
    simp [hd]
    omega
  | case6 c d s hc ih =>
    obtain ⟨b, hb, rfl⟩ := prepend_eq_some.mp h
    rw [List.count_cons_of_ne hc, ← ih hb]
    simp [hc]

/-- **A quoted identifier takes quotes**: those of its name twice, and two more. -/
theorem count_of_mem_tokens {s name : List UInt8} (h : .identifier true name ∈ tokens s) :
    2 * name.count 34 + 2 ≤ s.count 34 := by
  obtain ⟨c, rest, hsuffix, hscan⟩ := exists_scan_of_mem_tokens s h
  rcases scan_identifier hscan with ⟨hquoted, -⟩ | ⟨-, rfl, body, after, hbody, rfl⟩
  · cases hquoted
  · have hcount := quotedBody_count hbody
    have hle := hsuffix.sublist.count_le 34
    have htake := (List.take_sublist 63 body).count_le 34
    rw [List.count_cons_self] at hle
    omega

/-! ## Words -/

theorem startOf_word {c : UInt8} (hc : identStart c = true) {next : Option UInt8}
    (hnext : next ≠ some 39) : startOf c next = .word := by
  rw [startOf, if_pos hc, wordStart, if_neg hnext]

/-- A word: what can be an unquoted identifier. -/
structure IsWord (word : List UInt8) : Prop where
  start : ∃ c ∈ word.head?, identStart c = true
  chars : ∀ c ∈ word, identCont c = true

theorem IsPlain.isWord {name : List UInt8} (h : IsPlain name) : IsWord name :=
  ⟨h.start, fun c hc => (h.chars c hc).1⟩

/-- **A word in front of what cannot continue it** is the first token. -/
theorem tokens_identifier {word s : List UInt8} (h : IsWord word)
    (hs : ∀ c ∈ s.head?, identCont c = false ∧ c ≠ 39) :
    tokens (word ++ s) = .identifier false (foldName word) :: tokens s := by
  obtain ⟨start, chars⟩ := h
  cases word with
  | nil =>
    obtain ⟨c, hc, -⟩ := start
    cases hc
  | cons c word =>
    obtain ⟨_, hc, hstart⟩ := start
    obtain rfl := Option.some.inj hc
    rw [List.forall_mem_cons] at chars
    have hempty : s.takeWhile identCont = [] ∧ s.dropWhile identCont = s := by
      cases s with
      | nil => exact ⟨rfl, rfl⟩
      | cons d s =>
        have hd : ¬identCont d = true := by simp [(hs d rfl).1]
        exact ⟨List.takeWhile_cons_of_neg hd, List.dropWhile_cons_of_neg hd⟩
    have hnext : (word ++ s).head? ≠ some 39 := by
      cases word with
      | nil => exact fun h => (hs 39 h).2 rfl
      | cons d word =>
        intro h
        obtain rfl := Option.some.inj h
        exact absurd (chars.2 39 List.mem_cons_self) (by decide)
    rw [List.cons_append, tokens_cons, scan, startOf_word hstart hnext,
      List.takeWhile_append_of_pos chars.2, List.dropWhile_append_of_pos chars.2, hempty.1,
      hempty.2, List.append_nil]
    rfl

theorem tokens_space (s : List UInt8) : tokens (32 :: s) = tokens s := by
  rw [tokens_cons]
  rfl

/-- A word in front of a space is the first token. -/
theorem tokens_word {word : List UInt8} (h : IsWord word) (s : List UInt8) :
    tokens (word ++ 32 :: s) = .identifier false (foldName word) :: tokens s := by
  have hspace : ∀ c ∈ (32 :: s).head?, identCont c = false ∧ c ≠ 39 := by
    intro c hc
    obtain rfl := Option.some.inj hc
    decide
  rw [tokens_identifier h hspace, tokens_space]

/-- A plain name is one token. -/
theorem tokens_of_isPlain {name : List UInt8} (h : IsPlain name) :
    tokens name = [.identifier false name] := by
  have htokens := tokens_identifier h.isWord (s := []) nofun
  rwa [List.append_nil, foldName_of_isPlain h] at htokens

end WinterWind.Library
