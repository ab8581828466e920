import WinterWind.Basic
import WinterWind.Library.Words

/-!
# Words of a string (`src/core/utils/stringutils.cpp`)

`count_words` and `split_string_to_words`, two loops over the same separators. Both start as after a
character that is no separator.

* `count_words` counts in an `uint32_t`, from 1, at every separator that does not follow another
  one.
* `split_string_to_words` pushes its buffer at such a separator, and at the end if the string does
  not end with one.

Results:
* `splitStringToWords_eq`: what comes before the first separator is pushed, even if that is nothing;
  the rest is split into its words.
* **`splitsIntoWords_iff`**: exactly the words are appended if the string begins with one.
* `length_splitStringToWords`, `countWords_eq`: how much is pushed, and what is counted.
* **`countsWords_iff`**: the two agree on the strings that do not end with a separator.
-/

namespace WinterWind.Utils

open Library

/-! ## The source functions -/

/-- `IF_WORD_SEPARATOR`: space, quote, LF, tab, `;`, CR, `!`, `?`, comma, `.`, `/` and `:`. -/
def isWordSeparator (c : UInt8) : Bool :=
  c == 32 || c == 39 || c == 10 || c == 9 || c == 59 || c == 13 || c == 33 || c == 63 || c == 44 ||
    c == 46 || c == 47 || c == 58

/-- The loop of `count_words`. -/
def countWordsLoop : Bytes → Bool → UInt32 → UInt32
  | [], _, wordCount => wordCount
  | c :: rest, prevWasWordSeparator, wordCount =>
    if isWordSeparator c then
      countWordsLoop rest true (if !prevWasWordSeparator then wordCount + 1 else wordCount)
    else countWordsLoop rest false wordCount

/-- `count_words`. -/
def countWords (str : Bytes) : UInt32 := countWordsLoop str false 1

/-- The loop of `split_string_to_words`, with what follows it. -/
def splitWordsLoop : Bytes → Bytes → Bool → List Bytes → List Bytes
  | [], buf, prevWasWordSeparator, res => if !prevWasWordSeparator then res ++ [buf] else res
  | c :: rest, buf, prevWasWordSeparator, res =>
    if isWordSeparator c then
      if !prevWasWordSeparator then splitWordsLoop rest [] true (res ++ [buf])
      else splitWordsLoop rest buf true res
    else splitWordsLoop rest (buf ++ [c]) false res

/-- `split_string_to_words`. -/
def splitStringToWords (str : Bytes) (res : List Bytes) : List Bytes :=
  splitWordsLoop str [] false res

/-! ## What is pushed -/

/-- A character of a word. -/
abbrev inWord (c : UInt8) : Bool := !isWordSeparator c

/-- After a separator the rest is split into its words; else the open one is pushed first. -/
theorem splitWordsLoop_spec (s : Bytes) :
    (∃ ws, IsWords isWordSeparator s ws ∧ ∀ res, splitWordsLoop s [] true res = res ++ ws) ∧
    ∃ ws, IsWords isWordSeparator (s.dropWhile inWord) ws ∧
      ∀ buf res, splitWordsLoop s buf false res = res ++ (buf ++ s.takeWhile inWord) :: ws := by
  induction s with
  | nil =>
    refine ⟨⟨[], .nil, fun res => ?_⟩, [], .nil, fun buf res => ?_⟩
    · rw [List.append_nil]
      rfl
    · rw [List.takeWhile_nil, List.append_nil]
      rfl
  | cons c s ih =>
    obtain ⟨⟨ws, hws, hafter⟩, vs, hvs, hopen⟩ := ih
    by_cases hc : isWordSeparator c = true
    · have hout : inWord c = false := by simp [inWord, hc]
      have hwords : IsWords isWordSeparator (c :: s) ws := .separator hc hws
      refine ⟨⟨ws, hwords, fun res => ?_⟩, ws, ?_, fun buf res => ?_⟩
      · rw [splitWordsLoop, if_pos hc]
        exact hafter res
      · rwa [List.dropWhile_cons_of_neg (by simp [hout])]
      · rw [splitWordsLoop, if_pos hc, List.takeWhile_cons_of_neg (by simp [hout]), List.append_nil]
        exact (hafter (res ++ [buf])).trans (List.append_assoc res [buf] ws)
    · have hin : inWord c = true := by simp [inWord, hc]
      have htake : (c :: s).takeWhile inWord = c :: s.takeWhile inWord :=
        List.takeWhile_cons_of_pos hin
      have hdrop : (c :: s).dropWhile inWord = s.dropWhile inWord := List.dropWhile_cons_of_pos hin
      refine ⟨⟨(c :: s.takeWhile inWord) :: vs, ?_, fun res => ?_⟩, vs, ?_, fun buf res => ?_⟩
      · rw [← htake]
        refine IsWords.word_takeWhile ?_ (hdrop ▸ hvs)
        rw [htake]
        exact List.cons_ne_nil c _
      · rw [splitWordsLoop, if_neg hc]
        exact hopen [c] res
      · rwa [hdrop]
      · rw [splitWordsLoop, if_neg hc, hopen, htake, List.append_assoc, List.singleton_append]

/-- **What is appended**: what comes before the first separator, and the words after it. -/
theorem splitStringToWords_eq (str : Bytes) :
    ∃ ws, IsWords isWordSeparator (str.dropWhile inWord) ws ∧
      ∀ res, splitStringToWords str res = res ++ str.takeWhile inWord :: ws := by
  obtain ⟨-, ws, hws, hopen⟩ := splitWordsLoop_spec str
  exact ⟨ws, hws, hopen []⟩

/-- `split_string_to_words` appends the words, and nothing else. -/
def SplitsIntoWords (str : Bytes) : Prop :=
  ∃ ws, IsWords isWordSeparator str ws ∧ ∀ res, splitStringToWords str res = res ++ ws

/-- **A string is split into its words exactly if it begins with one.** -/
theorem splitsIntoWords_iff (str : Bytes) :
    SplitsIntoWords str ↔ ∃ c, str.head? = some c ∧ isWordSeparator c = false := by
  obtain ⟨ws, hws, hsplit⟩ := splitStringToWords_eq str
  constructor
  · rintro ⟨vs, hvs, h⟩
    have hpushed : str.takeWhile inWord :: ws = vs := (hsplit []).symm.trans (h [])
    have hne : str.takeWhile inWord ≠ [] := by
      intro hnil
      exact hvs.ne_nil (hpushed ▸ hnil ▸ List.mem_cons_self)
    cases str with
    | nil => exact absurd List.takeWhile_nil hne
    | cons c rest =>
      refine ⟨c, rfl, ?_⟩
      by_contra hc
      exact hne (List.takeWhile_cons_of_neg (by simpa [inWord] using hc))
  · rintro ⟨c, hhead, hc⟩
    refine ⟨_, IsWords.word_takeWhile ?_ hws, hsplit⟩
    cases str with
    | nil => cases hhead
    | cons b rest =>
      obtain rfl := Option.some.inj hhead
      rw [List.takeWhile_cons_of_pos (by simp [hc])]
      exact List.cons_ne_nil b _

/-- An empty word is pushed for a separator at the start. -/
theorem not_splitsIntoWords_space : ¬SplitsIntoWords (ascii " word") := by
  rintro ⟨ws, hws, h⟩
  have hpushed : ws = [[], ascii "word"] := (h []).symm
  exact hws.ne_nil (hpushed ▸ List.mem_cons_self)

/-! ## What is counted -/

/-- The separators that do not follow another one. -/
def breaks (prevWasWordSeparator : Bool) : Bytes → Nat
  | [] => 0
  | c :: rest =>
    if isWordSeparator c then (if prevWasWordSeparator then 0 else 1) + breaks true rest
    else breaks false rest

/-- The flag after the loop. -/
def endsInSeparator (prevWasWordSeparator : Bool) (s : Bytes) : Bool :=
  (s.getLast?.map isWordSeparator).getD prevWasWordSeparator

theorem endsInSeparator_cons (prev : Bool) (c : UInt8) (s : Bytes) :
    endsInSeparator prev (c :: s) = endsInSeparator (isWordSeparator c) s := by
  unfold endsInSeparator
  cases s with
  | nil => rfl
  | cons b s =>
    rw [List.getLast?_cons_cons, List.getLast?_eq_some_getLast (List.cons_ne_nil b s)]
    rfl

theorem length_splitWordsLoop (s : Bytes) : ∀ (buf : Bytes) (prev : Bool) (res : List Bytes),
    (splitWordsLoop s buf prev res).length =
      res.length + breaks prev s + if endsInSeparator prev s then 0 else 1 := by
  induction s with
  | nil =>
    intro buf prev res
    cases prev with
    | false => exact List.length_append
    | true => rfl
  | cons c s ih =>
    intro buf prev res
    rw [endsInSeparator_cons, splitWordsLoop, breaks]
    by_cases hc : isWordSeparator c = true
    · rw [if_pos hc, if_pos hc, hc]
      cases prev with
      | false =>
        have hpush := ih [] true (res ++ [buf])
        rw [List.length_append, List.length_singleton] at hpush
        simp only [Bool.not_false, if_true, Bool.false_eq_true, if_false, hpush]
        omega
      | true =>
        simp only [Bool.not_true, Bool.false_eq_true, if_false, if_true, ih buf true res]
        omega
    · rw [if_neg hc, if_neg hc, Bool.eq_false_iff.mpr hc, ih]

/-- How much is pushed. -/
theorem length_splitStringToWords (str : Bytes) (res : List Bytes) :
    (splitStringToWords str res).length =
      res.length + (breaks false str + if endsInSeparator false str then 0 else 1) := by
  rw [splitStringToWords, length_splitWordsLoop, Nat.add_assoc]

theorem countWordsLoop_eq (s : Bytes) : ∀ (prev : Bool) (wordCount : UInt32),
    countWordsLoop s prev wordCount = wordCount + UInt32.ofNat (breaks prev s) := by
  induction s with
  | nil => exact fun _ wordCount => (UInt32.add_zero wordCount).symm
  | cons c s ih =>
    intro prev wordCount
    rw [countWordsLoop, breaks]
    by_cases hc : isWordSeparator c = true
    · rw [if_pos hc, if_pos hc, ih]
      cases prev with
      | false =>
        rw [UInt32.ofNat_add, ← UInt32.add_assoc]
        rfl
      | true =>
        rw [if_pos rfl, Nat.zero_add]
        rfl
    · rw [if_neg hc, if_neg hc, ih]

/-- What is counted. -/
theorem countWords_eq (str : Bytes) :
    (countWords str).toNat = (1 + breaks false str) % 2 ^ 32 := by
  rw [countWords, countWordsLoop_eq, show (1 : UInt32) = UInt32.ofNat 1 from rfl,
    ← UInt32.ofNat_add, UInt32.toNat_ofNat']

/-- `count_words` is the number of elements that `split_string_to_words` appends. -/
def CountsWords (str : Bytes) : Prop :=
  ∀ res, (splitStringToWords str res).length = res.length + (countWords str).toNat

/-- **The two agree**, below `2^32`, exactly on the strings that do not end with a separator. -/
theorem countsWords_iff {str : Bytes} (hcount : (splitStringToWords str []).length < 2 ^ 32) :
    CountsWords str ↔ ∀ c, str.getLast? = some c → isWordSeparator c = false := by
  have hends : endsInSeparator false str = false ↔
      ∀ c, str.getLast? = some c → isWordSeparator c = false := by
    unfold endsInSeparator
    cases str.getLast? <;> simp
  have hagree : CountsWords str ↔
      breaks false str + (if endsInSeparator false str then 0 else 1) =
        (1 + breaks false str) % 2 ^ 32 := by
    simp only [CountsWords, length_splitStringToWords, countWords_eq, Nat.add_left_cancel_iff,
      forall_const]
  rw [length_splitStringToWords, List.length_nil, Nat.zero_add] at hcount
  rw [hagree, ← hends]
  cases hlast : endsInSeparator false str with
  | false =>
    rw [hlast, if_neg Bool.false_ne_true] at hcount
    rw [if_neg Bool.false_ne_true, Nat.add_comm 1, Nat.mod_eq_of_lt hcount]
    exact iff_of_true rfl rfl
  | true =>
    rw [hlast, if_pos rfl, Nat.add_zero] at hcount
    rw [if_pos rfl, Nat.add_zero]
    exact iff_of_false (by omega) Bool.noConfusion

theorem countsWords_iff_rose : CountsWords (ascii "Red is rose") ↔
    ∀ c, (ascii "Red is rose").getLast? = some c → isWordSeparator c = false :=
  countsWords_iff (by decide)

/-- A separator at the end is counted as one more word. -/
theorem not_countsWords_period : (splitStringToWords (ascii "word.") []).length < 2 ^ 32 ∧
    ¬CountsWords (ascii "word.") :=
  ⟨by decide, fun h => absurd (h []) (by decide)⟩

end WinterWind.Utils
