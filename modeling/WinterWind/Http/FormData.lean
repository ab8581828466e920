import WinterWind.Http.HttpServer

/-!
# Form bodies (`Server::parse_post_data`)

`ParsesForm` is the law of a form parser: a body is accepted iff it is empty or a `&`-separated
list of fields `key=value`, and then each key is mapped to the text after the `=` of its last field.

`str_split` drops an empty last piece, so the parser takes more than that: a `&` at the end of the
body, and a `=` at the end of a field, which is lost. `LooseField` and `looseFields` are what it
takes.

Results:
* `isSome_parsePostData`: the bodies that are accepted.
* `readsLooseForm_iff`, `readsForm_iff`: the map that is read off a body, by either grammar.
* **`parsesForm_iff`**: the law holds of a body iff it is refused or has neither of the two.
-/

namespace WinterWind.Http

/-! ## Fields -/

/-- `key=value`. -/
structure IsField (s key value : Bytes) : Prop where
  text : s = key ++ ascii "=" ++ value
  key_ne : key ≠ []
  value_ne : value ≠ []
  key_free : 61 ∉ key
  value_free : 61 ∉ value

/-- The grammar of a form body. -/
def IsForm (data : Bytes) : Prop :=
  data = [] ∨ ∀ s ∈ data.splitOn 38, ∃ key value, IsField s key value

/-- The text before the first `=` and the text after it. -/
def fieldPair (s : Bytes) : Option (Bytes × Bytes) :=
  if 61 ∈ s then some (s.takeWhile (· ≠ 61), (s.dropWhile (· ≠ 61)).tail) else none

/-- The text of the last field named `key`. -/
def lastText (data key : Bytes) : Option Bytes :=
  ((((data.splitOn 38).filterMap fieldPair).filter fun a => a.1 = key).map Prod.snd).getLast?

/-- The law of a form parser, for one body and whatever the map holds before. -/
structure ParsesForm (data : Bytes) : Prop where
  accepts : ∀ postData, (parsePostData data postData).isSome ↔ IsForm data
  stores : ∀ postData postData', parsePostData data postData = some postData' →
    ∀ key, postData'.lookup key = (lastText data key).or (postData.lookup key)

/-- What is taken for a field: a `=` may follow the value. -/
def LooseField (s : Bytes) : Prop :=
  ∃ key value, IsField s key value ∨ ∃ t, s = t ++ ascii "=" ∧ IsField t key value

/-- What is taken for the fields of a body: a `&` may follow the last one. -/
def looseFields (data : Bytes) : List Bytes := dropEmptyLast (data.splitOn 38)

theorem IsField.splitOn {s key value : Bytes} (h : IsField s key value) :
    s.splitOn 61 = [key, value] := by
  have htext : s = key ++ 61 :: value := by
    rw [h.text]
    simp [ascii]
  rw [htext, List.splitOn_append_cons_self_of_not_mem h.key_free,
    List.splitOn_eq_singleton h.value_free]

theorem IsField.fieldPair_eq {s key value : Bytes} (h : IsField s key value) :
    fieldPair s = some (key, value) := by
  have htext : s = key ++ 61 :: value := by
    rw [h.text]
    simp [ascii]
  have hkey : ∀ c ∈ key, decide (c ≠ 61) = true := fun c hc =>
    decide_eq_true fun e => h.key_free (e ▸ hc)
  unfold fieldPair
  rw [htext, if_pos (by simp), List.takeWhile_append_of_pos hkey, List.dropWhile_append_of_pos hkey]
  simp

theorem IsField.getLast?_ne {s key value : Bytes} (h : IsField s key value) :
    s.getLast? ≠ some 61 := by
  rw [h.text, List.getLast?_append_of_ne_nil _ h.value_ne]
  exact fun e => h.value_free (List.mem_of_getLast? e)

/-- What is taken for the field `key=value`. -/
def IsLooseField (s key value : Bytes) : Prop :=
  IsField s key value ∨ ∃ t, s = t ++ ascii "=" ∧ IsField t key value

/-- **The pieces between `=`** are a key and a value exactly for what is taken for a field. -/
theorem isLooseField_iff {s key value : Bytes} : IsLooseField s key value ↔
    strSplit s 61 [] = [key, value] ∧ key ≠ [] ∧ value ≠ [] := by
  constructor
  · rintro (h | ⟨t, rfl, h⟩)
    · refine ⟨?_, h.key_ne, h.value_ne⟩
      rw [strSplit_eq, h.splitOn]
      simp [dropEmptyLast, h.value_ne]
    · refine ⟨?_, h.key_ne, h.value_ne⟩
      have htext : t ++ ascii "=" = key ++ 61 :: (value ++ 61 :: []) := by
        rw [h.text]
        simp [ascii]
      rw [strSplit_eq, htext, List.splitOn_append_cons_self_of_not_mem h.key_free,
        List.splitOn_append_cons_self_of_not_mem h.value_free, List.splitOn_nil]
      simp [dropEmptyLast]
  · rintro ⟨hsplit, hkey, hvalue⟩
    have hkfree : 61 ∉ key := not_mem_of_mem_strSplit (hsplit ▸ List.mem_cons_self)
    have hvfree : 61 ∉ value :=
      not_mem_of_mem_strSplit (hsplit ▸ List.mem_cons_of_mem _ List.mem_cons_self)
    have hs : [61].intercalate (s.splitOn 61) = s := List.intercalate_splitOn 61
    rw [strSplit_eq, List.nil_append, dropEmptyLast] at hsplit
    split at hsplit
    · rename_i hlast
      right
      obtain ⟨l, hl⟩ := List.getLast?_eq_some_iff.mp hlast
      rw [hl, List.dropLast_concat] at hsplit
      rw [hl, hsplit] at hs
      refine ⟨key ++ ascii "=" ++ value, ?_, rfl, hkey, hvalue, hkfree, hvfree⟩
      rw [← hs]
      simp [List.intercalate, ascii]
    · left
      rw [hsplit] at hs
      refine ⟨?_, hkey, hvalue, hkfree, hvfree⟩
      rw [← hs]
      simp [List.intercalate, ascii]

theorem looseField_iff {s : Bytes} : LooseField s ↔
    ∃ key value, strSplit s 61 [] = [key, value] ∧ key ≠ [] ∧ value ≠ [] :=
  exists_congr fun _ => exists_congr fun _ => isLooseField_iff

/-! ## Bodies -/

/-- **What the pieces are parsed to**: each is taken for a field, which is assigned. -/
theorem parsePieces_eq_some : ∀ (ps : List Bytes) (m m' : UnorderedMap Bytes Bytes),
    parsePieces ps m = some m' ↔
      ∃ pairs : List (Bytes × Bytes), List.Forall₂ (fun s a => IsLooseField s a.1 a.2) ps pairs ∧
        pairs.foldl (fun m a => m.insert a.1 a.2) m = m'
  | [], m, m' => by simp [parsePieces]
  | s :: ps, m, m' => by
    simp only [List.forall₂_cons_left_iff, isLooseField_iff]
    rw [parsePieces]
    by_cases hs : s = []
    · subst hs
      simp [strSplit, getlines]
    · rw [if_neg (by simpa using hs)]
      split
      · rename_i key value hsplit
        by_cases hkv : key = [] ∨ value = []
        · rw [if_pos (by simpa using hkv)]
          simp only [reduceCtorEq, false_iff]
          rintro ⟨-, ⟨⟨k, v⟩, rest, ⟨e, hk, hv⟩, -, rfl⟩, -⟩
          obtain ⟨rfl, rfl⟩ : key = k ∧ value = v := by simpa using hsplit.symm.trans e
          exact absurd hkv (not_or.mpr ⟨hk, hv⟩)
        · rw [if_neg (by simpa using hkv), parsePieces_eq_some ps]
          rw [not_or] at hkv
          simp only [isLooseField_iff]
          constructor
          · rintro ⟨pairs, hps, rfl⟩
            exact ⟨(key, value) :: pairs, ⟨(key, value), pairs, ⟨hsplit, hkv⟩, hps, rfl⟩, rfl⟩
          · rintro ⟨-, ⟨⟨k, v⟩, pairs, ⟨e, -, -⟩, hps, rfl⟩, rfl⟩
            obtain ⟨rfl, rfl⟩ : key = k ∧ value = v := by simpa using hsplit.symm.trans e
            exact ⟨pairs, hps, rfl⟩
      · rename_i hsplit
        simp only [reduceCtorEq, false_iff]
        rintro ⟨-, ⟨a, rest, ⟨e, -, -⟩, -, -⟩, -⟩
        exact hsplit _ _ e

theorem exists_of_forall₂ {α β : Type} {R : α → β → Prop} {as : List α} {bs : List β}
    (h : List.Forall₂ R as bs) {a : α} (ha : a ∈ as) : ∃ b, R a b := by
  obtain ⟨i, hi, rfl⟩ := List.getElem_of_mem ha
  exact ⟨_, h.get hi (h.length_eq ▸ hi)⟩

theorem isSome_parsePieces (ps : List Bytes) (postData : UnorderedMap Bytes Bytes) :
    (parsePieces ps postData).isSome ↔ ∀ s ∈ ps, LooseField s := by
  rw [Option.isSome_iff_exists]
  constructor
  · rintro ⟨postData', h⟩ s hs
    obtain ⟨pairs, hfields, -⟩ := (parsePieces_eq_some ps postData postData').mp h
    obtain ⟨⟨key, value⟩, hfield⟩ := exists_of_forall₂ hfields hs
    exact ⟨key, value, hfield⟩
  · intro h
    choose! key value hfield using h
    refine ⟨_, (parsePieces_eq_some ps postData _).mpr
      ⟨ps.map fun s => (key s, value s), ?_, rfl⟩⟩
    exact List.forall₂_map_right_iff.mpr (List.forall₂_same.mpr hfield)

/-- **The bodies that are accepted.** -/
theorem isSome_parsePostData (data : Bytes) (postData : UnorderedMap Bytes Bytes) :
    (parsePostData data postData).isSome ↔ ∀ s ∈ looseFields data, LooseField s := by
  rw [parsePostData, isSome_parsePieces, strSplit_eq, List.nil_append, looseFields]

/-- What is stored of fields without a `=` too many. -/
theorem parsePieces_eq (ps : List Bytes) (postData : UnorderedMap Bytes Bytes)
    (h : ∀ s ∈ ps, ∃ key value, IsField s key value) :
    parsePieces ps postData =
      some ((ps.filterMap fieldPair).foldl (fun m a => m.insert a.1 a.2) postData) := by
  choose! key value hfield using h
  have hpairs : ps.filterMap fieldPair = ps.map fun s => (key s, value s) := by
    rw [← List.filterMap_eq_map']
    exact List.filterMap_congr fun s hs => (hfield s hs).fieldPair_eq
  refine (parsePieces_eq_some ps postData _).mpr ⟨ps.filterMap fieldPair, ?_, rfl⟩
  rw [hpairs]
  exact List.forall₂_map_right_iff.mpr (List.forall₂_same.mpr fun s hs => Or.inl (hfield s hs))

theorem not_isField_nil (key value : Bytes) : ¬IsField [] key value := by
  intro h
  simpa [ascii] using h.text

theorem looseFields_eq {data : Bytes} (hne : data ≠ []) (hlast : data.getLast? ≠ some 38) :
    looseFields data = data.splitOn 38 := by
  have h : (data.splitOn 38).getLast? ≠ some [] := by
    rw [ne_eq, getLast?_splitOn, not_or]
    exact ⟨hne, hlast⟩
  rw [looseFields, dropEmptyLast, if_neg h]

/-- **Where the two grammars differ**: a form is a body that is accepted and has neither a `&` at
its end nor a `=` at the end of a field. -/
theorem isForm_iff {data : Bytes} : IsForm data ↔
    (∀ s ∈ looseFields data, LooseField s) ∧ data.getLast? ≠ some 38 ∧
      ∀ s ∈ data.splitOn 38, s.getLast? ≠ some 61 := by
  by_cases hne : data = []
  · subst hne
    simp [IsForm, looseFields, dropEmptyLast]
  constructor
  · intro h
    have hfields := h.resolve_left hne
    have hlast : data.getLast? ≠ some 38 := fun hlast => by
      have hnil := List.mem_of_getLast? ((getLast?_splitOn data 38).mpr (Or.inr hlast))
      obtain ⟨key, value, hs⟩ := hfields [] hnil
      exact not_isField_nil key value hs
    refine ⟨?_, hlast, fun s hs => ?_⟩
    · rw [looseFields_eq hne hlast]
      intro s hs
      obtain ⟨key, value, hf⟩ := hfields s hs
      exact ⟨key, value, Or.inl hf⟩
    · obtain ⟨key, value, hf⟩ := hfields s hs
      exact hf.getLast?_ne
  · rintro ⟨hloose, hlast, hfree⟩
    rw [looseFields_eq hne hlast] at hloose
    refine Or.inr fun s hs => ?_
    obtain ⟨key, value, hf | ⟨t, rfl, -⟩⟩ := hloose s hs
    · exact ⟨key, value, hf⟩
    · exact absurd (by simp [ascii]) (hfree _ hs)

/-- A form is stored field by field. -/
theorem stores_of_isForm {data : Bytes} (h : IsForm data)
    {postData postData' : UnorderedMap Bytes Bytes}
    (hp : parsePostData data postData = some postData') (key : Bytes) :
    postData'.lookup key = (lastText data key).or (postData.lookup key) := by
  have hparse : parsePostData data postData =
      some (((data.splitOn 38).filterMap fieldPair).foldl (fun m a => m.insert a.1 a.2)
        postData) := by
    by_cases hne : data = []
    · subst hne
      rfl
    · have hfields := h.resolve_left hne
      rw [parsePostData, strSplit_eq, List.nil_append]
      have hloose := looseFields_eq hne (isForm_iff.mp h).2.1
      unfold looseFields at hloose
      rw [hloose, parsePieces_eq _ _ hfields]
  rw [hparse] at hp
  obtain rfl := Option.some.inj hp
  exact lookup_foldl_last key postData _

/-! ## What a body is read as -/

/-- A map read off a list of fields: each key has the value of its last field. -/
def ReadsFields (isField : Bytes → Bytes → Bytes → Prop) (fields : List Bytes)
    (postData : UnorderedMap Bytes Bytes) : Prop :=
  ∃ pairs : List (Bytes × Bytes), List.Forall₂ (fun s a => isField s a.1 a.2) fields pairs ∧
    ∀ key, postData.lookup key = ((pairs.filter fun a => a.1 = key).map Prod.snd).getLast?

/-- The fields of a body. -/
def formFields (data : Bytes) : List Bytes := if data = [] then [] else data.splitOn 38

/-- A form body and the map of its fields. -/
def ReadsForm (data : Bytes) : UnorderedMap Bytes Bytes → Prop :=
  ReadsFields IsField (formFields data)

/-- The same for all that is taken for a form body. -/
def ReadsLooseForm (data : Bytes) : UnorderedMap Bytes Bytes → Prop :=
  ReadsFields IsLooseField (looseFields data)

/-- **What a body is parsed to** is what is read off it. -/
theorem readsLooseForm_iff {data : Bytes} {postData : UnorderedMap Bytes Bytes} :
    ReadsLooseForm data postData ↔ parsePostData data ∅ = some postData := by
  rw [parsePostData, parsePieces_eq_some, strSplit_eq, List.nil_append, ReadsLooseForm,
    ReadsFields, looseFields]
  refine exists_congr fun pairs => and_congr_right fun _ => ?_
  constructor
  · intro h
    refine Finmap.ext_lookup fun key => ?_
    rw [h key, lookup_foldl_last, Finmap.lookup_empty, Option.or_none]
  · rintro rfl key
    rw [lookup_foldl_last, Finmap.lookup_empty, Option.or_none]

theorem formFields_eq {data : Bytes} (hlast : data.getLast? ≠ some 38) :
    formFields data = looseFields data := by
  unfold formFields
  split
  · rename_i h
    subst h
    simp [looseFields, dropEmptyLast]
  · rename_i h
    exact (looseFields_eq h hlast).symm

theorem mem_splitOn_of_formFields {data s : Bytes} (h : s ∈ formFields data) :
    s ∈ data.splitOn 38 := by
  unfold formFields at h
  split at h
  · exact absurd h List.not_mem_nil
  · exact h

theorem ReadsForm.isForm {data : Bytes} {postData : UnorderedMap Bytes Bytes}
    (h : ReadsForm data postData) : IsForm data := by
  obtain ⟨pairs, hfields, -⟩ := h
  by_cases hne : data = []
  · exact Or.inl hne
  · rw [formFields, if_neg hne] at hfields
    refine Or.inr fun s hs => ?_
    obtain ⟨⟨key, value⟩, hfield⟩ := exists_of_forall₂ hfields hs
    exact ⟨key, value, hfield⟩

/-- **What is read off a form** is what is read off it with the looser grammar, where nothing at
its end or at the end of a field is lost. -/
theorem readsForm_iff {data : Bytes} {postData : UnorderedMap Bytes Bytes} :
    ReadsForm data postData ↔ ReadsLooseForm data postData ∧ data.getLast? ≠ some 38 ∧
      ∀ s ∈ data.splitOn 38, s.getLast? ≠ some 61 := by
  constructor
  · intro h
    have hends := (isForm_iff.mp h.isForm).2
    refine ⟨?_, hends⟩
    obtain ⟨pairs, hfields, hlookup⟩ := h
    rw [formFields_eq hends.1] at hfields
    exact ⟨pairs, hfields.imp fun _ _ => Or.inl, hlookup⟩
  · rintro ⟨⟨pairs, hfields, hlookup⟩, hlast, hfree⟩
    refine ⟨pairs, ?_, hlookup⟩
    rw [← formFields_eq hlast] at hfields
    obtain ⟨hlength, hget⟩ := List.forall₂_iff_get.mp hfields
    refine List.forall₂_iff_get.mpr ⟨hlength, fun i hi hi' => ?_⟩
    obtain hfield | ⟨t, ht, -⟩ := hget i hi hi'
    · exact hfield
    · have hmem := mem_splitOn_of_formFields (List.get_mem (formFields data) ⟨i, hi⟩)
      rw [ht] at hmem
      exact absurd (by simp [ascii]) (hfree _ hmem)

/-- **When a body is parsed as a form**: it has a field that is refused, or neither a `&` at its
end nor a `=` at the end of a field. -/
theorem parsesForm_iff (data : Bytes) :
    ParsesForm data ↔ (∃ s ∈ looseFields data, ¬LooseField s) ∨
      data.getLast? ≠ some 38 ∧ ∀ s ∈ data.splitOn 38, s.getLast? ≠ some 61 := by
  constructor
  · intro h
    by_cases hloose : ∀ s ∈ looseFields data, LooseField s
    · have hform := (h.accepts ∅).mp ((isSome_parsePostData data ∅).mpr hloose)
      exact Or.inr (isForm_iff.mp hform).2
    · push Not at hloose
      exact Or.inl hloose
  · intro h
    have haccepts (postData : UnorderedMap Bytes Bytes) :
        (parsePostData data postData).isSome ↔ IsForm data := by
      rw [isSome_parsePostData, isForm_iff]
      refine ⟨fun hloose => ⟨hloose, h.resolve_left ?_⟩, And.left⟩
      rintro ⟨s, hs, hnot⟩
      exact hnot (hloose s hs)
    refine ⟨haccepts, fun postData postData' hp key => stores_of_isForm ?_ hp key⟩
    rw [← haccepts postData, hp]
    rfl

/-- The body `a=b=` is accepted, and `a` is mapped to `b`. -/
theorem not_parsesForm_equals : ¬ParsesForm (ascii "a=b=") := by
  intro h
  have hsome : (parsePostData (ascii "a=b=") ∅).isSome := by decide
  have hform := (h.accepts ∅).mp hsome
  exact (isForm_iff.mp hform).2.2 (ascii "a=b=") (by decide) (by decide)

end WinterWind.Http
