import WinterWind.Extras.BulkQueue
import WinterWind.Library.Lines
import WinterWind.Utils.JsonTree

/-!
# The body of a bulk request (`src/extras/elasticsearchclient.cpp`)

The text that `ElasticsearchBulkAction::toJson` appends for a list of actions, read as
newline-delimited JSON: a metadata line for each action, and after it the line of its document.

* `FastWriter` and the reader are the parameter `json`. What is relied on, for the values written
  (`WritesLine`): one line each, which is read back as `readBack v`. That is `v` except for the kind
  of its numbers, which the text does not show (`ReadsBack`).
* A document is recovered as it is read back, and that of a deletion, which is not written, is not.

Results:
* `readLines_texts`: the lines of the body are the values written.
* `decodeActions_of_body`: what has the format can be decoded.
* **`bulkBody_iff`**: a body has the format, and gives the actions back, iff every action names an
  index, a type or an id.
-/

namespace WinterWind.Extras

open Library

namespace ElasticsearchBulkAction

/-! ## The format -/

/-- A string of the metadata, if it is not empty. -/
def nonEmpty (s : Bytes) : Option Value := if s.isEmpty then none else some (.string s)

/-- What the metadata must hold under a key. -/
def field (a : ElasticsearchBulkAction) (key : Bytes) : Option Value :=
  if key = ascii "_index" then nonEmpty a.index
  else if key = ascii "_type" then nonEmpty a.type
  else if key = ascii "_id" then nonEmpty a.docId
  else none

/-- The metadata of an action: an object with its kind as the single member, an object that holds
exactly the non-empty strings. -/
def HasMetadata (a : ElasticsearchBulkAction) (v : Value) : Prop :=
  ∃ fields, v = .object [(a.action.str, .object fields)] ∧
    ∀ key, findMember key fields = a.field key

/-- The values after the metadata, with the document as `view` shows it. -/
def sources (view : Value → Value) (a : ElasticsearchBulkAction) : List Value :=
  match a.action with
  | .create => [view a.doc]
  | .index => [view a.doc]
  | .update => [.object [(ascii "doc", view a.doc)]]
  | .delete => []

/-- The action names an index, a type or an id. -/
def Named (a : ElasticsearchBulkAction) : Prop := a.index ≠ [] ∨ a.type ≠ [] ∨ a.docId ≠ []

/-- What can be recovered of an action. -/
def recovered (readBack : Value → Value) (a : ElasticsearchBulkAction) : ElasticsearchBulkAction :=
  { a with doc := match a.action with
      | .delete => .null
      | _ => readBack a.doc }

end ElasticsearchBulkAction

open ElasticsearchBulkAction

/-- The values of a body, action by action. -/
inductive HasFormat (readBack : Value → Value) : List ElasticsearchBulkAction → List Value → Prop
  | nil : HasFormat readBack [] []
  | cons {a : ElasticsearchBulkAction} {m : Value} {actions : List ElasticsearchBulkAction}
      {vs : List Value} (hmetadata : a.HasMetadata m) (hrest : HasFormat readBack actions vs) :
      HasFormat readBack (a :: actions) (m :: (a.sources readBack ++ vs))

/-! ## Reading a body -/

/-- The value of a line. -/
def readLine (json : JsonLib) (line : Bytes) : Option Value :=
  match json.parse (line ++ [10]) .null with
  | (true, v) => some v
  | (false, _) => none

/-- The values of a text in which every line is JSON. -/
def readLines (json : JsonLib) (body : Bytes) : Option (List Value) :=
  match splitLines 10 body with
  | (lines, []) => lines.mapM (readLine json)
  | (_, _ :: _) => none

/-- The kind a metadata line names. -/
def actionType (name : Bytes) : Option ElasticsearchBulkActionType :=
  [.create, .delete, .index, .update].find? fun t => t.str = name

/-- A string of the metadata, the empty one if it is missing. -/
def fieldText (key : Bytes) (fields : List (Bytes × Value)) : Bytes :=
  ((findMember key fields).bind Value.string?).getD []

/-- The action of a metadata line, without its document. -/
def decodeMetadata : Value → Option ElasticsearchBulkAction
  | .object [(name, .object fields)] => (actionType name).map fun t =>
    { action := t
      index := fieldText (ascii "_index") fields
      type := fieldText (ascii "_type") fields
      docId := fieldText (ascii "_id") fields }
  | _ => none

/-- The document that follows the metadata of an action, and the values after it. -/
def decodeSource (t : ElasticsearchBulkActionType) (vs : List Value) :
    Option (Value × List Value) :=
  match t, vs with
  | .delete, vs => some (.null, vs)
  | .update, .object [(_, doc)] :: vs => some (doc, vs)
  | .update, _ => none
  | .create, doc :: vs => some (doc, vs)
  | .index, doc :: vs => some (doc, vs)
  | _, [] => none

/-- The actions of the values of a body, at most `n` of them. -/
def decodeActions : Nat → List Value → Option (List ElasticsearchBulkAction)
  | _, [] => some []
  | 0, _ :: _ => none
  | n + 1, m :: vs => do
    let a ← decodeMetadata m
    let (doc, vs) ← decodeSource a.action vs
    return { a with doc := doc } :: (← decodeActions n vs)

/-- The actions of a body. -/
def decodeBody (json : JsonLib) (body : Bytes) : Option (List ElasticsearchBulkAction) :=
  (readLines json body).bind fun vs => decodeActions vs.length vs

/-- The body of a list of actions has the format, and the actions can be recovered from it. -/
structure BulkBody (json : JsonLib) (readBack : Value → Value)
    (actions : List ElasticsearchBulkAction) : Prop where
  wellFormed : ∃ vs, readLines json (texts json actions) = some vs ∧ HasFormat readBack actions vs
  decodable : decodeBody json (texts json actions) = some (actions.map (recovered readBack))

/-! ## What is relied on -/

/-- What is relied on for a value that is written. -/
structure WritesLine (json : JsonLib) (readBack : Value → Value) (v : Value) : Prop where
  line : ∃ line, 10 ∉ line ∧ json.write v = line ++ [10]
  read : json.parse (json.write v) .null = (true, readBack v)

/-- What is read back is the value, up to its numbers. -/
structure ReadsBack (readBack : Value → Value) : Prop where
  null : readBack .null = .null
  string : ∀ s, readBack (.string s) = .string s
  object : ∀ ms, readBack (.object ms) = .object (ms.map (Prod.map id readBack))

/-- The values written for a list of actions. -/
def written (actions : List ElasticsearchBulkAction) : List Value :=
  actions.flatMap fun a => a.metadata :: a.sources id

/-! ## The metadata -/

namespace ElasticsearchBulkAction

variable {a : ElasticsearchBulkAction} {readBack : Value → Value}

theorem findMember_setField {key k s : Bytes} {ms : List (Bytes × Value)}
    (h : findMember key ms = none) :
    findMember k (setField key s ms) = if k = key then nonEmpty s else findMember k ms := by
  unfold setField nonEmpty
  by_cases hs : s.isEmpty = true
  · rw [if_pos hs, if_pos hs]
    split
    · rename_i hk
      rw [hk, h]
    · rfl
  · rw [if_neg hs, if_neg hs, find_insertMember]

theorem setField_eq_nil_iff {key s : Bytes} {ms : List (Bytes × Value)} :
    setField key s ms = [] ↔ s = [] ∧ ms = [] := by
  unfold setField
  split
  · rename_i hs
    exact (and_iff_right (List.isEmpty_iff.mp hs)).symm
  · rename_i hs
    rw [insertMember_eq]
    exact iff_of_false (insertEntry_ne_nil key _ ms) fun h => hs (List.isEmpty_iff.mpr h.1)

/-- The members that `toJson` assigns. -/
def fields (a : ElasticsearchBulkAction) : List (Bytes × Value) :=
  setField (ascii "_id") a.docId
    (setField (ascii "_type") a.type (setField (ascii "_index") a.index []))

theorem metadata_eq : a.metadata =
    .object [(a.action.str, if a.fields.isEmpty then .null else .object a.fields)] := rfl

theorem findMember_fields (key : Bytes) : findMember key a.fields = a.field key := by
  have hindex (k : Bytes) : findMember k (setField (ascii "_index") a.index []) =
      if k = ascii "_index" then nonEmpty a.index else none := findMember_setField rfl
  have htype (k : Bytes) :
      findMember k (setField (ascii "_type") a.type (setField (ascii "_index") a.index [])) =
        if k = ascii "_type" then nonEmpty a.type
        else if k = ascii "_index" then nonEmpty a.index else none := by
    rw [findMember_setField, hindex]
    rw [hindex, if_neg (by decide)]
  have hid : findMember key a.fields =
      if key = ascii "_id" then nonEmpty a.docId
      else if key = ascii "_type" then nonEmpty a.type
      else if key = ascii "_index" then nonEmpty a.index else none := by
    rw [fields, findMember_setField, htype]
    rw [htype, if_neg (by decide), if_neg (by decide)]
  rw [hid, field]
  by_cases h : key = ascii "_index"
  · subst h
    rw [if_neg (by decide), if_neg (by decide), if_pos rfl, if_pos rfl]
  · rw [if_neg h, if_neg h]
    by_cases h' : key = ascii "_type"
    · subst h'
      rw [if_neg (by decide)]
      rfl
    · rw [if_neg h', if_neg h']

theorem fields_eq_nil_iff : a.fields = [] ↔ ¬a.Named := by
  unfold fields Named
  rw [setField_eq_nil_iff, setField_eq_nil_iff, setField_eq_nil_iff]
  tauto

/-- **What `toJson` writes is the metadata** of the actions that name something. -/
theorem hasMetadata_metadata_iff : a.HasMetadata a.metadata ↔ a.Named := by
  rw [metadata_eq]
  constructor
  · rintro ⟨fields, h, -⟩
    by_contra hn
    rw [fields_eq_nil_iff.mpr hn] at h
    simp at h
  · intro hn
    have hne : a.fields.isEmpty = false :=
      Bool.eq_false_iff.mpr fun h => fields_eq_nil_iff.mp (List.isEmpty_iff.mp h) hn
    refine ⟨a.fields, ?_, findMember_fields⟩
    rw [hne]
    rfl

/-! ## Decoding -/

theorem actionType_str (t : ElasticsearchBulkActionType) : actionType t.str = some t := by
  cases t <;> rfl

theorem string_nonEmpty (s : Bytes) : ((nonEmpty s).bind Value.string?).getD [] = s := by
  unfold nonEmpty
  split
  · rename_i h
    exact (List.isEmpty_iff.mp h).symm
  · rfl

theorem decodeMetadata_of_hasMetadata {m : Value} (h : a.HasMetadata m) :
    decodeMetadata m = some { a with doc := .null } := by
  obtain ⟨fields, rfl, hfields⟩ := h
  have hindex : a.field (ascii "_index") = nonEmpty a.index := rfl
  have htype : a.field (ascii "_type") = nonEmpty a.type := rfl
  have hid : a.field (ascii "_id") = nonEmpty a.docId := rfl
  simp only [decodeMetadata, actionType_str, Option.map_some, fieldText, hfields, hindex, htype,
    hid, string_nonEmpty]

theorem decodeSource_sources (vs : List Value) :
    decodeSource a.action (a.sources readBack ++ vs) = some ((a.recovered readBack).doc, vs) := by
  obtain ⟨action, index, type, docId, doc⟩ := a
  cases action <;> rfl

end ElasticsearchBulkAction

variable {json : JsonLib} {readBack : Value → Value} {actions : List ElasticsearchBulkAction}
  {vs : List Value}

theorem length_le_of_hasFormat (h : HasFormat readBack actions vs) :
    actions.length ≤ vs.length := by
  induction h with
  | nil => exact le_rfl
  | cons _ _ ih =>
    rw [List.length_cons, List.length_cons, List.length_append]
    omega

/-- **What has the format can be decoded.** -/
theorem decodeActions_of_hasFormat (h : HasFormat readBack actions vs) :
    ∀ n, actions.length ≤ n →
      decodeActions n vs = some (actions.map (recovered readBack)) := by
  induction h with
  | nil =>
    intro n _
    cases n <;> rfl
  | @cons a m actions vs hmetadata hrest ih =>
    intro n hn
    obtain ⟨n, rfl⟩ := Nat.exists_eq_add_one.mpr (Nat.zero_lt_of_lt hn)
    simp only [decodeActions, decodeMetadata_of_hasMetadata hmetadata, decodeSource_sources,
      ih n (Nat.le_of_succ_le_succ hn), bind, Option.bind, pure, List.map_cons]
    rfl

/-! ## The body -/

theorem text_eq (json : JsonLib) (a : ElasticsearchBulkAction) :
    a.text json = (a.metadata :: a.sources id).flatMap json.write := by
  obtain ⟨action, index, type, docId, doc⟩ := a
  cases action <;> simp [text, sources]

theorem texts_eq (json : JsonLib) (actions : List ElasticsearchBulkAction) :
    texts json actions = (written actions).flatMap json.write := by
  rw [texts, written, List.flatMap_assoc]
  exact congrArg (List.flatMap · actions) (funext fun a => text_eq json a)

/-- Values that are written on one line each are read back. -/
theorem exists_lines (h : ∀ v ∈ vs, WritesLine json readBack v) :
    ∃ lines, vs.flatMap json.write = unlines 10 lines ∧ (∀ line ∈ lines, 10 ∉ line) ∧
      lines.mapM (readLine json) = some (vs.map readBack) := by
  induction vs with
  | nil => exact ⟨[], rfl, nofun, rfl⟩
  | cons v vs ih =>
    obtain ⟨hv, hvs⟩ := List.forall_mem_cons.mp h
    obtain ⟨lines, htext, hnl, hread⟩ := ih hvs
    obtain ⟨line, hline, hwrite⟩ := hv.line
    have hone : readLine json line = some (readBack v) := by
      have := hv.read
      rw [hwrite] at this
      rw [readLine, this]
    refine ⟨line :: lines, ?_, List.forall_mem_cons.mpr ⟨hline, hnl⟩, ?_⟩
    · rw [List.flatMap_cons, htext, hwrite]
      simp [unlines]
    · rw [List.mapM_cons, hone, hread]
      rfl

theorem readLines_texts (h : ∀ v ∈ written actions, WritesLine json readBack v) :
    readLines json (texts json actions) = some ((written actions).map readBack) := by
  obtain ⟨lines, htext, hnl, hread⟩ := exists_lines h
  rw [readLines, texts_eq, htext, splitLines_unlines hnl]
  exact hread

theorem map_setField (hback : ReadsBack readBack) (key s : Bytes) (ms : List (Bytes × Value)) :
    (setField key s ms).map (Prod.map id readBack) =
      setField key s (ms.map (Prod.map id readBack)) := by
  unfold setField
  split
  · rfl
  · have hinsert := insertEntry_map id readBack (fun _ _ => Iff.rfl) (fun _ _ => Iff.rfl) key
      (.string s) ms
    rw [hback.string] at hinsert
    rw [insertMember_eq, insertMember_eq]
    exact hinsert.symm

theorem readBack_metadata (hback : ReadsBack readBack) (a : ElasticsearchBulkAction) :
    readBack a.metadata = a.metadata := by
  have hfields : a.fields.map (Prod.map id readBack) = a.fields := by
    unfold fields
    rw [map_setField hback, map_setField hback, map_setField hback, List.map_nil]
  have hmember : readBack (if a.fields.isEmpty then .null else .object a.fields) =
      if a.fields.isEmpty then .null else .object a.fields := by
    split
    · exact hback.null
    · rw [hback.object, hfields]
  rw [metadata_eq, hback.object]
  exact congrArg (fun v => Value.object [(a.action.str, v)]) hmember

/-- What is read back: the metadata, and the documents as they are read back. -/
theorem map_written (hback : ReadsBack readBack) : (written actions).map readBack =
    actions.flatMap fun a => a.metadata :: a.sources readBack := by
  have hsources (a : ElasticsearchBulkAction) :
      (a.sources id).map readBack = a.sources readBack := by
    obtain ⟨action, index, type, docId, doc⟩ := a
    cases action with
    | update => exact congrArg (· :: []) (hback.object _)
    | _ => rfl
  rw [written, List.map_flatMap]
  refine congrArg (List.flatMap · actions) (funext fun a => ?_)
  rw [List.map_cons, readBack_metadata hback, hsources]

/-- The values written have the format iff every action names something. -/
theorem hasFormat_written_iff :
    HasFormat readBack actions (actions.flatMap fun a => a.metadata :: a.sources readBack) ↔
      ∀ a ∈ actions, a.Named := by
  induction actions with
  | nil => exact iff_of_true .nil nofun
  | cons a actions ih =>
    rw [List.forall_mem_cons, ← ih, List.flatMap_cons, List.cons_append]
    constructor
    · intro h
      generalize hvs : a.metadata :: (a.sources readBack ++
        actions.flatMap fun a => a.metadata :: a.sources readBack) = vs at h
      cases h with
      | cons hmetadata hrest =>
        obtain ⟨rfl, htail⟩ := List.cons.inj hvs
        obtain rfl := List.append_cancel_left htail
        exact ⟨hasMetadata_metadata_iff.mp hmetadata, hrest⟩
    · rintro ⟨hn, hrest⟩
      exact .cons (hasMetadata_metadata_iff.mpr hn) hrest

/-- **When a body has the format and gives its actions back**: when every action names an index, a
type or an id. The metadata of another action is null instead of an object. -/
theorem bulkBody_iff (json : JsonLib) (readBack : Value → Value)
    (actions : List ElasticsearchBulkAction)
    (hwrite : ∀ v ∈ written actions, WritesLine json readBack v) (hback : ReadsBack readBack) :
    BulkBody json readBack actions ↔ ∀ a ∈ actions, a.Named := by
  have hlines := readLines_texts hwrite
  rw [map_written hback] at hlines
  have hnamed : HasFormat readBack actions _ ↔ _ := hasFormat_written_iff
  rw [← hnamed]
  constructor
  · rintro ⟨⟨vs, hvs, hformat⟩, -⟩
    obtain rfl := Option.some.inj (hlines.symm.trans hvs)
    exact hformat
  · intro hformat
    refine ⟨⟨_, hlines, hformat⟩, ?_⟩
    rw [decodeBody, hlines]
    exact decodeActions_of_hasFormat hformat _ (length_le_of_hasFormat hformat)

/-- An update that names everything, and a deletion that names its index. -/
def updateAndDelete : List ElasticsearchBulkAction :=
  [{ action := .update, index := ascii "i", type := ascii "t", docId := ascii "1",
     doc := .boolean true },
    { action := .delete, index := ascii "i" }]

def updateLine : Bytes :=
  ascii "\x7b\"update\":\x7b\"_id\":\"1\",\"_index\":\"i\",\"_type\":\"t\"\x7d\x7d"

def docLine : Bytes := ascii "\x7b\"doc\":true\x7d"

def deleteLine : Bytes := ascii "\x7b\"delete\":\x7b\"_index\":\"i\"\x7d\x7d"

/-- What the reader and the writer make of the values in the body of `updateAndDelete`. -/
def updateAndDeleteJson : JsonLib where
  write
    | .object [(_, .boolean _)] => docLine ++ [10]
    | .object [(_, .object [_])] => deleteLine ++ [10]
    | _ => updateLine ++ [10]
  parse text root :=
    if text = docLine ++ [10] then (true, .object [(ascii "doc", .boolean true)])
    else if text = deleteLine ++ [10] then
      (true, .object [(ascii "delete", .object [(ascii "_index", .string (ascii "i"))])])
    else if text = updateLine ++ [10] then
      (true, .object [(ascii "update", .object
        [(ascii "_id", .string (ascii "1")), (ascii "_index", .string (ascii "i")),
          (ascii "_type", .string (ascii "t"))])])
    else (false, root)

theorem bulkBody_iff_updateAndDelete :
    BulkBody updateAndDeleteJson id updateAndDelete ↔ ∀ a ∈ updateAndDelete, a.Named := by
  refine bulkBody_iff updateAndDeleteJson id updateAndDelete ?_ ⟨rfl, fun _ => rfl, ?_⟩
  · refine List.forall_mem_cons.mpr ⟨⟨⟨updateLine, by decide, rfl⟩, rfl⟩, ?_⟩
    refine List.forall_mem_cons.mpr ⟨⟨⟨docLine, by decide, rfl⟩, rfl⟩, ?_⟩
    exact List.forall_mem_singleton.mpr ⟨⟨deleteLine, by decide, rfl⟩, rfl⟩
  · intro ms
    rw [Prod.map_id, List.map_id]
    rfl

/-- What the reader and the writer make of `{"create":null}` and `null`. -/
def nullJson : JsonLib where
  write
    | .null => ascii "null" ++ [10]
    | _ => ascii "\x7b\"create\":null\x7d" ++ [10]
  parse text root :=
    if text = ascii "null" ++ [10] then (true, .null)
    else if text = ascii "\x7b\"create\":null\x7d" ++ [10] then
      (true, .object [(ascii "create", .null)])
    else (false, root)

/-- A creation that leaves the choice of everything to the URL. -/
theorem not_bulkBody_unnamed :
    (∀ v ∈ written [{ action := .create }], WritesLine nullJson id v) ∧
      ¬BulkBody nullJson id [{ action := .create }] := by
  have hwrite : ∀ v ∈ written [{ action := .create }], WritesLine nullJson id v := by
    refine List.forall_mem_cons.mpr
      ⟨⟨⟨ascii "\x7b\"create\":null\x7d", by decide, rfl⟩, rfl⟩, ?_⟩
    exact List.forall_mem_singleton.mpr ⟨⟨ascii "null", by decide, rfl⟩, rfl⟩
  refine ⟨hwrite, ?_⟩
  rintro ⟨⟨vs, hvs, hformat⟩, -⟩
  obtain rfl := Option.some.inj ((readLines_texts hwrite).symm.trans hvs)
  rcases hformat with _ | ⟨hmetadata, -⟩
  rcases hasMetadata_metadata_iff.mp hmetadata with h | h | h <;> exact h rfl

end WinterWind.Extras
