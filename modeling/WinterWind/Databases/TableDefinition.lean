import WinterWind.Databases.PostgreSqlResult

/-!
# `show_create_table` (`src/core/databases/postgresqlclient.cpp`)

`PostgreSQLClient::show_create_table`, which reads the columns of a table with one prepared
`SELECT` and its indexes with another.

* `PQexecPrepared` is a parameter: what it answers to a statement and its two values. It takes them
  as C strings, and sends the answer in text form.
* A `TableCatalog` is what the server knows of the table. Index names are unique in a schema, and
  the second `SELECT` has no order, so the indexes are a map and its rows come in any order of it.
* A column without a default has a null one, which is read as the empty string.

Results:
* `addFields_eq`, `addIndexes_lookup`: each loop reads all the rows of its result.
* **`complete_iff`**: what is left is the definition of the table iff it was in place before the
  call but for the fields. A successful `SELECT` is `PGRES_TUPLES_OK`, and the test between the two
  queries returns for everything but `PGRES_COMMAND_OK`.
-/

namespace WinterWind.Databases

/-- `DatabaseTableField`. -/
structure DatabaseTableField where
  columnName : Bytes := []
  dataType : Bytes := []
  isNullable : Bool := false
  columnDefault : Bytes := []
  deriving Repr, DecidableEq

/-- `PostgreSQLTableDefinition`. -/
structure PostgreSQLTableDefinition where
  fields : List DatabaseTableField := []
  indexes : UnorderedMap Bytes Bytes := ∅

/-- `PQexecPrepared`: the result for a statement and its values. -/
abbrev PgServer := Bytes → List Bytes → PGresult

/-! ## The source functions -/

/-- The field of a row. -/
def readTableField (res : PGresult) (row : Nat) : DatabaseTableField where
  columnName := res.value row 0
  dataType := res.value row 1
  isNullable := res.value row 2 == ascii "YES"
  columnDefault := res.value row 3

/-- The loop over the rows of the columns. -/
def addFields (res : PGresult) (fields : List DatabaseTableField) : List DatabaseTableField :=
  (List.range res.rows.length).foldl (fun fields row => fields ++ [readTableField res row]) fields

/-- The loop over the rows of the indexes. -/
def addIndexes (res : PGresult) (indexes : UnorderedMap Bytes Bytes) : UnorderedMap Bytes Bytes :=
  (List.range res.rows.length).foldl
    (fun indexes row => indexes.insert (readFieldString res row 0) (readFieldString res row 1))
    indexes

/-- `PostgreSQLClient::exec_prepared`. -/
def execPrepared (server : PgServer) (stmtName : Bytes) (params : List Bytes) :
    Except PostgreSQLException PGresult :=
  postgreSQLResult (server stmtName (params.map cStr))

/-- `PostgreSQLClient::show_create_table`, and the definition it leaves. -/
def showCreateTable (server : PgServer) (schema table : Bytes)
    (definition : PostgreSQLTableDefinition) :
    Except PostgreSQLException ExecStatus × PostgreSQLTableDefinition :=
  match execPrepared server (ascii "show_create_table") [schema, table] with
  | .error e => (.error e, definition)
  | .ok result =>
    let definition := { definition with fields := addFields result definition.fields }
    if result.status ≠ .commandOk then (.ok result.status, definition)
    else
      match execPrepared server (ascii "show_create_table_indexes") [schema, table] with
      | .error e => (.error e, definition)
      | .ok result =>
        let definition := { definition with indexes := addIndexes result definition.indexes }
        if result.status ≠ .commandOk then (.ok result.status, definition)
        else (.ok .commandOk, definition)

/-! ## The catalog -/

/-- A column of a table. -/
structure Column where
  name : Bytes
  dataType : Bytes
  nullable : Bool
  default : Option Bytes
  deriving Repr, DecidableEq

/-- What the server knows of a table. -/
structure TableCatalog where
  columns : List Column
  indexes : UnorderedMap Bytes Bytes

/-- The row of a column. -/
def Column.row (column : Column) : List (Option Bytes) :=
  [some column.name, some column.dataType,
    some (if column.nullable then ascii "YES" else ascii "NO"), column.default]

/-- The field of a column. -/
def Column.field (column : Column) : DatabaseTableField where
  columnName := column.name
  dataType := column.dataType
  isNullable := column.nullable
  columnDefault := column.default.getD []

/-- The row of an index. -/
def indexRow (index : Σ _ : Bytes, Bytes) : List (Option Bytes) := [some index.1, some index.2]

/-- The definition of a table. -/
def TableCatalog.definition (catalog : TableCatalog) : PostgreSQLTableDefinition :=
  ⟨catalog.columns.map Column.field, catalog.indexes⟩

/-- The cells of a result as strings. -/
def PGresult.texts (res : PGresult) : List (List (Option Bytes)) :=
  res.rows.map fun row => row.map (Option.map Subtype.val)

/-- The answer to a `SELECT`: when it succeeds, the rows. -/
def Selects (answer : Except PostgreSQLException PGresult) (rows : List (List (Option Bytes))) :
    Prop :=
  ∀ res, answer = .ok res → res.status = .tuplesOk ∧ res.texts = rows

/-- The two prepared statements answer with the columns and the indexes of the table. -/
structure Describes (server : PgServer) (schema table : Bytes) (catalog : TableCatalog) :
    Prop where
  columns : Selects (execPrepared server (ascii "show_create_table") [schema, table])
    (catalog.columns.map Column.row)
  indexes : ∃ it : Iteration catalog.indexes,
    Selects (execPrepared server (ascii "show_create_table_indexes") [schema, table])
      (it.pairs.map indexRow)

/-! ## The loops -/

theorem value_eq (res : PGresult) (row col : Nat) :
    res.value row col = ((res.texts[row]?.bind (·[col]?)).join).getD [] := by
  unfold PGresult.value PGresult.cell PGresult.texts
  rw [List.getElem?_map]
  cases res.rows[row]? with
  | none => rfl
  | some cells =>
    simp only [Option.bind_some, Option.map_some, List.getElem?_map]
    rcases cells[col]? with _ | _ | text <;> rfl

/-- A loop over the rows goes over what they were made of. -/
theorem map_range_rows {α β : Type} {res : PGresult} {l : List α}
    {row : α → List (Option Bytes)} (h : res.texts = l.map row) {read : Nat → β} {f : α → β}
    (hread : ∀ i a, res.texts[i]? = some (row a) → read i = f a) :
    (List.range res.rows.length).map read = l.map f := by
  have hlength : res.rows.length = l.length := by
    rw [← List.length_map (f := row), ← h, PGresult.texts, List.length_map]
  refine List.ext_getElem (by simp [hlength]) fun i _ hi => ?_
  rw [List.length_map] at hi
  have htext : res.texts[i]? = some (row l[i]) := by
    rw [h, List.getElem?_map, List.getElem?_eq_getElem hi]
    rfl
  simp only [List.getElem_map, List.getElem_range]
  exact hread i _ htext

/-- **The fields** are those of the columns, after the ones that were there. -/
theorem addFields_eq {res : PGresult} {columns : List Column}
    (h : res.texts = columns.map Column.row) (fields : List DatabaseTableField) :
    addFields res fields = fields ++ columns.map Column.field := by
  have hread : ∀ i column, res.texts[i]? = some (Column.row column) →
      readTableField res i = column.field := by
    intro i column hrow
    unfold readTableField
    simp only [value_eq, hrow, Option.bind_some]
    obtain ⟨name, dataType, nullable, default⟩ := column
    cases nullable <;> rfl
  unfold addFields
  rw [List.foldl_append_eq_append, ← List.flatMap_def, ← List.map_eq_flatMap,
    map_range_rows h hread]

/-- **The indexes** are set to their definitions. -/
theorem addIndexes_lookup {res : PGresult} {indexes : UnorderedMap Bytes Bytes}
    (it : Iteration indexes) (h : res.texts = it.pairs.map indexRow)
    (before : UnorderedMap Bytes Bytes) (k : Bytes) :
    (addIndexes res before).lookup k = (indexes.lookup k).or (before.lookup k) := by
  have hread : ∀ (i : Nat) (index : Σ _ : Bytes, Bytes), res.texts[i]? = some (indexRow index) →
      (⟨readFieldString res i 0, readFieldString res i 1⟩ : Σ _ : Bytes, Bytes) = index := by
    intro i index hrow
    unfold readFieldString
    simp only [value_eq, hrow, Option.bind_some]
    rfl
  have hpairs := map_range_rows h hread
  rw [List.map_id'] at hpairs
  have hfold : addIndexes res before =
      it.pairs.foldl (fun indexes index => indexes.insert index.1 (id index.2)) before := by
    rw [← hpairs, List.foldl_map]
    rfl
  rw [hfold, lookup_foldl_insert id k it.pairs before it.nodupKeys, it.dlookup_pairs,
    Option.map_id, id]

/-! ## The definition -/

/-- The answer to the columns ends the call: it fails, or its status is not the one that the call
goes on with. -/
theorem showCreateTable_of_selects {server : PgServer} {schema table : Bytes}
    {columns : List Column} (h : Selects (execPrepared server (ascii "show_create_table")
      [schema, table]) (columns.map Column.row)) (definition : PostgreSQLTableDefinition) :
    (∃ e, execPrepared server (ascii "show_create_table") [schema, table] = .error e ∧
        showCreateTable server schema table definition = (.error e, definition)) ∨
      ∃ res, execPrepared server (ascii "show_create_table") [schema, table] = .ok res ∧
        showCreateTable server schema table definition = (.ok .tuplesOk,
          { definition with fields := definition.fields ++ columns.map Column.field }) := by
  have hanswer : (∃ e, execPrepared server (ascii "show_create_table") [schema, table] = .error e) ∨
      ∃ res, execPrepared server (ascii "show_create_table") [schema, table] = .ok res := by
    cases execPrepared server (ascii "show_create_table") [schema, table] with
    | error e => exact Or.inl ⟨e, rfl⟩
    | ok res => exact Or.inr ⟨res, rfl⟩
  rcases hanswer with ⟨e, he⟩ | ⟨res, hres⟩
  · refine Or.inl ⟨e, he, ?_⟩
    rw [showCreateTable, he]
  · obtain ⟨hstatus, htexts⟩ := h res hres
    refine Or.inr ⟨res, hres, ?_⟩
    rw [showCreateTable, hres]
    simp only [hstatus, ne_eq, reduceCtorEq, not_false_eq_true, if_true, addFields_eq htexts]

/-- The call leaves the definition of the table, unless it throws. -/
def Complete (server : PgServer) (schema table : Bytes) (catalog : TableCatalog)
    (definition : PostgreSQLTableDefinition) : Prop :=
  ∀ status, (showCreateTable server schema table definition).1 = .ok status →
    (showCreateTable server schema table definition).2 = catalog.definition

/-- The definition is without fields, and its indexes are those of the table already. -/
def Prepared (catalog : TableCatalog) (definition : PostgreSQLTableDefinition) : Prop :=
  definition.fields = [] ∧ definition.indexes = catalog.indexes

/-- **When the definition is whole.** With the two statements answered for the table, the call
leaves its definition or throws iff the columns cannot be read, or the indexes were there before. -/
theorem complete_iff {server : PgServer} {schema table : Bytes} {catalog : TableCatalog}
    (h : Describes server schema table catalog) (definition : PostgreSQLTableDefinition) :
    Complete server schema table catalog definition ↔
      (∃ e, execPrepared server (ascii "show_create_table") [schema, table] = .error e) ∨
        Prepared catalog definition := by
  unfold Complete
  rcases showCreateTable_of_selects h.columns definition with
    ⟨e, hanswer, hcall⟩ | ⟨res, hanswer, hcall⟩
  · rw [hcall]
    exact iff_of_true nofun (Or.inl ⟨e, hanswer⟩)
  · rw [hcall, hanswer]
    simp only [Except.ok.injEq, forall_eq', reduceCtorEq, exists_false, false_or, Prepared,
      TableCatalog.definition, PostgreSQLTableDefinition.mk.injEq, List.append_left_eq_self]

/-! ## A table with one column -/

/-- A server with an answer for each of the two statements. -/
def answering (columns indexes : PGresult) : PgServer := fun stmtName _ =>
  if stmtName = ascii "show_create_table" then columns else indexes

/-- The column `id integer NOT NULL`. -/
def idColumn : PGresult where
  status := .tuplesOk
  ftypes := [1043, 1043, 1043, 1043]
  rows := [[some ⟨ascii "id", by decide⟩, some ⟨ascii "integer", by decide⟩,
    some ⟨ascii "NO", by decide⟩, none]]

/-- No index. -/
def noIndex : PGresult where
  status := .tuplesOk
  ftypes := [19, 25]

/-- An index on the column, with its name and its definition. -/
def primaryKey : Σ _ : Bytes, Bytes :=
  ⟨ascii "t_pkey", ascii "CREATE UNIQUE INDEX t_pkey ON t USING btree (id)"⟩

/-- The answer with this index. -/
def idIndex : PGresult where
  status := .tuplesOk
  ftypes := [19, 25]
  rows := [[some ⟨primaryKey.1, by decide⟩, some ⟨primaryKey.2, by decide⟩]]

theorem selects_idColumn (indexes : PGresult) : Selects
    (execPrepared (answering idColumn indexes) (ascii "show_create_table") [ascii "s", ascii "t"])
    ([⟨ascii "id", ascii "integer", false, none⟩].map Column.row) := by
  rintro res ⟨⟩
  exact ⟨rfl, rfl⟩

theorem complete_iff_noIndex :
    Complete (answering idColumn noIndex) (ascii "s") (ascii "t")
      ⟨[⟨ascii "id", ascii "integer", false, none⟩], ∅⟩ {} :=
  (complete_iff
    { columns := selects_idColumn noIndex
      indexes := ⟨⟨[], rfl⟩, by rintro res ⟨⟩; exact ⟨rfl, rfl⟩⟩ } {}).mpr (Or.inr ⟨rfl, rfl⟩)

/-- The table with its index. -/
def idCatalog : TableCatalog where
  columns := [⟨ascii "id", ascii "integer", false, none⟩]
  indexes := Finmap.singleton primaryKey.1 primaryKey.2

/-- The index of the table is missing from a definition that was empty before. -/
theorem not_complete_idIndex :
    Describes (answering idColumn idIndex) (ascii "s") (ascii "t") idCatalog ∧
      ¬ Complete (answering idColumn idIndex) (ascii "s") (ascii "t") idCatalog {} := by
  have hindexes : Selects (execPrepared (answering idColumn idIndex)
      (ascii "show_create_table_indexes") [ascii "s", ascii "t"]) [indexRow primaryKey] := by
    rintro res ⟨⟩
    exact ⟨rfl, rfl⟩
  refine ⟨{ columns := selects_idColumn idIndex, indexes := ⟨⟨[primaryKey], rfl⟩, hindexes⟩ }, ?_⟩
  intro hcomplete
  have hempty : (∅ : UnorderedMap Bytes Bytes) = Finmap.singleton primaryKey.1 primaryKey.2 :=
    congrArg PostgreSQLTableDefinition.indexes (hcomplete .tuplesOk rfl)
  have hmem : primaryKey.1 ∈ (∅ : UnorderedMap Bytes Bytes) := by
    rw [hempty]
    exact (Finmap.mem_singleton _ _ _).mpr rfl
  exact Finmap.notMem_empty hmem

end WinterWind.Databases
