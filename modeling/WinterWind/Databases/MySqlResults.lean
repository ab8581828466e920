import WinterWind.Databases.MySqlClient
import WinterWind.Databases.PostgreSqlResult

/-!
# MySQL results (`src/core/databases/mysqlclient.cpp`)

`MySQLResult`, the loop `MYSQL_ROWLOOP`, and the three calls that read a result: `list_tables`,
`get_table_definition` and `explain`.

* The statement leaves its result with the connection. `mysql_use_result` takes it, and a second
  call yields null without an error. `exec` returns a `MySQLResult` that has taken it, and each of
  the three calls discards that one, with its rows, before it constructs its own.
* `mysql_num_fields` reads through its argument, and `explain` through what `mysql_fetch_field`
  returns: null there is undefined behaviour. `mysql_fetch_field` walks the fields of a result
  once, whatever row is current.
* The result set of a statement is a parameter. A cell is null or a string, which is read up to its
  first NUL.

Results:
* `listLoop_some`, `definitionLoop_some`: the loops read every cell of the result they are given.
* `explainLoop_some`: the loop of `explain` has its fields for the first row only.
* **`not_returnsRows`**: none of the calls returns the rows of its query, for it has no result.
-/

namespace WinterWind.Databases

/-- `MYSQL_ROW`: the cells, null or not. -/
abbrev Row := List (Option Bytes)

/-- A result set, or the `MYSQL_RES` that was taken of it: the names of the fields and the rows. -/
structure ResultSet where
  fields : List Bytes
  rows : List Row
  width : ∀ row ∈ rows, row.length = fields.length

/-- `MySQLExplainEntry`. -/
structure MySQLExplainEntry where
  id : UInt16 := 0
  selectType : Bytes := []
  table : Bytes := []
  type : Bytes := []
  possibleKeys : Bytes := []
  key : Bytes := []
  keyLen : UInt32 := 0
  ref : Bytes := []
  rows : UInt64 := 0
  extra : Bytes := []
  deriving Repr, DecidableEq

/-! ## The library -/

/-- `mysql_use_result`: the result that is taken, and what is left to take. -/
def mysqlUseResult (pending : Option ResultSet) : Option ResultSet × Option ResultSet :=
  (pending, none)

/-- `mysql_num_fields`. -/
def mysqlNumFields : Option ResultSet → Except Thrown Nat
  | none => .error .undefinedBehaviour
  | some res => .ok res.fields.length

/-! ## The source functions -/

/-- `row[i]`. -/
def cellAt (row : Row) (i : Nat) : Option Bytes := row[i]?.join

/-- `row[i] ? row[i] : "NULL"`. -/
def cellText (cell : Option Bytes) : Bytes := cell.elim (ascii "NULL") cStr

/-- `row[i] ? atoi(row[i]) : 0`. -/
def cellInt (cell : Option Bytes) : Int32 := cell.elim 0 fun text => atoi (cStr text)

/-- `MYSQL_ROWLOOP`. -/
def rowLoop {σ : Type} (res : Option ResultSet) (body : Nat → Row → σ → Except Thrown σ) (s : σ) :
    Except Thrown σ := do
  let numFields ← mysqlNumFields res
  ((res.map ResultSet.rows).getD []).foldlM (fun s row => body numFields row s) s

/-- The loop of `list_tables`. -/
def listLoop (res : Option ResultSet) (result : List Bytes) : Except Thrown (List Bytes) :=
  rowLoop res (fun numFields row result => .ok
    ((List.range numFields).foldl (fun result i => result ++ [cellText (cellAt row i)]) result))
    result

/-- The loop of `get_table_definition`. -/
def definitionLoop (res : Option ResultSet) (text : Bytes) : Except Thrown Bytes :=
  rowLoop res (fun numFields row text => .ok
    ((List.range numFields).foldl (fun _ i => cellText (cellAt row i)) text))
    text

/-- What `explain` does with the cell of a field. -/
def setColumn (name : Bytes) (cell : Option Bytes) (entry : MySQLExplainEntry) :
    MySQLExplainEntry :=
  let name := cStr name
  if name = ascii "id" then { entry with id := (cellInt cell).toUInt32.toUInt16 }
  else if name = ascii "select_type" then { entry with selectType := cellText cell }
  else if name = ascii "table" then { entry with table := cellText cell }
  else if name = ascii "type" then { entry with type := cellText cell }
  else if name = ascii "possible_keys" then { entry with possibleKeys := cellText cell }
  else if name = ascii "key" then { entry with key := cellText cell }
  else if name = ascii "key_len" then { entry with keyLen := (cellInt cell).toUInt32 }
  else if name = ascii "ref" then { entry with ref := cellText cell }
  else if name = ascii "rows" then { entry with rows := (cellInt cell).toInt64.toUInt64 }
  else if name = ascii "Extra" then { entry with extra := cellText cell }
  else entry

/-- A turn of the inner loop of `explain`, which fetches the next of the remaining fields. -/
def explainCell (row : Row) (s : MySQLExplainEntry × List Bytes) (i : Nat) :
    Except Thrown (MySQLExplainEntry × List Bytes) :=
  match s with
  | (_, []) => .error .undefinedBehaviour
  | (entry, field :: remaining) => .ok (setColumn field (cellAt row i) entry, remaining)

/-- A turn of the outer loop of `explain`. -/
def explainRow (numFields : Nat) (row : Row) (s : List MySQLExplainEntry × List Bytes) :
    Except Thrown (List MySQLExplainEntry × List Bytes) := do
  let (entry, remaining) ← (List.range numFields).foldlM (explainCell row) ({}, s.2)
  return (s.1 ++ [entry], remaining)

/-- The loop of `explain`. -/
def explainLoop (res : Option ResultSet) (entries : List MySQLExplainEntry) :
    Except Thrown (List MySQLExplainEntry) := do
  let (entries, _) ← rowLoop res explainRow (entries, (res.map ResultSet.fields).getD [])
  return entries

/-- A call of `exec` whose result is discarded, the construction of a `MySQLResult` and the loop
over it. -/
def readResult {α : Type} (server : Bytes → Option ResultSet) (query : Bytes)
    (loop : Option ResultSet → Except Thrown α) (answers : Answers) (s : State) :
    Except Thrown α × State :=
  match exec query answers s with
  | (.error e, s) => (.error e, s)
  | (.ok _, s) =>
    let (_temporary, pending) := mysqlUseResult (server query)
    let (mysqlRes, _) := mysqlUseResult pending
    (loop mysqlRes, s)

/-- `MySQLClient::list_tables`. -/
def listTables (server : Bytes → Option ResultSet) (result : List Bytes) (answers : Answers)
    (s : State) : Except Thrown (List Bytes) × State :=
  readResult server (ascii "SHOW TABLES") (listLoop · result) answers s

/-- `MySQLClient::get_table_definition`. -/
def getTableDefinition (server : Bytes → Option ResultSet) (table res : Bytes) (answers : Answers)
    (s : State) : Except Thrown (Bool × Bytes) × State :=
  if table.isEmpty then (.ok (false, res), s)
  else
    readResult server (ascii "SHOW CREATE TABLE " ++ table)
      (fun mysqlRes => do return (true, ← definitionLoop mysqlRes res)) answers s

/-- `MySQLClient::explain`. -/
def explain (server : Bytes → Option ResultSet) (q : Bytes) (res : List MySQLExplainEntry)
    (answers : Answers) (s : State) : Except Thrown (Bool × List MySQLExplainEntry) × State :=
  if q.isEmpty then (.ok (false, res), s)
  else
    readResult server (ascii "EXPLAIN " ++ q)
      (fun mysqlRes => do return (true, ← explainLoop mysqlRes res)) answers s

/-! ## The loops over a result -/

/-- A loop over the indices of a row goes over its cells. -/
theorem map_range_cellAt {β : Type} (row : Row) (f : Option Bytes → β) :
    (List.range row.length).map (fun i => f (cellAt row i)) = row.map f := by
  refine List.ext_getElem (by simp) fun i _ hi => ?_
  rw [List.length_map] at hi
  simp [cellAt, List.getElem?_eq_getElem hi]

/-- A loop whose body returns goes over all the rows. -/
theorem rowLoop_pure {σ : Type} (res : ResultSet) (body : Nat → Row → σ → σ) (s : σ) :
    rowLoop (some res) (fun numFields row s => .ok (body numFields row s)) s =
      .ok (res.rows.foldl (fun s row => body row.length row s) s) := by
  have hfold : res.rows.foldl (fun s row => body res.fields.length row s) s =
      res.rows.foldl (fun s row => body row.length row s) s := by
    refine List.foldl_ext _ _ _ fun s row hrow => ?_
    rw [res.width row hrow]
  rw [← hfold]
  exact List.foldlM_pure

/-- Every cell of the result is appended, in the order of the rows. -/
theorem listLoop_some (res : ResultSet) (result : List Bytes) :
    listLoop (some res) result = .ok (result ++ res.rows.flatten.map cellText) := by
  unfold listLoop
  rw [rowLoop_pure]
  simp only [List.foldl_append_eq_append, ← List.flatMap_def, ← List.map_eq_flatMap,
    map_range_cellAt, List.map_flatten]

/-- The text becomes that of the last cell of the last row, where there is one. -/
theorem definitionLoop_some (res : ResultSet) (text : Bytes) : definitionLoop (some res) text =
    .ok ((res.rows.flatten.map cellText).getLastD text) := by
  have hlast : ∀ (texts : List Bytes) (text : Bytes),
      texts.foldl (fun _ cell => cell) text = texts.getLastD text := by
    intro texts text
    induction texts generalizing text with
    | nil => rfl
    | cons a rest ih => rw [List.foldl_cons, ih, List.getLastD_cons]
  have hrow : ∀ (row : Row) (text : Bytes),
      (List.range row.length).foldl (fun _ i => cellText (cellAt row i)) text =
        (row.map cellText).foldl (fun _ cell => cell) text := by
    intro row text
    rw [← map_range_cellAt, List.foldl_map]
  unfold definitionLoop
  rw [rowLoop_pure, ← hlast, List.map_flatten, List.foldl_flatten, List.foldl_map]
  simp only [hrow]

/-- The entry of a row. -/
def entryOf (fields : List Bytes) (row : Row) : MySQLExplainEntry :=
  (fields.zip row).foldl (fun entry cell => setColumn cell.1 cell.2 entry) {}

/-- With all its fields to fetch, a row is copied to its entry, and no field remains. -/
theorem explainCell_foldlM {fields : List Bytes} {row : Row} (h : row.length = fields.length)
    {n : Nat} (hn : n ≤ fields.length) :
    (List.range n).foldlM (explainCell row) ({}, fields) =
      .ok (((fields.zip row).take n).foldl (fun entry cell => setColumn cell.1 cell.2 entry) {},
        fields.drop n) := by
  induction n with
  | zero => rfl
  | succ n ih =>
    have hzip : (fields.zip row)[n]? = some (fields[n], row[n]) := by
      rw [List.getElem?_eq_getElem (by simp; omega), List.getElem_zip]
    have hcell : ∀ entry, explainCell row (entry, fields[n] :: fields.drop (n + 1)) n =
        .ok (setColumn fields[n] row[n] entry, fields.drop (n + 1)) := by
      intro entry
      rw [explainCell, cellAt, List.getElem?_eq_getElem (by omega)]
      rfl
    rw [List.range_succ, List.foldlM_append, ih (by omega), List.take_add_one, hzip,
      List.foldl_append, List.drop_eq_getElem_cons (by omega)]
    simp only [bind, Except.bind, List.foldlM_cons, hcell]
    rfl

/-- Without fields to fetch, a row with cells ends in undefined behaviour. -/
theorem explainCell_nil (row : Row) (entry : MySQLExplainEntry) (n : Nat) :
    (List.range (n + 1)).foldlM (explainCell row) (entry, []) = .error .undefinedBehaviour := by
  rw [List.range_succ_eq_map]
  rfl

/-- The first row becomes an entry, and no field remains. -/
theorem explainRow_fields {fields : List Bytes} {row : Row} (h : row.length = fields.length)
    (entries : List MySQLExplainEntry) : explainRow fields.length row (entries, fields) =
      .ok (entries ++ [entryOf fields row], []) := by
  unfold explainRow
  simp only [explainCell_foldlM h le_rfl, bind, Except.bind, List.drop_length, entryOf]
  rw [List.take_of_length_le (by simp)]
  rfl

/-- A later row has no field to fetch. -/
theorem explainRow_nil (numFields : Nat) (row : Row) (entries : List MySQLExplainEntry) :
    explainRow (numFields + 1) row (entries, []) = .error .undefinedBehaviour := by
  unfold explainRow
  rw [explainCell_nil]
  rfl

/-- Rows without cells need no field. -/
theorem explainRow_foldlM_zero {rows : List Row} (h : ∀ row ∈ rows, row.length = 0)
    (entries : List MySQLExplainEntry) :
    rows.foldlM (fun s row => explainRow 0 row s) (entries, []) =
      .ok (entries ++ rows.map (entryOf []), []) := by
  induction rows generalizing entries with
  | nil => simp [pure, Except.pure]
  | cons row rows ih =>
    rw [List.forall_mem_cons] at h
    have hrow : explainRow 0 row (entries, []) = .ok (entries ++ [entryOf [] row], []) :=
      explainRow_fields h.1 entries
    rw [List.foldlM_cons, hrow]
    simp only [bind, Except.bind, ih h.2, List.map_cons, List.append_assoc, List.singleton_append]

/-- **The rows of `explain`** become entries when there is one at most, or no field at all. The
second row of a result ends in undefined behaviour. -/
theorem explainLoop_some (res : ResultSet) (entries : List MySQLExplainEntry) :
    explainLoop (some res) entries =
      if res.rows.length ≤ 1 ∨ res.fields = [] then
        .ok (entries ++ res.rows.map (entryOf res.fields))
      else .error .undefinedBehaviour := by
  obtain ⟨fields, rows, width⟩ := res
  unfold explainLoop rowLoop mysqlNumFields
  simp only [bind, Except.bind, Option.map_some, Option.getD_some]
  match rows, width with
  | [], _ => simp [pure, Except.pure]
  | [row], width =>
    have hrow := explainRow_fields (width row List.mem_cons_self) entries
    simp [List.foldlM_cons, bind, Except.bind, hrow, pure, Except.pure]
  | row :: second :: rest, width =>
    cases fields with
    | nil => simp [explainRow_foldlM_zero width entries, pure, Except.pure]
    | cons field fields =>
      have hrow := explainRow_fields (width row List.mem_cons_self) entries
      rw [List.length_cons] at hrow
      simp only [List.foldlM_cons, bind, Except.bind, hrow, List.length_cons, explainRow_nil]
      rw [if_neg (by simp)]

/-! ## The calls -/

/-- A call that reads the result of a query, with what its caller passes. -/
inductive Listing where
  | listTables (result : List Bytes)
  | getTableDefinition (table res : Bytes)
  | explain (q : Bytes) (res : List MySQLExplainEntry)

/-- What a call returns. -/
inductive Listed where
  | tables (result : List Bytes)
  | definition (found : Bool) (res : Bytes)
  | entries (found : Bool) (res : List MySQLExplainEntry)

namespace Listing

/-- The call. -/
def call (server : Bytes → Option ResultSet) (answers : Answers) (s : State) :
    Listing → Except Thrown Listed × State
  | listTables result =>
    let (returned, s) := Databases.listTables server result answers s
    (returned.map .tables, s)
  | getTableDefinition table res =>
    let (returned, s) := Databases.getTableDefinition server table res answers s
    (returned.map fun out => .definition out.1 out.2, s)
  | explain q res =>
    let (returned, s) := Databases.explain server q res answers s
    (returned.map fun out => .entries out.1 out.2, s)

/-- The query of the call, unless it returns without one. -/
def query : Listing → Option Bytes
  | listTables _ => some (ascii "SHOW TABLES")
  | getTableDefinition table _ =>
    if table.isEmpty then none else some (ascii "SHOW CREATE TABLE " ++ table)
  | explain q _ => if q.isEmpty then none else some (ascii "EXPLAIN " ++ q)

/-- What the call is to return for the rows of its query. -/
def rows (res : ResultSet) : Listing → Listed
  | listTables result => .tables (result ++ res.rows.flatten.map cellText)
  | getTableDefinition _ text => .definition true ((res.rows.flatten.map cellText).getLastD text)
  | explain _ entries => .entries true (entries ++ res.rows.map (entryOf res.fields))

/-- The server executes the query of the call and produces a result set. -/
structure Produces (listing : Listing) (server : Bytes → Option ResultSet) (answers : Answers)
    (s : State) (res : ResultSet) : Prop where
  query : ∃ query, listing.query = some query ∧ (exec query answers s).1 = .ok () ∧
    server query = some res

/-- The call returns the rows of its query. -/
def ReturnsRows (listing : Listing) (server : Bytes → Option ResultSet) (answers : Answers)
    (s : State) : Prop :=
  ∀ res, listing.Produces server answers s res →
    (listing.call server answers s).1 = .ok (listing.rows res)

end Listing

/-- After its temporary, a query has no result to read. -/
theorem readResult_of_exec {α : Type} (server : Bytes → Option ResultSet) {query : Bytes}
    (loop : Option ResultSet → Except Thrown α) {answers : Answers} {s : State}
    (h : (exec query answers s).1 = .ok ()) :
    (readResult server query loop answers s).1 = loop none := by
  unfold readResult
  generalize exec query answers s = returned at h
  obtain ⟨result, s'⟩ := returned
  subst h
  rfl

/-- **The end of a call** whose query produces a result. -/
theorem call_of_produces {listing : Listing} {server : Bytes → Option ResultSet}
    {answers : Answers} {s : State} {res : ResultSet}
    (h : listing.Produces server answers s res) :
    (listing.call server answers s).1 = .error .undefinedBehaviour := by
  obtain ⟨query, hquery, hexec, -⟩ := h.query
  cases listing with
  | listTables result =>
    obtain rfl := Option.some.inj hquery
    simp only [Listing.call, listTables, readResult_of_exec server _ hexec]
    rfl
  | getTableDefinition table text =>
    rw [Listing.query] at hquery
    split at hquery
    · cases hquery
    · rename_i htable
      obtain rfl := Option.some.inj hquery
      simp only [Listing.call, getTableDefinition, if_neg htable,
        readResult_of_exec server _ hexec]
      rfl
  | explain q entries =>
    rw [Listing.query] at hquery
    split at hquery
    · cases hquery
    · rename_i hq
      obtain rfl := Option.some.inj hquery
      simp only [Listing.call, explain, if_neg hq, readResult_of_exec server _ hexec]
      rfl

/-- **No call returns its rows.** Whatever result set the server produces, `exec` has taken it. -/
theorem not_returnsRows {listing : Listing} {server : Bytes → Option ResultSet}
    {answers : Answers} {s : State} {res : ResultSet}
    (h : listing.Produces server answers s res) : ¬listing.ReturnsRows server answers s := by
  intro hreturns
  have hok := hreturns res h
  rw [call_of_produces h] at hok
  cases hok

/-- A database with one table. -/
def oneTable : ResultSet where
  fields := [ascii "Tables_in_db"]
  rows := [[some (ascii "t")]]
  width := by simp

theorem not_returnsRows_explain :
    ¬(Listing.explain (ascii "SELECT 1") []).ReturnsRows
      (fun _ => some ⟨[ascii "id"], [[some (ascii "1")]], by simp⟩) allWell connectedState :=
  not_returnsRows ⟨_, rfl, by decide, rfl⟩

/-- `list_tables` does not return the table. -/
theorem not_returnsRows_listTables :
    (Listing.listTables []).Produces (fun _ => some oneTable) allWell connectedState oneTable ∧
      (Listing.listTables []).rows oneTable = .tables [ascii "t"] ∧
      ¬(Listing.listTables []).ReturnsRows (fun _ => some oneTable) allWell connectedState := by
  have hproduces :
      (Listing.listTables []).Produces (fun _ => some oneTable) allWell connectedState oneTable :=
    ⟨_, rfl, by decide, rfl⟩
  refine ⟨hproduces, rfl, fun hreturns => ?_⟩
  have hok := hreturns oneTable hproduces
  rw [call_of_produces hproduces] at hok
  cases hok

end WinterWind.Databases
