import WinterWind.Databases.PostgreSqlClient
import WinterWind.Utils.JsonTree
import WinterWind.Utils.Numerals

/-!
# PostgreSQL results (`src/core/databases/postgresqlclient.cpp`)

`PostgreSQLResult`, its conversion to JSON, and `read_field`. A `PGresult` holds cells in text form,
null or a C string, in rows that are all as wide as the list of column types.

* `atof` is a parameter, and so is what `json = nullptr` assigns: the constructor for C strings
  takes the `nullptr` and throws, unless jsoncpp has one for it.
* The value of a cell that is null, or not there, is read as the empty string.

Results:
* `jsonRows_iff`: the JSON of a result, cell by cell.
* **`exact_iff`**: an integer is read as it stands in its cell iff it is an `int` where `toJson`
  reads it, and an `int64_t` where `read_field<uint64_t>` does.
-/

namespace WinterWind.Databases

open Library

/-! ## libpq -/

/-- `ExecStatusType`, in the order of its values. -/
inductive ExecStatus where
  | emptyQuery
  | commandOk
  | tuplesOk
  | copyOut
  | copyIn
  | badResponse
  | nonfatalError
  | fatalError
  | copyBoth
  | singleTuple
  deriving Repr, DecidableEq

/-- The number of a status. -/
def ExecStatus.code : ExecStatus → Nat
  | .emptyQuery => 0
  | .commandOk => 1
  | .tuplesOk => 2
  | .copyOut => 3
  | .copyIn => 4
  | .badResponse => 5
  | .nonfatalError => 6
  | .fatalError => 7
  | .copyBoth => 8
  | .singleTuple => 9

/-- A value in text form. -/
abbrev PgText := { s : Bytes // 0 ∉ s }

/-- `PGresult`. -/
structure PGresult where
  status : ExecStatus
  errorMessage : Bytes := []
  ftypes : List Nat := []
  rows : List (List (Option PgText)) := []
  width : ∀ row ∈ rows, row.length = ftypes.length := by simp

/-- The cell of a row and a column, if it is not null. -/
def PGresult.cell (res : PGresult) (row col : Nat) : Option PgText :=
  (res.rows[row]?.bind (·[col]?)).join

/-- `PQgetisnull`. -/
def PGresult.isNull (res : PGresult) (row col : Nat) : Bool := (res.cell row col).isNone

/-- `PQgetvalue`. -/
def PGresult.value (res : PGresult) (row col : Nat) : Bytes :=
  (res.cell row col).elim [] Subtype.val

/-- The constructor `PostgreSQLResult(result)`. -/
def postgreSQLResult (res : PGresult) : Except PostgreSQLException PGresult :=
  match res.status with
  | .commandOk => .ok res
  | .tuplesOk => .ok res
  | _ => .error (databaseError res.errorMessage)

/-! ## The source functions -/

/-- `PostgreSQLResult::toJson`, the value of a cell. -/
def jsonCell (atof : Bytes → Option Rat) (ofNull : Except Fault Value) (res : PGresult)
    (row col : Nat) : Except Fault Value :=
  if res.isNull row col then ofNull
  else
    .ok (match res.ftypes[col]? with
      | some 16 => .boolean (res.value row col == ascii "t")
      | some 20 => .int (Int64.ofInt (atoi (res.value row col)).toInt)
      | some 21 => .int (Int64.ofInt (atoi (res.value row col)).toInt)
      | some 23 => .int (Int64.ofInt (atoi (res.value row col)).toInt)
      | some 700 => .real (atof (res.value row col))
      | some 701 => .real (atof (res.value row col))
      | _ => .string (res.value row col))

/-- Assign the elements of null in turn. -/
def assignElements (element : Nat → Except Fault Value) (n : Nat) : Except Fault Value :=
  (List.range n).foldlM (fun json i => do json.setIndex i (← element i)) .null

/-- The loop over the rows, and for each the loop over the columns that fills `json_row`. -/
def jsonRows (atof : Bytes → Option Rat) (ofNull : Except Fault Value) (res : PGresult) :
    Except Fault Value :=
  assignElements (fun row => assignElements (jsonCell atof ofNull res row) res.ftypes.length)
    res.rows.length

/-- `v.clear()`. -/
def clear : Value → Except Fault Value
  | .null => .ok .null
  | .array _ => .ok (.array [])
  | .object _ => .ok (.object [])
  | _ => .error .logicError

/-- `PostgreSQLResult::toJson`. -/
def toJson (atof : Bytes → Option Rat) (ofNull : Except Fault Value) (res : PGresult)
    (json : Value) : Except Fault Value := do
  let json ← clear json
  let json ← json.setMember (ascii "result_count") (.int (Int64.ofNat res.rows.length))
  let json ← json.setMember (ascii "status") (.int (Int64.ofNat res.status.code))
  json.setMember (ascii "results") (← jsonRows atof ofNull res)

/-- `read_field<int>`. -/
def readFieldInt (res : PGresult) (row col : Nat) : Int32 := atoi (res.value row col)

/-- `read_field<std::string>`. -/
def readFieldString (res : PGresult) (row col : Nat) : Bytes := res.value row col

/-- `read_field<uint32_t>`. -/
def readFieldUInt32 (res : PGresult) (row col : Nat) : UInt32 := (atoi (res.value row col)).toUInt32

/-- `read_field<uint64_t>`. -/
def readFieldUInt64 (res : PGresult) (row col : Nat) : UInt64 :=
  (atoll (res.value row col)).toUInt64

/-- `read_field<int64_t>`. -/
def readFieldInt64 (res : PGresult) (row col : Nat) : Int64 := atoll (res.value row col)

/-! ## The JSON of a result -/

/-- The array that the assignments of `n` elements make of null. -/
def arrayOf (n : Nat) (f : Nat → Value) : Value :=
  if n = 0 then .null else .array ((List.range n).map f)

theorem setIndex_arrayOf (n : Nat) (f : Nat → Value) :
    (arrayOf n f).setIndex n (f n) = .ok (arrayOf (n + 1) f) := by
  unfold arrayOf
  rw [if_neg (Nat.succ_ne_zero n), List.range_succ, List.map_append]
  split
  · rename_i h
    subst h
    rfl
  · simp [Value.setIndex, Value.setElement]

theorem assignElements_succ (element : Nat → Except Fault Value) (n : Nat) :
    assignElements element (n + 1) = (do
      let json ← assignElements element n
      json.setIndex n (← element n)) := by
  unfold assignElements
  rw [List.range_succ, List.foldlM_append]
  simp only [List.foldlM_cons, List.foldlM_nil, bind_pure]

/-- **The elements are assigned** iff each of them is there. -/
theorem assignElements_iff (element : Nat → Except Fault Value) (n : Nat) (json : Value) :
    assignElements element n = .ok json ↔
      ∃ f : Nat → Value, (∀ i < n, element i = .ok (f i)) ∧ json = arrayOf n f := by
  induction n generalizing json with
  | zero =>
    refine ⟨fun h => ⟨fun _ => .null, nofun, ?_⟩, fun ⟨f, _, h⟩ => ?_⟩
    · exact (Except.ok.inj h).symm
    · rw [h]
      rfl
  | succ n ih =>
    rw [assignElements_succ]
    constructor
    · intro h
      match hrest : assignElements element n, hn : element n, h with
      | .ok json', .ok v, h =>
        obtain ⟨f, hf, rfl⟩ := (ih json').mp hrest
        have hsame : ∀ i < n, Function.update f n v i = f i :=
          fun i hi => Function.update_of_ne (by omega) v f
        refine ⟨Function.update f n v, fun i hi => ?_, ?_⟩
        · rcases Nat.lt_succ_iff_lt_or_eq.mp hi with hlt | rfl
          · rw [hf i hlt, hsame i hlt]
          · rw [hn, Function.update_self]
        · have harray : arrayOf n f = arrayOf n (Function.update f n v) := by
            unfold arrayOf
            rw [List.map_congr_left fun i hi => (hsame i (List.mem_range.mp hi)).symm]
          have hset := setIndex_arrayOf n (Function.update f n v)
          rw [Function.update_self, ← harray] at hset
          exact Except.ok.inj (h.symm.trans hset)
    · rintro ⟨f, hf, rfl⟩
      rw [(ih _).mpr ⟨f, fun i hi => hf i (Nat.lt_succ_of_lt hi), rfl⟩, hf n (Nat.lt_succ_self n)]
      exact setIndex_arrayOf n f

/-- **The JSON of a result**, cell by cell. -/
theorem jsonRows_iff (atof : Bytes → Option Rat) (ofNull : Except Fault Value) (res : PGresult)
    (json : Value) : jsonRows atof ofNull res = .ok json ↔ ∃ f : Nat → Nat → Value,
      (∀ row < res.rows.length, ∀ col < res.ftypes.length,
        jsonCell atof ofNull res row col = .ok (f row col)) ∧
      json = arrayOf res.rows.length fun row => arrayOf res.ftypes.length (f row) := by
  unfold jsonRows
  rw [assignElements_iff]
  constructor
  · rintro ⟨g, hg, rfl⟩
    have hrow : ∀ row, ∃ f : Nat → Value, row < res.rows.length →
        (∀ col < res.ftypes.length, jsonCell atof ofNull res row col = .ok (f col)) ∧
          g row = arrayOf res.ftypes.length f := by
      intro row
      by_cases hlt : row < res.rows.length
      · obtain ⟨f, hf⟩ := (assignElements_iff _ _ _).mp (hg row hlt)
        exact ⟨f, fun _ => hf⟩
      · exact ⟨fun _ => .null, fun h => absurd h hlt⟩
    choose f hf using hrow
    refine ⟨f, fun row hlt => (hf row hlt).1, ?_⟩
    unfold arrayOf
    rw [List.map_congr_left fun row hlt => (hf row (List.mem_range.mp hlt)).2]
    rfl
  · rintro ⟨f, hf, rfl⟩
    exact ⟨_, fun row hlt => (assignElements_iff _ _ _).mpr ⟨f row, hf row hlt, rfl⟩, rfl⟩

theorem element_arrayOf {n i : Nat} (h : i < n) (f : Nat → Value) :
    (arrayOf n f).element i = .ok (f i) := by
  rw [arrayOf, if_neg (by omega), Value.element, List.getElem?_map, List.getElem?_range h]
  rfl

/-- `json["results"][row][col]`. -/
def resultAt (json : Value) (row col : Nat) : Except Fault Value := do
  let rows ← json.member (ascii "results")
  let cells ← rows.element row
  cells.element col

/-- Every cell becomes a value: none is null, or there is one for null. -/
def Converts (ofNull : Except Fault Value) (res : PGresult) : Prop :=
  (∃ v, ofNull = .ok v) ∨
    ∀ row < res.rows.length, ∀ col < res.ftypes.length, res.isNull row col = false

theorem converts_iff (atof : Bytes → Option Rat) (ofNull : Except Fault Value) (res : PGresult) :
    Converts ofNull res ↔ ∃ f : Nat → Nat → Value, ∀ row < res.rows.length,
      ∀ col < res.ftypes.length, jsonCell atof ofNull res row col = .ok (f row col) := by
  constructor
  · intro h
    refine ⟨fun row col => (jsonCell atof ofNull res row col).toOption.getD .null, ?_⟩
    intro row hrow col hcol
    have hok : ∃ v, jsonCell atof ofNull res row col = .ok v := by
      unfold jsonCell
      split
      · rename_i hnull
        rcases h with h | h
        · exact h
        · exact absurd hnull (by simp [h row hrow col hcol])
      · exact ⟨_, rfl⟩
    obtain ⟨v, hv⟩ := hok
    simp only [hv]
    rfl
  · rintro ⟨f, hf⟩
    refine or_iff_not_imp_left.mpr fun hnone row hrow col hcol => ?_
    by_contra hnull
    have hcell := hf row hrow col hcol
    rw [jsonCell, if_pos (Bool.eq_true_of_not_eq_false hnull)] at hcell
    exact hnone ⟨_, hcell⟩

/-- **The value of every cell** stands at its row and column, whatever was in the object before,
when every cell becomes one. -/
theorem toJson_iff (atof : Bytes → Option Rat) (ofNull : Except Fault Value) (res : PGresult)
    {json : Value} (h : json = .null ∨ ∃ ms, json = .object ms) {row col : Nat}
    (hrow : row < res.rows.length) (hcol : col < res.ftypes.length) (v : Value) :
    (∃ json', toJson atof ofNull res json = .ok json' ∧ resultAt json' row col = .ok v) ↔
      Converts ofNull res ∧ jsonCell atof ofNull res row col = .ok v := by
  have hclear : clear json = .ok .null ∨ clear json = .ok (.object []) := by
    rcases h with rfl | ⟨ms, rfl⟩
    · exact Or.inl rfl
    · exact Or.inr rfl
  have hresult : ∃ ms, toJson atof ofNull res json = (do
      let rows ← jsonRows atof ofNull res
      return .object (insertMember (ascii "results") rows ms)) := by
    unfold toJson
    rcases hclear with hclear | hclear <;> rw [hclear] <;> exact ⟨_, rfl⟩
  obtain ⟨ms, hms⟩ := hresult
  have hat : ∀ f : Nat → Nat → Value, resultAt (.object (insertMember (ascii "results")
      (arrayOf res.rows.length fun row => arrayOf res.ftypes.length (f row)) ms)) row col =
        .ok (f row col) := by
    intro f
    unfold resultAt
    rw [Value.member_object, find_insertMember, if_pos rfl]
    simp only [bind, Except.bind, Option.getD_some, element_arrayOf hrow, element_arrayOf hcol]
  rw [hms, converts_iff atof]
  constructor
  · rintro ⟨json', htoJson, hv⟩
    match hrows : jsonRows atof ofNull res, htoJson with
    | .ok rows, htoJson =>
      obtain ⟨f, hf, rfl⟩ := (jsonRows_iff _ _ _ _).mp hrows
      obtain rfl := Except.ok.inj htoJson
      rw [hat] at hv
      exact ⟨⟨f, hf⟩, (hf row hrow col hcol).trans hv⟩
  · rintro ⟨⟨f, hf⟩, hv⟩
    rw [(jsonRows_iff _ _ _ _).mpr ⟨f, hf, rfl⟩]
    refine ⟨_, rfl, ?_⟩
    rw [hat, ← hv, hf row hrow col hcol]

/-! ## The law -/

/-- `INT2`, `INT4` and `INT8`. -/
inductive IntType where
  | int2
  | int4
  | int8
  deriving Repr, DecidableEq

/-- The `Oid` of a type. -/
def IntType.oid : IntType → Nat
  | .int2 => 21
  | .int4 => 23
  | .int8 => 20

/-- The types `read_field` is used with. -/
inductive Target where
  | int
  | uint32
  | int64
  | uint64
  deriving Repr, DecidableEq

/-- The ways an integer cell is read: `toJson` for a column type, or `read_field` for a target. -/
inductive Reading where
  | json (type : IntType)
  | field (target : Target)
  deriving Repr, DecidableEq

/-- A number of so many bits, in two's complement. -/
def IsSigned (bits : Nat) (v : Int) : Prop := -2 ^ (bits - 1) ≤ v ∧ v < 2 ^ (bits - 1)

/-- A number of so many bits that is not negative. -/
def IsUnsigned (bits : Nat) (v : Int) : Prop := 0 ≤ v ∧ v < 2 ^ bits

namespace Reading

/-- The range of the column type, or of the type that is read. -/
def InRange : Reading → Int → Prop
  | .json .int2 => IsSigned 16
  | .json .int4 => IsSigned 32
  | .json .int8 => IsSigned 64
  | .field .int => IsSigned 32
  | .field .uint32 => IsUnsigned 32
  | .field .int64 => IsSigned 64
  | .field .uint64 => IsUnsigned 64

/-- The cell holds the decimal text of a number in range, in a column of the type. -/
structure Holds (reading : Reading) (res : PGresult) (row col : Nat) (v : Int) : Prop where
  text : ∃ text, res.cell row col = some text ∧ text.val = signedDecimal v
  type : ∀ type, reading = .json type → res.ftypes[col]? = some type.oid
  inRange : reading.InRange v

/-- The number that is read is the one in the cell. -/
def Exact (reading : Reading) (atof : Bytes → Option Rat) (ofNull : Except Fault Value)
    (res : PGresult) (row col : Nat) (v : Int) : Prop :=
  match reading with
  | .json _ => ∀ json, (json = .null ∨ ∃ ms, json = .object ms) →
    ∃ i : Int64, i.toInt = v ∧ ∃ json', toJson atof ofNull res json = .ok json' ∧
      resultAt json' row col = .ok (.int i)
  | .field .int => (readFieldInt res row col).toInt = v
  | .field .uint32 => (readFieldUInt32 res row col).toNat = v
  | .field .int64 => (readFieldInt64 res row col).toInt = v
  | .field .uint64 => (readFieldUInt64 res row col).toNat = v

/-- `toJson` reads an `int` and has to convert the other cells as well, and `read_field<uint64_t>`
reads an `int64_t`. -/
def Fits (reading : Reading) (ofNull : Except Fault Value) (res : PGresult) (v : Int) : Prop :=
  match reading with
  | .json _ => IsSigned 32 v ∧ Converts ofNull res
  | .field .uint64 => IsSigned 64 v
  | .field _ => True

end Reading

theorem PGresult.value_of_cell {res : PGresult} {row col : Nat} {text : PgText}
    (h : res.cell row col = some text) : res.value row col = text.val := by
  rw [PGresult.value, h]
  rfl

/-- A cell that is there has its row and its column. -/
theorem PGresult.lt_of_cell {res : PGresult} {row col : Nat} {text : PgText}
    (h : res.cell row col = some text) : row < res.rows.length ∧ col < res.ftypes.length := by
  unfold PGresult.cell at h
  rw [Option.join_eq_some_iff, Option.bind_eq_some_iff] at h
  obtain ⟨cells, hrow, hcol⟩ := h
  obtain ⟨hlt, rfl⟩ := List.getElem?_eq_some_iff.mp hrow
  obtain ⟨hcol, _⟩ := List.getElem?_eq_some_iff.mp hcol
  exact ⟨hlt, res.width _ (List.getElem_mem hlt) ▸ hcol⟩

/-- The cell of an integer type becomes what `atoi` makes of it. -/
theorem jsonCell_of_cell (atof : Bytes → Option Rat) (ofNull : Except Fault Value)
    {res : PGresult} {row col : Nat} {text : PgText} (h : res.cell row col = some text)
    {type : IntType} (htype : res.ftypes[col]? = some type.oid) :
    jsonCell atof ofNull res row col = .ok (.int (Int64.ofInt (atoi text.val).toInt)) := by
  have hnull : res.isNull row col = false := by
    rw [PGresult.isNull, h]
    rfl
  rw [jsonCell, hnull, htype, PGresult.value_of_cell h]
  cases type <;> rfl

/-- Through an `int`, an `int64_t` comes as it is iff it is an `int`. -/
theorem toInt_atoi_iff {v : Int} (h : IsSigned 64 v) :
    (Int64.ofInt (atoi (signedDecimal v)).toInt).toInt = v ↔ IsSigned 32 v := by
  rw [IsSigned] at h
  rw [Int64.toInt_ofInt_of_le (Int32.le_toInt _ |>.trans' (by decide))
    (Int32.toInt_lt _ |>.trans (by decide)), toInt_atoi h.1 h.2, IsSigned, Int.bmod_def]
  split <;> omega

/-- What `toJson` makes of an integer cell. -/
theorem json_exact_iff (atof : Bytes → Option Rat) (ofNull : Except Fault Value) {type : IntType}
    {res : PGresult} {row col : Nat} {v : Int} (h : (Reading.json type).Holds res row col v) :
    (Reading.json type).Exact atof ofNull res row col v ↔
      IsSigned 32 v ∧ Converts ofNull res := by
  obtain ⟨text, hcell, htext⟩ := h.text
  obtain ⟨hrow, hcol⟩ := PGresult.lt_of_cell hcell
  have hlong : IsSigned 64 v := by
    have hrange := h.inRange
    unfold Reading.InRange at hrange
    cases type <;> unfold IsSigned at hrange ⊢ <;> omega
  have hjson := jsonCell_of_cell atof ofNull hcell (h.type type rfl)
  rw [htext] at hjson
  rw [← toInt_atoi_iff hlong]
  constructor
  · intro hexact
    obtain ⟨i, hi, hat⟩ := hexact .null (.inl rfl)
    obtain ⟨hconverts, hvalue⟩ := (toJson_iff atof ofNull res (.inl rfl) hrow hcol _).mp hat
    obtain rfl := Value.int.inj (Except.ok.inj (hjson.symm.trans hvalue))
    exact ⟨hi, hconverts⟩
  · rintro ⟨hi, hconverts⟩ json hobject
    exact ⟨_, hi, (toJson_iff atof ofNull res hobject hrow hcol _).mpr ⟨hconverts, hjson⟩⟩

/-- What `read_field` makes of it. -/
theorem field_exact_iff (atof : Bytes → Option Rat) (ofNull : Except Fault Value)
    {target : Target} {res : PGresult} {row col : Nat} {v : Int}
    (h : (Reading.field target).Holds res row col v) :
    (Reading.field target).Exact atof ofNull res row col v ↔
      (target = .uint64 → IsSigned 64 v) := by
  obtain ⟨text, hcell, htext⟩ := h.text
  have hvalue := (PGresult.value_of_cell hcell).trans htext
  have hrange := h.inRange
  unfold Reading.InRange at hrange
  unfold Reading.Exact
  cases target with
  | int =>
    unfold IsSigned at hrange
    simp only [readFieldInt, hvalue, toInt_atoi (v := v) (by omega) (by omega), reduceCtorEq,
      IsEmpty.forall_iff, iff_true]
    rw [Int.bmod_def]
    split <;> omega
  | uint32 =>
    simp only [readFieldUInt32, hvalue, toNat_atoi hrange.1 hrange.2, reduceCtorEq,
      IsEmpty.forall_iff]
  | int64 =>
    simp only [readFieldInt64, hvalue, toInt_atoll, clampLong_of_mem hrange.1 hrange.2,
      reduceCtorEq, IsEmpty.forall_iff]
  | uint64 =>
    unfold IsUnsigned at hrange
    simp only [readFieldUInt64, hvalue, toNat_atoll hrange.1, IsSigned, forall_const]
    omega

/-- **Where the integers are exact.** The number of the cell is what is read iff it is an `int`, for
`toJson`, which has to convert the whole result, or an `int64_t`, for `read_field<uint64_t>`. -/
theorem exact_iff (atof : Bytes → Option Rat) (ofNull : Except Fault Value) {reading : Reading}
    {res : PGresult} {row col : Nat} {v : Int} (h : reading.Holds res row col v) :
    reading.Exact atof ofNull res row col v ↔ reading.Fits ofNull res v := by
  cases reading with
  | json type => exact json_exact_iff atof ofNull h
  | field target =>
    rw [field_exact_iff atof ofNull h]
    cases target <;> simp [Reading.Fits]

/-- A result with one cell. -/
def oneCell (oid : Nat) (text : PgText) : PGresult :=
  { status := .tuplesOk, ftypes := [oid], rows := [[some text]], width := by simp }

theorem exact_iff_int4 :
    (Reading.json .int4).Exact (fun _ => none) (.error .logicError)
      (oneCell 23 ⟨ascii "-7", by decide⟩) 0 0 (-7) := by
  have hholds : (Reading.json .int4).Holds (oneCell 23 ⟨ascii "-7", by decide⟩) 0 0 (-7) :=
    { text := ⟨_, rfl, by decide +kernel⟩
      type := fun _ h => Reading.json.inj h ▸ rfl
      inRange := ⟨by decide, by decide⟩ }
  exact (exact_iff _ _ hholds).mpr ⟨⟨by decide, by decide⟩, .inr (by decide)⟩

/-- The identifier 2147483648 of an `INT8` column becomes -2147483648. -/
theorem not_exact_int8 :
    (Reading.json .int8).Holds (oneCell 20 ⟨ascii "2147483648", by decide⟩) 0 0 2147483648 ∧
      ¬ (Reading.json .int8).Exact (fun _ => none) (.ok .null)
        (oneCell 20 ⟨ascii "2147483648", by decide⟩) 0 0 2147483648 := by
  have hholds : (Reading.json .int8).Holds
      (oneCell 20 ⟨ascii "2147483648", by decide⟩) 0 0 2147483648 :=
    { text := ⟨_, rfl, by decide +kernel⟩
      type := fun _ h => Reading.json.inj h ▸ rfl
      inRange := ⟨by decide, by decide⟩ }
  refine ⟨hholds, fun hexact => ?_⟩
  obtain ⟨⟨_, hlt⟩, _⟩ := (json_exact_iff _ _ hholds).mp hexact
  exact absurd hlt (by decide)

end WinterWind.Databases
