import WinterWind.Databases.PostgreSqlResult
import WinterWind.Library.SqlTokens

/-!
# Schema names (`src/core/databases/postgresqlclient.cpp`)

`PostgreSQLClient::escape_string`, and the statements of `create_schema` and `drop_schema`.

* `PQescapeStringConn` doubles single quotes and backslashes and stops at a NUL. It writes a NUL
  after its output; a buffer that is too short for both is undefined behaviour.
* The size of the buffer is computed with a `float`: the length is rounded to 24 significant bits
  and so is one and a half times that.
* The server reads the statement as far as its first NUL, by the rules of `Library.tokens`. These
  know no key words: a key word has the form of an identifier and counts as one.

Results:
* `run_eq`: what the server sees of a call is its text.
* `escapeString_of_isPlain`: a plain name is its own escape, and fits into the buffer.
* `isPlain_of_mem_tokens_text`: in the text of a statement, an identifier that stands for the name
  has a plain one.
* **`sameStatement_iff`**: the statements of two names differ in the identifier of the name alone
  iff both names are plain: the escapes are those of a literal, and the name stands unquoted.
-/

namespace WinterWind.Databases

open Library

/-! ## The source functions -/

/-- The `float` nearest to `n`, and of two the one with an even significand. -/
def toFloat (n : Nat) : Nat :=
  let unit := 2 ^ (n.log2 + 1 - 24)
  if 2 * (n % unit) < unit ∨ 2 * (n % unit) = unit ∧ n / unit % 2 = 0 then n / unit * unit
  else (n / unit + 1) * unit

/-- `(uint32_t) std::ceil(size * 1.5f)`. The product is rounded as a number of halves. -/
def escapeBufferSize (size : Nat) : Except Fault Nat :=
  let ceiling := (toFloat (3 * toFloat size) + 1) / 2
  if ceiling < 2 ^ 32 then .ok ceiling else .error .undefinedBehaviour

/-- What `PQescapeStringConn` writes before the NUL. -/
def pqEscapeString (s : Bytes) : Bytes :=
  (cStr s).flatMap fun c => if c = 39 ∨ c = 92 then [c, c] else [c]

/-- `PostgreSQLClient::escape_string`. -/
def escapeString (param : Bytes) : Except Fault Bytes := do
  let size ← escapeBufferSize param.length
  let res := pqEscapeString param
  if res.length + 1 ≤ size then return res else throw .undefinedBehaviour

/-- The query of `PostgreSQLClient::create_schema`. -/
def createSchemaQuery (name : Bytes) : Except Fault Bytes := do
  let nameEsc ← escapeString name
  return ascii "CREATE SCHEMA " ++ nameEsc

/-- The query of `PostgreSQLClient::drop_schema`. -/
def dropSchemaQuery (name : Bytes) (ifExists : Bool) : Except Fault Bytes := do
  let nameEsc ← escapeString name
  let query := ascii "DROP SCHEMA "
  let query := if ifExists then query ++ ascii "IF EXISTS " else query
  return query ++ nameEsc

/-- `PostgreSQLClient::create_schema`, given what `exec` returns for the query. -/
def createSchema (exec : Bytes → Except PostgreSQLException PGresult) (name : Bytes) :
    Except Fault (Except PostgreSQLException ExecStatus) := do
  let query ← createSchemaQuery name
  return (exec (cStr query)).map PGresult.status

/-- `PostgreSQLClient::drop_schema`. -/
def dropSchema (exec : Bytes → Except PostgreSQLException PGresult) (name : Bytes)
    (ifExists : Bool) : Except Fault (Except PostgreSQLException ExecStatus) := do
  let query ← dropSchemaQuery name ifExists
  return (exec (cStr query)).map PGresult.status

/-! ## The law -/

/-- A call with the name of a schema. -/
inductive SchemaCall where
  | create
  | drop (ifExists : Bool)
  deriving Repr, DecidableEq

namespace SchemaCall

/-- The text that is sent to the server. -/
def text (call : SchemaCall) (name : Bytes) : Except Fault Bytes :=
  Except.map cStr (match call with
    | create => createSchemaQuery name
    | drop ifExists => dropSchemaQuery name ifExists)

/-- The call. -/
def run (exec : Bytes → Except PostgreSQLException PGresult) (name : Bytes) :
    SchemaCall → Except Fault (Except PostgreSQLException ExecStatus)
  | create => createSchema exec name
  | drop ifExists => dropSchema exec name ifExists

/-- The name goes into the text and nowhere else. -/
theorem run_eq (call : SchemaCall) (exec : Bytes → Except PostgreSQLException PGresult)
    (name : Bytes) : call.run exec name =
      (call.text name).map fun text => (exec text).map PGresult.status := by
  cases call with
  | create =>
    simp only [run, text, createSchema]
    cases createSchemaQuery name <;> rfl
  | drop ifExists =>
    simp only [run, text, dropSchema]
    cases dropSchemaQuery name ifExists <;> rfl

/-- The tokens of the two texts are the same but for one identifier, which stands for the name. -/
def SameStatement (call : SchemaCall) (a b : Bytes) : Prop :=
  ∃ textA textB, call.text a = .ok textA ∧ call.text b = .ok textB ∧
    ∃ before after quotedA quotedB,
      tokens textA = before ++ .identifier quotedA a :: after ∧
      tokens textB = before ++ .identifier quotedB b :: after

/-- What stands before the name. -/
def opening : SchemaCall → Bytes
  | create => ascii "CREATE SCHEMA "
  | drop false => ascii "DROP SCHEMA "
  | drop true => ascii "DROP SCHEMA IF EXISTS "

theorem text_eq (call : SchemaCall) (name : Bytes) :
    call.text name = (escapeString name).map fun nameEsc => cStr (call.opening ++ nameEsc) := by
  unfold text
  rcases call with _ | _ | _
  · unfold createSchemaQuery
    cases escapeString name <;> rfl
  · unfold dropSchemaQuery
    cases escapeString name <;> rfl
  · unfold dropSchemaQuery
    cases escapeString name <;> rfl

/-- The tokens before the name. -/
def words : SchemaCall → List Token
  | create => [.identifier false (ascii "create"), .identifier false (ascii "schema")]
  | drop false => [.identifier false (ascii "drop"), .identifier false (ascii "schema")]
  | drop true => [.identifier false (ascii "drop"), .identifier false (ascii "schema"),
      .identifier false (ascii "if"), .identifier false (ascii "exists")]

theorem tokens_opening (call : SchemaCall) (s : Bytes) :
    tokens (call.opening ++ s) = call.words ++ tokens s := by
  have hword : ∀ {c : UInt8} {word : Bytes}, word.head? = some c → identStart c = true →
      word.all identCont = true → IsWord word :=
    fun hc hstart hall => ⟨⟨_, hc, hstart⟩, List.all_eq_true.mp hall⟩
  have hcreate : IsWord (ascii "CREATE") := hword rfl rfl rfl
  have hdrop : IsWord (ascii "DROP") := hword rfl rfl rfl
  have hschema : IsWord (ascii "SCHEMA") := hword rfl rfl rfl
  have hif : IsWord (ascii "IF") := hword rfl rfl rfl
  have hexists : IsWord (ascii "EXISTS") := hword rfl rfl rfl
  rcases call with _ | _ | _
  · change tokens (ascii "CREATE" ++ 32 :: (ascii "SCHEMA" ++ 32 :: s)) = _
    rw [tokens_word hcreate, tokens_word hschema]
    rfl
  · change tokens (ascii "DROP" ++ 32 :: (ascii "SCHEMA" ++ 32 :: s)) = _
    rw [tokens_word hdrop, tokens_word hschema]
    rfl
  · change tokens (ascii "DROP" ++ 32 :: (ascii "SCHEMA" ++ 32 ::
      (ascii "IF" ++ 32 :: (ascii "EXISTS" ++ 32 :: s)))) = _
    rw [tokens_word hdrop, tokens_word hschema, tokens_word hif, tokens_word hexists]
    rfl

end SchemaCall

/-! ## Plain names -/

theorem toFloat_of_lt {n : Nat} (h : n < 2 ^ 24) : toFloat n = n := by
  have hunit : n.log2 + 1 - 24 = 0 := by
    rcases Nat.eq_zero_or_pos n with rfl | hpos
    · rfl
    · have hlog := (Nat.log2_lt hpos.ne').mpr h
      omega
  unfold toFloat
  rw [hunit]
  simp [Nat.mod_one]

/-- Below 24 bits nothing is rounded. -/
theorem escapeBufferSize_of_lt {size : Nat} (h : 3 * size < 2 ^ 24) :
    escapeBufferSize size = .ok ((3 * size + 1) / 2) := by
  unfold escapeBufferSize
  rw [toFloat_of_lt (n := size) (by omega), toFloat_of_lt (by omega)]
  exact if_pos (by omega)

/-- No character of a plain name is NUL, a single quote or a backslash. -/
theorem isPlain_chars {name : Bytes} (h : IsPlain name) {c : UInt8} (hc : c ∈ name) :
    c ≠ 0 ∧ c ≠ 39 ∧ c ≠ 92 := by
  have hcont := (h.chars c hc).1
  refine ⟨?_, ?_, ?_⟩
  all_goals
    rintro rfl
    exact absurd hcont (by decide)

theorem pqEscapeString_of_isPlain {name : Bytes} (h : IsPlain name) :
    pqEscapeString name = name := by
  have hcopy : ∀ c ∈ name, (if c = 39 ∨ c = 92 then [c, c] else [c]) = [c] := by
    intro c hc
    obtain ⟨-, hquote, hbackslash⟩ := isPlain_chars h hc
    exact if_neg (by simp [hquote, hbackslash])
  rw [pqEscapeString, cStr_of_not_mem fun h0 => (isPlain_chars h h0).1 rfl,
    List.flatMap_congr hcopy, List.flatMap_singleton']

/-- **A plain name is its own escape.** -/
theorem escapeString_of_isPlain {name : Bytes} (h : IsPlain name) :
    escapeString name = .ok name := by
  have hpos : 0 < name.length := by
    obtain ⟨c, hc, -⟩ := h.start
    cases name with
    | nil => cases hc
    | cons => exact Nat.succ_pos _
  have hle := h.length
  unfold escapeString
  rw [escapeBufferSize_of_lt (by omega), pqEscapeString_of_isPlain h]
  exact if_pos (by omega)

theorem tokens_text_of_isPlain (call : SchemaCall) {name : Bytes} (h : IsPlain name) :
    ∃ text, call.text name = .ok text ∧ tokens text = call.words ++ [.identifier false name] := by
  have hnul : 0 ∉ call.opening ++ name := by
    rw [List.mem_append]
    rintro (h0 | h0)
    · rcases call with _ | _ | _ <;> exact absurd h0 (by decide)
    · exact (isPlain_chars h h0).1 rfl
  refine ⟨call.opening ++ name, ?_, ?_⟩
  · rw [call.text_eq, escapeString_of_isPlain h, Except.map, cStr_of_not_mem hnul]
  · rw [call.tokens_opening, tokens_of_isPlain h]

/-! ## Other names -/

/-- A call that returns has sent what stands before the name and the escape. -/
theorem eq_of_text_eq_ok {call : SchemaCall} {name text : Bytes} (h : call.text name = .ok text) :
    text = cStr (call.opening ++ pqEscapeString name) := by
  rw [call.text_eq, escapeString] at h
  cases hsize : escapeBufferSize name.length with
  | error e =>
    rw [hsize] at h
    cases h
  | ok size =>
    rw [hsize] at h
    simp only [bind, Except.bind] at h
    split at h
    · exact (Except.ok.inj h).symm
    · cases h

/-- The escapes add no double quote. -/
theorem count_pqEscapeString_le (name : Bytes) :
    (pqEscapeString name).count 34 ≤ name.count 34 := by
  have hflat : ∀ s : Bytes,
      (s.flatMap fun c => if c = 39 ∨ c = 92 then [c, c] else [c]).count 34 = s.count 34 := by
    intro s
    induction s with
    | nil => rfl
    | cons c s ih =>
      rw [List.flatMap_cons, List.count_append, ih, List.count_cons]
      split
      · rename_i hc
        rcases hc with rfl | rfl <;> simp
      · simp [List.count_cons, Nat.add_comm]
  rw [pqEscapeString, hflat]
  exact (List.takeWhile_sublist _).count_le 34

/-- **In the text of a call, an identifier that stands for the name has a plain one.** A quoted
identifier would have all the double quotes of the name twice, and two more. -/
theorem isPlain_of_mem_tokens_text {call : SchemaCall} {name text : Bytes}
    (htext : call.text name = .ok text) {quoted : Bool}
    (h : .identifier quoted name ∈ tokens text) : IsPlain name := by
  cases quoted with
  | false => exact isPlain_of_mem_tokens h
  | true =>
    exfalso
    have hquotes := count_of_mem_tokens h
    have hopening : call.opening.count 34 = 0 := by
      rcases call with _ | _ | _ <;> decide
    have htext : text.count 34 ≤ name.count 34 := by
      calc text.count 34
          ≤ (call.opening ++ pqEscapeString name).count 34 := by
            rw [eq_of_text_eq_ok htext]
            exact (List.takeWhile_sublist _).count_le 34
        _ = (pqEscapeString name).count 34 := by
            rw [List.count_append, hopening, Nat.zero_add]
        _ ≤ name.count 34 := count_pqEscapeString_le name
    omega

/-- **When a name is only a name.** The texts for two names differ in the identifier of the name
alone iff both names are plain. Key words are identifiers here, as they are to the lexer: a plain
name such as `select` is one token all the same. -/
theorem sameStatement_iff (call : SchemaCall) (a b : Bytes) :
    call.SameStatement a b ↔ IsPlain a ∧ IsPlain b := by
  constructor
  · rintro ⟨textA, textB, htextA, htextB, before, after, quotedA, quotedB, hA, hB⟩
    have hmem : ∀ token : Token, token ∈ before ++ token :: after :=
      fun _ => List.mem_append_right _ List.mem_cons_self
    exact ⟨isPlain_of_mem_tokens_text htextA (hA ▸ hmem _),
      isPlain_of_mem_tokens_text htextB (hB ▸ hmem _)⟩
  · rintro ⟨ha, hb⟩
    obtain ⟨textA, htextA, hA⟩ := tokens_text_of_isPlain call ha
    obtain ⟨textB, htextB, hB⟩ := tokens_text_of_isPlain call hb
    exact ⟨textA, textB, htextA, htextB, call.words, [], false, false, hA, hB⟩

/-- A name with a semicolon ends the statement, and the rest of it is the next one. -/
theorem not_sameStatement_semicolon :
    (SchemaCall.create.text (ascii "a;DROP TABLE t")).map tokens = .ok
      [.identifier false (ascii "create"), .identifier false (ascii "schema"),
        .identifier false (ascii "a"), .semicolon, .identifier false (ascii "drop"),
        .identifier false (ascii "table"), .identifier false (ascii "t")] ∧
      ¬SchemaCall.create.SameStatement (ascii "a") (ascii "a;DROP TABLE t") := by
  refine ⟨by decide +kernel, ?_⟩
  rintro ⟨textA, textB, htextA, htextB, before, after, quotedA, quotedB, hA, hB⟩
  have hplain := isPlain_of_mem_tokens_text htextB
    (hB ▸ List.mem_append_right before List.mem_cons_self)
  exact absurd (hplain.chars 59 (by decide)).1 (by decide)

end WinterWind.Databases
