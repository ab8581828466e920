import WinterWind.Basic
import WinterWind.Library.Runs

/-!
# The PostgreSQL client (`src/core/databases/postgresqlclient.cpp`)

`PostgreSQLClient`, its connection, and the session of the server behind it.

* A `PGconn` has the status libpq reports, and the server session it belongs to, `none` when there
  is none any more. libpq notices a loss at the next request: until then the status is
  `CONNECTION_OK`. A prepared statement lives in its session, under the name as a C string.
* `PQconnectdb` opens a session without prepared statements. `PQresetStart` gives the session up
  and leaves the status pending; the reset ends when somebody polls it to completion.
* The answers of the library and of the server are inputs. What a statement does to the prepared
  ones of its session is the server's answer too, since SQL has `PREPARE` and `DEALLOCATE`.
* The constructor of `PostgreSQLResult` throws for every status but the two that mean success.
  What a result holds is left out.

Results:
* `step_live`: what a step does to the live session and to `m_statements`.
* **`registry_iff`**: every registered name is prepared in the live session, in every state of a
  run, exactly when no session is opened while names are registered and no statement that is
  executed deallocates a registered one.
-/

namespace WinterWind.Databases

open Library

/-- `ConnStatusType`: `CONNECTION_OK`, `CONNECTION_BAD`, and the states between. -/
inductive ConnStatus where
  | ok
  | bad
  | pending
  deriving Repr, DecidableEq

/-- A session of the server: the names of its prepared statements. -/
structure Session where
  prepared : List Bytes := []
  deriving Repr, DecidableEq

/-- `PGconn`. -/
structure PGconn where
  status : ConnStatus
  session : Option Session
  deriving Repr, DecidableEq

/-- The session a request is executed in. -/
def PGconn.live (conn : PGconn) : Option Session :=
  if conn.status = .ok then conn.session else none

/-- `PostgreSQLException`. -/
structure PostgreSQLException where
  what : Bytes
  deriving Repr, DecidableEq

def databaseError (message : Bytes) : PostgreSQLException :=
  ⟨ascii "PostgreSQL database error: " ++ message⟩

/-- `PostgreSQLClient`. -/
structure PostgreSQLClient where
  connectString : Bytes
  conn : Option PGconn := none
  pgversion : Int := 0
  minPgversion : Int := 0
  statements : UnorderedMap Bytes Bytes := ∅
  checkBeforeExec : Bool := true

/-- What the library calls of one operation return. -/
structure PgAnswers where
  connected : Bool
  serverVersion : Int
  pingOk : Bool
  execute : Bytes → Session → Bool × Session
  prepare : Bytes → Bytes → Session → Bool
  executePrepared : Bytes → Session → Bool × Session
  errorMessage : Bytes

/-- The end of a call and the client it leaves. -/
abbrev PgCall (α : Type) := Except PostgreSQLException α × PostgreSQLClient

/-! ## The library -/

/-- `PQstatus`: a null connection is bad. -/
def pqStatus : Option PGconn → ConnStatus
  | none => .bad
  | some conn => conn.status

/-- `PQconnectdb`. -/
def pqConnectdb (answers : PgAnswers) : PGconn :=
  if answers.connected then ⟨.ok, some {}⟩ else ⟨.bad, none⟩

/-- `PQresetStart`. -/
def pqResetStart (conn : PGconn) : PGconn := { conn with status := .pending, session := none }

/-- A synchronous request, and whether its result has a status of success. -/
def pqRequest (serve : Session → Bool × Session) (conn : PGconn) : Bool × PGconn :=
  if conn.status = .ok then
    match conn.session with
    | some session => ((serve session).1, { conn with session := some (serve session).2 })
    | none => (false, { conn with status := .bad })
  else (false, conn)

namespace PostgreSQLClient

variable (answers : PgAnswers) (c : PostgreSQLClient)

/-! ## The operations -/

/-- `PostgreSQLClient::disconnect`. -/
def disconnect : PostgreSQLClient := { c with conn := none }

/-- `PostgreSQLClient::check_connection`. -/
def checkConnection : PgCall Unit :=
  if pqStatus c.conn = .ok then (.ok (), c)
  else if !answers.pingOk then (.error (databaseError answers.errorMessage), c)
  else (.ok (), { c with conn := c.conn.map pqResetStart })

/-- `PostgreSQLClient::connect`. -/
def connect : PgCall Unit :=
  let c := if c.conn.isSome then c.disconnect else c
  let c := { c with conn := some (pqConnectdb answers) }
  if pqStatus c.conn ≠ .ok then (.error (databaseError answers.errorMessage), c)
  else
    let c := { c with pgversion := answers.serverVersion }
    if c.pgversion < c.minPgversion then
      (.error (databaseError (ascii "Server version " ++ ascii (toString c.pgversion) ++
        ascii " < required version " ++ ascii (toString c.minPgversion))), c)
    else c.checkConnection answers

/-- A request and the construction of its `PostgreSQLResult`. -/
def request (serve : Session → Bool × Session) : PgCall Unit :=
  match c.conn with
  | none => (.error (databaseError answers.errorMessage), c)
  | some conn =>
    match pqRequest serve conn with
    | (true, conn) => (.ok (), { c with conn := some conn })
    | (false, conn) => (.error (databaseError answers.errorMessage), { c with conn := some conn })

/-- `PostgreSQLClient::exec`. -/
def exec (query : Bytes) : PgCall Unit :=
  match if c.checkBeforeExec then c.checkConnection answers else (.ok (), c) with
  | (.ok (), c) => c.request answers (answers.execute (cStr query))
  | (.error e, c) => (.error e, c)

/-- What the server does when a prepared statement is executed: an error if there is none of that
name. -/
def serveExecPrepared (stmtName : Bytes) (session : Session) : Bool × Session :=
  if cStr stmtName ∈ session.prepared then answers.executePrepared (cStr stmtName) session
  else (false, session)

/-- `PostgreSQLClient::exec_prepared`. -/
def execPrepared (stmtName : Bytes) : PgCall Unit :=
  c.request answers (serveExecPrepared answers stmtName)

/-- What the server does when a statement is prepared. -/
def servePrepare (stn st : Bytes) (session : Session) : Bool × Session :=
  if answers.prepare (cStr stn) (cStr st) session then
    (true, { session with prepared := cStr stn :: session.prepared })
  else (false, session)

/-- `PostgreSQLClient::register_statement`. -/
def registerStatement (stn st : Bytes) : PgCall Bool :=
  if stn ∈ c.statements then (.ok false, c)
  else
    match c.request answers (servePrepare answers stn st) with
    | (.ok (), c) => (.ok true, { c with statements := c.statements.insert stn st })
    | (.error e, c) => (.error e, c)

/-- Calls of `register_statement` up to the first that throws. -/
def registerAll : List (Bytes × Bytes) → PostgreSQLClient → PgCall Unit
  | [], c => (.ok (), c)
  | (stn, st) :: rest, c =>
    match c.registerStatement answers stn st with
    | (.ok _, c) => registerAll rest c
    | (.error e, c) => (.error e, c)

/-- The statements of `register_embedded_statements`. -/
def embeddedStatements : List (Bytes × Bytes) :=
  [(ascii "list_tables_into_schema", ascii "SELECT tablename FROM pg_tables WHERE schemaname=$1"),
    (ascii "show_create_table",
      ascii ("SELECT column_name, data_type, is_nullable, " ++
        "column_default FROM information_schema.columns WHERE table_schema = $1 AND " ++
        "table_name = $2 ORDER BY ordinal_position")),
    (ascii "show_create_table_indexes",
      ascii "SELECT indexname, indexdef FROM pg_indexes WHERE schemaname=$1 AND tablename=$2")]

/-- `PostgreSQLClient::register_embedded_statements`. -/
def registerEmbeddedStatements : PgCall Unit := registerAll answers embeddedStatements c

/-! ## Runs -/

/-- What happens to a client: its operations, a loss of its connection, and somebody polling a
pending reset to its end. -/
inductive Event where
  | connect (answers : PgAnswers)
  | disconnect
  | checkConnection (answers : PgAnswers)
  | exec (query : Bytes) (answers : PgAnswers)
  | execPrepared (stmtName : Bytes) (answers : PgAnswers)
  | registerStatement (stn st : Bytes) (answers : PgAnswers)
  | registerEmbeddedStatements (answers : PgAnswers)
  | lost
  | polled (completed : Bool)

/-- One step. What an operation returns or throws is for its caller. -/
def step (c : PostgreSQLClient) : Event → Option PostgreSQLClient
  | .connect answers => some (c.connect answers).2
  | .disconnect => some c.disconnect
  | .checkConnection answers => some (c.checkConnection answers).2
  | .exec query answers => some (c.exec answers query).2
  | .execPrepared stmtName answers => some (c.execPrepared answers stmtName).2
  | .registerStatement stn st answers => some (c.registerStatement answers stn st).2
  | .registerEmbeddedStatements answers => some (c.registerEmbeddedStatements answers).2
  | .lost => some { c with conn := c.conn.map fun conn => { conn with session := none } }
  | .polled completed =>
    if pqStatus c.conn = .pending then
      some { c with conn := some (if completed then ⟨.ok, some {}⟩ else ⟨.bad, none⟩) }
    else none

/-- The session the client's requests are executed in. -/
def live : Option Session := c.conn.bind PGconn.live

/-- A client before it connects. -/
def fresh (connectString : Bytes) (minPgversion : Int) : PostgreSQLClient :=
  { connectString := connectString, minPgversion := minPgversion }

/-- Every registered name is a prepared statement of the live session. -/
def Registry : Prop :=
  ∀ session, c.live = some session → ∀ stn ∈ c.statements, cStr stn ∈ session.prepared

/-- No name is registered. -/
def Unregistered : Prop := ∀ stn, stn ∉ c.statements

/-- The condition on a step: a session is opened only while no name is registered, and what is
executed deallocates no registered statement. -/
def Keeps (c : PostgreSQLClient) : Event → Prop
  | .connect answers => answers.connected = true → c.Unregistered
  | .polled completed => completed = true → c.Unregistered
  | .exec query answers => ∀ session, c.live = some session →
    ∀ stn ∈ c.statements, cStr stn ∈ (answers.execute (cStr query) session).2.prepared
  | .execPrepared stmtName answers => ∀ session, c.live = some session →
    ∀ stn ∈ c.statements, cStr stn ∈ (serveExecPrepared answers stmtName session).2.prepared
  | _ => True

/-! ## The live session -/

variable {answers} {c}

theorem live_of_status_ne (h : pqStatus c.conn ≠ .ok) : c.live = none := by
  unfold live
  cases hconn : c.conn with
  | none => rfl
  | some conn =>
    rw [hconn] at h
    exact if_neg h

/-- A request is served in the live session, or fails for want of one. -/
theorem request_live (answers : PgAnswers) (c : PostgreSQLClient)
    (serve : Session → Bool × Session) :
    (c.request answers serve).2.statements = c.statements ∧
      (c.request answers serve).2.live = c.live.map (fun session => (serve session).2) ∧
      ((c.request answers serve).1 = .ok () ↔
        ∃ session, c.live = some session ∧ (serve session).1 = true) := by
  unfold request
  cases hconn : c.conn with
  | none => simp [live, hconn]
  | some conn =>
    obtain ⟨status, session⟩ := conn
    cases status with
    | ok =>
      cases session with
      | none => simp [live, hconn, pqRequest, PGconn.live]
      | some session =>
        cases hserve : serve session with
        | mk accepted session' =>
          cases accepted <;> simp [live, hconn, pqRequest, PGconn.live, hserve]
    | bad | pending => simp [live, hconn, pqRequest, PGconn.live]

/-- The check keeps a connection libpq holds for good, and never opens a session. It throws only
without a live one. -/
theorem checkConnection_live (answers : PgAnswers) (c : PostgreSQLClient) :
    (c.checkConnection answers).2.statements = c.statements ∧
      (c.checkConnection answers).2.live = c.live ∧
      ∀ e, (c.checkConnection answers).1 = .error e → c.live = none := by
  unfold checkConnection
  split
  · exact ⟨rfl, rfl, fun _ he => nomatch he⟩
  · rename_i hstatus
    split
    · exact ⟨rfl, rfl, fun _ _ => live_of_status_ne hstatus⟩
    · refine ⟨rfl, ?_, fun _ he => nomatch he⟩
      rw [live_of_status_ne hstatus]
      unfold live
      cases c.conn <;> simp [PGconn.live, pqResetStart]

/-- `connect` opens a session without prepared statements, also when it throws over the version
of the server. -/
theorem connect_live (answers : PgAnswers) (c : PostgreSQLClient) :
    (c.connect answers).2.statements = c.statements ∧
      (c.connect answers).2.live = if answers.connected then some {} else none := by
  have hdisconnect : (if c.conn.isSome = true then c.disconnect else c).statements =
      c.statements := by
    split <;> rfl
  unfold connect
  dsimp only
  generalize (if c.conn.isSome = true then c.disconnect else c) = d at hdisconnect ⊢
  cases hconnected : answers.connected with
  | false => simp [pqConnectdb, pqStatus, live, PGconn.live, hconnected, hdisconnect]
  | true =>
    simp only [pqConnectdb, pqStatus, hconnected, if_true]
    rw [if_neg (fun hne => hne rfl)]
    split
    · exact ⟨hdisconnect, rfl⟩
    · have hcheck := checkConnection_live answers
        { d with conn := some ⟨.ok, some {}⟩, pgversion := answers.serverVersion }
      exact ⟨hcheck.1.trans hdisconnect, hcheck.2.1⟩

/-- `exec` executes its statement in the live session, if there is one. -/
theorem exec_live (answers : PgAnswers) (c : PostgreSQLClient) (query : Bytes) :
    (c.exec answers query).2.statements = c.statements ∧
      (c.exec answers query).2.live =
        c.live.map fun session => (answers.execute (cStr query) session).2 := by
  unfold exec
  have hcheck : ∀ call, call = (if c.checkBeforeExec then c.checkConnection answers
      else (.ok (), c)) → call.2.statements = c.statements ∧ call.2.live = c.live ∧
        ∀ e, call.1 = .error e → c.live = none := by
    rintro call rfl
    split
    · exact checkConnection_live answers c
    · exact ⟨rfl, rfl, fun _ he => nomatch he⟩
  replace hcheck := hcheck _ rfl
  generalize (if c.checkBeforeExec then c.checkConnection answers else (.ok (), c)) = call
    at hcheck ⊢
  obtain ⟨result, d⟩ := call
  cases result with
  | ok _ =>
    obtain ⟨hstatements, hlive, -⟩ := request_live answers d (answers.execute (cStr query))
    exact ⟨hstatements.trans hcheck.1, hlive.trans (by rw [hcheck.2.1])⟩
  | error e =>
    refine ⟨hcheck.1, hcheck.2.1.trans ?_⟩
    rw [hcheck.2.2 e rfl]
    rfl

/-- `register_statement` changes nothing, or it prepares the statement in the live session and
registers it. -/
theorem registerStatement_cases (answers : PgAnswers) (c : PostgreSQLClient) (stn st : Bytes) :
    ((c.registerStatement answers stn st).2.statements = c.statements ∧
        (c.registerStatement answers stn st).2.live = c.live) ∨
      ∃ session, c.live = some session ∧
        (c.registerStatement answers stn st).2.statements = c.statements.insert stn st ∧
        (c.registerStatement answers stn st).2.live =
          some { session with prepared := cStr stn :: session.prepared } := by
  unfold registerStatement
  split
  · exact Or.inl ⟨rfl, rfl⟩
  · obtain ⟨hstatements, hlive, hresult⟩ := request_live answers c (servePrepare answers stn st)
    generalize c.request answers (servePrepare answers stn st) = call at hstatements hlive hresult ⊢
    obtain ⟨result, d⟩ := call
    cases result with
    | ok _ =>
      obtain ⟨session, hsession, haccepted⟩ := hresult.mp rfl
      have hprepare : answers.prepare (cStr stn) (cStr st) session = true := by
        by_contra hn
        simp [servePrepare, hn] at haccepted
      refine Or.inr ⟨session, hsession, congrArg (Finmap.insert stn st) hstatements, ?_⟩
      rw [hsession, Option.map_some, servePrepare, if_pos hprepare] at hlive
      exact hlive
    | error e =>
      refine Or.inl ⟨hstatements, hlive.trans ?_⟩
      cases hsession : c.live with
      | none => rfl
      | some session =>
        have hn : answers.prepare (cStr stn) (cStr st) session ≠ true := fun hprepare =>
          nomatch hresult.mpr ⟨session, hsession, by simp [servePrepare, hprepare]⟩
        simp [servePrepare, hn]

/-! ## The registry -/

theorem registry_congr {c c' : PostgreSQLClient} (hs : c.Registry)
    (hstatements : c'.statements = c.statements) (hlive : c'.live = c.live) : c'.Registry := by
  intro session hsession stn hstn
  exact hs session (hlive ▸ hsession) stn (hstatements ▸ hstn)

/-- Without a live session there is nothing to match. -/
theorem registry_of_not_live {c : PostgreSQLClient} (h : c.live = none) : c.Registry := by
  intro session hsession
  rw [h] at hsession
  cases hsession

/-- In a session without prepared statements the registry matches exactly if it is empty. -/
theorem registry_of_opened {c c' : PostgreSQLClient} (hstatements : c'.statements = c.statements)
    (hlive : c'.live = some {}) : c'.Registry ↔ c.Unregistered := by
  constructor
  · intro hs stn hstn
    exact List.not_mem_nil (hs {} hlive stn (hstatements ▸ hstn))
  · intro hnone session _ stn hstn
    exact absurd (hstatements ▸ hstn) (hnone stn)

/-- In the live session after a request, the registry matches exactly if what the request left
there contains the registered names. -/
theorem registry_of_request {c c' : PostgreSQLClient} {serve : Session → Session}
    (hstatements : c'.statements = c.statements) (hlive : c'.live = c.live.map serve) :
    c'.Registry ↔ ∀ session, c.live = some session →
      ∀ stn ∈ c.statements, cStr stn ∈ (serve session).prepared := by
  constructor
  · intro hs session hsession stn hstn
    refine hs (serve session) ?_ stn (hstatements ▸ hstn)
    rw [hlive, hsession, Option.map_some]
  · intro h session' hsession' stn hstn
    rw [hlive] at hsession'
    obtain ⟨session, hsession, rfl⟩ := Option.map_eq_some_iff.mp hsession'
    exact h session hsession stn (hstatements ▸ hstn)

theorem registry_registerStatement {c : PostgreSQLClient} (hs : c.Registry) (answers : PgAnswers)
    (stn st : Bytes) : (c.registerStatement answers stn st).2.Registry := by
  rcases registerStatement_cases answers c stn st with
    ⟨hstatements, hlive⟩ | ⟨session, hsession, hstatements, hlive⟩
  · exact registry_congr hs hstatements hlive
  · intro session' hsession' stn' hstn'
    rw [hlive] at hsession'
    obtain rfl := Option.some.inj hsession'
    rw [hstatements, Finmap.mem_insert] at hstn'
    rcases hstn' with rfl | hstn'
    · exact List.mem_cons_self
    · exact List.mem_cons_of_mem _ (hs session hsession stn' hstn')

theorem registry_registerAll (answers : PgAnswers) : ∀ (statements : List (Bytes × Bytes))
    {c : PostgreSQLClient}, c.Registry → (registerAll answers statements c).2.Registry
  | [], _, hs => hs
  | (stn, st) :: rest, c, hs => by
    have hfirst := registry_registerStatement hs answers stn st
    rw [registerAll]
    generalize c.registerStatement answers stn st = call at hfirst ⊢
    obtain ⟨result, d⟩ := call
    cases result with
    | ok _ => exact registry_registerAll answers rest hfirst
    | error e => exact hfirst

/-- **A step keeps the registry exactly if it meets the condition.** -/
theorem registry_step {s s' : PostgreSQLClient} {e : Event} (hs : s.Registry)
    (h : step s e = some s') : s'.Registry ↔ s.Keeps e := by
  cases e with
  | connect answers =>
    obtain rfl := Option.some.inj h
    obtain ⟨hstatements, hlive⟩ := connect_live answers s
    cases hconnected : answers.connected with
    | true =>
      rw [hconnected] at hlive
      exact (registry_of_opened hstatements hlive).trans ⟨fun h _ => h, fun h => h hconnected⟩
    | false =>
      rw [hconnected] at hlive
      exact iff_of_true (registry_of_not_live hlive) fun hc => by simp [hconnected] at hc
  | disconnect =>
    obtain rfl := Option.some.inj h
    exact iff_of_true (registry_of_not_live rfl) trivial
  | checkConnection answers =>
    obtain rfl := Option.some.inj h
    obtain ⟨hstatements, hlive, -⟩ := checkConnection_live answers s
    exact iff_of_true (registry_congr hs hstatements hlive) trivial
  | exec query answers =>
    obtain rfl := Option.some.inj h
    obtain ⟨hstatements, hlive⟩ := exec_live answers s query
    exact registry_of_request hstatements hlive
  | execPrepared stmtName answers =>
    obtain rfl := Option.some.inj h
    obtain ⟨hstatements, hlive, -⟩ := request_live answers s (serveExecPrepared answers stmtName)
    exact registry_of_request hstatements hlive
  | registerStatement stn st answers =>
    obtain rfl := Option.some.inj h
    exact iff_of_true (registry_registerStatement hs answers stn st) trivial
  | registerEmbeddedStatements answers =>
    obtain rfl := Option.some.inj h
    exact iff_of_true (registry_registerAll answers embeddedStatements hs) trivial
  | lost =>
    obtain rfl := Option.some.inj h
    refine iff_of_true (registry_of_not_live ?_) trivial
    unfold live
    cases s.conn <;> simp [PGconn.live]
  | polled completed =>
    simp only [step] at h
    split at h
    · obtain rfl := Option.some.inj h
      cases completed with
      | true => exact (registry_of_opened rfl rfl).trans ⟨fun h _ => h, fun h => h rfl⟩
      | false => exact iff_of_true (registry_of_not_live rfl) nofun
    · cases h

/-- **The registry matches the live session** in every state of a run exactly when every step of
the run meets `Keeps`. -/
theorem registry_iff (connectString : Bytes) (minPgversion : Int) (es : List Event) :
    Everywhere step Registry (fresh connectString minPgversion) es ↔
      Always step Keeps (fresh connectString minPgversion) es :=
  everywhere_iff_always (fun _ hs => hs) (fun _ _ _ hs h hok => (registry_step hs h).mpr hok)
    (fun _ _ _ hs h hbad => fun hs' => hbad ((registry_step hs h).mp hs'))
    (registry_of_not_live rfl)

/-- A name that is refused as registered is found when it is executed in the live session. -/
theorem found_of_registered {c : PostgreSQLClient} (hs : c.Registry) {stn : Bytes}
    (hstn : stn ∈ c.statements) (answers : PgAnswers) {session : Session}
    (hsession : c.live = some session) :
    serveExecPrepared answers stn session = answers.executePrepared (cStr stn) session :=
  if_pos (hs session hsession stn hstn)

/-- A server that accepts everything. -/
def willing : PgAnswers where
  connected := true
  serverVersion := 90600
  pingOk := true
  execute _ session := (true, session)
  prepare _ _ _ := true
  executePrepared _ session := (true, session)
  errorMessage := []

/-- The connection is lost and `connect` opens another session: the statement stays registered. -/
theorem not_registry_reconnect :
    ¬ Everywhere step Registry (fresh (ascii "host=postgres") 90500)
      [.connect willing,
        .registerStatement (ascii "test_stmt") (ascii "SELECT * FROM pg_indexes") willing, .lost,
        .connect willing] := by
  rw [everywhere_iff_reached]
  intro h
  have hs := h _ _ (List.prefix_refl _) rfl
  exact absurd (hs {} rfl (ascii "test_stmt") (by decide)) List.not_mem_nil

end PostgreSQLClient

end WinterWind.Databases
