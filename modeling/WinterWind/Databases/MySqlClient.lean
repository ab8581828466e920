import WinterWind.Basic

/-!
# The MySQL client (`src/core/databases/mysqlclient.cpp`)

`MySQLClient` and the sessions of the server it talks to. A session is a number: `started` counts
the sessions `mysql_real_connect` has opened, and `executed` records every statement with the
session it ran in.

* libmysqlclient is a list of `Answers`, one for each statement: whether the connection is alive
  when it is pinged, and what the other calls return. `mysql_ping` returns 0 on a live connection.
* A call ends normally or by throwing, and the state is kept in both cases. The texts of the
  exceptions are the source's, around the texts of `mysql_error` and `mysql_errno`.
* A null `MYSQL*` given to the library is undefined behaviour.

Results:
* `exec_alive`: on a live connection `exec` runs its statement in a session of its own, because
  the test of `check_connection` is inverted.
* **`run_alive`**: the statements of a run are executed in consecutive sessions.
* **`not_oneSession`**: no transaction on a live connection stays in one session.
-/

namespace WinterWind.Databases

/-- `MYSQL`: the session it is connected to, if any. -/
structure Mysql where
  session : Option Nat
  deriving Repr, DecidableEq

/-- `MySQLClient`. -/
structure MySQLClient where
  host : Bytes
  user : Bytes
  password : Bytes
  port : UInt16 := 3306
  db : Bytes := []
  conn : Option Mysql := none
  checkBeforeExec : Bool := true
  deriving Repr, DecidableEq

/-- The client, the number of sessions started, and the statements executed so far. -/
structure State where
  client : MySQLClient
  started : Nat := 0
  executed : List (Nat × Bytes) := []
  deriving Repr, DecidableEq

/-- What `mysql_real_connect` is called with. -/
structure ConnectArgs where
  host : Bytes
  user : Bytes
  password : Bytes
  db : Option Bytes
  port : UInt16

/-- What the library calls of one `exec` find or return. -/
structure Answers where
  alive : Bool
  init : Bool
  realConnect : ConnectArgs → Bool
  realQuery : Bytes → Bool
  useResult : Bool
  error : Bytes
  errno : Bytes

/-- How a call can end without returning. -/
inductive Thrown where
  | mysqlException (what : Bytes)
  | undefinedBehaviour
  deriving Repr, DecidableEq

/-- `MySQLException(what)`. -/
def mysqlException (what : Bytes) : Thrown := .mysqlException (ascii "MySQL Exception: " ++ what)

/-- The end of a call and the state it leaves. -/
abbrev Call := Except Thrown Unit × State

/-- The statements after a call, skipped when it throws. -/
def Call.andThen (call : Call) (next : State → Call) : Call :=
  match call with
  | (.ok _, s) => next s
  | (.error e, s) => (.error e, s)

/-- `mysql_ping`. -/
def mysqlPing (conn : Mysql) (answers : Answers) : Nat :=
  if conn.session.isSome && answers.alive then 0 else 1

/-- `MySQLClient::disconnect`. -/
def disconnect (s : State) : State := { s with client := { s.client with conn := none } }

/-- The arguments `connect` passes. -/
def MySQLClient.connectArgs (client : MySQLClient) : ConnectArgs where
  host := cStr client.host
  user := cStr client.user
  password := cStr client.password
  db := if client.db.isEmpty then none else some (cStr client.db)
  port := client.port

/-- `MySQLClient::connect`. -/
def connect (answers : Answers) (s : State) : Call :=
  let s := if s.client.conn.isSome then disconnect s else s
  if !answers.init then
    (.error (mysqlException (ascii "unable to init client " ++ answers.error)),
      { s with client := { s.client with conn := none } })
  else if answers.realConnect s.client.connectArgs then
    (.ok (), { s with
      client := { s.client with conn := some ⟨some s.started⟩ }
      started := s.started + 1 })
  else
    (.error (mysqlException (ascii "connection failed " ++ answers.error)),
      { s with client := { s.client with conn := some ⟨none⟩ } })

/-- `MySQLClient::check_connection`: the connection is reopened when `mysql_ping` returns 0. -/
def checkConnection (answers : Answers) (s : State) : Call :=
  match s.client.conn with
  | none => (.error .undefinedBehaviour, s)
  | some conn => if mysqlPing conn answers = 0 then connect answers (disconnect s) else (.ok (), s)

/-- `mysql_real_query` and the construction of the `MySQLResult`. -/
def sendQuery (query : Bytes) (answers : Answers) (s : State) : Call :=
  match s.client.conn with
  | none => (.error .undefinedBehaviour, s)
  | some conn =>
    match conn.session with
    | some session =>
      if answers.realQuery query then
        let s := { s with executed := s.executed ++ [(session, query)] }
        if answers.useResult then (.ok (), s)
        else
          (.error (mysqlException (ascii "MySQLResult failed (errno: " ++ answers.errno ++
            ascii "): '" ++ answers.error ++ ascii "'")), s)
      else (.error (mysqlException (ascii "query failed " ++ answers.error)), s)
    | none => (.error (mysqlException (ascii "query failed " ++ answers.error)), s)

/-- `MySQLClient::exec`. -/
def exec (query : Bytes) (answers : Answers) (s : State) : Call :=
  Call.andThen (if s.client.checkBeforeExec then checkConnection answers s else (.ok (), s))
    (sendQuery query answers)

/-- `MySQLClient::begin`, `commit` and `rollback`. -/
def begin_ : Answers → State → Call := exec (ascii "BEGIN")
def commit : Answers → State → Call := exec (ascii "COMMIT")
def rollback : Answers → State → Call := exec (ascii "ROLLBACK")

/-- How a transaction ends. -/
inductive Ending where
  | commit
  | rollback
  deriving Repr, DecidableEq

/-- The statement an ending sends. -/
def Ending.statement : Ending → Bytes
  | .commit => ascii "COMMIT"
  | .rollback => ascii "ROLLBACK"

/-- Calls of `exec` one after the other, up to the first that throws. -/
def run : List (Bytes × Answers) → State → Call
  | [], s => (.ok (), s)
  | (query, answers) :: rest, s => (exec query answers s).andThen (run rest)

/-- `begin(); exec(q1); ...; exec(qn);` and `commit();` or `rollback();`. -/
def transaction (first : Answers) (queries : List (Bytes × Answers)) (ending : Ending)
    (last : Answers) (s : State) : Call :=
  (begin_ first s).andThen fun s => (run queries s).andThen
    (match ending with
      | .commit => commit last
      | .rollback => rollback last)

/-- The statements of a transaction, each with its answers. -/
def statements (first : Answers) (queries : List (Bytes × Answers)) (ending : Ending)
    (last : Answers) : List (Bytes × Answers) :=
  (ascii "BEGIN", first) :: (queries ++ [(ending.statement, last)])

/-! ## One statement on a live connection -/

/-- The client is connected to a session and checks before it executes. -/
structure Connected (s : State) : Prop where
  session : ∃ session, s.client.conn = some ⟨some session⟩
  check : s.client.checkBeforeExec = true

/-- `connect` throws and executes nothing, or opens the next session. -/
theorem connect_cases (answers : Answers) (s : State) :
    (∃ e, (connect answers s).1 = .error e ∧ (connect answers s).2.executed = s.executed) ∨
      ∃ s', connect answers s = (.ok (), s') ∧ s'.client.conn = some ⟨some s.started⟩ ∧
        s'.client.checkBeforeExec = s.client.checkBeforeExec ∧ s'.started = s.started + 1 ∧
        s'.executed = s.executed := by
  have hkeep : (if s.client.conn.isSome then disconnect s else s) = s ∨
      (if s.client.conn.isSome then disconnect s else s) = disconnect s := by
    by_cases h : s.client.conn.isSome
    · rw [if_pos h]
      exact Or.inr rfl
    · rw [if_neg h]
      exact Or.inl rfl
  unfold connect
  rcases hkeep with h | h
  all_goals
    rw [h]
    dsimp only
    split
    · exact Or.inl ⟨_, rfl, rfl⟩
    · split
      · exact Or.inr ⟨_, rfl, rfl, rfl, rfl, rfl⟩
      · exact Or.inl ⟨_, rfl, rfl⟩

/-- `sendQuery` throws after executing the statement at most, or executes it and returns. -/
theorem sendQuery_cases {s : State} {session : Nat} (h : s.client.conn = some ⟨some session⟩)
    (query : Bytes) (answers : Answers) :
    (∃ e, (sendQuery query answers s).1 = .error e ∧
      ((sendQuery query answers s).2.executed = s.executed ∨
        (sendQuery query answers s).2.executed = s.executed ++ [(session, query)])) ∨
      sendQuery query answers s =
        (.ok (), { s with executed := s.executed ++ [(session, query)] }) := by
  unfold sendQuery
  rw [h]
  dsimp only
  split
  · split
    · exact Or.inr rfl
    · exact Or.inl ⟨_, rfl, Or.inr rfl⟩
  · exact Or.inl ⟨_, rfl, Or.inl rfl⟩

/-- A live connection is closed and opened again by the check. -/
theorem checkConnection_alive {s : State} (hs : Connected s) {answers : Answers}
    (halive : answers.alive = true) :
    checkConnection answers s = connect answers (disconnect s) := by
  obtain ⟨session, hconn⟩ := hs.session
  unfold checkConnection
  rw [hconn]
  simp [mysqlPing, halive]

/-- **On a live connection `exec` starts a session and uses that one.** When it returns, the
statement was executed there and the client is connected; when it throws, at most that statement
was executed, and in that session. -/
theorem exec_alive {s : State} (hs : Connected s) (query : Bytes) {answers : Answers}
    (halive : answers.alive = true) :
    (∃ e, (exec query answers s).1 = .error e ∧
      ((exec query answers s).2.executed = s.executed ∨
        (exec query answers s).2.executed = s.executed ++ [(s.started, query)])) ∨
    ∃ s', exec query answers s = (.ok (), s') ∧ Connected s' ∧ s'.started = s.started + 1 ∧
      s'.executed = s.executed ++ [(s.started, query)] := by
  unfold exec
  rw [if_pos hs.check, checkConnection_alive hs halive]
  rcases connect_cases answers (disconnect s) with
    ⟨e, he, hexec⟩ | ⟨s', h, hconn, hcheck, hstarted, hexec⟩
  · refine Or.inl ⟨e, ?_⟩
    generalize connect answers (disconnect s) = call at he hexec
    obtain ⟨end_, s'⟩ := call
    subst he
    exact ⟨rfl, Or.inl hexec⟩
  · rw [h, Call.andThen]
    rcases sendQuery_cases hconn query answers with ⟨e, he, hexec'⟩ | h'
    · rw [hexec] at hexec'
      exact Or.inl ⟨e, he, hexec'⟩
    · rw [h']
      refine Or.inr ⟨_, rfl, ⟨⟨_, hconn⟩, hcheck.trans hs.check⟩, hstarted, ?_⟩
      exact congrArg (· ++ [(s.started, query)]) hexec

/-! ## A whole run -/

/-- The statements with the sessions from `started` on. -/
def consecutive : Nat → List Bytes → List (Nat × Bytes)
  | _, [] => []
  | started, query :: rest => (started, query) :: consecutive (started + 1) rest

/-- **Every statement has a session of its own.** What a run on a live connection executes is a
prefix of its statements, in consecutive sessions. -/
theorem run_alive : ∀ (queries : List (Bytes × Answers)) {s : State}, Connected s →
    (∀ q ∈ queries, q.2.alive = true) →
      ∃ done, done <+: queries.map Prod.fst ∧
        (run queries s).2.executed = s.executed ++ consecutive s.started done
  | [], s, _, _ => ⟨[], List.nil_prefix, (List.append_nil _).symm⟩
  | (query, answers) :: rest, s, hs, halive => by
    rw [List.forall_mem_cons] at halive
    rw [List.map_cons, run]
    rcases exec_alive hs query halive.1 with ⟨e, he, hexec⟩ | ⟨s', h, hs', hstarted, hexec⟩
    · generalize exec query answers s = call at he hexec
      obtain ⟨end_, s'⟩ := call
      subst he
      rcases hexec with hexec | hexec
      · exact ⟨[], List.nil_prefix, hexec.trans (List.append_nil _).symm⟩
      · exact ⟨[query], List.prefix_cons_inj query |>.mpr List.nil_prefix, hexec⟩
    · obtain ⟨done, hdone, hrest⟩ := run_alive rest hs' halive.2
      rw [h, Call.andThen]
      refine ⟨query :: done, (List.prefix_cons_inj query).mpr hdone, ?_⟩
      rw [hrest, hexec, hstarted, consecutive, List.append_assoc]
      rfl

/-- A transaction is a run. -/
theorem transaction_eq_run (first : Answers) (queries : List (Bytes × Answers)) (ending : Ending)
    (last : Answers) (s : State) :
    transaction first queries ending last s = run (statements first queries ending last) s := by
  have hone : ∀ (q : Bytes × Answers), run [q] = exec q.1 q.2 := by
    intro q
    funext s
    rw [run]
    unfold Call.andThen
    split <;> rename_i h <;> simp [run, h]
  have hrun : ∀ (qs rs : List (Bytes × Answers)), run (qs ++ rs) =
      fun s => (run qs s).andThen (run rs) := by
    intro qs rs
    induction qs with
    | nil => rfl
    | cons q qs ih =>
      funext s
      rw [List.cons_append, run, run, ih]
      unfold Call.andThen
      split <;> rfl
  rw [statements, run, hrun, hone]
  unfold transaction begin_
  cases ending <;> rfl

/-- All statements of the transaction are executed, in one session. -/
def OneSession (first : Answers) (queries : List (Bytes × Answers)) (ending : Ending)
    (last : Answers) (s : State) : Prop :=
  ∃ session, (transaction first queries ending last s).2.executed =
    s.executed ++ (statements first queries ending last).map fun q => (session, q.1)

/-- **No transaction stays in one session** while the connection is alive: either some statement
is not executed, or the first two are executed in different sessions. -/
theorem not_oneSession (first : Answers) (queries : List (Bytes × Answers)) (ending : Ending)
    (last : Answers) (s : State) (hs : Connected s)
    (halive : ∀ q ∈ statements first queries ending last, q.2.alive = true) :
    ¬OneSession first queries ending last s := by
  rintro ⟨session, h⟩
  obtain ⟨done, hdone, hexec⟩ := run_alive _ hs halive
  rw [transaction_eq_run, hexec, List.append_cancel_left_eq, statements, List.map_cons] at h
  match done, h with
  | [], h => exact absurd h (by simp [consecutive])
  | [a], h => simp [consecutive] at h
  | a :: b :: rest, h =>
    -- the first two statements of the run have consecutive sessions
    cases queries with
    | nil =>
      simp only [consecutive, List.nil_append, List.map_cons, List.cons.injEq, Prod.mk.injEq] at h
      omega
    | cons q queries =>
      simp only [consecutive, List.cons_append, List.map_cons, List.cons.injEq,
        Prod.mk.injEq] at h
      omega

/-- A connected client. -/
def connectedState : State where
  client :=
    { host := ascii "localhost", user := ascii "user", password := [], conn := some ⟨some 0⟩ }
  started := 1

/-- Every call succeeds on a live connection. -/
def allWell : Answers where
  alive := true
  init := true
  realConnect _ := true
  realQuery _ := true
  useResult := true
  error := []
  errno := ascii "0"

theorem not_oneSession_insert :
    ¬OneSession allWell [(ascii "INSERT INTO t VALUES (1)", allWell)] .commit allWell
      connectedState :=
  not_oneSession _ _ _ _ _ ⟨⟨0, rfl⟩, rfl⟩ (by decide)

/-- With every call successful, `BEGIN`, the insert and `COMMIT` run in the sessions 1, 2 and 3. -/
theorem transaction_insert :
    (transaction allWell [(ascii "INSERT INTO t VALUES (1)", allWell)] .commit allWell
      connectedState).2.executed =
        [(1, ascii "BEGIN"), (2, ascii "INSERT INTO t VALUES (1)"), (3, ascii "COMMIT")] ∧
    ¬OneSession allWell [(ascii "INSERT INTO t VALUES (1)", allWell)] .commit allWell
      connectedState := by
  have h : (transaction allWell [(ascii "INSERT INTO t VALUES (1)", allWell)] .commit allWell
      connectedState).2.executed =
        [(1, ascii "BEGIN"), (2, ascii "INSERT INTO t VALUES (1)"), (3, ascii "COMMIT")] := by
    decide
  refine ⟨h, ?_⟩
  rintro ⟨session, hone⟩
  rw [h] at hone
  simp only [connectedState, statements, Ending.statement, List.nil_append, List.cons_append,
    List.map_cons, List.cons.injEq, Prod.mk.injEq] at hone
  omega

end WinterWind.Databases
