import WinterWind.Databases.MySqlClient
import WinterWind.Databases.PostgreSqlClient

/-!
# `DatabaseInterface::check_connection` (`include/core/databases/database.h`)

The interface asks `check_connection` to fix a connection that does not work or to throw a
`DatabaseException`. `Contract` states it for both clients: a usable connection is left alone, and
the call throws the client's exception or returns with a usable connection.

* A connection of `PostgreSQLClient` is usable when its status is `CONNECTION_OK` and its session
  lives: `PQexec` fails on any other. A session that died unnoticed leaves the status as it was.
* A connection of `MySQLClient` is usable when `mysql_ping` returns 0. One that `connect` opened
  during the call is usable.

Results:
* **`contract_iff`**: `PostgreSQLClient` keeps the contract when the connection is usable, and when
  it is known to be bad while the server does not answer the ping, and at no other time;
  `MySQLClient` never keeps it.
-/

namespace WinterWind.Databases

/-- The contract of `check_connection`, for a client of type `σ` whose exceptions are those with
`Throws`. -/
structure Contract {σ ε : Type} (Throws : ε → Prop) (UsableBefore : Prop) (UsableAfter : σ → Prop)
    (before : σ) (call : Except ε Unit × σ) : Prop where
  unchanged : UsableBefore → call.2 = before
  fixed : (∃ e, call.1 = .error e ∧ Throws e) ∨ (call.1 = .ok () ∧ UsableAfter call.2)

/-! ## PostgreSQL -/

namespace PostgreSQLClient

/-- The next request will be executed. -/
def Usable (c : PostgreSQLClient) : Prop := c.live.isSome = true

/-- The contract for `PostgreSQLClient`, whose only exception is `PostgreSQLException`. -/
def CheckContract (answers : PgAnswers) (c : PostgreSQLClient) : Prop :=
  Contract (fun _ => True) c.Usable Usable c (c.checkConnection answers)

/-- The connection is usable, or libpq knows that it is not and the server does not answer. -/
def UsableOrDown (answers : PgAnswers) (c : PostgreSQLClient) : Prop :=
  c.Usable ∨ (pqStatus c.conn ≠ .ok ∧ answers.pingOk = false)

theorem status_of_usable {c : PostgreSQLClient} (h : c.Usable) : pqStatus c.conn = .ok := by
  by_contra hn
  rw [Usable, live_of_status_ne hn] at h
  cases h

theorem checkContract_iff (answers : PgAnswers) (c : PostgreSQLClient) :
    c.CheckContract answers ↔ c.UsableOrDown answers := by
  have hlive := (checkConnection_live answers c).2.1
  constructor
  · rintro ⟨-, ⟨e, he, -⟩ | ⟨-, husable⟩⟩
    · -- It throws only when the ping fails.
      right
      unfold checkConnection at he
      split at he
      · cases he
      · rename_i hstatus
        split at he
        · rename_i hping
          exact ⟨hstatus, by simpa using hping⟩
        · cases he
    · -- It never makes a connection usable.
      rw [Usable, hlive] at husable
      exact Or.inl husable
  · rintro (husable | ⟨hstatus, hping⟩)
    · have hsame : c.checkConnection answers = (.ok (), c) := if_pos (status_of_usable husable)
      rw [CheckContract, hsame]
      exact ⟨fun _ => rfl, Or.inr ⟨rfl, husable⟩⟩
    · have hthrow : c.checkConnection answers =
          (.error (databaseError answers.errorMessage), c) := by
        unfold checkConnection
        rw [if_neg hstatus, hping]
        rfl
      rw [CheckContract, hthrow]
      exact ⟨fun _ => rfl, Or.inl ⟨_, rfl, trivial⟩⟩

end PostgreSQLClient

/-! ## MySQL -/

namespace MySQLClient

/-- The exception is a `MySQLException`. -/
def IsException : Thrown → Prop
  | .mysqlException _ => True
  | .undefinedBehaviour => False

/-- `mysql_ping` returns 0. -/
def Usable (answers : Answers) (s : State) : Prop :=
  ∃ conn, s.client.conn = some conn ∧ mysqlPing conn answers = 0

/-- After the call, the client is connected to the session it had, which lives, or to one that was
opened during the call. -/
def UsableAfter (answers : Answers) (s s' : State) : Prop :=
  (∃ session, s'.client.conn = some ⟨some session⟩) ∧
    (answers.alive = true ∨ s.started < s'.started)

/-- The contract for `MySQLClient`. -/
def CheckContract (answers : Answers) (s : State) : Prop :=
  Contract IsException (Usable answers s) (UsableAfter answers s) s (checkConnection answers s)

/-- `connect` never leaves the connection as it was. -/
theorem connect_ne {answers : Answers} {s : State} {conn : Mysql}
    (h : s.client.conn = some conn) (hsession : conn.session.isSome = true) :
    (connect answers (disconnect s)).2 ≠ s := by
  intro hsame
  unfold connect at hsame
  simp only [disconnect, Option.isSome_none, Bool.false_eq_true, if_false] at hsame
  split at hsame
  · have hconn := congrArg (fun s => s.client.conn) hsame
    rw [h] at hconn
    cases hconn
  · split at hsame
    · have hstarted := congrArg State.started hsame
      simp at hstarted
    · have hconn := congrArg (fun s => s.client.conn) hsame
      rw [h] at hconn
      obtain rfl := Option.some.inj hconn
      cases hsession

/-- **`MySQLClient` never keeps the contract.** A live connection is opened again, a lost one is
left as it is. -/
theorem not_checkContract (answers : Answers) (s : State) : ¬ CheckContract answers s := by
  rintro ⟨hunchanged, hfixed⟩
  unfold checkConnection at hunchanged hfixed
  cases hconn : s.client.conn with
  | none =>
    rw [hconn] at hfixed
    rcases hfixed with ⟨e, he, hthrows⟩ | ⟨he, -⟩
    · obtain rfl := Except.error.inj he
      exact hthrows
    · cases he
  | some conn =>
    rw [hconn] at hunchanged hfixed
    dsimp only at hunchanged hfixed
    by_cases hping : mysqlPing conn answers = 0
    · rw [if_pos hping] at hunchanged
      have hsession : conn.session.isSome = true := by
        by_contra hn
        simp [mysqlPing, hn] at hping
      exact connect_ne hconn hsession (hunchanged ⟨conn, hconn, hping⟩)
    · rw [if_neg hping] at hfixed
      rcases hfixed with ⟨e, he, -⟩ | ⟨-, ⟨session, hsession⟩, halive | hstarted⟩
      · cases he
      · obtain rfl := Option.some.inj (hconn.symm.trans hsession)
        exact hping (by simp [mysqlPing, halive])
      · exact absurd hstarted (Nat.lt_irrefl _)

end MySQLClient

/-! ## Both clients -/

/-- **When `check_connection` keeps its contract**: `PostgreSQLClient`, exactly when the connection
is usable, or known not to be while the server is down; `MySQLClient`, never. -/
theorem contract_iff (pgAnswers : PgAnswers) (c : PostgreSQLClient) (answers : Answers)
    (s : State) :
    (PostgreSQLClient.CheckContract pgAnswers c ↔ PostgreSQLClient.UsableOrDown pgAnswers c) ∧
      ¬ MySQLClient.CheckContract answers s :=
  ⟨PostgreSQLClient.checkContract_iff pgAnswers c, MySQLClient.not_checkContract answers s⟩

/-- A PostgreSQL connection that was lost while the database is up is not usable after the check,
and a MySQL connection that works is replaced by it. -/
theorem not_contract_lost :
    ¬ PostgreSQLClient.CheckContract PostgreSQLClient.willing
        { connectString := ascii "host=postgres", conn := some ⟨.bad, none⟩ } ∧
      ¬ MySQLClient.CheckContract allWell connectedState := by
  refine ⟨fun h => ?_, fun h => ?_⟩
  · rcases h.fixed with ⟨e, he, -⟩ | ⟨-, husable⟩
    · cases he
    · cases husable
  · have hsame := h.unchanged ⟨_, rfl, by decide⟩
    exact absurd (congrArg State.started hsame) (by decide)

end WinterWind.Databases
