import WinterWind.Databases.PostgreSqlClient
import WinterWind.Library.Transactions
import WinterWind.Library.Simulation

/-!
# Transactions of the PostgreSQL client (`begin`, `commit`, `rollback`)

The client of `PostgreSqlClient` together with the data of its server. `begin`, `commit` and
`rollback` are `exec` with a fixed text, and nothing in the client knows that a transaction is open.

* `Sql` says what a text may mean to the server; the time, chance or a limit may decide. What a
  prepared statement means is left open, except that one the session does not have is refused. A
  statement is transaction control or work on the data, whose checks may be put off to the commit:
  there are no savepoints, and only statements that work on the data are prepared. No other session
  writes to the data, and sequences, which are not rolled back, are no part of it.
* The client throws at an answer that is neither `PGRES_COMMAND_OK` nor `PGRES_TUPLES_OK`. An empty
  statement and one that copies rows out have such an answer, and do not abort the transaction.
* A session that ends drops its transaction: `connect`, `disconnect`, a loss of the connection and
  the end of a polled reset end it. A loss in the middle of a request comes before the server has
  executed it or takes only its answer (`SqlStep.cut`).
* Every event is recorded with whether its call returned. `register_embedded_statements` is recorded
  as the calls of `register_statement` it makes (`step_registerEmbedded`).

Results:
* `exec_isOk`, `execPrepared_isOk`, `registerStatement_isOk`: a request returns iff the server has
  executed it with success.
* `open_step`, `closed_step`: what a step does to the transaction.
* **`transaction_atomic`**: between `begin` and `commit` nothing is visible, and after it everything
  is or nothing, as long as no session is opened in between. If `commit` returns, it is everything
  if every call in between has returned, and nothing if one has thrown at a refusal.
-/

namespace WinterWind.Databases

open Library

/-- What the texts of statements may mean to a server with data of type `δ`. -/
structure Sql (δ : Type) where
  means : Bytes → Command δ → Prop
  begin_of : ∀ command, means (ascii "BEGIN;") command → command = .begin
  commit_of : ∀ command, means (ascii "COMMIT;") command → ∃ check, command = .commit check
  rollback_of : ∀ command, means (ascii "ROLLBACK;") command → command = .rollback

namespace PostgreSQLClient

/-- `PostgreSQLClient::begin` -/
def beginTransaction (answers : PgAnswers) (c : PostgreSQLClient) : PgCall Unit :=
  c.exec answers (ascii "BEGIN;")

/-- `PostgreSQLClient::commit` -/
def commit (answers : PgAnswers) (c : PostgreSQLClient) : PgCall Unit :=
  c.exec answers (ascii "COMMIT;")

/-- `PostgreSQLClient::rollback` -/
def rollback (answers : PgAnswers) (c : PostgreSQLClient) : PgCall Unit :=
  c.exec answers (ascii "ROLLBACK;")

/-- The call returns. -/
def returns (c : PostgreSQLClient) : Event → Bool
  | .connect answers => (c.connect answers).1.isOk
  | .checkConnection answers => (c.checkConnection answers).1.isOk
  | .exec query answers => (c.exec answers query).1.isOk
  | .execPrepared stmtName answers => (c.execPrepared answers stmtName).1.isOk
  | .registerStatement stn st answers => (c.registerStatement answers stn st).1.isOk
  | .registerEmbeddedStatements answers => (c.registerEmbeddedStatements answers).1.isOk
  | _ => true

/-- The answer of the server to the request of an event, in its session. -/
def answer (c : PostgreSQLClient) (session : Session) : Event → Option Bool
  | .exec query answers => some (answers.execute (cStr query) session).1
  | .execPrepared stmtName answers => some (serveExecPrepared answers stmtName session).1
  | .registerStatement stn st answers =>
    if stn ∈ c.statements then none else some (answers.prepare (cStr stn) (cStr st) session)
  | _ => none

/-- The request of an event, if it makes one that is executed. -/
def executes (c : PostgreSQLClient) (e : Event) : Option (Session × Bool) :=
  c.live.bind fun session => (c.answer session e).map (session, ·)

end PostgreSQLClient

/-- What happens to the client: the event, what its request means, and whether the call returned. -/
structure SqlEvent (δ : Type) where
  event : PostgreSQLClient.Event
  command : Command δ
  returned : Bool

/-- The client and the data of its server. -/
structure SqlSystem (δ : Type) where
  client : PostgreSQLClient
  store : Store δ

section System

variable {δ : Type} (sql : Sql δ)

/-- A statement that is refused. -/
def refuse : Command δ := .work (fun _ => none) true

open PostgreSQLClient (Event)

/-- What the request of an event may mean. -/
def Means (session : Session) (command : Command δ) : Event → Prop
  | .exec query _ => sql.means (cStr query) command
  | .execPrepared stmtName _ => cStr stmtName ∉ session.prepared → command = refuse
  | .registerStatement _ st _ => (∀ work, sql.means (cStr st) work → work.IsWork) ∧
      ∃ accepted : Bool, command = .work (fun d => if accepted then some d else none) true
  | _ => True

/-- The events that end the session. -/
def EndsSession : Event → Prop
  | .connect _ | .disconnect | .lost | .polled _ => True
  | _ => False

/-- The events that may open one. -/
def OpensSession : Event → Prop
  | .connect _ => True
  | .polled completed => completed = true
  | _ => False

/-- One event. -/
inductive SqlStep : SqlSystem δ → SqlEvent δ → SqlSystem δ → Prop
  | ends {c c' : PostgreSQLClient} {s : Store δ} {e : SqlEvent δ} (hends : EndsSession e.event)
    (hstep : c.step e.event = some c') (hret : e.returned = c.returns e.event) :
    SqlStep ⟨c, s⟩ e ⟨c', s.drop⟩
  | idle {c c' : PostgreSQLClient} {s : Store δ} {e : SqlEvent δ} (hends : ¬ EndsSession e.event)
    (hevent : ∀ answers, e.event ≠ .registerEmbeddedStatements answers)
    (hidle : c.executes e.event = none) (hstep : c.step e.event = some c')
    (hret : e.returned = c.returns e.event) : SqlStep ⟨c, s⟩ e ⟨c', s⟩
  | request {c c' : PostgreSQLClient} {s : Store δ} {e : SqlEvent δ} {session : Session}
    (hexecutes : c.executes e.event = some (session, (s.serve e.command).1))
    (hmeans : Means sql session e.command e.event) (hstep : c.step e.event = some c')
    (hret : e.returned = c.returns e.event) : SqlStep ⟨c, s⟩ e ⟨c', (s.serve e.command).2⟩
  -- the connection is lost while the call waits for the answer, which the client finds out as if
  -- it had been lost before
  | cut {c c' : PostgreSQLClient} {s s' : Store δ} {e : SqlEvent δ} {session : Session} {ok : Bool}
    (hexecutes : c.executes e.event = some (session, ok))
    (hmeans : Means sql session e.command e.event)
    (hserved : s' = s ∨ s' = (s.serve e.command).2)
    (hstep : Library.run PostgreSQLClient.step c [.lost, e.event] = some c')
    (hret : e.returned = false) : SqlStep ⟨c, s⟩ e ⟨c', s'.drop⟩

/-- The work a statement does, if it is executed: preparing one does none. -/
def SqlEvent.work (e : SqlEvent δ) : Option (δ → Option δ) :=
  match e.event, e.command with
  | .exec .., .work f _ => some f
  | .execPrepared .., .work f _ => some f
  | _, _ => none

/-- The call has returned, or would have thrown whatever its statement did. -/
def SqlEvent.sound (e : SqlEvent δ) : Bool := e.returned || !e.command.answered

/-- The work of some events, in their order. -/
def works (done : List (SqlEvent δ)) : List (δ → Option δ) := done.filterMap SqlEvent.work

end System

/-! ## When a request returns -/

namespace PostgreSQLClient

variable {answers : PgAnswers} {c : PostgreSQLClient}

theorem request_isOk (serve : Session → Bool × Session) : (c.request answers serve).1.isOk =
    (c.live.map fun session => (serve session).1).getD false := by
  have hok := (request_live answers c serve).2.2
  generalize (c.request answers serve).1 = result at hok ⊢
  cases result with
  | ok _ =>
    obtain ⟨session, hsession, haccepted⟩ := hok.mp rfl
    rw [hsession, Option.map_some, Option.getD_some, haccepted]
    rfl
  | error e =>
    cases hsession : c.live with
    | none => rfl
    | some session =>
      have hrefused : (serve session).1 ≠ true := fun h => nomatch hok.mpr ⟨session, hsession, h⟩
      rw [Option.map_some, Option.getD_some, Bool.eq_false_iff.mpr hrefused]
      rfl

theorem status_of_live {session : Session} (h : c.live = some session) : pqStatus c.conn = .ok := by
  by_contra hn
  rw [live_of_status_ne hn] at h
  cases h

/-- **`exec` returns** iff its statement has been executed with success. -/
theorem exec_isOk (query : Bytes) : (c.exec answers query).1.isOk =
    (c.live.map fun session => (answers.execute (cStr query) session).1).getD false := by
  unfold exec
  split
  · rename_i c' hchecked
    rw [request_isOk]
    -- the check leaves the session as it is
    have hlive : c'.live = c.live := by
      split at hchecked
      · rw [← (checkConnection_live answers c).2.1, hchecked]
      · rw [(Prod.mk.inj hchecked).2]
    rw [hlive]
  · rename_i e c' hchecked
    split at hchecked
    · rw [(checkConnection_live answers c).2.2 e (by rw [hchecked])]
      rfl
    · cases hchecked

theorem execPrepared_isOk (stmtName : Bytes) : (c.execPrepared answers stmtName).1.isOk =
    (c.live.map fun session => (serveExecPrepared answers stmtName session).1).getD false :=
  request_isOk (serveExecPrepared answers stmtName)

theorem servePrepare_fst (stn st : Bytes) (session : Session) :
    (servePrepare answers stn st session).1 = answers.prepare (cStr stn) (cStr st) session := by
  unfold servePrepare
  cases answers.prepare (cStr stn) (cStr st) session <;> rfl

theorem registerStatement_isOk {stn : Bytes} (hstn : stn ∉ c.statements) (st : Bytes) :
    (c.registerStatement answers stn st).1.isOk =
      (c.live.map fun session => answers.prepare (cStr stn) (cStr st) session).getD false := by
  have hrequest := @request_isOk answers c (servePrepare answers stn st)
  simp only [servePrepare_fst] at hrequest
  rw [← hrequest]
  unfold registerStatement
  rw [if_neg hstn]
  split
  · rename_i hcall
    rw [hcall]
    rfl
  · rename_i hcall
    rw [hcall]
    rfl

/-- **A request returns** iff it is executed with success. -/
theorem returns_of_executes {e : Event} {session : Session} {ok : Bool}
    (h : c.executes e = some (session, ok)) : c.returns e = ok ∧ c.live = some session := by
  obtain ⟨session', hlive, hanswer⟩ := Option.bind_eq_some_iff.mp h
  obtain ⟨ok', hok, hpair⟩ := Option.map_eq_some_iff.mp hanswer
  obtain ⟨rfl, rfl⟩ := Prod.mk.inj hpair
  refine ⟨?_, hlive⟩
  cases e with
  | exec query answers =>
    obtain rfl := Option.some.inj hok
    rw [returns, exec_isOk, hlive]
    rfl
  | execPrepared stmtName answers =>
    obtain rfl := Option.some.inj hok
    rw [returns, execPrepared_isOk, hlive]
    rfl
  | registerStatement stn st answers =>
    simp only [answer] at hok
    split at hok
    · cases hok
    · rename_i hstn
      obtain rfl := Option.some.inj hok
      rw [returns, registerStatement_isOk hstn, hlive]
      rfl
  | connect | disconnect | checkConnection | registerEmbeddedStatements | lost | polled =>
    cases hok

/-- What does not end the session keeps it, or the lack of one. -/
theorem live_isSome_step {c' : PostgreSQLClient} {e : Event} (hends : ¬ EndsSession e)
    (hevent : ∀ answers, e ≠ .registerEmbeddedStatements answers) (h : c.step e = some c') :
    c'.live.isSome = c.live.isSome := by
  cases e with
  | checkConnection answers =>
    obtain rfl := Option.some.inj h
    rw [(checkConnection_live answers c).2.1]
  | exec query answers =>
    obtain rfl := Option.some.inj h
    rw [(exec_live answers c query).2, Option.isSome_map]
  | execPrepared stmtName answers =>
    obtain rfl := Option.some.inj h
    have hlive := (request_live answers c (serveExecPrepared answers stmtName)).2.1
    exact (congrArg Option.isSome hlive).trans Option.isSome_map
  | registerStatement stn st answers =>
    obtain rfl := Option.some.inj h
    rcases registerStatement_cases answers c stn st with ⟨-, hlive⟩ | ⟨session, hsession, -, hlive⟩
    · exact congrArg Option.isSome hlive
    · rw [hlive, hsession]
      rfl
  | registerEmbeddedStatements answers => exact absurd rfl (hevent answers)
  | connect | disconnect | lost | polled => exact absurd trivial hends

/-- What ends the session and opens none leaves the client without one. -/
theorem live_of_ends {c' : PostgreSQLClient} {e : Event} (hends : EndsSession e)
    (hopens : ¬ OpensSession e) (h : c.step e = some c') : c'.live = none := by
  cases e with
  | connect answers => exact absurd trivial hopens
  | disconnect =>
    obtain rfl := Option.some.inj h
    rfl
  | lost =>
    obtain rfl := Option.some.inj h
    unfold live
    cases c.conn <;> simp [PGconn.live]
  | polled completed =>
    obtain rfl : completed = false := Bool.eq_false_iff.mpr hopens
    simp only [step] at h
    split at h
    · obtain rfl := Option.some.inj h
      rfl
    · cases h
  | checkConnection | exec | execPrepared | registerStatement | registerEmbeddedStatements =>
    exact absurd hends id

/-- A connection that is lost in the middle of a request leaves the client without a session. -/
theorem live_of_cut {c' : PostgreSQLClient} {e : Event} (hends : ¬ EndsSession e)
    (hevent : ∀ answers, e ≠ .registerEmbeddedStatements answers)
    (h : Library.run step c [.lost, e] = some c') : c'.live = none := by
  obtain ⟨lost, hlost, hrest⟩ := Option.bind_eq_some_iff.mp h
  obtain ⟨c'', hstep, hnil⟩ := Option.bind_eq_some_iff.mp hrest
  obtain rfl := Option.some.inj hnil
  have hnone : lost.live = none := live_of_ends (e := .lost) trivial id hlost
  have hsame := live_isSome_step hends hevent hstep
  rw [hnone] at hsame
  exact Option.isNone_iff_eq_none.mp (by simpa using hsame)

/-- A request that is not executed in a session is none: its call has returned. -/
theorem returns_of_idle {e : Event} {session : Session} (hlive : c.live = some session)
    (hidle : c.executes e = none) (hends : ¬ EndsSession e)
    (hevent : ∀ answers, e ≠ .registerEmbeddedStatements answers) : c.returns e = true := by
  rw [executes, hlive, Option.bind_some] at hidle
  cases e with
  | checkConnection answers =>
    have hsame : c.checkConnection answers = (.ok (), c) := if_pos (status_of_live hlive)
    rw [returns, hsame]
    rfl
  | registerStatement stn st answers =>
    simp only [answer] at hidle
    split at hidle
    · rename_i hstn
      rw [returns, registerStatement, if_pos hstn]
      rfl
    · cases hidle
  | exec | execPrepared => cases hidle
  | registerEmbeddedStatements answers => exact absurd rfl (hevent answers)
  | connect | disconnect | lost | polled => exact absurd trivial hends

end PostgreSQLClient

/-! ## The transaction -/

section Transaction

variable {δ : Type} {sql : Sql δ} {d : δ} {done : List (SqlEvent δ)} {x y : SqlSystem δ}
  {e : SqlEvent δ}

/-- The transaction that was begun over `d` is open, and `done` has happened in it. -/
structure Open (d : δ) (done : List (SqlEvent δ)) (x : SqlSystem δ) : Prop where
  live : x.client.live.isSome = true
  committed : x.store.committed = d
  transaction : x.store.transaction =
    some (if done.all SqlEvent.sound then Store.applyAll (works done) d else none)
  applied : done.all SqlEvent.returned = true → (Store.applyAll (works done) d).isSome = true

/-- There is no session any more, and nothing of the transaction. -/
structure Closed (d : δ) (x : SqlSystem δ) : Prop where
  live : x.client.live = none
  store : x.store = ⟨d, none⟩

theorem closed_step (hx : Closed d x) (h : SqlStep sql x e y) (hopens : ¬ OpensSession e.event) :
    Closed d y := by
  obtain ⟨hlive, hstore⟩ := hx
  cases h with
  | ends hends hstep _ =>
    subst hstore
    exact ⟨PostgreSQLClient.live_of_ends hends hopens hstep, rfl⟩
  | idle hends hevent _ hstep _ =>
    refine ⟨?_, hstore⟩
    have hsame := PostgreSQLClient.live_isSome_step hends hevent hstep
    exact Option.isNone_iff_eq_none.mp (by simpa [hlive] using hsame)
  | request hexecutes _ _ _ =>
    have hsome := (PostgreSQLClient.returns_of_executes hexecutes).2
    rw [show _ = none from hlive] at hsome
    cases hsome
  | cut hexecutes _ _ _ _ =>
    have hsome := (PostgreSQLClient.returns_of_executes hexecutes).2
    rw [show _ = none from hlive] at hsome
    cases hsome

theorem closed_run {body : List (SqlEvent δ)} (hx : Closed d x)
    (hbody : ∀ e ∈ body, ¬ OpensSession e.event) (hrun : Trace (SqlStep sql) x body y) :
    Closed d y :=
  hrun.invariant (I := Closed d) (P := fun e => ¬ OpensSession e.event)
    (fun _ _ _ hs he h => closed_step hs h he) hx hbody

theorem works_concat (done : List (SqlEvent δ)) (e : SqlEvent δ) :
    works (done ++ [e]) = works done ++ e.work.toList := by
  rw [works, List.filterMap_append]
  cases h : e.work <;> simp [works, h]

/-- What happened as one list of works: a call that threw at a refusal makes it fail. -/
theorem Open.within (hx : Open d done x) : ∃ fs, Store.Within d fs x.store ∧
    Store.applyAll fs d =
      if done.all SqlEvent.sound then Store.applyAll (works done) d else none := by
  by_cases hall : done.all SqlEvent.sound = true
  · refine ⟨works done, ⟨hx.committed, ?_⟩, (if_pos hall).symm⟩
    rw [hx.transaction, if_pos hall]
  · refine ⟨[fun _ => none], ⟨hx.committed, ?_⟩, (if_neg hall).symm⟩
    rw [hx.transaction, if_neg hall]
    rfl

theorem all_sound (h : done.all SqlEvent.returned = true) : done.all SqlEvent.sound = true :=
  List.all_eq_true.mpr fun e he => by
    rw [SqlEvent.sound, List.all_eq_true.mp h e he, Bool.true_or]

/-- What a request does is the work of its event, or nothing where it prepares a statement. -/
theorem work_of_request {c : PostgreSQLClient} {session : Session} {ok answered : Bool}
    {f : δ → Option δ} (hexecutes : c.executes e.event = some (session, ok))
    (hmeans : Means sql session e.command e.event) (hf : e.command = .work f answered) :
    e.work = some f ∨ e.work = none ∧ answered = true ∧ ∀ w w', f w = some w' → w' = w := by
  obtain ⟨event, command, returned⟩ := e
  obtain rfl : command = .work f answered := hf
  cases event with
  | exec | execPrepared => exact .inl rfl
  | registerStatement stn st answers =>
    obtain ⟨-, accepted, hcommand⟩ := hmeans
    obtain ⟨rfl, rfl⟩ := Command.work.inj hcommand
    refine .inr ⟨rfl, rfl, fun w w' h => ?_⟩
    cases accepted with
    | true => exact (Option.some.inj h).symm
    | false => cases h
  | connect | disconnect | checkConnection | registerEmbeddedStatements | lost | polled =>
    obtain ⟨session', -, hanswer⟩ := Option.bind_eq_some_iff.mp hexecutes
    cases hanswer

/-- **A request in the transaction** adds its work, or aborts it. -/
theorem open_request {c c' : PostgreSQLClient} {s : Store δ} {session : Session}
    (hx : Open d done ⟨c, s⟩)
    (hexecutes : c.executes e.event = some (session, (s.serve e.command).1))
    (hmeans : Means sql session e.command e.event) (hlive : c'.live.isSome = true)
    (hret : e.returned = c.returns e.event) (hwork : e.command.IsWork) :
    Open d (done ++ [e]) ⟨c', (s.serve e.command).2⟩ := by
  obtain ⟨f, answered, hf⟩ := hwork.exists
  obtain ⟨fs, hwithin, hfs⟩ := hx.within
  have hreturned : e.returned = (s.serve e.command).1 :=
    hret.trans (PostgreSQLClient.returns_of_executes hexecutes).1
  have hworks := work_of_request hexecutes hmeans hf
  have hanswered : e.command.answered = answered := congrArg Command.answered hf
  rw [hf] at hreturned ⊢
  obtain ⟨hserved, hok⟩ := Store.serve_work hwithin f answered
  rw [hok] at hreturned
  -- the data after the request, as the works that are recorded make it
  have hdata : Store.applyAll (fs ++ [f]) d =
      if (done ++ [e]).all SqlEvent.sound then Store.applyAll (works (done ++ [e])) d
      else none := by
    rw [List.all_append, List.all_cons, List.all_nil, Bool.and_true, SqlEvent.sound, hreturned,
      hanswered, works_concat, Store.applyAll_concat, hfs]
    by_cases hall : done.all SqlEvent.sound = true
    · rw [if_pos hall, hall, Bool.true_and]
      rcases hworks with hsome | ⟨hnone, rfl, hsame⟩
      · rw [hsome, Option.toList_some, Store.applyAll_concat]
        cases (Store.applyAll (works done) d).bind f <;> cases answered <;> rfl
      · rw [hnone, Option.toList_none, List.append_nil]
        cases hw : Store.applyAll (works done) d with
        | none => rfl
        | some w =>
          rw [Option.bind_some]
          cases hfw : f w with
          | none => rfl
          | some w' =>
            rw [hsame w w' hfw]
            rfl
    · rw [if_neg hall, Bool.eq_false_iff.mpr hall]
      rfl
  refine ⟨hlive, hserved.committed, hserved.transaction.trans (congrArg some hdata), fun hall => ?_⟩
  rw [if_pos (all_sound hall)] at hdata
  rw [← hdata]
  rw [List.all_append, Bool.and_eq_true, List.all_cons, Bool.and_eq_true, hreturned,
    Bool.and_eq_true] at hall
  exact hall.2.1.1

theorem not_ends_of_executes {c : PostgreSQLClient} {event : PostgreSQLClient.Event}
    {r : Session × Bool} (h : c.executes event = some r) :
    ¬ EndsSession event ∧ ∀ answers, event ≠ .registerEmbeddedStatements answers := by
  obtain ⟨session, -, hanswer⟩ := Option.bind_eq_some_iff.mp h
  cases event with
  | exec | execPrepared | registerStatement => exact ⟨id, nofun⟩
  | connect | disconnect | checkConnection | registerEmbeddedStatements | lost | polled =>
    cases hanswer

/-- **A step in the transaction**: it goes on, or there is nothing left of it. -/
theorem open_step (hx : Open d done x) (h : SqlStep sql x e y) (hopens : ¬ OpensSession e.event)
    (hwork : e.command.IsWork) : Open d (done ++ [e]) y ∨ Closed d y := by
  cases h with
  | ends hends hstep _ =>
    refine .inr ⟨PostgreSQLClient.live_of_ends hends hopens hstep, ?_⟩
    obtain ⟨fs, hwithin, -⟩ := hx.within
    exact Store.drop_within hwithin
  | request hexecutes hmeans hstep hret =>
    obtain ⟨hends, hevent⟩ := not_ends_of_executes hexecutes
    have hlive := (PostgreSQLClient.live_isSome_step hends hevent hstep).trans hx.live
    exact .inl (open_request hx hexecutes hmeans hlive hret hwork)
  | @cut c c' s s' e session ok hexecutes _ hserved hstep _ =>
    obtain ⟨hends, hevent⟩ := not_ends_of_executes hexecutes
    refine .inr ⟨PostgreSQLClient.live_of_cut hends hevent hstep, ?_⟩
    obtain ⟨f, answered, hf⟩ := hwork.exists
    obtain ⟨fs, hwithin, -⟩ := hx.within
    rcases hserved with rfl | rfl
    · exact Store.drop_within hwithin
    · rw [hf]
      exact Store.drop_within (Store.serve_work hwithin f answered).1
  | @idle c c' s e hends hevent hidle hstep hret =>
    obtain ⟨session, hsession⟩ := Option.isSome_iff_exists.mp hx.live
    have hreturned : e.returned = true :=
      hret.trans (PostgreSQLClient.returns_of_idle hsession hidle hends hevent)
    have hwork : e.work = none := by
      rw [PostgreSQLClient.executes, show c.live = _ from hsession, Option.bind_some] at hidle
      unfold SqlEvent.work
      split
      · rename_i hevent' _
        rw [hevent'] at hidle
        cases hidle
      · rename_i hevent' _
        rw [hevent'] at hidle
        cases hidle
      · rfl
    have hsound : (done ++ [e]).all SqlEvent.sound = done.all SqlEvent.sound := by
      simp [SqlEvent.sound, hreturned]
    have hall : (done ++ [e]).all SqlEvent.returned = done.all SqlEvent.returned := by
      simp [hreturned]
    have hworks : works (done ++ [e]) = works done := by
      rw [works_concat, hwork]
      exact List.append_nil _
    refine .inl ⟨(PostgreSQLClient.live_isSome_step hends hevent hstep).trans hx.live, hx.committed,
      ?_, ?_⟩
    · rw [hsound, hworks]
      exact hx.transaction
    · rw [hall, hworks]
      exact hx.applied

/-- **What happens in the transaction** leaves it open, with all that was done, or ends it without
a trace. -/
theorem open_run {body : List (SqlEvent δ)} (hx : Open d done x)
    (hbody : ∀ e ∈ body, ¬ OpensSession e.event ∧ e.command.IsWork)
    (hrun : Trace (SqlStep sql) x body y) : Open d (done ++ body) y ∨ Closed d y := by
  induction hrun generalizing done with
  | nil => exact .inl (by rwa [List.append_nil])
  | @cons x y z e es hstep hrest ih =>
    obtain ⟨⟨hopens, hwork⟩, hes⟩ := List.forall_mem_cons.mp hbody
    rcases open_step hx hstep hopens hwork with hy | hy
    · have hz := ih hy hes
      rwa [List.append_assoc] at hz
    · exact .inr (closed_run hy (fun e he => (hes e he).1) hrest)

/-- `begin` that returns opens a transaction. -/
theorem open_begin {answers : PgAnswers} {command : Command δ} (hx : x.store.transaction = none)
    (h : SqlStep sql x ⟨.exec (ascii "BEGIN;") answers, command, true⟩ y) :
    Open x.store.committed [] y := by
  cases h with
  | ends hends _ _ => exact absurd hends id
  | @idle c c' s _ _ _ hidle _ hret =>
    have hlive : c.live = none := by
      cases hlive : c.live with
      | none => rfl
      | some session =>
        rw [PostgreSQLClient.executes, hlive, Option.bind_some] at hidle
        cases hidle
    rw [PostgreSQLClient.returns, PostgreSQLClient.exec_isOk, hlive] at hret
    cases hret
  | @request c c' s _ session hexecutes hmeans hstep _ =>
    obtain rfl := sql.begin_of command hmeans
    have hlive := (PostgreSQLClient.returns_of_executes hexecutes).2
    obtain ⟨hends, hevent⟩ := not_ends_of_executes hexecutes
    have hsame := PostgreSQLClient.live_isSome_step hends hevent hstep
    rw [hlive] at hsame
    obtain ⟨hcommitted, htransaction⟩ := Store.within_begin hx
    exact ⟨hsame, hcommitted, htransaction, fun _ => rfl⟩
  | cut _ _ _ _ hret => cases hret

/-- **The commit of an open transaction** leaves everything or nothing of it. If it returns, this
is nothing only after a statement that failed. -/
theorem open_commit {answers : PgAnswers} {command : Command δ} {returned : Bool}
    (hx : Open d done x)
    (h : SqlStep sql x ⟨.exec (ascii "COMMIT;") answers, command, returned⟩ y) :
    ∃ data : Option δ,
      data = (if done.all SqlEvent.sound then Store.applyAll (works done) d else none) ∧
      (y.store.committed = d ∨ data = some y.store.committed) ∧
      (returned = true → y.store.committed = data.getD d) := by
  obtain ⟨fs, hwithin, hfs⟩ := hx.within
  refine ⟨_, rfl, ?_⟩
  rw [← hfs]
  have hdata (check : δ → Bool) : (x.store.serve (.commit check)).2.committed = d ∨
      Store.applyAll fs d = some (x.store.serve (.commit check)).2.committed := by
    rw [Store.committed_commit hwithin check]
    split
    · cases Store.applyAll fs d with
      | none => exact .inl rfl
      | some d' => exact .inr rfl
    · exact .inl rfl
  cases h with
  | ends hends _ _ => exact absurd hends id
  | @idle c c' s _ _ _ hidle _ _ =>
    obtain ⟨session, hsession⟩ := Option.isSome_iff_exists.mp hx.live
    rw [PostgreSQLClient.executes, show c.live = _ from hsession, Option.bind_some] at hidle
    cases hidle
  | @request c c' s _ session hexecutes hmeans _ hret =>
    obtain ⟨check, rfl⟩ := sql.commit_of command hmeans
    have hcommitted := Store.committed_commit hwithin check
    refine ⟨hdata check, fun hreturned => hcommitted.trans (if_pos ?_)⟩
    exact ((PostgreSQLClient.returns_of_executes hexecutes).1.symm.trans hret.symm).trans hreturned
  | cut _ hmeans hserved _ hret =>
    obtain ⟨check, rfl⟩ := sql.commit_of command hmeans
    refine ⟨?_, fun hreturned => Bool.noConfusion (hret.symm.trans hreturned)⟩
    rcases hserved with rfl | rfl
    · exact .inl hx.committed
    · exact hdata check

/-- **The rollback of an open transaction** leaves nothing of it, whether or not it returns. -/
theorem open_rollback {answers : PgAnswers} {command : Command δ} {returned : Bool}
    (hx : Open d done x)
    (h : SqlStep sql x ⟨.exec (ascii "ROLLBACK;") answers, command, returned⟩ y) :
    y.store = ⟨d, none⟩ := by
  obtain ⟨fs, hwithin, -⟩ := hx.within
  cases h with
  | ends hends _ _ => exact absurd hends id
  | @idle c c' s _ _ _ hidle _ _ =>
    obtain ⟨session, hsession⟩ := Option.isSome_iff_exists.mp hx.live
    rw [PostgreSQLClient.executes, show c.live = _ from hsession, Option.bind_some] at hidle
    cases hidle
  | request _ hmeans _ _ =>
    obtain rfl := sql.rollback_of command hmeans
    exact Store.committed_rollback hwithin
  | cut _ hmeans hserved _ _ =>
    obtain rfl := sql.rollback_of command hmeans
    rcases hserved with rfl | rfl
    · exact Store.drop_within hwithin
    · exact congrArg Store.drop (Store.committed_rollback hwithin)

/-- Without a session `commit` throws. -/
theorem closed_commit {answers : PgAnswers} {command : Command δ} {returned : Bool}
    (hx : Closed d x)
    (h : SqlStep sql x ⟨.exec (ascii "COMMIT;") answers, command, returned⟩ y) :
    returned = false ∧ y.store.committed = d := by
  refine ⟨?_, congrArg Store.committed (closed_step hx h id).store⟩
  cases h with
  | ends hends _ _ => exact absurd hends id
  | @idle c c' s _ _ _ _ _ hret =>
    have hnone : c.live = none := hx.live
    rw [PostgreSQLClient.returns, PostgreSQLClient.exec_isOk, hnone] at hret
    exact hret
  | @request c c' s _ session hexecutes _ _ hret =>
    have hsome := (PostgreSQLClient.returns_of_executes hexecutes).2
    rw [show c.live = none from hx.live] at hsome
    cases hsome
  | cut _ _ _ _ hret => exact hret

/-- **Transactions are atomic** in every run in which no session is opened between a `begin` that
returns and `commit`, whatever else happens: connections that are lost between the calls or in the
middle of one, calls that throw, `disconnect`, prepared statements.

Until the commit, nothing of the transaction is visible, and after it everything is, in the order
of the calls, or nothing, whether or not `commit` returns. If it does, it is everything if every
call in between has returned, and nothing if one has thrown whose statement is answered with success
where it succeeds. -/
theorem transaction_atomic {z : SqlSystem δ} {a a' : PgAnswers} {b b' : Command δ} {r : Bool}
    {body : List (SqlEvent δ)} {w : SqlSystem δ} (hw : w.store.transaction = none)
    (hbegin : SqlStep sql w ⟨.exec (ascii "BEGIN;") a, b, true⟩ x)
    (hbody : ∀ e ∈ body, ¬ OpensSession e.event ∧ e.command.IsWork)
    (hrun : Trace (SqlStep sql) x body y)
    (hcommit : SqlStep sql y ⟨.exec (ascii "COMMIT;") a', b', r⟩ z) :
    y.store.committed = w.store.committed ∧
      (z.store.committed = w.store.committed ∨
        Store.applyAll (works body) w.store.committed = some z.store.committed) ∧
      (r = true →
        ((∀ e ∈ body, e.returned = true) →
          Store.applyAll (works body) w.store.committed = some z.store.committed) ∧
        ((∃ e ∈ body, e.returned = false ∧ e.command.answered = true) →
          z.store.committed = w.store.committed)) := by
  have hopen := open_begin hw hbegin
  rcases open_run hopen hbody hrun with hy | hy
  · rw [List.nil_append] at hy
    obtain ⟨data, hdata, hatomic, hreturned⟩ := open_commit hy hcommit
    refine ⟨hy.committed, hatomic.imp_right fun h => ?_, fun hr => ⟨fun hall => ?_, ?_⟩⟩
    · rw [hdata] at h
      split at h
      · exact h
      · cases h
    · have hall' : body.all SqlEvent.returned = true := List.all_eq_true.mpr hall
      obtain ⟨d', hd'⟩ := Option.isSome_iff_exists.mp (hy.applied hall')
      rw [hreturned hr, hdata, if_pos (all_sound hall'), hd', Option.getD_some]
    · rintro ⟨e, he, hthrown, hanswered⟩
      have hall : ¬ body.all SqlEvent.sound = true := fun h => by
        have hsound := List.all_eq_true.mp h e he
        rw [SqlEvent.sound, hthrown, hanswered] at hsound
        cases hsound
      rw [hreturned hr, hdata, if_neg hall, Option.getD_none]
  · -- the session is gone: `commit` throws
    obtain ⟨hthrown, hcommitted⟩ := closed_commit hy hcommit
    refine ⟨by rw [hy.store], .inl hcommitted, fun hr => ?_⟩
    rw [hthrown] at hr
    cases hr

/-! ## A counter -/

/-- A server that counts, and knows one statement that adds 1. -/
def counterCommand (text : Bytes) : Command Nat :=
  if text = ascii "BEGIN;" then .begin
  else if text = ascii "COMMIT;" then .commit fun _ => true
  else if text = ascii "ROLLBACK;" then .rollback
  else if text = [] then .work some false
  else if text = ascii "UPDATE counter SET n = n + 1;" then .work (fun n => some (n + 1)) true
  else refuse

def counterSql : Sql Nat where
  means text command := command = counterCommand text
  begin_of _ h := h
  commit_of _ h := ⟨_, h⟩
  rollback_of _ h := h

/-- A client that is connected to it. -/
def counter (s : Store Nat) : SqlSystem Nat where
  client := { connectString := ascii "host=postgres", conn := some ⟨.ok, some {}⟩ }
  store := s

/-- The call that adds 1. -/
def increment : SqlEvent Nat where
  event := .exec (ascii "UPDATE counter SET n = n + 1;") PostgreSQLClient.willing
  command := counterCommand (ascii "UPDATE counter SET n = n + 1;")
  returned := true

/-- One call between `begin` and `commit`. -/
theorem transaction_atomic_counter :
    (counter ⟨0, some (some 1)⟩).store.committed = 0 ∧
      Store.applyAll (works [increment]) 0 = some (counter ⟨1, none⟩).store.committed := by
  have hatomic := @transaction_atomic Nat counterSql (counter ⟨0, some (some 0)⟩)
    (counter ⟨0, some (some 1)⟩) (counter ⟨1, none⟩) PostgreSQLClient.willing
    PostgreSQLClient.willing .begin (.commit fun _ => true) true [increment] (counter ⟨0, none⟩) rfl
    (.request rfl rfl rfl rfl)
    (List.forall_mem_singleton.mpr ⟨id, trivial⟩)
    (.cons (.request rfl rfl rfl rfl) (.nil _)) (.request rfl rfl rfl rfl)
  exact ⟨hatomic.1, (hatomic.2.2 rfl).1 (List.forall_mem_singleton.mpr rfl)⟩

end Transaction

/-- `register_embedded_statements` is some calls of `register_statement`. -/
theorem step_registerEmbedded (answers : PgAnswers) (c : PostgreSQLClient) :
    ∃ n, Library.run PostgreSQLClient.step c
      ((PostgreSQLClient.embeddedStatements.take n).map fun s =>
        .registerStatement s.1 s.2 answers) = c.step (.registerEmbeddedStatements answers) := by
  have hall : ∀ (statements : List (Bytes × Bytes)) (c : PostgreSQLClient), ∃ n,
      Library.run PostgreSQLClient.step c ((statements.take n).map fun s =>
        .registerStatement s.1 s.2 answers) =
          some (PostgreSQLClient.registerAll answers statements c).2 := by
    intro statements
    induction statements with
    | nil => exact fun c => ⟨0, rfl⟩
    | cons s rest ih =>
      intro c
      obtain ⟨n, hn⟩ := ih (c.registerStatement answers s.1 s.2).2
      cases hcall : c.registerStatement answers s.1 s.2 with
      | mk result c' =>
        rw [hcall] at hn
        cases result with
        | ok _ =>
          refine ⟨n + 1, ?_⟩
          simp only [List.take_succ_cons, List.map_cons, Library.run, PostgreSQLClient.step, hcall,
            Option.bind_some, PostgreSQLClient.registerAll]
          exact hn
        | error e =>
          refine ⟨1, ?_⟩
          simp only [List.take_succ_cons, List.take_zero, List.map_cons, List.map_nil, Library.run,
            PostgreSQLClient.step, hcall, Option.bind_some, PostgreSQLClient.registerAll]
  exact hall _ c

end WinterWind.Databases
