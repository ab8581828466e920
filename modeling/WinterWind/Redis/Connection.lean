import WinterWind.Library.Runs
import WinterWind.Redis.RedisClient

/-!
# The connection of the Redis client (`m_context` in `src/core/redisclient.cpp`)

A `Session` is a client that runs one operation after another. What hiredis answers is given from
outside, call by call: `answer` carries an answer for every call, and the one that is pending takes
its own. A null reply breaks the context it came from, which stays broken until `redisConnect`
returns it again.

`REDIS_REPLY_HANDLER` returns and keeps the context, so the next `REDIS_CONNECT` does not connect;
`hset` goes on after a null reply to its `TYPE` or its `DEL`; and `connect` goes on to
`redisEnableKeepAlive` when `redisConnect` returned null.

Results:
* `safe_program`: one operation, from a context that is null or works.
* **`neverBroken_iff`**: every call of a run is legal, exactly when `redisConnect` never returns
  null, no null reply is given to the `TYPE` or the `DEL` of an `hset`, and no operation starts on
  a broken context.
-/

namespace WinterWind.Redis

open Library

/-- A client, the operation it runs or ran last (`none` is its construction), what is left of that
one's program, and the broken contexts. Before the first call of an operation, `entry` is the
client that started it. -/
structure Session where
  operation : Option Operation := none
  program : Prog HiredisCall Answer RedisClient
  broken : List Ctx := []
  entry : Option (RedisClient × Clock) := none

/-- The contexts that are broken after a call. -/
def breaks (broken : List Ctx) : (call : HiredisCall) → Answer call → List Ctx
  | .redisConnect .., some (context, _) => broken.filter (· ≠ context)
  | .redisConnect .., none => broken
  | .redisFree _, _ => broken
  | .redisEnableKeepAlive _, _ => broken
  | .redisCommand (some context) _, none => context :: broken
  | .redisCommand none _, none => broken
  | .redisCommand .., some _ => broken

/-- The call is made on a context that is not null, and not broken if it sends a command. -/
def Legal (broken : List Ctx) : HiredisCall → Prop
  | .redisConnect .. => True
  | .redisFree context => context.isSome = true
  | .redisEnableKeepAlive context => context.isSome = true
  | .redisCommand context _ => ∃ ctx, context = some ctx ∧ ctx ∉ broken

/-- The operation goes on after the command, whatever its reply: `hset` after `TYPE` and `DEL`. -/
def GoesOn (operation : Option Operation) (args : List Bytes) : Prop :=
  (∃ key skey value expireValue, operation = some (.hset key skey value expireValue)) ∧
    (args.head? = some (ascii "TYPE") ∨ args.head? = some (ascii "DEL"))

/-- The answer is not null, or it is a reply to the last command of the operation. -/
def Tolerable (operation : Option Operation) (_ : List Ctx) :
    (call : HiredisCall) → Answer call → Prop
  | .redisConnect .., answer => answer ≠ none
  | .redisFree _, _ => True
  | .redisEnableKeepAlive _, _ => True
  | .redisCommand _ args, reply => reply = none → ¬ GoesOn operation args

namespace Session

/-- What happens: an operation is called when no other runs, or the pending call is answered. -/
inductive Event where
  | start (operation : Operation) (clock : Clock)
  | answer (oracle : (call : HiredisCall) → Answer call)

/-- One step. -/
def step (s : Session) : Event → Option Session
  | .start operation clock =>
    match s.program with
    | .done client =>
      some { s with
        operation := some operation
        program := operation.program clock client
        entry := some (client, clock) }
    | .call _ _ => none
  | .answer oracle =>
    match s.program with
    | .done _ => none
    | .call c k =>
      some { s with
        program := k (oracle c)
        broken := breaks s.broken c (oracle c)
        entry := none }

/-- The constructor `RedisClient(host, port, cb_interval)`. -/
def construct (host : Bytes) (port : UInt16) (cbInterval : UInt32) (clock : Clock) : Session where
  program := RedisClient.connect clock
    { host := host, port := port, circuitBreakerInterval := cbInterval }

/-- The pending call, if there is one, is legal. -/
def CallLegal (s : Session) : Prop := s.program.NextLegal Legal s.broken

/-- The client's context is null or works. -/
def Healthy (broken : List Ctx) (client : RedisClient) : Prop :=
  ∀ context, client.context = some context → context ∉ broken

/-- The first call is one of `connect`. -/
def Connects : Prog HiredisCall Answer RedisClient → Prop
  | .call (.redisFree _) _ => True
  | .call (.redisConnect ..) _ => True
  | _ => False

/-- The pending call is legal, and an operation started on a broken context goes through `connect`
unless the circuit breaker keeps it from connecting. -/
structure NeverBroken (s : Session) : Prop where
  legal : s.CallLegal
  reconnects : ∀ client clock, s.entry = some (client, clock) → ¬ Healthy s.broken client →
    client.circuitBreaker clock = false → Connects s.program

/-- The condition on a step: an operation starts on a context that is null or works,
`redisConnect` does not return null, and no null reply is given to a command after which its
operation goes on. -/
def Answered (s : Session) : Event → Prop
  | .start _ _ => ∀ client, s.program = .done client → Healthy s.broken client
  | .answer oracle =>
    ∀ c k, s.program = .call c k → Tolerable s.operation s.broken c (oracle c)

/-! ## One operation -/

/-- The program makes legal calls as long as the answers are tolerable. -/
abbrev Safe (operation : Option Operation) (broken : List Ctx)
    (program : Prog HiredisCall Answer RedisClient) : Prop :=
  program.Guarded Legal breaks (Tolerable operation) broken

variable {operation : Option Operation} {broken : List Ctx} {clock : Clock} {c : RedisClient}

/-- A program that goes on with `f` after `reconnect`. -/
theorem safe_reconnect {f : RedisClient → Prog HiredisCall Answer RedisClient}
    (hf : ∀ broken' c', Healthy broken' c' → Safe operation broken' (f c')) :
    Safe operation broken ((RedisClient.reconnect clock c).bind f) := by
  refine ⟨trivial, fun answer => ⟨fun hok => ?_, fun hbad => ?_⟩⟩
  · cases answer with
    | none => exact absurd rfl hok
    | some answer =>
      obtain ⟨context, err⟩ := answer
      cases err with
      | true => exact ⟨rfl, fun _ => ⟨fun _ => hf _ _ nofun, fun hbad => absurd trivial hbad⟩⟩
      | false =>
        refine ⟨rfl, fun _ => ⟨fun _ => hf _ _ fun context' h => ?_, fun hbad =>
          absurd trivial hbad⟩⟩
        obtain rfl := Option.some.inj h
        simp [breaks]
  · cases answer with
    | none => exact nofun
    | some answer => exact absurd nofun hbad

/-- A program that goes on with `f` after `connect` without a context. -/
theorem safe_connect {f : RedisClient → Prog HiredisCall Answer RedisClient}
    (hcontext : c.context = none)
    (hf : ∀ broken' c', Healthy broken' c' → Safe operation broken' (f c')) :
    Safe operation broken ((RedisClient.connect clock c).bind f) := by
  unfold RedisClient.connect
  split
  · exact hf broken c fun context h => nomatch hcontext.symm.trans h
  · rw [hcontext]
    exact safe_reconnect hf

/-- `REDIS_CONNECT`: the body runs on a context that works. -/
theorem safe_withContext {α : Type} {failure : α} {body : RedisClient → Call α}
    {f : α × RedisClient → Prog HiredisCall Answer RedisClient} (hc : Healthy broken c)
    (hbody : ∀ broken' c' context, c'.context = some context → context ∉ broken' →
      Safe operation broken' ((body c').bind f))
    (hfailure : ∀ broken' c', Safe operation broken' (f (failure, c'))) :
    Safe operation broken ((RedisClient.withContext clock failure body c).bind f) := by
  unfold RedisClient.withContext
  cases hcontext : c.context with
  | some context => exact hbody broken c context hcontext (hc context hcontext)
  | none =>
    dsimp only
    rw [Prog.bind_assoc]
    refine safe_connect hcontext fun broken' c' hc' => ?_
    cases hcontext' : c'.context with
    | some context => exact hbody broken' c' context hcontext' (hc' context hcontext')
    | none => exact hfailure broken' c'

/-- A command whose null reply ends the operation. -/
theorem safe_command {α : Type} {args : List Bytes} {failure : α} {handle : Reply → Call α}
    {f : α × RedisClient → Prog HiredisCall Answer RedisClient} {context : Ctx}
    (hcontext : c.context = some context) (hbroken : context ∉ broken)
    (hlast : ¬ GoesOn operation args)
    (hfailure : Safe operation (context :: broken) (f (failure, c)))
    (hhandle : ∀ reply, Safe operation broken ((handle reply).bind f)) :
    Safe operation broken ((RedisClient.command args failure handle c).bind f) := by
  unfold RedisClient.command
  rw [hcontext]
  refine ⟨⟨context, rfl, hbroken⟩, fun reply => ⟨fun _ => ?_, fun hbad => ?_⟩⟩
  · cases reply with
    | none => exact hfailure
    | some reply => exact hhandle reply
  · exact absurd (fun _ => hlast) hbad

/-- A command after whose null reply the operation goes on. -/
theorem safe_command_goesOn {α : Type} {args : List Bytes} {failure : α}
    {handle : Reply → Call α} {f : α × RedisClient → Prog HiredisCall Answer RedisClient}
    {context : Ctx} (hcontext : c.context = some context) (hbroken : context ∉ broken)
    (hgoes : GoesOn operation args)
    (hfailure : ¬ (f (failure, c)).NextLegal Legal (context :: broken))
    (hhandle : ∀ reply, Safe operation broken ((handle reply).bind f)) :
    Safe operation broken ((RedisClient.command args failure handle c).bind f) := by
  unfold RedisClient.command
  rw [hcontext]
  refine ⟨⟨context, rfl, hbroken⟩, fun reply => ⟨fun hok => ?_, fun hbad => ?_⟩⟩
  · cases reply with
    | none => exact absurd hgoes (hok rfl)
    | some reply => exact hhandle reply
  · cases reply with
    | none => exact hfailure
    | some reply => exact absurd nofun hbad

/-- A command on a broken context is not legal. -/
theorem not_legal_command {α : Type} {args : List Bytes} {failure : α} {handle : Reply → Call α}
    {f : α × RedisClient → Prog HiredisCall Answer RedisClient} {context : Ctx}
    (hcontext : c.context = some context) (hbroken : context ∈ broken) :
    ¬ ((RedisClient.command args failure handle c).bind f).NextLegal Legal broken := by
  unfold RedisClient.command
  rw [hcontext]
  rintro ⟨context', h, hnot⟩
  obtain rfl := Option.some.inj h
  exact hnot hbroken

/-- Only `TYPE` and `DEL` are followed by another command whatever their reply. -/
theorem not_goesOn {name : Bytes} {args : List Bytes} (htype : name ≠ ascii "TYPE")
    (hdel : name ≠ ascii "DEL") : ¬ GoesOn operation (name :: args) := fun h =>
  h.2.elim (fun e => htype (Option.some.inj e)) fun e => hdel (Option.some.inj e)

/-- And only in an `hset`. -/
theorem not_goesOn_operation {args : List Bytes}
    (h : ∀ key skey value expireValue,
      operation ≠ some (.hset key skey value expireValue)) : ¬ GoesOn operation args := by
  rintro ⟨⟨key, skey, value, expireValue, hop⟩, -⟩
  exact h key skey value expireValue hop

/-- An operation of one command. -/
theorem safe_oneCommand {α : Type} {args : List Bytes} {failure : α}
    {handle : RedisClient → Reply → Call α} (hc : Healthy broken c)
    (hlast : ¬ GoesOn operation args)
    (hhandle : ∀ broken' c' context reply, c'.context = some context → context ∉ broken' →
      Safe operation broken' (handle c' reply).client) :
    Safe operation broken (RedisClient.withContext clock failure
      (fun c => RedisClient.command args failure (handle c) c) c).client :=
  safe_withContext hc
    (fun broken' c' context hcontext hbroken => safe_command hcontext hbroken hlast trivial
      fun reply => hhandle broken' c' context reply hcontext hbroken)
    fun _ _ => trivial

theorem safe_expire (hc : Healthy broken c) (key : Bytes) (value : UInt32) :
    Safe operation broken (c.expire clock key value).client :=
  safe_oneCommand hc (not_goesOn (by decide) (by decide)) fun _ _ _ _ _ _ => trivial

theorem healthy_of_some {context : Ctx} (hcontext : c.context = some context)
    (hbroken : context ∉ broken) : Healthy broken c := by
  intro context' h
  obtain rfl := Option.some.inj (hcontext.symm.trans h)
  exact hbroken

theorem safe_expireUnlessZero (hc : Healthy broken c) (key : Bytes) (expireValue : UInt32) :
    Safe operation broken (c.expireUnlessZero clock key expireValue).client := by
  unfold RedisClient.expireUnlessZero
  split
  · trivial
  · exact safe_expire hc key expireValue

theorem safe_bulk (res : Bytes) (reply : Reply) :
    Safe operation broken (RedisClient.bulk res c reply).client := by
  cases reply <;> trivial

/-- `HSET` and what follows it. -/
theorem safe_hsetCommand {context : Ctx} (hcontext : c.context = some context)
    (hbroken : context ∉ broken) (key skey value : Bytes) (expireValue : UInt32) :
    Safe operation broken (c.hsetCommand clock key skey value expireValue).client :=
  safe_command hcontext hbroken (not_goesOn (by decide) (by decide)) trivial fun _ =>
    safe_expireUnlessZero (healthy_of_some hcontext hbroken) key expireValue

/-- `DEL` in an `hset`, and what follows it. -/
theorem safe_hsetVerified {key skey value : Bytes} {expireValue : UInt32} {context : Ctx}
    (hcontext : c.context = some context) (hbroken : context ∉ broken) (typeVerification : Bytes) :
    Safe (some (.hset key skey value expireValue)) broken
      (c.hsetVerified clock key skey value expireValue typeVerification).client := by
  unfold RedisClient.hsetVerified
  split
  · unfold RedisClient.del
    rw [RedisClient.withContext_some hcontext, Call.client, Prog.bind_assoc]
    refine safe_command_goesOn hcontext hbroken ⟨⟨_, _, _, _, rfl⟩, Or.inr rfl⟩ ?_ fun reply => ?_
    · exact not_legal_command hcontext List.mem_cons_self
    · exact safe_hsetCommand hcontext hbroken key skey value expireValue
  · exact safe_hsetCommand hcontext hbroken key skey value expireValue

/-- After a null reply `hset` goes on with a broken context. -/
theorem not_legal_hsetVerified {key skey value : Bytes} {expireValue : UInt32} {context : Ctx}
    (hcontext : c.context = some context) (hbroken : context ∈ broken) (typeVerification : Bytes) :
    ¬ (c.hsetVerified clock key skey value expireValue typeVerification).client.NextLegal Legal
      broken := by
  unfold RedisClient.hsetVerified
  split
  · unfold RedisClient.del
    rw [RedisClient.withContext_some hcontext, Call.client, Prog.bind_assoc]
    exact not_legal_command hcontext hbroken
  · exact not_legal_command hcontext hbroken

theorem safe_hset (hc : Healthy broken c) (key skey value : Bytes) (expireValue : UInt32) :
    Safe (some (.hset key skey value expireValue)) broken
      (c.hset clock key skey value expireValue).client := by
  refine safe_withContext hc (fun broken c context hcontext hbroken => ?_) fun _ _ => trivial
  unfold RedisClient.type
  rw [RedisClient.withContext_some hcontext, Prog.bind_assoc]
  refine safe_command_goesOn hcontext hbroken ⟨⟨_, _, _, _, rfl⟩, Or.inl rfl⟩ ?_ fun reply => ?_
  · exact not_legal_hsetVerified hcontext List.mem_cons_self _
  · cases reply <;> exact safe_hsetVerified hcontext hbroken _

/-- **One operation**, started on a context that is null or works, makes legal calls as long as
the answers are tolerable. -/
theorem safe_program (hc : Healthy broken c) (operation : Operation) (clock : Clock) :
    Safe (some operation) broken (operation.program clock c) := by
  cases operation with
  | type key res =>
    exact safe_oneCommand hc (not_goesOn_operation nofun) fun _ _ _ reply _ _ => by
      cases reply <;> trivial
  | set key value expireValue =>
    exact safe_oneCommand hc (not_goesOn_operation nofun) fun _ _ _ _ hcontext hbroken =>
      safe_expireUnlessZero (healthy_of_some hcontext hbroken) key expireValue
  | get key res =>
    exact safe_oneCommand hc (not_goesOn_operation nofun) fun _ _ _ reply _ _ => safe_bulk res reply
  | del key => exact safe_oneCommand hc (not_goesOn_operation nofun) fun _ _ _ _ _ _ => trivial
  | hset key skey value expireValue => exact safe_hset hc key skey value expireValue
  | hget key skey res =>
    exact safe_oneCommand hc (not_goesOn_operation nofun) fun _ _ _ reply _ _ => safe_bulk res reply
  | hdel key skey =>
    exact safe_oneCommand hc (not_goesOn_operation nofun) fun _ _ _ _ _ _ => trivial
  | hkeys key res =>
    exact safe_oneCommand hc (not_goesOn_operation nofun) fun _ _ _ reply _ _ => by
      cases reply <;> trivial
  | expire key value => exact safe_expire hc key value

/-- An operation that starts on a broken context sends its first command on it. -/
theorem not_legal_program {context : Ctx} (hcontext : c.context = some context)
    (hbroken : context ∈ broken) (operation : Operation) (clock : Clock) :
    ¬ (operation.program clock c).NextLegal Legal broken := by
  cases operation <;>
    simp only [Operation.program, RedisClient.type, RedisClient.set, RedisClient.get,
      RedisClient.del, RedisClient.hset, RedisClient.hget, RedisClient.hdel, RedisClient.hkeys,
      RedisClient.expire, RedisClient.withContext_some hcontext, Call.client, Prog.bind_assoc] <;>
    exact not_legal_command hcontext hbroken

/-! ## Runs -/

/-- What is left of the running operation is safe, and it was started on a context that works. -/
structure Running (s : Session) : Prop where
  safe : Safe s.operation s.broken s.program
  entered : ∀ client clock, s.entry = some (client, clock) → Healthy s.broken client

theorem neverBroken_of_running {s : Session} (hs : s.Running) : s.NeverBroken where
  legal := hs.safe.nextLegal
  reconnects client clock hentry hbroken := absurd (hs.entered client clock hentry) hbroken

theorem running_construct (host : Bytes) (port : UInt16) (cbInterval : UInt32) (clock : Clock) :
    (construct host port cbInterval clock).Running where
  safe := by
    rw [construct, ← Prog.bind_done_right (RedisClient.connect _ _)]
    exact safe_connect rfl fun _ _ _ => trivial
  entered _ _ hentry := nomatch hentry

/-- A step that meets the condition keeps the operation safe, and any other leads to an illegal
call. -/
theorem running_step {s s' : Session} {e : Event} (hs : s.Running) (h : s.step e = some s') :
    (s.Answered e → s'.Running) ∧ (¬ s.Answered e → ¬ s'.CallLegal) := by
  cases e with
  | start operation clock =>
    simp only [step] at h
    split at h
    · rename_i client hclient
      obtain rfl := Option.some.inj h
      refine ⟨fun hok => ⟨safe_program (hok client hclient) operation clock, ?_⟩, fun hbad => ?_⟩
      · intro client' clock' hentry
        obtain ⟨rfl, -⟩ := Prod.mk.inj (Option.some.inj hentry)
        exact hok client hclient
      · obtain ⟨client', hn⟩ := not_forall.mp hbad
        obtain ⟨hclient', hn⟩ := Classical.not_imp.mp hn
        obtain rfl := Prog.done.inj (hclient.symm.trans hclient')
        obtain ⟨context, hn⟩ := not_forall.mp hn
        obtain ⟨hcontext, hbroken⟩ := Classical.not_imp.mp hn
        exact not_legal_program hcontext (not_not.mp hbroken) operation clock
    · cases h
  | answer oracle =>
    simp only [step] at h
    split at h
    · cases h
    · rename_i c k hcall
      obtain rfl := Option.some.inj h
      have hsafe := hs.safe
      rw [hcall] at hsafe
      have hanswer := hsafe.answer (oracle c)
      refine ⟨fun hok => ⟨hanswer.1 (hok c k hcall), fun _ _ hentry => nomatch hentry⟩,
        fun hbad => hanswer.2 fun htolerable => ?_⟩
      refine hbad fun c' k' hcall' => ?_
      obtain ⟨rfl, -⟩ := Prog.call.inj (hcall.symm.trans hcall')
      exact htolerable

/-- **The client never uses a null or a broken context**, and reconnects after a failure, in every
state of a run exactly when every step of the run meets `Answered`. -/
theorem neverBroken_iff (host : Bytes) (port : UInt16) (cbInterval : UInt32) (clock : Clock)
    (es : List Event) :
    Everywhere step NeverBroken (construct host port cbInterval clock) es ↔
      Always step Answered (construct host port cbInterval clock) es :=
  everywhere_iff_always (fun _ hs => neverBroken_of_running hs)
    (fun _ _ _ hs h => (running_step hs h).1)
    (fun _ _ _ hs h hbad => fun hs' => (running_step hs h).2 hbad hs'.legal)
    (running_construct host port cbInterval clock)

/-- Answers of a server that does not answer commands. -/
def silent : (call : HiredisCall) → Answer call
  | .redisConnect .. => some (0, false)
  | .redisFree _ => ()
  | .redisEnableKeepAlive _ => ()
  | .redisCommand .. => none

/-- A `GET` gets no reply, and the next one is sent on the same context. -/
theorem not_neverBroken_get :
    ¬ Everywhere step NeverBroken (construct (ascii "localhost") 6379 0 ⟨1, 1⟩)
      [.answer silent, .answer silent, .start (.get (ascii "key") []) ⟨2, 2⟩, .answer silent,
        .start (.get (ascii "key") []) ⟨3, 3⟩] := by
  rw [everywhere_iff_reached]
  intro h
  obtain ⟨context, hcontext, hbroken⟩ := (h _ _ (List.prefix_refl _) rfl).legal
  obtain rfl := Option.some.inj hcontext
  exact absurd hbroken (by decide)

end Session

end WinterWind.Redis
