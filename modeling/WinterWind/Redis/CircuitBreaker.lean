import WinterWind.Library.Runs
import WinterWind.Redis.RedisClient

/-!
# The circuit breaker (`RedisClient::connect` in `src/core/redisclient.cpp`)

`connect` returns at once while `time(nullptr) - m_last_failed_connection` is below the interval,
and notes the time after a connection failed. Every operation gets there through `REDIS_CONNECT`, on
a null context only.

* A `History` is a client, the last reading of its clock, and when its attempts failed. An `Event`
  is the construction of the client or one of its operations, with its `Clock` and the answers of
  hiredis to all its calls.
* The times are `time_t` of 64 bits. Differences of two of them that are not negative do not
  overflow, and the `uint32_t` interval is converted to 64 bits (`circuitBreaker_int64`).
* A null context counts as a failed attempt.

Results:
* `ensures_program`: an operation on a context does not connect, and any other connects once, unless
  the breaker keeps it from doing so.
* **`always_spaced`**: on a clock that does not go back, an operation attempts to connect iff it
  finds no context and every attempt that failed did so an interval ago.
-/

namespace WinterWind.Redis

open Library

/-- The answers of `redisConnect` so far. -/
def noteConnect (seen : List (Option (Ctx × Bool))) :
    (call : HiredisCall) → Answer call → List (Option (Ctx × Bool))
  | .redisConnect .., answer => seen ++ [answer]
  | .redisFree _, _ => seen
  | .redisEnableKeepAlive _, _ => seen
  | .redisCommand .., _ => seen

/-- The answers of `redisConnect` in a list of calls. -/
def connectAnswers (calls : List (Σ call, Answer call)) : List (Option (Ctx × Bool)) :=
  calls.foldl (fun seen x => noteConnect seen x.1 x.2) []

/-- The attempt failed: there is no context, or an error in it. -/
def connectFailed : Option (Ctx × Bool) → Bool
  | none => true
  | some (_, err) => err

/-- A client, the last reading of its clock, and the times its attempts to connect failed at. -/
structure History where
  client : Option RedisClient := none
  time : Int := 0
  failures : List Int := []

/-- What the user of a client does. -/
inductive Activity where
  | construct (host : Bytes) (port : UInt16) (cbInterval : UInt32)
  | operation (op : Operation)

/-- An activity, the clock it reads, and what hiredis answers. -/
structure Event where
  activity : Activity
  clock : Clock
  oracle : Prog.Oracle HiredisCall Answer

namespace History

/-- The client an event leaves, and the calls it makes: a client is constructed first. -/
def result (s : History) (e : Event) : Option (RedisClient × List (Σ call, Answer call)) :=
  match s.client, e.activity with
  | none, .construct host port cbInterval =>
    some ((RedisClient.connect e.clock
      { host := host, port := port, circuitBreakerInterval := cbInterval }).exec e.oracle)
  | some client, .operation op => some ((op.program e.clock client).exec e.oracle)
  | none, .operation _ => none
  | some _, .construct .. => none

/-- One step: a failed attempt is noted with the reading that follows it. -/
def step (s : History) (e : Event) : Option History :=
  (s.result e).map fun r =>
    { client := some r.1
      time := e.clock.failed
      failures := s.failures ++
        ((connectAnswers r.2).filter connectFailed).map fun _ => e.clock.failed }

/-- The context the next operation finds. -/
def context (s : History) : Option Ctx := s.client.bind RedisClient.context

/-- The client that runs: at its construction, the one with nothing but its arguments. -/
def before (s : History) (e : Event) : RedisClient :=
  match s.client, e.activity with
  | some client, _ => client
  | none, .construct host port cbInterval =>
    { host := host, port := port, circuitBreakerInterval := cbInterval }
  | none, .operation _ => {}

/-- `m_circuit_breaker_interval`. -/
def interval (s : History) (e : Event) : UInt32 := (s.before e).circuitBreakerInterval

/-- The clock does not go back, and is not below the interval. -/
structure OnTime (s : History) (e : Event) : Prop where
  time_le : s.time ≤ e.clock.now
  now_le : e.clock.now ≤ e.clock.failed
  interval_le : (s.interval e).toNat ≤ e.clock.now

/-- The event calls `redisConnect`. -/
def Attempts (s : History) (e : Event) : Prop :=
  ∃ r, s.result e = some r ∧ connectAnswers r.2 ≠ []

/-- An event attempts to connect iff there is no context and an interval has passed since every
attempt that failed. -/
def Spaced (s : History) (e : Event) : Prop :=
  s.Attempts e ↔ s.context = none ∧ ∀ t ∈ s.failures, t + (s.interval e).toNat ≤ e.clock.now

end History

/-! ## The comparison -/

/-- On readings that are not negative, the comparison of the source is that of the integers. -/
theorem circuitBreaker_int64 {now failed : Int64} (hnow : 0 ≤ now.toInt)
    (hfailed : 0 ≤ failed.toInt) (interval : UInt32) :
    now - failed < Int64.ofNat interval.toNat ↔
      now.toInt - failed.toInt < interval.toNat := by
  have hlt := now.toInt_lt
  have hlt' := failed.toInt_lt
  have hinterval := interval.toNat_lt
  rw [Int64.lt_iff_toInt_lt, Int64.toInt_sub, Int64.toInt_ofNat_of_lt (by omega),
    Int.bmod_eq_of_le (by omega) (by omega)]

/-! ## One operation -/

section Operations

variable {clock : Clock} {c : RedisClient} {seen : List (Option (Ctx × Bool))}

/-- The client after an attempt. -/
def RedisClient.afterConnect (clock : Clock) (c : RedisClient) : Option (Ctx × Bool) → RedisClient
  | some (context, false) => { c with context := some context }
  | _ => { c with context := none, lastFailedConnection := clock.failed }

/-- The breaker is closed and there was one attempt, or it is open and there was none. -/
structure Connected (clock : Clock) (c : RedisClient) (seen : List (Option (Ctx × Bool)))
    (c' : RedisClient) (seen' : List (Option (Ctx × Bool))) : Prop where
  opened : c.circuitBreaker clock = true → c' = c ∧ seen' = seen
  closed : c.circuitBreaker clock = false →
    ∃ answer, c' = c.afterConnect clock answer ∧ seen' = seen ++ [answer]

theorem ensures_connect (h : c.context = none) :
    (RedisClient.connect clock c).Ensures noteConnect (Connected clock c seen) seen := by
  unfold RedisClient.connect
  split
  · rename_i hopen
    exact ⟨fun _ => ⟨rfl, rfl⟩, fun hclosed => nomatch hopen.symm.trans hclosed⟩
  · rename_i hopen
    rw [h]
    rintro (_ | ⟨context, _ | _⟩)
    · exact fun _ => ⟨fun ht => absurd ht hopen, fun _ => ⟨none, rfl, rfl⟩⟩
    · exact fun _ => ⟨fun ht => absurd ht hopen, fun _ => ⟨some (context, false), rfl, rfl⟩⟩
    · exact fun _ => ⟨fun ht => absurd ht hopen, fun _ => ⟨some (context, true), rfl, rfl⟩⟩

/-- A body of `REDIS_CONNECT` that neither connects nor changes the client. -/
def Keeps {α : Type} (body : RedisClient → Call α) : Prop :=
  ∀ (c : RedisClient) (context : Ctx) (seen : List (Option (Ctx × Bool))),
    c.context = some context →
      (body c).Ensures noteConnect (fun r seen' => r.2 = c ∧ seen' = seen) seen

theorem ensures_withContext_some {α : Type} {failure : α} {body : RedisClient → Call α}
    (hbody : Keeps body) {context : Ctx} (h : c.context = some context) :
    (RedisClient.withContext clock failure body c).Ensures noteConnect
      (fun r seen' => r.2 = c ∧ seen' = seen) seen := by
  rw [RedisClient.withContext_some h]
  exact hbody c context seen h

theorem ensures_withContext_none {α : Type} {failure : α} {body : RedisClient → Call α}
    (hbody : Keeps body) (h : c.context = none) :
    (RedisClient.withContext clock failure body c).Ensures noteConnect
      (fun r seen' => Connected clock c seen r.2 seen') seen := by
  unfold RedisClient.withContext
  rw [h]
  refine (Prog.ensures_bind _ _).mpr ((ensures_connect h).mono fun c' seen' hconnected => ?_)
  cases hcontext : c'.context with
  | none => exact hconnected
  | some context =>
    refine (hbody c' context seen' hcontext).mono fun r seen'' hr => ?_
    rw [hr.1, hr.2]
    exact hconnected

/-- A command and the handling of its reply. -/
theorem keeps_command {α : Type} {args : List Bytes} {failure : α}
    {handle : RedisClient → Reply → Call α} (hhandle : ∀ reply, Keeps (handle · reply)) :
    Keeps fun c => RedisClient.command args failure (handle c) c := by
  intro c context seen h
  rintro (_ | reply)
  · exact ⟨rfl, rfl⟩
  · exact hhandle reply c context seen h

/-- Two bodies, one after the other. -/
theorem keeps_bind {α β : Type} {body : RedisClient → Call α} {f : α → RedisClient → Call β}
    (hbody : Keeps body) (hf : ∀ a, Keeps (f a)) :
    Keeps fun c => (body c).bind fun r => f r.1 r.2 := by
  intro c context seen h
  refine (Prog.ensures_bind _ _).mpr ((hbody c context seen h).mono fun r seen' hr => ?_)
  rw [hr.1, hr.2]
  exact hf r.1 c context seen h

theorem keeps_withContext {α : Type} {failure : α} {body : RedisClient → Call α}
    (hbody : Keeps body) : Keeps (RedisClient.withContext clock failure body) :=
  fun _ _ _ h => ensures_withContext_some hbody h

theorem keeps_done {α : Type} (a : α) : Keeps fun c => .done (a, c) := fun _ _ _ _ => ⟨rfl, rfl⟩

theorem keeps_bulk (res : Bytes) (reply : Reply) : Keeps (RedisClient.bulk res · reply) := by
  cases reply <;> exact keeps_done _

theorem keeps_typeReply (res : Bytes) (reply : Reply) :
    Keeps (RedisClient.typeReply res · reply) := by
  cases reply <;> exact keeps_done _

theorem keeps_hkeysReply (res : List Bytes) (reply : Reply) :
    Keeps (RedisClient.hkeysReply res · reply) := by
  cases reply <;> exact keeps_done _

theorem keeps_expire (key : Bytes) (value : UInt32) : Keeps (RedisClient.expire clock key value) :=
  keeps_withContext (keeps_command fun _ => keeps_done true)

theorem keeps_expireUnlessZero (key : Bytes) (expireValue : UInt32) :
    Keeps (RedisClient.expireUnlessZero clock key expireValue) := by
  intro c context seen h
  unfold RedisClient.expireUnlessZero
  split
  · exact ⟨rfl, rfl⟩
  · exact keeps_expire key expireValue c context seen h

theorem keeps_hsetCommand (key skey value : Bytes) (expireValue : UInt32) :
    Keeps (RedisClient.hsetCommand clock key skey value expireValue) :=
  keeps_command fun _ => keeps_expireUnlessZero key expireValue

theorem keeps_hsetVerified (key skey value : Bytes) (expireValue : UInt32) (type : Bytes) :
    Keeps (RedisClient.hsetVerified clock key skey value expireValue type) := by
  intro c context seen h
  unfold RedisClient.hsetVerified
  split
  · exact keeps_bind (keeps_withContext (keeps_command fun _ => keeps_done true))
      (fun _ => keeps_hsetCommand key skey value expireValue) c context seen h
  · exact keeps_hsetCommand key skey value expireValue c context seen h

/-- **All nine operations** are a `REDIS_CONNECT` around something that does not connect. -/
theorem program_eq_withContext (op : Operation) (clock : Clock) :
    ∃ (α : Type) (failure : α) (body : RedisClient → Call α), Keeps body ∧
      ∀ c, op.program clock c = (RedisClient.withContext clock failure body c).client := by
  cases op with
  | type key res => exact ⟨_, _, _, keeps_command (keeps_typeReply res), fun _ => rfl⟩
  | set key value expireValue =>
    exact ⟨_, _, _, keeps_command fun _ => keeps_expireUnlessZero key expireValue, fun _ => rfl⟩
  | get key res => exact ⟨_, _, _, keeps_command (keeps_bulk res), fun _ => rfl⟩
  | del key => exact ⟨_, _, _, keeps_command fun _ => keeps_done true, fun _ => rfl⟩
  | hset key skey value expireValue =>
    exact ⟨_, _, _, keeps_bind (keeps_withContext (keeps_command (keeps_typeReply [])))
      fun r => keeps_hsetVerified key skey value expireValue r.2, fun _ => rfl⟩
  | hget key skey res => exact ⟨_, _, _, keeps_command (keeps_bulk res), fun _ => rfl⟩
  | hdel key skey => exact ⟨_, _, _, keeps_command fun _ => keeps_done true, fun _ => rfl⟩
  | hkeys key res => exact ⟨_, _, _, keeps_command (keeps_hkeysReply res), fun _ => rfl⟩
  | expire key value => exact ⟨_, _, _, keeps_command fun _ => keeps_done true, fun _ => rfl⟩

/-- An operation on a context does not connect. -/
theorem ensures_program_some (op : Operation) {context : Ctx} (h : c.context = some context) :
    (op.program clock c).Ensures noteConnect (fun c' seen' => c' = c ∧ seen' = seen) seen := by
  obtain ⟨α, failure, body, hbody, hprogram⟩ := program_eq_withContext op clock
  rw [hprogram]
  exact (Prog.ensures_bind _ _).mpr (ensures_withContext_some hbody h)

/-- **Without a context** an operation connects once, unless the breaker is open. -/
theorem ensures_program_none (op : Operation) (h : c.context = none) :
    (op.program clock c).Ensures noteConnect (Connected clock c seen) seen := by
  obtain ⟨α, failure, body, hbody, hprogram⟩ := program_eq_withContext op clock
  rw [hprogram]
  exact (Prog.ensures_bind _ _).mpr (ensures_withContext_none hbody h)

end Operations

/-! ## Runs -/

namespace History

/-- `m_last_failed_connection`. -/
def lastFailed (s : History) : Int := s.client.elim 0 RedisClient.lastFailedConnection

/-- The client notes the last failure, and no other is later. -/
structure Noted (s : History) : Prop where
  last : (s.failures = [] ∧ s.lastFailed = 0) ∨ s.lastFailed ∈ s.failures
  bound : ∀ t ∈ s.failures, t ≤ s.lastFailed
  time : ∀ t ∈ s.failures, t ≤ s.time

theorem noted_initial : Noted {} where
  last := Or.inl ⟨rfl, rfl⟩
  bound _ h := absurd h List.not_mem_nil
  time _ h := absurd h List.not_mem_nil

theorem before_eq {s : History} {e : Event} {r : RedisClient × List (Σ call, Answer call)}
    (h : s.result e = some r) : (s.before e).context = s.context ∧
      (s.before e).lastFailedConnection = s.lastFailed := by
  unfold result at h
  unfold before context lastFailed
  split at h <;> rename_i hclient hactivity
  · rw [hclient, hactivity]
    exact ⟨rfl, rfl⟩
  · rw [hclient]
    exact ⟨rfl, rfl⟩
  · cases h
  · cases h

/-- An event on a context does not connect; any other connects as the breaker lets it. -/
theorem result_cases {s : History} {e : Event} {r : RedisClient × List (Σ call, Answer call)}
    (h : s.result e = some r) :
    (s.context ≠ none ∧ r.1 = s.before e ∧ connectAnswers r.2 = []) ∨
      (s.context = none ∧ Connected e.clock (s.before e) [] r.1 (connectAnswers r.2)) := by
  have hcontext := (before_eq h).1
  unfold result at h
  unfold before at hcontext ⊢
  split at h <;> rename_i hclient hactivity
  · obtain rfl := Option.some.inj h
    rw [hclient, hactivity] at hcontext ⊢
    exact Or.inr ⟨hcontext.symm, (ensures_connect rfl).exec e.oracle⟩
  · rename_i client op
    obtain rfl := Option.some.inj h
    rw [hclient] at hcontext ⊢
    cases hnone : client.context with
    | some context =>
      refine Or.inl ⟨fun hn => ?_, (ensures_program_some op hnone).exec e.oracle⟩
      exact nomatch hnone.symm.trans (hcontext.trans hn)
    | none =>
      exact Or.inr ⟨hcontext.symm.trans hnone, (ensures_program_none op hnone).exec e.oracle⟩
  · cases h
  · cases h

/-- **The breaker is closed** iff an interval has passed since every attempt that failed. -/
theorem circuitBreaker_iff {s : History} {e : Event} (hs : s.Noted) (htime : s.OnTime e)
    (hlast : (s.before e).lastFailedConnection = s.lastFailed) :
    (s.before e).circuitBreaker e.clock = false ↔
      ∀ t ∈ s.failures, t + (s.interval e).toNat ≤ e.clock.now := by
  rw [RedisClient.circuitBreaker, decide_eq_false_iff_not, hlast]
  have hinterval := htime.interval_le
  unfold interval at hinterval ⊢
  constructor
  · intro h t ht
    have hbound := hs.bound t ht
    omega
  · intro h
    rcases hs.last with ⟨-, hzero⟩ | hmem
    · omega
    · have hfailed := h _ hmem
      omega

theorem noted_same {s s' : History} (hs : s.Noted) (hfailures : s'.failures = s.failures)
    (hlast : s'.lastFailed = s.lastFailed) (htime : s.time ≤ s'.time) : s'.Noted where
  last := by
    rw [hfailures, hlast]
    exact hs.last
  bound := by
    rw [hfailures, hlast]
    exact hs.bound
  time t ht := by
    rw [hfailures] at ht
    exact (hs.time t ht).trans htime

/-- A failure that is not earlier than the others is the last one. -/
theorem noted_failed {s s' : History} {t : Int} (hs : s.Noted) (hle : s.time ≤ t)
    (hfailures : s'.failures = s.failures ++ [t]) (hlast : s'.lastFailed = t)
    (htime : s'.time = t) : s'.Noted := by
  have hall : ∀ u ∈ s'.failures, u ≤ t := by
    intro u hu
    rw [hfailures, List.mem_append] at hu
    rcases hu with hu | hu
    · exact (hs.time u hu).trans hle
    · exact (List.mem_singleton.mp hu).le
  constructor
  · right
    rw [hfailures, hlast]
    exact List.mem_append_right _ List.mem_cons_self
  · rwa [hlast]
  · rwa [htime]

theorem lastFailed_afterConnect (clock : Clock) (c : RedisClient) (answer : Option (Ctx × Bool)) :
    (c.afterConnect clock answer).lastFailedConnection =
      if connectFailed answer then clock.failed else c.lastFailedConnection := by
  rcases answer with _ | ⟨context, _ | _⟩ <;> rfl

/-- **A step is spaced**, and the failure it may have is noted. -/
theorem step_spaced {s s' : History} {e : Event} (hs : s.Noted) (htime : s.OnTime e)
    (h : s.step e = some s') : s.Spaced e ∧ s'.Noted := by
  obtain ⟨r, hr, rfl⟩ := Option.map_eq_some_iff.mp h
  have hattempts : s.Attempts e ↔ connectAnswers r.2 ≠ [] :=
    ⟨fun ⟨r', hr', hne⟩ => Option.some.inj (hr.symm.trans hr') ▸ hne, fun hne => ⟨r, hr, hne⟩⟩
  have hlast := (before_eq hr).2
  have hbreaker := circuitBreaker_iff hs htime hlast
  have hnow := htime.time_le.trans htime.now_le
  unfold Spaced
  rw [hattempts, ← hbreaker]
  rcases result_cases hr with ⟨hcontext, hclient, hnone⟩ | ⟨hcontext, hconnected⟩
  · refine ⟨iff_of_false (fun hne => hne hnone) fun hn => hcontext hn.1, ?_⟩
    refine noted_same hs (by simp [hnone]) ?_ hnow
    exact (congrArg RedisClient.lastFailedConnection hclient).trans hlast
  · cases hopen : (s.before e).circuitBreaker e.clock with
    | true =>
      obtain ⟨hclient, hnone⟩ := hconnected.opened hopen
      refine ⟨iff_of_false (fun hne => hne hnone) (fun hn => nomatch hn.2), ?_⟩
      refine noted_same hs (by simp [hnone]) ?_ hnow
      exact (congrArg RedisClient.lastFailedConnection hclient).trans hlast
    | false =>
      obtain ⟨answer, hclient, hone⟩ := hconnected.closed hopen
      rw [List.nil_append] at hone
      refine ⟨iff_of_true (by simp [hone]) ⟨hcontext, rfl⟩, ?_⟩
      have hafter := lastFailed_afterConnect e.clock (s.before e) answer
      rw [← hclient] at hafter
      cases hfailed : connectFailed answer with
      | false =>
        rw [hfailed] at hafter
        exact noted_same hs (by simp [hone, hfailed]) (hafter.trans hlast) hnow
      | true =>
        rw [hfailed] at hafter
        exact noted_failed hs hnow (by simp [hone, hfailed]) hafter rfl

/-- The interval is the one the client is constructed with. -/
theorem interval_step {s s' : History} {e : Event} (h : s.step e = some s') (e' : Event) :
    s'.interval e' = s.interval e := by
  obtain ⟨r, hr, rfl⟩ := Option.map_eq_some_iff.mp h
  change r.1.circuitBreakerInterval = (s.before e).circuitBreakerInterval
  rcases result_cases hr with ⟨-, hclient, -⟩ | ⟨-, hconnected⟩
  · rw [hclient]
  · cases hopen : (s.before e).circuitBreaker e.clock with
    | true => rw [(hconnected.opened hopen).1]
    | false =>
      obtain ⟨answer, hclient, -⟩ := hconnected.closed hopen
      rw [hclient]
      rcases answer with _ | ⟨context, _ | _⟩ <;> rfl

/-- A run from a state whose failures are noted. -/
theorem always_spaced_of_noted : ∀ (es : List Event) {s : History}, s.Noted →
    Always step OnTime s es → Always step Spaced s es
  | [], _, _, _ => trivial
  | _ :: es, _, hs, h => fun s' hs' => by
    obtain ⟨htime, hrest⟩ := h s' hs'
    obtain ⟨hspaced, hnoted⟩ := step_spaced hs htime hs'
    exact ⟨hspaced, always_spaced_of_noted es hnoted hrest⟩

/-- **Attempts are spaced** in every run on a clock that does not go back: an operation attempts to
connect iff it finds no context and an interval has passed since every attempt that failed. -/
theorem always_spaced (es : List Event) (h : Always step OnTime {} es) :
    Always step Spaced {} es :=
  always_spaced_of_noted es noted_initial h

/-- No Redis server listens. -/
def refusing : Prog.Oracle HiredisCall Answer
  | _, .redisConnect .. => some (0, true)
  | _, .redisFree _ => ()
  | _, .redisEnableKeepAlive _ => ()
  | _, .redisCommand .. => none

/-- The construction fails at 101; a `GET` at 130 does not connect, one at 161 does. -/
theorem always_spaced_refused : Always step Spaced {}
    [⟨.construct (ascii "localhost") 6379 60, ⟨100, 101⟩, refusing⟩,
      ⟨.operation (.get (ascii "key") []), ⟨130, 130⟩, refusing⟩,
      ⟨.operation (.get (ascii "key") []), ⟨161, 162⟩, refusing⟩] :=
  always_spaced _ (always_cons rfl ⟨by decide, by decide, by decide⟩
    (always_cons rfl ⟨by decide, by decide, by decide⟩
      (always_cons rfl ⟨by decide, by decide, by decide⟩ trivial)))

end History

end WinterWind.Redis
