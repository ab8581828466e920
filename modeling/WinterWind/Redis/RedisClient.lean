import WinterWind.Basic
import WinterWind.Library.Interaction

/-!
# The Redis client (`src/core/redisclient.cpp`)

The operations of `RedisClient` as programs over the calls of hiredis. A `redisContext *` is a
number, and `none` is the null pointer.

* `time(nullptr)` is read by `connect` on entry and after a failed connection: the two readings of
  an operation are its `Clock`.
* `redisCommand` formats its arguments from C strings, so a string is cut at its first NUL. The
  `int` that `redisEnableKeepAlive` returns is ignored.
* The macro `REDIS_CONNECT` is `withContext`, and `redisCommand` with `REDIS_REPLY_HANDLER` is
  `command`. The messages printed on errors are left out.
* An operation gives its `bool`, its output parameter if it has one, and the client.
-/

namespace WinterWind.Redis

open Library

/-- A `redisContext *` that is not null. -/
abbrev Ctx := Nat

/-- The calls of hiredis. -/
inductive HiredisCall where
  | redisConnect (ip : Bytes) (port : UInt16)
  | redisFree (context : Option Ctx)
  | redisEnableKeepAlive (context : Option Ctx)
  | redisCommand (context : Option Ctx) (args : List Bytes)
  deriving Repr, DecidableEq

/-- `redisReply`. -/
inductive Reply where
  | string (str : Bytes)
  | error (str : Bytes)
  | status (str : Bytes)
  | integer (value : Int)
  | array (elements : List Bytes)
  | nil
  deriving Repr, DecidableEq

/-- What a call returns: a context with whether its `err` is set, or null; a reply, or null. -/
@[reducible]
def Answer : HiredisCall → Type
  | .redisConnect .. => Option (Ctx × Bool)
  | .redisFree _ => Unit
  | .redisEnableKeepAlive _ => Unit
  | .redisCommand .. => Option Reply

/-- `RedisClient`. -/
structure RedisClient where
  host : Bytes := []
  port : UInt16 := 6379
  circuitBreakerInterval : UInt32 := 60
  lastFailedConnection : Int := 0
  context : Option Ctx := none
  deriving Repr, DecidableEq

/-- The readings of `time(nullptr)`: on entry of `connect`, and after its connection failed. -/
structure Clock where
  now : Int
  failed : Int
  deriving Repr, DecidableEq

/-- A program of the client that returns an `α`. -/
abbrev Call (α : Type) := Prog HiredisCall Answer (α × RedisClient)

namespace RedisClient

variable (clock : Clock)

/-- The part of `connect` after the old context is freed. -/
def reconnect (c : RedisClient) : Prog HiredisCall Answer RedisClient :=
  .call (.redisConnect (cStr c.host) c.port) fun
    | none =>
      -- The null context is reported, and the function goes on with it.
      .call (.redisEnableKeepAlive none) fun _ =>
        .done { c with context := none, lastFailedConnection := clock.failed }
    | some (context, err) =>
      if err then
        .call (.redisFree (some context)) fun _ =>
          .done { c with context := none, lastFailedConnection := clock.failed }
      else
        .call (.redisEnableKeepAlive (some context)) fun _ =>
          .done { c with context := some context }

/-- The circuit breaker of `connect`: its last connection failed too recently. -/
def circuitBreaker (c : RedisClient) : Bool :=
  decide (clock.now - c.lastFailedConnection < c.circuitBreakerInterval.toNat)

/-- `RedisClient::connect`. -/
def connect (c : RedisClient) : Prog HiredisCall Answer RedisClient :=
  if circuitBreaker clock c then .done c
  else
    match c.context with
    | some context => .call (.redisFree (some context)) fun _ => reconnect clock c
    | none => reconnect clock c

/-- `REDIS_CONNECT`, returning `failure` without a context. -/
def withContext {α : Type} (failure : α) (body : RedisClient → Call α) (c : RedisClient) :
    Call α :=
  match c.context with
  | some _ => body c
  | none =>
    (connect clock c).bind fun c =>
      match c.context with
      | some _ => body c
      | none => .done (failure, c)

/-- `redisCommand` and `REDIS_REPLY_HANDLER`, returning `failure` on a null reply. -/
def command {α : Type} (args : List Bytes) (failure : α) (handle : Reply → Call α)
    (c : RedisClient) : Call α :=
  .call (.redisCommand c.context args) fun
    | none => .done (failure, c)
    | some reply => handle reply

/-- The reply of `type`. -/
def typeReply (res : Bytes) (c : RedisClient) : Reply → Call (Bool × Bytes)
  | .string str => .done ((true, str), c)
  | .error str => .done ((true, str), c)
  | .status str => .done ((true, str), c)
  | .nil => .done ((false, res), c)
  | _ => .done ((false, res), c)

/-- `RedisClient::type`. -/
def type (key res : Bytes) (c : RedisClient) : Call (Bool × Bytes) :=
  withContext clock (false, res)
    (fun c => command [ascii "TYPE", cStr key] (false, res) (typeReply res c) c) c

/-- `RedisClient::expire`: the value is printed as an `int`. -/
def expire (key : Bytes) (value : UInt32) (c : RedisClient) : Call Bool :=
  withContext clock false
    (fun c => command [ascii "EXPIRE", cStr key, ascii (toString (toInt value.toNat))] false
      (fun _ => .done (true, c)) c) c

/-- `expire_value == 0 || expire(key, expire_value)`. -/
def expireUnlessZero (key : Bytes) (expireValue : UInt32) (c : RedisClient) : Call Bool :=
  if expireValue = 0 then .done (true, c) else expire clock key expireValue c

/-- `RedisClient::set`. -/
def set (key value : Bytes) (expireValue : UInt32) (c : RedisClient) : Call Bool :=
  withContext clock false
    (fun c => command [ascii "SET", cStr key, cStr value] false
      (fun _ => expireUnlessZero clock key expireValue c) c) c

/-- The reply of `get` and `hget`. -/
def bulk (res : Bytes) (c : RedisClient) : Reply → Call (Bool × Bytes)
  | .string str => .done ((true, str), c)
  | .error str => .done ((true, str), c)
  | .nil => .done ((false, res), c)
  | _ => .done ((false, res), c)

/-- `RedisClient::get`. -/
def get (key res : Bytes) (c : RedisClient) : Call (Bool × Bytes) :=
  withContext clock (false, res)
    (fun c => command [ascii "GET", cStr key] (false, res) (bulk res c) c) c

/-- `RedisClient::del`. -/
def del (key : Bytes) (c : RedisClient) : Call Bool :=
  withContext clock false
    (fun c => command [ascii "DEL", cStr key] false (fun _ => .done (true, c)) c) c

/-- The last command of `hset`. -/
def hsetCommand (key skey value : Bytes) (expireValue : UInt32) (c : RedisClient) : Call Bool :=
  command [ascii "HSET", cStr key, cStr skey, cStr value] false
    (fun _ => expireUnlessZero clock key expireValue c) c

/-- `hset` after `type`, with the type it found: `del` when it is the wrong one, and `HSET`. -/
def hsetVerified (key skey value : Bytes) (expireValue : UInt32) (typeVerification : Bytes)
    (c : RedisClient) : Call Bool :=
  if typeVerification ≠ ascii "hash" ∧ typeVerification ≠ ascii "none" then
    (del clock key c).bind fun r => hsetCommand clock key skey value expireValue r.2
  else hsetCommand clock key skey value expireValue c

/-- `RedisClient::hset`: what `type` and `del` return is not looked at. -/
def hset (key skey value : Bytes) (expireValue : UInt32) (c : RedisClient) : Call Bool :=
  withContext clock false
    (fun c => (type clock key [] c).bind fun r =>
      hsetVerified clock key skey value expireValue r.1.2 r.2) c

/-- `RedisClient::hdel`. -/
def hdel (key skey : Bytes) (c : RedisClient) : Call Bool :=
  withContext clock false
    (fun c => command [ascii "HDEL", cStr key, cStr skey] false (fun _ => .done (true, c)) c) c

/-- `RedisClient::hget`. -/
def hget (key skey res : Bytes) (c : RedisClient) : Call (Bool × Bytes) :=
  withContext clock (false, res)
    (fun c => command [ascii "HGET", cStr key, cStr skey] (false, res) (bulk res c) c) c

/-- The reply of `hkeys`: an error is reported, and the call succeeds without keys. -/
def hkeysReply (res : List Bytes) (c : RedisClient) : Reply → Call (Bool × List Bytes)
  | .error _ => .done ((true, res), c)
  | .array elements => .done ((true, res ++ elements), c)
  | .nil => .done ((false, res), c)
  | _ => .done ((false, res), c)

/-- `RedisClient::hkeys`. -/
def hkeys (key : Bytes) (res : List Bytes) (c : RedisClient) : Call (Bool × List Bytes) :=
  withContext clock (false, res)
    (fun c => command [ascii "HKEYS", cStr key] (false, res) (hkeysReply res c) c) c

end RedisClient

/-- A call of an operation, with its arguments. -/
inductive Operation where
  | type (key res : Bytes)
  | set (key value : Bytes) (expireValue : UInt32)
  | get (key res : Bytes)
  | del (key : Bytes)
  | hset (key skey value : Bytes) (expireValue : UInt32)
  | hget (key skey res : Bytes)
  | hdel (key skey : Bytes)
  | hkeys (key : Bytes) (res : List Bytes)
  | expire (key : Bytes) (value : UInt32)
  deriving Repr, DecidableEq

/-- The client an operation leaves. -/
def Call.client {α : Type} (call : Call α) : Prog HiredisCall Answer RedisClient :=
  call.bind fun r => .done r.2

/-- The program of an operation. -/
def Operation.program (clock : Clock) (c : RedisClient) :
    Operation → Prog HiredisCall Answer RedisClient
  | .type key res => (c.type clock key res).client
  | .set key value expireValue => (c.set clock key value expireValue).client
  | .get key res => (c.get clock key res).client
  | .del key => (c.del clock key).client
  | .hset key skey value expireValue => (c.hset clock key skey value expireValue).client
  | .hget key skey res => (c.hget clock key skey res).client
  | .hdel key skey => (c.hdel clock key skey).client
  | .hkeys key res => (c.hkeys clock key res).client
  | .expire key value => (c.expire clock key value).client

/-! ## With a context -/

namespace RedisClient

variable {clock : Clock} {c : RedisClient} {context : Ctx}

theorem withContext_some (h : c.context = some context) {α : Type} (failure : α)
    (body : RedisClient → Call α) : withContext clock failure body c = body c := by
  unfold withContext
  rw [h]

end RedisClient

end WinterWind.Redis
