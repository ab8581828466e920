import Mathlib.Logic.Function.Basic
import WinterWind.Library.Decimal
import WinterWind.Redis.RedisClient

/-!
# `set` and `get` (`src/core/redisclient.cpp`)

A `set` and the `get` after it, on one server that answers as its documentation says
(`KeyServer`): `SET` stores a string without a lifetime, `EXPIRE` gives a key its lifetime in
seconds and deletes it when the number is not positive, `GET` answers with the string.

* `serve` is hiredis in front of that server. What `redisConnect` returns is left open.
* The client passes C strings to `%s`, and the `uint32_t` lifetime to `%d`, which prints an `int`.
* `SetGetAgree` asks for the lifetime under the key that was passed, all of its bytes.

Results:
* `set_connected`: what `set` leaves on the server.
* **`setGetAgree_iff`**: `set` and `get` agree iff the key and the value have no NUL and the
  lifetime is below `2^31`.
-/

namespace WinterWind.Redis

open Library

/-! ## The server -/

/-- The remaining lifetime of a key. -/
inductive Lifetime where
  | unlimited
  | seconds (n : Int)
  deriving Repr, DecidableEq

/-- What a key holds: nothing, a string, or a value of another type. -/
inductive Content where
  | absent
  | string (value : Bytes) (lifetime : Lifetime)
  | other (lifetime : Lifetime)
  deriving Repr, DecidableEq

/-- The lifetime of a key that exists. -/
def Content.lifetime : Content → Option Lifetime
  | .absent => none
  | .string _ lifetime => some lifetime
  | .other lifetime => some lifetime

/-- What `EXPIRE` makes of a key. -/
def Content.expire (n : Int) : Content → Content
  | .absent => .absent
  | .string value _ => if 0 < n then .string value (.seconds n) else .absent
  | .other _ => if 0 < n then .other (.seconds n) else .absent

/-- A healthy Redis server. -/
structure KeyServer where
  Store : Type
  initial : Store
  content : Store → Bytes → Content
  execute : Store → List Bytes → Reply × Store
  execute_set : ∀ store key value,
    content (execute store [ascii "SET", key, value]).2 =
      Function.update (content store) key (.string value .unlimited)
  execute_expire : ∀ store key (n : Int),
    content (execute store [ascii "EXPIRE", key, ascii (toString n)]).2 =
      Function.update (content store) key ((content store key).expire n)
  execute_get_string : ∀ store key value lifetime, content store key = .string value lifetime →
    (execute store [ascii "GET", key]).1 = .string value
  execute_get_absent : ∀ store key, content store key = .absent →
    (execute store [ascii "GET", key]).1 = .nil

/-- The calls of hiredis in front of a server, `redisConnect` with this answer. -/
def serve (server : KeyServer) (connected : Option (Ctx × Bool)) (store : server.Store) :
    (call : HiredisCall) → Answer call × server.Store
  | .redisConnect .. => (connected, store)
  | .redisFree _ => ((), store)
  | .redisEnableKeepAlive _ => ((), store)
  | .redisCommand _ args => (some (server.execute store args).1, (server.execute store args).2)

/-- The lifetime `set` asks for. -/
def askedLifetime (expireValue : UInt32) : Lifetime :=
  if expireValue = 0 then .unlimited else .seconds expireValue.toNat

/-- Whenever `set` returns `true`, `get` gives the value then, and the key has the lifetime. -/
def SetGetAgree (server : KeyServer) (key value : Bytes) (expireValue : UInt32) : Prop :=
  ∀ (connected : Option (Ctx × Bool)) (clock clock' : Clock) (c : RedisClient)
    (store : server.Store) (res : Bytes),
    let set := (c.set clock key value expireValue).perform (serve server connected) store
    set.1.1 = true →
      ((set.1.2.get clock' key res).perform (serve server connected) set.2).1.1 = (true, value) ∧
        (server.content set.2 key).lifetime = some (askedLifetime expireValue)

/-! ## The operations -/

variable {server : KeyServer} {connected : Option (Ctx × Bool)} {clock : Clock} {c : RedisClient}
  {store : server.Store}

theorem perform_connect : ((RedisClient.connect clock c).perform (serve server connected) store).2 =
    store := by
  have hreconnect (c : RedisClient) :
      ((RedisClient.reconnect clock c).perform (serve server connected) store).2 = store := by
    unfold RedisClient.reconnect
    rcases connected with _ | ⟨context, _ | _⟩ <;> rfl
  unfold RedisClient.connect
  split
  · rfl
  · split
    · exact hreconnect c
    · exact hreconnect c

/-- `REDIS_CONNECT` fails, or runs its body on a context and on the same store. -/
theorem perform_withContext {α : Type} (failure : α) (body : RedisClient → Call α) :
    ((RedisClient.withContext clock failure body c).perform (serve server connected) store).1.1 =
        failure ∨
      ∃ c' context, c'.context = some context ∧
        (RedisClient.withContext clock failure body c).perform (serve server connected) store =
          (body c').perform (serve server connected) store := by
  unfold RedisClient.withContext
  cases hcontext : c.context with
  | some context => exact Or.inr ⟨c, context, hcontext, rfl⟩
  | none =>
    have hstore := @perform_connect server connected clock c store
    dsimp only
    rw [Prog.perform_bind, hstore]
    generalize ((RedisClient.connect clock c).perform (serve server connected) store).1 = c'
    cases hcontext' : c'.context with
    | some context => exact Or.inr ⟨c', context, hcontext', rfl⟩
    | none => exact Or.inl rfl

/-- What `set` leaves under its key: the C strings, and the lifetime as an `int`. -/
def setContent (value : Bytes) (expireValue : UInt32) : Content :=
  if expireValue = 0 then .string (cStr value) .unlimited
  else (Content.string (cStr value) .unlimited).expire (toInt expireValue.toNat)

/-- **On a context** `set` returns `true`, keeps the client and changes one key. -/
theorem set_connected {context : Ctx} (h : c.context = some context) (key value : Bytes)
    (expireValue : UInt32) :
    let set := (c.set clock key value expireValue).perform (serve server connected) store
    set.1 = (true, c) ∧ server.content set.2 =
      Function.update (server.content store) (cStr key) (setContent value expireValue) := by
  have hset := server.execute_set store (cStr key) (cStr value)
  unfold RedisClient.set RedisClient.expireUnlessZero setContent
  rw [RedisClient.withContext_some h]
  split
  · exact ⟨rfl, hset⟩
  · unfold RedisClient.expire
    rw [RedisClient.withContext_some h]
    refine ⟨rfl, ?_⟩
    refine (server.execute_expire _ (cStr key) (toInt expireValue.toNat)).trans ?_
    dsimp only [serve]
    rw [hset, Function.update_idem, Function.update_self]

/-- A `set` that returns `true` ran on a context. -/
theorem set_cases (key value : Bytes) (expireValue : UInt32)
    (h : ((c.set clock key value expireValue).perform (serve server connected) store).1.1 =
      true) : ∃ (c' : RedisClient) (context : Ctx), c'.context = some context ∧
      (c.set clock key value expireValue).perform (serve server connected) store =
        (c'.set clock key value expireValue).perform (serve server connected) store := by
  unfold RedisClient.set at h ⊢
  rcases @perform_withContext server connected clock c store _ false _ with
    hfalse | ⟨c', context, hcontext, heq⟩
  · exact absurd (h.symm.trans hfalse) (by decide)
  · refine ⟨c', context, hcontext, heq.trans ?_⟩
    rw [RedisClient.withContext_some hcontext]

/-- `get` of a string, and of a key that does not exist. -/
theorem get_connected {context : Ctx} (h : c.context = some context) (key res : Bytes) :
    let get := (c.get clock key res).perform (serve server connected) store
    (∀ value lifetime, server.content store (cStr key) = .string value lifetime →
        get.1.1 = (true, value)) ∧
      (server.content store (cStr key) = .absent → get.1.1 = (false, res)) := by
  unfold RedisClient.get
  rw [RedisClient.withContext_some h]
  constructor
  · intro value lifetime hcontent
    have hreply := server.execute_get_string store (cStr key) value lifetime hcontent
    simp [RedisClient.command, serve, hreply, RedisClient.bulk]
  · intro hcontent
    have hreply := server.execute_get_absent store (cStr key) hcontent
    simp [RedisClient.command, serve, hreply, RedisClient.bulk]

/-! ## The law -/

theorem toInt_of_lt {n : Nat} (h : n < 2 ^ 31) : toInt n = n := by
  unfold toInt
  rw [if_pos (by omega)]
  omega

theorem toInt_neg_of_le {n : Nat} (h : 2 ^ 31 ≤ n) (hlt : n < 2 ^ 32) : toInt n < 0 := by
  unfold toInt
  rw [if_neg (by omega)]
  omega

/-- Below `2^31` a lifetime arrives as it is. -/
theorem setContent_of_lt {value : Bytes} {expireValue : UInt32} (h : expireValue.toNat < 2 ^ 31) :
    setContent value expireValue = .string (cStr value) (askedLifetime expireValue) := by
  unfold setContent askedLifetime
  split
  · rfl
  · rename_i hne
    have hpos : 0 < (expireValue.toNat : Int) := by
      have := UInt32.toNat_inj.not.mpr hne
      rw [UInt32.toNat_zero] at this
      omega
    rw [toInt_of_lt h, Content.expire, if_pos hpos]

/-- From `2^31` on the key is deleted. -/
theorem setContent_of_le {value : Bytes} {expireValue : UInt32} (h : 2 ^ 31 ≤ expireValue.toNat) :
    setContent value expireValue = .absent := by
  unfold setContent
  have hneg := toInt_neg_of_le h expireValue.toNat_lt
  rw [if_neg, Content.expire, if_neg (by omega)]
  rintro rfl
  rw [UInt32.toNat_zero] at h
  omega

/-- A store where a key has another lifetime. -/
theorem exists_lifetime_ne (server : KeyServer) (key : Bytes) (expireValue : UInt32) :
    ∃ store, (server.content store key).lifetime ≠ some (askedLifetime expireValue) := by
  have hset := server.execute_set server.initial key []
  by_cases h : expireValue = 0
  · refine ⟨(server.execute (server.execute server.initial [ascii "SET", key, []]).2
      [ascii "EXPIRE", key, ascii (toString (1 : Int))]).2, ?_⟩
    rw [server.execute_expire, hset, Function.update_self, Function.update_self, askedLifetime,
      if_pos h]
    simp [Content.expire, Content.lifetime]
  · refine ⟨(server.execute server.initial [ascii "SET", key, []]).2, ?_⟩
    rw [hset, Function.update_self, askedLifetime, if_neg h]
    simp [Content.lifetime]

/-- What agreement asks of a connected client. -/
theorem agree_connected (server : KeyServer) {key value : Bytes} {expireValue : UInt32}
    (h : SetGetAgree server key value expireValue) (store : server.Store) :
    0 ∉ value ∧ expireValue.toNat < 2 ^ 31 ∧
      (Function.update (server.content store) (cStr key) (setContent value expireValue)
        key).lifetime = some (askedLifetime expireValue) := by
  have hconnected : ({ context := some 0 } : RedisClient).context = some 0 := rfl
  have hset := @set_connected server none ⟨0, 0⟩ _ store 0 hconnected key value expireValue
  obtain ⟨hget, hlifetime⟩ := h none ⟨0, 0⟩ ⟨0, 0⟩ { context := some 0 } store []
    (congrArg Prod.fst hset.1)
  dsimp only at hset
  rw [hset.2] at hlifetime
  rw [hset.1] at hget
  obtain ⟨hstring, habsent⟩ := @get_connected server none ⟨0, 0⟩ _
    (RedisClient.set ⟨0, 0⟩ key value expireValue { context := some 0 } |>.perform
      (serve server none) store).2 0 hconnected key []
  rw [hset.2, Function.update_self] at hstring habsent
  have hexpire : expireValue.toNat < 2 ^ 31 := by
    by_contra hle
    have hfalse := habsent (setContent_of_le (Nat.le_of_not_lt hle))
    exact nomatch hget.symm.trans hfalse
  have hvalue := hstring _ _ (setContent_of_lt hexpire)
  have heq : cStr value = value := (Prod.mk.inj (hvalue.symm.trans hget)).2
  exact ⟨heq ▸ not_mem_cStr value, hexpire, hlifetime⟩

/-- **`set` and `get` agree** iff no NUL is in the key or the value and the lifetime is an `int`. -/
theorem setGetAgree_iff (server : KeyServer) (key value : Bytes) (expireValue : UInt32) :
    SetGetAgree server key value expireValue ↔
      0 ∉ key ∧ 0 ∉ value ∧ expireValue.toNat < 2 ^ 31 := by
  constructor
  · intro h
    obtain ⟨store, hstore⟩ := exists_lifetime_ne server key expireValue
    obtain ⟨hvalue, hexpire, hlifetime⟩ := agree_connected server h store
    refine ⟨fun hkey => ?_, hvalue, hexpire⟩
    have hne : key ≠ cStr key := fun heq => not_mem_cStr key (heq ▸ hkey)
    rw [Function.update_of_ne hne] at hlifetime
    exact hstore hlifetime
  · rintro ⟨hkey, hvalue, hexpire⟩ connected clock clock' c store res
    dsimp only
    intro htrue
    obtain ⟨c', context, hcontext, heq⟩ := set_cases key value expireValue htrue
    rw [heq]
    have hset := @set_connected server connected clock c' store context hcontext key value
      expireValue
    dsimp only at hset
    rw [hset.1, hset.2, setContent_of_lt hexpire, cStr_of_not_mem hkey, cStr_of_not_mem hvalue,
      Function.update_self]
    refine ⟨?_, rfl⟩
    refine (get_connected hcontext key res).1 value (askedLifetime expireValue) ?_
    rw [hset.2, setContent_of_lt hexpire, cStr_of_not_mem hkey, cStr_of_not_mem hvalue,
      Function.update_self]

/-- The reply of `GET`. -/
def getReply : Content → Reply
  | .absent => .nil
  | .string value _ => .string value
  | .other _ => .error (ascii "WRONGTYPE Operation against a key holding the wrong kind of value")

/-- A server that keeps its keys in a table. -/
def tableServer : KeyServer where
  Store := Bytes → Content
  initial := fun _ => .absent
  content store := store
  execute store
    | [name, key] =>
      if name = ascii "GET" then (getReply (store key), store)
      else (.error (ascii "ERR unknown command"), store)
    | [name, key, arg] =>
      if name = ascii "SET" then
        (.status (ascii "OK"), Function.update store key (.string arg .unlimited))
      else if name = ascii "EXPIRE" then
        (.integer (if store key = .absent then 0 else 1),
          Function.update store key ((store key).expire (readSigned arg)))
      else (.error (ascii "ERR unknown command"), store)
    | _ => (.error (ascii "ERR unknown command"), store)
  execute_set _ _ _ := rfl
  execute_expire store key n := by
    have hread : readSigned (ascii (toString n)) = n := by
      rw [ascii, map_toString, readSigned_signedDecimal]
    simp only [hread]
    rfl
  execute_get_string store key value lifetime h := by
    change getReply (store key) = _
    rw [h]
    rfl
  execute_get_absent store key h := by
    change getReply (store key) = _
    rw [h]
    rfl

/-- A lifetime of `2^31` seconds is printed as `-2147483648`, and the key is deleted. -/
theorem not_setGetAgree_expire :
    ¬SetGetAgree tableServer (ascii "key") (ascii "value") 2147483648 := fun h =>
  absurd (agree_connected tableServer h tableServer.initial).2.1 (by decide)

end WinterWind.Redis
