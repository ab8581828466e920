import WinterWind.Library.Simulation
import WinterWind.Redis.ErrorReplies
import WinterWind.Redis.SetGet

/-!
# A client and its database (`src/core/redisclient.cpp`)

What a user of one `RedisClient` sees of a healthy server, over any sequence of the nine
operations.

* `DataServer` is a server that does what Redis documents for the nine commands the client sends:
  strings, hashes, values of the other types, and the lifetimes of keys. A hash without fields does
  not exist, `SET` ends a lifetime, `HSET` keeps it. The order in which `HKEYS` lists the fields is
  left open. Limits of the server (512 MB for a string, its memory) and lifetimes of single fields,
  which no command of the client sets, are left out.
* There is no clock: a key that has a lifetime may be dropped before any command (`Elapses`), so
  also between the commands of one operation.
* `Operation.slot` and `Operation.Result` are the operations as the user means them: one update of
  one key, and the result read from what the key held. `UserStep` is the machine made of them: a
  lifetime may elapse before an operation and after it, and while there is no connection, an
  operation may also be refused.

Results:
* `elapses_expireUnlessZero`, `timely_hset`: a lifetime that elapses within an operation has elapsed
  before it or after it.
* `performs_operation`: what an operation does on a context. `hset` is up to four commands.
* `withContext_cases`: without a context, an operation is refused or runs on a new one.
* **`client_refines_database`**: every run of a client is a run of `UserStep`.
-/

namespace WinterWind.Redis

open Library

/-! ## The database -/

/-- The name of a type whose values none of the nine commands makes. -/
abbrev OtherType :=
  { name : Bytes // name ≠ ascii "none" ∧ name ≠ ascii "string" ∧ name ≠ ascii "hash" }

/-- What a key that exists holds. -/
inductive Datum where
  | string (value : Bytes)
  | hash (fields : UnorderedMap Bytes Bytes)
  | other (type : OtherType)

structure Entry where
  datum : Datum
  lifetime : Lifetime

abbrev Database := Bytes → Option Entry

/-- The lifetime of a key may elapse, and the key is dropped. -/
inductive Elapses : Option Entry → Option Entry → Prop
  | kept (slot : Option Entry) : Elapses slot slot
  | dropped (datum : Datum) (n : Int) : Elapses (some ⟨datum, .seconds n⟩) none

/-- The slot of a key whose lifetime is set to `n` seconds. -/
def expireSlot (n : Int) (slot : Option Entry) : Option Entry :=
  if 0 < n then slot.map fun entry => { entry with lifetime := .seconds n } else none

/-- `HSET`, which refuses what is not a hash. -/
def setField (field value : Bytes) : Option Entry → Option Entry
  | none => some ⟨.hash ((∅ : UnorderedMap Bytes Bytes).insert field value), .unlimited⟩
  | some ⟨.hash fields, lifetime⟩ => some ⟨.hash (fields.insert field value), lifetime⟩
  | some entry => some entry

/-- `HDEL`: the key goes with its last field. -/
def removeField (field : Bytes) : Option Entry → Option Entry
  | some ⟨.hash fields, lifetime⟩ =>
    if fields.erase field = ∅ then none else some ⟨.hash (fields.erase field), lifetime⟩
  | slot => slot

/-- The name that `TYPE` answers with. -/
def typeName : Option Entry → Bytes
  | none => ascii "none"
  | some ⟨.string _, _⟩ => ascii "string"
  | some ⟨.hash _, _⟩ => ascii "hash"
  | some ⟨.other type, _⟩ => type.1

/-- The text of the error for a value of the wrong kind. -/
def wrongKind : Bytes :=
  ascii "WRONGTYPE Operation against a key holding the wrong kind of value"

/-! ## The server -/

/-- The commands the client sends. A lifetime is an `int`. -/
inductive Command where
  | type (key : Bytes)
  | set (key value : Bytes)
  | get (key : Bytes)
  | del (key : Bytes)
  | expire (key : Bytes) (n : Int32)
  | hset (key field value : Bytes)
  | hdel (key field : Bytes)
  | hget (key field : Bytes)
  | hkeys (key : Bytes)

namespace Command

/-- The command as it is sent. -/
def args : Command → List Bytes
  | type key => [ascii "TYPE", key]
  | set key value => [ascii "SET", key, value]
  | get key => [ascii "GET", key]
  | del key => [ascii "DEL", key]
  | expire key n => [ascii "EXPIRE", key, ascii (toString n.toInt)]
  | hset key field value => [ascii "HSET", key, field, value]
  | hdel key field => [ascii "HDEL", key, field]
  | hget key field => [ascii "HGET", key, field]
  | hkeys key => [ascii "HKEYS", key]

def key : Command → Bytes
  | type key => key
  | set key _ => key
  | get key => key
  | del key => key
  | expire key _ => key
  | hset key _ _ => key
  | hdel key _ => key
  | hget key _ => key
  | hkeys key => key

/-- What the command makes of the slot of its key. -/
def slot : Command → Option Entry → Option Entry
  | set _ value, _ => some ⟨.string value, .unlimited⟩
  | del _, _ => none
  | expire _ n, slot => expireSlot n.toInt slot
  | hset _ field value, slot => setField field value slot
  | hdel _ field, slot => removeField field slot
  | _, slot => slot

/-- What the command is answered, by what its key holds. -/
def Answered : Command → Option Entry → Reply → Prop
  | type _, slot, reply => reply = .status (typeName slot)
  | set .., _, reply => reply = .status (ascii "OK")
  | get _, none, reply => reply = .nil
  | get _, some ⟨.string value, _⟩, reply => reply = .string value
  | get _, some _, reply => reply = .error wrongKind
  | del _, slot, reply => reply = .integer (if slot.isSome then 1 else 0)
  | expire .., slot, reply => reply = .integer (if slot.isSome then 1 else 0)
  | hset .., none, reply => reply = .integer 1
  | hset _ field _, some ⟨.hash fields, _⟩, reply =>
    reply = .integer (if field ∈ fields then 0 else 1)
  | hset .., some _, reply => reply = .error wrongKind
  | hdel .., none, reply => reply = .integer 0
  | hdel _ field, some ⟨.hash fields, _⟩, reply =>
    reply = .integer (if field ∈ fields then 1 else 0)
  | hdel .., some _, reply => reply = .error wrongKind
  | hget .., none, reply => reply = .nil
  | hget _ field, some ⟨.hash fields, _⟩, reply =>
    reply = ((fields.lookup field).map Reply.string).getD .nil
  | hget .., some _, reply => reply = .error wrongKind
  | hkeys _, none, reply => reply = .array []
  | hkeys _, some ⟨.hash fields, _⟩, reply =>
    ∃ order : Iteration fields, reply = .array (order.pairs.map Sigma.fst)
  | hkeys _, some _, reply => reply = .error wrongKind

end Command

/-- A healthy Redis server that nobody else writes to. A command finds what time has left of the
keys. -/
structure DataServer where
  Store : Type
  initial : Store
  database : Store → Database
  execute : Store → List Bytes → Reply × Store
  executed : ∀ store (command : Command), ∃ slot, Elapses (database store command.key) slot ∧
    command.Answered slot (execute store command.args).1 ∧
    database (execute store command.args).2 command.key = command.slot slot
  others : ∀ store (command : Command) key, key ≠ command.key →
    Elapses (database store key) (database (execute store command.args).2 key)

/-- The calls of hiredis in front of a server, `redisConnect` with this answer. -/
def DataServer.serve (server : DataServer) (connected : Option (Ctx × Bool))
    (store : server.Store) : (call : HiredisCall) → Answer call × server.Store
  | .redisConnect .. => (connected, store)
  | .redisFree _ => ((), store)
  | .redisEnableKeepAlive _ => ((), store)
  | .redisCommand _ args => (some (server.execute store args).1, (server.execute store args).2)

/-! ## The operations as they are meant -/

/-- `expire_value == 0 || expire(key, expire_value)`. -/
def expireUnlessZero (expireValue : UInt32) (slot : Option Entry) : Option Entry :=
  if expireValue = 0 then slot else expireSlot (toInt expireValue.toNat) slot

/-- A field of a hash is assigned; what is not a hash is replaced by one. -/
def assignField (field value : Bytes) : Option Entry → Option Entry
  | some ⟨.hash fields, lifetime⟩ => some ⟨.hash (fields.insert field value), lifetime⟩
  | _ => some ⟨.hash ((∅ : UnorderedMap Bytes Bytes).insert field value), .unlimited⟩

/-- What `hset` means for the slot of its key. -/
def hsetSlot (skey value : Bytes) (expireValue : UInt32) (slot : Option Entry) : Option Entry :=
  expireUnlessZero expireValue (assignField (cStr skey) (cStr value) slot)

namespace Operation

def key : Operation → Bytes
  | type key _ => key
  | set key _ _ => key
  | get key _ => key
  | del key => key
  | hset key _ _ _ => key
  | hget key _ _ => key
  | hdel key _ => key
  | hkeys key _ => key
  | expire key _ => key

/-- What the operation makes of the slot of its key. -/
def slot : Operation → Option Entry → Option Entry
  | set _ value expireValue, _ =>
    expireUnlessZero expireValue (some ⟨.string (cStr value), .unlimited⟩)
  | del _, _ => none
  | hset _ skey value expireValue, slot => hsetSlot skey value expireValue slot
  | hdel _ skey, slot => removeField (cStr skey) slot
  | expire _ value, slot => expireSlot (toInt value.toNat) slot
  | _, slot => slot

/-- What the operation returns and leaves in its output parameter. A value of the wrong kind is
reported as if its error text were the value. -/
def Result : Operation → Option Entry → Bool × Argument → Prop
  | type .., slot, r => r = (true, .text (typeName slot))
  | get _ res, none, r => r = (false, .text res)
  | get .., some ⟨.string value, _⟩, r => r = (true, .text value)
  | get .., some _, r => r = (true, .text wrongKind)
  | hget _ _ res, none, r => r = (false, .text res)
  | hget _ skey res, some ⟨.hash fields, _⟩, r =>
    r = ((fields.lookup (cStr skey)).map fun value => (true, Argument.text value)).getD
      (false, .text res)
  | hget .., some _, r => r = (true, .text wrongKind)
  | hkeys _ res, some ⟨.hash fields, _⟩, r =>
    ∃ order : Iteration fields, r = (true, .texts (res ++ order.pairs.map Sigma.fst))
  | hkeys _ res, _, r => r = (true, .texts res)
  | _, _, r => r = (true, .none)

end Operation

/-- What a user sees: an operation with its result. -/
abbrev Observation := Operation × (Bool × Argument)

/-- Whether the client has a connection, and the database. -/
structure UserState where
  connected : Bool
  database : Database

/-- A result and an update of one slot at one moment, with time before it and after it. -/
def Timely {α : Type} (Result : Option Entry → α → Prop) (slot : Option Entry → Option Entry)
    (s : Option Entry) (r : α) (s' : Option Entry) : Prop :=
  ∃ now, Elapses s now ∧ Result now r ∧ Elapses (slot now) s'

/-- The machine a user can think of. -/
inductive UserStep : UserState → Observation → UserState → Prop
  | served (connected : Bool) (db db' : Database) (op : Operation) (r : Bool × Argument)
    (own : Timely op.Result op.slot (db (cStr op.key)) r (db' (cStr op.key)))
    (others : ∀ key, key ≠ cStr op.key → Elapses (db key) (db' key)) :
    UserStep ⟨connected, db⟩ (op, r) ⟨true, db'⟩
  | refused (db : Database) (op : Operation) :
    UserStep ⟨false, db⟩ (op, (false, op.argument)) ⟨false, db⟩

/-! ## Time between the commands -/

theorem Elapses.trans {s t u : Option Entry} (h : Elapses s t) (h' : Elapses t u) :
    Elapses s u := by
  cases h with
  | kept => exact h'
  | dropped datum n =>
    cases h'
    exact .dropped datum n

theorem elapses_none {s : Option Entry} (h : Elapses none s) : s = none := by
  cases h
  rfl

/-- What has elapsed before `EXPIRE` may as well elapse after it. -/
theorem elapses_expireUnlessZero {s t : Option Entry} (h : Elapses s t) (value : UInt32) :
    Elapses (expireUnlessZero value s) (expireUnlessZero value t) := by
  cases h with
  | kept => exact .kept _
  | dropped datum n =>
    unfold expireUnlessZero
    split
    · exact .dropped datum n
    · unfold expireSlot
      split
      · exact .dropped datum _
      · exact .kept none

/-- The call returns `true`, whatever the key holds. -/
def Succeeds (_ : Option Entry) (r : Bool) : Prop := r = true

/-- An update with `EXPIRE` behind it. -/
theorem timely_thenExpire {slot : Option Entry → Option Entry} {value : UInt32}
    {s s' : Option Entry} {r : Bool}
    (h : ∃ now, Elapses s now ∧ Timely Succeeds (expireUnlessZero value) (slot now) r s') :
    Timely Succeeds (fun s => expireUnlessZero value (slot s)) s r s' := by
  obtain ⟨now, hnow, then', hthen, hr, hend⟩ := h
  exact ⟨now, hnow, hr, (elapses_expireUnlessZero hthen value).trans hend⟩

/-- `TYPE` says that the key holds what is no hash. -/
def IsWrong (type : Bytes) : Prop := type ≠ ascii "hash" ∧ type ≠ ascii "none"

instance (type : Bytes) : Decidable (IsWrong type) :=
  inferInstanceAs (Decidable (type ≠ ascii "hash" ∧ type ≠ ascii "none"))

theorem assignField_of_isWrong {s : Option Entry} (h : IsWrong (typeName s)) (field value : Bytes) :
    assignField field value s = setField field value none := by
  rcases s with _ | ⟨v | fields | type, lifetime⟩
  · exact absurd rfl h.2
  · rfl
  · exact absurd rfl h.1
  · rfl

theorem assignField_of_not_isWrong {s t : Option Entry} (h : ¬IsWrong (typeName s))
    (hst : Elapses s t) (field value : Bytes) :
    assignField field value t = setField field value t := by
  cases hst with
  | dropped => rfl
  | kept =>
    rcases s with _ | ⟨v | fields | type, lifetime⟩
    · rfl
    · exact absurd ⟨by dsimp only [typeName]; decide, by dsimp only [typeName]; decide⟩ h
    · rfl
    · exact absurd ⟨type.2.2.2, type.2.1⟩ h

/-- **The commands of `hset`**: whatever elapses between `TYPE` and `HSET`, it assigns the field. -/
theorem timely_hset {skey value : Bytes} {expireValue : UInt32} {s s' : Option Entry} {r : Bool}
    (h : ∃ now then', Elapses s now ∧ Elapses now then' ∧
      Timely Succeeds (fun slot => expireUnlessZero expireValue
        (setField (cStr skey) (cStr value) (if IsWrong (typeName now) then none else slot)))
        then' r s') :
    Timely Succeeds (hsetSlot skey value expireValue) s r s' := by
  obtain ⟨now, then', hnow, hthen, last, hlast, hr, hend⟩ := h
  by_cases hwrong : IsWrong (typeName now)
  · refine ⟨now, hnow, hr, ?_⟩
    rw [hsetSlot, assignField_of_isWrong hwrong]
    simpa only [if_pos hwrong] using hend
  · refine ⟨last, (hnow.trans hthen).trans hlast, hr, ?_⟩
    rw [hsetSlot, assignField_of_not_isWrong hwrong (hthen.trans hlast)]
    simpa only [if_neg hwrong] using hend

/-! ## The operations on a context -/

variable {server : DataServer} {connected : Option (Ctx × Bool)} {clock : Clock} {c : RedisClient}
  {context : Ctx} {store : server.Store}

/-- The run of a call ends with a result, with the client as it was and with one slot changed as `E`
says; the others may have elapsed. -/
def Performs {α : Type} (server : DataServer) (connected : Option (Ctx × Bool)) (c : RedisClient)
    (store : server.Store) (key : Bytes) (E : Option Entry → α → Option Entry → Prop)
    (call : Call α) : Prop :=
  ∃ r store', call.perform (server.serve connected) store = ((r, c), store') ∧
    E (server.database store key) r (server.database store' key) ∧
    ∀ other, other ≠ key → Elapses (server.database store other) (server.database store' other)

theorem Performs.imp {α : Type} {key : Bytes} {E E' : Option Entry → α → Option Entry → Prop}
    {call : Call α} (h : Performs server connected c store key E call)
    (himp : ∀ s r s', E s r s' → E' s r s') : Performs server connected c store key E' call := by
  obtain ⟨r, store', hrun, hown, hothers⟩ := h
  exact ⟨r, store', hrun, himp _ _ _ hown, hothers⟩

theorem performs_map {α β : Type} (g : α → β) {key : Bytes}
    {E : Option Entry → α → Option Entry → Prop} {E' : Option Entry → β → Option Entry → Prop}
    {call : Call α} (h : Performs server connected c store key E call)
    (himp : ∀ s r s', E s r s' → E' s (g r) s') :
    Performs server connected c store key E' (call.map g) := by
  obtain ⟨r, store', hrun, hown, hothers⟩ := h
  refine ⟨g r, store', ?_, himp _ _ _ hown, hothers⟩
  rw [Call.map, Prog.perform_bind, hrun]
  rfl

/-- One call after another on the same key. -/
theorem performs_bind {α β : Type} {key : Bytes} {E : Option Entry → α → Option Entry → Prop}
    {E' : α → Option Entry → β → Option Entry → Prop} {call : Call α}
    {f : α × RedisClient → Call β} (h : Performs server connected c store key E call)
    (hf : ∀ r store', Performs server connected c store' key (E' r) (f (r, c))) :
    Performs server connected c store key
      (fun s r s'' => ∃ r' s', E s r' s' ∧ E' r' s' r s'') (call.bind f) := by
  obtain ⟨r, store', hrun, hown, hothers⟩ := h
  obtain ⟨r', store'', hrun', hown', hothers'⟩ := hf r store'
  refine ⟨r', store'', ?_, ⟨r, _, hown, hown'⟩, fun other hother => ?_⟩
  · rw [Prog.perform_bind, hrun]
    exact hrun'
  · exact (hothers other hother).trans (hothers' other hother)

/-- One command, whose reply is turned into the result. -/
theorem performs_command {α : Type} (command : Command) {failure : α}
    {handle : Reply → Call α} {Result : Option Entry → α → Prop}
    (h : ∀ slot reply, command.Answered slot reply → ∃ r, handle reply = .done (r, c) ∧
      Result slot r) :
    Performs server connected c store command.key (Timely Result command.slot)
      (RedisClient.command command.args failure handle c) := by
  obtain ⟨slot, hslot, hanswered, hexecuted⟩ := server.executed store command
  obtain ⟨r, hr, hresult⟩ := h _ _ hanswered
  refine ⟨r, (server.execute store command.args).2, ?_, ⟨slot, hslot, hresult, ?_⟩,
    server.others store command⟩
  · change (handle (server.execute store command.args).1).perform _ _ = _
    rw [hr]
    rfl
  · rw [hexecuted]
    exact .kept _

/-- One command whose reply is not looked at, and a call behind it. -/
theorem performs_command_then {α : Type} (command : Command) {failure : α} {call : Call α}
    {E : Option Entry → α → Option Entry → Prop}
    (h : ∀ store', Performs server connected c store' command.key E call) :
    Performs server connected c store command.key
      (fun s r s' => ∃ now, Elapses s now ∧ E (command.slot now) r s')
      (RedisClient.command command.args failure (fun _ => call) c) := by
  obtain ⟨slot, hslot, -, hexecuted⟩ := server.executed store command
  obtain ⟨r, store', hrun, hown, hothers⟩ := h (server.execute store command.args).2
  rw [hexecuted] at hown
  exact ⟨r, store', hrun, ⟨slot, hslot, hown⟩, fun other hother =>
    (server.others store command other hother).trans (hothers other hother)⟩

theorem toInt_toInt32 (value : UInt32) : value.toInt32.toInt = toInt value.toNat := by
  have hlt := value.toNat_lt
  change value.toBitVec.toInt = _
  rw [BitVec.toInt_eq_toNat_cond, toInt]
  change (if 2 * value.toNat < 2 ^ 32 then (value.toNat : Int) else value.toNat - 2 ^ 32) = _
  rw [Nat.mod_eq_of_lt hlt]
  split <;> split <;> omega

theorem performs_expire (h : c.context = some context) (key : Bytes) (value : UInt32) :
    Performs server connected c store (cStr key)
      (Timely Succeeds (expireSlot (toInt value.toNat))) (c.expire clock key value) := by
  unfold RedisClient.expire
  rw [RedisClient.withContext_some h, ← toInt_toInt32]
  exact performs_command (.expire (cStr key) value.toInt32) fun _ _ _ => ⟨true, rfl, rfl⟩

theorem performs_expireUnlessZero (h : c.context = some context) (key : Bytes) (value : UInt32) :
    Performs server connected c store (cStr key) (Timely Succeeds (expireUnlessZero value))
      (c.expireUnlessZero clock key value) := by
  unfold RedisClient.expireUnlessZero
  by_cases hzero : value = 0
  · rw [if_pos hzero]
    refine ⟨true, store, rfl, ⟨_, .kept _, rfl, ?_⟩, fun _ _ => .kept _⟩
    rw [expireUnlessZero, if_pos hzero]
    exact .kept _
  · rw [if_neg hzero, show expireUnlessZero value = expireSlot (toInt value.toNat) from
      funext fun slot => if_neg hzero]
    exact performs_expire h key value

/-- A command whose reply is freed, with `EXPIRE` behind it. -/
theorem performs_thenExpire (command : Command) (key : Bytes) (value : UInt32)
    (hkey : command.key = cStr key) (h : c.context = some context) :
    Performs server connected c store (cStr key)
      (Timely Succeeds fun slot => expireUnlessZero value (command.slot slot))
      (RedisClient.command command.args false
        (fun _ => c.expireUnlessZero clock key value) c) := by
  have hexpire (store' : server.Store) :=
    @performs_expireUnlessZero server connected clock c context store' h key value
  rw [← hkey] at hexpire ⊢
  exact (performs_command_then command hexpire).imp fun _ _ _ => timely_thenExpire

theorem performs_type (h : c.context = some context) (key res : Bytes) :
    Performs server connected c store (cStr key)
      (Timely (fun slot r => r = (true, typeName slot)) id) (c.type clock key res) := by
  unfold RedisClient.type
  rw [RedisClient.withContext_some h]
  refine performs_command (.type (cStr key)) fun slot reply hreply => ?_
  change reply = _ at hreply
  rw [hreply]
  exact ⟨(true, typeName slot), rfl, rfl⟩

theorem performs_del (h : c.context = some context) (key : Bytes) :
    Performs server connected c store (cStr key) (Timely Succeeds fun _ => none)
      (c.del clock key) := by
  unfold RedisClient.del
  rw [RedisClient.withContext_some h]
  exact performs_command (.del (cStr key)) fun _ _ _ => ⟨true, rfl, rfl⟩

/-- `HSET` and `EXPIRE`. -/
theorem performs_hsetCommand (h : c.context = some context) (key skey value : Bytes)
    (expireValue : UInt32) :
    Performs server connected c store (cStr key)
      (Timely Succeeds fun slot =>
        expireUnlessZero expireValue (setField (cStr skey) (cStr value) slot))
      (c.hsetCommand clock key skey value expireValue) :=
  performs_thenExpire (.hset (cStr key) (cStr skey) (cStr value)) key expireValue rfl h

/-- `hset` after `type`: what is not a hash is deleted first. -/
theorem performs_hsetVerified (h : c.context = some context) (key skey value type : Bytes)
    (expireValue : UInt32) :
    Performs server connected c store (cStr key)
      (Timely Succeeds fun slot => expireUnlessZero expireValue
        (setField (cStr skey) (cStr value) (if IsWrong type then none else slot)))
      (c.hsetVerified clock key skey value expireValue type) := by
  unfold RedisClient.hsetVerified
  by_cases hwrong : IsWrong type
  · have hdel : type ≠ ascii "hash" ∧ type ≠ ascii "none" := hwrong
    rw [if_pos hdel]
    simp only [if_pos hwrong]
    refine (performs_bind (performs_del h key) fun _ _ =>
      performs_hsetCommand h key skey value expireValue).imp ?_
    rintro s r s'' ⟨_, s', ⟨now, hnow, -, hdeleted⟩, then', hthen, hr, hend⟩
    obtain rfl := elapses_none hdeleted
    obtain rfl := elapses_none hthen
    exact ⟨now, hnow, hr, hend⟩
  · have hkeep : ¬(type ≠ ascii "hash" ∧ type ≠ ascii "none") := hwrong
    rw [if_neg hkeep]
    simp only [if_neg hwrong]
    exact performs_hsetCommand h key skey value expireValue

/-- **`hset` assigns a field**, in up to four commands. -/
theorem performs_hset (h : c.context = some context) (key skey value : Bytes)
    (expireValue : UInt32) :
    Performs server connected c store (cStr key)
      (Timely Succeeds (hsetSlot skey value expireValue))
      (c.hset clock key skey value expireValue) := by
  unfold RedisClient.hset
  rw [RedisClient.withContext_some h]
  refine (performs_bind (performs_type h key []) fun r _ =>
    performs_hsetVerified h key skey value r.2 expireValue).imp ?_
  rintro s r s'' ⟨_, then', ⟨now, hnow, rfl, hthen⟩, hverified⟩
  exact timely_hset ⟨now, then', hnow, hthen, hverified⟩

/-- The reply of `get` and `hget`, a string, an error or `nil`. -/
theorem bulk_eq (res : Bytes) (c : RedisClient) (text : Option Bytes) :
    RedisClient.bulk res c ((text.map Reply.string).getD .nil) =
      .done ((text.map fun value => (true, value)).getD (false, res), c) := by
  cases text <;> rfl

theorem performs_get (h : c.context = some context) (key res : Bytes) :
    Performs server connected c store (cStr key)
      (Timely (fun slot r => (Operation.get key res).Result slot (r.1, .text r.2)) id)
      (c.get clock key res) := by
  unfold RedisClient.get
  rw [RedisClient.withContext_some h]
  refine performs_command (.get (cStr key)) fun slot reply hreply => ?_
  rcases slot with _ | ⟨v | fields | type, lifetime⟩ <;> (change reply = _ at hreply; rw [hreply])
  · exact ⟨(false, res), rfl, rfl⟩
  · exact ⟨(true, v), rfl, rfl⟩
  · exact ⟨(true, wrongKind), rfl, rfl⟩
  · exact ⟨(true, wrongKind), rfl, rfl⟩

theorem performs_hget (h : c.context = some context) (key skey res : Bytes) :
    Performs server connected c store (cStr key)
      (Timely (fun slot r => (Operation.hget key skey res).Result slot (r.1, .text r.2)) id)
      (c.hget clock key skey res) := by
  unfold RedisClient.hget
  rw [RedisClient.withContext_some h]
  refine performs_command (.hget (cStr key) (cStr skey)) fun slot reply hreply => ?_
  rcases slot with _ | ⟨v | fields | type, lifetime⟩ <;> (change reply = _ at hreply; rw [hreply])
  · exact ⟨(false, res), rfl, rfl⟩
  · exact ⟨(true, wrongKind), rfl, rfl⟩
  · refine ⟨_, bulk_eq res c (fields.lookup (cStr skey)), ?_⟩
    dsimp only [Operation.Result]
    cases fields.lookup (cStr skey) <;> rfl
  · exact ⟨(true, wrongKind), rfl, rfl⟩

theorem performs_hkeys (h : c.context = some context) (key : Bytes) (res : List Bytes) :
    Performs server connected c store (cStr key)
      (Timely (fun slot r => (Operation.hkeys key res).Result slot (r.1, .texts r.2)) id)
      (c.hkeys clock key res) := by
  unfold RedisClient.hkeys
  rw [RedisClient.withContext_some h]
  refine performs_command (.hkeys (cStr key)) fun slot reply hreply => ?_
  rcases slot with _ | ⟨v | fields | type, lifetime⟩
  · change reply = _ at hreply
    rw [hreply]
    exact ⟨(true, res), by simp [RedisClient.hkeysReply], rfl⟩
  · change reply = _ at hreply
    rw [hreply]
    exact ⟨(true, res), rfl, rfl⟩
  · obtain ⟨order, rfl⟩ := hreply
    exact ⟨(true, res ++ order.pairs.map Sigma.fst), rfl, order, rfl⟩
  · change reply = _ at hreply
    rw [hreply]
    exact ⟨(true, res), rfl, rfl⟩

theorem performs_hdel (h : c.context = some context) (key skey : Bytes) :
    Performs server connected c store (cStr key) (Timely Succeeds (removeField (cStr skey)))
      (c.hdel clock key skey) := by
  unfold RedisClient.hdel
  rw [RedisClient.withContext_some h]
  exact performs_command (.hdel (cStr key) (cStr skey)) fun _ _ _ => ⟨true, rfl, rfl⟩

theorem performs_set (h : c.context = some context) (key value : Bytes) (expireValue : UInt32) :
    Performs server connected c store (cStr key)
      (Timely Succeeds fun _ =>
        expireUnlessZero expireValue (some ⟨.string (cStr value), .unlimited⟩))
      (c.set clock key value expireValue) := by
  unfold RedisClient.set
  rw [RedisClient.withContext_some h]
  exact performs_thenExpire (.set (cStr key) (cStr value)) key expireValue rfl h

/-- An operation without an output parameter. -/
theorem performs_flag {key : Bytes} {slot : Option Entry → Option Entry} {call : Call Bool}
    (h : Performs server connected c store key (Timely Succeeds slot) call) :
    Performs server connected c store key (Timely (fun _ r => r = (true, Argument.none)) slot)
      (call.map (·, Argument.none)) := by
  refine performs_map _ h ?_
  rintro s r s' ⟨now, hnow, hr, hend⟩
  exact ⟨now, hnow, congrArg (·, Argument.none) hr, hend⟩

/-- **An operation on a context** does to the database what it means. -/
theorem performs_operation (h : c.context = some context) (op : Operation) :
    Performs server connected c store (cStr op.key) (Timely op.Result op.slot)
      (op.call clock c) := by
  cases op with
  | type key res =>
    refine performs_map (fun r => (r.1, Argument.text r.2)) (performs_type h key res) ?_
    rintro s _ s' ⟨now, hnow, rfl, hend⟩
    exact ⟨now, hnow, rfl, hend⟩
  | set key value expireValue => exact performs_flag (performs_set h key value expireValue)
  | get key res =>
    refine performs_map (fun r => (r.1, Argument.text r.2)) (performs_get h key res) ?_
    exact fun _ _ _ hget => hget
  | del key => exact performs_flag (performs_del h key)
  | hset key skey value expireValue =>
    exact performs_flag (performs_hset h key skey value expireValue)
  | hget key skey res =>
    refine performs_map (fun r => (r.1, Argument.text r.2)) (performs_hget h key skey res) ?_
    exact fun _ _ _ hget => hget
  | hdel key skey => exact performs_flag (performs_hdel h key skey)
  | hkeys key res =>
    refine performs_map (fun r => (r.1, Argument.texts r.2)) (performs_hkeys h key res) ?_
    exact fun _ _ _ hkeys => hkeys
  | expire key value => exact performs_flag (performs_expire h key value)

/-! ## Without a context -/

/-- `connect` leaves the store alone. -/
theorem perform_connect_store (c : RedisClient) :
    ((RedisClient.connect clock c).perform (server.serve connected) store).2 = store := by
  have hreconnect (c : RedisClient) :
      ((RedisClient.reconnect clock c).perform (server.serve connected) store).2 = store := by
    unfold RedisClient.reconnect
    rcases connected with _ | ⟨context, _ | _⟩ <;> rfl
  unfold RedisClient.connect
  split
  · rfl
  · split
    · exact hreconnect c
    · exact hreconnect c

/-- Without a context `REDIS_CONNECT` fails and leaves none, or the body runs on a new one. -/
theorem withContext_cases {α : Type} (hnone : c.context = none) (failure : α)
    (body : RedisClient → Call α) :
    (∃ c', c'.context = none ∧
      (RedisClient.withContext clock failure body c).perform (server.serve connected) store =
        ((failure, c'), store)) ∨
      ∃ c' context, c'.context = some context ∧
        (RedisClient.withContext clock failure body c).perform (server.serve connected) store =
          (body c').perform (server.serve connected) store := by
  have hstore := @perform_connect_store server connected clock store c
  unfold RedisClient.withContext
  rw [hnone]
  dsimp only
  rw [Prog.perform_bind, hstore]
  generalize ((RedisClient.connect clock c).perform (server.serve connected) store).1 = c'
  cases hcontext : c'.context with
  | none => exact Or.inl ⟨c', hcontext, rfl⟩
  | some context => exact Or.inr ⟨c', context, hcontext, rfl⟩

/-- Every operation is a body behind `REDIS_CONNECT`. -/
theorem operation_withContext (op : Operation) (clock : Clock) :
    ∃ (α : Type) (failure : α) (g : α → Bool × Argument) (body : RedisClient → Call α),
      g failure = (false, op.argument) ∧
        ∀ c, op.call clock c = (RedisClient.withContext clock failure body c).map g := by
  cases op with
  | type _ res =>
    exact ⟨_, (false, res), fun r => (r.1, .text r.2), _, rfl, fun _ => rfl⟩
  | set => exact ⟨_, false, (·, .none), _, rfl, fun _ => rfl⟩
  | get _ res =>
    exact ⟨_, (false, res), fun r => (r.1, .text r.2), _, rfl, fun _ => rfl⟩
  | del => exact ⟨_, false, (·, .none), _, rfl, fun _ => rfl⟩
  | hset => exact ⟨_, false, (·, .none), _, rfl, fun _ => rfl⟩
  | hget _ _ res =>
    exact ⟨_, (false, res), fun r => (r.1, .text r.2), _, rfl, fun _ => rfl⟩
  | hdel => exact ⟨_, false, (·, .none), _, rfl, fun _ => rfl⟩
  | hkeys _ res =>
    exact ⟨_, (false, res), fun r => (r.1, .texts r.2), _, rfl, fun _ => rfl⟩
  | expire => exact ⟨_, false, (·, .none), _, rfl, fun _ => rfl⟩

/-- **An operation without a context** is refused, or is the operation on a new one. -/
theorem operation_cases (hnone : c.context = none) (op : Operation) :
    (∃ c', c'.context = none ∧ (op.call clock c).perform (server.serve connected) store =
        (((false, op.argument), c'), store)) ∨
      ∃ c' context, c'.context = some context ∧
        (op.call clock c).perform (server.serve connected) store =
          (op.call clock c').perform (server.serve connected) store := by
  obtain ⟨α, failure, g, body, hfailure, hcall⟩ := operation_withContext op clock
  simp only [hcall, Call.map, Prog.perform_bind]
  rcases @withContext_cases server connected clock c store α hnone failure body with
    ⟨c', hc', hrun⟩ | ⟨c', context, hc', hrun⟩
  · refine Or.inl ⟨c', hc', ?_⟩
    rw [hrun, ← hfailure]
    rfl
  · refine Or.inr ⟨c', context, hc', ?_⟩
    rw [hrun, RedisClient.withContext_some hc']

/-! ## Runs -/

/-- One operation of a client of the server, whatever `redisConnect` returns meanwhile and
whatever the time. -/
def Performed (server : DataServer) (s : RedisClient × server.Store) (e : Observation)
    (s' : RedisClient × server.Store) : Prop :=
  ∃ (clock : Clock) (connected : Option (Ctx × Bool)),
    (e.1.call clock s.1).perform (server.serve connected) s.2 = ((e.2, s'.1), s'.2)

/-- What of a client and a store is left to a user. -/
def userState (s : RedisClient × server.Store) : UserState :=
  ⟨s.1.context.isSome, server.database s.2⟩

theorem userStep_of_performs {op : Operation} (h : c.context = some context) (b : Bool)
    {r : Bool × Argument} {s' : RedisClient × server.Store}
    (hrun : (op.call clock c).perform (server.serve connected) store = ((r, s'.1), s'.2)) :
    UserStep ⟨b, server.database store⟩ (op, r) (userState s') := by
  obtain ⟨r', store', hrun', hown, hothers⟩ :=
    @performs_operation server connected clock c context store h op
  have heq := hrun'.symm.trans hrun
  simp only [Prod.mk.injEq] at heq
  obtain ⟨⟨rfl, rfl⟩, rfl⟩ := heq
  unfold userState
  rw [h]
  exact .served b _ _ op r' hown hothers

/-- **An operation is a step of the user's machine.** -/
theorem performed_simulates (server : DataServer) :
    Simulates (fun s t => userState s = t) (Performed server) UserStep := by
  rintro ⟨c, store⟩ _ ⟨op, r⟩ s' rfl ⟨clock, connected, hrun⟩
  refine ⟨userState s', ?_, rfl⟩
  cases hcontext : c.context with
  | some context => exact userStep_of_performs hcontext _ hrun
  | none =>
    rcases @operation_cases server connected clock c store hcontext op with
      ⟨c', hc', hrefused⟩ | ⟨c', context, hc', hnew⟩
    · have heq := hrefused.symm.trans hrun
      simp only [Prod.mk.injEq] at heq
      obtain ⟨⟨rfl, rfl⟩, rfl⟩ := heq
      unfold userState
      rw [hcontext, hc']
      exact .refused _ op
    · exact userStep_of_performs hc' _ (hnew.symm.trans hrun)

/-- **A client of a healthy server refines the database**: the results of any sequence of operations
are those of one update of one key each, with lifetimes that elapse before and after, from any state
of the client and any store. -/
theorem client_refines_database (server : DataServer) {c c' : RedisClient}
    {store store' : server.Store} {observations : List Observation}
    (hrun : Trace (Performed server) (c, store) observations (c', store')) :
    Trace UserStep ⟨c.context.isSome, server.database store⟩ observations
      ⟨c'.context.isSome, server.database store'⟩ := by
  obtain ⟨_, htrace, rfl⟩ := (performed_simulates server).trace rfl hrun
  exact htrace

/-! ## A server -/

namespace Command

/-- The command that was sent. -/
def parse : List Bytes → Option Command
  | [name, key] =>
    if name = ascii "TYPE" then some (.type key)
    else if name = ascii "GET" then some (.get key)
    else if name = ascii "DEL" then some (.del key)
    else if name = ascii "HKEYS" then some (.hkeys key)
    else none
  | [name, key, arg] =>
    if name = ascii "SET" then some (.set key arg)
    else if name = ascii "EXPIRE" then some (.expire key (.ofInt (readSigned arg)))
    else if name = ascii "HDEL" then some (.hdel key arg)
    else if name = ascii "HGET" then some (.hget key arg)
    else none
  | [name, key, field, value] => if name = ascii "HSET" then some (.hset key field value) else none
  | _ => none

theorem parse_args (command : Command) : parse command.args = some command := by
  cases command with
  | expire key n =>
    have hread : readSigned (ascii (toString n.toInt)) = n.toInt := by
      rw [ascii, map_toString, readSigned_signedDecimal]
    simp only [args, parse, hread, Int32.ofInt_toInt]
    rfl
  | _ => rfl

theorem exists_answered (command : Command) (slot : Option Entry) :
    ∃ reply, command.Answered slot reply := by
  cases command with
  | hkeys key =>
    rcases slot with _ | ⟨v | fields | type, lifetime⟩
    · exact ⟨_, rfl⟩
    · exact ⟨_, rfl⟩
    · obtain ⟨order⟩ := Iteration.nonempty fields
      exact ⟨_, order, rfl⟩
    · exact ⟨_, rfl⟩
  | _ => rcases slot with _ | ⟨v | fields | type, lifetime⟩ <;> exact ⟨_, rfl⟩

end Command

open Classical in
/-- A server that keeps its database in a table. -/
noncomputable def tableDataServer : DataServer where
  Store := Database
  initial := fun _ => none
  database store := store
  execute store args :=
    match Command.parse args with
    | some command =>
      (choose (command.exists_answered (store command.key)),
        Function.update store command.key (command.slot (store command.key)))
    | none => (.error (ascii "ERR unknown command"), store)
  executed store command := by
    simp only [Command.parse_args, Function.update_self]
    exact ⟨_, .kept _, choose_spec (command.exists_answered (store command.key)), rfl⟩
  others store command key hkey := by
    simp only [Command.parse_args, Function.update_of_ne hkey]
    exact .kept _

/-- `hset` on a key that holds a string. -/
theorem client_refines_database_hset : ∃ state,
    Trace UserStep ⟨true, fun _ => some ⟨.string (ascii "old"), .unlimited⟩⟩
      [(.hset (ascii "key") (ascii "field") (ascii "value") 0, (true, .none))] state := by
  let c : RedisClient := { context := some 0 }
  let db : Database := fun _ => some ⟨.string (ascii "old"), .unlimited⟩
  let op : Operation := .hset (ascii "key") (ascii "field") (ascii "value") 0
  obtain ⟨r, store', hrun, ⟨-, -, rfl, -⟩, -⟩ :=
    @performs_operation tableDataServer none ⟨0, 0⟩ c 0 db rfl op
  have htrace : Trace (Performed tableDataServer) (c, db) [(op, (true, .none))] (c, store') :=
    .cons ⟨⟨0, 0⟩, none, hrun⟩ (.nil _)
  exact ⟨_, client_refines_database tableDataServer htrace⟩

end WinterWind.Redis
