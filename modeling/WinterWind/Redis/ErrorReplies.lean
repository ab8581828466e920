import WinterWind.Redis.RedisClient

/-!
# Error replies (`src/core/redisclient.cpp`)

What the nine operations make of a reply of type `REDIS_REPLY_ERROR`. `type`, `get` and `hget` have
a case for it, which takes the text of the error for the value; `hkeys` prints it and returns
`true`; the others free the reply without a look at its type.

* `Operation.call` is an operation with what its user sees: the `bool`, and the output parameter
  (`Argument`) if it has one.
* `replies` lists the replies to the commands of a run, `none` being the null pointer.

Results:
* `client_call`: the program of an operation is its call without what the user sees.
* `ensures_withContext`: `REDIS_CONNECT` sends no command.
* **`errorsReported_iff`**: an operation makes no success of an error iff no command is answered by
  one, or its last command gets no reply at all.
-/

namespace WinterWind.Redis

open Library

/-- An output parameter. -/
inductive Argument where
  | none
  | text (value : Bytes)
  | texts (values : List Bytes)
  deriving Repr, DecidableEq

/-- A call whose value is read in another way. -/
def Call.map {α β : Type} (g : α → β) (call : Call α) : Call β :=
  call.bind fun r => .done (g r.1, r.2)

/-- The output parameter when the operation is called. -/
def Operation.argument : Operation → Argument
  | .type _ res => .text res
  | .get _ res => .text res
  | .hget _ _ res => .text res
  | .hkeys _ res => .texts res
  | _ => .none

/-- An operation with its `bool` and its output parameter. -/
def Operation.call (clock : Clock) (c : RedisClient) : Operation → Call (Bool × Argument)
  | .type key res => (c.type clock key res).map fun r => (r.1, .text r.2)
  | .set key value expireValue => (c.set clock key value expireValue).map (·, .none)
  | .get key res => (c.get clock key res).map fun r => (r.1, .text r.2)
  | .del key => (c.del clock key).map (·, .none)
  | .hset key skey value expireValue => (c.hset clock key skey value expireValue).map (·, .none)
  | .hget key skey res => (c.hget clock key skey res).map fun r => (r.1, .text r.2)
  | .hdel key skey => (c.hdel clock key skey).map (·, .none)
  | .hkeys key res => (c.hkeys clock key res).map fun r => (r.1, .texts r.2)
  | .expire key value => (c.expire clock key value).map (·, .none)

theorem client_map {α β : Type} (g : α → β) (call : Call α) :
    (call.map g).client = call.client :=
  Prog.bind_assoc _ _ call

/-- What an operation leaves its client is what its program does. -/
theorem client_call (op : Operation) (clock : Clock) (c : RedisClient) :
    (op.call clock c).client = op.program clock c := by
  cases op <;> simp only [Operation.call, Operation.program, client_map]

/-- The replies so far. -/
def noteReply (seen : List (Option Reply)) :
    (call : HiredisCall) → Answer call → List (Option Reply)
  | .redisConnect .., _ => seen
  | .redisFree _, _ => seen
  | .redisEnableKeepAlive _, _ => seen
  | .redisCommand .., reply => seen ++ [reply]

/-- The replies in a list of calls. -/
def replies (calls : List (Σ call, Answer call)) : List (Option Reply) :=
  calls.foldl (fun seen x => noteReply seen x.1 x.2) []

/-- The reply is of type `REDIS_REPLY_ERROR`. -/
def IsError (reply : Option Reply) : Prop := ∃ str, reply = some (.error str)

/-- With an error among the replies, the operation returns `false` and leaves its output parameter
as it was. -/
def ErrorsReported (op : Operation) (clock : Clock) (c : RedisClient)
    (oracle : Prog.Oracle HiredisCall Answer) : Prop :=
  let run := (op.call clock c).exec oracle
  (∃ reply ∈ replies run.2, IsError reply) → run.1.1 = (false, op.argument)

/-- No reply is an error, or there is no reply to the last command. -/
def NoErrorOrLost (op : Operation) (clock : Clock) (c : RedisClient)
    (oracle : Prog.Oracle HiredisCall Answer) : Prop :=
  let run := (op.call clock c).exec oracle
  (∀ reply ∈ replies run.2, ¬IsError reply) ∨ (replies run.2).getLast? = some none

/-! ## What the operations ensure -/

variable {clock : Clock} {c : RedisClient} {seen : List (Option Reply)}

/-- Once a reply is an error, the call fails exactly if its last command got no reply. -/
def Judged {α : Type} (failure : α) (r : α × RedisClient) (seen : List (Option Reply)) : Prop :=
  (∃ reply ∈ seen, IsError reply) → (r.1 = failure ↔ seen.getLast? = some none)

theorem ensures_connect_replies : (RedisClient.connect clock c).Ensures noteReply
    (fun _ seen' => seen' = seen) seen := by
  have hreconnect (c : RedisClient) : (RedisClient.reconnect clock c).Ensures noteReply
      (fun _ seen' => seen' = seen) seen := by
    rintro (_ | ⟨context, _ | _⟩) <;> exact fun _ => rfl
  unfold RedisClient.connect
  split
  · rfl
  · split
    · exact fun _ => hreconnect c
    · exact hreconnect c

/-- `REDIS_CONNECT` sends no command. -/
theorem ensures_withContext {α : Type} {failure : α} {body : RedisClient → Call α}
    {Post : α × RedisClient → List (Option Reply) → Prop}
    (hfailure : ∀ c', Post (failure, c') seen)
    (hbody : ∀ c' context, c'.context = some context → (body c').Ensures noteReply Post seen) :
    (RedisClient.withContext clock failure body c).Ensures noteReply Post seen := by
  unfold RedisClient.withContext
  split
  · rename_i context hcontext
    exact hbody c context hcontext
  · refine (Prog.ensures_bind _ _).mpr (ensures_connect_replies.mono fun c' seen' hseen => ?_)
    subst hseen
    split
    · rename_i context hcontext
      exact hbody c' context hcontext
    · exact hfailure c'

/-- The call returns `false` exactly if its last command got no reply. -/
def FailsLost (r : Bool × RedisClient) (seen : List (Option Reply)) : Prop :=
  r.1 = false ↔ seen.getLast? = some none

theorem failsLost_null (c : RedisClient) (seen : List (Option Reply)) :
    FailsLost (false, c) (seen ++ [none]) :=
  iff_of_true rfl List.getLast?_concat

theorem failsLost_reply (c : RedisClient) (seen : List (Option Reply)) (reply : Reply) :
    FailsLost (true, c) (seen ++ [some reply]) :=
  iff_of_false nofun (by simp)

/-- A command whose reply is freed without a look at it. -/
theorem ensures_unchecked (args : List Bytes) (c : RedisClient) (seen : List (Option Reply)) :
    (RedisClient.command args false (fun _ => .done (true, c)) c).Ensures noteReply FailsLost
      seen := by
  rintro (_ | reply)
  · exact failsLost_null c seen
  · exact failsLost_reply c seen reply

/-- Such a command with `EXPIRE` behind it. -/
theorem ensures_thenExpire (args : List Bytes) (key : Bytes) (expireValue : UInt32) {context : Ctx}
    (h : c.context = some context) (seen : List (Option Reply)) :
    (RedisClient.command args false (fun _ => c.expireUnlessZero clock key expireValue) c).Ensures
      noteReply FailsLost seen := by
  rintro (_ | reply)
  · exact failsLost_null c seen
  · dsimp only [RedisClient.expireUnlessZero]
    split
    · exact failsLost_reply c seen reply
    · unfold RedisClient.expire
      rw [RedisClient.withContext_some h]
      exact ensures_unchecked _ c _

/-- `hset` on a context. -/
theorem ensures_hset (key skey value : Bytes) (expireValue : UInt32) {context : Ctx}
    (h : c.context = some context) (seen : List (Option Reply)) :
    (c.hset clock key skey value expireValue).Ensures noteReply FailsLost seen := by
  have hcommand : ∀ seen, (c.hsetCommand clock key skey value expireValue).Ensures noteReply
      FailsLost seen := ensures_thenExpire _ key expireValue h
  have hverified : ∀ type seen, (c.hsetVerified clock key skey value expireValue type).Ensures
      noteReply FailsLost seen := by
    intro type seen
    unfold RedisClient.hsetVerified
    split
    · unfold RedisClient.del
      rw [RedisClient.withContext_some h]
      rintro (_ | reply)
      · exact hcommand _
      · exact hcommand _
    · exact hcommand seen
  unfold RedisClient.hset RedisClient.type
  rw [RedisClient.withContext_some h, RedisClient.withContext_some h]
  rintro (_ | reply)
  · exact hverified _ _
  · cases reply <;> exact hverified _ _

theorem judged_of_failsLost {r : Bool × RedisClient} (h : FailsLost r seen) :
    Judged (false, Argument.none) ((r.1, Argument.none), r.2) seen := by
  refine fun _ => Iff.trans ?_ h
  simp

/-- One of the operations without an output parameter. -/
theorem ensures_flag {body : RedisClient → Call Bool}
    (hbody : ∀ (c : RedisClient) (context : Ctx), c.context = some context →
      (body c).Ensures noteReply FailsLost []) :
    ((RedisClient.withContext clock false body c).map (·, Argument.none)).Ensures noteReply
      (Judged (false, Argument.none)) [] := by
  refine (Prog.ensures_bind _ _).mpr (ensures_withContext ?_ fun c' context h => ?_)
  · exact fun _ ⟨_, hmem, _⟩ => absurd hmem List.not_mem_nil
  · exact (hbody c' context h).mono fun _ _ hfails => judged_of_failsLost hfails

/-- The reply is handled without another call, and an error with success. -/
def TakesErrors {α : Type} (handle : RedisClient → Reply → Call (Bool × α)) : Prop :=
  ∀ (c : RedisClient) (reply : Reply), ∃ r, handle c reply = .done (r, c) ∧
    ∀ str, reply = .error str → r.1 = true

theorem takesErrors_typeReply (res : Bytes) : TakesErrors (RedisClient.typeReply res) :=
  fun _ reply => by cases reply <;> exact ⟨_, rfl, by simp⟩

theorem takesErrors_bulk (res : Bytes) : TakesErrors (RedisClient.bulk res) :=
  fun _ reply => by cases reply <;> exact ⟨_, rfl, by simp⟩

theorem takesErrors_hkeysReply (res : List Bytes) : TakesErrors (RedisClient.hkeysReply res) :=
  fun _ reply => by cases reply <;> exact ⟨_, rfl, by simp⟩

/-- One of the operations with an output parameter: its one command gets no reply, and it fails; or
an error, and it succeeds. -/
theorem ensures_reading {α : Type} {args : List Bytes} {res : α} {read : α → Argument}
    {handle : RedisClient → Reply → Call (Bool × α)} (hhandle : TakesErrors handle) :
    ((RedisClient.withContext clock (false, res)
      (fun c => RedisClient.command args (false, res) (handle c) c) c).map
        fun r => (r.1, read r.2)).Ensures noteReply (Judged (false, read res)) [] := by
  refine (Prog.ensures_bind _ _).mpr (ensures_withContext ?_ fun c' context h => ?_)
  · exact fun _ ⟨_, hmem, _⟩ => absurd hmem List.not_mem_nil
  · rintro (_ | reply)
    · exact fun _ => iff_of_true rfl rfl
    · obtain ⟨r, hr, hsuccess⟩ := hhandle c' reply
      dsimp only
      rw [hr]
      rintro ⟨_, hmem, str, rfl⟩
      obtain rfl := Option.some.inj (List.mem_singleton.mp hmem).symm
      refine iff_of_false (fun heq => ?_) (by simp [noteReply])
      exact Bool.noConfusion ((hsuccess str rfl).symm.trans (Prod.mk.inj heq).1)

/-- **Once a reply is an error**, an operation fails exactly if its last command got no reply. -/
theorem ensures_call (op : Operation) (clock : Clock) (c : RedisClient) :
    (op.call clock c).Ensures noteReply (Judged (false, op.argument)) [] := by
  cases op with
  | type key res => exact ensures_reading (takesErrors_typeReply res)
  | set key value expireValue =>
    exact ensures_flag fun _ _ h => ensures_thenExpire _ key expireValue h []
  | get key res => exact ensures_reading (takesErrors_bulk res)
  | del key => exact ensures_flag fun c _ _ => ensures_unchecked _ c []
  | hset key skey value expireValue =>
    refine ensures_flag fun c context h => ?_
    have hset := @ensures_hset clock c key skey value expireValue context h []
    rwa [RedisClient.hset, RedisClient.withContext_some h] at hset
  | hget key skey res => exact ensures_reading (takesErrors_bulk res)
  | hdel key skey => exact ensures_flag fun c _ _ => ensures_unchecked _ c []
  | hkeys key res => exact ensures_reading (takesErrors_hkeysReply res)
  | expire key value => exact ensures_flag fun c _ _ => ensures_unchecked _ c []

/-! ## The law -/

/-- **An error reply is reported** iff there is none, or the last command gets no reply at all. -/
theorem errorsReported_iff (op : Operation) (clock : Clock) (c : RedisClient)
    (oracle : Prog.Oracle HiredisCall Answer) :
    ErrorsReported op clock c oracle ↔ NoErrorOrLost op clock c oracle := by
  have hjudged := (ensures_call op clock c).exec oracle
  unfold ErrorsReported NoErrorOrLost
  dsimp only
  constructor
  · intro h
    by_cases herror : ∃ reply ∈ replies ((op.call clock c).exec oracle).2, IsError reply
    · exact Or.inr ((hjudged herror).mp (h herror))
    · exact Or.inl fun reply hmem hreply => herror ⟨reply, hmem, hreply⟩
  · rintro (hnone | hlost) herror
    · obtain ⟨reply, hmem, hreply⟩ := herror
      exact absurd hreply (hnone reply hmem)
    · exact (hjudged herror).mpr hlost

/-- The server answers every command with this text as an error. -/
def erring (str : Bytes) : Prog.Oracle HiredisCall Answer
  | _, .redisConnect .. => some (0, false)
  | _, .redisFree _ => ()
  | _, .redisEnableKeepAlive _ => ()
  | _, .redisCommand .. => some (.error str)

/-- `get` gives the text of the error as the value of the key. -/
theorem not_errorsReported_get :
    ¬ErrorsReported (.get (ascii "key") []) ⟨1, 1⟩ { context := some 0 }
      (erring (ascii "WRONGTYPE Operation against a key holding the wrong kind of value")) := by
  intro h
  exact nomatch h ⟨_, List.mem_singleton_self _, _, rfl⟩

end WinterWind.Redis
