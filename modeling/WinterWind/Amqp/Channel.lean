import WinterWind.Basic

/-!
# AMQP channels (`src/core/amqp/channel.cpp`)

The operations of `Channel`. Each is a function of the channel, its arguments and the library's
answer; its `Outcome` is the channel after the call, the returned value and the library calls that
sent something on the channel.

* `RpcReply` is what a synchronous method is answered by. The pointer librabbitmq returns for such
  a method is null unless the answer is normal.
* Most operations have one shape, `Channel.rpc`: `VERIFY_CHANNEL`, one library call, and a status
  read off its answer. They differ in what the status does to `m_valid`: `bind_exchange` and
  `unbind_exchange` assign it, `bind_queue`, `unbind_queue`, `basic_consume` and `basic_qos`
  invalidate the channel when it is false, and the others leave the channel alone.
* A returned `Exchange` or `Queue` is its name, since it is bound to the channel that made it.
* The overloads taking an `Exchange` or a `Queue` pass its name on, so they are not repeated. The
  handlers of returned messages are user code whose result is ignored; they are left out.

Results:
* **`perform_cases`**: what an operation can do to the validity of its channel.
-/

namespace WinterWind.Amqp

/-- How a synchronous method is answered. -/
inductive RpcReply where
  | normal
  | libraryException
  | serverException
  deriving Repr, DecidableEq

/-- The answer is normal, hence the returned pointer not null. -/
def RpcReply.ok : RpcReply → Bool
  | normal => true
  | libraryException => false
  | serverException => false

/-- `Channel::ExchangeType`. -/
inductive ExchangeType where
  | direct
  | fanout
  | topic
  deriving Repr, DecidableEq

/-- `exchange_type_str`. -/
def exchangeTypeStr : ExchangeType → Bytes
  | .direct => ascii "direct"
  | .fanout => ascii "fanout"
  | .topic => ascii "topic"

/-- The library calls that send on a channel, with the arguments the source gives them. -/
inductive AmqpCall where
  | channelOpen
  | channelClose
  | exchangeDeclare (exchange type : Bytes) (passive durable autoDelete internal : Bool)
  | exchangeDelete (exchange : Bytes) (ifUnused : Bool)
  | exchangeBind (destination source routingKey : Bytes)
  | exchangeUnbind (destination source routingKey : Bytes)
  | queueDeclare (queue : Bytes) (passive durable exclusive autoDelete : Bool)
  | queueDelete (queue : Bytes) (ifUnused ifEmpty : Bool)
  | queuePurge (queue : Bytes)
  | queueBind (queue exchange routingKey : Bytes)
  | queueUnbind (queue exchange routingKey : Bytes)
  | basicPublish (exchange routingKey : Bytes) (mandatory immediate : Bool) (body : Bytes)
  | basicConsume (queue consumerTag : Bytes) (noLocal noAck exclusive : Bool)
  | basicQos (prefetchSize : UInt32) (prefetchCount : UInt16) (global : Bool)
  | basicAck (deliveryTag : UInt64) (multiple : Bool)
  deriving Repr, DecidableEq

/-- What a delivery carries, less the message properties. -/
structure Envelope where
  consumerTag : Bytes
  deliveryTag : UInt64
  exchange : Bytes
  redelivered : Bool
  routingKey : Bytes
  body : Bytes
  deriving Repr, DecidableEq

/-- `EnvelopeCallbackFct`: `none` is an empty `std::function`. -/
abbrev EnvelopeCallback := Option (Envelope → Bool)

/-- `Message`, less its properties. -/
structure Message where
  data : Bytes
  mandatory : Bool := true
  immediate : Bool := false
  deriving Repr, DecidableEq

/-- `Channel`. -/
structure Channel where
  id : UInt16
  valid : Bool := true
  consumersCallbacks : UnorderedMap Bytes EnvelopeCallback := ∅

/-- The channel after a call, what the call returned, and what it sent. -/
structure Outcome (α : Type) where
  channel : Channel
  returned : α
  sent : List AmqpCall

namespace Channel

/-- `Channel::invalidate`. -/
def invalidate (c : Channel) : Channel := { c with valid := false }

/-- `Channel::close`. -/
def close (c : Channel) : Outcome Unit :=
  if c.valid then ⟨{ c with valid := false }, (), [.channelClose]⟩ else ⟨c, (), []⟩

/-- The shape of the synchronous operations: nothing on an invalid channel; otherwise one call,
whose status decides the channel and the returned value. -/
def rpc {α : Type} (c : Channel) (failure : α) (call : AmqpCall) (reply : RpcReply)
    (finish : Bool → Channel × α) : Outcome α :=
  if c.valid then ⟨(finish reply.ok).1, (finish reply.ok).2, [call]⟩ else ⟨c, failure, []⟩

variable (c : Channel) (reply : RpcReply)

def exchangeExists (exchangeName : Bytes) : Outcome Bool :=
  c.rpc false (.exchangeDeclare (cStr exchangeName) [] true false false false) reply
    fun status => (c, status)

def declareExchange (exchangeName : Bytes) (exchangeType : ExchangeType)
    (durable autoDelete : Bool) : Outcome (Option Bytes) :=
  c.rpc none (.exchangeDeclare (cStr exchangeName) (exchangeTypeStr exchangeType) false durable
    autoDelete false) reply fun status => (c, if status then some exchangeName else none)

def deleteExchange (exchangeName : Bytes) (onlyIfUnused : Bool) : Outcome Bool :=
  c.rpc false (.exchangeDelete (cStr exchangeName) onlyIfUnused) reply fun status => (c, status)

def bindExchange (destination source routingKey : Bytes) : Outcome Bool :=
  c.rpc false (.exchangeBind (cStr destination) (cStr source) (cStr routingKey)) reply
    fun status => ({ c with valid := status }, status)

def unbindExchange (destination source routingKey : Bytes) : Outcome Bool :=
  c.rpc false (.exchangeUnbind (cStr destination) (cStr source) (cStr routingKey)) reply
    fun status => ({ c with valid := status }, status)

def declareQueue (name : Bytes) (durable exclusive autoDelete : Bool) : Outcome (Option Bytes) :=
  c.rpc none (.queueDeclare (cStr name) false durable exclusive autoDelete) reply
    fun status => (c, if status then some name else none)

def removeQueue (name : Bytes) (onlyIfUnused onlyIfEmpty : Bool) : Outcome Bool :=
  c.rpc false (.queueDelete (cStr name) onlyIfUnused onlyIfEmpty) reply fun status => (c, status)

def purgeQueue (queue : Bytes) : Outcome Bool :=
  c.rpc false (.queuePurge (cStr queue)) reply fun status => (c, status)

def bindQueue (queue exchange routingKey : Bytes) : Outcome Bool :=
  c.rpc false (.queueBind (cStr queue) (cStr exchange) (cStr routingKey)) reply
    fun status => (if status then c else c.invalidate, status)

def unbindQueue (queue exchange routingKey : Bytes) : Outcome Bool :=
  c.rpc false (.queueUnbind (cStr queue) (cStr exchange) (cStr routingKey)) reply
    fun status => (if status then c else c.invalidate, status)

/-- A consumer tag that is registered already is refused before anything is sent. -/
def basicConsume (queue consumerTag : Bytes) (callback : EnvelopeCallback)
    (noLocal noAck exclusive : Bool) : Outcome Bool :=
  if c.valid && (c.consumersCallbacks.lookup consumerTag).isSome then ⟨c, false, []⟩
  else
    c.rpc false (.basicConsume (cStr queue) (cStr consumerTag) noLocal noAck exclusive) reply
      fun status =>
        (if status then
          { c with consumersCallbacks := c.consumersCallbacks.insert consumerTag callback }
        else c.invalidate, status)

def basicQos (prefetchCount : UInt16) (global : Bool) : Outcome Bool :=
  c.rpc false (.basicQos 0 prefetchCount global) reply
    fun status => (if status then c else c.invalidate, status)

/-- `Channel::basic_publish`: the library's status, and `false` as a status (which is
`AMQP_STATUS_OK`) on an invalid channel. -/
def basicPublish (exchange routingKey : Bytes) (message : Message) (status : Int32) :
    Outcome Int32 :=
  if c.valid then
    ⟨c, status, [.basicPublish (cStr exchange) (cStr routingKey) message.mandatory
      message.immediate message.data]⟩
  else ⟨c, 0, []⟩

/-- `Channel::on_envelope_received`. -/
def onEnvelopeReceived (envelope : Envelope) : Outcome Bool :=
  if c.valid then
    match c.consumersCallbacks.lookup envelope.consumerTag with
    | some (some callback) =>
      if callback envelope then ⟨c, true, [.basicAck envelope.deliveryTag false]⟩
      else ⟨c, false, []⟩
    | some none => ⟨c, false, []⟩
    | none => ⟨c, false, []⟩
  else ⟨c, false, []⟩

end Channel

/-! ## The operations as one type -/

/-- A call of a channel operation, with its arguments. -/
inductive Operation where
  | exchangeExists (exchangeName : Bytes)
  | declareExchange (exchangeName : Bytes) (exchangeType : ExchangeType)
      (durable autoDelete : Bool)
  | deleteExchange (exchangeName : Bytes) (onlyIfUnused : Bool)
  | bindExchange (destination source routingKey : Bytes)
  | unbindExchange (destination source routingKey : Bytes)
  | declareQueue (name : Bytes) (durable exclusive autoDelete : Bool)
  | removeQueue (name : Bytes) (onlyIfUnused onlyIfEmpty : Bool)
  | purgeQueue (queue : Bytes)
  | bindQueue (queue exchange routingKey : Bytes)
  | unbindQueue (queue exchange routingKey : Bytes)
  | basicConsume (queue consumerTag : Bytes) (callback : EnvelopeCallback)
      (noLocal noAck exclusive : Bool)
  | basicQos (prefetchCount : UInt16) (global : Bool)
  | basicPublish (exchange routingKey : Bytes) (message : Message) (status : Int32)

/-- The channel after an operation, and what the operation sent. -/
def Outcome.effect {α : Type} (o : Outcome α) : Channel × List AmqpCall := (o.channel, o.sent)

/-- Call an operation. -/
def Operation.perform (reply : RpcReply) (c : Channel) : Operation → Channel × List AmqpCall
  | .exchangeExists name => (c.exchangeExists reply name).effect
  | .declareExchange name type durable autoDelete =>
    (c.declareExchange reply name type durable autoDelete).effect
  | .deleteExchange name onlyIfUnused => (c.deleteExchange reply name onlyIfUnused).effect
  | .bindExchange destination source routingKey =>
    (c.bindExchange reply destination source routingKey).effect
  | .unbindExchange destination source routingKey =>
    (c.unbindExchange reply destination source routingKey).effect
  | .declareQueue name durable exclusive autoDelete =>
    (c.declareQueue reply name durable exclusive autoDelete).effect
  | .removeQueue name onlyIfUnused onlyIfEmpty =>
    (c.removeQueue reply name onlyIfUnused onlyIfEmpty).effect
  | .purgeQueue queue => (c.purgeQueue reply queue).effect
  | .bindQueue queue exchange routingKey => (c.bindQueue reply queue exchange routingKey).effect
  | .unbindQueue queue exchange routingKey =>
    (c.unbindQueue reply queue exchange routingKey).effect
  | .basicConsume queue consumerTag callback noLocal noAck exclusive =>
    (c.basicConsume reply queue consumerTag callback noLocal noAck exclusive).effect
  | .basicQos prefetchCount global => (c.basicQos reply prefetchCount global).effect
  | .basicPublish exchange routingKey message status =>
    (c.basicPublish exchange routingKey message status).effect

/-- The answer means that the broker closed the channel: a server exception or a null pointer, which
is what every error of a synchronous method comes to. `basic_publish` has no answer. -/
def Operation.closedBy (reply : RpcReply) : Operation → Bool
  | .basicPublish .. => false
  | _ => !reply.ok

/-- The operation invalidates its channel when the answer is an error. -/
def Operation.invalidates : Operation → Bool
  | .bindExchange .. => true
  | .unbindExchange .. => true
  | .bindQueue .. => true
  | .unbindQueue .. => true
  | .basicConsume .. => true
  | .basicQos .. => true
  | _ => false

/-- An operation on an invalid channel changes nothing and sends nothing. -/
theorem perform_of_invalid {c : Channel} (hv : c.valid = false) (reply : RpcReply)
    (op : Operation) : op.perform reply c = (c, []) := by
  obtain ⟨id, valid, callbacks⟩ := c
  obtain rfl : valid = false := hv
  cases op <;> rfl

/-- On a valid one all but `basic_consume` send one call, which is no acknowledgement, and the
answer decides only whether the channel stays valid. -/
theorem perform_of_valid {c : Channel} (hv : c.valid = true) (reply : RpcReply) (op : Operation) :
    (∃ queue consumerTag callback noLocal noAck exclusive,
      op = .basicConsume queue consumerTag callback noLocal noAck exclusive) ∨
    (∀ queue consumerTag callback noLocal noAck exclusive,
      op ≠ .basicConsume queue consumerTag callback noLocal noAck exclusive) ∧
    ∃ call, (∀ deliveryTag multiple, call ≠ .basicAck deliveryTag multiple) ∧
      op.perform reply c = ({ c with valid := !(op.invalidates && !reply.ok) }, [call]) := by
  obtain ⟨id, valid, callbacks⟩ := c
  obtain rfl : valid = true := hv
  cases op with
  | basicConsume queue consumerTag callback noLocal noAck exclusive =>
    exact Or.inl ⟨queue, consumerTag, callback, noLocal, noAck, exclusive, rfl⟩
  | _ =>
    refine Or.inr ⟨fun _ _ _ _ _ _ => by simp, ?_⟩
    cases reply <;> exact ⟨_, fun _ _ => by simp, rfl⟩

/-- **What an operation does to its channel.** It keeps the id. It sends nothing and leaves the
channel as it was; or the channel was valid, it sends one call, and the channel stays valid unless
the operation is one of those that invalidate and the answer was an error. -/
theorem perform_cases (c : Channel) (reply : RpcReply) (op : Operation) :
    (op.perform reply c).1.id = c.id ∧
      (op.perform reply c = (c, []) ∨
        c.valid = true ∧ (op.perform reply c).2 ≠ [] ∧
          (op.perform reply c).1.valid = !(op.invalidates && !reply.ok)) := by
  by_cases hv : c.valid = true
  · rcases perform_of_valid hv reply op with
      ⟨queue, consumerTag, callback, noLocal, noAck, exclusive, rfl⟩ | ⟨-, call, -, hperform⟩
    · by_cases hr : (c.consumersCallbacks.lookup consumerTag).isSome = true
      · simp [Operation.perform, Channel.basicConsume, Outcome.effect, hv, hr]
      · cases reply <;>
          simp [Operation.perform, Channel.basicConsume, Channel.rpc, Channel.invalidate,
            Outcome.effect, Operation.invalidates, RpcReply.ok, hv, hr]
    · rw [hperform]
      exact ⟨rfl, Or.inr ⟨hv, List.cons_ne_nil call [], rfl⟩⟩
  · rw [perform_of_invalid (Bool.eq_false_iff.mpr hv)]
    exact ⟨rfl, Or.inl rfl⟩

end WinterWind.Amqp
