import WinterWind.Amqp.Connection

/-!
# Queues and exchanges (`src/core/amqp/queue.cpp`, `src/core/amqp/exchange.cpp`)

A `Queue` or an `Exchange` is a name and a `std::weak_ptr` to the channel that declared it, here
the index of that channel. Their operations lock the pointer and pass the name on to an operation
of the channel.

* `Connection.destroyed` is what `~Connection` leaves of the channels.
* `Operation.isPublic` is what the access specifiers of `channel.h` leave to users of a channel.
* `Operation.succeeds` reads the returned value in the operation's own convention: `true`, a
  pointer that is not null, or for `basic_publish` the status `AMQP_STATUS_OK`, which is 0.

Results:
* `succeeds_of_invalid`: on an invalid channel `basic_publish` alone reports success.
-/

namespace WinterWind.Amqp

/-- `Exchange`, which is bound to the channel that declared it. -/
structure Exchange where
  name : Bytes
  channel : Nat
  deriving Repr, DecidableEq

/-- `Queue`, likewise. -/
structure Queue where
  name : Bytes
  channel : Nat
  deriving Repr, DecidableEq

/-- The stored channels are invalidated. -/
def Connection.destroyed (conn : Connection) : List Channel :=
  conn.objects.mapIdx fun ref c =>
    if conn.findChannel c.id = some ref then c.invalidate else c

/-- A call of a queue's operation. The overloads that take an `Exchange` pass its name on. -/
inductive QueueCall where
  | remove
  | bindExchange (exchangeName routingKey : Bytes)
  | unbindExchange (exchangeName routingKey : Bytes)
  | purge
  | consume (consumerTag : Bytes) (callback : EnvelopeCallback) (noLocal noAck exclusive : Bool)

/-- What a queue's operation calls on its channel. -/
def Queue.operation (queue : Queue) : QueueCall → Operation
  | .remove => .removeQueue queue.name false false
  | .bindExchange exchangeName routingKey => .bindQueue queue.name exchangeName routingKey
  | .unbindExchange exchangeName routingKey => .unbindQueue queue.name exchangeName routingKey
  | .purge => .purgeQueue queue.name
  | .consume consumerTag callback noLocal noAck exclusive =>
    .basicConsume queue.name consumerTag callback noLocal noAck exclusive

/-- `Exchange::basic_publish`, as what it calls on its channel. -/
def Exchange.basicPublish (exchange : Exchange) (routingKey : Bytes) (message : Message)
    (status : Int32) : Operation :=
  .basicPublish exchange.name routingKey message status

namespace Operation

/-- The operation is a public member of `Channel`. -/
def isPublic : Operation → Bool
  | .purgeQueue .. => false
  | .bindQueue .. => false
  | .unbindQueue .. => false
  | .basicPublish .. => false
  | .basicConsume .. => false
  | _ => true

/-- The returned value says that the operation succeeded. -/
def succeeds (reply : RpcReply) (c : Channel) : Operation → Bool
  | .exchangeExists name => (c.exchangeExists reply name).returned
  | .declareExchange name type durable autoDelete =>
    (c.declareExchange reply name type durable autoDelete).returned.isSome
  | .deleteExchange name onlyIfUnused => (c.deleteExchange reply name onlyIfUnused).returned
  | .bindExchange destination source routingKey =>
    (c.bindExchange reply destination source routingKey).returned
  | .unbindExchange destination source routingKey =>
    (c.unbindExchange reply destination source routingKey).returned
  | .declareQueue name durable exclusive autoDelete =>
    (c.declareQueue reply name durable exclusive autoDelete).returned.isSome
  | .removeQueue name onlyIfUnused onlyIfEmpty =>
    (c.removeQueue reply name onlyIfUnused onlyIfEmpty).returned
  | .purgeQueue queue => (c.purgeQueue reply queue).returned
  | .bindQueue queue exchange routingKey => (c.bindQueue reply queue exchange routingKey).returned
  | .unbindQueue queue exchange routingKey =>
    (c.unbindQueue reply queue exchange routingKey).returned
  | .basicConsume queue consumerTag callback noLocal noAck exclusive =>
    (c.basicConsume reply queue consumerTag callback noLocal noAck exclusive).returned
  | .basicQos prefetchCount global => (c.basicQos reply prefetchCount global).returned
  | .basicPublish exchange routingKey message status =>
    (c.basicPublish exchange routingKey message status).returned == 0

/-- The queues that a call on the channel `ref` returns. -/
def newQueues (ref : Nat) (reply : RpcReply) (c : Channel) : Operation → List Queue
  | .declareQueue name durable exclusive autoDelete =>
    ((c.declareQueue reply name durable exclusive autoDelete).returned.map (Queue.mk · ref)).toList
  | _ => []

/-- The exchanges that a call on the channel `ref` returns. -/
def newExchanges (ref : Nat) (reply : RpcReply) (c : Channel) : Operation → List Exchange
  | .declareExchange name type durable autoDelete =>
    ((c.declareExchange reply name type durable autoDelete).returned.map (Exchange.mk · ref)).toList
  | _ => []

/-- The operation is `basic_publish`. -/
def isPublish : Operation → Bool
  | .basicPublish .. => true
  | _ => false

end Operation

/-- **On an invalid channel** every operation reports a failure, except `basic_publish`: its
`return false` is `AMQP_STATUS_OK`. -/
theorem succeeds_of_invalid {c : Channel} (hv : c.valid = false) (reply : RpcReply)
    (op : Operation) : op.succeeds reply c = op.isPublish := by
  cases op <;>
    simp [Operation.succeeds, Operation.isPublish, Channel.exchangeExists, Channel.declareExchange,
      Channel.deleteExchange, Channel.bindExchange, Channel.unbindExchange, Channel.declareQueue,
      Channel.removeQueue, Channel.purgeQueue, Channel.bindQueue, Channel.unbindQueue,
      Channel.basicConsume, Channel.basicQos, Channel.basicPublish, Channel.rpc, hv]

/-- No operation of a queue publishes. -/
theorem isPublish_operation (queue : Queue) (call : QueueCall) :
    (queue.operation call).isPublish = false := by
  cases call <;> rfl

theorem isPublish_of_isPublic {op : Operation} (h : op.isPublic = true) :
    op.isPublish = false := by
  cases op with
  | basicPublish => exact absurd h (by simp [Operation.isPublic])
  | _ => rfl

end WinterWind.Amqp
