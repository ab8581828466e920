import WinterWind.Amqp.Handles

/-!
# Operations on an invalid channel (`src/core/amqp/channel.cpp`)

`VERIFY_CHANNEL(R)` returns `R` from an operation whose channel is invalid. Three conventions are in
use: `false`, the null pointer, and for `basic_publish` an `amqp_status_enum` that is not
`AMQP_STATUS_OK`. The macro is given `false` there as well, which is the status 0.

* `Returned` is a returned value with its convention, and `Operation.returned` what an operation
  returns on a channel.
* `UserCall` lists the ways to an operation: on the channel, by the overloads for an `Exchange` or a
  `Queue`, and through a `Queue` or an `Exchange`. A queue or an exchange is on the channel that its
  weak pointer locks.

Results:
* `sent_of_invalid`: nothing is sent on an invalid channel.
* **`failsOnInvalid_iff`**: a call fails on every invalid channel iff it is not a `basic_publish`.
-/

namespace WinterWind.Amqp

/-- `AMQP_STATUS_OK`. -/
def amqpStatusOk : Int32 := 0

/-- A returned value: a `bool`, a `std::shared_ptr` to something with a name, or a status. -/
inductive Returned where
  | flag (done : Bool)
  | pointer (name : Option Bytes)
  | status (code : Int32)
  deriving Repr, DecidableEq

/-- The value reports a failure, in its convention. -/
def Returned.isFailure : Returned → Bool
  | .flag done => !done
  | .pointer name => name.isNone
  | .status code => code != amqpStatusOk

/-- What an operation returns. -/
def Operation.returned (reply : RpcReply) (c : Channel) : Operation → Returned
  | .exchangeExists name => .flag (c.exchangeExists reply name).returned
  | .declareExchange name type durable autoDelete =>
    .pointer (c.declareExchange reply name type durable autoDelete).returned
  | .deleteExchange name onlyIfUnused => .flag (c.deleteExchange reply name onlyIfUnused).returned
  | .bindExchange destination source routingKey =>
    .flag (c.bindExchange reply destination source routingKey).returned
  | .unbindExchange destination source routingKey =>
    .flag (c.unbindExchange reply destination source routingKey).returned
  | .declareQueue name durable exclusive autoDelete =>
    .pointer (c.declareQueue reply name durable exclusive autoDelete).returned
  | .removeQueue name onlyIfUnused onlyIfEmpty =>
    .flag (c.removeQueue reply name onlyIfUnused onlyIfEmpty).returned
  | .purgeQueue queue => .flag (c.purgeQueue reply queue).returned
  | .bindQueue queue exchange routingKey =>
    .flag (c.bindQueue reply queue exchange routingKey).returned
  | .unbindQueue queue exchange routingKey =>
    .flag (c.unbindQueue reply queue exchange routingKey).returned
  | .basicConsume queue consumerTag callback noLocal noAck exclusive =>
    .flag (c.basicConsume reply queue consumerTag callback noLocal noAck exclusive).returned
  | .basicQos prefetchCount global => .flag (c.basicQos reply prefetchCount global).returned
  | .basicPublish exchange routingKey message status =>
    .status (c.basicPublish exchange routingKey message status).returned

/-- A call that reaches an operation of one channel. -/
inductive UserCall where
  | onChannel (op : Operation)
  | deleteExchange (exchange : Exchange) (onlyIfUnused : Bool)
  | bindExchange (destination source : Exchange) (routingKey : Bytes)
  | unbindExchange (destination source : Exchange) (routingKey : Bytes)
  | removeQueue (queue : Queue) (onlyIfUnused onlyIfEmpty : Bool)
  | onQueue (queue : Queue) (call : QueueCall)
  | publish (exchange : Exchange) (routingKey : Bytes) (message : Message) (status : Int32)

/-- The operation a call reaches. -/
def UserCall.operation : UserCall → Operation
  | .onChannel op => op
  | .deleteExchange exchange onlyIfUnused => .deleteExchange exchange.name onlyIfUnused
  | .bindExchange destination source routingKey =>
    .bindExchange destination.name source.name routingKey
  | .unbindExchange destination source routingKey =>
    .unbindExchange destination.name source.name routingKey
  | .removeQueue queue onlyIfUnused onlyIfEmpty =>
    .removeQueue queue.name onlyIfUnused onlyIfEmpty
  | .onQueue queue call => queue.operation call
  | .publish exchange routingKey message status =>
    exchange.basicPublish routingKey message status

/-- The call fails on every invalid channel, whatever the library would answer. -/
def UserCall.FailsOnInvalid (call : UserCall) : Prop :=
  ∀ (reply : RpcReply) (c : Channel), c.valid = false →
    (call.operation.returned reply c).isFailure = true

/-- A value is a failure or a success. -/
theorem isFailure_returned (reply : RpcReply) (c : Channel) (op : Operation) :
    (op.returned reply c).isFailure = !op.succeeds reply c := by
  cases op <;>
    simp [Operation.returned, Operation.succeeds, Returned.isFailure, amqpStatusOk, bne]

/-- **Nothing is sent on an invalid channel**, so a success it reports is of a call not made. -/
theorem sent_of_invalid {c : Channel} (hv : c.valid = false) (reply : RpcReply) (op : Operation) :
    (op.perform reply c).2 = [] := by
  obtain ⟨-, heq | ⟨hvalid, -⟩⟩ := perform_cases c reply op
  · rw [heq]
  · exact absurd (hvalid.symm.trans hv) (by decide)

/-- A channel that its connection's destructor invalidated. -/
def invalidChannel : Channel := { id := 1, valid := false }

/-- **A call fails on every invalid channel** iff it does not publish. -/
theorem failsOnInvalid_iff (call : UserCall) :
    call.FailsOnInvalid ↔ call.operation.isPublish = false := by
  constructor
  · intro h
    have hfailure := h .normal invalidChannel rfl
    rw [isFailure_returned, succeeds_of_invalid rfl] at hfailure
    simpa using hfailure
  · intro h reply c hv
    rw [isFailure_returned, succeeds_of_invalid hv, h]
    rfl

/-- A message published on an invalid channel is not sent, and `AMQP_STATUS_OK` is returned. -/
theorem not_failsOnInvalid_publish :
    ¬(UserCall.publish ⟨ascii "logs", 0⟩ (ascii "info") { data := ascii "hello" }
      amqpStatusOk).FailsOnInvalid := by
  intro h
  have hfailure := h .normal invalidChannel rfl
  rw [isFailure_returned, succeeds_of_invalid rfl] at hfailure
  exact absurd hfailure (by decide)

end WinterWind.Amqp
