import WinterWind.Amqp.InOutExchange

/-!
# What the resilient exchange sends (`src/core/amqp/inoutexchange.cpp`)

`Recorded` is an `InOutExchange` with the library calls it has sent, on which channel, and whether
each was granted. Its functions are those of `InOutExchange`, cut where a proof needs a name.

* `Granted` asks for the last such call on a channel.
* `Heap` says which channels can still be locked: only the current one, since a reconnection
  replaces the map that holds the others.

Results:
* **`erase_getValidExchange`**: the record changes nothing.
* `declareExchange_valid`, `bindCommandQueue_valid` and their siblings: one call on the current
  channel.
-/

namespace WinterWind.Amqp

open Library

/-- A library call that was sent on a channel, and whether its answer was normal. -/
structure Answered where
  channel : Nat
  call : AmqpCall
  granted : Bool
  deriving Repr, DecidableEq

/-- An `InOutExchange`, with the calls sent on its channels so far. -/
structure Recorded where
  self : InOutExchange
  sent : List Answered := []

namespace Recorded

/-! ## The members, recording what they send -/

/-- `InOutExchange.onChannel`. -/
def onChannel {α : Type} (s : Recorded) (ref : Nat) (reply : RpcReply)
    (op : Channel → RpcReply → Outcome α) : Except Fault (α × Recorded) := do
  let channel ← orFault .undefinedBehaviour (s.self.lock ref)
  return ((op channel reply).returned, {
    self := s.self.setChannel ref (op channel reply).channel
    sent := s.sent ++ (op channel reply).sent.map fun call => ⟨ref, call, reply.ok⟩ })

/-- `InOutExchange.declareExchange`. -/
def declareExchange (s : Recorded) (reply : RpcReply) :
    Except Fault (Option Exchange × Recorded) := do
  let ref ← orFault .undefinedBehaviour s.self.rabbitmqChannel
  let (name, s) ← s.onChannel ref reply
    (·.declareExchange · s.self.exchangeName .direct false false)
  return (name.map fun name => ⟨name, ref⟩, s)

/-- `InOutExchange.bindCommandQueue`. -/
def bindCommandQueue (s : Recorded) (exchange : Option Exchange) (reply : RpcReply) :
    Except Fault (Bool × Recorded) := do
  let queue ← orFault .undefinedBehaviour s.self.commandQueue
  let exchange ← orFault .undefinedBehaviour exchange
  s.onChannel queue.channel reply (·.bindQueue · queue.name exchange.name s.self.routingKey)

/-- `InOutExchange.setUpChannel` once the queue is bound. -/
def consumeCommandQueue (s : Recorded) (reply : RpcReply) : Except Fault (Bool × Recorded) := do
  let queue ← orFault .undefinedBehaviour s.self.commandQueue
  let (_, s) ← s.onChannel queue.channel reply
    (·.basicConsume · queue.name s.self.consumerTag s.self.recvCallback false false false)
  return (true, s)

/-- `InOutExchange.setUpChannel` once it has an exchange. -/
def setUpQueue (s : Recorded) (exchange : Option Exchange) (replies : ConnectReplies) :
    Except Fault (Bool × Recorded) := do
  let ref ← orFault .undefinedBehaviour s.self.rabbitmqChannel
  let (name, s) ← s.onChannel ref replies.declareQueue
    (·.declareQueue · s.self.queueName false false false)
  let s := { s with self.commandQueue := name.map fun name => ⟨name, ref⟩ }
  let (bound, s) ← s.bindCommandQueue exchange replies.bindQueue
  if !bound then return (false, s)
  s.consumeCommandQueue replies.basicConsume

/-- `InOutExchange.setUpChannel`. -/
def setUpChannel (s : Recorded) (replies : ConnectReplies) : Except Fault (Bool × Recorded) := do
  let (exchange, s) ← s.declareExchange replies.declareExchange
  if exchange.isNone then return (false, s)
  s.setUpQueue exchange replies

/-- The connection that `connect_to_rabbitmq` makes, before it creates a channel. -/
def newConnection (x : InOutExchange) (channelMax : UInt16) : Connection :=
  { channelMax := channelMax, objects := (x.rabbitmqCon.map Connection.destroyed).getD [] }

/-- `InOutExchange.connectToRabbitmq`. -/
def connectToRabbitmq (s : Recorded) (replies : ConnectReplies) :
    Except Fault (Bool × Recorded) :=
  match replies.connection with
  | none => .ok (false, s)
  | some channelMax =>
    match (newConnection s.self channelMax).createChannel replies.channelOpen with
    | (.error _, con) => .ok (false, { s with self.rabbitmqCon := some con })
    | (.ok ref, con) =>
      { s with self.rabbitmqCon := some con, self.rabbitmqChannel := ref }.setUpChannel replies

/-- `InOutExchange.verifyRabbitmqConnection`. -/
def verifyRabbitmqConnection (s : Recorded) (replies : ConnectReplies) :
    Except Fault (Bool × Recorded) :=
  if s.self.rabbitmqChannel.isNone then s.connectToRabbitmq replies else .ok (true, s)

/-- `InOutExchange.getValidExchange` once it has reconnected. -/
def redeclare (s : Recorded) (replies : ExchangeReplies) :
    Except Fault (Option Exchange × Recorded) := do
  let (declared, s) ← s.declareExchange replies.redeclareExchange
  let (_, s) ← s.bindCommandQueue declared replies.bindQueue
  return (declared, s)

/-- `InOutExchange.getValidExchange` once the exchange could not be declared. -/
def reconnect (s : Recorded) (replies : ExchangeReplies) :
    Except Fault (Option Exchange × Recorded) := do
  let (connected, s) ← s.connectToRabbitmq replies.connect
  if !connected then return (none, s)
  s.redeclare replies

/-- `InOutExchange.getValidExchange` once the connection is verified. -/
def exchangeVerified (s : Recorded) (replies : ExchangeReplies) :
    Except Fault (Option Exchange × Recorded) := do
  let (declared, s) ← s.declareExchange replies.declareExchange
  if declared.isSome then
    let (_, s) ← s.bindCommandQueue declared replies.bindQueue
    return (declared, s)
  s.reconnect replies

/-- `InOutExchange.getValidExchange`. -/
def getValidExchange (s : Recorded) (replies : ExchangeReplies) :
    Except Fault (Option Exchange × Recorded) := do
  let (verified, s) ← s.verifyRabbitmqConnection replies.verify
  if !verified then return (none, s)
  s.exchangeVerified replies

/-! ## Erasing the record -/

/-- A result without the record. -/
def erase {α : Type} (r : α × Recorded) : α × InOutExchange := (r.1, r.2.self)

theorem erase_bind {α β : Type} {x : Except Fault (α × Recorded)}
    {x' : Except Fault (α × InOutExchange)} {f : α × Recorded → Except Fault (β × Recorded)}
    {f' : α × InOutExchange → Except Fault (β × InOutExchange)} (hx : x.map erase = x')
    (hf : ∀ r, (f r).map erase = f' (erase r)) : (x >>= f).map erase = x' >>= f' := by
  subst hx
  cases x with
  | error e => rfl
  | ok r => exact hf r

theorem erase_orFault {α β : Type} {o : Option α} {f : α → Except Fault (β × Recorded)}
    {f' : α → Except Fault (β × InOutExchange)} (hf : ∀ a, (f a).map erase = f' a) :
    (orFault .undefinedBehaviour o >>= f).map erase = orFault .undefinedBehaviour o >>= f' := by
  cases o with
  | none => rfl
  | some a => exact hf a

theorem erase_onChannel {α : Type} (s : Recorded) (ref : Nat) (reply : RpcReply)
    (op : Channel → RpcReply → Outcome α) :
    (s.onChannel ref reply op).map erase = s.self.onChannel ref (op · reply) :=
  erase_orFault fun _ => rfl

theorem erase_declareExchange (s : Recorded) (reply : RpcReply) :
    (s.declareExchange reply).map erase = s.self.declareExchange reply :=
  erase_orFault fun ref => erase_bind (erase_onChannel s ref reply _) fun _ => rfl

theorem erase_bindCommandQueue (s : Recorded) (exchange : Option Exchange) (reply : RpcReply) :
    (s.bindCommandQueue exchange reply).map erase = s.self.bindCommandQueue exchange reply :=
  erase_orFault fun _ => erase_orFault fun _ => erase_onChannel s _ reply _

theorem erase_setUpChannel (s : Recorded) (replies : ConnectReplies) :
    (s.setUpChannel replies).map erase = s.self.setUpChannel replies := by
  refine erase_bind (erase_declareExchange s _) fun r => ?_
  obtain ⟨exchange, s⟩ := r
  cases exchange with
  | none => rfl
  | some exchange =>
    refine erase_orFault fun ref => erase_bind (erase_onChannel s ref _ _) fun r => ?_
    refine erase_bind (erase_bindCommandQueue _ _ _) fun r => ?_
    obtain ⟨bound, s⟩ := r
    cases bound with
    | false => rfl
    | true => exact erase_orFault fun _ => erase_bind (erase_onChannel s _ _ _) fun _ => rfl

theorem erase_connectToRabbitmq (s : Recorded) (replies : ConnectReplies) :
    (s.connectToRabbitmq replies).map erase = s.self.connectToRabbitmq replies := by
  unfold connectToRabbitmq InOutExchange.connectToRabbitmq newConnection
  cases replies.connection with
  | none => rfl
  | some channelMax =>
    dsimp only
    generalize Connection.createChannel _ _ = created
    obtain ⟨_ | ref, con⟩ := created
    · rfl
    · exact erase_setUpChannel _ replies

theorem erase_verifyRabbitmqConnection (s : Recorded) (replies : ConnectReplies) :
    (s.verifyRabbitmqConnection replies).map erase = s.self.verifyRabbitmqConnection replies := by
  unfold verifyRabbitmqConnection InOutExchange.verifyRabbitmqConnection
  split
  · exact erase_connectToRabbitmq s replies
  · rfl

theorem erase_reconnect (s : Recorded) (replies : ExchangeReplies) :
    (s.reconnect replies).map erase = (do
      let (connected, x) ← s.self.connectToRabbitmq replies.connect
      if !connected then return (none, x)
      let (declared, x) ← x.declareExchange replies.redeclareExchange
      let (_, x) ← x.bindCommandQueue declared replies.bindQueue
      return (declared, x)) := by
  refine erase_bind (erase_connectToRabbitmq s _) fun r => ?_
  obtain ⟨connected, s⟩ := r
  cases connected with
  | false => rfl
  | true =>
    refine erase_bind (erase_declareExchange s _) fun r => ?_
    exact erase_bind (erase_bindCommandQueue r.2 _ _) fun _ => rfl

/-- **The record changes nothing**: without it, the call is the member's. -/
theorem erase_getValidExchange (s : Recorded) (replies : ExchangeReplies) :
    (s.getValidExchange replies).map erase = s.self.getValidExchange replies := by
  refine erase_bind (erase_verifyRabbitmqConnection s _) fun r => ?_
  obtain ⟨verified, s⟩ := r
  cases verified with
  | false => rfl
  | true =>
    refine erase_bind (erase_declareExchange s _) fun r => ?_
    obtain ⟨declared, s⟩ := r
    cases declared with
    | some exchange => exact erase_bind (erase_bindCommandQueue s _ _) fun _ => rfl
    | none => exact erase_reconnect s replies

/-! ## What was granted -/

/-- The last such call on the channel was granted. -/
def Granted (sent : List Answered) (ref : Nat) (call : AmqpCall) : Prop :=
  ((sent.filter fun a => a.channel = ref ∧ a.call = call).getLast?).map Answered.granted = some true

instance (sent : List Answered) (ref : Nat) (call : AmqpCall) : Decidable (Granted sent ref call) :=
  inferInstanceAs (Decidable (_ = _))

/-- The calls that make the queue ready. -/
def queueDeclared (x : InOutExchange) : AmqpCall :=
  .queueDeclare (cStr x.queueName) false false false false

def consumerRegistered (x : InOutExchange) : AmqpCall :=
  .basicConsume (cStr x.queueName) (cStr x.consumerTag) false false false

def queueBound (x : InOutExchange) (exchange : Exchange) : AmqpCall :=
  .queueBind (cStr x.queueName) (cStr exchange.name) (cStr x.routingKey)

theorem granted_append_self (sent : List Answered) (ref : Nat) (call : AmqpCall) (b : Bool) :
    Granted (sent ++ [⟨ref, call, b⟩]) ref call ↔ b = true := by
  simp [Granted, List.filter_append]

theorem granted_append_of_ne {sent : List Answered} {ref : Nat} {call : AmqpCall} {a : Answered}
    (hne : a.call ≠ call) : Granted (sent ++ [a]) ref call ↔ Granted sent ref call := by
  simp [Granted, List.filter_append, hne]

/-! ## The heap -/

/-- The current channel. -/
structure Current (x : InOutExchange) (con : Connection) (ref : Nat) (c : Channel) : Prop where
  connection : x.rabbitmqCon = some con
  channel : x.rabbitmqChannel = some ref
  object : con.objects[ref]? = some c

/-- Only the current channel can be locked, and a queue is on a channel made so far. -/
structure Heap (x : InOutExchange) : Prop where
  only : ∀ con id ref, x.rabbitmqCon = some con → con.findChannel id = some ref →
    x.rabbitmqChannel = some ref
  queue : ∀ q, x.commandQueue = some q →
    ∃ con, x.rabbitmqCon = some con ∧ q.channel < con.objects.length

variable {x : InOutExchange} {con : Connection} {ref : Nat} {c : Channel}

theorem Current.lock (h : Current x con ref c) : x.lock ref = some c := by
  simp [InOutExchange.lock, h.connection, h.channel, h.object]

theorem Current.setChannel (h : Current x con ref c) (c' : Channel) :
    Current (x.setChannel ref c') { con with objects := con.objects.set ref c' } ref c' := by
  refine ⟨by rw [InOutExchange.setChannel, h.connection]; rfl, h.channel, ?_⟩
  exact List.getElem?_set_self (List.getElem?_eq_some_iff.mp h.object).1

theorem Current.setChannel_self (h : Current x con ref c) : x.setChannel ref c = x := by
  obtain ⟨hlt, hget⟩ := List.getElem?_eq_some_iff.mp h.object
  have hset : con.objects.set ref c = con.objects := by rw [← hget, List.set_getElem_self]
  rw [InOutExchange.setChannel, h.connection, Option.map_some, hset]
  exact h.connection ▸ rfl

theorem Heap.setChannel (hx : Heap x) (c' : Channel) : Heap (x.setChannel ref c') := by
  constructor
  · intro con id r hcon hfind
    obtain ⟨con', hcon', rfl⟩ := Option.map_eq_some_iff.mp hcon
    exact hx.only con' id r hcon' hfind
  · intro q hq
    obtain ⟨con', hcon', hlt⟩ := hx.queue q hq
    refine ⟨{ con' with objects := con'.objects.set ref c' }, ?_, ?_⟩
    · rw [InOutExchange.setChannel, hcon']
      rfl
    · rwa [List.length_set]

/-- A channel that is not the current one is gone. -/
theorem Heap.lock_eq_none (hx : Heap x) {r : Nat} (hr : x.rabbitmqChannel ≠ some r) :
    x.lock r = none := by
  cases hlock : x.lock r with
  | none => rfl
  | some c =>
    simp only [InOutExchange.lock, bind, Option.bind_eq_some_iff] at hlock
    obtain ⟨con, hcon, channel, -, hif⟩ := hlock
    split at hif
    · rename_i hor
      rcases hor with hchannel | hfind
      · exact absurd hchannel hr
      · exact absurd (hx.only con _ r hcon hfind) hr
    · cases hif

/-! ## Calls on the current channel -/

/-- The session after a call that was sent. -/
def after (s : Recorded) (ref : Nat) (c : Channel) (call : AmqpCall) (reply : RpcReply) :
    Recorded where
  self := s.self.setChannel ref c
  sent := s.sent ++ [⟨ref, call, reply.ok⟩]

variable {s : Recorded}

theorem Current.after (h : Current s.self con ref c) (c' : Channel) (call : AmqpCall)
    (reply : RpcReply) : Current (s.after ref c' call reply).self
      { con with objects := con.objects.set ref c' } ref c' :=
  h.setChannel c'

theorem Heap.after (hx : Heap s.self) (c' : Channel) (call : AmqpCall) (reply : RpcReply) :
    Heap (s.after ref c' call reply).self :=
  hx.setChannel c'

/-- A call that sends nothing. -/
theorem onChannel_idle {α : Type} (h : Current s.self con ref c) (reply : RpcReply)
    (op : Channel → RpcReply → Outcome α) (a : α) (hop : op c reply = ⟨c, a, []⟩) :
    s.onChannel ref reply op = .ok (a, s) := by
  simp only [onChannel, h.lock, orFault, bind, Except.bind, hop, h.setChannel_self, List.map_nil,
    List.append_nil]
  rfl

/-- A call that is sent. -/
theorem onChannel_sent {α : Type} (h : Current s.self con ref c) (reply : RpcReply)
    (op : Channel → RpcReply → Outcome α) (c' : Channel) (a : α) (call : AmqpCall)
    (hop : op c reply = ⟨c', a, [call]⟩) :
    s.onChannel ref reply op = .ok (a, s.after ref c' call reply) := by
  simp only [onChannel, h.lock, orFault, bind, Except.bind, hop]
  rfl

theorem declareExchange_invalid (h : Current s.self con ref c) (hv : c.valid = false)
    (reply : RpcReply) : s.declareExchange reply = .ok (none, s) := by
  rw [declareExchange, h.channel]
  have hidle := onChannel_idle h reply
    (·.declareExchange · s.self.exchangeName .direct false false) none
    (by simp [Channel.declareExchange, Channel.rpc, hv])
  simp only [orFault, bind, Except.bind, hidle]
  rfl

/-- The call that declares the exchange. -/
def exchangeDeclared (x : InOutExchange) : AmqpCall :=
  .exchangeDeclare (cStr x.exchangeName) (exchangeTypeStr .direct) false false false false

theorem declareExchange_valid (h : Current s.self con ref c) (hv : c.valid = true)
    (reply : RpcReply) : s.declareExchange reply =
      .ok (if reply.ok then some ⟨s.self.exchangeName, ref⟩ else none,
        s.after ref c (exchangeDeclared s.self) reply) := by
  rw [declareExchange, h.channel]
  have hsent := onChannel_sent h reply
    (·.declareExchange · s.self.exchangeName .direct false false) c
    (if reply.ok then some s.self.exchangeName else none) (exchangeDeclared s.self)
    (by simp [Channel.declareExchange, Channel.rpc, hv, exchangeDeclared])
  simp only [orFault, bind, Except.bind, hsent]
  cases reply.ok <;> rfl

/-- Without an exchange, or without a queue on the current channel, binding dereferences null. -/
theorem bindCommandQueue_null (s : Recorded) (reply : RpcReply) :
    s.bindCommandQueue none reply = .error .undefinedBehaviour := by
  unfold bindCommandQueue
  cases s.self.commandQueue <;> rfl

theorem bindCommandQueue_gone (hx : Heap s.self) (h : Current s.self con ref c)
    (hqueue : ∀ q, s.self.commandQueue = some q → q.channel ≠ ref) (exchange : Exchange)
    (reply : RpcReply) : s.bindCommandQueue (some exchange) reply = .error .undefinedBehaviour := by
  unfold bindCommandQueue
  cases hq : s.self.commandQueue with
  | none => rfl
  | some q =>
    have hlock : s.self.lock q.channel = none :=
      hx.lock_eq_none fun e => hqueue q hq (Option.some.inj (e.symm.trans h.channel))
    simp only [orFault, bind, Except.bind, onChannel, hlock]

theorem bindCommandQueue_valid (h : Current s.self con ref c) (hv : c.valid = true)
    (hqueue : s.self.commandQueue = some ⟨s.self.queueName, ref⟩) (exchange : Exchange)
    (reply : RpcReply) : s.bindCommandQueue (some exchange) reply =
      .ok (reply.ok, s.after ref (if reply.ok then c else c.invalidate)
        (queueBound s.self exchange) reply) := by
  rw [bindCommandQueue, hqueue]
  refine onChannel_sent h reply (·.bindQueue · s.self.queueName exchange.name s.self.routingKey) _
    reply.ok (queueBound s.self exchange) ?_
  simp [Channel.bindQueue, Channel.rpc, hv, queueBound]

end Recorded

end WinterWind.Amqp
