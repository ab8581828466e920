import WinterWind.Amqp.Handles

/-!
# The resilient exchange (`src/core/amqp/inoutexchange.cpp`)

`InOutExchange` is a thread that keeps a connection to RabbitMQ and publishes the responses which
other threads push on `m_response_queue`.

* `InOutExchange` holds the members only the thread itself uses. The channels of the connection are
  on the heap of `Connection`; a reconnection hands that heap on, less what `~Connection`
  invalidates. A `std::weak_ptr<Channel>` is a reference that `lock` finds while
  `m_rabbitmq_channel` or the map of the connection holds the channel.
* A call through a null pointer is `Fault.undefinedBehaviour`; the thread is `crashed` after it.
* `State` adds what the threads share: the mutex and the queue. `Pc` is the place of `run` in its
  loop, and the holder of the mutex says where a `push_response` is, since all that such a call does
  is inside its lock. `try_lock` may fail spuriously, as the standard allows.
* `pushed`, `handed` and `left` record the responses that were pushed, that `amqp_basic_publish`
  took with `AMQP_STATUS_OK`, and that were popped.

`run` does not look at the status of a publish. Neither does it see that a failed `bind_exchange`
has invalidated the channel: publishing there sends nothing and returns `AMQP_STATUS_OK`.

Results:
* `critical_everywhere`: between `try_lock` and `unlock` the thread holds the mutex.
* `step_move`: the kinds of steps, with what they do to the queue and to the three records.
* **`noLoss_iff`**: when every publish of a run is made on a valid channel and answered
  `AMQP_STATUS_OK`, no response is lost in any state of the run, and only then.
-/

namespace WinterWind.Amqp

open Library

/-- A response: its routing key, and the message behind the pointer. -/
abbrev Response := Bytes × Option Message

/-- `InOutExchange`, less the queue of responses and its mutex. -/
structure InOutExchange where
  exchangeName : Bytes
  routingKey : Bytes
  queueName : Bytes
  consumerTag : Bytes
  recvCallback : EnvelopeCallback := none
  rabbitmqCon : Option Connection := none
  rabbitmqChannel : Option Nat := none
  commandQueue : Option Queue := none

/-- The answers `connect_to_rabbitmq` gets. `connection` is the channel maximum negotiated, `none`
when the constructor of `Connection` throws. -/
structure ConnectReplies where
  connection : Option UInt16
  channelOpen : RpcReply := .normal
  declareExchange : RpcReply := .normal
  declareQueue : RpcReply := .normal
  bindQueue : RpcReply := .normal
  basicConsume : RpcReply := .normal
  deriving Repr, DecidableEq

/-- The answers `get_valid_exchange` gets. -/
structure ExchangeReplies where
  verify : ConnectReplies
  declareExchange : RpcReply := .normal
  connect : ConnectReplies
  redeclareExchange : RpcReply := .normal
  bindQueue : RpcReply := .normal
  deriving Repr, DecidableEq

namespace InOutExchange

/-- `std::weak_ptr<Channel>::lock`. -/
def lock (x : InOutExchange) (ref : Nat) : Option Channel := do
  let con ← x.rabbitmqCon
  let channel ← con.objects[ref]?
  if x.rabbitmqChannel = some ref ∨ con.findChannel channel.id = some ref then some channel
  else none

/-- The channel after an operation goes back on the heap. -/
def setChannel (x : InOutExchange) (ref : Nat) (channel : Channel) : InOutExchange :=
  { x with rabbitmqCon := x.rabbitmqCon.map fun con =>
      { con with objects := con.objects.set ref channel } }

/-- Call an operation of a channel. -/
def onChannel {α : Type} (x : InOutExchange) (ref : Nat) (op : Channel → Outcome α) :
    Except Fault (α × InOutExchange) := do
  let channel ← orFault .undefinedBehaviour (x.lock ref)
  return ((op channel).returned, x.setChannel ref (op channel).channel)

/-- `m_rabbitmq_channel->declare_exchange(m_exchange_name)`. -/
def declareExchange (x : InOutExchange) (reply : RpcReply) :
    Except Fault (Option Exchange × InOutExchange) := do
  let ref ← orFault .undefinedBehaviour x.rabbitmqChannel
  let (name, x) ← x.onChannel ref (·.declareExchange reply x.exchangeName .direct false false)
  return (name.map fun name => ⟨name, ref⟩, x)

/-- `m_command_queue->bind_exchange(exchange, m_routing_key)`. -/
def bindCommandQueue (x : InOutExchange) (exchange : Option Exchange) (reply : RpcReply) :
    Except Fault (Bool × InOutExchange) := do
  let queue ← orFault .undefinedBehaviour x.commandQueue
  let exchange ← orFault .undefinedBehaviour exchange
  x.onChannel queue.channel (·.bindQueue reply queue.name exchange.name x.routingKey)

/-- `connect_to_rabbitmq` once it has a channel. -/
def setUpChannel (x : InOutExchange) (replies : ConnectReplies) :
    Except Fault (Bool × InOutExchange) := do
  let (exchange, x) ← x.declareExchange replies.declareExchange
  if exchange.isNone then return (false, x)
  let ref ← orFault .undefinedBehaviour x.rabbitmqChannel
  let (name, x) ← x.onChannel ref
    (·.declareQueue replies.declareQueue x.queueName false false false)
  let x := { x with commandQueue := name.map fun name => ⟨name, ref⟩ }
  let (bound, x) ← x.bindCommandQueue exchange replies.bindQueue
  if !bound then return (false, x)
  let queue ← orFault .undefinedBehaviour x.commandQueue
  let (_, x) ← x.onChannel queue.channel
    (·.basicConsume replies.basicConsume queue.name x.consumerTag x.recvCallback false false false)
  return (true, x)

/-- `InOutExchange::connect_to_rabbitmq`: an exception, and every failure, is `false`. -/
def connectToRabbitmq (x : InOutExchange) (replies : ConnectReplies) :
    Except Fault (Bool × InOutExchange) :=
  match replies.connection with
  | none => .ok (false, x)
  | some channelMax =>
    let con : Connection :=
      { channelMax := channelMax, objects := (x.rabbitmqCon.map Connection.destroyed).getD [] }
    match con.createChannel replies.channelOpen with
    | (.error _, con) => .ok (false, { x with rabbitmqCon := some con })
    | (.ok ref, con) =>
      { x with rabbitmqCon := some con, rabbitmqChannel := ref }.setUpChannel replies

/-- `InOutExchange::verify_rabbitmq_connection`. -/
def verifyRabbitmqConnection (x : InOutExchange) (replies : ConnectReplies) :
    Except Fault (Bool × InOutExchange) :=
  if x.rabbitmqChannel.isNone then x.connectToRabbitmq replies else .ok (true, x)

/-- `InOutExchange::get_valid_exchange`. What binding the queue answers is not looked at. -/
def getValidExchange (x : InOutExchange) (replies : ExchangeReplies) :
    Except Fault (Option Exchange × InOutExchange) := do
  let (verified, x) ← x.verifyRabbitmqConnection replies.verify
  if !verified then return (none, x)
  let (declared, x) ← x.declareExchange replies.declareExchange
  if declared.isSome then
    let (_, x) ← x.bindCommandQueue declared replies.bindQueue
    return (declared, x)
  let (connected, x) ← x.connectToRabbitmq replies.connect
  if !connected then return (none, x)
  let (declared, x) ← x.declareExchange replies.redeclareExchange
  let (_, x) ← x.bindCommandQueue declared replies.bindQueue
  return (declared, x)

/-- `Exchange::basic_publish`, on a response. Publishing does not change the channel. -/
def basicPublish (x : InOutExchange) (exchange : Exchange) (response : Response) (status : Int32) :
    Except Fault (Outcome Int32) := do
  let message ← orFault .undefinedBehaviour response.2
  let channel ← orFault .undefinedBehaviour (x.lock exchange.channel)
  return channel.basicPublish exchange.name response.1 message status

/-! ## The threads -/

/-- Where `run` is. From `checkEmpty` to `unlock` it is inside the lock. -/
inductive Pc where
  | head
  | getValidExchange
  | consumeOne (exchange : Exchange)
  | tryLock (exchange : Exchange)
  | checkEmpty (exchange : Exchange)
  | publish (exchange : Exchange)
  | pop
  | unlock
  | returned
  | crashed
  deriving Repr, DecidableEq

/-- `run` is inside the lock. -/
def Pc.critical : Pc → Bool
  | .checkEmpty _ => true
  | .publish _ => true
  | .pop => true
  | .unlock => true
  | _ => false

/-- The holder of `m_response_queue_mtx`: `run`, or a `push_response` before or after its push. -/
inductive Mutex where
  | free
  | run
  | push (response : Response)
  | pushed
  deriving Repr, DecidableEq

/-- The thread, what it shares with those that push, and the records. -/
structure State where
  self : InOutExchange
  pc : Pc := .head
  mutex : Mutex := .free
  responseQueue : List Response := []
  pushed : List Response := []
  handed : List Response := []
  left : List Response := []

/-- One step of `run`, with the library's answers, or of a `push_response`. -/
inductive Event where
  | head (stopping : Bool)
  | getValidExchange (replies : ExchangeReplies)
  | consumeOne (reply : ConsumeReply) (frame : Option Frame)
  | tryLock (spurious : Bool)
  | checkEmpty
  | publish (status : Int32)
  | pop
  | unlock
  | lockPush (response : Response)
  | push
  | unlockPush

/-- `InOutExchange::run` and `InOutExchange::push_response`, step by step. -/
def step (s : State) : Event → Option State
  | .head stopping =>
    match s.pc with
    | .head => some { s with pc := if stopping then .returned else .getValidExchange }
    | _ => none
  | .getValidExchange replies =>
    match s.pc with
    | .getValidExchange =>
      match s.self.getValidExchange replies with
      | .ok (some exchange, self) => some { s with self := self, pc := .consumeOne exchange }
      | .ok (none, self) => some { s with self := self, pc := .head }
      | .error _ => some { s with pc := .crashed }
    | _ => none
  | .consumeOne reply frame =>
    match s.pc with
    | .consumeOne exchange =>
      match s.self.rabbitmqCon with
      | some con =>
        some { s with pc := if (consumeOne con reply frame).1 then .tryLock exchange else .head }
      | none => some { s with pc := .crashed }
    | _ => none
  | .tryLock spurious =>
    match s.pc with
    | .tryLock exchange =>
      some (if s.mutex = .free ∧ spurious = false then
        { s with mutex := .run, pc := .checkEmpty exchange }
      else { s with pc := .head })
    | _ => none
  | .checkEmpty =>
    match s.pc with
    | .checkEmpty exchange =>
      some { s with pc := if s.responseQueue.isEmpty then .unlock else .publish exchange }
    | _ => none
  | .publish status =>
    match s.pc, s.responseQueue with
    | .publish exchange, response :: _ =>
      match s.self.basicPublish exchange response status with
      | .ok outcome =>
        some { s with
          pc := .pop
          handed := if !outcome.sent.isEmpty && outcome.returned == 0 then s.handed ++ [response]
            else s.handed }
      | .error _ => some { s with pc := .crashed }
    | .publish _, [] => some { s with pc := .crashed }
    | _, _ => none
  | .pop =>
    match s.pc, s.responseQueue with
    | .pop, response :: rest =>
      some { s with pc := .unlock, responseQueue := rest, left := s.left ++ [response] }
    | .pop, [] => some { s with pc := .crashed }
    | _, _ => none
  | .unlock =>
    match s.pc with
    | .unlock => some { s with pc := .head, mutex := .free }
    | _ => none
  | .lockPush response =>
    match s.mutex with
    | .free => some { s with mutex := .push response }
    | _ => none
  | .push =>
    match s.mutex with
    | .push response =>
      some { s with
        mutex := .pushed
        responseQueue := s.responseQueue ++ [response]
        pushed := s.pushed ++ [response] }
    | _ => none
  | .unlockPush =>
    match s.mutex with
    | .pushed => some { s with mutex := .free }
    | _ => none

/-- `run` at its start. -/
def started (self : InOutExchange) : State := { self := self }

/-! ## What a step does -/

/-- The condition on a step: a publish is made on a valid channel and the library answers
`AMQP_STATUS_OK`. A publish of a null message never returns. -/
def PublishOk (s : State) : Event → Prop
  | .publish status => ∀ exchange response message channel, s.pc = .publish exchange →
      s.responseQueue.head? = some response → response.2 = some message →
      s.self.lock exchange.channel = some channel → channel.valid = true ∧ status = 0
  | _ => True

/-- The condition on the publish of the first response on an existing channel. -/
theorem publishOk_iff {s : State} {exchange : Exchange} {response : Response}
    {rest : List Response} {message : Message} {channel : Channel} {status : Int32}
    (hpc : s.pc = .publish exchange) (hqueue : s.responseQueue = response :: rest)
    (hm : response.2 = some message) (hc : s.self.lock exchange.channel = some channel) :
    PublishOk s (.publish status) ↔ channel.valid = true ∧ status = 0 := by
  constructor
  · intro h
    exact h exchange response message channel hpc (by rw [hqueue]; rfl) hm hc
  · intro hok exchange' response' message' channel' hpc' _ _ hc'
    obtain rfl := Pc.publish.inj (hpc.symm.trans hpc')
    obtain rfl := Option.some.inj (hc.symm.trans hc')
    exact hok

/-- Whether the library took the message. -/
theorem handed_iff (c : Channel) (exchange routingKey : Bytes) (message : Message)
    (status : Int32) :
    (!(c.basicPublish exchange routingKey message status).sent.isEmpty &&
      (c.basicPublish exchange routingKey message status).returned == 0) = true ↔
        c.valid = true ∧ status = 0 := by
  unfold Channel.basicPublish
  cases c.valid <;> simp

theorem basicPublish_eq_ok {x : InOutExchange} {exchange : Exchange} {response : Response}
    {status : Int32} {outcome : Outcome Int32} :
    x.basicPublish exchange response status = .ok outcome ↔
      ∃ message channel, response.2 = some message ∧ x.lock exchange.channel = some channel ∧
        outcome = channel.basicPublish exchange.name response.1 message status := by
  unfold basicPublish
  simp only [bind_eq_ok, orFault_eq_ok]
  constructor
  · rintro ⟨message, hm, channel, hc, h⟩
    exact ⟨message, channel, hm, hc, (Except.ok.inj h).symm⟩
  · rintro ⟨message, channel, hm, hc, rfl⟩
    exact ⟨message, hm, channel, hc, rfl⟩

/-- **The kinds of steps.** -/
inductive Move (s : State) : Event → State → Prop
  /-- `run` moves outside its lock. -/
  | outside {e : Event} (self : InOutExchange) {pc : Pc} (hpc : s.pc.critical = false)
      (hpc' : pc.critical = false) (hok : PublishOk s e) :
      Move s e { s with self := self, pc := pc }
  /-- `try_lock` succeeds. -/
  | enter (exchange : Exchange) (hmutex : s.mutex = .free) (hpc : s.pc = .tryLock exchange) :
      Move s (.tryLock false) { s with mutex := .run, pc := .checkEmpty exchange }
  | check {exchange : Exchange} {pc : Pc} (hpc : s.pc = .checkEmpty exchange)
      (hpc' : pc = .unlock ∨ pc = .publish exchange) : Move s .checkEmpty { s with pc := pc }
  | publish {exchange : Exchange} {response : Response} {rest : List Response}
      {message : Message} {channel : Channel} {status : Int32} (hpc : s.pc = .publish exchange)
      (hqueue : s.responseQueue = response :: rest) (hm : response.2 = some message)
      (hc : s.self.lock exchange.channel = some channel) :
      Move s (.publish status) { s with
        pc := .pop
        handed := if channel.valid = true ∧ status = 0 then s.handed ++ [response]
          else s.handed }
  | pop {response : Response} {rest : List Response} (hpc : s.pc = .pop)
      (hqueue : s.responseQueue = response :: rest) :
      Move s .pop { s with pc := .unlock, responseQueue := rest, left := s.left ++ [response] }
  | leave (hpc : s.pc = .unlock) : Move s .unlock { s with pc := .head, mutex := .free }
  | crash {e : Event} (hpc : s.pc = .pop → s.responseQueue = []) (hok : PublishOk s e) :
      Move s e { s with pc := .crashed }
  /-- A `push_response` takes or releases the mutex. -/
  | lock {e : Event} {mutex : Mutex} (hmutex : s.mutex ≠ .run) (hok : PublishOk s e) :
      Move s e { s with mutex := mutex }
  | push {response : Response} (hmutex : s.mutex = .push response) :
      Move s .push { s with
        mutex := .pushed
        responseQueue := s.responseQueue ++ [response]
        pushed := s.pushed ++ [response] }

/-- A publish returns, or it dereferences a null pointer or the front of an empty queue. -/
theorem publish_move {s s' : State} {status : Int32} (h : step s (.publish status) = some s') :
    Move s (.publish status) s' := by
  simp only [step] at h
  split at h
  · rename_i exchange response rest hpc hqueue
    split at h
    · rename_i outcome hout
      obtain rfl := Option.some.inj h
      obtain ⟨message, channel, hm, hc, rfl⟩ := basicPublish_eq_ok.mp hout
      simp only [handed_iff]
      exact .publish hpc hqueue hm hc
    · rename_i hout
      obtain rfl := Option.some.inj h
      refine .crash (fun hpop => ?_) ?_
      · rw [hpc] at hpop
        exact absurd hpop (by simp)
      · -- neither the message nor the channel is null, so the publish would have returned
        intro exchange' response' message channel hpc' hfirst hm hc
        obtain rfl := Pc.publish.inj (hpc.symm.trans hpc')
        rw [hqueue] at hfirst
        obtain rfl := Option.some.inj hfirst
        rw [basicPublish_eq_ok.mpr ⟨message, channel, hm, hc, rfl⟩] at hout
        exact absurd hout (by simp)
  · rename_i hpc hqueue
    obtain rfl := Option.some.inj h
    exact .crash (fun _ => hqueue) (by simp [PublishOk, hqueue])
  · simp at h

theorem step_move {s s' : State} {e : Event} (h : step s e = some s') : Move s e s' := by
  cases e with
  | head stopping =>
    simp only [step] at h
    split at h
    · rename_i hpc
      obtain rfl := Option.some.inj h
      exact .outside s.self (by rw [hpc]; rfl) (by cases stopping <;> rfl) trivial
    · simp at h
  | getValidExchange replies =>
    simp only [step] at h
    split at h
    · rename_i hpc
      split at h <;> obtain rfl := Option.some.inj h <;>
        exact .outside _ (by rw [hpc]; rfl) rfl trivial
    · simp at h
  | consumeOne reply frame =>
    simp only [step] at h
    split at h
    · rename_i hpc
      split at h
      · rename_i con hcon
        obtain rfl := Option.some.inj h
        refine .outside s.self (by rw [hpc]; rfl) ?_ trivial
        cases (Amqp.consumeOne con reply frame).1 <;> rfl
      · obtain rfl := Option.some.inj h
        exact .outside s.self (by rw [hpc]; rfl) rfl trivial
    · simp at h
  | tryLock spurious =>
    simp only [step] at h
    split at h
    · rename_i exchange hpc
      obtain rfl := Option.some.inj h
      split
      · rename_i hfree
        obtain ⟨hmutex, rfl⟩ := hfree
        exact .enter exchange hmutex hpc
      · exact .outside s.self (by rw [hpc]; rfl) rfl trivial
    · simp at h
  | checkEmpty =>
    simp only [step] at h
    split at h
    · rename_i hpc
      obtain rfl := Option.some.inj h
      refine .check hpc ?_
      split
      · exact Or.inl rfl
      · exact Or.inr rfl
    · simp at h
  | publish status => exact publish_move h
  | pop =>
    simp only [step] at h
    split at h
    · rename_i response rest hpc hqueue
      obtain rfl := Option.some.inj h
      exact .pop hpc hqueue
    · rename_i hpc hqueue
      obtain rfl := Option.some.inj h
      exact .crash (fun _ => hqueue) trivial
    · simp at h
  | unlock =>
    simp only [step] at h
    split at h
    · rename_i hpc
      obtain rfl := Option.some.inj h
      exact .leave hpc
    · simp at h
  | lockPush response =>
    simp only [step] at h
    split at h
    · rename_i hmutex
      obtain rfl := Option.some.inj h
      exact .lock (by simp [hmutex]) trivial
    · simp at h
  | push =>
    simp only [step] at h
    split at h
    · rename_i response hmutex
      obtain rfl := Option.some.inj h
      exact .push hmutex
    · simp at h
  | unlockPush =>
    simp only [step] at h
    split at h
    · rename_i hmutex
      obtain rfl := Option.some.inj h
      exact .lock (by simp [hmutex]) trivial
    · simp at h

/-! ## The lock -/

/-- Inside its lock, `run` holds the mutex. -/
def Exclusive (s : State) : Prop := s.pc.critical = true → s.mutex = .run

theorem exclusive_of_outside {s : State} (h : s.pc.critical = false) : Exclusive s := fun hc => by
  rw [h] at hc
  exact absurd hc (by simp)

/-- When `run` does not hold the mutex, it is outside its lock. -/
theorem Exclusive.outside {s : State} (hs : Exclusive s) (h : s.mutex ≠ .run) :
    s.pc.critical = false :=
  Bool.eq_false_iff.mpr fun hc => h (hs hc)

theorem exclusive_step {s s' : State} {e : Event} (hs : Exclusive s) (h : step s e = some s') :
    Exclusive s' := by
  cases step_move h with
  | outside self hpc hpc' => exact exclusive_of_outside hpc'
  | enter exchange hmutex hpc => exact fun _ => rfl
  | check hpc hpc' => exact fun _ => hs (by rw [hpc]; rfl)
  | publish hpc hqueue hm hc => exact fun _ => hs (by rw [hpc]; rfl)
  | pop hpc hqueue => exact fun _ => hs (by rw [hpc]; rfl)
  | leave hpc => exact exclusive_of_outside rfl
  | crash hpc => exact exclusive_of_outside rfl
  | lock hmutex => exact exclusive_of_outside (hs.outside hmutex)
  | push hmutex => exact exclusive_of_outside (hs.outside (by simp [hmutex]))

/-- Between `try_lock` and `unlock` the thread holds the mutex, so nothing is pushed there. -/
theorem critical_everywhere (self : InOutExchange) (es : List Event) :
    Everywhere step Exclusive (started self) es :=
  everywhere_of_always (fun _ hs => hs) (fun _ _ _ hs h _ => exclusive_step hs h)
    (exclusive_of_outside rfl) (always_trivial es (started self))

/-! ## The responses -/

/-- No response is lost: those that left the queue were handed to the library, those handed over are
the first that were pushed, in that order and each once, and the others are still queued. -/
structure NoLoss (s : State) : Prop where
  account : s.pushed = s.left ++ s.responseQueue
  left : s.left <+: s.handed
  handed : s.handed <+: s.pushed

/-- What the records say at each place of `run`. -/
structure Accounted (s : State) : Prop where
  account : s.pushed = s.left ++ s.responseQueue
  outside : s.pc ≠ .pop → s.handed = s.left
  popping : s.pc = .pop → ∃ response rest, s.responseQueue = response :: rest ∧
    s.handed = s.left ++ [response]

/-- A publish that returned without handing the response over: the next step of `run` loses it. -/
structure Doomed (s : State) : Prop where
  pop : s.pc = .pop
  handed : s.handed = s.left
  queued : s.responseQueue ≠ []

theorem Accounted.noLoss {s : State} (hs : Accounted s) : NoLoss s := by
  refine ⟨hs.account, ?_, ?_⟩
  · by_cases hpc : s.pc = .pop
    · obtain ⟨response, rest, -, hhanded⟩ := hs.popping hpc
      rw [hhanded]
      exact List.prefix_append _ _
    · rw [hs.outside hpc]
  · by_cases hpc : s.pc = .pop
    · obtain ⟨response, rest, hqueue, hhanded⟩ := hs.popping hpc
      rw [hs.account, hhanded, hqueue]
      exact ⟨rest, by simp⟩
    · rw [hs.account, hs.outside hpc]
      exact List.prefix_append _ _

theorem ne_pop_of_outside {pc : Pc} (h : pc.critical = false) : pc ≠ .pop := by
  rintro rfl
  exact absurd h (by decide)

/-- With the same records, `run` may move to any place that is not the pop. -/
theorem Accounted.move {s s' : State} (hs : Accounted s) (hpc : s.pc = .pop → s.responseQueue = [])
    (hpc' : s'.pc ≠ .pop) (hqueue : s'.responseQueue = s.responseQueue)
    (hpushed : s'.pushed = s.pushed) (hhanded : s'.handed = s.handed) (hleft : s'.left = s.left) :
    Accounted s' := by
  refine ⟨by rw [hpushed, hleft, hqueue, hs.account], fun _ => ?_, fun hn => absurd hn hpc'⟩
  rw [hhanded, hleft]
  refine hs.outside fun hpop => ?_
  obtain ⟨response, rest, hsome, -⟩ := hs.popping hpop
  rw [hpc hpop] at hsome
  exact absurd hsome (by simp)

/-- A step that meets the condition keeps the account. -/
theorem accounted_step {s s' : State} {e : Event} (hs : Accounted s) (h : step s e = some s')
    (hok : PublishOk s e) : Accounted s' := by
  cases step_move h with
  | outside self hpc hpc' =>
    exact hs.move (fun hpop => absurd hpop (ne_pop_of_outside hpc)) (ne_pop_of_outside hpc')
      rfl rfl rfl rfl
  | enter exchange hmutex hpc =>
    exact hs.move (fun hpop => by simp [hpc] at hpop) (by simp) rfl rfl rfl rfl
  | check hpc hpc' =>
    refine hs.move (fun hpop => by simp [hpc] at hpop) ?_ rfl rfl rfl rfl
    rcases hpc' with rfl | rfl <;> simp
  | @publish exchange response rest message channel status hpc hqueue hm hc =>
    have hhanded : s.handed = s.left := hs.outside (by simp [hpc])
    refine ⟨hs.account, fun hn => absurd rfl hn, fun _ => ⟨response, rest, hqueue, ?_⟩⟩
    dsimp only
    rw [if_pos ((publishOk_iff hpc hqueue hm hc).mp hok), hhanded]
  | @pop response rest hpc hqueue =>
    obtain ⟨first, rest', hqueue', hhanded⟩ := hs.popping hpc
    obtain ⟨rfl, rfl⟩ := List.cons.inj (hqueue.symm.trans hqueue')
    refine ⟨?_, fun _ => hhanded, fun hn => by simp at hn⟩
    dsimp only
    rw [hs.account, hqueue, List.append_assoc, List.singleton_append]
  | leave hpc =>
    exact hs.move (fun hpop => by simp [hpc] at hpop) (by simp) rfl rfl rfl rfl
  | crash hpc => exact hs.move hpc (by simp) rfl rfl rfl rfl
  | lock hmutex => exact ⟨hs.account, hs.outside, hs.popping⟩
  | @push response hmutex =>
    refine ⟨?_, hs.outside, fun hpop => ?_⟩
    · dsimp only
      rw [hs.account, List.append_assoc]
    · obtain ⟨first, rest, hqueue, hhanded⟩ := hs.popping hpop
      refine ⟨first, rest ++ [response], ?_, hhanded⟩
      dsimp only
      rw [hqueue, List.cons_append]

/-- A step that does not meet the condition is a publish that hands nothing over. -/
theorem doomed_of_not_publishOk {s s' : State} {e : Event} (hs : Accounted s)
    (h : step s e = some s') (hbad : ¬ PublishOk s e) : Doomed s' := by
  cases step_move h with
  | publish hpc hqueue hm hc =>
    refine ⟨rfl, ?_, ?_⟩
    · dsimp only
      rw [if_neg fun hok => hbad ((publishOk_iff hpc hqueue hm hc).mpr hok)]
      exact hs.outside (by simp [hpc])
    · dsimp only
      rw [hqueue]
      simp
  | outside self hpc hpc' hok => exact absurd hok hbad
  | crash hpc hok => exact absurd hok hbad
  | lock hmutex hok => exact absurd hok hbad
  | enter | check | pop | leave | push => exact absurd trivial hbad

/-- After such a publish, `run` pops the response. -/
theorem doomed_step {s s' : State} {e : Event} (hs : Doomed s) (h : step s e = some s') :
    Doomed s' ∨ ¬ NoLoss s' := by
  cases step_move h with
  | outside self hpc => exact absurd hs.pop (ne_pop_of_outside hpc)
  | enter exchange hmutex hpc => exact absurd hs.pop (by simp [hpc])
  | check hpc => exact absurd hs.pop (by simp [hpc])
  | publish hpc => exact absurd hs.pop (by simp [hpc])
  | pop hpc hqueue =>
    refine Or.inr fun hn => ?_
    have hle := hn.left.length_le
    dsimp only at hle
    rw [hs.handed, List.length_append, List.length_singleton] at hle
    omega
  | leave hpc => exact absurd hs.pop (by simp [hpc])
  | crash hpc => exact absurd (hpc hs.pop) hs.queued
  | lock hmutex => exact Or.inl ⟨hs.pop, hs.handed, hs.queued⟩
  | push hmutex => exact Or.inl ⟨hs.pop, hs.handed, by simp⟩

theorem accounted_started (self : InOutExchange) : Accounted (started self) :=
  ⟨rfl, fun _ => rfl, fun hpc => absurd hpc (by simp [started])⟩

/-- **No response is lost** in a run whose publishes are all made on a valid channel and answered
`AMQP_STATUS_OK`. Conversely, in a run which does not end between a publish and its pop, no
response is lost only if they all were. -/
theorem noLoss_iff (self : InOutExchange) (es : List Event) :
    (Always step PublishOk (started self) es → Everywhere step NoLoss (started self) es) ∧
      ∀ s, run step (started self) es = some s → s.pc ≠ .pop →
        Everywhere step NoLoss (started self) es → Always step PublishOk (started self) es :=
  ⟨everywhere_of_always (fun _ hs => hs.noLoss) (fun _ _ _ => accounted_step)
      (accounted_started self),
    fun _ hrun hpc => always_of_everywhere (fun _ _ _ => accounted_step)
      (fun _ _ _ => doomed_of_not_publishOk) (fun _ _ _ => doomed_step) (accounted_started self)
      hrun fun hd => hpc hd.pop⟩

/-- A thread bound on the exchange `e`. -/
def onExchange : InOutExchange :=
  { exchangeName := ascii "e", routingKey := ascii "k", queueName := ascii "q"
    consumerTag := ascii "t" }

/-- One response is pushed while the thread consumes. -/
def onePush (bindReply : RpcReply) (status : Int32) : List Event :=
  [.head false,
    .getValidExchange { verify := ⟨some 20, .normal, .normal, .normal, .normal, .normal⟩
                        connect := ⟨none, .normal, .normal, .normal, .normal, .normal⟩
                        bindQueue := bindReply },
    .lockPush (ascii "r", some { data := ascii "m" }), .push, .unlockPush,
    .consumeOne .serverException none, .tryLock false, .checkEmpty, .publish status, .pop]

/-- When the library takes the message, it is not lost. -/
theorem noLoss_onePush :
    Everywhere step NoLoss (started onExchange) (onePush .normal 0) := by
  refine (noLoss_iff onExchange (onePush .normal 0)).1 ?_
  unfold onePush
  iterate 8 refine always_cons rfl trivial ?_
  refine always_cons rfl ((publishOk_iff rfl rfl rfl rfl).mpr ⟨rfl, rfl⟩) ?_
  exact always_cons rfl trivial trivial

/-- On a closed connection the library refuses the message, which is popped all the same; and when
binding the queue failed, it is popped without having been given to the library. -/
theorem not_noLoss_onePush :
    ¬ Everywhere step NoLoss (started onExchange) (onePush .normal (-7)) ∧
      ¬ Everywhere step NoLoss (started onExchange) (onePush .serverException 0) := by
  constructor
  · rw [everywhere_iff_reached]
    intro h
    have hle := (h _ _ (List.prefix_refl _) rfl).left.length_le
    exact absurd hle (by decide)
  · rw [everywhere_iff_reached]
    intro h
    have hle := (h _ _ (List.prefix_refl _) rfl).left.length_le
    exact absurd hle (by decide)

end InOutExchange

end WinterWind.Amqp
