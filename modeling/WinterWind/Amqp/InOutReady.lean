import WinterWind.Amqp.InOutRecord

/-!
# Readiness of the resilient exchange (`src/core/amqp/inoutexchange.cpp`)

Runs of the constructor's `connect_to_rabbitmq` followed by calls of `get_valid_exchange`, with any
answers of the library. A returned exchange promises a queue that is declared on the current
channel, bound, and consumed from.

* `Stage` lists the states between two calls: no channel; an invalid one; a valid one whose
  exchange was refused when it was set up, so that `m_command_queue` is null or on a channel that
  is gone; and a valid one with its queue.
* `Answers` is the condition on a call: on the answers it gets, and on the state before it.

Results:
* `connectToRabbitmq_spec`, `getValidExchange_spec`: what one call does from each stage.
* **`ready_iff`**: nothing null is dereferenced and every returned exchange is ready, in every state
  of a run, exactly when the constructor's answers are safe and every call meets the condition.
-/

namespace WinterWind.Amqp

open Library

namespace Recorded

variable {x : InOutExchange} {con : Connection} {ref : Nat} {c : Channel} {s : Recorded}

/-! ## The stages of the exchange -/

/-- `m_command_queue` is declared on `m_rabbitmq_channel`, bound to the exchange with
`m_routing_key`, and `m_consumer_tag` is registered on that channel. -/
def Ready (s : Recorded) (exchange : Exchange) : Prop :=
  ∃ ref, s.self.rabbitmqChannel = some ref ∧ s.self.commandQueue = some ⟨s.self.queueName, ref⟩ ∧
    Granted s.sent ref (queueDeclared s.self) ∧ Granted s.sent ref (queueBound s.self exchange) ∧
    Granted s.sent ref (consumerRegistered s.self)

/-- The queue is on the channel, where it was declared and where the consumer is registered. -/
structure Settled (s : Recorded) (ref : Nat) : Prop where
  queue : s.self.commandQueue = some ⟨s.self.queueName, ref⟩
  declared : Granted s.sent ref (queueDeclared s.self)
  consumed : Granted s.sent ref (consumerRegistered s.self)

/-- The states between two calls. -/
inductive Stage (s : Recorded) : Prop
  | unconnected (hchannel : s.self.rabbitmqChannel = none)
  | invalid {con : Connection} {ref : Nat} {c : Channel} (h : Current s.self con ref c)
      (hv : c.valid = false)
  /-- The exchange was refused when the channel was set up. -/
  | half {con : Connection} {ref : Nat} {c : Channel} (h : Current s.self con ref c)
      (hv : c.valid = true) (hstored : con.findChannel c.id = some ref)
      (hqueue : ∀ q, s.self.commandQueue = some q → q.channel ≠ ref)
  | settled {con : Connection} {ref : Nat} {c : Channel} (h : Current s.self con ref c)
      (hv : c.valid = true) (hstored : con.findChannel c.id = some ref) (hs : Settled s ref)

/-- The invariant between two calls. -/
structure Sound (s : Recorded) : Prop where
  heap : Heap s.self
  stage : Stage s

/-- A call that declares no queue and registers no consumer leaves the queue settled. -/
theorem Settled.after (hs : Settled s ref) (c' : Channel) (call : AmqpCall) (reply : RpcReply)
    (hdeclared : call ≠ queueDeclared s.self) (hconsumed : call ≠ consumerRegistered s.self) :
    Settled (s.after ref c' call reply) ref :=
  ⟨hs.queue, (granted_append_of_ne hdeclared).mpr hs.declared,
    (granted_append_of_ne hconsumed).mpr hs.consumed⟩

/-- The current channel is the one that was set up; it is valid if the consumer was registered,
and then the queue is settled on it. -/
def SetUp (s : Recorded) (consumed : Bool) : Prop :=
  ∃ con ref c, Current s.self con ref c ∧ c.valid = consumed ∧
    (consumed = true → con.findChannel c.id = some ref ∧ Settled s ref)

theorem SetUp.stage {consumed : Bool} (h : SetUp s consumed) : Stage s := by
  obtain ⟨con, ref, c, hcurrent, hv, hsettled⟩ := h
  cases consumed with
  | false => exact .invalid hcurrent hv
  | true => exact .settled hcurrent hv (hsettled rfl).1 (hsettled rfl).2

theorem declareQueue_valid (h : Current s.self con ref c) (hv : c.valid = true) (reply : RpcReply) :
    s.onChannel ref reply (·.declareQueue · s.self.queueName false false false) =
      .ok (if reply.ok then some s.self.queueName else none,
        s.after ref c (queueDeclared s.self) reply) :=
  onChannel_sent h _ _ _ _ _ (by simp [Channel.declareQueue, Channel.rpc, queueDeclared, hv])

/-- Registering the consumer on a channel that has none. -/
theorem consumeCommandQueue_spec {id : UInt16} (h : Current s.self con ref { id := id })
    (hstored : con.findChannel id = some ref)
    (hqueue : s.self.commandQueue = some ⟨s.self.queueName, ref⟩)
    (hdeclared : Granted s.sent ref (queueDeclared s.self)) (reply : RpcReply) :
    ∃ c', s.consumeCommandQueue reply =
        .ok (true, s.after ref c' (consumerRegistered s.self) reply) ∧
      SetUp (s.after ref c' (consumerRegistered s.self) reply) reply.ok := by
  refine ⟨if reply.ok then
      { id := id, consumersCallbacks := Finmap.insert s.self.consumerTag s.self.recvCallback ∅ }
    else { id := id, valid := false }, ?_, _, _, _, h.after _ _ _, ?_, fun hok => ⟨?_, ?_, ?_, ?_⟩⟩
  · have hsent := onChannel_sent h reply
      (·.basicConsume · s.self.queueName s.self.consumerTag s.self.recvCallback false false false)
      _ reply.ok (consumerRegistered s.self)
      (by simp [Channel.basicConsume, Channel.rpc, Channel.invalidate, consumerRegistered]; rfl)
    rw [consumeCommandQueue, hqueue]
    simp only [orFault, bind, Except.bind, hsent]
    rfl
  · cases reply.ok <;> rfl
  · rw [if_pos hok]
    exact hstored
  · exact hqueue
  · exact (granted_append_of_ne (by simp [consumerRegistered, queueDeclared])).mpr hdeclared
  · exact (granted_append_self s.sent ref _ _).mpr hok

/-- The session after the queue was declared. -/
def declared (s : Recorded) (ref : Nat) (c : Channel) (reply : RpcReply) : Recorded :=
  { s.after ref c (queueDeclared s.self) reply with
    self.commandQueue := if reply.ok then some ⟨s.self.queueName, ref⟩ else none }

theorem setUpQueue_eq (h : Current s.self con ref c) (hv : c.valid = true)
    (exchange : Option Exchange) (replies : ConnectReplies) :
    s.setUpQueue exchange replies = (do
      let (bound, s) ← (s.declared ref c replies.declareQueue).bindCommandQueue exchange
        replies.bindQueue
      if !bound then return (false, s)
      s.consumeCommandQueue replies.basicConsume) := by
  rw [setUpQueue, h.channel]
  simp only [orFault, bind, Except.bind, declareQueue_valid h hv]
  cases hok : replies.declareQueue.ok <;> simp only [declared, hok] <;> rfl

/-- A queue that was refused is dereferenced. -/
theorem setUpQueue_error (h : Current s.self con ref c) (hv : c.valid = true)
    {replies : ConnectReplies} (hq : replies.declareQueue.ok = false) (exchange : Option Exchange) :
    s.setUpQueue exchange replies = .error .undefinedBehaviour := by
  rw [setUpQueue_eq h hv]
  simp only [declared, hq, bindCommandQueue]
  rfl

theorem setUpQueue_spec {id : UInt16} (hx : Heap s.self) (h : Current s.self con ref { id := id })
    (hstored : con.findChannel id = some ref) (exchange : Exchange) {replies : ConnectReplies}
    (hq : replies.declareQueue.ok = true) :
    ∃ s', s.setUpQueue (some exchange) replies = .ok (replies.bindQueue.ok, s') ∧ Sound s' ∧
      (replies.bindQueue.ok = true → SetUp s' replies.basicConsume.ok) := by
  rw [setUpQueue_eq h rfl]
  have hqueue : (s.declared ref { id := id } replies.declareQueue).self.commandQueue =
      some ⟨s.self.queueName, ref⟩ := if_pos hq
  have hafter := h.after { id := id } (queueDeclared s.self) replies.declareQueue
  have hcurrent : Current (s.declared ref { id := id } replies.declareQueue).self _ ref
      { id := id } := ⟨hafter.connection, hafter.channel, hafter.object⟩
  have hheap : Heap (s.declared ref { id := id } replies.declareQueue).self := by
    have hx' : Heap (s.after ref { id := id } (queueDeclared s.self) replies.declareQueue).self :=
      hx.after _ _ _
    refine ⟨hx'.only, fun q hq' => ?_⟩
    obtain rfl := Option.some.inj (hqueue.symm.trans hq')
    exact ⟨_, hcurrent.connection, (List.getElem?_eq_some_iff.mp hcurrent.object).1⟩
  have hdeclared : Granted (s.declared ref { id := id } replies.declareQueue).sent ref
      (queueDeclared s.self) := (granted_append_self s.sent ref _ _).mpr hq
  rw [bindCommandQueue_valid hcurrent rfl hqueue]
  cases hb : replies.bindQueue.ok with
  | false =>
    exact ⟨_, rfl, ⟨hheap.after _ _ _, .invalid (hcurrent.after _ _ _) rfl⟩, nofun⟩
  | true =>
    have hbound := hcurrent.after { id := id } (queueBound s.self exchange) replies.bindQueue
    obtain ⟨c', hconsume, hsetUp⟩ := consumeCommandQueue_spec hbound hstored hqueue
      ((granted_append_of_ne (by simp [queueBound, queueDeclared])).mpr hdeclared)
      replies.basicConsume
    exact ⟨_, hconsume, ⟨(hheap.after _ _ _).after _ _ _, hsetUp.stage⟩, fun _ => hsetUp⟩

/-- **Setting up a fresh channel.** -/
theorem setUpChannel_spec {id : UInt16} (hx : Heap s.self) (h : Current s.self con ref { id := id })
    (hstored : con.findChannel id = some ref)
    (hqueue : ∀ q, s.self.commandQueue = some q → q.channel ≠ ref) {replies : ConnectReplies}
    (hok : replies.declareExchange.ok = true → replies.declareQueue.ok = true) :
    ∃ s', s.setUpChannel replies =
        .ok (replies.declareExchange.ok && replies.bindQueue.ok, s') ∧ Sound s' ∧
      ((replies.declareExchange.ok && replies.bindQueue.ok) = true →
        SetUp s' replies.basicConsume.ok) := by
  have h1 := h.after { id := id } (exchangeDeclared s.self) replies.declareExchange
  have hx1 : Heap
      (s.after ref { id := id } (exchangeDeclared s.self) replies.declareExchange).self :=
    hx.after _ _ _
  rw [setUpChannel, declareExchange_valid h rfl]
  cases he : replies.declareExchange.ok with
  | false => exact ⟨_, rfl, ⟨hx1, .half h1 rfl hstored hqueue⟩, nofun⟩
  | true => exact setUpQueue_spec hx1 h1 hstored ⟨s.self.exchangeName, ref⟩ (hok he)

theorem setUpChannel_error (h : Current s.self con ref c) (hv : c.valid = true)
    {replies : ConnectReplies} (he : replies.declareExchange.ok = true)
    (hq : replies.declareQueue.ok = false) :
    s.setUpChannel replies = .error .undefinedBehaviour := by
  rw [setUpChannel, declareExchange_valid h hv, he]
  exact setUpQueue_error (h.after c (exchangeDeclared s.self) _) hv hq _

/-! ## Connecting -/

/-- `connect_to_rabbitmq` gets a channel, and after its exchange was declared its queue is too. -/
def Safe (replies : ConnectReplies) : Prop :=
  ∀ channelMax, replies.connection = some channelMax → channelMax ≠ 0 ∧
    (replies.channelOpen.ok = true → replies.declareExchange.ok = true →
      replies.declareQueue.ok = true)

/-- `connect_to_rabbitmq` returns true, if it returns. -/
def connects (replies : ConnectReplies) : Bool :=
  replies.connection.isSome && replies.channelOpen.ok && replies.declareExchange.ok &&
    replies.bindQueue.ok

theorem length_destroyed (con : Connection) : con.destroyed.length = con.objects.length :=
  List.length_mapIdx

/-- The queue is on one of the channels handed on. -/
theorem Heap.queue_lt (hx : Heap x) {q : Queue} (hq : x.commandQueue = some q)
    (channelMax : UInt16) : q.channel < (newConnection x channelMax).objects.length := by
  obtain ⟨con, hcon, hlt⟩ := hx.queue q hq
  simp only [newConnection, hcon, Option.map_some, Option.getD_some, length_destroyed]
  exact hlt

/-- The session when the channel could not be opened. -/
def refused (s : Recorded) (channelMax : UInt16) : Recorded :=
  { s with
    self.rabbitmqCon := some { newConnection s.self channelMax with nextChannelId := 1 } }

/-- It still holds the channel it held before, which is invalidated. -/
theorem sound_refused (hs : Sound s) (channelMax : UInt16) : Sound (s.refused channelMax) := by
  refine ⟨⟨?_, fun q hq => ⟨_, rfl, hs.heap.queue_lt hq channelMax⟩⟩, ?_⟩
  · intro con id ref hcon hfind
    obtain rfl := Option.some.inj hcon
    cases hfind
  · have hcurrent : ∀ {con : Connection} {ref : Nat} {c : Channel}, Current s.self con ref c →
        (c.valid = true → con.findChannel c.id = some ref) → Stage (s.refused channelMax) := by
      intro con ref c h hstored
      refine .invalid (c := if con.findChannel c.id = some ref then c.invalidate else c)
        ⟨rfl, h.channel, ?_⟩ ?_
      · simp [newConnection, h.connection, Connection.destroyed, h.object]
      · split
        · rfl
        · rename_i hn
          exact Bool.eq_false_iff.mpr fun hv => hn (hstored hv)
    cases hs.stage with
    | unconnected hchannel => exact .unconnected hchannel
    | invalid h hv => exact hcurrent h fun ht => absurd (hv.symm.trans ht) (by decide)
    | half h _ hstored _ => exact hcurrent h fun _ => hstored
    | settled h _ hstored _ => exact hcurrent h fun _ => hstored

/-- The connection with the channel that `create_channel` opened. -/
def openedConnection (x : InOutExchange) (channelMax : UInt16) : Connection :=
  { newConnection x channelMax with
    nextChannelId := 1
    channels := Finmap.insert 1 (newConnection x channelMax).objects.length ∅
    objects := (newConnection x channelMax).objects ++ [{ id := 1 }] }

/-- The session once the channel is open. -/
def opened (s : Recorded) (channelMax : UInt16) : Recorded :=
  { s with
    self.rabbitmqCon := some (openedConnection s.self channelMax)
    self.rabbitmqChannel := some (newConnection s.self channelMax).objects.length }

theorem current_opened (s : Recorded) (channelMax : UInt16) :
    Current (s.opened channelMax).self (openedConnection s.self channelMax)
      (newConnection s.self channelMax).objects.length { id := 1 } :=
  ⟨rfl, rfl, by simp [openedConnection]⟩

theorem heap_opened (hx : Heap s.self) (channelMax : UInt16) :
    Heap (s.opened channelMax).self := by
  constructor
  · intro con id ref hcon hfind
    obtain rfl := Option.some.inj hcon
    by_cases hid : id = 1
    · subst hid
      exact (Finmap.lookup_insert _).symm.trans hfind
    · rw [Connection.findChannel, openedConnection, Finmap.lookup_insert_of_ne _ hid] at hfind
      cases hfind
  · intro q hq
    refine ⟨_, rfl, ?_⟩
    have hlt := hx.queue_lt hq channelMax
    simp only [openedConnection, List.length_append, List.length_singleton]
    omega

theorem createChannel_newConnection (x : InOutExchange) (channelMax : UInt16) (reply : RpcReply) :
    (newConnection x channelMax).createChannel reply =
      if channelMax = 0 then (.ok none, newConnection x channelMax)
      else if reply.ok then
        (.ok (some (newConnection x channelMax).objects.length), openedConnection x channelMax)
      else (.error ⟨ascii "Unable to open AMQP channel"⟩,
        { newConnection x channelMax with nextChannelId := 1 }) := by
  have hmax : (newConnection x channelMax).channels.keys.card =
      (newConnection x channelMax).channelMax.toNat ↔ channelMax = 0 :=
    ⟨fun h => UInt16.toNat_inj.mp h.symm, fun h => by rw [h]; rfl⟩
  unfold Connection.createChannel
  by_cases hzero : channelMax = 0
  · rw [if_pos (hmax.mpr hzero), if_pos hzero]
  · rw [if_neg (mt hmax.mp hzero), if_neg hzero]
    cases reply <;> rfl

/-- What `connect_to_rabbitmq` does, by its answers. -/
theorem connectToRabbitmq_some (s : Recorded) {replies : ConnectReplies} {channelMax : UInt16}
    (hcon : replies.connection = some channelMax) : s.connectToRabbitmq replies =
      if channelMax = 0 then .error .undefinedBehaviour
      else if replies.channelOpen.ok then (s.opened channelMax).setUpChannel replies
      else .ok (false, s.refused channelMax) := by
  unfold connectToRabbitmq
  simp only [hcon, createChannel_newConnection]
  by_cases hzero : channelMax = 0
  · simp only [if_pos hzero]
    rfl
  · simp only [if_neg hzero]
    cases replies.channelOpen.ok <;> rfl

/-- **`connect_to_rabbitmq` between two calls.** -/
theorem connectToRabbitmq_spec (hs : Sound s) {replies : ConnectReplies} (hsafe : Safe replies) :
    ∃ s', s.connectToRabbitmq replies = .ok (connects replies, s') ∧ Sound s' ∧
      (connects replies = true → SetUp s' replies.basicConsume.ok) := by
  unfold connects
  cases hcon : replies.connection with
  | none => exact ⟨s, by rw [connectToRabbitmq, hcon]; rfl, hs, nofun⟩
  | some channelMax =>
    obtain ⟨hzero, hok⟩ := hsafe channelMax hcon
    rw [connectToRabbitmq_some s hcon, if_neg hzero]
    cases hopen : replies.channelOpen.ok with
    | false => exact ⟨_, rfl, sound_refused hs channelMax, nofun⟩
    | true =>
      refine setUpChannel_spec (heap_opened hs.heap channelMax) (current_opened s channelMax)
        (Finmap.lookup_insert _) (fun q hq => ?_) (hok hopen)
      exact Nat.ne_of_lt (hs.heap.queue_lt hq channelMax)

theorem connectToRabbitmq_error (s : Recorded) {replies : ConnectReplies} (h : ¬ Safe replies) :
    s.connectToRabbitmq replies = .error .undefinedBehaviour := by
  obtain ⟨channelMax, h⟩ := not_forall.mp h
  obtain ⟨hcon, h⟩ := Classical.not_imp.mp h
  rw [connectToRabbitmq_some s hcon]
  by_cases hzero : channelMax = 0
  · rw [if_pos hzero]
  · obtain ⟨hopen, h⟩ := Classical.not_imp.mp fun hok => h ⟨hzero, hok⟩
    obtain ⟨he, hq⟩ := Classical.not_imp.mp h
    rw [if_neg hzero, if_pos hopen]
    exact setUpChannel_error (current_opened s channelMax) rfl he (Bool.eq_false_iff.mpr hq)

/-! ## Getting an exchange -/

/-- `m_rabbitmq_channel` is valid. -/
def channelValid (x : InOutExchange) : Bool :=
  ((x.rabbitmqChannel.bind x.lock).map Channel.valid).getD false

/-- `m_command_queue` was declared on `m_rabbitmq_channel`. -/
def QueueOnChannel (x : InOutExchange) : Prop :=
  ∃ q, x.commandQueue = some q ∧ x.rabbitmqChannel = some q.channel

/-- A reconnection does not dereference null, and when it succeeds, the consumer, the exchange and
the binding are not refused. -/
def Reconnected (replies : ExchangeReplies) : Prop :=
  Safe replies.connect ∧ (connects replies.connect = true →
    replies.connect.basicConsume.ok = true ∧ replies.redeclareExchange.ok = true ∧
      replies.bindQueue.ok = true)

/-- The call keeps the invariant, and an exchange it returns is ready. -/
def Kept : Except Fault (Option Exchange × Recorded) → Prop
  | .ok (exchange, s) => Sound s ∧ ∀ e, exchange = some e → Ready s e
  | .error _ => False

/-- The call dereferences null, or it returns an exchange that is not ready. -/
def Broken : Except Fault (Option Exchange × Recorded) → Prop
  | .ok (exchange, s) => ∃ e, exchange = some e ∧ ¬ Ready s e
  | .error _ => True

theorem channelValid_eq (h : Current x con ref c) : channelValid x = c.valid := by
  simp only [channelValid, h.channel, Option.bind_some, h.lock, Option.map_some, Option.getD_some]

/-- The binding that ends `get_valid_exchange` decides whether its exchange is ready. -/
theorem rebind_spec (hx : Heap s.self) (h : Current s.self con ref c) (hv : c.valid = true)
    (hstored : con.findChannel c.id = some ref) (hs : Settled s ref) (e : Exchange)
    (reply : RpcReply) : ∃ s', s.bindCommandQueue (some e) reply = .ok (reply.ok, s') ∧ Sound s' ∧
      (Ready s' e ↔ reply.ok = true) := by
  have hsettled := hs.after (if reply.ok then c else c.invalidate) (queueBound s.self e) reply
    (by simp [queueBound, queueDeclared])
    (by simp [queueBound, consumerRegistered])
  refine ⟨_, bindCommandQueue_valid h hv hs.queue e reply, ⟨hx.after _ _ _, ?_⟩, ?_, fun hok => ?_⟩
  · cases hok : reply.ok with
    | true =>
      rw [hok] at hsettled
      exact .settled (h.after _ _ _) hv hstored hsettled
    | false => exact .invalid (h.after _ _ _) rfl
  · rintro ⟨ref', hchannel, -, -, hbound, -⟩
    obtain rfl := Option.some.inj (h.channel.symm.trans hchannel)
    exact (granted_append_self s.sent ref _ _).mp hbound
  · exact ⟨ref, h.channel, hs.queue, hsettled.declared,
      (granted_append_self s.sent ref _ _).mpr hok, hsettled.consumed⟩

/-- The same after the exchange is declared. -/
theorem declareBind_spec (hx : Heap s.self) (h : Current s.self con ref c) (hv : c.valid = true)
    (hstored : con.findChannel c.id = some ref) (hs : Settled s ref) {declared : RpcReply}
    (hok : declared.ok = true) (bound : RpcReply) :
    ∃ e s1 s', s.declareExchange declared = .ok (some e, s1) ∧
      s1.bindCommandQueue (some e) bound = .ok (bound.ok, s') ∧ Sound s' ∧
      (Ready s' e ↔ bound.ok = true) := by
  have hsettled := hs.after c (exchangeDeclared s.self) declared
    (by simp [exchangeDeclared, queueDeclared]) (by simp [exchangeDeclared, consumerRegistered])
  obtain ⟨s', hbind, hrest⟩ := rebind_spec (hx.after c (exchangeDeclared s.self) declared)
    (h.after c (exchangeDeclared s.self) declared) hv hstored hsettled ⟨s.self.exchangeName, ref⟩
    bound
  refine ⟨_, _, s', ?_, hbind, hrest⟩
  rw [declareExchange_valid h hv, if_pos hok]

/-- A returned exchange is kept or broken as its binding was granted. -/
theorem kept_or_broken {s' : Recorded} {e : Exchange} {b : Bool} (hs : Sound s')
    (hready : Ready s' e ↔ b = true) :
    (b = true → Kept (.ok (some e, s'))) ∧ (b ≠ true → Broken (.ok (some e, s'))) := by
  refine ⟨fun hb => ⟨hs, fun e' he => ?_⟩, fun hb => ⟨e, rfl, mt hready.mp hb⟩⟩
  obtain rfl := Option.some.inj he
  exact hready.mpr hb

theorem redeclare_spec (hx : Heap s.self) {consumed : Bool} (hsetUp : SetUp s consumed)
    (replies : ExchangeReplies) :
    (consumed = true ∧ replies.redeclareExchange.ok = true ∧ replies.bindQueue.ok = true →
      Kept (s.redeclare replies)) ∧
    (¬ (consumed = true ∧ replies.redeclareExchange.ok = true ∧ replies.bindQueue.ok = true) →
      Broken (s.redeclare replies)) := by
  obtain ⟨con, ref, c, h, hv, hsettled⟩ := hsetUp
  by_cases hok : consumed = true ∧ replies.redeclareExchange.ok = true
  · obtain ⟨hstored, hs⟩ := hsettled hok.1
    obtain ⟨e, s1, s', hdeclare, hbind, hs', hready⟩ :=
      declareBind_spec hx h (hv.trans hok.1) hstored hs hok.2 replies.bindQueue
    have hresult : s.redeclare replies = .ok (some e, s') := by
      simp only [redeclare, hdeclare, bind, Except.bind, hbind]
      rfl
    rw [hresult]
    exact ⟨fun hb => (kept_or_broken hs' hready).1 hb.2.2,
      fun hb => (kept_or_broken hs' hready).2 fun hbind => hb ⟨hok.1, hok.2, hbind⟩⟩
  · -- there is no exchange to bind
    have hnull : ∃ s1, s.declareExchange replies.redeclareExchange = .ok (none, s1) := by
      by_cases hc : consumed = true
      · exact ⟨_, by rw [declareExchange_valid h (hv.trans hc), if_neg fun he => hok ⟨hc, he⟩]⟩
      · exact ⟨s, declareExchange_invalid h (hv.trans (Bool.eq_false_iff.mpr hc)) _⟩
    obtain ⟨s1, hdeclare⟩ := hnull
    have hresult : s.redeclare replies = .error .undefinedBehaviour := by
      simp only [redeclare, hdeclare, bind, Except.bind, bindCommandQueue_null]
    rw [hresult]
    exact ⟨fun hb => absurd ⟨hb.1, hb.2.1⟩ hok, fun _ => trivial⟩

theorem reconnect_spec (hs : Sound s) (replies : ExchangeReplies) :
    (Reconnected replies → Kept (s.reconnect replies)) ∧
      (¬ Reconnected replies → Broken (s.reconnect replies)) := by
  by_cases hsafe : Safe replies.connect
  · obtain ⟨s', hconnect, hs', hsetUp⟩ := connectToRabbitmq_spec hs hsafe
    rw [reconnect, hconnect]
    cases hc : connects replies.connect with
    | false =>
      refine ⟨fun _ => ⟨hs', nofun⟩, fun hn => absurd ⟨hsafe, fun ht => ?_⟩ hn⟩
      exact absurd (hc.symm.trans ht) (by decide)
    | true =>
      obtain ⟨hkept, hbroken⟩ := redeclare_spec hs'.heap (hsetUp hc) replies
      exact ⟨fun hr => hkept (hr.2 hc), fun hn => hbroken fun hr => hn ⟨hsafe, fun _ => hr⟩⟩
  · rw [reconnect, connectToRabbitmq_error s hsafe]
    exact ⟨fun hr => absurd hr.1 hsafe, fun _ => trivial⟩

/-- An exchange that is not declared at once leads to a reconnection. -/
theorem exchangeVerified_reconnect {s1 : Recorded} (hs1 : Sound s1) {replies : ExchangeReplies}
    (hdeclare : s.declareExchange replies.declareExchange = .ok (none, s1)) :
    (Reconnected replies → Kept (s.exchangeVerified replies)) ∧
      (¬ Reconnected replies → Broken (s.exchangeVerified replies)) := by
  have hresult : s.exchangeVerified replies = s1.reconnect replies := by
    simp only [exchangeVerified, hdeclare, bind, Except.bind]
    rfl
  rw [hresult]
  exact reconnect_spec hs1 replies

/-- An exchange that is declared at once is bound. -/
theorem exchangeVerified_bind {s1 : Recorded} {e : Exchange} {replies : ExchangeReplies}
    (hdeclare : s.declareExchange replies.declareExchange = .ok (some e, s1)) :
    s.exchangeVerified replies = (do
      let (_, s) ← s1.bindCommandQueue (some e) replies.bindQueue
      return (some e, s)) := by
  simp only [exchangeVerified, hdeclare, bind, Except.bind]
  rfl

/-- **With a channel**, the exchange is declared at once and bound to the queue of the channel, or
the call reconnects. -/
theorem exchangeVerified_spec (hs : Sound s) (hchannel : s.self.rabbitmqChannel ≠ none)
    (replies : ExchangeReplies) :
    ((replies.declareExchange.ok && channelValid s.self) = true →
      (QueueOnChannel s.self ∧ replies.bindQueue.ok = true → Kept (s.exchangeVerified replies)) ∧
      (¬ (QueueOnChannel s.self ∧ replies.bindQueue.ok = true) →
        Broken (s.exchangeVerified replies))) ∧
    ((replies.declareExchange.ok && channelValid s.self) = false →
      (Reconnected replies → Kept (s.exchangeVerified replies)) ∧
      (¬ Reconnected replies → Broken (s.exchangeVerified replies))) := by
  cases hs.stage with
  | unconnected hnone => exact absurd hnone hchannel
  | invalid h hv =>
    rw [channelValid_eq h, hv, Bool.and_false]
    exact ⟨nofun, fun _ => exchangeVerified_reconnect hs (declareExchange_invalid h hv _)⟩
  | @half con ref c h hv hstored hqueue =>
    rw [channelValid_eq h, hv, Bool.and_true]
    have hdeclare := declareExchange_valid h hv replies.declareExchange
    refine ⟨fun hok => ?_, fun hok => ?_⟩
    · rw [if_pos hok] at hdeclare
      rw [exchangeVerified_bind hdeclare, bindCommandQueue_gone (hs.heap.after _ _ _)
        (h.after _ _ _) hqueue]
      refine ⟨fun hb => ?_, fun _ => trivial⟩
      obtain ⟨q, hq, hcurrent⟩ := hb.1
      exact absurd (Option.some.inj (hcurrent.symm.trans h.channel)) (hqueue q hq)
    · rw [if_neg (Bool.eq_false_iff.mp hok)] at hdeclare
      exact exchangeVerified_reconnect
        ⟨hs.heap.after _ _ _, .half (h.after _ _ _) hv hstored hqueue⟩ hdeclare
  | @settled con ref c h hv hstored hsettled =>
    rw [channelValid_eq h, hv, Bool.and_true]
    refine ⟨fun hok => ?_, fun hok => ?_⟩
    · obtain ⟨e, s1, s', hdeclare, hbind, hs', hready⟩ :=
        declareBind_spec hs.heap h hv hstored hsettled hok replies.bindQueue
      rw [exchangeVerified_bind hdeclare, hbind]
      obtain ⟨hkept, hbroken⟩ := kept_or_broken hs' hready
      refine ⟨fun hb => hkept hb.2, fun hb => hbroken fun hbound => hb ⟨?_, hbound⟩⟩
      exact ⟨_, hsettled.queue, h.channel⟩
    · have hdeclare := declareExchange_valid h hv replies.declareExchange
      rw [if_neg (Bool.eq_false_iff.mp hok)] at hdeclare
      have hsettled' := hsettled.after c (exchangeDeclared s.self) replies.declareExchange
        (by simp [exchangeDeclared, queueDeclared]) (by simp [exchangeDeclared, consumerRegistered])
      exact exchangeVerified_reconnect
        ⟨hs.heap.after _ _ _, .settled (h.after _ _ _) hv hstored hsettled'⟩ hdeclare

/-- The exchange is declared without a reconnection. -/
def declaredAtOnce (x : InOutExchange) (replies : ExchangeReplies) : Bool :=
  replies.declareExchange.ok &&
    if x.rabbitmqChannel.isNone then connects replies.verify && replies.verify.basicConsume.ok
    else channelValid x

/-- The condition on a call of `get_valid_exchange`. -/
structure Answers (x : InOutExchange) (replies : ExchangeReplies) : Prop where
  verify : x.rabbitmqChannel = none → Safe replies.verify
  bind : declaredAtOnce x replies = true →
    (x.rabbitmqChannel ≠ none → QueueOnChannel x) ∧ replies.bindQueue.ok = true
  reconnect : (x.rabbitmqChannel = none → connects replies.verify = true) →
    declaredAtOnce x replies = false → Reconnected replies

theorem getValidExchange_connected (hchannel : s.self.rabbitmqChannel ≠ none)
    (replies : ExchangeReplies) : s.getValidExchange replies = s.exchangeVerified replies := by
  rw [getValidExchange, verifyRabbitmqConnection,
    if_neg fun h => hchannel (Option.isNone_iff_eq_none.mp h)]
  rfl

/-- The condition decides the call, when it says of the verified session what it should. -/
theorem exchangeVerified_answers {x : InOutExchange} (hs : Sound s)
    (hchannel : s.self.rabbitmqChannel ≠ none) {replies : ExchangeReplies}
    (honce : declaredAtOnce x replies = (replies.declareExchange.ok && channelValid s.self))
    (hanswers : Answers x replies ↔
      (declaredAtOnce x replies = true → QueueOnChannel s.self ∧ replies.bindQueue.ok = true) ∧
        (declaredAtOnce x replies = false → Reconnected replies)) :
    (Answers x replies → Kept (s.exchangeVerified replies)) ∧
      (¬ Answers x replies → Broken (s.exchangeVerified replies)) := by
  rw [hanswers]
  obtain ⟨hbind, hreconnect⟩ := exchangeVerified_spec hs hchannel replies
  rw [← honce] at hbind hreconnect
  cases hb : declaredAtOnce x replies with
  | true =>
    obtain ⟨hkept, hbroken⟩ := hbind hb
    exact ⟨fun h => hkept (h.1 rfl), fun hn => hbroken fun h => hn ⟨fun _ => h, nofun⟩⟩
  | false =>
    obtain ⟨hkept, hbroken⟩ := hreconnect hb
    exact ⟨fun h => hkept (h.2 rfl), fun hn => hbroken fun h => hn ⟨nofun, fun _ => h⟩⟩

/-- **One call of `get_valid_exchange`.** -/
theorem getValidExchange_spec (hs : Sound s) (replies : ExchangeReplies) :
    (Answers s.self replies → Kept (s.getValidExchange replies)) ∧
      (¬ Answers s.self replies → Broken (s.getValidExchange replies)) := by
  by_cases hchannel : s.self.rabbitmqChannel = none
  · have honce : declaredAtOnce s.self replies = (replies.declareExchange.ok &&
        (connects replies.verify && replies.verify.basicConsume.ok)) := by
      rw [declaredAtOnce, if_pos (Option.isNone_iff_eq_none.mpr hchannel)]
    rw [getValidExchange, verifyRabbitmqConnection,
      if_pos (Option.isNone_iff_eq_none.mpr hchannel)]
    by_cases hsafe : Safe replies.verify
    · obtain ⟨s', hconnect, hs', hsetUp⟩ := connectToRabbitmq_spec hs hsafe
      rw [hconnect]
      cases hc : connects replies.verify with
      | false =>
        rw [hc, Bool.false_and, Bool.and_false] at honce
        refine ⟨fun _ => ⟨hs', nofun⟩, fun hn => hn.elim ⟨fun _ => hsafe, fun h => ?_, fun h => ?_⟩⟩
        · exact absurd (honce.symm.trans h) (by decide)
        · exact absurd (hc.symm.trans (h hchannel)) (by decide)
      | true =>
        obtain ⟨con, ref, c, h, hv, hsettled⟩ := hsetUp hc
        have hchannel' : s'.self.rabbitmqChannel ≠ none := by
          rw [h.channel]
          exact nofun
        rw [hc, Bool.true_and, ← hv, ← channelValid_eq h] at honce
        refine exchangeVerified_answers hs' hchannel' honce ⟨fun ha => ⟨fun hb => ?_, ?_⟩, ?_⟩
        · rw [honce, channelValid_eq h, hv, Bool.and_eq_true] at hb
          refine ⟨⟨_, (hsettled hb.2).2.queue, h.channel⟩, (ha.bind ?_).2⟩
          rw [honce, channelValid_eq h, hv, hb.1, hb.2]
          rfl
        · exact ha.reconnect fun _ => hc
        · exact fun ha => ⟨fun _ => hsafe, fun hb => ⟨fun hn => absurd hchannel hn, (ha.1 hb).2⟩,
            fun _ => ha.2⟩
    · rw [connectToRabbitmq_error s hsafe]
      exact ⟨fun h => absurd (h.verify hchannel) hsafe, fun _ => trivial⟩
  · rw [getValidExchange_connected hchannel]
    refine exchangeVerified_answers hs hchannel ?_ ⟨fun ha => ⟨fun hb => ?_, ?_⟩, fun ha => ?_⟩
    · rw [declaredAtOnce, if_neg fun h => hchannel (Option.isNone_iff_eq_none.mp h)]
    · exact ⟨(ha.bind hb).1 hchannel, (ha.bind hb).2⟩
    · exact ha.reconnect fun e => absurd e hchannel
    · exact ⟨fun e => absurd e hchannel, fun hb => ⟨fun _ => (ha.1 hb).1, (ha.1 hb).2⟩,
        fun _ => ha.2⟩

/-! ## Runs -/

/-- The thread between two calls, with what the last one returned, or after a null dereference. -/
inductive State where
  | running (session : Recorded) (returned : Option Exchange)
  | crashed

/-- A call of `get_valid_exchange`. -/
def step : State → ExchangeReplies → Option State
  | .running s _, replies =>
    match s.getValidExchange replies with
    | .ok (exchange, s) => some (.running s exchange)
    | .error _ => some .crashed
  | .crashed, _ => none

/-- The members before the constructor connects. -/
def members (exchangeName routingKey queueName consumerTag : Bytes)
    (recvCallback : EnvelopeCallback) : Recorded where
  self := {
    exchangeName := exchangeName
    routingKey := routingKey
    queueName := queueName
    consumerTag := consumerTag
    recvCallback := recvCallback }

/-- The constructor: what `connect_to_rabbitmq` returns is not looked at. -/
def construct (exchangeName routingKey queueName consumerTag : Bytes)
    (recvCallback : EnvelopeCallback) (replies : ConnectReplies) : State :=
  match (members exchangeName routingKey queueName consumerTag recvCallback).connectToRabbitmq
    replies with
  | .ok (_, s) => .running s none
  | .error _ => .crashed

/-- **The contract**: nothing null was dereferenced, and a returned exchange is ready. -/
def ReadyOrNull : State → Prop
  | .running s returned => ∀ exchange, returned = some exchange → Ready s exchange
  | .crashed => False

/-- The condition on a call. -/
def AnswersOf : State → ExchangeReplies → Prop
  | .running s _, replies => Answers s.self replies
  | .crashed, _ => True

/-- The invariant of a run. -/
def Running : State → Prop
  | .running s returned => Sound s ∧ ∀ exchange, returned = some exchange → Ready s exchange
  | .crashed => False

theorem Running.readyOrNull : ∀ {st : State}, Running st → ReadyOrNull st
  | .running _ _, h => h.2

/-- What one call does to the contract. -/
theorem running_step {st st' : State} {replies : ExchangeReplies} (hst : Running st)
    (h : step st replies = some st') :
    (AnswersOf st replies → Running st') ∧ (¬ AnswersOf st replies → ¬ ReadyOrNull st') := by
  cases st with
  | crashed => exact hst.elim
  | running s returned =>
    obtain ⟨hkept, hbroken⟩ := getValidExchange_spec hst.1 replies
    simp only [step] at h
    split at h
    · rename_i exchange s' hget
      obtain rfl := Option.some.inj h
      rw [hget] at hkept hbroken
      refine ⟨hkept, fun hn hready => ?_⟩
      obtain ⟨e, he, hnot⟩ := hbroken hn
      exact hnot (hready e he)
    · rename_i hget
      obtain rfl := Option.some.inj h
      rw [hget] at hkept
      exact ⟨hkept, fun _ => id⟩

section

variable (exchangeName routingKey queueName consumerTag : Bytes) (recvCallback : EnvelopeCallback)

theorem sound_members :
    Sound (members exchangeName routingKey queueName consumerTag recvCallback) := by
  refine ⟨⟨fun con id ref h => ?_, fun q h => ?_⟩, .unconnected rfl⟩
  · cases h
  · cases h

theorem running_construct (replies : ConnectReplies) :
    (Safe replies →
      Running (construct exchangeName routingKey queueName consumerTag recvCallback replies)) ∧
    (¬ Safe replies →
      construct exchangeName routingKey queueName consumerTag recvCallback replies = .crashed) := by
  have hs := sound_members exchangeName routingKey queueName consumerTag recvCallback
  unfold construct
  constructor
  · intro hsafe
    obtain ⟨s', hconnect, hs', -⟩ := connectToRabbitmq_spec hs hsafe
    rw [hconnect]
    exact ⟨hs', nofun⟩
  · intro hn
    rw [connectToRabbitmq_error _ hn]

/-- **The exchange is ready whenever it says so**, and nothing null is dereferenced, in every state
of a run exactly when the constructor's answers are safe and the answers of every call meet the
condition. -/
theorem ready_iff (replies : ConnectReplies) (es : List ExchangeReplies) :
    Everywhere step ReadyOrNull
        (construct exchangeName routingKey queueName consumerTag recvCallback replies) es ↔
      Safe replies ∧ Always step AnswersOf
        (construct exchangeName routingKey queueName consumerTag recvCallback replies) es := by
  obtain ⟨hrunning, hcrashed⟩ := running_construct exchangeName routingKey queueName consumerTag
    recvCallback replies
  by_cases hsafe : Safe replies
  · have hiff : Everywhere step ReadyOrNull _ es ↔ Always step AnswersOf _ es :=
      everywhere_iff_always (fun _ => Running.readyOrNull)
        (fun _ _ _ hst h => (running_step hst h).1) (fun _ _ _ hst h => (running_step hst h).2)
        (hrunning hsafe)
    exact ⟨fun h => ⟨hsafe, hiff.mp h⟩, fun h => hiff.mpr h.2⟩
  · refine ⟨fun h => ?_, fun h => absurd h.1 hsafe⟩
    have hhead := everywhere_head h
    rw [hcrashed hsafe] at hhead
    exact hhead.elim

end

/-- Answers of `connect_to_rabbitmq`, all normal but two. -/
def answers (declareQueue bindQueue : RpcReply) : ConnectReplies :=
  { connection := some 20, declareQueue := declareQueue, bindQueue := bindQueue }

/-- The constructor's queue is refused, and dereferenced; or the binding of `get_valid_exchange` is
refused, and its exchange is returned all the same. -/
theorem not_ready_refused :
    ¬ Everywhere step ReadyOrNull (construct (ascii "e") (ascii "k") (ascii "q") (ascii "t") none
        (answers .serverException .normal)) [] ∧
      ¬ Everywhere step ReadyOrNull (construct (ascii "e") (ascii "k") (ascii "q") (ascii "t") none
          (answers .normal .normal))
        [{ verify := ⟨none, .normal, .normal, .normal, .normal, .normal⟩
           connect := ⟨none, .normal, .normal, .normal, .normal, .normal⟩
           bindQueue := .serverException }] := by
  constructor
  · intro h
    exact h
  · intro h
    have hlast := everywhere_iff_reached.mp h _ _ (List.prefix_refl _) rfl
    obtain ⟨ref, hchannel, -, -, hbound, -⟩ := hlast _ rfl
    obtain rfl := Option.some.inj hchannel
    exact absurd hbound (by decide)

end Recorded

end WinterWind.Amqp
