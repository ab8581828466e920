import WinterWind.Amqp.ChannelClosure

/-!
# Deliveries (`Channel::on_envelope_received` in `src/core/amqp/channel.cpp`)

A `Session` is one channel, everything that was sent on it, and the deliveries it received.
`on_envelope_received` runs user code between `VERIFY_CHANNEL` and `basic.ack`, so it is two steps:
`receive` looks the consumer up and calls its callback, `finish` is the callback's return. Between
the two the callback may do whatever a user of the channel may: call operations, close the channel,
receive another envelope. `running` is the stack of the callbacks that have not returned.

* What a callback returns is an input of the run, since it may depend on anything.
  `receive_finish` says that a callback which calls nothing makes `Channel.onEnvelopeReceived`.
* `consumers` records the accepted calls of `basic_consume` in their order, and a `Delivery` the
  first of them with its tag when it arrived, to compare with what the code did.

Results:
* **`silentOnceInvalid_iff`**: nothing is sent on an invalid channel, exactly when no callback
  returns true on a channel that became invalid while it ran.
* **`dispatched_iff`**: every delivery is dispatched and acknowledged as its consumer asked,
  exactly when no callback of a consumer registered with `no_ack` returns true.
-/

namespace WinterWind.Amqp

open Library

/-- An accepted call of `basic_consume`. -/
structure Consumer where
  consumerTag : Bytes
  callback : EnvelopeCallback
  noAck : Bool

/-- A delivery. `consumer` is the first accepted one with its tag when it arrived on a valid
channel, `callback` the one it was handed to, `returned` what that returned, and `acks` what
`on_envelope_received` sent for it. -/
structure Delivery where
  envelope : Envelope
  consumer : Option Consumer
  callback : Option (Envelope → Bool) := none
  returned : Bool := false
  acks : List AmqpCall := []

/-- A channel, what was sent on it, its accepted consumers, the deliveries whose callback is
running, innermost first, and those that are over. -/
structure Session where
  channel : Channel
  sent : List AmqpCall := []
  consumers : List Consumer := []
  running : List Delivery := []
  deliveries : List Delivery := []

/-- The consumer that a call of an operation registers. -/
def Operation.registers (reply : RpcReply) (c : Channel) : Operation → Option Consumer
  | .basicConsume queue consumerTag callback noLocal noAck exclusive =>
    if (c.basicConsume reply queue consumerTag callback noLocal noAck exclusive).returned then
      some ⟨consumerTag, callback, noAck⟩
    else none
  | _ => none

namespace Session

/-- What happens to a channel. -/
inductive Event where
  | perform (op : Operation) (reply : RpcReply)
  | close
  | invalidate
  | receive (envelope : Envelope)
  | finish (consumed : Bool)

/-- A channel that was opened. -/
def opened (id : UInt16) : Session := { channel := { id := id } }

/-- The first accepted consumer with the tag of the envelope. -/
def consumerOf (s : Session) (envelope : Envelope) : Option Consumer :=
  s.consumers.find? fun consumer => consumer.consumerTag = envelope.consumerTag

/-- A delivery on arrival. -/
def arrival (s : Session) (envelope : Envelope) : Delivery :=
  { envelope := envelope
    consumer := if s.channel.valid then s.consumerOf envelope else none }

/-- The delivery is over before any callback is called. -/
def drop (s : Session) (envelope : Envelope) : Session :=
  { s with deliveries := s.deliveries ++ [s.arrival envelope] }

/-- One step. The channel is an object of the program, so every step but a return is enabled. -/
def step (s : Session) : Event → Option Session
  | .perform op reply =>
    some { s with
      channel := (op.perform reply s.channel).1
      sent := s.sent ++ (op.perform reply s.channel).2
      consumers := s.consumers ++ (op.registers reply s.channel).toList }
  | .close =>
    some { s with channel := s.channel.close.channel, sent := s.sent ++ s.channel.close.sent }
  | .invalidate => some { s with channel := s.channel.invalidate }
  | .receive envelope =>
    if s.channel.valid then
      match s.channel.consumersCallbacks.lookup envelope.consumerTag with
      | some (some callback) =>
        some { s with
          running := { s.arrival envelope with callback := some callback } :: s.running }
      | some none => some (s.drop envelope)
      | none => some (s.drop envelope)
    else some (s.drop envelope)
  | .finish consumed =>
    match s.running with
    | [] => none
    | delivery :: running =>
      let acks := if consumed then [.basicAck delivery.envelope.deliveryTag false] else []
      some { s with
        running := running
        sent := s.sent ++ acks
        deliveries := s.deliveries ++ [{ delivery with returned := consumed, acks := acks }] }

/-- **A delivery whose callback calls nothing** is `Channel.onEnvelopeReceived`: the same channel
afterwards, and the same sent. -/
theorem receive_finish (s : Session) (envelope : Envelope) :
    ∃ t, run step s (.receive envelope ::
          (if s.channel.valid then
            ((s.channel.consumersCallbacks.lookup envelope.consumerTag).join.map fun callback =>
              Event.finish (callback envelope)).toList
          else [])) = some t ∧
        t.channel = (s.channel.onEnvelopeReceived envelope).channel ∧
        t.sent = s.sent ++ (s.channel.onEnvelopeReceived envelope).sent := by
  by_cases hv : s.channel.valid = true
  · cases hlookup : s.channel.consumersCallbacks.lookup envelope.consumerTag with
    | none => simp [run, step, drop, Channel.onEnvelopeReceived, hv, hlookup]
    | some callback =>
      cases callback with
      | none => simp [run, step, drop, Channel.onEnvelopeReceived, hv, hlookup]
      | some callback =>
        cases hr : callback envelope <;>
          simp [run, step, arrival, Channel.onEnvelopeReceived, hv, hlookup, hr]
  · simp [run, step, drop, Channel.onEnvelopeReceived, hv]

/-! ## The kinds of steps -/

/-- The kinds of steps. -/
inductive Move (s : Session) : Event → Session → Prop
  | perform (op : Operation) (reply : RpcReply) :
    Move s (.perform op reply) { s with
      channel := (op.perform reply s.channel).1
      sent := s.sent ++ (op.perform reply s.channel).2
      consumers := s.consumers ++ (op.registers reply s.channel).toList }
  | close :
    Move s .close
      { s with channel := s.channel.close.channel, sent := s.sent ++ s.channel.close.sent }
  | invalidate : Move s .invalidate { s with channel := s.channel.invalidate }
  /-- A valid channel has a callback for the tag. -/
  | hand {envelope : Envelope} {callback : Envelope → Bool} (hv : s.channel.valid = true)
    (hlookup : s.channel.consumersCallbacks.lookup envelope.consumerTag = some (some callback)) :
    Move s (.receive envelope)
      { s with running := { s.arrival envelope with callback := some callback } :: s.running }
  /-- The channel is invalid, or it has no callback for the tag, or an empty one. -/
  | drop {envelope : Envelope} (h : s.channel.valid = true →
      (s.channel.consumersCallbacks.lookup envelope.consumerTag).join = none) :
    Move s (.receive envelope) (s.drop envelope)
  | finish {delivery : Delivery} {running : List Delivery} (consumed : Bool)
    (hrunning : s.running = delivery :: running) :
    Move s (.finish consumed) { s with
      running := running
      sent := s.sent ++ (if consumed then [.basicAck delivery.envelope.deliveryTag false] else [])
      deliveries := s.deliveries ++ [{ delivery with
        returned := consumed
        acks := if consumed then [.basicAck delivery.envelope.deliveryTag false] else [] }] }

theorem step_move {s s' : Session} {e : Event} (h : step s e = some s') : Move s e s' := by
  cases e with
  | perform op reply =>
    obtain rfl := Option.some.inj h
    exact .perform op reply
  | close =>
    obtain rfl := Option.some.inj h
    exact .close
  | invalidate =>
    obtain rfl := Option.some.inj h
    exact .invalidate
  | receive envelope =>
    simp only [step] at h
    split at h
    · rename_i hv
      split at h
      · rename_i callback hlookup
        obtain rfl := Option.some.inj h
        exact .hand hv hlookup
      · rename_i hlookup
        obtain rfl := Option.some.inj h
        exact .drop fun _ => by rw [hlookup]; rfl
      · rename_i hlookup
        obtain rfl := Option.some.inj h
        exact .drop fun _ => by rw [hlookup]; rfl
    · rename_i hv
      obtain rfl := Option.some.inj h
      exact .drop fun hv' => absurd hv' hv
  | finish consumed =>
    simp only [step] at h
    split at h
    · cases h
    · rename_i delivery running hrunning
      obtain rfl := Option.some.inj h
      exact .finish consumed hrunning

/-! ## Invalid channels -/

/-- Once the channel is invalid it stays invalid, and nothing more is sent on it. -/
def SilentOnceInvalid (s : Session) (es : List Event) : Prop :=
  Henceforth step (fun t => t.channel.valid = false)
    (fun t u => u.channel.valid = false ∧ u.sent = t.sent) s es

/-- The condition on a step: a callback that returns true does so on a valid channel. -/
def AckValid (s : Session) : Event → Prop
  | .finish true => s.channel.valid = true
  | _ => True

/-- A step from an invalid channel that meets the condition. -/
theorem invalid_silent {s s' : Session} {e : Event} (hv : s.channel.valid = false)
    (h : step s e = some s') (hok : s.AckValid e) :
    s'.channel.valid = false ∧ s'.sent = s.sent := by
  cases step_move h with
  | perform op reply =>
    rw [perform_of_invalid hv]
    exact ⟨hv, List.append_nil _⟩
  | close =>
    refine ⟨close_valid _, ?_⟩
    simp [Channel.close, hv]
  | invalidate => exact ⟨rfl, rfl⟩
  | hand hv' _ =>
    rw [hv] at hv'
    cases hv'
  | drop _ => exact ⟨hv, rfl⟩
  | finish consumed hrunning =>
    cases consumed with
    | false => exact ⟨hv, List.append_nil _⟩
    | true =>
      simp only [AckValid, hv] at hok
      cases hok

/-- A step that does not meet the condition acknowledges on an invalid channel. -/
theorem not_silent {s s' : Session} {e : Event} (h : step s e = some s') (hbad : ¬ s.AckValid e) :
    s.channel.valid = false ∧ ¬ (s'.channel.valid = false ∧ s'.sent = s.sent) := by
  cases step_move h with
  | finish consumed hrunning =>
    cases consumed with
    | false => exact absurd trivial hbad
    | true =>
      refine ⟨Bool.eq_false_iff.mpr hbad, fun hsilent => ?_⟩
      have hlength := congrArg List.length hsilent.2
      simp at hlength
  | _ => exact absurd trivial hbad

/-- **Nothing is sent on an invalid channel, and it stays invalid**, exactly when no callback
returns true on an invalid channel. -/
theorem silentOnceInvalid_iff (id : UInt16) (es : List Event) :
    (opened id).SilentOnceInvalid es ↔ Always step AckValid (opened id) es :=
  henceforth_iff_always (fun _ hv => ⟨hv, rfl⟩)
    (fun _ _ _ hv h hok => ⟨(invalid_silent hv h hok).1, invalid_silent hv h hok⟩)
    (fun _ _ _ hst htu => ⟨htu.1, htu.2.trans hst.2⟩) (fun _ _ _ => not_silent)

/-- A callback closes its channel and returns true. -/
theorem not_silent_close :
    ¬ (opened 1).SilentOnceInvalid
      [.perform (.basicConsume (ascii "jobs") (ascii "worker") (some fun _ => true) false false
          false) .normal,
        .receive ⟨ascii "worker", 1, [], false, ascii "jobs", []⟩, .close, .finish true] := by
  intro h
  have hsent := (henceforth_iff_reached.mp h
    [.perform (.basicConsume (ascii "jobs") (ascii "worker") (some fun _ => true) false false
        false) .normal,
      .receive ⟨ascii "worker", 1, [], false, ascii "jobs", []⟩, .close] [.finish true] _ _
    (List.prefix_refl _) rfl rfl rfl).2
  exact absurd hsent (by decide)

end Session

/-! ## Registered consumers -/

/-- The call acknowledges a delivery. -/
def AmqpCall.isAck : AmqpCall → Bool
  | basicAck .. => true
  | _ => false

/-- An operation registers a consumer under a tag that is free, and does nothing else to the
callbacks. -/
theorem perform_registers (c : Channel) (reply : RpcReply) (op : Operation) :
    op.registers reply c = none ∧
        (op.perform reply c).1.consumersCallbacks = c.consumersCallbacks ∨
      ∃ k, op.registers reply c = some k ∧ c.consumersCallbacks.lookup k.consumerTag = none ∧
        (op.perform reply c).1.consumersCallbacks =
          c.consumersCallbacks.insert k.consumerTag k.callback := by
  by_cases hv : c.valid = true
  · rcases perform_of_valid hv reply op with
      ⟨queue, consumerTag, callback, noLocal, noAck, exclusive, rfl⟩ | ⟨hother, call, -, hperform⟩
    · cases hlookup : c.consumersCallbacks.lookup consumerTag with
      | some callback' =>
        simp [Operation.registers, Operation.perform, Channel.basicConsume, Outcome.effect, hv,
          hlookup]
      | none =>
        cases reply <;>
          simp [Operation.registers, Operation.perform, Channel.basicConsume, Channel.rpc,
            Channel.invalidate, Outcome.effect, RpcReply.ok, hv, hlookup]
    · refine Or.inl ⟨?_, by rw [hperform]⟩
      cases op with
      | basicConsume queue consumerTag callback noLocal noAck exclusive =>
        exact absurd rfl (hother queue consumerTag callback noLocal noAck exclusive)
      | _ => rfl
  · refine Or.inl ⟨?_, by rw [perform_of_invalid (Bool.eq_false_iff.mpr hv)]⟩
    cases op <;>
      simp [Operation.registers, Channel.basicConsume, Channel.rpc, hv]

/-- No operation acknowledges. -/
theorem perform_isAck (c : Channel) (reply : RpcReply) (op : Operation) :
    (op.perform reply c).2.filter AmqpCall.isAck = [] := by
  by_cases hv : c.valid = true
  · rcases perform_of_valid hv reply op with
      ⟨queue, consumerTag, callback, noLocal, noAck, exclusive, rfl⟩ | ⟨-, call, hack, hperform⟩
    · by_cases hr : (c.consumersCallbacks.lookup consumerTag).isSome = true
      · simp [Operation.perform, Channel.basicConsume, Outcome.effect, hv, hr]
      · simp [Operation.perform, Channel.basicConsume, Channel.rpc, Outcome.effect,
          AmqpCall.isAck, hv, hr]
    · rw [hperform]
      cases call with
      | basicAck deliveryTag multiple => exact absurd rfl (hack deliveryTag multiple)
      | _ => rfl
  · rw [perform_of_invalid (Bool.eq_false_iff.mpr hv)]
    rfl

theorem close_callbacks (c : Channel) :
    c.close.channel.consumersCallbacks = c.consumersCallbacks := by
  unfold Channel.close
  split <;> rfl

theorem close_isAck (c : Channel) : c.close.sent.filter AmqpCall.isAck = [] := by
  unfold Channel.close
  split <;> rfl

namespace Session

/-! ## Dispatching -/

/-- What a consumer asks to be sent for a delivery: one `basic.ack` when its callback returned true
and the broker does not acknowledge by itself. -/
def acksDue (d : Delivery) : List AmqpCall :=
  if d.returned && d.consumer.any (!·.noAck) then [.basicAck d.envelope.deliveryTag false] else []

/-- Every delivery was handed to the callback of the first accepted consumer with its tag and to no
other; what was sent for it is what that consumer asked for; and no other `basic.ack` was sent. -/
structure Dispatched (s : Session) : Prop where
  handed : ∀ d ∈ s.running ++ s.deliveries, d.callback = d.consumer.bind Consumer.callback
  acked : ∀ d ∈ s.deliveries, d.acks = acksDue d
  sent : s.sent.filter AmqpCall.isAck = s.deliveries.flatMap Delivery.acks

/-- The condition on a step: the consumer of a delivery whose callback returns true was not
registered with `no_ack`. -/
def AckWanted (s : Session) : Event → Prop
  | .finish true => ∀ d ∈ s.running.head?, ∀ consumer ∈ d.consumer, consumer.noAck = false
  | _ => True

/-- The callbacks are those of the first accepted consumers, and what runs is a callback. -/
structure Dispatching (s : Session) : Prop extends Dispatched s where
  registry : ∀ envelope : Envelope,
    s.channel.consumersCallbacks.lookup envelope.consumerTag =
      (s.consumerOf envelope).map Consumer.callback
  called : ∀ d ∈ s.running, d.callback.isSome = true

theorem dispatching_opened (id : UInt16) : (opened id).Dispatching where
  handed _ hd := absurd hd List.not_mem_nil
  acked _ hd := absurd hd List.not_mem_nil
  sent := rfl
  registry envelope := by simp [opened, consumerOf]
  called _ hd := absurd hd List.not_mem_nil

/-- Another accepted consumer is found only under a tag that has none. -/
theorem consumerOf_append (s : Session) (k : Consumer) (envelope : Envelope) :
    { s with consumers := s.consumers ++ [k] }.consumerOf envelope =
      (s.consumerOf envelope).or
        (if k.consumerTag = envelope.consumerTag then some k else none) := by
  simp only [consumerOf, List.find?_append, List.find?_singleton, decide_eq_true_eq]

/-- An operation keeps the callbacks those of the first accepted consumers. -/
theorem registry_perform {s : Session} (hs : s.Dispatching) (reply : RpcReply) (op : Operation)
    (envelope : Envelope) :
    (op.perform reply s.channel).1.consumersCallbacks.lookup envelope.consumerTag =
      ({ s with consumers := s.consumers ++ (op.registers reply s.channel).toList }.consumerOf
        envelope).map Consumer.callback := by
  rcases perform_registers s.channel reply op with ⟨hnone, hsame⟩ | ⟨k, hsome, hfree, hinsert⟩
  · rw [hnone, hsame, Option.toList_none, List.append_nil]
    exact hs.registry envelope
  · rw [hsome, hinsert, Option.toList_some, consumerOf_append]
    by_cases htag : k.consumerTag = envelope.consumerTag
    · have hfirst : s.consumerOf envelope = none := by
        have hlookup := hs.registry envelope
        rw [← htag, hfree] at hlookup
        exact Option.map_eq_none_iff.mp hlookup.symm
      rw [hfirst, if_pos htag, Option.none_or, ← htag, Finmap.lookup_insert]
      rfl
    · rw [if_neg htag, Option.or_none, Finmap.lookup_insert_of_ne _ (Ne.symm htag)]
      exact hs.registry envelope

/-- A delivery whose callback runs has a consumer. -/
theorem consumer_of_running {s : Session} (hs : s.Dispatching) {d : Delivery}
    (hd : d ∈ s.running) : ∃ consumer, d.consumer = some consumer := by
  have hcalled := hs.called d hd
  rw [hs.handed d (List.mem_append_left _ hd)] at hcalled
  cases hconsumer : d.consumer with
  | none =>
    rw [hconsumer] at hcalled
    cases hcalled
  | some consumer => exact ⟨consumer, rfl⟩

/-- **A return**: what it sends is what the consumer asked for exactly if it meets the
condition. -/
theorem acks_finish {s : Session} (hs : s.Dispatching) {d : Delivery} {running : List Delivery}
    (hrunning : s.running = d :: running) (consumed : Bool) :
    (if consumed then [.basicAck d.envelope.deliveryTag false] else []) =
        acksDue { d with returned := consumed } ↔
      s.AckWanted (.finish consumed) := by
  obtain ⟨consumer, hconsumer⟩ :=
    consumer_of_running hs (hrunning ▸ List.mem_cons_self : d ∈ s.running)
  cases consumed with
  | false => simp [acksDue, AckWanted]
  | true => cases hack : consumer.noAck <;> simp [acksDue, AckWanted, hrunning, hconsumer, hack]

/-- The callback of an arriving delivery's consumer is the one that the channel looks up. -/
theorem callback_arrival {s : Session} (hs : s.Dispatching) (envelope : Envelope) :
    (s.arrival envelope).consumer.bind Consumer.callback =
      if s.channel.valid then (s.channel.consumersCallbacks.lookup envelope.consumerTag).join
      else none := by
  by_cases hv : s.channel.valid = true
  · rw [if_pos hv, hs.registry envelope]
    simp only [arrival, if_pos hv]
    cases s.consumerOf envelope <;> rfl
  · rw [if_neg hv]
    simp only [arrival, if_neg hv, Option.bind_none]

/-- One more delivery is over. -/
theorem Dispatched.over {s s' : Session} {d : Delivery} (hs : s.Dispatched)
    (hrunning : ∀ r ∈ s'.running, r ∈ s.running)
    (hdeliveries : s'.deliveries = s.deliveries ++ [d])
    (hhanded : d.callback = d.consumer.bind Consumer.callback) (hacked : d.acks = acksDue d)
    (hsent : s'.sent.filter AmqpCall.isAck = s.sent.filter AmqpCall.isAck ++ d.acks) :
    s'.Dispatched := by
  constructor
  · intro r hr
    rw [hdeliveries, ← List.append_assoc] at hr
    rcases List.mem_append.mp hr with hr | hr
    · exact hs.handed r (List.mem_append.mpr ((List.mem_append.mp hr).imp_left (hrunning r)))
    · obtain rfl := List.mem_singleton.mp hr
      exact hhanded
  · intro r hr
    rw [hdeliveries] at hr
    rcases List.mem_append.mp hr with hr | hr
    · exact hs.acked r hr
    · obtain rfl := List.mem_singleton.mp hr
      exact hacked
  · rw [hdeliveries, hsent, hs.sent, List.flatMap_append, List.flatMap_singleton]

/-- A step that meets the condition. -/
theorem dispatching_step {s s' : Session} {e : Event} (hs : s.Dispatching)
    (h : step s e = some s') (hok : s.AckWanted e) : s'.Dispatching := by
  cases step_move h with
  | perform op reply =>
    refine ⟨⟨hs.handed, hs.acked, ?_⟩, registry_perform hs reply op, hs.called⟩
    rw [List.filter_append, perform_isAck, List.append_nil]
    exact hs.sent
  | close =>
    refine ⟨⟨hs.handed, hs.acked, ?_⟩, fun envelope => ?_, hs.called⟩
    · rw [List.filter_append, close_isAck, List.append_nil]
      exact hs.sent
    · rw [close_callbacks]
      exact hs.registry envelope
  | invalidate => exact ⟨⟨hs.handed, hs.acked, hs.sent⟩, hs.registry, hs.called⟩
  | @hand envelope callback hv hlookup =>
    refine ⟨⟨fun d hd => ?_, hs.acked, hs.sent⟩, hs.registry, fun d hd => ?_⟩
    · rw [List.cons_append, List.mem_cons] at hd
      rcases hd with rfl | hd
      · have hcallback := callback_arrival hs envelope
        rw [if_pos hv, hlookup] at hcallback
        exact hcallback.symm
      · exact hs.handed d hd
    · rcases List.mem_cons.mp hd with rfl | hd
      · rfl
      · exact hs.called d hd
  | @drop envelope hdrop =>
    refine ⟨hs.toDispatched.over (fun _ hr => hr) rfl ?_ rfl (List.append_nil _).symm,
      hs.registry, hs.called⟩
    rw [callback_arrival hs envelope]
    split
    · rename_i hv
      exact (hdrop hv).symm
    · rfl
  | @finish delivery running consumed hrunning =>
    have hdelivery : delivery ∈ s.running := hrunning ▸ List.mem_cons_self
    have hmem : ∀ d ∈ running, d ∈ s.running := fun d hd =>
      hrunning ▸ List.mem_cons_of_mem delivery hd
    refine ⟨hs.toDispatched.over hmem rfl (hs.handed delivery (List.mem_append_left _ hdelivery))
      ((acks_finish hs hrunning consumed).mpr hok) ?_, hs.registry, fun d hd =>
      hs.called d (hmem d hd)⟩
    rw [List.filter_append]
    cases consumed <;> rfl

/-- A step that does not meet the condition acknowledges what it must not. -/
theorem not_dispatched {s s' : Session} {e : Event} (hs : s.Dispatching) (h : step s e = some s')
    (hbad : ¬ s.AckWanted e) : ¬ s'.Dispatched := by
  intro hs'
  cases step_move h with
  | finish consumed hrunning =>
    refine hbad ((acks_finish hs hrunning consumed).mp ?_)
    exact hs'.acked _ (List.mem_append_right _ (List.mem_singleton_self _))
  | _ => exact absurd trivial hbad

/-- **Every delivery is dispatched and acknowledged as its consumer asked**, in every state of a
run, exactly when no callback of a consumer registered with `no_ack` returns true. -/
theorem dispatched_iff (id : UInt16) (es : List Event) :
    Everywhere step Dispatched (opened id) es ↔ Always step AckWanted (opened id) es :=
  everywhere_iff_always (fun _ hs => hs.toDispatched) (fun _ _ _ => dispatching_step)
    (fun _ _ _ => not_dispatched) (dispatching_opened id)

/-- One delivery to a consumer registered with `no_ack`, whose callback consumes it. -/
theorem not_dispatched_noAck :
    ¬ Everywhere step Dispatched (opened 1)
      [.perform (.basicConsume (ascii "jobs") (ascii "worker") (some fun _ => true) false true
          false) .normal,
        .receive ⟨ascii "worker", 1, [], false, ascii "jobs", []⟩, .finish true] := by
  rw [everywhere_iff_reached]
  intro h
  have hs := h _ _ (List.prefix_refl _) rfl
  exact absurd (hs.acked _ List.mem_cons_self) (by decide)

end Session

end WinterWind.Amqp
