import WinterWind.Amqp.Delivery

/-!
# Acknowledgements (`src/core/amqp/channel.cpp`)

A channel and the broker at its other end, which is not part of the library: a `Broker` is any
machine whose `Ledger` changes as AMQP documents.

* A delivery gets a tag that is new on the channel. If its consumer was registered without `no_ack`,
  it waits until its tag is acknowledged. An acknowledgement of a tag that does not wait is refused,
  which closes the channel, and a closed channel hears nothing.
* A consumer tag is taken at most once on the channel. `basic_consume` cuts the tag it is given at
  its first NUL, and for an empty one the broker chooses a tag. The broker may register a consumer
  although the client has got no answer (`registered`).
* A delivery is in flight between the broker and `on_envelope_received`. Between that and the return
  of its callback anything may happen (`Session`). The broker may close the channel at any time.
  What the client sends is heard at once.

Results:
* `accounting_step`: what every step keeps.
* **`accounted_iff`**: while the channel is open at the broker, exactly the deliveries to consumers
  without `no_ack` wait there that no callback has consumed, and no acknowledgement is refused, in
  every state of a run, iff no callback of a consumer registered with `no_ack` returns true on a
  channel that is open at the broker.
-/

namespace WinterWind.Amqp

open Library

/-! ## The broker -/

/-- What the broker keeps of a channel: its consumers and whether they were registered with
`no_ack`, the tags it has used, and those whose deliveries wait for their acknowledgement. -/
structure Ledger where
  isOpen : Bool := true
  consumers : List (Bytes × Bool) := []
  used : List UInt64 := []
  unacked : List UInt64 := []

namespace Ledger

def close (l : Ledger) : Ledger := { l with isOpen := false, unacked := [] }

/-- A delivery to a consumer. -/
def deliver (l : Ledger) (deliveryTag : UInt64) (noAck : Bool) : Ledger :=
  { l with
    used := l.used ++ [deliveryTag]
    unacked := if noAck then l.unacked else l.unacked ++ [deliveryTag] }

/-- An acknowledgement of one delivery. -/
def ack (l : Ledger) (deliveryTag : UInt64) : Ledger :=
  if l.isOpen then
    if l.unacked.contains deliveryTag then
      { l with unacked := l.unacked.filter (· != deliveryTag) }
    else l.close
  else l

end Ledger

/-- A broker's end of a channel, with states of type `β`. Whether it delivers and whether it
registers a consumer is left to it. -/
structure Broker (β : Type) where
  opened : β
  ledger : β → Ledger
  consume : β → Bytes → Bool → Option β
  deliver : β → Envelope → Option β
  ack : β → UInt64 → β
  close : β → β
  ledger_opened : ledger opened = {}
  ledger_consume : ∀ b consumerTag noAck b', consume b consumerTag noAck = some b' →
    consumerTag ≠ [] ∧ 0 ∉ consumerTag ∧ consumerTag ∉ (ledger b).consumers.map Prod.fst ∧
      ledger b' = { ledger b with consumers := (ledger b).consumers ++ [(consumerTag, noAck)] }
  ledger_deliver : ∀ b envelope b', deliver b envelope = some b' →
    envelope.deliveryTag ∉ (ledger b).used ∧
      ∃ noAck, (envelope.consumerTag, noAck) ∈ (ledger b).consumers ∧
        ledger b' = (ledger b).deliver envelope.deliveryTag noAck
  ledger_ack : ∀ b deliveryTag, ledger (ack b deliveryTag) = (ledger b).ack deliveryTag
  ledger_close : ∀ b, ledger (close b) = (ledger b).close

/-! ## Runs -/

/-- A channel and its broker, the deliveries in flight, and the acknowledgements that were
refused. -/
structure Exchanged (β : Type) where
  session : Session
  broker : β
  inFlight : List Envelope := []
  refused : List UInt64 := []

namespace Exchanged

/-- What happens at either end. -/
inductive Event where
  | deliver (envelope : Envelope)
  | receive
  | finish (consumed : Bool)
  | perform (op : Operation) (reply : RpcReply) (chosen : Bytes)
  | registered (consumerTag : Bytes) (noAck : Bool)
  | close
  | invalidate
  | brokerClose

/-- The tag of a consumer at the broker, which may have to choose one. -/
def tagOf (consumer : Consumer) (chosen : Bytes) : Bytes :=
  if cStr consumer.consumerTag = [] then chosen else cStr consumer.consumerTag

variable {β : Type} (broker : Broker β)

def opened (id : UInt16) : Exchanged β := { session := Session.opened id, broker := broker.opened }

/-- What the broker does with a call that is not answered through `Broker.consume`. -/
def hear (w : Exchanged β) : AmqpCall → Exchanged β
  | .channelClose => { w with broker := broker.close w.broker }
  | .basicAck deliveryTag _ =>
    let l := broker.ledger w.broker
    { w with
      broker := broker.ack w.broker deliveryTag
      refused := w.refused ++
        if l.isOpen && !l.unacked.contains deliveryTag then [deliveryTag] else [] }
  | _ => w

/-- The channel after one of its steps, with what the broker hears of it. -/
def onSession (w : Exchanged β) (e : Session.Event) : Option (Exchanged β) :=
  (w.session.step e).map fun s =>
    (s.sent.drop w.session.sent.length).foldl (hear broker) { w with session := s }

/-- One step. -/
def step (w : Exchanged β) : Event → Option (Exchanged β)
  | .deliver envelope =>
    (broker.deliver w.broker envelope).map fun b =>
      { w with broker := b, inFlight := w.inFlight ++ [envelope] }
  | .receive =>
    match w.inFlight with
    | [] => none
    | envelope :: inFlight => onSession broker { w with inFlight := inFlight } (.receive envelope)
  | .finish consumed => onSession broker w (.finish consumed)
  | .perform op reply chosen =>
    match op.registers reply w.session.channel with
    | none => onSession broker w (.perform op reply)
    | some consumer =>
      (broker.consume w.broker (tagOf consumer chosen) consumer.noAck).bind fun b =>
        onSession broker { w with broker := b } (.perform op reply)
  | .registered consumerTag noAck =>
    (broker.consume w.broker consumerTag noAck).map fun b => { w with broker := b }
  | .close => onSession broker w .close
  | .invalidate => onSession broker w .invalidate
  | .brokerClose => some { w with broker := broker.close w.broker }

end Exchanged

/-! ## What is accounted for -/

/-- What is known at both ends. -/
structure Account where
  session : Session
  ledger : Ledger
  inFlight : List Envelope
  refused : List UInt64

namespace Account

/-- A delivery is on its way, or its callback has not consumed it. -/
def Pending (a : Account) (envelope : Envelope) : Prop :=
  envelope ∈ a.inFlight ∨ (∃ d ∈ a.session.running, d.envelope = envelope) ∨
    ∃ d ∈ a.session.deliveries, d.returned = false ∧ d.envelope = envelope

/-- A delivery that is to be acknowledged is on its way or was not consumed. -/
def Due (a : Account) (deliveryTag : UInt64) : Prop :=
  ∃ envelope : Envelope, envelope.deliveryTag = deliveryTag ∧ a.Pending envelope ∧
    (envelope.consumerTag, false) ∈ a.ledger.consumers

/-- While the channel is open, the broker waits for what is due and for nothing that was consumed.
No acknowledgement is refused. -/
structure Accounted (a : Account) : Prop where
  waiting : a.ledger.isOpen = true → ∀ tag, tag ∈ a.ledger.unacked ↔ a.Due tag
  settled : a.ledger.isOpen = true → ∀ d ∈ a.session.deliveries, d.returned = true →
    d.envelope.deliveryTag ∉ a.ledger.unacked
  refused : a.refused = []

/-- The deliveries, wherever they are. -/
def envelopes (a : Account) : List Envelope :=
  a.inFlight ++ a.session.running.map Delivery.envelope ++
    a.session.deliveries.map Delivery.envelope

/-! ## What every step keeps -/

/-- The two ends agree on the consumers and on the deliveries. -/
structure Accounting (a : Account) : Prop where
  waiting : a.ledger.isOpen = true → ∀ tag, tag ∈ a.ledger.unacked ↔ a.Due tag
  refused : a.refused = []
  known : ∀ envelope : Envelope,
    (a.session.channel.consumersCallbacks.lookup envelope.consumerTag).isSome = true →
      ∃ c, a.session.consumerOf envelope = some c
  running : ∀ d ∈ a.session.running, ∃ c ∈ a.session.consumers,
    d.consumer = some c ∧ c.consumerTag = d.envelope.consumerTag
  names : (a.ledger.consumers.map Prod.fst).Nodup
  named : ∀ k ∈ a.ledger.consumers, k.1 ≠ [] ∧ 0 ∉ k.1
  agreed : ∀ c ∈ a.session.consumers, c.consumerTag ≠ [] → 0 ∉ c.consumerTag →
    (c.consumerTag, c.noAck) ∈ a.ledger.consumers
  tags : (a.envelopes.map Envelope.deliveryTag).Nodup
  used : ∀ envelope ∈ a.envelopes, envelope.deliveryTag ∈ a.ledger.used
  served : ∀ envelope ∈ a.envelopes, ∃ noAck,
    (envelope.consumerTag, noAck) ∈ a.ledger.consumers

variable {s s' : Session} {l l' : Ledger} {inFlight : List Envelope} {refused : List UInt64}

/-- What is pending is one of the deliveries. -/
theorem mem_envelopes {a : Account} {envelope : Envelope} (h : a.Pending envelope) :
    envelope ∈ a.envelopes := by
  rcases h with h | ⟨d, hd, rfl⟩ | ⟨d, hd, -, rfl⟩
  · exact List.mem_append_left _ (List.mem_append_left _ h)
  · exact List.mem_append_left _ (List.mem_append_right _ (List.mem_map_of_mem hd))
  · exact List.mem_append_right _ (List.mem_map_of_mem hd)

/-- A delivery that a callback consumed has a tag of its own. -/
theorem ne_of_consumed {a : Account} (htags : (a.envelopes.map Envelope.deliveryTag).Nodup)
    {d : Delivery} (hd : d ∈ a.session.deliveries) (hreturned : d.returned = true)
    {envelope : Envelope} (h : a.Pending envelope) :
    envelope.deliveryTag ≠ d.envelope.deliveryTag := by
  intro htag
  rw [envelopes, List.map_append, List.nodup_append] at htags
  obtain ⟨-, hover, hdisjoint⟩ := htags
  have hmem : d.envelope.deliveryTag ∈
      (a.session.deliveries.map Delivery.envelope).map Envelope.deliveryTag :=
    List.mem_map_of_mem (List.mem_map_of_mem hd)
  rcases h with h | ⟨r, hr, rfl⟩ | ⟨r, hr, hnot, rfl⟩
  · exact hdisjoint _ (List.mem_map_of_mem (List.mem_append_left _ h)) _ hmem htag
  · have hr' := List.mem_append_right a.inFlight (List.mem_map_of_mem (f := Delivery.envelope) hr)
    exact hdisjoint _ (List.mem_map_of_mem hr') _ hmem htag
  · rw [List.map_map] at hover
    have hsame : r = d := List.inj_on_of_nodup_map hover hr hd htag
    rw [hsame, hreturned] at hnot
    cases hnot

theorem Accounting.accounted {a : Account} (h : a.Accounting) : a.Accounted where
  waiting := h.waiting
  settled hopen d hd hreturned hmem := by
    obtain ⟨envelope, htag, hpending, -⟩ := (h.waiting hopen _).mp hmem
    exact ne_of_consumed h.tags hd hreturned hpending htag
  refused := h.refused

/-- Closing the channel ends the waiting. -/
theorem Accounting.close (h : Accounting ⟨s, l, inFlight, refused⟩) :
    Accounting ⟨s, l.close, inFlight, refused⟩ where
  waiting hopen := Bool.noConfusion hopen
  refused := h.refused
  known := h.known
  running := h.running
  names := h.names
  named := h.named
  agreed := h.agreed
  tags := h.tags
  used := h.used
  served := h.served

/-- A channel that keeps its callbacks changes nothing of the account. -/
theorem Accounting.channel (h : Accounting ⟨s, l, inFlight, refused⟩) {c : Channel}
    {sent : List AmqpCall} (hc : c.consumersCallbacks = s.channel.consumersCallbacks) :
    Accounting ⟨{ s with channel := c, sent := sent }, l, inFlight, refused⟩ where
  waiting := h.waiting
  refused := h.refused
  known envelope hlookup := h.known envelope (hc ▸ hlookup)
  running := h.running
  names := h.names
  named := h.named
  agreed := h.agreed
  tags := h.tags
  used := h.used
  served := h.served

/-- The broker gets a consumer under a new tag. -/
theorem Accounting.consume (h : Accounting ⟨s, l, inFlight, refused⟩) {consumerTag : Bytes}
    {noAck : Bool} (hne : consumerTag ≠ []) (hnul : 0 ∉ consumerTag)
    (hnew : consumerTag ∉ l.consumers.map Prod.fst) :
    Accounting ⟨s, { l with consumers := l.consumers ++ [(consumerTag, noAck)] }, inFlight,
      refused⟩ where
  waiting hopen tag := by
    refine (h.waiting hopen tag).trans ⟨?_, ?_⟩
    · rintro ⟨envelope, rfl, hpending, hack⟩
      exact ⟨envelope, rfl, hpending, List.mem_append_left _ hack⟩
    · rintro ⟨envelope, rfl, hpending, hack⟩
      refine ⟨envelope, rfl, hpending, (List.mem_append.mp hack).resolve_right fun hlast => ?_⟩
      -- a delivery has gone to a consumer that was there before
      obtain ⟨noAck', hserved⟩ := h.served envelope (mem_envelopes hpending)
      have hname : envelope.consumerTag = consumerTag :=
        congrArg Prod.fst (List.mem_singleton.mp hlast)
      have hmem : envelope.consumerTag ∈ l.consumers.map Prod.fst := List.mem_map_of_mem hserved
      exact hnew (hname ▸ hmem)
  refused := h.refused
  known := h.known
  running := h.running
  names := by
    rw [List.map_append]
    refine List.nodup_append.mpr ⟨h.names, List.nodup_singleton _, fun n hn n' hn' heq => ?_⟩
    obtain rfl : n' = consumerTag := List.mem_singleton.mp hn'
    exact hnew (heq ▸ hn)
  named k hk := by
    rcases List.mem_append.mp hk with hk | hk
    · exact h.named k hk
    · obtain rfl := List.mem_singleton.mp hk
      exact ⟨hne, hnul⟩
  agreed c hc hcne hcnul := List.mem_append_left _ (h.agreed c hc hcne hcnul)
  tags := h.tags
  used := h.used
  served envelope he := (h.served envelope he).imp fun _ => List.mem_append_left _

/-- The client gets a consumer that the broker has under its tag. -/
theorem Accounting.register (h : Accounting ⟨s, l, inFlight, refused⟩) {k : Consumer}
    {c : Channel} {sent : List AmqpCall}
    (hk : k.consumerTag ≠ [] → 0 ∉ k.consumerTag → (k.consumerTag, k.noAck) ∈ l.consumers)
    (hc : c.consumersCallbacks = s.channel.consumersCallbacks.insert k.consumerTag k.callback) :
    Accounting ⟨{ s with channel := c, sent := sent, consumers := s.consumers ++ [k] }, l, inFlight,
      refused⟩ where
  waiting := h.waiting
  refused := h.refused
  known envelope hlookup := by
    change ∃ found, { s with consumers := s.consumers ++ [k] }.consumerOf envelope = some found
    rw [Session.consumerOf_append]
    dsimp only at hlookup
    rw [hc] at hlookup
    by_cases htag : k.consumerTag = envelope.consumerTag
    · rw [if_pos htag]
      cases s.consumerOf envelope with
      | none => exact ⟨k, rfl⟩
      | some found => exact ⟨found, rfl⟩
    · rw [Finmap.lookup_insert_of_ne _ (Ne.symm htag)] at hlookup
      obtain ⟨found, hfound⟩ := h.known envelope hlookup
      exact ⟨found, by rw [hfound, Option.some_or]⟩
  running d hd := by
    obtain ⟨found, hfound, hd⟩ := h.running d hd
    exact ⟨found, List.mem_append_left _ hfound, hd⟩
  names := h.names
  named := h.named
  agreed found hfound hne hnul := by
    rcases List.mem_append.mp hfound with hfound | hfound
    · exact h.agreed found hfound hne hnul
    · obtain rfl := List.mem_singleton.mp hfound
      exact hk hne hnul
  tags := h.tags
  used := h.used
  served := h.served

/-- A delivery under a new tag. -/
theorem Accounting.deliver (h : Accounting ⟨s, l, inFlight, refused⟩) {envelope : Envelope}
    {noAck : Bool} (hk : (envelope.consumerTag, noAck) ∈ l.consumers)
    (hnew : envelope.deliveryTag ∉ l.used) :
    Accounting ⟨s, l.deliver envelope.deliveryTag noAck, inFlight ++ [envelope], refused⟩ := by
  have hflag : (envelope.consumerTag, false) ∈ l.consumers ↔ noAck = false := by
    refine ⟨fun hfalse => ?_, fun hfalse => hfalse ▸ hk⟩
    exact (congrArg Prod.snd (List.inj_on_of_nodup_map h.names hfalse hk rfl)).symm
  have hpending (e : Envelope) : Pending ⟨s, l.deliver envelope.deliveryTag noAck,
      inFlight ++ [envelope], refused⟩ e ↔ Pending ⟨s, l, inFlight, refused⟩ e ∨ e = envelope := by
    simp only [Pending, List.mem_append, List.mem_singleton]
    exact or_right_comm
  have hunacked (tag : UInt64) : tag ∈ (l.deliver envelope.deliveryTag noAck).unacked ↔
      tag ∈ l.unacked ∨ noAck = false ∧ tag = envelope.deliveryTag := by
    cases noAck <;> simp [Ledger.deliver]
  have hperm : (envelopes ⟨s, l.deliver envelope.deliveryTag noAck, inFlight ++ [envelope],
      refused⟩).Perm (envelope :: envelopes ⟨s, l, inFlight, refused⟩) := by
    simp only [envelopes, List.append_assoc, List.singleton_append]
    exact List.perm_middle
  refine ⟨fun hopen tag => ?_, h.refused, h.known, h.running, h.names, h.named, h.agreed, ?_,
    fun e he => ?_, fun e he => ?_⟩
  · rw [hunacked, h.waiting hopen tag]
    constructor
    · rintro (⟨e, rfl, he, hack⟩ | ⟨hack, rfl⟩)
      · exact ⟨e, rfl, (hpending e).mpr (.inl he), hack⟩
      · exact ⟨envelope, rfl, (hpending _).mpr (.inr rfl), hflag.mpr hack⟩
    · rintro ⟨e, rfl, he, hack⟩
      rcases (hpending e).mp he with he | rfl
      · exact .inl ⟨e, rfl, he, hack⟩
      · exact .inr ⟨hflag.mp hack, rfl⟩
  · rw [(hperm.map Envelope.deliveryTag).nodup_iff, List.map_cons, List.nodup_cons]
    refine ⟨fun hmem => ?_, h.tags⟩
    obtain ⟨e, he, htag⟩ := List.mem_map.mp hmem
    exact hnew (htag ▸ h.used e he)
  · rcases List.mem_cons.mp (hperm.subset he) with rfl | he
    · exact List.mem_append_right _ (List.mem_singleton_self _)
    · exact List.mem_append_left _ (h.used e he)
  · rcases List.mem_cons.mp (hperm.subset he) with rfl | he
    · exact ⟨noAck, hk⟩
    · exact h.served e he

/-- The deliveries are somewhere else, and as many are pending. -/
theorem Accounting.move (h : Accounting ⟨s, l, inFlight, refused⟩) {inFlight' : List Envelope}
    (hcallbacks : s'.channel.consumersCallbacks = s.channel.consumersCallbacks)
    (hconsumers : s'.consumers = s.consumers)
    (hrunning : ∀ d ∈ s'.running, ∃ c ∈ s'.consumers,
      d.consumer = some c ∧ c.consumerTag = d.envelope.consumerTag)
    (hpending : ∀ e, Pending ⟨s', l, inFlight', refused⟩ e ↔ Pending ⟨s, l, inFlight, refused⟩ e)
    (hperm : (envelopes ⟨s', l, inFlight', refused⟩).Perm
      (envelopes ⟨s, l, inFlight, refused⟩)) : Accounting ⟨s', l, inFlight', refused⟩ where
  waiting hopen tag := by
    refine (h.waiting hopen tag).trans (exists_congr fun e => ?_)
    rw [hpending]
  refused := h.refused
  known envelope hlookup := by
    have hknown := h.known envelope (hcallbacks ▸ hlookup)
    rw [Session.consumerOf] at hknown ⊢
    dsimp only at hknown ⊢
    rwa [hconsumers]
  running := hrunning
  names := h.names
  named := h.named
  agreed c hc := h.agreed c (hconsumers ▸ hc)
  tags := (hperm.map Envelope.deliveryTag).nodup_iff.mpr h.tags
  used e he := h.used e (hperm.subset he)
  served e he := h.served e (hperm.subset he)

/-- **A delivery arrives**: it is handed to a callback, or dropped without one. -/
theorem Accounting.receive {envelope : Envelope}
    (h : Accounting ⟨s, l, envelope :: inFlight, refused⟩)
    (hmove : Session.Move s (.receive envelope) s') : Accounting ⟨s', l, inFlight, refused⟩ := by
  cases hmove with
  | @hand _ callback hv hlookup =>
    refine h.move rfl rfl (fun d hd => ?_) (fun e => ?_) ?_
    · rcases List.mem_cons.mp hd with rfl | hd
      · obtain ⟨c, hc⟩ := h.known envelope (by rw [hlookup]; rfl)
        have htag := List.find?_some hc
        refine ⟨c, List.mem_of_find?_eq_some hc, ?_, of_decide_eq_true htag⟩
        simp only [Session.arrival, if_pos hv]
        exact hc
      · exact h.running d hd
    · simp only [Pending, List.mem_cons, exists_eq_or_imp, Session.arrival]
      grind
    · simp only [envelopes, List.map_cons, Session.arrival, List.append_assoc, List.cons_append]
      exact List.perm_middle
  | drop hdrop =>
    refine h.move rfl rfl h.running (fun e => ?_) ?_
    · simp only [Pending, Session.drop, Session.arrival, List.mem_append, List.mem_cons,
        List.not_mem_nil, or_false, or_and_right, exists_or, exists_eq_left]
      grind
    · simp only [envelopes, Session.drop, Session.arrival, List.map_append, List.map_cons,
        List.map_nil, List.append_assoc, List.cons_append]
      refine List.perm_iff_count.mpr fun e' => ?_
      simp only [List.count_append, List.count_cons, List.count_nil]
      omega

/-- A session after the return of its innermost callback. -/
def afterReturn (s : Session) (d : Delivery) (running : List Delivery) (consumed : Bool) :
    Session :=
  let acks := if consumed then [.basicAck d.envelope.deliveryTag false] else []
  { s with
    running := running
    sent := s.sent ++ acks
    deliveries := s.deliveries ++ [{ d with returned := consumed, acks := acks }] }

variable {d : Delivery} {running : List Delivery}

theorem envelopes_afterReturn (hrunning : s.running = d :: running) (consumed : Bool) :
    (envelopes ⟨afterReturn s d running consumed, l', inFlight, refused⟩).Perm
      (envelopes ⟨s, l, inFlight, refused⟩) := by
  refine List.perm_iff_count.mpr fun e => ?_
  simp only [envelopes, afterReturn, hrunning, List.map_append, List.map_cons, List.map_nil,
    List.count_append, List.count_cons, List.count_nil]
  omega

theorem mem_running_of_tail (hrunning : s.running = d :: running) {r : Delivery}
    (hr : r ∈ running) : r ∈ s.running :=
  hrunning ▸ List.mem_cons_of_mem d hr

/-- A callback returns false, and its delivery stays pending. -/
theorem Accounting.keep (h : Accounting ⟨s, l, inFlight, refused⟩)
    (hrunning : s.running = d :: running) :
    Accounting ⟨afterReturn s d running false, l, inFlight, refused⟩ := by
  refine h.move rfl rfl (fun r hr => h.running r (mem_running_of_tail hrunning hr)) (fun e => ?_)
    (envelopes_afterReturn hrunning false)
  simp only [Pending, afterReturn, hrunning, List.mem_append, List.mem_cons, List.not_mem_nil,
    or_false, or_and_right, exists_or, exists_eq_left]
  grind

/-- The consumer of a running delivery was registered as the broker has it. -/
theorem Accounting.consumer (h : Accounting ⟨s, l, inFlight, refused⟩) (hd : d ∈ s.running) :
    ∃ c ∈ d.consumer, (d.envelope.consumerTag, c.noAck) ∈ l.consumers := by
  obtain ⟨c, hc, hconsumer, htag⟩ := h.running d hd
  obtain ⟨noAck, hserved⟩ := h.served d.envelope
    (mem_envelopes (a := ⟨s, l, inFlight, refused⟩) (.inr (.inl ⟨d, hd, rfl⟩)))
  obtain ⟨hne, hnul⟩ := h.named _ hserved
  rw [← htag] at hne hnul
  exact ⟨c, hconsumer, htag ▸ h.agreed c hc hne hnul⟩

/-- The delivery of an open channel that is running waits iff its consumer has no `no_ack`. -/
theorem Accounting.waits (h : Accounting ⟨s, l, inFlight, refused⟩) (hopen : l.isOpen = true)
    (hd : d ∈ s.running) :
    ∃ c ∈ d.consumer, (d.envelope.deliveryTag ∈ l.unacked ↔ c.noAck = false) := by
  obtain ⟨c, hconsumer, hagreed⟩ := h.consumer hd
  have hpending : Pending ⟨s, l, inFlight, refused⟩ d.envelope := .inr (.inl ⟨d, hd, rfl⟩)
  refine ⟨c, hconsumer, (h.waiting hopen _).trans ⟨?_, fun hack => ?_⟩⟩
  · rintro ⟨e, htag, he, hack⟩
    obtain rfl := List.inj_on_of_nodup_map h.tags (mem_envelopes he) (mem_envelopes hpending) htag
    exact (congrArg Prod.snd (List.inj_on_of_nodup_map h.names hack hagreed rfl)).symm
  · exact ⟨d.envelope, rfl, hpending, hack ▸ hagreed⟩

/-- **A callback consumes its delivery**: on an open channel the delivery waits no longer, and the
others do as before. -/
theorem Accounting.settle (h : Accounting ⟨s, l, inFlight, refused⟩)
    (hrunning : s.running = d :: running)
    (hwaits : l.isOpen = true → d.envelope.deliveryTag ∈ l.unacked) :
    Accounting
      ⟨afterReturn s d running true, l.ack d.envelope.deliveryTag, inFlight, refused⟩ := by
  have hd : d ∈ s.running := hrunning ▸ List.mem_cons_self
  have hack : l.ack d.envelope.deliveryTag =
      { l with unacked :=
        if l.isOpen then l.unacked.filter (· != d.envelope.deliveryTag) else l.unacked } := by
    unfold Ledger.ack
    split
    · rename_i hopen
      rw [if_pos (List.contains_iff_mem.mpr (hwaits hopen))]
    · rfl
  rw [hack]
  generalize hl' : { l with unacked := _ } = l'
  have hperm : (envelopes ⟨afterReturn s d running true, l', inFlight, refused⟩).Perm
      (envelopes ⟨s, l, inFlight, refused⟩) := envelopes_afterReturn hrunning true
  have htags := (hperm.map Envelope.deliveryTag).nodup_iff.mpr h.tags
  have hpending (e : Envelope) : Pending ⟨s, l, inFlight, refused⟩ e ↔
      e = d.envelope ∨ Pending ⟨afterReturn s d running true, l', inFlight, refused⟩ e := by
    simp only [Pending, afterReturn, hrunning, List.mem_append, List.mem_cons, List.not_mem_nil,
      or_false, or_and_right, exists_or, exists_eq_left]
    grind
  subst hl'
  refine ⟨fun hopen tag => ?_, h.refused, h.known,
    fun r hr => h.running r (mem_running_of_tail hrunning hr), h.names, h.named, h.agreed, htags,
    fun e he => h.used e (hperm.subset he), fun e he => h.served e (hperm.subset he)⟩
  dsimp only at hopen ⊢
  rw [if_pos hopen, List.mem_filter, bne_iff_ne, h.waiting hopen tag]
  constructor
  · rintro ⟨⟨e, rfl, he, hdue⟩, hne⟩
    refine ⟨e, rfl, ((hpending e).mp he).resolve_left fun heq => hne ?_, hdue⟩
    rw [heq]
  · rintro ⟨e, rfl, he, hdue⟩
    refine ⟨⟨e, rfl, (hpending e).mpr (.inr he), hdue⟩, ?_⟩
    exact ne_of_consumed htags (List.mem_append_right _ (List.mem_singleton_self _)) rfl he

end Account

/-! ## Any steps -/

namespace Exchanged

open Account

variable {β : Type} {broker : Broker β} {w w' : Exchanged β}

/-- The account of a state. -/
def account (broker : Broker β) (w : Exchanged β) : Account :=
  ⟨w.session, broker.ledger w.broker, w.inFlight, w.refused⟩

/-- The condition on a step: on a channel that is open at the broker, the consumer of a delivery
whose callback returns true was not registered with `no_ack`. -/
def AckWanted (broker : Broker β) (w : Exchanged β) : Event → Prop
  | .finish true =>
    (broker.ledger w.broker).isOpen = true → w.session.AckWanted (.finish true)
  | _ => True

theorem accounting_opened (id : UInt16) : ((opened broker id).account broker).Accounting := by
  have hledger : broker.ledger broker.opened = {} := broker.ledger_opened
  refine ⟨fun _ tag => ?_, rfl, fun envelope h => ?_, ?_, ?_, ?_, ?_, .nil, ?_, ?_⟩
  · simp [account, opened, hledger, Due]
  · simp [account, opened, Session.opened] at h
  · simp [account, opened, Session.opened]
  · simp [account, opened, hledger]
  · simp [account, opened, hledger]
  · simp [account, opened, Session.opened]
  · simp [account, opened, Session.opened, envelopes]
  · simp [account, opened, Session.opened, envelopes]

theorem onSession_eq {e : Session.Event} (h : onSession broker w e = some w') :
    ∃ s', w.session.step e = some s' ∧
      w' = (s'.sent.drop w.session.sent.length).foldl (hear broker) { w with session := s' } := by
  obtain ⟨s', hs', rfl⟩ := Option.map_eq_some_iff.mp h
  exact ⟨s', hs', rfl⟩

/-- Calls without an acknowledgement keep the account. -/
theorem accounting_hears {calls : List AmqpCall} (hack : calls.filter AmqpCall.isAck = [])
    (h : (w.account broker).Accounting) :
    ((calls.foldl (hear broker) w).account broker).Accounting := by
  induction calls generalizing w with
  | nil => exact h
  | cons call calls ih =>
    have hcall : call.isAck = false := by
      by_contra hcall
      rw [List.filter_cons_of_pos (Bool.eq_true_of_not_eq_false hcall)] at hack
      exact absurd hack (List.cons_ne_nil _ _)
    rw [List.filter_cons_of_neg (by simp [hcall])] at hack
    rw [List.foldl_cons]
    refine ih hack ?_
    cases call with
    | channelClose =>
      rw [account, hear, broker.ledger_close]
      exact Accounting.close h
    | basicAck => cases hcall
    | _ => exact h

/-- An operation keeps the account, where a consumer that it registers is known to the broker. -/
theorem accounting_perform {op : Operation} {reply : RpcReply} (h : (w.account broker).Accounting)
    (hknown : ∀ k ∈ op.registers reply w.session.channel, k.consumerTag ≠ [] → 0 ∉ k.consumerTag →
      (k.consumerTag, k.noAck) ∈ (broker.ledger w.broker).consumers)
    (hw : onSession broker w (.perform op reply) = some w') : (w'.account broker).Accounting := by
  obtain ⟨s', hs', rfl⟩ := onSession_eq hw
  obtain rfl := Option.some.inj hs'
  rw [List.drop_left]
  refine accounting_hears (perform_isAck w.session.channel reply op) ?_
  rcases perform_registers w.session.channel reply op with
    ⟨hnone, hsame⟩ | ⟨k, hsome, -, hinsert⟩
  · rw [account, hnone, Option.toList_none, List.append_nil]
    exact Accounting.channel h hsame
  · rw [account, hsome, Option.toList_some]
    exact Accounting.register h (hknown k hsome) hinsert

/-- **The return of a callback**, which meets the condition. -/
theorem accounting_finish {consumed : Bool} (h : (w.account broker).Accounting)
    (hw : onSession broker w (.finish consumed) = some w')
    (hok : w.AckWanted broker (.finish consumed)) : (w'.account broker).Accounting := by
  obtain ⟨s', hs', rfl⟩ := onSession_eq hw
  cases Session.step_move hs' with
  | @finish d running _ hrunning =>
    have hd : d ∈ w.session.running := hrunning ▸ List.mem_cons_self
    rw [List.drop_left]
    cases consumed with
    | false => exact Accounting.keep h hrunning
    | true =>
      have hwaits (hopen : (broker.ledger w.broker).isOpen = true) :
          d.envelope.deliveryTag ∈ (broker.ledger w.broker).unacked := by
        obtain ⟨c, hc, hiff⟩ := Accounting.waits h hopen hd
        exact hiff.mpr (hok hopen d (by rw [hrunning]; rfl) c hc)
      have hrefused : (if (broker.ledger w.broker).isOpen &&
          !(broker.ledger w.broker).unacked.contains d.envelope.deliveryTag then
            [d.envelope.deliveryTag] else []) = [] := by
        refine if_neg fun hrefuse => ?_
        rw [Bool.and_eq_true, Bool.not_eq_true'] at hrefuse
        have hcontains := List.contains_iff_mem.mpr (hwaits hrefuse.1)
        rw [hrefuse.2] at hcontains
        cases hcontains
      have hsettled := Accounting.settle h hrunning hwaits
      rw [if_pos rfl, List.foldl_cons, List.foldl_nil, hear, account]
      dsimp only
      rw [broker.ledger_ack, hrefused, List.append_nil]
      exact hsettled

/-- **Every step** that meets the condition keeps the account. -/
theorem accounting_step {e : Event} (h : (w.account broker).Accounting)
    (hw : step broker w e = some w') (hok : w.AckWanted broker e) :
    (w'.account broker).Accounting := by
  cases e with
  | deliver envelope =>
    obtain ⟨b, hb, rfl⟩ := Option.map_eq_some_iff.mp hw
    obtain ⟨hnew, noAck, hk, hledger⟩ := broker.ledger_deliver _ _ _ hb
    rw [account, hledger]
    exact Accounting.deliver h hk hnew
  | receive =>
    simp only [step] at hw
    split at hw
    · cases hw
    · rename_i envelope inFlight hflight
      obtain ⟨s', hs', rfl⟩ := onSession_eq hw
      have hmove := Session.step_move hs'
      have hsent : s'.sent = w.session.sent := by
        cases hmove <;> rfl
      rw [hsent, List.drop_length]
      rw [account, hflight] at h
      exact Accounting.receive h hmove
  | finish consumed => exact accounting_finish h hw hok
  | perform op reply chosen =>
    simp only [step] at hw
    split at hw
    · rename_i hnone
      refine accounting_perform h (fun k hk => ?_) hw
      rw [hnone] at hk
      cases hk
    · rename_i k hsome
      obtain ⟨b, hb, hw⟩ := Option.bind_eq_some_iff.mp hw
      obtain ⟨hne, hnul, hnew, hledger⟩ := broker.ledger_consume _ _ _ _ hb
      have hconsumed : (account broker { w with broker := b }).Accounting := by
        rw [account, hledger]
        exact Accounting.consume h hne hnul hnew
      refine accounting_perform hconsumed (fun k' hk' hne' hnul' => ?_) hw
      obtain rfl := Option.some.inj (hsome.symm.trans hk')
      dsimp only
      rw [hledger]
      refine List.mem_append_right _ (List.mem_singleton.mpr ?_)
      rw [tagOf, cStr_of_not_mem hnul', if_neg hne']
  | registered consumerTag noAck =>
    obtain ⟨b, hb, rfl⟩ := Option.map_eq_some_iff.mp hw
    obtain ⟨hne, hnul, hnew, hledger⟩ := broker.ledger_consume _ _ _ _ hb
    rw [account, hledger]
    exact Accounting.consume h hne hnul hnew
  | close =>
    obtain ⟨s', hs', rfl⟩ := onSession_eq hw
    obtain rfl := Option.some.inj hs'
    rw [List.drop_left]
    exact accounting_hears (close_isAck w.session.channel)
      (Accounting.channel h (close_callbacks w.session.channel))
  | invalidate =>
    obtain ⟨s', hs', rfl⟩ := onSession_eq hw
    obtain rfl := Option.some.inj hs'
    rw [List.drop_length]
    exact Accounting.channel h rfl
  | brokerClose =>
    obtain rfl := Option.some.inj hw
    rw [account, broker.ledger_close]
    exact Accounting.close h

/-- A step that does not meet the condition is refused. -/
theorem not_accounted {e : Event} (h : (w.account broker).Accounting)
    (hw : step broker w e = some w') (hbad : ¬w.AckWanted broker e) :
    ¬(w'.account broker).Accounted := by
  intro hw'
  cases e with
  | finish consumed =>
    cases consumed with
    | false => exact hbad trivial
    | true =>
      obtain ⟨s', hs', rfl⟩ := onSession_eq hw
      cases Session.step_move hs' with
      | @finish d running _ hrunning =>
        have hd : d ∈ w.session.running := hrunning ▸ List.mem_cons_self
        obtain ⟨hopen, hunwanted⟩ := Classical.not_imp.mp hbad
        obtain ⟨c, hc, hiff⟩ := Accounting.waits h hopen hd
        have hnot : d.envelope.deliveryTag ∉ (broker.ledger w.broker).unacked := fun hmem =>
          hunwanted fun d' hd' c' hc' => by
            rw [hrunning] at hd'
            obtain rfl := Option.some.inj hd'
            obtain rfl := Option.some.inj (hc.symm.trans hc')
            exact hiff.mp hmem
        have hrefused := hw'.refused
        rw [List.drop_left, if_pos rfl, List.foldl_cons, List.foldl_nil] at hrefused
        simp [account, hear, hopen, hnot] at hrefused
  | _ => exact hbad trivial

/-- **Every delivery is accounted for**, in every state of a run, iff no callback of a consumer
registered with `no_ack` returns true on a channel that is open at the broker. -/
theorem accounted_iff (broker : Broker β) (id : UInt16) (es : List Event) :
    Everywhere (step broker) (fun w => (w.account broker).Accounted) (opened broker id) es ↔
      Always (step broker) (AckWanted broker) (opened broker id) es :=
  @everywhere_iff_always _ _ (step broker) _ (fun w => (w.account broker).Accounting) _
    (fun _ h => h.accounted) (fun _ _ _ => accounting_step) (fun _ _ _ => not_accounted) _ _
    (accounting_opened id)

/-- The broker that is its own ledger, and delivers and registers whenever it may. -/
def ledgerBroker : Broker Ledger where
  opened := {}
  ledger l := l
  consume l consumerTag noAck :=
    if consumerTag = [] ∨ consumerTag.contains 0 ∨
        (l.consumers.map Prod.fst).contains consumerTag then none
    else some { l with consumers := l.consumers ++ [(consumerTag, noAck)] }
  deliver l envelope :=
    if l.used.contains envelope.deliveryTag then none
    else (l.consumers.find? fun k => k.1 = envelope.consumerTag).map fun k =>
      l.deliver envelope.deliveryTag k.2
  ack := Ledger.ack
  close := Ledger.close
  ledger_opened := rfl
  ledger_consume l consumerTag noAck l' h := by
    split at h
    · cases h
    · rename_i hfree
      obtain rfl := Option.some.inj h
      rw [not_or, not_or, List.contains_iff_mem, List.contains_iff_mem] at hfree
      exact ⟨hfree.1, hfree.2.1, hfree.2.2, rfl⟩
  ledger_deliver l envelope l' h := by
    split at h
    · cases h
    · rename_i hnew
      obtain ⟨k, hk, rfl⟩ := Option.map_eq_some_iff.mp h
      have hfound := List.find?_some hk
      have hname : k.1 = envelope.consumerTag := of_decide_eq_true hfound
      rw [List.contains_iff_mem] at hnew
      exact ⟨hnew, k.2, hname ▸ List.mem_of_find?_eq_some hk, rfl⟩
  ledger_ack _ _ := rfl
  ledger_close _ := rfl

/-- A consumer that was registered with `no_ack` consumes a delivery. -/
theorem accounted_iff_noAck :
    ¬Everywhere (step ledgerBroker) (fun w => (w.account ledgerBroker).Accounted)
      (opened ledgerBroker 1)
      [.perform (.basicConsume (ascii "jobs") (ascii "worker") (some fun _ => true) false true
          false) .normal [],
        .deliver ⟨ascii "worker", 1, [], false, ascii "jobs", []⟩, .receive, .finish true] := by
  rw [accounted_iff]
  intro h
  have hwanted := ((((h _ rfl).2 _ rfl).2 _ rfl).2 _ rfl).1
  exact absurd (hwanted rfl _ rfl _ rfl) (by decide)

end Exchanged

end WinterWind.Amqp
