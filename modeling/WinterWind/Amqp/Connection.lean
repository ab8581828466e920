import WinterWind.Amqp.Channel
import WinterWind.Library.Runs

/-!
# AMQP connections (`src/core/amqp/connection.cpp`)

A `Connection` with the channels created on it. A `std::shared_ptr<Channel>` is an index into
`objects`, which lists the channels in the order of their creation; `m_channels` maps an id to such
a reference. A channel that its users still hold stays in `objects` when it is destroyed.

* `amqp_channel_t` is `UInt16`, so `++m_next_channel_id` wraps.
* `get_channel_max` is the value negotiated at login, constant here.
* A channel open that is answered by an error throws, after the counter was incremented.
* `consume_one` is given the answers of `amqp_consume_message` and `amqp_simple_wait_frame`. What
  a user callback calls during a delivery is not part of it: it changes nothing itself, so these
  calls are steps of their own in a run.

`step` is the system of the connection, its channels and its user: `live` records the channels
created and not yet destroyed, and `closed` those the broker closed, by its answer to an operation
or by a `channel.close` frame.

Results:
* `step_move`: the kinds of steps.
* `step_ids`: what a step does to the ids, the entries and the live channels.
* **`idsSound_iff`**: the ids of the live channels are sound in every state of a run iff every
  created channel got a fresh id in range and no channel was destroyed whose id a live one has.
-/

namespace WinterWind.Amqp

open Library

/-- `Connection`, and the channels on the heap. -/
structure Connection where
  channelMax : UInt16
  nextChannelId : UInt16 := 0
  channels : UnorderedMap UInt16 Nat := ∅
  objects : List Channel := []

/-- `amqp::exception`. -/
structure AmqpException where
  what : Bytes
  deriving Repr, DecidableEq

namespace Connection

/-- `Connection::create_channel`: the null pointer is `none`. -/
def createChannel (conn : Connection) (openReply : RpcReply) :
    Except AmqpException (Option Nat) × Connection :=
  if conn.channels.keys.card = conn.channelMax.toNat then (.ok none, conn)
  else
    let id := conn.nextChannelId + 1
    match openReply with
    | .normal =>
      (.ok (some conn.objects.length), { conn with
        nextChannelId := id
        channels := conn.channels.insert id conn.objects.length
        objects := conn.objects ++ [{ id := id }] })
    | _ => (.error ⟨ascii "Unable to open AMQP channel"⟩, { conn with nextChannelId := id })

/-- `Connection::destroy_channel`: the entry under the channel's id goes, whatever it is. -/
def destroyChannel (conn : Connection) (ref : Nat) : Connection :=
  match conn.objects[ref]? with
  | some channel =>
    { conn with
      channels := conn.channels.erase channel.id
      objects := conn.objects.set ref channel.close.channel }
  | none => conn

/-- `Connection::find_channel`. -/
def findChannel (conn : Connection) (channelId : UInt16) : Option Nat :=
  conn.channels.lookup channelId

end Connection

/-! ## Consuming -/

/-- The answer of `amqp_consume_message`. -/
inductive ConsumeReply where
  | envelope (channel : UInt16) (envelope : Envelope)
  | libraryException (unexpectedState : Bool)
  | serverException
  deriving Repr, DecidableEq

/-- The methods `consume_one` tells apart. `basicReturn` holds whether the message was read. -/
inductive Method where
  | basicAck
  | basicReturn (messageRead : Bool)
  | channelClose
  | connectionClose
  | other (id : UInt32)
  deriving Repr, DecidableEq

/-- A frame from `amqp_simple_wait_frame`. -/
inductive Frame where
  | method (channel : UInt16) (method : Method)
  | other
  deriving Repr, DecidableEq

/-- `Connection::distribute_envelope`. -/
def distributeEnvelope (conn : Connection) (envelope : Envelope) (channelId : UInt16) :
    Bool × List AmqpCall :=
  match (conn.findChannel channelId).bind (conn.objects[·]?) with
  | some channel =>
    let outcome := channel.onEnvelopeReceived envelope
    (outcome.returned, outcome.sent)
  | none => (false, [])

/-- `Connection::consume_one`, with the frame it waits for (`none` when that fails): the returned
value and what was sent. No channel changes. -/
def consumeOne (conn : Connection) (reply : ConsumeReply) (frame : Option Frame) :
    Bool × List AmqpCall :=
  match reply with
  | .envelope channel envelope => (true, (distributeEnvelope conn envelope channel).2)
  | .serverException => (true, [])
  | .libraryException false => (true, [])
  | .libraryException true =>
    match frame with
    | none => (false, [])
    | some .other => (true, [])
    | some (.method channel method) =>
      match method with
      | .basicAck => (true, [])
      | .basicReturn messageRead => (messageRead && (conn.findChannel channel).isSome, [])
      | .channelClose => (false, [])
      | .connectionClose => (false, [])
      | .other _ => (false, [])

/-! ## The system -/

/-- The connection, the channels created and not destroyed, and those the broker closed. -/
structure System where
  conn : Connection
  live : List Nat := []
  closed : List Nat := []

/-- What the user of a connection does, with the answers the library gives. -/
inductive Event where
  | create (openReply : RpcReply)
  | destroy (ref : Nat)
  | perform (ref : Nat) (op : Operation) (reply : RpcReply)
  | consume (reply : ConsumeReply) (frame : Option Frame)

/-- The channel a consumed frame closes. -/
def closedByFrame (conn : Connection) : ConsumeReply → Option Frame → Option Nat
  | .libraryException true, some (.method channel .channelClose) => conn.findChannel channel
  | _, _ => none

/-- One step. A reference must be that of a created channel. -/
def step (s : System) : Event → Option System
  | .create openReply =>
    match s.conn.createChannel openReply with
    | (.ok (some ref), conn) => some { s with conn := conn, live := s.live ++ [ref] }
    | (_, conn) => some { s with conn := conn }
  | .destroy ref =>
    if ref < s.conn.objects.length then
      some { s with conn := s.conn.destroyChannel ref, live := s.live.filter (· ≠ ref) }
    else none
  | .perform ref op reply =>
    match s.conn.objects[ref]? with
    | some channel =>
      let effect := op.perform reply channel
      some { s with
        conn := { s.conn with objects := s.conn.objects.set ref effect.1 }
        closed := if !effect.2.isEmpty && op.closedBy reply then s.closed ++ [ref] else s.closed }
    | none => none
  | .consume reply frame =>
    some { s with closed := s.closed ++ (closedByFrame s.conn reply frame).toList }

/-- A fresh connection. -/
def fresh (channelMax : UInt16) : System := { conn := { channelMax := channelMax } }

/-- **The kinds of steps.** -/
inductive Move (s : System) : Event → System → Prop
  /-- The guard refuses, or the open fails. -/
  | refuse {openReply : RpcReply} (next : UInt16)
      (h : s.conn.channels.keys.card = s.conn.channelMax.toNat ∨ openReply ≠ .normal) :
      Move s (.create openReply) { s with conn := { s.conn with nextChannelId := next } }
  | create (h : s.conn.channels.keys.card ≠ s.conn.channelMax.toNat) :
      Move s (.create .normal) { s with
        conn := { s.conn with
          nextChannelId := s.conn.nextChannelId + 1
          channels := s.conn.channels.insert (s.conn.nextChannelId + 1) s.conn.objects.length
          objects := s.conn.objects ++ [{ id := s.conn.nextChannelId + 1 }] }
        live := s.live ++ [s.conn.objects.length] }
  | destroy {ref : Nat} {c : Channel} (hget : s.conn.objects[ref]? = some c) :
      Move s (.destroy ref) { s with
        conn := { s.conn with
          channels := s.conn.channels.erase c.id
          objects := s.conn.objects.set ref c.close.channel }
        live := s.live.filter (· ≠ ref) }
  | perform {ref : Nat} {c : Channel} (op : Operation) (reply : RpcReply)
      (hget : s.conn.objects[ref]? = some c) :
      Move s (.perform ref op reply) { s with
        conn := { s.conn with objects := s.conn.objects.set ref (op.perform reply c).1 }
        closed := if !(op.perform reply c).2.isEmpty && op.closedBy reply then s.closed ++ [ref]
          else s.closed }
  | consume (reply : ConsumeReply) (frame : Option Frame) :
      Move s (.consume reply frame)
        { s with closed := s.closed ++ (closedByFrame s.conn reply frame).toList }

/-- **What `create_channel` can do**: refuse, since there are as many channels as the maximum; or
create a channel; or fail to open it. -/
theorem Connection.createChannel_cases (conn : Connection) (openReply : RpcReply) :
    (conn.channels.keys.card = conn.channelMax.toNat ∧
        conn.createChannel openReply = (.ok none, conn)) ∨
      (conn.channels.keys.card ≠ conn.channelMax.toNat ∧ openReply = .normal ∧
        conn.createChannel openReply = (.ok (some conn.objects.length), { conn with
          nextChannelId := conn.nextChannelId + 1
          channels := conn.channels.insert (conn.nextChannelId + 1) conn.objects.length
          objects := conn.objects ++ [{ id := conn.nextChannelId + 1 }] })) ∨
      (conn.channels.keys.card ≠ conn.channelMax.toNat ∧ openReply ≠ .normal ∧
        ∃ ex, conn.createChannel openReply =
          (.error ex, { conn with nextChannelId := conn.nextChannelId + 1 })) := by
  unfold Connection.createChannel
  by_cases hmax : conn.channels.keys.card = conn.channelMax.toNat
  · exact Or.inl ⟨hmax, if_pos hmax⟩
  · rw [if_neg hmax]
    cases openReply with
    | normal => exact Or.inr (Or.inl ⟨hmax, rfl, rfl⟩)
    | libraryException | serverException =>
      exact Or.inr (Or.inr ⟨hmax, by simp, _, rfl⟩)

theorem Connection.destroyChannel_eq {conn : Connection} {ref : Nat} {c : Channel}
    (hget : conn.objects[ref]? = some c) : conn.destroyChannel ref =
      { conn with
        channels := conn.channels.erase c.id
        objects := conn.objects.set ref c.close.channel } := by
  rw [Connection.destroyChannel, hget]

theorem step_move {s s' : System} {e : Event} (h : step s e = some s') : Move s e s' := by
  cases e with
  | create openReply =>
    rcases s.conn.createChannel_cases openReply with
      ⟨hmax, hcreate⟩ | ⟨hmax, rfl, hcreate⟩ | ⟨hmax, hreply, ex, hcreate⟩
    · simp only [step, hcreate] at h
      obtain rfl := Option.some.inj h
      exact .refuse s.conn.nextChannelId (Or.inl hmax)
    · simp only [step, hcreate] at h
      obtain rfl := Option.some.inj h
      exact .create hmax
    · simp only [step, hcreate] at h
      obtain rfl := Option.some.inj h
      exact .refuse (s.conn.nextChannelId + 1) (Or.inr hreply)
  | destroy ref =>
    simp only [step] at h
    split at h
    · rename_i hlt
      obtain rfl := Option.some.inj h
      have hget := List.getElem?_eq_getElem hlt
      rw [Connection.destroyChannel_eq hget]
      exact .destroy hget
    · simp at h
  | perform ref op reply =>
    simp only [step] at h
    split at h
    · rename_i c hget
      obtain rfl := Option.some.inj h
      exact .perform op reply hget
    · simp at h
  | consume reply frame =>
    obtain rfl := Option.some.inj h
    exact .consume reply frame

/-! ## Channel ids -/

/-- The id of a channel. -/
def Connection.idOf (conn : Connection) (ref : Nat) : Option UInt16 :=
  conn.objects[ref]?.map Channel.id

/-- Every live channel is stored under its own id, which is between 1 and the negotiated maximum,
and no two of them have the same. -/
structure IdsSound (s : System) : Prop where
  stored : ∀ ref ∈ s.live, ∃ id, s.conn.idOf ref = some id ∧ s.conn.findChannel id = some ref ∧
    1 ≤ id.toNat ∧ id.toNat ≤ s.conn.channelMax.toNat
  distinct : ∀ ref ∈ s.live, ∀ ref' ∈ s.live, s.conn.idOf ref = s.conn.idOf ref' → ref = ref'

/-- The condition on a step: a channel that is created gets an id in range which no live channel
has, and no live channel but the destroyed one has its id. -/
def IdOk (s : System) : Event → Prop
  | .create openReply =>
    s.conn.channels.keys.card = s.conn.channelMax.toNat ∨ openReply ≠ .normal ∨
      (1 ≤ (s.conn.nextChannelId + 1).toNat ∧
        (s.conn.nextChannelId + 1).toNat ≤ s.conn.channelMax.toNat ∧
        ∀ ref ∈ s.live, s.conn.idOf ref ≠ some (s.conn.nextChannelId + 1))
  | .destroy ref => ∀ ref' ∈ s.live, ref' ≠ ref → s.conn.idOf ref' ≠ s.conn.idOf ref
  | _ => True

theorem idOf_append (conn : Connection) (c : Channel) (ref : Nat) :
    (conn.objects ++ [c])[ref]?.map Channel.id =
      if ref = conn.objects.length then some c.id else conn.idOf ref := by
  unfold Connection.idOf
  by_cases h : ref = conn.objects.length
  · subst h
    simp
  · rw [if_neg h]
    by_cases hlt : ref < conn.objects.length
    · rw [List.getElem?_append_left hlt]
    · have hge : conn.objects.length + 1 ≤ ref := by omega
      have hnone : (conn.objects ++ [c])[ref]? = none := by
        rw [List.getElem?_eq_none_iff, List.length_append, List.length_singleton]
        exact hge
      rw [hnone, List.getElem?_eq_none (by omega)]

/-- Replacing a channel by one with the same id. -/
theorem idOf_set (conn : Connection) {ref : Nat} {c c' : Channel}
    (h : conn.objects[ref]? = some c) (hid : c'.id = c.id) (r : Nat) :
    (conn.objects.set ref c')[r]?.map Channel.id = conn.idOf r := by
  unfold Connection.idOf
  by_cases hr : r = ref
  · subst hr
    obtain ⟨hlt, -⟩ := List.getElem?_eq_some_iff.mp h
    rw [List.getElem?_set_self hlt, h, Option.map_some, Option.map_some, hid]
  · rw [List.getElem?_set_ne (Ne.symm hr)]

theorem close_id (c : Channel) : c.close.channel.id = c.id := by
  unfold Channel.close
  split <;> rfl

/-- **What a step does to the ids**: nothing; or it creates a channel under the incremented
counter; or it destroys one and erases the entry under that one's id. -/
theorem step_ids {s s' : System} {e : Event} (h : step s e = some s') :
    s'.conn.channelMax = s.conn.channelMax ∧
      ((s'.conn.channels = s.conn.channels ∧ s'.conn.idOf = s.conn.idOf ∧ s'.live = s.live ∧
          IdOk s e) ∨
        (e = .create .normal ∧ s.conn.channels.keys.card ≠ s.conn.channelMax.toNat ∧
          s'.conn.channels =
            s.conn.channels.insert (s.conn.nextChannelId + 1) s.conn.objects.length ∧
          (∀ r, s'.conn.idOf r = if r = s.conn.objects.length then
            some (s.conn.nextChannelId + 1) else s.conn.idOf r) ∧
          s'.live = s.live ++ [s.conn.objects.length]) ∨
        (∃ ref id, e = .destroy ref ∧ s.conn.idOf ref = some id ∧
          s'.conn.channels = s.conn.channels.erase id ∧ s'.conn.idOf = s.conn.idOf ∧
          s'.live = s.live.filter (· ≠ ref))) := by
  cases step_move h with
  | refuse next hrefuse =>
    exact ⟨rfl, Or.inl ⟨rfl, rfl, rfl, hrefuse.imp_right Or.inl⟩⟩
  | create hmax => exact ⟨rfl, Or.inr (Or.inl ⟨rfl, hmax, rfl, idOf_append s.conn _, rfl⟩)⟩
  | @destroy ref c hget =>
    refine ⟨rfl, Or.inr (Or.inr ⟨ref, c.id, rfl, ?_, rfl, ?_, rfl⟩)⟩
    · unfold Connection.idOf
      rw [hget, Option.map_some]
    · funext r
      exact idOf_set s.conn hget (close_id c) r
  | @perform ref c op reply hget =>
    refine ⟨rfl, Or.inl ⟨rfl, ?_, rfl, trivial⟩⟩
    funext r
    exact idOf_set s.conn hget (perform_cases c reply op).1 r
  | consume reply frame => exact ⟨rfl, Or.inl ⟨rfl, rfl, rfl, trivial⟩⟩

/-- `IdsSound` is about the maximum, the map, the ids and the live channels only. -/
theorem IdsSound.congr {s s' : System} (hs : IdsSound s)
    (hmax : s'.conn.channelMax = s.conn.channelMax) (hchannels : s'.conn.channels = s.conn.channels)
    (hid : s'.conn.idOf = s.conn.idOf) (hlive : s'.live = s.live) : IdsSound s' where
  stored ref href := by
    simp only [Connection.findChannel, hid, hmax, hchannels]
    exact hs.stored ref (hlive ▸ href)
  distinct ref href ref' href' heq := by
    rw [hid] at heq
    exact hs.distinct ref (hlive ▸ href) ref' (hlive ▸ href') heq

/-- A live channel exists, so it is not the next one to be created. -/
theorem IdsSound.ne_length {s : System} (hs : IdsSound s) {ref : Nat} (href : ref ∈ s.live) :
    ref ≠ s.conn.objects.length := by
  obtain ⟨id, hid, -⟩ := hs.stored ref href
  rintro rfl
  simp [Connection.idOf] at hid

/-- Storing a new channel under a fresh id in range. -/
theorem IdsSound.create {s s' : System} (hs : IdsSound s) {id : UInt16}
    (hmax : s'.conn.channelMax = s.conn.channelMax)
    (hchannels : s'.conn.channels = s.conn.channels.insert id s.conn.objects.length)
    (hid : ∀ r, s'.conn.idOf r = if r = s.conn.objects.length then some id else s.conn.idOf r)
    (hlive : s'.live = s.live ++ [s.conn.objects.length])
    (hrange : 1 ≤ id.toNat ∧ id.toNat ≤ s.conn.channelMax.toNat)
    (hfresh : ∀ ref ∈ s.live, s.conn.idOf ref ≠ some id) : IdsSound s' := by
  have hnew : s'.conn.idOf s.conn.objects.length = some id := by
    rw [hid, if_pos rfl]
  have hold : ∀ ref ∈ s.live, s'.conn.idOf ref = s.conn.idOf ref := fun ref href => by
    rw [hid, if_neg (hs.ne_length href)]
  refine ⟨fun ref href => ?_, fun ref href ref' href' heq => ?_⟩
  · rw [hlive, List.mem_append, List.mem_singleton] at href
    simp only [Connection.findChannel, hmax, hchannels]
    rcases href with href | rfl
    · obtain ⟨id', hrefid, hfind, hrange'⟩ := hs.stored ref href
      have hne : id' ≠ id := by
        rintro rfl
        exact hfresh ref href hrefid
      exact ⟨id', (hold ref href).trans hrefid,
        (Finmap.lookup_insert_of_ne _ hne).trans hfind, hrange'⟩
    · exact ⟨_, hnew, Finmap.lookup_insert _, hrange⟩
  · rw [hlive, List.mem_append, List.mem_singleton] at href href'
    rcases href with href | rfl <;> rcases href' with href' | rfl
    · rw [hold ref href, hold ref' href'] at heq
      exact hs.distinct ref href ref' href' heq
    · rw [hold ref href, hnew] at heq
      exact absurd heq (hfresh ref href)
    · rw [hold ref' href', hnew] at heq
      exact absurd heq.symm (hfresh ref' href')
    · rfl

/-- Erasing an entry that is that of no channel still live. -/
theorem IdsSound.destroy {s s' : System} (hs : IdsSound s) {ref : Nat} {id : UInt16}
    (hmax : s'.conn.channelMax = s.conn.channelMax)
    (hchannels : s'.conn.channels = s.conn.channels.erase id)
    (hid : s'.conn.idOf = s.conn.idOf) (hlive : s'.live = s.live.filter (· ≠ ref))
    (hother : ∀ ref' ∈ s.live, ref' ≠ ref → s.conn.idOf ref' ≠ some id) : IdsSound s' := by
  have hmem : ∀ ref' ∈ s'.live, ref' ∈ s.live ∧ ref' ≠ ref := fun ref' h' => by
    rw [hlive, List.mem_filter, decide_eq_true_eq] at h'
    exact h'
  refine ⟨fun ref' href' => ?_, fun ref' href' ref'' href'' heq => ?_⟩
  · obtain ⟨id', hid', hfind, hrange⟩ := hs.stored ref' (hmem ref' href').1
    have hne : id' ≠ id := by
      rintro rfl
      exact hother ref' (hmem ref' href').1 (hmem ref' href').2 hid'
    simp only [Connection.findChannel, hmax, hchannels, hid]
    exact ⟨id', hid', (Finmap.lookup_erase_ne hne).trans hfind, hrange⟩
  · rw [hid] at heq
    exact hs.distinct ref' (hmem ref' href').1 ref'' (hmem ref'' href'').1 heq

/-- A step that meets the condition keeps the ids sound. -/
theorem idsSound_step {s s' : System} {e : Event} (hs : IdsSound s) (h : step s e = some s')
    (hok : IdOk s e) : IdsSound s' := by
  obtain ⟨hmax, ⟨hchannels, hid, hlive, -⟩ | ⟨rfl, hcard, hchannels, hid, hlive⟩ |
    ⟨ref, id, rfl, href, hchannels, hid, hlive⟩⟩ := step_ids h
  · exact hs.congr hmax hchannels hid hlive
  · rcases hok with hfull | hreply | ⟨hlo, hhi, hfresh⟩
    · exact absurd hfull hcard
    · exact absurd rfl hreply
    · exact hs.create hmax hchannels hid hlive ⟨hlo, hhi⟩ hfresh
  · exact hs.destroy hmax hchannels hid hlive fun ref' href' hne hdup =>
      hok ref' href' hne (hdup.trans href.symm)

/-- A step that does not meet the condition breaks the ids. -/
theorem not_idsSound_step {s s' : System} {e : Event} (hs : IdsSound s) (h : step s e = some s')
    (hbad : ¬ IdOk s e) : ¬ IdsSound s' := by
  intro hs'
  apply hbad
  obtain ⟨hmax, ⟨-, -, -, hok⟩ | ⟨rfl, -, hchannels, hid, hlive⟩ |
    ⟨ref, id, rfl, href, hchannels, hid, hlive⟩⟩ := step_ids h
  · exact hok
  · have hnew : s'.conn.idOf s.conn.objects.length = some (s.conn.nextChannelId + 1) := by
      rw [hid, if_pos rfl]
    have hlast : s.conn.objects.length ∈ s'.live := by
      rw [hlive]
      exact List.mem_append_right _ (List.mem_singleton_self _)
    refine Or.inr (Or.inr ?_)
    obtain ⟨id, hlastid, -, hlo, hhi⟩ := hs'.stored _ hlast
    obtain rfl := Option.some.inj (hnew.symm.trans hlastid)
    rw [hmax] at hhi
    refine ⟨hlo, hhi, fun ref href hdup => hs.ne_length href ?_⟩
    refine hs'.distinct ref (by rw [hlive]; exact List.mem_append_left _ href) _ hlast ?_
    rw [hnew, hid, if_neg (hs.ne_length href), hdup]
  · intro ref' href' hne hdup
    have hmem : ref' ∈ s'.live := by
      rw [hlive, List.mem_filter, decide_eq_true_eq]
      exact ⟨href', hne⟩
    obtain ⟨id', hid', hfind, -⟩ := hs'.stored ref' hmem
    rw [hid, hdup, href] at hid'
    obtain rfl := Option.some.inj hid'
    rw [Connection.findChannel.eq_def, hchannels, Finmap.lookup_erase] at hfind
    exact absurd hfind (by simp)

theorem idsSound_fresh (channelMax : UInt16) : IdsSound (fresh channelMax) where
  stored _ href := absurd href List.not_mem_nil
  distinct _ href := absurd href List.not_mem_nil

/-- **The ids of the live channels are sound in every state of a run** exactly when every step of
the run meets `IdOk`. -/
theorem idsSound_iff (channelMax : UInt16) (es : List Event) :
    Everywhere step IdsSound (fresh channelMax) es ↔ Always step IdOk (fresh channelMax) es :=
  everywhere_iff_always (fun _ hs => hs) (fun _ _ _ => idsSound_step)
    (fun _ _ _ => not_idsSound_step) (idsSound_fresh channelMax)

/-- With one channel at most, the channel created after the first was destroyed gets the id 2: the
guard counts the live channels, the counter does not go back. -/
theorem not_idsSound_cycle :
    ¬ Everywhere step IdsSound (fresh 1) [.create .normal, .destroy 0, .create .normal] := by
  rw [everywhere_iff_reached]
  intro h
  have hs := h _ _ (List.prefix_refl _) rfl
  obtain ⟨id, hid, -, -, hhi⟩ := hs.stored 1 (by decide)
  obtain rfl : (2 : UInt16) = id := Option.some.inj hid
  exact absurd hhi (by decide)

end WinterWind.Amqp
