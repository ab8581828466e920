import WinterWind.Amqp.ChannelClosure
import WinterWind.Amqp.Handles

/-!
# Orphaned objects (`src/core/amqp/channel.cpp`, `queue.cpp`, `exchange.cpp`, `connection.cpp`)

A `Lifetimes` is one connection, its channels, and the queues and exchanges declared on them, with
the references that keep them alive. The user's `std::shared_ptr`s are `connected`, `held`, `queues`
and `exchanges`; the connection holds the channels of `m_channels`; channels, queues and exchanges
point back with a `std::weak_ptr` each, which is locked and used without a test.

* A channel exists while the user holds it or the connection stores it. `~Channel` closes it, for
  which it needs the connection if `m_valid` is still true.
* `~Connection` invalidates the channels that are stored, so that those it lets go of are closed
  without it.
* An operation needs the connection when it sends something.
* A null pointer that is dereferenced ends the run. An `Answer` is what an operation returned.

Results:
* `filed_everywhere`: the channels of `m_channels` are under their own ids.
* `call_cases`, `drop_cases`: what an operation and the loss of a reference can do.
* `stranded_step`: a valid channel that outlives the connection can only be used or let go of by
  dereferencing a null pointer.
* **`clean_iff`**: every operation works on a live channel of a live connection or fails, and no
  null pointer is dereferenced, when queues are used while their channel exists, exchanges while it
  is valid, and every channel that is held and valid when the connection is released is stored; and
  only then.
* `clean_of_ownEntry`: the last of these needs no care while no two channels share an id.
-/

namespace WinterWind.Amqp

open Library

/-- What an operation returned: whether its channel and the connection were alive when it was
called, and whether it reported success. -/
structure Answer where
  live : Bool
  success : Bool
  deriving Repr, DecidableEq

/-- A connection with its channels, the references to them, and what happened. -/
structure Lifetimes where
  conn : Connection
  connected : Bool := true
  held : List Nat := []
  queues : List Queue := []
  exchanges : List Exchange := []
  answers : List Answer := []
  nullDereference : Bool := false

/-- `m_channels` holds the channel, which is under its own id if it does (`filed_everywhere`). -/
def Connection.stores (conn : Connection) (ref : Nat) : Bool :=
  match conn.objects[ref]? with
  | some c => conn.findChannel c.id == some ref
  | none => false

/-- The channels that are held and valid are stored. -/
def Connection.Covers (conn : Connection) (held : List Nat) : Prop :=
  ∀ ref ∈ held, ∀ c, conn.objects[ref]? = some c → c.valid = true → conn.stores ref = true

namespace Lifetimes

/-- The channel has not been destructed. -/
def hasChannel (s : Lifetimes) (ref : Nat) : Bool := s.held.contains ref || s.conn.stores ref

/-- `m_channel.lock()`. -/
def lockChannel (s : Lifetimes) (ref : Nat) : Option Channel :=
  if s.hasChannel ref then s.conn.objects[ref]? else none

/-- An operation of the channel `c`, which is `ref`. -/
def call (s : Lifetimes) (ref : Nat) (c : Channel) (op : Operation) (reply : RpcReply) :
    Lifetimes :=
  let effect := op.perform reply c
  if !effect.2.isEmpty && !s.connected then { s with nullDereference := true }
  else
    { s with
      conn := { s.conn with objects := s.conn.objects.set ref effect.1 }
      queues := s.queues ++ op.newQueues ref reply c
      exchanges := s.exchanges ++ op.newExchanges ref reply c
      answers := s.answers ++ [⟨c.valid && s.connected, op.succeeds reply c⟩] }

/-- An operation of a queue or an exchange, as the one it calls on its channel. -/
def callLocked (s : Lifetimes) (ref : Nat) (op : Operation) (reply : RpcReply) : Lifetimes :=
  match s.lockChannel ref with
  | some c => s.call ref c op reply
  | none => { s with nullDereference := true }

/-- A reference to the channel was dropped: `~Channel` if it was the last one. -/
def drop (s : Lifetimes) (ref : Nat) : Lifetimes :=
  if s.hasChannel ref then s
  else
    match s.conn.objects[ref]? with
    | some c =>
      if c.valid && !s.connected then { s with nullDereference := true }
      else { s with conn := { s.conn with objects := s.conn.objects.set ref c.close.channel } }
    | none => s

/-- `Connection::create_channel`: the assignment to `m_channels` drops what was there. -/
def createChannel (s : Lifetimes) (openReply : RpcReply) : Lifetimes :=
  match s.conn.createChannel openReply with
  | (.ok (some ref), conn) =>
    let created := { s with conn := conn, held := s.held ++ [ref] }
    match s.conn.findChannel conn.nextChannelId with
    | some old => created.drop old
    | none => created
  | (_, conn) => { s with conn := conn }

/-- `Connection::destroy_channel`, which drops what it erases. -/
def destroyChannel (s : Lifetimes) (ref : Nat) : Lifetimes :=
  let destroyed := { s with conn := s.conn.destroyChannel ref }
  match (s.conn.objects[ref]?).bind fun c => s.conn.findChannel c.id with
  | some old => destroyed.drop old
  | none => destroyed

/-- `Connection::~Connection`. -/
def releaseConnection (s : Lifetimes) : Lifetimes :=
  { s with
    connected := false
    conn := { s.conn with channels := ∅, objects := s.conn.destroyed } }

/-- The last `std::shared_ptr` the user has to the channel is reset. -/
def releaseChannel (s : Lifetimes) (ref : Nat) : Lifetimes :=
  { s with held := s.held.filter (· ≠ ref) }.drop ref

/-- What the user does. -/
inductive Event where
  | create (openReply : RpcReply)
  | destroy (ref : Nat)
  | channel (ref : Nat) (op : Operation) (reply : RpcReply)
  | queue (queue : Queue) (call : QueueCall) (reply : RpcReply)
  | exchange (exchange : Exchange) (routingKey : Bytes) (message : Message) (status : Int32)
  | releaseConnection
  | releaseChannel (ref : Nat)
  | releaseQueue (queue : Queue)
  | releaseExchange (exchange : Exchange)

/-- One step. The user calls what it holds; nothing follows a null pointer. -/
def step (s : Lifetimes) (e : Event) : Option Lifetimes :=
  if s.nullDereference then none
  else
    match e with
    | .create openReply => if s.connected then some (s.createChannel openReply) else none
    | .destroy ref =>
      if s.connected && s.held.contains ref then some (s.destroyChannel ref) else none
    | .channel ref op reply =>
      match s.conn.objects[ref]? with
      | some c => if s.held.contains ref && op.isPublic then some (s.call ref c op reply) else none
      | none => none
    | .queue queue call reply =>
      if s.queues.contains queue then
        some (s.callLocked queue.channel (queue.operation call) reply)
      else none
    | .exchange exchange routingKey message status =>
      if s.exchanges.contains exchange then
        some (s.callLocked exchange.channel (exchange.basicPublish routingKey message status)
          .normal)
      else none
    | .releaseConnection => if s.connected then some s.releaseConnection else none
    | .releaseChannel ref => if s.held.contains ref then some (s.releaseChannel ref) else none
    | .releaseQueue queue =>
      if s.queues.contains queue then some { s with queues := s.queues.erase queue } else none
    | .releaseExchange exchange =>
      if s.exchanges.contains exchange then
        some { s with exchanges := s.exchanges.erase exchange }
      else none

/-- A fresh connection. -/
def fresh (channelMax : UInt16) : Lifetimes := { conn := { channelMax := channelMax } }

/-! ## The law -/

/-- Every operation worked on a live channel of a live connection or returned a failure, and no
null pointer was dereferenced. -/
structure Clean (s : Lifetimes) : Prop where
  no_null : s.nullDereference = false
  answered : ∀ a ∈ s.answers, a.live = false → a.success = false

/-- The condition on a step. A queue is used while its channel exists, and an exchange while its
channel is valid. When the connection is released, the channels that are held and valid are all
stored. -/
def Backed (s : Lifetimes) : Event → Prop
  | .queue queue _ _ => ∃ c, s.lockChannel queue.channel = some c
  | .exchange exchange _ _ _ =>
    ∃ c, s.lockChannel exchange.channel = some c ∧ c.valid = true
  | .releaseConnection => s.conn.Covers s.held
  | _ => True

/-- What the runs keep: without a connection, nothing is stored and what is held is invalid. -/
structure Sound (s : Lifetimes) : Prop extends Clean s where
  none_stored : s.connected = false → s.conn.channels = ∅
  held_invalid : s.connected = false → ∀ ref ∈ s.held, ∀ c, s.conn.objects[ref]? = some c →
    c.valid = false

/-- A valid channel is held without a connection: it can only be used or let go of by
dereferencing a null pointer. -/
structure Stranded (s : Lifetimes) : Prop where
  not_connected : s.connected = false
  none_stored : s.conn.channels = ∅
  held_valid : ∃ ref ∈ s.held, ∃ c, s.conn.objects[ref]? = some c ∧ c.valid = true

/-! ## Steps -/

/-- **What an operation can do.** It dereferences a null pointer: the connection is gone and the
channel valid. Or it answers; and without a connection it changes nothing and sends nothing. -/
theorem call_cases (s : Lifetimes) (ref : Nat) (c : Channel) (op : Operation) (reply : RpcReply) :
    (s.connected = false ∧ c.valid = true ∧
        s.call ref c op reply = { s with nullDereference := true }) ∨
      ∃ queues exchanges, s.call ref c op reply =
          { s with
            conn := { s.conn with objects := s.conn.objects.set ref (op.perform reply c).1 }
            queues := queues
            exchanges := exchanges
            answers := s.answers ++ [⟨c.valid && s.connected, op.succeeds reply c⟩] } ∧
        (s.connected = false → op.perform reply c = (c, [])) := by
  obtain ⟨-, hsame | ⟨hv, hsent, -⟩⟩ := perform_cases c reply op
  · exact Or.inr ⟨s.queues ++ op.newQueues ref reply c, s.exchanges ++ op.newExchanges ref reply c,
      if_neg (by simp [hsame]), fun _ => hsame⟩
  · by_cases hconn : s.connected = true
    · exact Or.inr ⟨s.queues ++ op.newQueues ref reply c,
        s.exchanges ++ op.newExchanges ref reply c, if_neg (by simp [hconn]),
        fun hgone => absurd (hconn.symm.trans hgone) (by decide)⟩
    · exact Or.inl ⟨Bool.eq_false_iff.mpr hconn, hv, if_pos (by simpa [hconn] using hsent)⟩

/-- **What the loss of a reference can do.** A channel that goes dereferences a null pointer: the
connection is gone before and the channel valid. Otherwise no channel that is held changes. -/
theorem drop_cases (s : Lifetimes) (ref : Nat) :
    (s.connected = false ∧ (∃ c, s.conn.objects[ref]? = some c ∧ c.valid = true) ∧
        s.drop ref = { s with nullDereference := true }) ∨
      ∃ objects, s.drop ref = { s with conn := { s.conn with objects := objects } } ∧
        ∀ r ∈ s.held, objects[r]? = s.conn.objects[r]? := by
  unfold drop
  by_cases hhas : s.hasChannel ref = true
  · rw [if_pos hhas]
    exact Or.inr ⟨s.conn.objects, rfl, fun _ _ => rfl⟩
  · rw [if_neg hhas]
    cases hget : s.conn.objects[ref]? with
    | none => exact Or.inr ⟨s.conn.objects, rfl, fun _ _ => rfl⟩
    | some c =>
      by_cases hfault : (c.valid && !s.connected) = true
      · simp only [hfault, if_true]
        rw [Bool.and_eq_true, Bool.not_eq_true'] at hfault
        exact Or.inl ⟨hfault.2, ⟨c, rfl, hfault.1⟩, trivial⟩
      · simp only [hfault]
        refine Or.inr ⟨_, rfl, fun r hr => List.getElem?_set_ne ?_⟩
        rintro rfl
        exact hhas (by simp [hasChannel, hr])

/-- Nothing is stored in an empty map. -/
theorem stores_of_empty {conn : Connection} (h : conn.channels = ∅) (ref : Nat) :
    conn.stores ref = false := by
  unfold Connection.stores Connection.findChannel
  rw [h]
  split <;> simp

/-- A channel that is valid when the last reference to it goes, and the connection before. -/
theorem drop_of_gone {s : Lifetimes} {ref : Nat} {c : Channel}
    (hget : s.conn.objects[ref]? = some c) (hv : c.valid = true) (hgone : s.connected = false)
    (hstored : s.conn.channels = ∅)
    (hheld : ref ∉ s.held) : s.drop ref = { s with nullDereference := true } := by
  have hhas : s.hasChannel ref = false := by
    simp [hasChannel, hheld, stores_of_empty hstored]
  simp [drop, hhas, hget, hv, hgone]

/-- What is locked exists, and without a stored channel it is held. -/
theorem lockChannel_eq_some {s : Lifetimes} {ref : Nat} {c : Channel}
    (h : s.lockChannel ref = some c) :
    s.conn.objects[ref]? = some c ∧ (s.conn.channels = ∅ → ref ∈ s.held) := by
  unfold lockChannel at h
  split at h
  · rename_i hhas
    refine ⟨h, fun hempty => ?_⟩
    simpa [hasChannel, stores_of_empty hempty] using hhas
  · simp at h

/-- **The kinds of steps.** -/
inductive Move (s : Lifetimes) : Event → Lifetimes → Prop
  | create (openReply : RpcReply) (hconn : s.connected = true) :
      Move s (.create openReply) (s.createChannel openReply)
  | destroy (ref : Nat) (hconn : s.connected = true) :
      Move s (.destroy ref) (s.destroyChannel ref)
  | channel {ref : Nat} {c : Channel} {op : Operation} (reply : RpcReply)
      (hget : s.conn.objects[ref]? = some c) (hheld : ref ∈ s.held) (hop : op.isPublic = true) :
      Move s (.channel ref op reply) (s.call ref c op reply)
  | queue (queue : Queue) (call : QueueCall) (reply : RpcReply) :
      Move s (.queue queue call reply) (s.callLocked queue.channel (queue.operation call) reply)
  | exchange (exchange : Exchange) (routingKey : Bytes) (message : Message) (status : Int32) :
      Move s (.exchange exchange routingKey message status)
        (s.callLocked exchange.channel (exchange.basicPublish routingKey message status) .normal)
  | releaseConnection (hconn : s.connected = true) : Move s .releaseConnection s.releaseConnection
  | releaseChannel {ref : Nat} (hheld : ref ∈ s.held) :
      Move s (.releaseChannel ref) (s.releaseChannel ref)
  | releaseQueue (queue : Queue) :
      Move s (.releaseQueue queue) { s with queues := s.queues.erase queue }
  | releaseExchange (exchange : Exchange) :
      Move s (.releaseExchange exchange) { s with exchanges := s.exchanges.erase exchange }

theorem step_move {s s' : Lifetimes} {e : Event} (h : step s e = some s') :
    s.nullDereference = false ∧ Move s e s' := by
  unfold step at h
  by_cases hnull : s.nullDereference = true
  · simp [hnull] at h
  · rw [if_neg hnull] at h
    refine ⟨Bool.eq_false_iff.mpr hnull, ?_⟩
    cases e with
    | create openReply =>
      obtain ⟨hconn, rfl⟩ := Option.ite_some_none_eq_some.mp h
      exact .create openReply hconn
    | destroy ref =>
      obtain ⟨hconn, rfl⟩ := Option.ite_some_none_eq_some.mp h
      rw [Bool.and_eq_true] at hconn
      exact .destroy ref hconn.1
    | channel ref op reply =>
      cases hget : s.conn.objects[ref]? with
      | none => simp [hget] at h
      | some c =>
        simp only [hget] at h
        obtain ⟨hheld, rfl⟩ := Option.ite_some_none_eq_some.mp h
        rw [Bool.and_eq_true, List.contains_iff_mem] at hheld
        exact .channel reply hget hheld.1 hheld.2
    | queue queue call reply =>
      obtain ⟨-, rfl⟩ := Option.ite_some_none_eq_some.mp h
      exact .queue queue call reply
    | exchange exchange routingKey message status =>
      obtain ⟨-, rfl⟩ := Option.ite_some_none_eq_some.mp h
      exact .exchange exchange routingKey message status
    | releaseConnection =>
      obtain ⟨hconn, rfl⟩ := Option.ite_some_none_eq_some.mp h
      exact .releaseConnection hconn
    | releaseChannel ref =>
      obtain ⟨hheld, rfl⟩ := Option.ite_some_none_eq_some.mp h
      exact .releaseChannel (List.contains_iff_mem.mp hheld)
    | releaseQueue queue =>
      obtain ⟨-, rfl⟩ := Option.ite_some_none_eq_some.mp h
      exact .releaseQueue queue
    | releaseExchange exchange =>
      obtain ⟨-, rfl⟩ := Option.ite_some_none_eq_some.mp h
      exact .releaseExchange exchange

/-! ## The map of the connection -/

/-- Every entry of `m_channels` is under the id of its channel. -/
def Filed (s : Lifetimes) : Prop :=
  ∀ id ref, s.conn.findChannel id = some ref → s.conn.idOf ref = some id

/-- What is stored is what some entry points to. -/
theorem Filed.stores_iff {s : Lifetimes} (hs : Filed s) {ref : Nat} :
    s.conn.stores ref = true ↔ ∃ id, s.conn.findChannel id = some ref := by
  constructor
  · intro h
    unfold Connection.stores at h
    split at h
    · rename_i c _
      exact ⟨c.id, by simpa using h⟩
    · simp at h
  · rintro ⟨id, hfind⟩
    have hid := hs id ref hfind
    obtain ⟨c, hget, rfl⟩ := Option.map_eq_some_iff.mp hid
    simp [Connection.stores, hget, hfind]

theorem filed_of_idOf {s s' : Lifetimes} (hs : Filed s) (hid : s'.conn.idOf = s.conn.idOf)
    (hchannels : s'.conn.channels = s.conn.channels) : Filed s' := by
  intro id ref hfind
  rw [hid]
  refine hs id ref ?_
  rwa [Connection.findChannel, hchannels] at hfind

theorem filed_drop {s : Lifetimes} (hs : Filed s) (ref : Nat) : Filed (s.drop ref) := by
  unfold drop
  split
  · exact hs
  · split
    · rename_i c hget
      split
      · exact hs
      · refine filed_of_idOf hs ?_ rfl
        funext r
        exact idOf_set s.conn hget (close_id c) r
    · exact hs

theorem filed_call {s : Lifetimes} (hs : Filed s) {ref : Nat} {c : Channel}
    (hget : s.conn.objects[ref]? = some c) (op : Operation) (reply : RpcReply) :
    Filed (s.call ref c op reply) := by
  rcases call_cases s ref c op reply with ⟨-, -, hcall⟩ | ⟨queues, exchanges, hcall, -⟩
  · rw [hcall]
    exact hs
  · rw [hcall]
    refine filed_of_idOf hs ?_ rfl
    funext r
    exact idOf_set s.conn hget (perform_cases c reply op).1 r

theorem filed_callLocked {s : Lifetimes} (hs : Filed s) (ref : Nat) (op : Operation)
    (reply : RpcReply) : Filed (s.callLocked ref op reply) := by
  unfold callLocked
  split
  · rename_i c hlock
    exact filed_call hs (lockChannel_eq_some hlock).1 op reply
  · exact hs

/-- A new channel is entered under its id. -/
theorem filed_create {s : Lifetimes} (hs : Filed s) (openReply : RpcReply) :
    Filed (s.createChannel openReply) := by
  unfold createChannel
  rcases s.conn.createChannel_cases openReply with
    ⟨-, hcreate⟩ | ⟨-, -, hcreate⟩ | ⟨-, -, ex, hcreate⟩
  · rw [hcreate]
    exact hs
  · simp only [hcreate]
    generalize hid : s.conn.nextChannelId + 1 = id
    have hcreated : ∀ held, Filed { s with
        conn := { s.conn with
          nextChannelId := id
          channels := s.conn.channels.insert id s.conn.objects.length
          objects := s.conn.objects ++ [{ id := id }] }
        held := held } := by
      intro held id' ref hfind
      refine (idOf_append s.conn { id := id } ref).trans ?_
      by_cases hsame : id' = id
      · subst hsame
        obtain rfl := Option.some.inj ((Finmap.lookup_insert _).symm.trans hfind)
        rw [if_pos rfl]
      · have hold := hs id' ref ((Finmap.lookup_insert_of_ne _ hsame).symm.trans hfind)
        rw [if_neg, hold]
        rintro rfl
        simp [Connection.idOf] at hold
    split
    · exact filed_drop (hcreated _) _
    · exact hcreated _
  · rw [hcreate]
    exact hs

theorem filed_destroy {s : Lifetimes} (hs : Filed s) (ref : Nat) :
    Filed (s.destroyChannel ref) := by
  have herased : Filed { s with conn := s.conn.destroyChannel ref } := by
    cases hget : s.conn.objects[ref]? with
    | none => rwa [Connection.destroyChannel, hget]
    | some c =>
      rw [Connection.destroyChannel_eq hget]
      intro id ref' hfind
      refine (idOf_set s.conn hget (close_id c) ref').trans (hs id ref' ?_)
      by_cases hsame : id = c.id
      · subst hsame
        exact absurd hfind (by simp [Connection.findChannel])
      · exact (Finmap.lookup_erase_ne hsame).symm.trans hfind
  unfold destroyChannel
  split
  · exact filed_drop herased _
  · exact herased

theorem filed_step {s s' : Lifetimes} {e : Event} (hs : Filed s) (h : step s e = some s') :
    Filed s' := by
  obtain ⟨-, hmove⟩ := step_move h
  cases hmove with
  | create openReply => exact filed_create hs openReply
  | destroy ref => exact filed_destroy hs ref
  | channel reply hget => exact filed_call hs hget _ reply
  | queue queue call reply => exact filed_callLocked hs _ _ reply
  | exchange exchange routingKey message status => exact filed_callLocked hs _ _ _
  | releaseConnection =>
    exact fun _ _ hfind => absurd hfind (by simp [releaseConnection, Connection.findChannel])
  | @releaseChannel ref => exact filed_drop (s := { s with held := s.held.filter (· ≠ ref) }) hs ref
  | releaseQueue | releaseExchange => exact hs

/-- **Every entry of `m_channels` is under the id of its channel**, in every state of a run. -/
theorem filed_everywhere (channelMax : UInt16) (es : List Event) :
    Everywhere step Filed (fresh channelMax) es :=
  everywhere_of_always (fun _ hs => hs) (fun _ _ _ hs h _ => filed_step hs h)
    (fun _ _ hfind => absurd hfind (by simp [fresh, Connection.findChannel])) (always_trivial es _)

/-! ## What the steps keep -/

theorem not_clean_null (s : Lifetimes) : ¬ Clean { s with nullDereference := true } :=
  fun h => absurd h.no_null (by simp)

/-- A list with one of its elements written back. -/
theorem set_of_getElem? {objects : List Channel} {ref : Nat} {c : Channel}
    (h : objects[ref]? = some c) : objects.set ref c = objects := by
  obtain ⟨hlt, rfl⟩ := List.getElem?_eq_some_iff.mp h
  exact List.set_getElem_self hlt

/-- With a connection, `create_channel` changes only the connection and what is held. -/
theorem createChannel_frame {s : Lifetimes} (hconn : s.connected = true) (openReply : RpcReply) :
    ∃ conn held, s.createChannel openReply = { s with conn := conn, held := held } := by
  unfold createChannel
  split
  · rename_i ref conn _
    split
    · rename_i old _
      rcases drop_cases { s with conn := conn, held := s.held ++ [ref] } old with
        ⟨hgone, -⟩ | ⟨objects, hdrop, -⟩
      · exact absurd (hconn.symm.trans hgone) (by decide)
      · exact ⟨_, _, hdrop⟩
    · exact ⟨conn, s.held ++ [ref], rfl⟩
  · rename_i conn _ _
    exact ⟨conn, s.held, rfl⟩

/-- With a connection, `destroy_channel` changes only the connection. -/
theorem destroyChannel_frame {s : Lifetimes} (hconn : s.connected = true) (ref : Nat) :
    ∃ conn, s.destroyChannel ref = { s with conn := conn } := by
  unfold destroyChannel
  split
  · rename_i old _
    rcases drop_cases { s with conn := s.conn.destroyChannel ref } old with
      ⟨hgone, -⟩ | ⟨objects, hdrop, -⟩
    · exact absurd (hconn.symm.trans hgone) (by decide)
    · exact ⟨_, hdrop⟩
  · exact ⟨s.conn.destroyChannel ref, rfl⟩

/-- An operation on a channel that is held if the connection is gone, and valid if the operation
is `basic_publish`. -/
theorem sound_call {s : Lifetimes} (hs : Sound s) {ref : Nat} {c : Channel} {op : Operation}
    (reply : RpcReply) (hget : s.conn.objects[ref]? = some c)
    (hheld : s.connected = false → ref ∈ s.held) (hpublish : op.isPublish = true → c.valid = true) :
    Sound (s.call ref c op reply) := by
  have hinvalid : s.connected = false → c.valid = false := fun hgone =>
    hs.held_invalid hgone ref (hheld hgone) c hget
  rcases call_cases s ref c op reply with ⟨hgone, hv, -⟩ | ⟨queues, exchanges, hcall, hsame⟩
  · rw [hinvalid hgone] at hv
    exact absurd hv (by simp)
  · rw [hcall]
    refine ⟨⟨hs.no_null, fun a ha hlive => ?_⟩, hs.none_stored, fun hgone ref' href' c' hget' => ?_⟩
    · rcases List.mem_append.mp ha with ha | ha
      · exact hs.answered a ha hlive
      · obtain rfl := List.mem_singleton.mp ha
        have hv : c.valid = false := by
          by_contra hv
          have hconn := hinvalid (by simpa [hv] using hlive)
          exact hv hconn
        rw [succeeds_of_invalid hv]
        by_contra hpub
        rw [hpublish (by simpa using hpub)] at hv
        exact absurd hv (by simp)
    · simp only [hsame hgone, set_of_getElem? hget] at hget'
      exact hs.held_invalid hgone ref' href' c' hget'

/-- What `~Connection` leaves of a channel: itself, invalidated if it is stored. -/
theorem getElem?_destroyed (conn : Connection) (ref : Nat) :
    conn.destroyed[ref]? = (conn.objects[ref]?).map fun c =>
      if conn.findChannel c.id = some ref then c.invalidate else c := by
  unfold Connection.destroyed
  rw [List.getElem?_mapIdx]

/-- A channel that is stored if it is valid is left invalid by `~Connection`. -/
theorem invalid_of_destroyed {conn : Connection} {ref : Nat} {c : Channel}
    (hok : ∀ c, conn.objects[ref]? = some c → c.valid = true → conn.stores ref = true)
    (hget : conn.destroyed[ref]? = some c) : c.valid = false := by
  rw [getElem?_destroyed] at hget
  obtain ⟨c', hget', rfl⟩ := Option.map_eq_some_iff.mp hget
  split
  · rfl
  · rename_i hstored
    by_contra hv
    have h := hok c' hget' (by simpa using hv)
    simp [Connection.stores, hget', hstored] at h

/-- A step that meets the condition keeps what the runs keep. -/
theorem sound_step {s s' : Lifetimes} {e : Event} (hs : Sound s) (h : step s e = some s')
    (hok : s.Backed e) : Sound s' := by
  obtain ⟨-, hmove⟩ := step_move h
  cases hmove with
  | create openReply hconn =>
    obtain ⟨conn, held, hcreate⟩ := createChannel_frame hconn openReply
    rw [hcreate]
    exact ⟨⟨hs.no_null, hs.answered⟩, fun hgone => absurd (hconn.symm.trans hgone) (by decide),
      fun hgone => absurd (hconn.symm.trans hgone) (by decide)⟩
  | destroy ref hconn =>
    obtain ⟨conn, hdestroy⟩ := destroyChannel_frame hconn ref
    rw [hdestroy]
    exact ⟨⟨hs.no_null, hs.answered⟩, fun hgone => absurd (hconn.symm.trans hgone) (by decide),
      fun hgone => absurd (hconn.symm.trans hgone) (by decide)⟩
  | channel reply hget hheld hop =>
    refine sound_call hs reply hget (fun _ => hheld) fun hpub => ?_
    rw [isPublish_of_isPublic hop] at hpub
    exact absurd hpub (by simp)
  | queue queue call reply =>
    obtain ⟨c, hlock⟩ := hok
    obtain ⟨hget, hheld⟩ := lockChannel_eq_some hlock
    simp only [callLocked, hlock]
    refine sound_call hs reply hget (fun hgone => hheld (hs.none_stored hgone)) fun hpub => ?_
    rw [isPublish_operation] at hpub
    exact absurd hpub (by simp)
  | exchange exchange routingKey message status =>
    obtain ⟨c, hlock, hv⟩ := hok
    obtain ⟨hget, hheld⟩ := lockChannel_eq_some hlock
    simp only [callLocked, hlock]
    exact sound_call hs .normal hget (fun hgone => hheld (hs.none_stored hgone)) fun _ => hv
  | releaseConnection hconn =>
    refine ⟨⟨hs.no_null, hs.answered⟩, fun _ => rfl, fun _ ref href c hget => ?_⟩
    exact invalid_of_destroyed (hok ref href) hget
  | @releaseChannel ref hheld =>
    rcases drop_cases { s with held := s.held.filter (· ≠ ref) } ref with
      ⟨hgone, ⟨c, hget, hv⟩, -⟩ | ⟨objects, hdrop, hkept⟩
    · rw [hs.held_invalid hgone ref hheld c hget] at hv
      exact absurd hv (by simp)
    · rw [releaseChannel, hdrop]
      refine ⟨⟨hs.no_null, hs.answered⟩, hs.none_stored, fun hgone ref' href' c hget => ?_⟩
      rw [hkept ref' href'] at hget
      exact hs.held_invalid hgone ref' (List.mem_of_mem_filter href') c hget
  | releaseQueue queue => exact ⟨⟨hs.no_null, hs.answered⟩, hs.none_stored, hs.held_invalid⟩
  | releaseExchange exchange => exact ⟨⟨hs.no_null, hs.answered⟩, hs.none_stored, hs.held_invalid⟩

/-! ## What goes wrong otherwise -/

/-- `basic_publish` on an invalid channel says that it succeeded. -/
theorem not_clean_publish {s : Lifetimes} {ref : Nat} {c : Channel} (hv : c.valid = false)
    {op : Operation} (hpub : op.isPublish = true) (reply : RpcReply) :
    ¬ Clean (s.call ref c op reply) := by
  intro hs
  rcases call_cases s ref c op reply with ⟨-, hv', -⟩ | ⟨queues, exchanges, hcall, -⟩
  · rw [hv] at hv'
    exact absurd hv' (by simp)
  · rw [hcall] at hs
    have hfail := hs.answered _ (List.mem_append_right _ (List.mem_singleton_self _)) (by simp [hv])
    rw [succeeds_of_invalid hv, hpub] at hfail
    exact absurd hfail (by simp)

/-- A step that does not meet the condition goes wrong, or strands a channel. -/
theorem stranded_of_not_backed {s s' : Lifetimes} {e : Event} (h : step s e = some s')
    (hbad : ¬ s.Backed e) : Stranded s' ∨ ¬ Clean s' := by
  obtain ⟨-, hmove⟩ := step_move h
  cases hmove with
  | queue queue call reply =>
    have hlock : s.lockChannel queue.channel = none :=
      Option.eq_none_iff_forall_ne_some.mpr fun c hc => hbad ⟨c, hc⟩
    simp only [callLocked, hlock]
    exact Or.inr (not_clean_null s)
  | exchange exchange routingKey message status =>
    cases hlock : s.lockChannel exchange.channel with
    | none =>
      simp only [callLocked, hlock]
      exact Or.inr (not_clean_null s)
    | some c =>
      have hv : c.valid = false := by
        by_contra hv
        exact hbad ⟨c, hlock, by simpa using hv⟩
      simp only [callLocked, hlock]
      exact Or.inr (not_clean_publish hv rfl .normal)
  | releaseConnection hconn =>
    refine Or.inl ⟨rfl, rfl, ?_⟩
    by_contra hnone
    refine hbad fun ref href c hget hv => ?_
    by_contra hstored
    refine hnone ⟨ref, href, c, ?_, hv⟩
    have hfind : s.conn.findChannel c.id ≠ some ref := by
      simpa [Connection.stores, hget] using hstored
    exact (getElem?_destroyed s.conn ref).trans (by rw [hget, Option.map_some, if_neg hfind])
  | _ => exact absurd trivial hbad

/-- An operation leaves a stranded channel stranded, or goes wrong. -/
theorem stranded_call {s : Lifetimes} (hs : Stranded s) {ref : Nat} {c : Channel} (op : Operation)
    (reply : RpcReply) (hget : s.conn.objects[ref]? = some c) :
    Stranded (s.call ref c op reply) ∨ ¬ Clean (s.call ref c op reply) := by
  rcases call_cases s ref c op reply with ⟨-, -, hcall⟩ | ⟨queues, exchanges, hcall, hsame⟩
  · rw [hcall]
    exact Or.inr (not_clean_null s)
  · rw [hcall]
    refine Or.inl ⟨hs.not_connected, hs.none_stored, ?_⟩
    simp only [hsame hs.not_connected, set_of_getElem? hget]
    exact hs.held_valid

theorem stranded_callLocked {s : Lifetimes} (hs : Stranded s) (ref : Nat) (op : Operation)
    (reply : RpcReply) :
    Stranded (s.callLocked ref op reply) ∨ ¬ Clean (s.callLocked ref op reply) := by
  unfold callLocked
  split
  · rename_i c hlock
    exact stranded_call hs op reply (lockChannel_eq_some hlock).1
  · exact Or.inr (not_clean_null s)

/-- **A stranded channel stays stranded** until a null pointer is dereferenced. -/
theorem stranded_step {s s' : Lifetimes} {e : Event} (hs : Stranded s) (h : step s e = some s') :
    Stranded s' ∨ ¬ Clean s' := by
  obtain ⟨-, hmove⟩ := step_move h
  have hgone := hs.not_connected
  cases hmove with
  | create _ hconn | destroy _ hconn | releaseConnection hconn =>
    exact absurd (hconn.symm.trans hgone) (by decide)
  | channel reply hget => exact stranded_call hs _ reply hget
  | queue queue call reply => exact stranded_callLocked hs _ _ reply
  | exchange exchange routingKey message status => exact stranded_callLocked hs _ _ _
  | @releaseChannel ref hheld =>
    obtain ⟨ref', href', c, hget, hv⟩ := hs.held_valid
    by_cases hsame : ref' = ref
    · -- it was the last reference to the stranded channel
      subst hsame
      have hdrop : s.releaseChannel ref' = _ :=
        drop_of_gone (s := { s with held := s.held.filter (· ≠ ref') }) hget hv hgone
          hs.none_stored (by simp)
      rw [hdrop]
      exact Or.inr (not_clean_null _)
    · have hmem : ref' ∈ s.held.filter (· ≠ ref) := by simp [href', hsame]
      rcases drop_cases { s with held := s.held.filter (· ≠ ref) } ref with
        ⟨-, -, hdrop⟩ | ⟨objects, hdrop, hkept⟩
      · rw [releaseChannel, hdrop]
        exact Or.inr (not_clean_null _)
      · rw [releaseChannel, hdrop]
        exact Or.inl ⟨hgone, hs.none_stored, ref', hmem, c, (hkept ref' hmem).trans hget, hv⟩
  | releaseQueue queue => exact Or.inl ⟨hgone, hs.none_stored, hs.held_valid⟩
  | releaseExchange exchange => exact Or.inl ⟨hgone, hs.none_stored, hs.held_valid⟩

/-! ## Runs -/

theorem sound_fresh (channelMax : UInt16) : Sound (fresh channelMax) :=
  ⟨⟨rfl, fun _ ha => absurd ha List.not_mem_nil⟩, fun _ => rfl,
    fun _ _ href => absurd href List.not_mem_nil⟩

/-- **Operations on orphaned objects fail cleanly** in a run whose steps all meet `Backed`.
Conversely, they do in a run which does not end with a stranded channel only if its steps all meet
`Backed`. -/
theorem clean_iff (channelMax : UInt16) (es : List Event) :
    (Always step Backed (fresh channelMax) es → Everywhere step Clean (fresh channelMax) es) ∧
      ∀ s, run step (fresh channelMax) es = some s → ¬ s.Stranded →
        Everywhere step Clean (fresh channelMax) es → Always step Backed (fresh channelMax) es :=
  ⟨everywhere_of_always (fun _ hs => hs.toClean) (fun _ _ _ => sound_step)
      (sound_fresh channelMax),
    fun _ hrun hend => always_of_everywhere_or (fun _ _ _ => sound_step)
      (fun _ _ _ _ => stranded_of_not_backed) (fun _ _ _ => stranded_step)
      (sound_fresh channelMax) hrun hend⟩

/-! ## Runs whose ids do not collide -/

theorem stores_iff {conn : Connection} {ref : Nat} : conn.stores ref = true ↔
    ∃ c, conn.objects[ref]? = some c ∧ conn.findChannel c.id = some ref := by
  unfold Connection.stores
  cases hget : conn.objects[ref]? <;> simp

/-- The entry that a step replaces or erases is that of no other channel. -/
def OwnEntry (s : Lifetimes) : Event → Prop
  | .create _ => s.conn.findChannel (s.conn.nextChannelId + 1) = none
  | .destroy ref => ∀ c ref', s.conn.objects[ref]? = some c →
      s.conn.findChannel c.id = some ref' → ref' = ref
  | _ => True

/-- The condition on queues and exchanges. -/
def Used (s : Lifetimes) (e : Event) : Prop := e ≠ .releaseConnection → s.Backed e

/-- Channels that are not held do not matter. -/
theorem covers_congr {conn : Connection} {held : List Nat} {objects : List Channel}
    (h : conn.Covers held) (hkept : ∀ r ∈ held, objects[r]? = conn.objects[r]?) :
    { conn with objects := objects }.Covers held := by
  intro ref href c hget hv
  have hget' : conn.objects[ref]? = some c := (hkept ref href).symm.trans hget
  obtain ⟨c', hc', hfind⟩ := stores_iff.mp (h ref href c hget' hv)
  exact stores_iff.mpr ⟨c', (hkept ref href).trans hc', hfind⟩

/-- A channel is replaced by one with its id, which is valid only if it was. -/
theorem covers_set {conn : Connection} {held : List Nat} (h : conn.Covers held) {ref : Nat}
    {c d : Channel} (hget : conn.objects[ref]? = some c) (hid : d.id = c.id)
    (hv : d.valid = true → c.valid = true) :
    { conn with objects := conn.objects.set ref d }.Covers held := by
  intro ref' href' c' hget' hv'
  by_cases hsame : ref' = ref
  · subst hsame
    have hself := List.getElem?_set_self (a := d) (List.getElem?_eq_some_iff.mp hget).1
    obtain rfl := Option.some.inj (hself.symm.trans hget')
    obtain ⟨c'', hc'', hfind⟩ := stores_iff.mp (h ref' href' c hget (hv hv'))
    obtain rfl := Option.some.inj (hget.symm.trans hc'')
    exact stores_iff.mpr ⟨d, hself, hid ▸ hfind⟩
  · have hother : (conn.objects.set ref d)[ref']? = conn.objects[ref']? :=
      List.getElem?_set_ne (Ne.symm hsame)
    obtain ⟨c'', hc'', hfind⟩ := stores_iff.mp (h ref' href' c' (hother.symm.trans hget') hv')
    exact stores_iff.mpr ⟨c'', hother.trans hc'', hfind⟩

/-- A new channel is stored under an id that was free. -/
theorem covers_insert {conn : Connection} {held : List Nat} (h : conn.Covers held) {id : UInt16}
    (hfree : conn.findChannel id = none) (next : UInt16) :
    { conn with
      nextChannelId := next
      channels := conn.channels.insert id conn.objects.length
      objects := conn.objects ++ [({ id := id } : Channel)] }.Covers
        (held ++ [conn.objects.length]) := by
  intro ref href c hget hv
  by_cases hold : ref < conn.objects.length
  · have hmem : ref ∈ held := by
      rcases List.mem_append.mp href with href | href
      · exact href
      · exact absurd (List.mem_singleton.mp href) (Nat.ne_of_lt hold)
    have hget' := List.getElem?_append_left hold |>.symm.trans hget
    obtain ⟨c', hc', hfind⟩ := stores_iff.mp (h ref hmem c hget' hv)
    obtain rfl := Option.some.inj (hget'.symm.trans hc')
    refine stores_iff.mpr ⟨c, hget, (Finmap.lookup_insert_of_ne _ ?_).trans hfind⟩
    rintro rfl
    rw [hfree] at hfind
    exact absurd hfind (by simp)
  · obtain ⟨hlt, -⟩ := List.getElem?_eq_some_iff.mp hget
    simp only [List.length_append, List.length_singleton] at hlt
    obtain rfl : ref = conn.objects.length := by omega
    have hlast : (conn.objects ++ [({ id := id } : Channel)])[conn.objects.length]? =
        some { id := id } := by simp
    exact stores_iff.mpr ⟨_, hlast, Finmap.lookup_insert _⟩

/-- The entry that is erased is that of the destroyed channel. -/
theorem covers_erase {conn : Connection} {held : List Nat} (h : conn.Covers held) {ref : Nat}
    (hown : ∀ c ref', conn.objects[ref]? = some c → conn.findChannel c.id = some ref' →
      ref' = ref) : (conn.destroyChannel ref).Covers held := by
  cases hget : conn.objects[ref]? with
  | none => rwa [Connection.destroyChannel, hget]
  | some c =>
    rw [Connection.destroyChannel_eq hget]
    intro ref' href' c' hget' hv
    by_cases hsame : ref' = ref
    · subst hsame
      rw [List.getElem?_set_self (List.getElem?_eq_some_iff.mp hget).1] at hget'
      obtain rfl := Option.some.inj hget'
      rw [close_valid] at hv
      exact absurd hv (by simp)
    · have hother : (conn.objects.set ref c.close.channel)[ref']? = conn.objects[ref']? :=
        List.getElem?_set_ne (Ne.symm hsame)
      obtain ⟨c'', hc'', hfind⟩ := stores_iff.mp (h ref' href' c' (hother.symm.trans hget') hv)
      refine stores_iff.mpr ⟨c'', hother.trans hc'', (Finmap.lookup_erase_ne ?_).trans hfind⟩
      intro hid
      exact hsame (hown c ref' hget (hid ▸ hfind))

/-- While there is a connection, the channels that are held and valid are stored. -/
def Covered (s : Lifetimes) : Prop := s.connected = true → s.conn.Covers s.held

theorem covered_drop {s : Lifetimes} (h : Covered s) (ref : Nat) : Covered (s.drop ref) := by
  rcases drop_cases s ref with ⟨-, -, hdrop⟩ | ⟨objects, hdrop, hkept⟩
  · rw [hdrop]
    exact h
  · rw [hdrop]
    exact fun hconn => covers_congr (h hconn) hkept

theorem covered_call {s : Lifetimes} (h : Covered s) {ref : Nat} {c : Channel}
    (hget : s.conn.objects[ref]? = some c) (op : Operation) (reply : RpcReply) :
    Covered (s.call ref c op reply) := by
  rcases call_cases s ref c op reply with ⟨-, -, hcall⟩ | ⟨queues, exchanges, hcall, -⟩
  · rw [hcall]
    exact h
  · rw [hcall]
    refine fun hconn => covers_set (h hconn) hget (perform_cases c reply op).1 fun hv => ?_
    by_contra hc
    rw [perform_of_invalid (Bool.eq_false_iff.mpr hc)] at hv
    exact hc hv

theorem covered_callLocked {s : Lifetimes} (h : Covered s) (ref : Nat) (op : Operation)
    (reply : RpcReply) : Covered (s.callLocked ref op reply) := by
  unfold callLocked
  split
  · rename_i c hlock
    exact covered_call h (lockChannel_eq_some hlock).1 op reply
  · exact h

theorem covered_create {s : Lifetimes} (h : Covered s)
    (hfree : s.conn.findChannel (s.conn.nextChannelId + 1) = none) (openReply : RpcReply) :
    Covered (s.createChannel openReply) := by
  unfold createChannel
  rcases s.conn.createChannel_cases openReply with
    ⟨-, hcreate⟩ | ⟨-, -, hcreate⟩ | ⟨-, -, ex, hcreate⟩
  · rw [hcreate]
    exact h
  · simp only [hcreate, hfree]
    exact fun hconn => covers_insert (h hconn) hfree _
  · rw [hcreate]
    exact h

theorem covered_destroy {s : Lifetimes} (h : Covered s) {ref : Nat}
    (hown : s.OwnEntry (.destroy ref)) : Covered (s.destroyChannel ref) := by
  have herased : Covered { s with conn := s.conn.destroyChannel ref } :=
    fun hconn => covers_erase (h hconn) hown
  unfold destroyChannel
  split
  · exact covered_drop herased _
  · exact herased

/-- A step that replaces or erases no entry but its own keeps the channels covered. -/
theorem covered_step {s s' : Lifetimes} {e : Event} (hs : Covered s) (h : step s e = some s')
    (hown : s.OwnEntry e) : Covered s' := by
  obtain ⟨-, hmove⟩ := step_move h
  cases hmove with
  | create openReply => exact covered_create hs hown openReply
  | destroy => exact covered_destroy hs hown
  | channel reply hget => exact covered_call hs hget _ reply
  | queue queue call reply => exact covered_callLocked hs _ _ reply
  | exchange exchange routingKey message status => exact covered_callLocked hs _ _ _
  | releaseConnection => exact fun hconn => absurd hconn (by simp [releaseConnection])
  | @releaseChannel ref hheld =>
    refine covered_drop (s := { s with held := s.held.filter (· ≠ ref) }) ?_ ref
    exact fun hconn r hr => hs hconn r (List.mem_of_mem_filter hr)
  | releaseQueue | releaseExchange => exact hs

/-- **While the ids do not collide**, only the use of queues and exchanges can go wrong. -/
theorem clean_of_ownEntry (channelMax : UInt16) {es : List Event}
    (h : Always step (fun s e => s.OwnEntry e ∧ s.Used e) (fresh channelMax) es) :
    Everywhere step Clean (fresh channelMax) es := by
  have hkept : ∀ s e s', Sound s ∧ Covered s → step s e = some s' → s.OwnEntry e ∧ s.Used e →
      Sound s' ∧ Covered s' := by
    rintro s e s' ⟨hs, hcovered⟩ hstep ⟨hown, hused⟩
    refine ⟨sound_step hs hstep ?_, covered_step hcovered hstep hown⟩
    by_cases he : e = .releaseConnection
    · subst he
      cases (step_move hstep).2 with
      | releaseConnection hconn => exact hcovered hconn
    · exact hused he
  exact everywhere_of_always (fun _ hs => hs.1.toClean) hkept
    ⟨sound_fresh channelMax, fun _ _ href => absurd href List.not_mem_nil⟩ h

/-- A queue and its channel are used while they exist, and outlive the connection. -/
theorem clean_orderly :
    Everywhere step Clean (fresh 20)
      [.create .normal, .channel 0 (.declareQueue (ascii "jobs") true false false) .normal,
        .queue ⟨ascii "jobs", 0⟩ .purge .normal, .releaseConnection,
        .channel 0 (.basicQos 1 false) .normal, .queue ⟨ascii "jobs", 0⟩ .remove .normal,
        .releaseChannel 0] := by
  refine (clean_iff 20 _).1 ?_
  refine always_cons rfl trivial (always_cons rfl trivial ?_)
  refine always_cons rfl ⟨_, rfl⟩ ?_
  refine always_cons rfl ?_ ?_
  · intro ref href c _ _
    rw [List.mem_singleton.mp href]
    rfl
  refine always_cons rfl trivial ?_
  refine always_cons rfl ⟨_, rfl⟩ ?_
  exact always_cons rfl trivial trivial

/-- A queue is used when its channel was destroyed and released; and an exchange publishes on a
channel that was destroyed, which returns `AMQP_STATUS_OK`. -/
theorem not_clean_orphan :
    ¬ Everywhere step Clean (fresh 20)
        [.create .normal, .channel 0 (.declareQueue (ascii "jobs") true false false) .normal,
          .destroy 0, .releaseChannel 0, .queue ⟨ascii "jobs", 0⟩ .purge .normal] ∧
      ¬ Everywhere step Clean (fresh 20)
        [.create .normal, .channel 0 (.declareExchange (ascii "logs") .fanout true false) .normal,
          .destroy 0, .exchange ⟨ascii "logs", 0⟩ (ascii "k") { data := ascii "m" } 0] := by
  constructor
  · rw [everywhere_iff_reached]
    intro h
    have hs := h _ _ (List.prefix_refl _) rfl
    exact absurd hs.no_null (by decide)
  · rw [everywhere_iff_reached]
    intro h
    have hs := h _ _ (List.prefix_refl _) rfl
    exact absurd (hs.answered ⟨false, true⟩ (by decide) rfl) (by decide)

end Lifetimes

end WinterWind.Amqp
