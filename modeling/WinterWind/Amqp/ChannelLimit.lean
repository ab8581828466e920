import WinterWind.Amqp.Connection

/-!
# The channel limit (`set_heartbeat_interval` in `src/core/amqp/connection.cpp`)

A `LoggedIn` is a connection with the channel maximum that the login negotiated. The connection's
`channelMax` is what the library holds, so what `get_channel_max` returns: the same until
`set_heartbeat_interval` calls `amqp_tune_connection(m_conn, 0, m_frame_max, interval)`, which
stores its arguments, the 0 among them, before it can fail.

* `refused` lists the sizes of `m_channels` at the calls of `create_channel` that returned null.
* The frame size and the heartbeat that the library stores are not modelled: nothing reads them.

Results:
* `respectsLimit_of_untuned`: without `set_heartbeat_interval` the limit is respected.
* **`respectsLimit_iff`**: the limit is respected in every state of a run iff whenever a channel is
  created after the maximum was lost, `m_channels` is neither empty nor full.
-/

namespace WinterWind.Amqp

open Library

/-- A connection after its login. -/
structure LoggedIn where
  conn : Connection
  negotiated : UInt16
  heartbeatInterval : UInt32 := 0
  refused : List Nat := []

namespace LoggedIn

/-- `Connection::create_channel`. -/
def createChannel (s : LoggedIn) (openReply : RpcReply) : LoggedIn :=
  match s.conn.createChannel openReply with
  | (.ok none, conn) =>
    { s with conn := conn, refused := s.refused ++ [s.conn.channels.keys.card] }
  | (_, conn) => { s with conn := conn }

/-- `Connection::set_heartbeat_interval(interval)`; `tuned` is whether `amqp_tune_connection`
returns `AMQP_STATUS_OK`. -/
def setHeartbeatInterval (s : LoggedIn) (interval : UInt32) (tuned : Bool) : Bool × LoggedIn :=
  let s := { s with conn := { s.conn with channelMax := 0 } }
  if tuned then (true, { s with heartbeatInterval := interval }) else (false, s)

/-- A call. -/
inductive Event where
  | create (openReply : RpcReply)
  | destroy (ref : Nat)
  | setHeartbeatInterval (interval : UInt32) (tuned : Bool)

/-- One call. A reference must be that of a created channel. -/
def step (s : LoggedIn) : Event → Option LoggedIn
  | .create openReply => some (s.createChannel openReply)
  | .destroy ref =>
    if ref < s.conn.objects.length then some { s with conn := s.conn.destroyChannel ref } else none
  | .setHeartbeatInterval interval tuned => some (s.setHeartbeatInterval interval tuned).2

/-- A login that negotiated a maximum. -/
def login (negotiated : UInt16) : LoggedIn :=
  { conn := { channelMax := negotiated }, negotiated := negotiated }

/-- `m_channels.size()`. -/
def size (s : LoggedIn) : Nat := s.conn.channels.keys.card

/-- There are not more channels than were negotiated, and none was refused below that. -/
structure RespectsLimit (s : LoggedIn) : Prop where
  size_le : s.size ≤ s.negotiated.toNat
  refused_full : ∀ n ∈ s.refused, s.negotiated.toNat ≤ n

/-- The condition on a step: when the library no longer holds the negotiated maximum, a channel is
created only while there is one already, and either there are fewer than negotiated or the new one
is not added to them: it cannot be opened, or takes the place of another. -/
def Counted (s : LoggedIn) : Event → Prop
  | .create openReply => s.conn.channelMax = s.negotiated ∨
      0 < s.size ∧ (s.size < s.negotiated.toNat ∨ openReply ≠ .normal ∨
        s.conn.nextChannelId + 1 ∈ s.conn.channels)
  | _ => True

/-- What the runs keep: the library holds the negotiated maximum, or 0. -/
structure Within (s : LoggedIn) : Prop extends RespectsLimit s where
  channelMax_eq : s.conn.channelMax = s.negotiated ∨ s.conn.channelMax = 0

/-! ## Steps -/

/-- **The kinds of steps.** -/
inductive Move (s : LoggedIn) : Event → LoggedIn → Prop
  | refuse (openReply : RpcReply) (hfull : s.size = s.conn.channelMax.toNat) :
      Move s (.create openReply) { s with refused := s.refused ++ [s.size] }
  | fail {openReply : RpcReply} (hfull : s.size ≠ s.conn.channelMax.toNat)
      (hreply : openReply ≠ .normal) :
      Move s (.create openReply)
        { s with conn := { s.conn with nextChannelId := s.conn.nextChannelId + 1 } }
  | create (hfull : s.size ≠ s.conn.channelMax.toNat) :
      Move s (.create .normal) { s with
        conn := { s.conn with
          nextChannelId := s.conn.nextChannelId + 1
          channels := s.conn.channels.insert (s.conn.nextChannelId + 1) s.conn.objects.length
          objects := s.conn.objects ++ [{ id := s.conn.nextChannelId + 1 }] } }
  | destroy {ref : Nat} {c : Channel} (hget : s.conn.objects[ref]? = some c) :
      Move s (.destroy ref) { s with
        conn := { s.conn with
          channels := s.conn.channels.erase c.id
          objects := s.conn.objects.set ref c.close.channel } }
  | tune (interval : UInt32) (tuned : Bool) :
      Move s (.setHeartbeatInterval interval tuned) (s.setHeartbeatInterval interval tuned).2

theorem step_move {s s' : LoggedIn} {e : Event} (h : step s e = some s') : Move s e s' := by
  cases e with
  | create openReply =>
    obtain rfl := Option.some.inj h
    unfold createChannel
    rcases s.conn.createChannel_cases openReply with
      ⟨hfull, hcreate⟩ | ⟨hfull, rfl, hcreate⟩ | ⟨hfull, hreply, ex, hcreate⟩
    · rw [hcreate]
      exact .refuse openReply hfull
    · rw [hcreate]
      exact .create hfull
    · rw [hcreate]
      exact .fail hfull hreply
  | destroy ref =>
    simp only [step] at h
    split at h
    · rename_i hlt
      obtain rfl := Option.some.inj h
      have hget := List.getElem?_eq_getElem hlt
      rw [Connection.destroyChannel_eq hget]
      exact .destroy hget
    · simp at h
  | setHeartbeatInterval interval tuned =>
    obtain rfl := Option.some.inj h
    exact .tune interval tuned

theorem card_insert (channels : UnorderedMap UInt16 Nat) (id : UInt16) (ref : Nat) :
    (channels.insert id ref).keys.card =
      if id ∈ channels then channels.keys.card else channels.keys.card + 1 := by
  have hkeys : (channels.insert id ref).keys = insert id channels.keys := by
    ext a
    simp [Finmap.mem_keys, Finmap.mem_insert]
  rw [hkeys, Finset.card_insert_eq_ite]
  simp only [Finmap.mem_keys]

theorem card_erase_le (channels : UnorderedMap UInt16 Nat) (id : UInt16) :
    (channels.erase id).keys.card ≤ channels.keys.card := by
  rw [Finmap.keys_erase]
  exact Finset.card_erase_le

/-- A refused call adds the size at which it was refused. -/
theorem refused_append {s : LoggedIn} (h : ∀ n ∈ s.refused, s.negotiated.toNat ≤ n)
    (hfull : s.negotiated.toNat ≤ s.size) :
    ∀ n ∈ s.refused ++ [s.size], s.negotiated.toNat ≤ n := by
  intro n hn
  rcases List.mem_append.mp hn with hn | hn
  · exact h n hn
  · rw [List.mem_singleton.mp hn]
    exact hfull

/-- A step that meets the condition respects the limit. -/
theorem within_step {s s' : LoggedIn} {e : Event} (hs : Within s) (h : step s e = some s')
    (hok : s.Counted e) : Within s' := by
  cases step_move h with
  | refuse openReply hfull =>
    refine ⟨⟨hs.size_le, refused_append hs.refused_full ?_⟩, hs.channelMax_eq⟩
    rcases hok with hheld | ⟨hpos, -⟩
    · rw [hfull, hheld]
    · rcases hs.channelMax_eq with hheld | hlost
      · rw [hfull, hheld]
      · rw [hfull, hlost] at hpos
        exact absurd hpos (by decide)
  | fail hfull hreply => exact ⟨⟨hs.size_le, hs.refused_full⟩, hs.channelMax_eq⟩
  | create hfull =>
    refine ⟨⟨?_, hs.refused_full⟩, hs.channelMax_eq⟩
    have hle := hs.size_le
    have hadd : s.conn.nextChannelId + 1 ∉ s.conn.channels → s.size < s.negotiated.toNat := by
      intro hnew
      rcases hok with hheld | ⟨-, hlt | hreply | hold⟩
      · rw [hheld] at hfull
        omega
      · exact hlt
      · exact absurd rfl hreply
      · exact absurd hold hnew
    unfold size at hadd hle ⊢
    rw [card_insert]
    split
    · exact hle
    · rename_i hnew
      exact hadd hnew
  | @destroy ref c hget =>
    exact ⟨⟨(card_erase_le s.conn.channels c.id).trans hs.size_le, hs.refused_full⟩,
      hs.channelMax_eq⟩
  | tune interval tuned =>
    cases tuned <;> exact ⟨⟨hs.size_le, hs.refused_full⟩, Or.inr rfl⟩

/-- A step that does not meet the condition refuses too early, or adds one channel too many. -/
theorem not_respectsLimit_step {s s' : LoggedIn} {e : Event} (hs : Within s)
    (h : step s e = some s') (hbad : ¬ s.Counted e) : ¬ RespectsLimit s' := by
  intro hs'
  apply hbad
  have hpos : s.size ≠ s.conn.channelMax.toNat → s.conn.channelMax = 0 → 0 < s.size := by
    intro hfull hlost
    rw [hlost] at hfull
    exact Nat.pos_of_ne_zero hfull
  cases step_move h with
  | refuse openReply hfull =>
    have hlast := hs'.refused_full s.size (List.mem_append_right _ (List.mem_singleton_self _))
    refine Or.inl (hs.channelMax_eq.elim id fun hlost => ?_)
    -- refused at 0, so the negotiated maximum is 0 as well
    rw [hfull, hlost] at hlast
    rw [hlost, ← UInt16.toNat_inj]
    exact (Nat.le_zero.mp hlast).symm
  | fail hfull hreply => exact hs.channelMax_eq.imp_right fun hlost =>
      ⟨hpos hfull hlost, Or.inr (Or.inl hreply)⟩
  | create hfull =>
    refine hs.channelMax_eq.imp_right fun hlost => ⟨hpos hfull hlost, ?_⟩
    have hle := hs'.size_le
    unfold size at hle ⊢
    rw [card_insert] at hle
    split at hle
    · rename_i hold
      exact Or.inr (Or.inr hold)
    · exact Or.inl hle
  | @destroy ref c hget => trivial
  | tune interval tuned => trivial

/-! ## Runs -/

theorem within_login (negotiated : UInt16) : Within (login negotiated) :=
  ⟨⟨Nat.zero_le _, fun _ hn => absurd hn List.not_mem_nil⟩, Or.inl rfl⟩

/-- **The negotiated limit is respected** in every state of a run exactly when every step of the
run meets `Counted`. -/
theorem respectsLimit_iff (negotiated : UInt16) (es : List Event) :
    Everywhere step RespectsLimit (login negotiated) es ↔
      Always step Counted (login negotiated) es :=
  everywhere_iff_always (fun _ hs => hs.toRespectsLimit) (fun _ _ _ => within_step)
    (fun _ _ _ => not_respectsLimit_step) (within_login negotiated)

/-- Only `set_heartbeat_interval` loses the negotiated maximum. -/
theorem channelMax_step {s s' : LoggedIn} {e : Event} (h : step s e = some s')
    (he : ∀ interval tuned, e ≠ .setHeartbeatInterval interval tuned) :
    s'.conn.channelMax = s.conn.channelMax ∧ s'.negotiated = s.negotiated := by
  cases step_move h with
  | refuse | fail | create | destroy => exact ⟨rfl, rfl⟩
  | tune interval tuned => exact absurd rfl (he interval tuned)

theorem always_counted_of_untuned {es : List Event}
    (h : ∀ e ∈ es, ∀ interval tuned, e ≠ .setHeartbeatInterval interval tuned) :
    ∀ {s : LoggedIn}, s.conn.channelMax = s.negotiated → Always step Counted s es := by
  induction es with
  | nil => exact fun _ => trivial
  | cons e es ih =>
    intro s hs s' hs'
    rw [List.forall_mem_cons] at h
    obtain ⟨hmax, hneg⟩ := channelMax_step hs' h.1
    refine ⟨?_, ih h.2 (by rw [hmax, hneg, hs])⟩
    cases e with
    | create openReply => exact Or.inl hs
    | destroy | setHeartbeatInterval => trivial

/-- **Without `set_heartbeat_interval`** the limit is respected. -/
theorem respectsLimit_of_untuned (negotiated : UInt16) {es : List Event}
    (h : ∀ e ∈ es, ∀ interval tuned, e ≠ .setHeartbeatInterval interval tuned) :
    Everywhere step RespectsLimit (login negotiated) es :=
  everywhere_of_always (fun _ hs => hs.toRespectsLimit) (fun _ _ _ => within_step)
    (within_login negotiated) (always_counted_of_untuned h rfl)

/-- After the heartbeat was set, the first channel is refused; or, with a channel open already, the
limit is not looked at any more. -/
theorem not_respectsLimit_tuned :
    ¬ Everywhere step RespectsLimit (login 2047)
        [.setHeartbeatInterval 60 true, .create .normal] ∧
      ¬ Everywhere step RespectsLimit (login 1)
        [.create .normal, .setHeartbeatInterval 60 true, .create .normal] := by
  constructor
  · rw [everywhere_iff_reached]
    intro h
    have hs := h _ _ (List.prefix_refl _) rfl
    exact absurd (hs.refused_full 0 (by decide)) (by decide)
  · rw [everywhere_iff_reached]
    intro h
    have hs := h _ _ (List.prefix_refl _) rfl
    exact absurd hs.size_le (by decide)

end LoggedIn

end WinterWind.Amqp
