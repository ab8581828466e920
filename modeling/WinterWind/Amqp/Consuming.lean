import WinterWind.Amqp.Connection

/-!
# The consuming loop (`src/core/amqp/connection.cpp`)

`start_consuming` calls `consume_one` until somebody calls `stop` or an error is returned. A `Round`
is what one turn of the loop finds: `m_stop`, the connection with its wait timeout, and the answers
of `amqp_consume_message` and `amqp_simple_wait_frame`.

* An answer carries the error code of the library. `consume_one` looks for
  `AMQP_STATUS_UNEXPECTED_STATE` alone (`ConsumeResult.reply`).
* `Round.Progress` is what `consume_one` may return `true` for: an envelope was handed to its
  channel, a frame that is not an error was handled, or the wait that was configured timed out.

Results:
* `consumeOne_of_unexpectedState`: the one library error whose frame is looked at.
* `progress_of_consumeOne_iff`: when `true` means progress.
* **`stopsOnErrors_iff`**: the loop ends at the first error iff every turn finds an envelope for a
  known channel, the code `AMQP_STATUS_UNEXPECTED_STATE`, or a timeout that was configured.
-/

namespace WinterWind.Amqp

/-- `AMQP_STATUS_UNEXPECTED_STATE`. -/
def amqpStatusUnexpectedState : Int32 := -0x10

/-- `AMQP_STATUS_TIMEOUT`. -/
def amqpStatusTimeout : Int32 := -0xD

/-- The `amqp_rpc_reply_t` of `amqp_consume_message`, with the envelope of a normal one and the
`library_error` of a library exception. -/
inductive ConsumeResult where
  | envelope (channel : UInt16) (received : Envelope)
  | libraryException (libraryError : Int32)
  | serverException
  deriving Repr, DecidableEq

/-- What `consume_one` tells apart. -/
def ConsumeResult.reply : ConsumeResult → ConsumeReply
  | .envelope channel received => .envelope channel received
  | .libraryException libraryError =>
    .libraryException (libraryError == amqpStatusUnexpectedState)
  | .serverException => .serverException

/-- A `timeval`. -/
structure Timeval where
  sec : Int64
  usec : Int64
  deriving Repr, DecidableEq

/-- The timeout `consume_one` passes: `m_wait_timeout_ms`, as microseconds. -/
def consumeTimeout (waitTimeoutMs : UInt64) : Option Timeval :=
  if waitTimeoutMs = 0 then none else some ⟨0, waitTimeoutMs.toInt64⟩

/-- A turn of the loop. -/
structure Round where
  stop : Bool
  conn : Connection
  waitTimeoutMs : UInt64
  result : ConsumeResult
  frame : Option Frame

namespace Round

/-- `Connection::consume_one`. -/
def consumeOne (r : Round) : Bool := (Amqp.consumeOne r.conn r.result.reply r.frame).1

/-- The frame is no error: not a method, an acknowledgement, or a returned message that was read
and belongs to a channel. -/
inductive NonFatal (conn : Connection) : Frame → Prop
  | other : NonFatal conn .other
  | ack (channel : UInt16) : NonFatal conn (.method channel .basicAck)
  | returned (channel : UInt16) (h : (conn.findChannel channel).isSome = true) :
      NonFatal conn (.method channel (.basicReturn true))

/-- What `consume_one` may return `true` for. -/
inductive Progress (r : Round) : Prop
  | distributed (channel : UInt16) (envelope : Envelope)
      (h : r.result = .envelope channel envelope)
      (hchannel : (r.conn.findChannel channel).isSome = true)
  | handled (frame : Frame) (h : r.result = .libraryException amqpStatusUnexpectedState)
      (hframe : r.frame = some frame) (hok : NonFatal r.conn frame)
  | timedOut (h : r.result = .libraryException amqpStatusTimeout)
      (hwait : (consumeTimeout r.waitTimeoutMs).isSome = true)

/-- The turn finds an envelope for a known channel, the unexpected state, or a timeout that was
configured. -/
def Handled (r : Round) : Prop :=
  match r.result with
  | .envelope channel _ => (r.conn.findChannel channel).isSome = true
  | .libraryException libraryError =>
    libraryError = amqpStatusUnexpectedState ∨
      libraryError = amqpStatusTimeout ∧ (consumeTimeout r.waitTimeoutMs).isSome = true
  | .serverException => False

end Round

/-- `Connection::start_consuming` over the turns it takes: `none` while it is running. -/
def startConsuming : List Round → Option Bool
  | [] => none
  | r :: rest =>
    if r.stop then some true
    else if !r.consumeOne then some false
    else startConsuming rest

/-- Consuming stops on errors: a turn that is reached returns `true` for progress only, and at any
other the loop returns `false`. -/
structure StopsOnErrors (rounds : List Round) : Prop where
  returns : ∀ before r after, rounds = before ++ r :: after → startConsuming before = none →
    r.stop = false → r.consumeOne = true → r.Progress
  stops : ∀ before r after, rounds = before ++ r :: after → startConsuming before = none →
    r.stop = false → ¬r.Progress → startConsuming (before ++ [r]) = some false

/-! ## One turn -/

/-- In the unexpected state, what is returned depends on the frame that follows. -/
theorem consumeOne_of_unexpectedState {r : Round}
    (h : r.result = .libraryException amqpStatusUnexpectedState) :
    r.consumeOne = true ↔ ∃ frame, r.frame = some frame ∧ Round.NonFatal r.conn frame := by
  have hreply : r.result.reply = .libraryException true := by
    simp [h, ConsumeResult.reply]
  rw [Round.consumeOne, hreply]
  cases hframe : r.frame with
  | none => simp [consumeOne]
  | some frame =>
    simp only [Option.some.injEq, exists_eq_left']
    cases frame with
    | other => exact iff_of_true rfl .other
    | method channel method =>
      cases method with
      | basicAck => exact iff_of_true rfl (.ack channel)
      | basicReturn messageRead =>
        cases messageRead with
        | true => exact ⟨.returned channel, fun h => by cases h; assumption⟩
        | false => exact iff_of_false (by simp [consumeOne]) nofun
      | channelClose | connectionClose | other _ => exact iff_of_false (by simp [consumeOne]) nofun

/-- Any other answer that is not normal is returned as `true`. -/
theorem consumeOne_of_error {r : Round} (h : r.result = .serverException ∨
    ∃ libraryError, r.result = .libraryException libraryError ∧
      libraryError ≠ amqpStatusUnexpectedState) : r.consumeOne = true := by
  rcases h with h | ⟨libraryError, h, hne⟩
  · simp [Round.consumeOne, ConsumeResult.reply, consumeOne, h]
  · simp [Round.consumeOne, ConsumeResult.reply, consumeOne, h, beq_eq_false_iff_ne.mpr hne]

/-- **`true` means progress** iff the turn is one that `consume_one` handles. -/
theorem progress_of_consumeOne_iff (r : Round) :
    (r.consumeOne = true → r.Progress) ↔ r.Handled := by
  unfold Round.Handled
  cases hresult : r.result with
  | envelope channel received =>
    have htrue : r.consumeOne = true := by
      simp [Round.consumeOne, ConsumeResult.reply, consumeOne, hresult]
    constructor
    · intro h
      cases h htrue with
      | distributed _ _ h hchannel =>
        obtain ⟨rfl, -⟩ := ConsumeResult.envelope.inj (hresult.symm.trans h)
        exact hchannel
      | handled _ h | timedOut h => exact nomatch hresult.symm.trans h
    · exact fun hchannel _ => .distributed channel received hresult hchannel
  | libraryException libraryError =>
    by_cases hstate : libraryError = amqpStatusUnexpectedState
    · subst hstate
      refine iff_of_true (fun htrue => ?_) (Or.inl rfl)
      obtain ⟨frame, hframe, hok⟩ := (consumeOne_of_unexpectedState hresult).mp htrue
      exact .handled frame hresult hframe hok
    · have htrue := consumeOne_of_error (Or.inr ⟨libraryError, hresult, hstate⟩)
      constructor
      · intro h
        cases h htrue with
        | distributed _ _ h => exact nomatch hresult.symm.trans h
        | handled _ h =>
          exact absurd (ConsumeResult.libraryException.inj (hresult.symm.trans h)) hstate
        | timedOut h hwait =>
          exact Or.inr ⟨ConsumeResult.libraryException.inj (hresult.symm.trans h), hwait⟩
      · rintro (h | ⟨rfl, hwait⟩) _
        · exact absurd h hstate
        · exact .timedOut hresult hwait
  | serverException =>
    refine iff_of_false (fun h => ?_) not_false
    cases h (consumeOne_of_error (Or.inl hresult)) with
    | distributed _ _ h | handled _ h | timedOut h => exact nomatch hresult.symm.trans h

/-! ## The loop -/

/-- The loop goes on from where it is. -/
theorem startConsuming_append {before : List Round} (h : startConsuming before = none)
    (rest : List Round) : startConsuming (before ++ rest) = startConsuming rest := by
  induction before with
  | nil => rfl
  | cons r before ih =>
    rw [startConsuming] at h
    rw [List.cons_append, startConsuming]
    split at h
    · cases h
    · rename_i hstop
      split at h
      · cases h
      · rename_i htrue
        rw [if_neg hstop, if_neg htrue, ih h]

/-- The loop ends at a turn that returns `false`, and at no other. -/
theorem startConsuming_turn {before : List Round} {r : Round}
    (h : startConsuming before = none) (hstop : r.stop = false) :
    startConsuming (before ++ [r]) = some false ↔ r.consumeOne = false := by
  rw [startConsuming_append h]
  cases htrue : r.consumeOne <;> simp [startConsuming, hstop, htrue]

/-- **Consuming stops on errors** iff every turn that is reached is one `consume_one` handles. -/
theorem stopsOnErrors_iff (rounds : List Round) : StopsOnErrors rounds ↔
    ∀ before r after, rounds = before ++ r :: after → startConsuming before = none →
      r.stop = false → r.Handled := by
  constructor
  · intro h before r after hrounds hbefore hstop
    exact (progress_of_consumeOne_iff r).mp (h.returns before r after hrounds hbefore hstop)
  · intro h
    constructor
    · intro before r after hrounds hbefore hstop
      exact (progress_of_consumeOne_iff r).mpr (h before r after hrounds hbefore hstop)
    · intro before r after hrounds hbefore hstop hprogress
      have hhandled := (progress_of_consumeOne_iff r).mpr (h before r after hrounds hbefore hstop)
      rw [startConsuming_turn hbefore hstop]
      exact Bool.eq_false_iff.mpr (mt hhandled hprogress)

/-- The socket was closed: `AMQP_STATUS_SOCKET_CLOSED`, with no wait timeout. -/
def deadRound : Round where
  stop := false
  conn := { channelMax := 2047 }
  waitTimeoutMs := 0
  result := .libraryException (-0x11)
  frame := none

/-- On a dead connection `consume_one` returns `true`, and `start_consuming` goes on. -/
theorem not_stopsOnErrors_closed : ¬StopsOnErrors [deadRound] := by
  intro h
  have hprogress := h.returns [] deadRound [] rfl rfl rfl
    (consumeOne_of_error (Or.inr ⟨_, rfl, by decide⟩))
  cases hprogress with
  | distributed _ _ h => cases h
  | handled _ h => exact absurd (ConsumeResult.libraryException.inj h) (by decide)
  | timedOut h => exact absurd (ConsumeResult.libraryException.inj h) (by decide)

end WinterWind.Amqp
