import WinterWind.Amqp.Consuming
import WinterWind.Library.CheckedInt64

/-!
# Timeouts in milliseconds (`src/core/utils/semaphore.cpp`, `src/core/amqp/connection.cpp`)

`Semaphore::wait(time_ms)` adds its timeout to the time of day; `Connection::consume_one` passes its
own as a `timeval`.

* `unsigned int` wraps around modulo `2^32`, and the overflow of a `long` is undefined.
* `sem_timedwait` is a parameter: what it returns for a moment, or the `errno` it sets.

Results:
* `waitTime_eq_some_iff`: the moment that is waited for.
* `waitsExactly_iff`: it is exactly the timeout later, as long as its seconds fit a `time_t`.
* `semaphoreWait_returns`: so the assertion on the `errno` holds.
* `timesOutExactly_iff`: the other timeout is a number of microseconds, so none is right.
* **`convertsExactly_iff`**: the two together.
-/

namespace WinterWind.Utils

open Amqp Library

/-! ## The source functions -/

/-- A `timespec`. -/
structure Timespec where
  sec : Int64
  nsec : Int64
  deriving Repr, DecidableEq

/-- `wait_time`. The milliseconds are multiplied as an `unsigned int`, and then converted. -/
def waitTime (timeMs : UInt32) (now : Timeval) : Option Timespec := do
  let usec ← checkedMul now.usec 1000
  let nsec ← checkedAdd ((timeMs % 1000) * 1000 * 1000).toUInt64.toInt64 usec
  let sec ← checkedAdd (timeMs / 1000).toUInt64.toInt64 (nsec / (1000 * 1000 * 1000))
  let sec ← checkedAdd sec now.sec
  return ⟨sec, nsec % (1000 * 1000 * 1000)⟩

/-- What `sem_timedwait` returns: 0, or the `errno` of a failure. -/
inductive TimedWait where
  | acquired
  | timedOut
  | interrupted
  | invalid
  deriving Repr, DecidableEq

/-- What `wait` makes of it: `none` is a failed assertion. -/
def TimedWait.result : TimedWait → Option Bool
  | acquired => some true
  | timedOut | interrupted => some false
  | invalid => none

/-- `Semaphore::wait(time_ms)`, after what `gettimeofday` answers: `none` is the end of the
program, by `abort` or an assertion. -/
def semaphoreWait (gettimeofday : Option Timeval) (semTimedwait : Timespec → TimedWait)
    (timeMs : UInt32) : Except Fault (Option Bool) :=
  match gettimeofday with
  | none => return none
  | some now => do
    let waitTime ← orFault .undefinedBehaviour (waitTime timeMs now)
    return (semTimedwait waitTime).result

/-! ## What the times denote -/

/-- In microseconds. -/
def microseconds (t : Timeval) : Int := t.sec.toInt * 10 ^ 6 + t.usec.toInt

/-- In nanoseconds. -/
def Timespec.nanoseconds (t : Timespec) : Int := t.sec.toInt * 10 ^ 9 + t.nsec.toInt

/-- `wait` waits until exactly the timeout later, and no multiplication wraps around. -/
structure WaitsExactly (timeMs : UInt32) (now : Timeval) : Prop where
  noWrap : (timeMs % 1000 * 1000).toNat = timeMs.toNat % 1000 * 1000 ∧
    (timeMs % 1000 * 1000 * 1000).toNat = timeMs.toNat % 1000 * 1000 * 1000
  waits : ∃ t : Timespec, 0 ≤ t.nsec.toInt ∧ t.nsec.toInt < 10 ^ 9 ∧
    t.nanoseconds = microseconds now * 10 ^ 3 + timeMs.toNat * 10 ^ 6 ∧
    ∀ semTimedwait, semaphoreWait (some now) semTimedwait timeMs = .ok (semTimedwait t).result

/-- `consume_one` passes exactly its timeout, if it is not zero. -/
def TimesOutExactly (waitTimeoutMs : UInt64) : Prop :=
  waitTimeoutMs ≠ 0 → ∃ tv, consumeTimeout waitTimeoutMs = some tv ∧
    0 ≤ tv.usec.toInt ∧ tv.usec.toInt < 10 ^ 6 ∧ microseconds tv = waitTimeoutMs.toNat * 10 ^ 3

/-- Both timeouts are converted exactly. -/
structure ConvertsExactly (timeMs : UInt32) (now : Timeval) (waitTimeoutMs : UInt64) : Prop where
  wait : WaitsExactly timeMs now
  consume : TimesOutExactly waitTimeoutMs

/-! ## The semaphore -/

/-- No multiplication wraps around. -/
theorem toNat_mul_thousand (timeMs : UInt32) :
    (timeMs % 1000 * 1000).toNat = timeMs.toNat % 1000 * 1000 ∧
      (timeMs % 1000 * 1000 * 1000).toNat = timeMs.toNat % 1000 * 1000 * 1000 := by
  have hthousand : (1000 : UInt32).toNat = 1000 := rfl
  have hfirst : (timeMs % 1000 * 1000).toNat = timeMs.toNat % 1000 * 1000 := by
    rw [UInt32.toNat_mul, UInt32.toNat_mod, hthousand]
    exact Nat.mod_eq_of_lt (by omega)
  refine ⟨hfirst, ?_⟩
  rw [UInt32.toNat_mul, hfirst, hthousand]
  exact Nat.mod_eq_of_lt (by omega)

/-- Up to the sum with the seconds of the clock nothing overflows. -/
theorem waitTime_eq (timeMs : UInt32) {now : Timeval} (hlow : 0 ≤ now.usec.toInt)
    (hhigh : now.usec.toInt < 10 ^ 6) : ∃ sec nsec : Int64,
      sec.toInt = timeMs.toNat / 1000 +
        (timeMs.toNat % 1000 * 10 ^ 6 + now.usec.toInt * 1000) / 10 ^ 9 ∧
      nsec.toInt = (timeMs.toNat % 1000 * 10 ^ 6 + now.usec.toInt * 1000) % 10 ^ 9 ∧
      waitTime timeMs now = (checkedAdd sec now.sec).map fun sec => ⟨sec, nsec⟩ := by
  have hms : ((timeMs % 1000) * 1000 * 1000).toUInt64.toInt64.toInt =
      timeMs.toNat % 1000 * 10 ^ 6 := by
    rw [toInt_toUInt64_toInt64, (toNat_mul_thousand timeMs).2]
    omega
  have hs : (timeMs / 1000).toUInt64.toInt64.toInt = timeMs.toNat / 1000 := by
    rw [toInt_toUInt64_toInt64, UInt32.toNat_div]
    rfl
  have hus : now.usec.toInt * (1000 : Int64).toInt = now.usec.toInt * 1000 := rfl
  have hbillion : (1000 * 1000 * 1000 : Int64).toInt = 10 ^ 9 := rfl
  have htime := timeMs.toNat_lt
  -- no sum of the nanoseconds reaches two seconds
  obtain ⟨usec, husec, husecInt⟩ : ∃ usec, checkedMul now.usec 1000 = some usec ∧
      usec.toInt = now.usec.toInt * (1000 : Int64).toInt :=
    exists_checkedMul (by omega) (by omega)
  obtain ⟨nsec, hnsec, hnsecInt⟩ : ∃ nsec,
      checkedAdd ((timeMs % 1000) * 1000 * 1000).toUInt64.toInt64 usec = some nsec ∧
        nsec.toInt = ((timeMs % 1000) * 1000 * 1000).toUInt64.toInt64.toInt + usec.toInt :=
    exists_checkedAdd (by omega) (by omega)
  rw [husecInt, hms, hus] at hnsecInt
  have hpos : 0 ≤ nsec.toInt := by omega
  have hdiv : (nsec / (1000 * 1000 * 1000)).toInt = nsec.toInt / 10 ^ 9 := by
    rw [toInt_div hpos (by rw [hbillion]; omega), hbillion]
  have hmod : (nsec % (1000 * 1000 * 1000)).toInt = nsec.toInt % 10 ^ 9 := by
    rw [toInt_mod hpos, hbillion]
  obtain ⟨sec, hsec, hsecInt⟩ : ∃ sec,
      checkedAdd (timeMs / 1000).toUInt64.toInt64 (nsec / (1000 * 1000 * 1000)) = some sec ∧
        sec.toInt = (timeMs / 1000).toUInt64.toInt64.toInt +
          (nsec / (1000 * 1000 * 1000)).toInt :=
    exists_checkedAdd (by omega) (by omega)
  refine ⟨sec, nsec % (1000 * 1000 * 1000), ?_, ?_, ?_⟩
  · rw [hsecInt, hs, hdiv, hnsecInt]
  · rw [hmod, hnsecInt]
  · rw [waitTime, husec]
    simp only [Option.bind_eq_bind, Option.bind_some, hnsec, hsec]
    exact Option.map_eq_bind.symm

/-- **The moment that is waited for.** -/
theorem waitTime_eq_some_iff (timeMs : UInt32) {now : Timeval} (hlow : 0 ≤ now.usec.toInt)
    (hhigh : now.usec.toInt < 10 ^ 6) (t : Timespec) : waitTime timeMs now = some t ↔
      t.nanoseconds = microseconds now * 10 ^ 3 + timeMs.toNat * 10 ^ 6 ∧
        0 ≤ t.nsec.toInt ∧ t.nsec.toInt < 10 ^ 9 := by
  obtain ⟨sec, nsec, hsec, hnsec, hwait⟩ := waitTime_eq timeMs hlow hhigh
  obtain ⟨tsec, tnsec⟩ := t
  have hsplit : waitTime timeMs now = some ⟨tsec, tnsec⟩ ↔
      tsec.toInt = sec.toInt + now.sec.toInt ∧ tnsec.toInt = nsec.toInt := by
    rw [hwait, Option.map_eq_some_iff]
    constructor
    · rintro ⟨c, hc, e⟩
      obtain ⟨rfl, rfl⟩ := Timespec.mk.inj e
      exact ⟨checkedAdd_eq_some_iff.mp hc, rfl⟩
    · rintro ⟨htsec, htnsec⟩
      exact ⟨tsec, checkedAdd_eq_some_iff.mpr htsec, congrArg _ (Int64.toInt_inj.mp htnsec).symm⟩
  rw [hsplit, hsec, hnsec, microseconds, Timespec.nanoseconds]
  constructor
  · rintro ⟨htsec, htnsec⟩
    dsimp only
    omega
  · rintro ⟨htotal, htlow, hthigh⟩
    dsimp only at htotal htlow hthigh
    omega

/-- **Exactly the timeout later**, if its seconds can be represented. -/
theorem waitsExactly_iff (timeMs : UInt32) {now : Timeval} (hlow : 0 ≤ now.usec.toInt)
    (hhigh : now.usec.toInt < 10 ^ 6) :
    WaitsExactly timeMs now ↔ microseconds now + timeMs.toNat * 10 ^ 3 < 2 ^ 63 * 10 ^ 6 := by
  constructor
  · intro h
    obtain ⟨t, -, hthigh, htotal, -⟩ := h.waits
    have hsec := t.sec.toInt_lt
    rw [Timespec.nanoseconds] at htotal
    omega
  · intro h
    have hnow := now.sec.le_toInt
    obtain ⟨total, htotal⟩ :
        ∃ total, total = microseconds now * 10 ^ 3 + timeMs.toNat * 10 ^ 6 := ⟨_, rfl⟩
    have hsecRange : -2 ^ 63 ≤ total / 10 ^ 9 ∧ total / 10 ^ 9 < 2 ^ 63 := by
      rw [microseconds] at htotal h
      omega
    obtain ⟨sec, hsec⟩ := exists_toInt_eq_iff.mpr hsecRange
    obtain ⟨nsec, hnsec⟩ := exists_toInt_eq_iff.mpr
      (show -2 ^ 63 ≤ total % 10 ^ 9 ∧ total % 10 ^ 9 < 2 ^ 63 by omega)
    have hsum : (⟨sec, nsec⟩ : Timespec).nanoseconds =
        microseconds now * 10 ^ 3 + timeMs.toNat * 10 ^ 6 := by
      rw [Timespec.nanoseconds, hsec, hnsec, ← htotal]
      omega
    have hnlow : 0 ≤ nsec.toInt := by omega
    have hnhigh : nsec.toInt < 10 ^ 9 := by omega
    have hwait := (waitTime_eq_some_iff timeMs hlow hhigh _).mpr ⟨hsum, hnlow, hnhigh⟩
    refine ⟨toNat_mul_thousand timeMs, ⟨sec, nsec⟩, hnlow, hnhigh, hsum, fun semTimedwait => ?_⟩
    rw [semaphoreWait, hwait]
    rfl

/-- A `sem_timedwait` that refuses only nanoseconds out of range never fails the assertion. -/
theorem semaphoreWait_returns (timeMs : UInt32) {now : Timeval} (hlow : 0 ≤ now.usec.toInt)
    (hhigh : now.usec.toInt < 10 ^ 6)
    (hfits : microseconds now + timeMs.toNat * 10 ^ 3 < 2 ^ 63 * 10 ^ 6)
    {semTimedwait : Timespec → TimedWait}
    (hsem : ∀ t, semTimedwait t = .invalid → ¬(0 ≤ t.nsec.toInt ∧ t.nsec.toInt < 10 ^ 9)) :
    ∃ acquired, semaphoreWait (some now) semTimedwait timeMs = .ok (some acquired) := by
  obtain ⟨t, htlow, hthigh, -, hwait⟩ := ((waitsExactly_iff timeMs hlow hhigh).mpr hfits).waits
  rw [hwait]
  cases hanswer : semTimedwait t with
  | acquired => exact ⟨true, rfl⟩
  | timedOut | interrupted => exact ⟨false, rfl⟩
  | invalid => exact absurd ⟨htlow, hthigh⟩ (hsem t hanswer)

/-! ## The connection -/

/-- **Never the timeout that was asked for**: its milliseconds are passed as microseconds. -/
theorem timesOutExactly_iff (waitTimeoutMs : UInt64) :
    TimesOutExactly waitTimeoutMs ↔ waitTimeoutMs = 0 := by
  refine ⟨fun h => ?_, fun h hne => absurd h hne⟩
  by_contra hne
  obtain ⟨tv, htv, hlow, hhigh, htotal⟩ := h hne
  rw [consumeTimeout, if_neg hne] at htv
  obtain rfl := Option.some.inj htv
  have hpos : waitTimeoutMs.toNat ≠ 0 := fun h0 => hne (UInt64.toNat_inj.mp h0)
  have husec : waitTimeoutMs.toInt64.toInt = waitTimeoutMs.toNat := toInt_toInt64_of_nonneg hlow
  have hzero : (0 : Int64).toInt = 0 := rfl
  rw [microseconds, hzero, husec] at htotal
  omega

/-- **When both timeouts are converted exactly**: when the moment can be represented, and no wait is
asked for of the connection. -/
theorem convertsExactly_iff (timeMs : UInt32) {now : Timeval} (hlow : 0 ≤ now.usec.toInt)
    (hhigh : now.usec.toInt < 10 ^ 6) (waitTimeoutMs : UInt64) :
    ConvertsExactly timeMs now waitTimeoutMs ↔
      microseconds now + timeMs.toNat * 10 ^ 3 < 2 ^ 63 * 10 ^ 6 ∧ waitTimeoutMs = 0 := by
  rw [← waitsExactly_iff timeMs hlow hhigh, ← timesOutExactly_iff]
  exact ⟨fun h => ⟨h.wait, h.consume⟩, fun h => ⟨h.1, h.2⟩⟩

/-- A carry of the microseconds. -/
theorem convertsExactly_iff_carry : ConvertsExactly 1001 ⟨1500000000, 999999⟩ 0 ↔
    microseconds ⟨1500000000, 999999⟩ + (1001 : UInt32).toNat * 10 ^ 3 < 2 ^ 63 * 10 ^ 6 ∧
      (0 : UInt64) = 0 :=
  convertsExactly_iff 1001 (by decide) (by decide) 0

/-- A second is passed as a millisecond. -/
theorem not_convertsExactly_second : ¬ConvertsExactly 0 ⟨1500000000, 0⟩ 1000 := by
  intro h
  obtain ⟨tv, htv, -, -, htotal⟩ := h.consume (by decide)
  obtain rfl := Option.some.inj htv
  exact absurd htotal (by decide)

end WinterWind.Utils
