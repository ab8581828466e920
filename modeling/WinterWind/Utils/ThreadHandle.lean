import WinterWind.Utils.Threads

/-!
# The handshake and the handle of a thread (`core/utils/threads.cpp`)

What the invariant of `Threads.lean` says about a run: how `start` and `the_thread` meet, and when
the `std::thread` behind `m_thread` is lost.

* `Handshake`: `run` is entered once `started` is set, `start` returns true after
  `ThreadStarted`, and nobody waits in a circle.
* `JoinableKept`: no joinable `std::thread` has been dropped, and `start` has answered false
  exactly when a worker was running.
* `NoneToJoin` is the condition on a step for the second: `kill` waits for a worker that has ended
  by itself, `start` does not.

Results:
* **`handshake`**: the handshake holds in every run.
* **`joinable_kept_iff`**: the handle is kept in the runs in which no `start` comes while a worker
  has ended and has not been waited for, and in no other.
-/

namespace WinterWind.Utils

open WinterWind.Library

namespace Thread

/-! ## The handshake -/

section Handshake

variable {s s' : Thread}

/-- No `start` is under way, or it has seen `m_running` and set `started`. -/
def pastStarted (s : Thread) : Bool :=
  match s.control with
  | .start .clearRequestStop | .start .lock1 | .start .create | .start .poll
  | .start .setStarted => false
  | _ => true

/-- The controller waits for a mutex that the worker holds. -/
def ControllerWaits (s : Thread) : Prop :=
  s.control = .start .lock1 ∧ s.continuemutex = some .worker ∨
    s.control = .start .lock2 ∧ s.continuemutex2 = some .worker

/-- The worker waits for a mutex that the controller holds. -/
def WorkerWaits (s : Thread) : Prop :=
  ∃ w, s.thread = some w ∧
    (w.pc = .lock1 ∧ s.continuemutex = some .controller ∨
      w.pc = .lock2 ∧ s.continuemutex2 = some .controller)

/-- The handshake between `start` and `the_thread`. -/
structure Handshake (s : Thread) : Prop where
  entered : ∀ w, s.thread = some w → w.pc.inRun = true →
    s.started = true ∧ s.pastStarted = true
  returned : ∀ r ∈ s.starts, r.result = true → r.threadStarted = true
  noDeadlock : ¬ (s.ControllerWaits ∧ s.WorkerWaits)

theorem Inv.entered (hs : s.Inv) {w : Worker} (hw : s.thread = some w)
    (hrun : w.pc.inRun = true) : s.started = true ∧ s.pastStarted = true := by
  have hshape := hs.shape
  obtain ⟨thread, started, running, requestStop, mutex1, mutex2, control⟩ := s
  change thread = some w at hw
  subst hw
  cases hshape with
  | idle h => cases h <;> exact ⟨rfl, rfl⟩
  | clearRequestStop h | lock1 h | create h =>
    cases h
    cases hrun
  | poll h => cases h <;> cases hrun
  | setStarted => cases hrun
  | unlock1 => cases hrun
  | lock2 h => exact ⟨rfl, rfl⟩
  | unlock2 h => exact ⟨rfl, rfl⟩
  | @testStarted caller running started thread h =>
    refine ⟨?_, rfl⟩
    cases started with
    | true => rfl
    | false => cases h.not_started.2
  | join h => exact ⟨rfl, rfl⟩
  | cancel h => exact ⟨rfl, rfl⟩

/-- `start` waits for `continuemutex2` only after it has unlocked `continuemutex`. -/
theorem Inv.noDeadlock (hs : s.Inv) : ¬ (s.ControllerWaits ∧ s.WorkerWaits) := by
  rintro ⟨⟨hcontrol, hmutex⟩ | ⟨hcontrol, hmutex⟩, w, -, hw⟩
  · have hshape := hs.shape
    rw [hcontrol, hmutex] at hshape
    generalize s.running = running at hshape
    generalize s.started = started at hshape
    generalize s.continuemutex2 = mutex2 at hshape
    generalize s.thread = thread at hshape
    cases hshape
  · have hshape := hs.shape
    rw [hcontrol, hmutex] at hshape
    rcases hw with ⟨-, hheld⟩ | ⟨-, hheld⟩
    · rw [hheld] at hshape
      generalize s.running = running at hshape
      generalize s.started = started at hshape
      generalize s.thread = thread at hshape
      cases hshape with
      | lock2 h => cases h
    · cases hheld.symm.trans hmutex

/-- **The start handshake holds.** Whatever the controller calls and however the two parties
interleave: the worker is in `run` only once `start` has seen `m_running` and set `started`; a
`start` that has returned true has done so after `ThreadStarted`; and the parties never wait for
each other's mutex. -/
theorem handshake (es : List ThreadEvent) : Everywhere step Handshake fresh es :=
  everywhere_of_always
    (fun _ hs => ⟨fun _ hw hrun => hs.entered hw hrun, hs.recorded.handshaken, hs.noDeadlock⟩)
    (fun _ _ _ hs h _ => inv_step hs h) inv_fresh (always_trivial es fresh)

end Handshake

/-! ## The handle -/

section Handle

variable {s s' : Thread}

/-- No joinable handle has been dropped, and every `start` that has returned has returned false
exactly when a worker was running. -/
structure JoinableKept (s : Thread) : Prop where
  notTerminated : s.terminated = false
  answered : ∀ r ∈ s.starts, r.result = false ↔ r.workerRan = true

/-- The condition on a step: `start` finds a worker running, or none that has to be joined. -/
def NoneToJoin (s : Thread) : ThreadEvent → Prop
  | .call .start => s.running = true ∨ s.thread = none
  | _ => True

/-- `start` has tested `m_running` and has not made the new thread yet. -/
def beforeCreate (s : Thread) : Bool :=
  match s.control with
  | .start .clearRequestStop | .start .lock1 | .start .create => true
  | _ => false

/-- The invariant of the runs that meet the condition. -/
structure Joined (s : Thread) : Prop where
  inv : s.Inv
  notTerminated : s.terminated = false
  thread : s.beforeCreate = true → s.thread = none

/-- `start` is on its way to drop the handle of a worker that has ended. -/
structure Doomed (s : Thread) : Prop where
  inv : s.Inv
  before : s.beforeCreate = true
  thread : s.thread ≠ none

/-- Nothing but `start` moves before the new thread is made: the old worker, if any, has ended. -/
theorem Inv.settled_of_before (hs : s.Inv) (hbefore : s.beforeCreate = true) :
    Settled false s.started s.thread := by
  have hshape := hs.shape
  obtain ⟨thread, started, running, requestStop, mutex1, mutex2, control⟩ := s
  cases hshape with
  | clearRequestStop h => exact h
  | lock1 h => exact h
  | create h => exact h
  | _ => cases hbefore

theorem Inv.thread_of_destroyMembers (hs : s.Inv) (hcontrol : s.control = .destroyMembers) :
    s.thread = none := by
  have hshape := hs.shape
  obtain ⟨thread, started, running, requestStop, mutex1, mutex2, control⟩ := s
  change control = .destroyMembers at hcontrol
  subst hcontrol
  cases hshape
  rfl

theorem controller_of_before {e : ThreadEvent} (hs : s.Inv) (hbefore : s.beforeCreate = true)
    (h : step s e = some s') : e = .controller ∧ s.controllerStep = some s' := by
  have hsettled := hs.settled_of_before hbefore
  unfold step at h
  split at h
  · cases h
  cases e with
  | controller => exact ⟨rfl, h⟩
  | call c =>
    dsimp only at h
    split at h
    · rename_i hidle
      rw [beforeCreate, hidle] at hbefore
      cases hbefore
    · cases h
  | worker =>
    obtain ⟨w, hw, h⟩ := Option.bind_eq_some_iff.mp h
    rw [hw] at hsettled
    generalize s.started = started at hsettled
    cases hsettled
    cases h
  | cancelled =>
    obtain ⟨w, hw, h⟩ := Option.bind_eq_some_iff.mp h
    rw [hw] at hsettled
    rw [hsettled.not_cancelled] at h
    cases h

/-- `start` up to the making of the new thread, which drops the old handle. -/
theorem controllerStep_of_before (hbefore : s.beforeCreate = true)
    (h : s.controllerStep = some s') :
    s'.beforeCreate = true ∧ s'.thread = s.thread ∧ s'.terminated = s.terminated ∨
      s.thread = none ∧ s'.beforeCreate = false ∧ s'.terminated = s.terminated ∨
      s.thread ≠ none ∧ s'.terminated = true := by
  unfold beforeCreate at hbefore
  split at hbefore
  case h_4 => cases hbefore
  case h_1 hc =>
    simp only [controllerStep, hc, startStep] at h
    obtain rfl := Option.some.inj h
    exact .inl ⟨rfl, rfl, rfl⟩
  case h_2 hc =>
    simp only [controllerStep, hc, startStep] at h
    split at h
    · obtain rfl := Option.some.inj h
      exact .inl ⟨rfl, rfl, rfl⟩
    · cases h
  case h_3 hc =>
    simp only [controllerStep, hc, startStep] at h
    split at h
    · rename_i hthread
      obtain rfl := Option.some.inj h
      exact .inr (.inl ⟨hthread, rfl, rfl⟩)
    · rename_i hthread
      obtain rfl := Option.some.inj h
      exact .inr (.inr ⟨hthread, rfl⟩)

theorem waited_handle (s : Thread) (caller : WaitCaller) :
    (s.waited caller).beforeCreate = false ∧ (s.waited caller).terminated = s.terminated := by
  unfold waited
  split <;> exact ⟨rfl, rfl⟩

/-- The controller's other steps drop nothing: the destructor has waited for the worker. -/
theorem controllerStep_handle (hs : s.Inv) (hbefore : s.beforeCreate = false)
    (h : s.controllerStep = some s') :
    s'.beforeCreate = false ∧ s'.terminated = s.terminated := by
  unfold controllerStep at h
  split at h
  case h_1 | h_9 => cases h
  case h_2 pc hc =>
    cases pc with
    | clearRequestStop | lock1 | create =>
      rw [beforeCreate, hc] at hbefore
      cases hbefore
    | poll =>
      obtain rfl := Option.some.inj h
      split
      · exact ⟨rfl, rfl⟩
      · exact ⟨hbefore, rfl⟩
    | lock2 =>
      simp only [startStep] at h
      split at h
      · obtain rfl := Option.some.inj h
        exact ⟨rfl, rfl⟩
      · cases h
    | setStarted | unlock1 | unlock2 =>
      obtain rfl := Option.some.inj h
      exact ⟨rfl, rfl⟩
  case h_3 caller hc =>
    obtain rfl := Option.some.inj h
    split
    · exact ⟨rfl, rfl⟩
    · exact waited_handle s caller
  case h_4 caller hc =>
    split at h
    · obtain rfl := Option.some.inj h
      exact ⟨rfl, rfl⟩
    · split at h
      · obtain rfl := Option.some.inj h
        exact ⟨rfl, rfl⟩
      · cases h
  case h_5 caller hc =>
    obtain rfl := Option.some.inj h
    exact waited_handle { s with started := false } caller
  case h_6 destructor hc =>
    obtain rfl := Option.some.inj h
    exact ⟨rfl, rfl⟩
  case h_7 destructor hc =>
    obtain rfl := Option.some.inj h
    cases destructor <;> exact ⟨rfl, rfl⟩
  case h_8 hc =>
    rw [if_pos (hs.thread_of_destroyMembers hc)] at h
    obtain rfl := Option.some.inj h
    exact ⟨rfl, rfl⟩

/-- A call leads before the making of a new thread if it is a `start` that finds no worker
running. -/
theorem call_handle (hidle : s.control = .idle) (c : ThreadCall) :
    (s.call c).terminated = s.terminated ∧ (s.call c).thread = s.thread ∧
      ((s.call c).beforeCreate = true ↔ c = .start ∧ s.running = false) := by
  cases c with
  | start =>
    cases hrunning : s.running with
    | true => simp [call, hrunning, returnStart, beforeCreate]
    | false => simp [call, hrunning, beforeCreate]
  | stop => simp [call, beforeCreate, hidle]
  | wait => simp [call, beforeCreate]
  | stopAndWait => simp [call, beforeCreate]
  | kill | destroy =>
    simp only [call]
    split <;> simp [beforeCreate]

theorem joined_step {e : ThreadEvent} (hs : s.Joined) (h : step s e = some s')
    (hok : s.NoneToJoin e) : s'.Joined := by
  have hinv := inv_step hs.inv h
  by_cases hbefore : s.beforeCreate = true
  · obtain ⟨-, hstep⟩ := controller_of_before hs.inv hbefore h
    have hthread := hs.thread hbefore
    rcases controllerStep_of_before hbefore hstep with ⟨-, ht, hterm⟩ | ⟨-, hafter, hterm⟩ | ⟨hn, -⟩
    · exact ⟨hinv, hterm.trans hs.notTerminated, fun _ => ht.trans hthread⟩
    · exact ⟨hinv, hterm.trans hs.notTerminated, fun hb => by cases hafter.symm.trans hb⟩
    · exact absurd hthread hn
  · unfold step at h
    rw [if_neg (by rw [hs.notTerminated]; exact Bool.false_ne_true)] at h
    cases e with
    | call c =>
      dsimp only at h
      split at h
      · rename_i hidle
        obtain rfl := Option.some.inj h
        obtain ⟨hterm, hthread, hstart⟩ := call_handle hidle c
        refine ⟨hinv, hterm.trans hs.notTerminated, fun hb => ?_⟩
        obtain ⟨rfl, hrunning⟩ := hstart.mp hb
        rcases hok with hr | hnone
        · cases hrunning.symm.trans hr
        · exact hthread.trans hnone
      · cases h
    | controller =>
      obtain ⟨hafter, hterm⟩ :=
        controllerStep_handle hs.inv (Bool.eq_false_iff.mpr hbefore) h
      exact ⟨hinv, hterm.trans hs.notTerminated, fun hb => by cases hafter.symm.trans hb⟩
    | worker =>
      obtain ⟨w, hw, h⟩ := Option.bind_eq_some_iff.mp h
      obtain ⟨hcontrol, -, -, -, hterm⟩ := workerStep_frame h
      refine ⟨hinv, hterm.trans hs.notTerminated, fun hb => ?_⟩
      unfold beforeCreate at hb hbefore
      rw [hcontrol] at hb
      exact absurd hb hbefore
    | cancelled =>
      obtain ⟨w, hw, h⟩ := Option.bind_eq_some_iff.mp h
      split at h
      · obtain rfl := Option.some.inj h
        exact ⟨hinv, hs.notTerminated, fun hb => absurd hb hbefore⟩
      · cases h

theorem doomed_of_start {e : ThreadEvent} (hs : s.Joined) (h : step s e = some s')
    (hbad : ¬ s.NoneToJoin e) : s'.Doomed := by
  have hinv := inv_step hs.inv h
  match e with
  | .call .start =>
    obtain ⟨hrunning, hthread⟩ := not_or.mp hbad
    unfold step at h
    rw [if_neg (by rw [hs.notTerminated]; exact Bool.false_ne_true)] at h
    dsimp only at h
    split at h
    · rename_i hidle
      obtain rfl := Option.some.inj h
      obtain ⟨-, ht, hstart⟩ := call_handle hidle .start
      exact ⟨hinv, hstart.mpr ⟨rfl, Bool.eq_false_iff.mpr hrunning⟩, ht ▸ hthread⟩
    · cases h
  | .call .stop | .call .wait | .call .stopAndWait | .call .kill | .call .destroy | .controller
  | .worker | .cancelled => exact absurd trivial hbad

/-- Only the controller moves, and it makes the new thread. -/
theorem doomed_step {e : ThreadEvent} (hs : s.Doomed) (h : step s e = some s') :
    s'.Doomed ∨ ¬ s'.JoinableKept := by
  obtain ⟨-, hstep⟩ := controller_of_before hs.inv hs.before h
  rcases controllerStep_of_before hs.before hstep with ⟨hb, ht, -⟩ | ⟨hnone, -⟩ | ⟨-, hterm⟩
  · exact .inl ⟨inv_step hs.inv h, hb, ht ▸ hs.thread⟩
  · exact absurd hnone hs.thread
  · exact .inr fun hkept => by cases hkept.notTerminated.symm.trans hterm

/-- **When `Thread` keeps its handle.** In a run in which no `start` comes while an earlier worker
has ended and has not been waited for, no joinable `std::thread` is overwritten or destroyed, and
`start` returns false exactly when a worker is running. In any other run that is not cut off inside
a `start`, one is. -/
theorem joinable_kept_iff (es : List ThreadEvent) :
    (Always step NoneToJoin fresh es → Everywhere step JoinableKept fresh es) ∧
      ∀ t, run step fresh es = some t → t.beforeCreate = false →
        (Everywhere step JoinableKept fresh es ↔ Always step NoneToJoin fresh es) := by
  have hfresh : fresh.Joined := ⟨inv_fresh, rfl, nofun⟩
  have hkept : Always step NoneToJoin fresh es → Everywhere step JoinableKept fresh es :=
    everywhere_of_always (fun s hs => ⟨hs.notTerminated, hs.inv.recorded.answered⟩)
      (fun _ _ _ hs h hok => joined_step hs h hok) hfresh
  refine ⟨hkept, fun t hrun ht => ⟨?_, hkept⟩⟩
  exact always_of_everywhere (D := Doomed) (fun _ _ _ hs h hok => joined_step hs h hok)
    (fun _ _ _ hs h hbad => doomed_of_start hs h hbad) (fun _ _ _ hs h => doomed_step hs h) hfresh
    hrun fun hd => by cases ht.symm.trans hd.before

/-- `start`, its worker running `run` to its end, and `start` again. -/
def startTwice : List ThreadEvent :=
  [.call .start, .controller, .controller, .controller, .worker, .worker, .controller,
    .controller, .controller, .worker, .worker, .worker, .worker, .worker, .controller,
    .controller, .call .start, .controller, .controller, .controller]

/-- The second `start` overwrites a `std::thread` that nobody has joined. -/
theorem not_joinable_kept : ¬ Everywhere step JoinableKept fresh startTwice := by
  intro h
  obtain ⟨t, hrun, hterm⟩ :
      ∃ t, run step fresh startTwice = some t ∧ t.terminated = true := ⟨_, rfl, rfl⟩
  cases (everywhere_last h hrun).notTerminated.symm.trans hterm

end Handle

end Thread

end WinterWind.Utils
