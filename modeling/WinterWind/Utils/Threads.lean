import WinterWind.Library.Runs

/-!
# Threads (`core/utils/threads.cpp`, `include/core/utils/threads.h`)

A `Thread` object used by one controlling thread, with the worker that runs its `the_thread`. The
flags are atomics, so a step of the system is one access to a flag, a mutex or `m_thread`, by
either party; a run is one interleaving.

* The controller is `idle` between two calls. A call's own steps are its `Control` points; the
  first test of `m_running` in `start` and in `kill` is the call itself.
* The worker's points are those of `the_thread`. `run` is any function that calls `ThreadStarted`
  once: the worker is at `run` before that call and at `runStarted` after it, for as long as it
  likes.
* `pthread_cancel` asks the worker to end; it does so inside `run` at some later moment, or never.
* Replacing or destroying a `std::thread` that is still joinable is `std::terminate`: nothing moves
  after it. `std::make_unique` never returns a null pointer, so the second `return false` of
  `start` is not reached.
* `starts` records each `start` that has returned. `set_thread_name` and what `run` computes are
  left out.

Results:
* `shape_of_call`, `shape_of_controller`, `shape_of_worker`, `shape_of_cancelled`: what the flags,
  the mutexes and the worker can be at each point of the controller.
* **`inv_step`**: every step keeps the invariant.
-/

namespace WinterWind.Utils

open WinterWind.Library

/-! ## The object and its two parties -/

/-- Who holds a mutex. -/
inductive Party where
  | controller
  | worker
  deriving Repr, DecidableEq

/-- What the worker does next in `the_thread`. -/
inductive WorkerPc where
  /-- `continuemutex2.lock()` -/
  | lock2
  /-- `m_running = true` -/
  | setRunning
  /-- `continuemutex.lock()` -/
  | lock1
  /-- `continuemutex.unlock()` -/
  | unlock1
  /-- Inside `run()`, before it calls `ThreadStarted`. -/
  | run
  /-- Inside `run()`, after it has called `ThreadStarted`. -/
  | runStarted
  /-- `m_running = false` -/
  | clearRunning
  /-- It has returned. -/
  | ended
  deriving Repr, DecidableEq

/-- The worker is inside `run()`. -/
def WorkerPc.inRun : WorkerPc → Bool
  | run | runStarted => true
  | _ => false

/-- A worker thread. -/
structure Worker where
  pc : WorkerPc := .lock2
  /-- `ThreadStarted` has been called. -/
  threadStarted : Bool := false
  /-- `pthread_cancel` has been called on it. -/
  cancelRequested : Bool := false
  deriving Repr, DecidableEq

/-- What the controller does next in `start`. -/
inductive StartPc where
  /-- `m_request_stop = false` -/
  | clearRequestStop
  /-- `continuemutex.lock()` -/
  | lock1
  /-- `m_thread = std::make_unique<std::thread>(the_thread, this)` -/
  | create
  /-- `while (!m_running)` -/
  | poll
  /-- `started = true` -/
  | setStarted
  /-- `continuemutex.unlock()` -/
  | unlock1
  /-- `continuemutex2.lock()` -/
  | lock2
  /-- `continuemutex2.unlock(); return true` -/
  | unlock2
  deriving Repr, DecidableEq

/-- Who has called `wait()`. -/
inductive WaitCaller where
  /-- The controller, or `stop_and_wait`. -/
  | controller
  /-- `kill`, which has found `m_running` to be `running`; from the destructor or not. -/
  | kill (running destructor : Bool)
  deriving Repr, DecidableEq

/-- What the controller does next. -/
inductive Control where
  | idle
  | start (pc : StartPc)
  /-- `if (started)` -/
  | testStarted (caller : WaitCaller)
  /-- `if (m_thread) { m_thread->join(); m_thread = nullptr; }` -/
  | join (caller : WaitCaller)
  /-- `started = false` -/
  | clearStarted (caller : WaitCaller)
  /-- `if (m_thread) pthread_cancel(m_thread->native_handle())` in `kill` -/
  | cancel (destructor : Bool)
  /-- `m_running = false; return true` in `kill` -/
  | clearRunning (destructor : Bool)
  /-- The destructor of `m_thread`, after `~Thread`. -/
  | destroyMembers
  | destroyed
  deriving Repr, DecidableEq

/-- A `start` that has returned. -/
structure Started where
  /-- A worker was running when `start` tested `m_running`. -/
  workerRan : Bool
  /-- What `start` returned. -/
  result : Bool
  /-- The worker had called `ThreadStarted` when `start` returned. -/
  threadStarted : Bool
  deriving Repr, DecidableEq

/-- `Thread`, with its worker behind `m_thread` and the point its controller is at. -/
structure Thread where
  thread : Option Worker := none
  started : Bool := false
  running : Bool := false
  requestStop : Bool := false
  continuemutex : Option Party := none
  continuemutex2 : Option Party := none
  control : Control := .idle
  terminated : Bool := false
  workerRan : Bool := false
  starts : List Started := []
  deriving Repr, DecidableEq

/-- The calls of the controlling thread. -/
inductive ThreadCall where
  | start
  | stop
  | wait
  | stopAndWait
  | kill
  | destroy
  deriving Repr, DecidableEq

inductive ThreadEvent where
  /-- The controller calls a method. -/
  | call (c : ThreadCall)
  /-- The controller makes one step of the method it is in. -/
  | controller
  /-- The worker makes one step. -/
  | worker
  /-- The worker acts on `pthread_cancel`. -/
  | cancelled
  deriving Repr, DecidableEq

namespace Thread

/-- `Thread::Thread` -/
def fresh : Thread := {}

/-- There is a worker that has not come to its end. -/
def workerRunning (s : Thread) : Bool := s.thread.any fun w => w.pc != .ended

def threadStarted (s : Thread) : Bool := s.thread.any Worker.threadStarted

/-- `start` returns `result`. -/
def returnStart (s : Thread) (result : Bool) : Thread :=
  { s with
    control := .idle
    starts := s.starts ++ [⟨s.workerRan, result, s.threadStarted⟩] }

/-! ## The steps -/

/-- A call, up to its first step. -/
def call (s : Thread) : ThreadCall → Thread
  | .start =>
    if s.running then { s with workerRan := s.workerRunning }.returnStart false
    else { s with workerRan := s.workerRunning, control := .start .clearRequestStop }
  | .stop => { s with requestStop := true }
  | .wait => { s with control := .testStarted .controller }
  | .stopAndWait => { s with requestStop := true, control := .testStarted .controller }
  | .kill =>
    if s.running then { s with control := .cancel false }
    else { s with control := .testStarted (.kill false false) }
  | .destroy =>
    if s.running then { s with control := .cancel true }
    else { s with control := .testStarted (.kill false true) }

/-- One step of `Thread::start`. -/
def startStep (s : Thread) : StartPc → Option Thread
  | .clearRequestStop => some { s with requestStop := false, control := .start .lock1 }
  | .lock1 =>
    if s.continuemutex = none then
      some { s with continuemutex := some .controller, control := .start .create }
    else none
  | .create =>
    -- the old `std::thread` is destroyed when `m_thread` takes the new one
    if s.thread = none then some { s with thread := some {}, control := .start .poll }
    else some { s with terminated := true }
  | .poll => some (if s.running then { s with control := .start .setStarted } else s)
  | .setStarted => some { s with started := true, control := .start .unlock1 }
  | .unlock1 => some { s with continuemutex := none, control := .start .lock2 }
  | .lock2 =>
    if s.continuemutex2 = none then
      some { s with continuemutex2 := some .controller, control := .start .unlock2 }
    else none
  | .unlock2 => some ({ s with continuemutex2 := none }.returnStart true)

/-- `wait()` returns to its caller. -/
def waited (s : Thread) : WaitCaller → Thread
  | .controller => { s with control := .idle }
  | .kill true destructor => { s with control := .clearRunning destructor }
  | .kill false true => { s with control := .destroyMembers }
  | .kill false false => { s with control := .idle }

/-- One step of the controller inside a method. -/
def controllerStep (s : Thread) : Option Thread :=
  match s.control with
  | .idle => none
  | .start pc => s.startStep pc
  | .testStarted caller =>
    some (if s.started then { s with control := .join caller } else s.waited caller)
  | .join caller =>
    match s.thread with
    | none => some { s with control := .clearStarted caller }
    | some w =>
      if w.pc = .ended then some { s with thread := none, control := .clearStarted caller }
      else none
  | .clearStarted caller => some ({ s with started := false }.waited caller)
  | .cancel destructor =>
    some
      { s with
        thread := s.thread.map fun w => { w with cancelRequested := true }
        control := .testStarted (.kill true destructor) }
  | .clearRunning destructor =>
    some { s with running := false, control := if destructor then .destroyMembers else .idle }
  | .destroyMembers =>
    if s.thread = none then some { s with control := .destroyed }
    else some { s with terminated := true }
  | .destroyed => none

/-- One step of `the_thread`. -/
def workerStep (s : Thread) (w : Worker) : Option Thread :=
  match w.pc with
  | .lock2 =>
    if s.continuemutex2 = none then
      some { s with continuemutex2 := some .worker, thread := some { w with pc := .setRunning } }
    else none
  | .setRunning => some { s with running := true, thread := some { w with pc := .lock1 } }
  | .lock1 =>
    if s.continuemutex = none then
      some { s with continuemutex := some .worker, thread := some { w with pc := .unlock1 } }
    else none
  | .unlock1 => some { s with continuemutex := none, thread := some { w with pc := .run } }
  | .run =>
    -- `ThreadStarted`
    some
      { s with
        continuemutex2 := none
        thread := some { w with pc := .runStarted, threadStarted := true } }
  | .runStarted => some { s with thread := some { w with pc := .clearRunning } }
  | .clearRunning => some { s with running := false, thread := some { w with pc := .ended } }
  | .ended => none

/-- One step of the system. -/
def step (s : Thread) (e : ThreadEvent) : Option Thread :=
  if s.terminated then none
  else
    match e with
    | .call c => if s.control = .idle then some (s.call c) else none
    | .controller => s.controllerStep
    | .worker => s.thread.bind s.workerStep
    | .cancelled =>
      s.thread.bind fun w =>
        if w.cancelRequested && w.pc.inRun then
          some { s with thread := some { w with pc := .ended } }
        else none

/-! ## What holds between the steps -/

/-- The flags and the worker while nobody starts, cancels or joins it: `m_running`, `started` and
`m_thread`. -/
inductive Settled : Bool → Bool → Option Worker → Prop
  | fresh : Settled false false none
  | inRun : Settled true true (some ⟨.runStarted, true, false⟩)
  | ending : Settled true true (some ⟨.clearRunning, true, false⟩)
  | ended : Settled false true (some ⟨.ended, true, false⟩)

/-- The same once `kill` has cancelled the worker. -/
inductive Cancelling : Bool → Bool → Option Worker → Prop
  | inRun : Cancelling true true (some ⟨.runStarted, true, true⟩)
  | ending : Cancelling true true (some ⟨.clearRunning, true, true⟩)
  | ended (running : Bool) : Cancelling running true (some ⟨.ended, true, true⟩)

/-- The new worker while `start` polls: `m_running`, `continuemutex2` and the worker. -/
inductive Polled : Bool → Option Party → Worker → Prop
  | lock2 : Polled false none ⟨.lock2, false, false⟩
  | setRunning : Polled false (some .worker) ⟨.setRunning, false, false⟩
  | lock1 : Polled true (some .worker) ⟨.lock1, false, false⟩

/-- The worker while `start` locks `continuemutex2`: `m_running`, both mutexes and the worker. -/
inductive Released : Bool → Option Party → Option Party → Worker → Prop
  | lock1 : Released true none (some .worker) ⟨.lock1, false, false⟩
  | unlock1 : Released true (some .worker) (some .worker) ⟨.unlock1, false, false⟩
  | run : Released true none (some .worker) ⟨.run, false, false⟩
  | started {running : Bool} {w : Worker} (h : Settled running true (some w)) :
    Released running none none w

/-- While `wait` runs for `caller`: `m_running`, `started` and `m_thread`. -/
def Waiting : WaitCaller → Bool → Bool → Option Worker → Prop
  | .kill true _ => Cancelling
  | _ => Settled

/-- `m_running`, `started`, the two mutexes and `m_thread` at each point of the controller. -/
inductive Shape : Control → Bool → Bool → Option Party → Option Party → Option Worker → Prop
  | idle {running started : Bool} {thread : Option Worker} (h : Settled running started thread) :
    Shape .idle running started none none thread
  | clearRequestStop {started : Bool} {thread : Option Worker} (h : Settled false started thread) :
    Shape (.start .clearRequestStop) false started none none thread
  | lock1 {started : Bool} {thread : Option Worker} (h : Settled false started thread) :
    Shape (.start .lock1) false started none none thread
  | create {started : Bool} {thread : Option Worker} (h : Settled false started thread) :
    Shape (.start .create) false started (some .controller) none thread
  | poll {running : Bool} {mutex2 : Option Party} {w : Worker} (h : Polled running mutex2 w) :
    Shape (.start .poll) running false (some .controller) mutex2 (some w)
  | setStarted : Shape (.start .setStarted) true false (some .controller) (some .worker)
      (some ⟨.lock1, false, false⟩)
  | unlock1 : Shape (.start .unlock1) true true (some .controller) (some .worker)
      (some ⟨.lock1, false, false⟩)
  | lock2 {running : Bool} {mutex1 mutex2 : Option Party} {w : Worker}
    (h : Released running mutex1 mutex2 w) :
    Shape (.start .lock2) running true mutex1 mutex2 (some w)
  | unlock2 {running : Bool} {w : Worker} (h : Settled running true (some w)) :
    Shape (.start .unlock2) running true none (some .controller) (some w)
  | testStarted {caller : WaitCaller} {running started : Bool} {thread : Option Worker}
    (h : Waiting caller running started thread) :
    Shape (.testStarted caller) running started none none thread
  | join {caller : WaitCaller} {running : Bool} {w : Worker}
    (h : Waiting caller running true (some w)) :
    Shape (.join caller) running true none none (some w)
  | clearStarted {caller : WaitCaller} {running : Bool}
    (h : running = true → ∃ destructor, caller = .kill true destructor) :
    Shape (.clearStarted caller) running true none none none
  | cancel {destructor running : Bool} {w : Worker} (h : Settled running true (some w)) :
    Shape (.cancel destructor) running true none none (some w)
  | clearRunning {destructor running : Bool} :
    Shape (.clearRunning destructor) running false none none none
  | destroyMembers : Shape .destroyMembers false false none none none
  | destroyed : Shape .destroyed false false none none none

/-- What is recorded of `start`, while it runs and once it has returned. -/
structure Recorded (s : Thread) : Prop where
  /-- A `start` that goes on has found no worker running. -/
  found : ∀ pc, s.control = .start pc → s.workerRan = false
  answered : ∀ r ∈ s.starts, r.result = false ↔ r.workerRan = true
  handshaken : ∀ r ∈ s.starts, r.result = true → r.threadStarted = true

/-- The invariant of every run. -/
structure Inv (s : Thread) : Prop where
  shape : Shape s.control s.running s.started s.continuemutex s.continuemutex2 s.thread
  recorded : s.Recorded

theorem inv_fresh : fresh.Inv where
  shape := .idle .fresh
  recorded :=
    { found := fun _ h => by cases h
      answered := fun _ h => by cases h
      handshaken := fun _ h => by cases h }

/-! ## The steps of the worker -/

/-- The settled flags are those of a running worker. -/
theorem Settled.running_eq {running started : Bool} {thread : Option Worker}
    (h : Settled running started thread) : (thread.any fun w => w.pc != .ended) = running := by
  cases h <;> rfl

theorem Settled.exists_worker {running : Bool} {thread : Option Worker}
    (h : Settled running true thread) : ∃ w, thread = some w := by
  cases h <;> exact ⟨_, rfl⟩

theorem Settled.of_running {started : Bool} {thread : Option Worker}
    (h : Settled true started thread) : started = true ∧ ∃ w, thread = some w := by
  cases h <;> exact ⟨rfl, _, rfl⟩

theorem Settled.not_cancelled {running started : Bool} {w : Worker}
    (h : Settled running started (some w)) : w.cancelRequested = false := by
  cases h <;> rfl

/-- Only a worker that `kill` waits for is cancelled. -/
theorem Waiting.cancelled {caller : WaitCaller} {running started : Bool} {w : Worker}
    (h : Waiting caller running started (some w)) (hcancel : w.cancelRequested = true) :
    Waiting caller running started (some { w with pc := .ended }) := by
  match caller, h with
  | .controller, h => cases (Settled.not_cancelled h).symm.trans hcancel
  | .kill false _, h => cases (Settled.not_cancelled h).symm.trans hcancel
  | .kill true _, h => cases h <;> exact Cancelling.ended _

theorem Waiting.not_started {caller : WaitCaller} {running : Bool} {thread : Option Worker}
    (h : Waiting caller running false thread) : running = false ∧ thread = none := by
  match caller, h with
  | .controller, h => cases h; exact ⟨rfl, rfl⟩
  | .kill false _, h => cases h; exact ⟨rfl, rfl⟩
  | .kill true _, h => cases h

/-- A worker that has ended by itself has cleared `m_running`; a cancelled one may not have. -/
theorem Waiting.of_ended {caller : WaitCaller} {running started : Bool} {w : Worker}
    (h : Waiting caller running started (some w)) (hpc : w.pc = .ended)
    (hrunning : running = true) :
    ∃ destructor, caller = .kill true destructor := by
  subst hrunning
  match caller, h with
  | .controller, h => cases h <;> cases hpc
  | .kill false _, h => cases h <;> cases hpc
  | .kill true destructor, _ => exact ⟨destructor, rfl⟩

theorem Waiting.exists_worker {caller : WaitCaller} {running : Bool} {thread : Option Worker}
    (h : Waiting caller running true thread) : ∃ w, thread = some w := by
  match caller, h with
  | .controller, h => exact Settled.exists_worker h
  | .kill false _, h => exact Settled.exists_worker h
  | .kill true _, h => cases h <;> exact ⟨_, rfl⟩

section Worker

variable {s s' : Thread} {w : Worker}

/-- The worker never touches what the controller alone writes. -/
theorem workerStep_frame (hstep : s.workerStep w = some s') :
    s'.control = s.control ∧ s'.started = s.started ∧ s'.workerRan = s.workerRan ∧
      s'.starts = s.starts ∧ s'.terminated = s.terminated := by
  unfold workerStep at hstep
  split at hstep
  case h_1 | h_3 =>
    split at hstep
    · obtain rfl := Option.some.inj hstep
      exact ⟨rfl, rfl, rfl, rfl, rfl⟩
    · cases hstep
  case h_8 => cases hstep
  all_goals
    obtain rfl := Option.some.inj hstep
    exact ⟨rfl, rfl, rfl, rfl, rfl⟩

theorem workerStep_of_held (hmutex : s.continuemutex = some .controller) (hpc : w.pc = .lock1) :
    s.workerStep w = none := by
  simp [workerStep, hpc, hmutex]

/-- A settled worker that moves is running; it touches no mutex. -/
theorem Settled.workerStep (h : Settled s.running s.started (some w))
    (hstep : s.workerStep w = some s') :
    s.running = true ∧ Settled s'.running s'.started s'.thread ∧
      s'.continuemutex = s.continuemutex ∧ s'.continuemutex2 = s.continuemutex2 := by
  obtain ⟨thread, started, running⟩ := s
  change Settled running started (some w) at h
  cases h with
  | inRun =>
    obtain rfl := Option.some.inj hstep
    exact ⟨rfl, .ending, rfl, rfl⟩
  | ending =>
    obtain rfl := Option.some.inj hstep
    exact ⟨rfl, .ended, rfl, rfl⟩
  | ended => cases hstep

theorem Cancelling.workerStep (h : Cancelling s.running s.started (some w))
    (hstep : s.workerStep w = some s') :
    Cancelling s'.running s'.started s'.thread ∧
      s'.continuemutex = s.continuemutex ∧ s'.continuemutex2 = s.continuemutex2 := by
  obtain ⟨thread, started, running⟩ := s
  change Cancelling running started (some w) at h
  cases h with
  | inRun =>
    obtain rfl := Option.some.inj hstep
    exact ⟨.ending, rfl, rfl⟩
  | ending =>
    obtain rfl := Option.some.inj hstep
    exact ⟨.ended false, rfl, rfl⟩
  | ended running => cases hstep

theorem Waiting.workerStep {caller : WaitCaller}
    (h : Waiting caller s.running s.started (some w)) (hstep : s.workerStep w = some s') :
    Waiting caller s'.running s'.started s'.thread ∧
      s'.continuemutex = s.continuemutex ∧ s'.continuemutex2 = s.continuemutex2 := by
  match caller, h with
  | .controller, h => exact (Settled.workerStep h hstep).2
  | .kill false _, h => exact (Settled.workerStep h hstep).2
  | .kill true _, h => exact Cancelling.workerStep h hstep

/-- While it is started, there is a worker. -/
theorem Waiting.workerStep_thread (caller : WaitCaller)
    (h : Waiting caller s.running s.started (some w)) (hstep : s.workerStep w = some s')
    (hstarted : s'.started = true) :
    ∃ w', s'.thread = some w' ∧ Waiting caller s'.running true (some w') ∧
      s'.continuemutex = s.continuemutex ∧ s'.continuemutex2 = s.continuemutex2 := by
  obtain ⟨h', hm1, hm2⟩ := Waiting.workerStep h hstep
  rw [hstarted] at h'
  obtain ⟨w', hw'⟩ := h'.exists_worker
  rw [hw'] at h'
  exact ⟨w', hw', h', hm1, hm2⟩

/-- While `start` holds `continuemutex`, the worker gets no further than the lock of it. -/
theorem Polled.workerStep (h : Polled s.running s.continuemutex2 w)
    (hmutex : s.continuemutex = some .controller) (hstep : s.workerStep w = some s') :
    ∃ w', s'.thread = some w' ∧ Polled s'.running s'.continuemutex2 w' ∧
      s'.continuemutex = some .controller := by
  obtain ⟨thread, started, running, requestStop, mutex1, mutex2⟩ := s
  change Polled running mutex2 w at h
  cases h with
  | lock2 =>
    obtain rfl := Option.some.inj hstep
    exact ⟨_, rfl, .setRunning, hmutex⟩
  | setRunning =>
    obtain rfl := Option.some.inj hstep
    exact ⟨_, rfl, .lock1, hmutex⟩
  | lock1 =>
    change mutex1 = some .controller at hmutex
    subst hmutex
    cases hstep

/-- Once `start` has unlocked `continuemutex`, the worker passes it, enters `run` and unlocks
`continuemutex2` there. -/
theorem Released.workerStep (h : Released s.running s.continuemutex s.continuemutex2 w)
    (hstep : s.workerStep w = some s') :
    ∃ w', s'.thread = some w' ∧
      Released s'.running s'.continuemutex s'.continuemutex2 w' := by
  obtain ⟨thread, started, running, requestStop, mutex1, mutex2⟩ := s
  change Released running mutex1 mutex2 w at h
  cases h with
  | lock1 =>
    obtain rfl := Option.some.inj hstep
    exact ⟨_, rfl, .unlock1⟩
  | unlock1 =>
    obtain rfl := Option.some.inj hstep
    exact ⟨_, rfl, .run⟩
  | run =>
    obtain rfl := Option.some.inj hstep
    exact ⟨_, rfl, .started .inRun⟩
  | started h =>
    cases h with
    | inRun =>
      obtain rfl := Option.some.inj hstep
      exact ⟨_, rfl, .started .ending⟩
    | ending =>
      obtain rfl := Option.some.inj hstep
      exact ⟨_, rfl, .started .ended⟩
    | ended => cases hstep

end Worker

/-! ## The invariant is kept -/

section Steps

variable {s s' : Thread}

theorem shape_of_worker {w : Worker} (hs : s.Inv) (hw : s.thread = some w)
    (h : s.workerStep w = some s') :
    Shape s'.control s'.running s'.started s'.continuemutex s'.continuemutex2 s'.thread := by
  obtain ⟨hcontrol, hstarted, -, -, -⟩ := workerStep_frame h
  have hshape := hs.shape
  rw [hcontrol]
  generalize hc : s.control = control at hshape ⊢
  generalize hst : s.started = started at hshape hstarted
  generalize hr : s.running = running at hshape
  generalize hm1 : s.continuemutex = mutex1 at hshape
  generalize hm2 : s.continuemutex2 = mutex2 at hshape
  rw [hw] at hshape
  cases hshape with
  | idle hsettled =>
    obtain ⟨-, h', hm1', hm2'⟩ := Settled.workerStep (hr ▸ hst ▸ hsettled) h
    rw [hm1', hm2', hm1, hm2]
    exact .idle h'
  | clearRequestStop hsettled | lock1 hsettled | create hsettled =>
    -- a worker that makes a step is running, and `start` has found that none is
    obtain ⟨hrunning, -⟩ := Settled.workerStep (hr ▸ hst ▸ hsettled) h
    cases hr.symm.trans hrunning
  | poll hpolled =>
    obtain ⟨w', hw', h', hm1'⟩ := Polled.workerStep (hr ▸ hm2 ▸ hpolled) hm1 h
    rw [hstarted, hw', hm1']
    exact .poll h'
  | setStarted | unlock1 =>
    rw [workerStep_of_held hm1 rfl] at h
    cases h
  | lock2 hreleased =>
    obtain ⟨w', hw', h'⟩ := Released.workerStep (hr ▸ hm1 ▸ hm2 ▸ hreleased) h
    rw [hstarted, hw']
    exact .lock2 h'
  | unlock2 hsettled =>
    obtain ⟨w', hw', h', hm1', hm2'⟩ :=
      Waiting.workerStep_thread .controller (hr ▸ hst ▸ hsettled) h hstarted
    rw [hstarted, hw', hm1', hm2', hm1, hm2]
    exact .unlock2 h'
  | testStarted hwaiting =>
    obtain ⟨h', hm1', hm2'⟩ := Waiting.workerStep (hr ▸ hst ▸ hwaiting) h
    rw [hm1', hm2', hm1, hm2]
    exact .testStarted h'
  | join hwaiting =>
    obtain ⟨w', hw', h', hm1', hm2'⟩ :=
      Waiting.workerStep_thread _ (hr ▸ hst ▸ hwaiting) h hstarted
    rw [hstarted, hw', hm1', hm2', hm1, hm2]
    exact .join h'
  | cancel hsettled =>
    obtain ⟨w', hw', h', hm1', hm2'⟩ :=
      Waiting.workerStep_thread .controller (hr ▸ hst ▸ hsettled) h hstarted
    rw [hstarted, hw', hm1', hm2', hm1, hm2]
    exact .cancel h'

theorem shape_of_cancelled {w : Worker} (hs : s.Inv) (hw : s.thread = some w)
    (hcancel : w.cancelRequested = true) :
    Shape s.control s.running s.started s.continuemutex s.continuemutex2
      (some { w with pc := .ended }) := by
  have hshape := hs.shape
  rw [hw] at hshape
  generalize s.control = control at hshape ⊢
  generalize s.started = started at hshape ⊢
  generalize s.running = running at hshape ⊢
  generalize s.continuemutex = mutex1 at hshape ⊢
  generalize s.continuemutex2 = mutex2 at hshape ⊢
  cases hshape with
  | idle h | clearRequestStop h | lock1 h | create h | unlock2 h | cancel h =>
    cases h.not_cancelled.symm.trans hcancel
  | poll h => cases h <;> cases hcancel
  | setStarted => cases hcancel
  | unlock1 => cases hcancel
  | lock2 h =>
    cases h with
    | started h => cases h.not_cancelled.symm.trans hcancel
    | lock1 => cases hcancel
    | unlock1 => cases hcancel
    | run => cases hcancel
  | testStarted h => exact .testStarted (h.cancelled hcancel)
  | join h => exact .join (h.cancelled hcancel)

theorem shape_of_call (hs : s.Inv) (hidle : s.control = .idle) (c : ThreadCall) :
    Shape (s.call c).control (s.call c).running (s.call c).started (s.call c).continuemutex
      (s.call c).continuemutex2 (s.call c).thread := by
  have hshape := hs.shape
  rw [hidle] at hshape
  obtain ⟨thread, started, running, requestStop, mutex1, mutex2, control⟩ := s
  cases hshape with
  | idle h =>
    cases c with
    | start =>
      cases running with
      | true => exact .idle h
      | false => exact .clearRequestStop h
    | stop =>
      subst hidle
      exact .idle h
    | wait => exact .testStarted h
    | stopAndWait => exact .testStarted h
    | kill =>
      cases running with
      | true =>
        obtain ⟨rfl, w, rfl⟩ := h.of_running
        exact .cancel h
      | false => exact .testStarted h
    | destroy =>
      cases running with
      | true =>
        obtain ⟨rfl, w, rfl⟩ := h.of_running
        exact .cancel h
      | false => exact .testStarted h

/-- `wait` returns with no worker left, to a caller other than a `kill` with `m_running` clear. -/
theorem shape_waited {caller : WaitCaller} (hthread : s.thread = none)
    (hstarted : s.started = false) (hm1 : s.continuemutex = none) (hm2 : s.continuemutex2 = none)
    (hrunning : s.running = true → ∃ destructor, caller = .kill true destructor) :
    Shape (s.waited caller).control (s.waited caller).running (s.waited caller).started
      (s.waited caller).continuemutex (s.waited caller).continuemutex2
      (s.waited caller).thread := by
  obtain ⟨thread, started, running, requestStop, mutex1, mutex2, control⟩ := s
  subst hthread hstarted hm1 hm2
  match caller, running with
  | .kill true destructor, running => exact .clearRunning
  | .controller, false => exact .idle .fresh
  | .kill false true, false => exact .destroyMembers
  | .kill false false, false => exact .idle .fresh
  | .controller, true =>
    obtain ⟨destructor, h⟩ := hrunning rfl
    cases h
  | .kill false _, true =>
    obtain ⟨destructor, h⟩ := hrunning rfl
    cases h

/-- One case for each point of the controller. A worker it waits for is at its end. -/
theorem shape_of_controller (hs : s.Inv) (h : s.controllerStep = some s') :
    Shape s'.control s'.running s'.started s'.continuemutex s'.continuemutex2 s'.thread := by
  have hshape := hs.shape
  obtain ⟨thread, started, running, requestStop, mutex1, mutex2, control⟩ := s
  cases hshape with
  | idle hsettled => cases h
  | clearRequestStop hsettled =>
    obtain rfl := Option.some.inj h
    exact .lock1 hsettled
  | lock1 hsettled =>
    obtain rfl := Option.some.inj h
    exact .create hsettled
  | create hsettled =>
    cases hsettled with
    | fresh =>
      obtain rfl := Option.some.inj h
      exact .poll .lock2
    | ended =>
      obtain rfl := Option.some.inj h
      exact .create .ended
  | poll hpolled =>
    obtain rfl := Option.some.inj h
    cases hpolled with
    | lock2 => exact .poll .lock2
    | setRunning => exact .poll .setRunning
    | lock1 => exact .setStarted
  | setStarted =>
    obtain rfl := Option.some.inj h
    exact .unlock1
  | unlock1 =>
    obtain rfl := Option.some.inj h
    exact .lock2 .lock1
  | lock2 hreleased =>
    cases hreleased with
    | lock1 => cases h
    | unlock1 => cases h
    | run => cases h
    | started hsettled =>
      obtain rfl := Option.some.inj h
      exact .unlock2 hsettled
  | unlock2 hsettled =>
    obtain rfl := Option.some.inj h
    exact .idle hsettled
  | testStarted hwaiting =>
    obtain rfl := Option.some.inj h
    cases started with
    | true =>
      obtain ⟨w, rfl⟩ := hwaiting.exists_worker
      exact .join hwaiting
    | false =>
      obtain ⟨rfl, rfl⟩ := hwaiting.not_started
      exact shape_waited rfl rfl rfl rfl fun hrunning => by cases hrunning
  | @join caller running w hwaiting =>
    by_cases hpc : w.pc = .ended
    · simp only [controllerStep, hpc, if_true] at h
      obtain rfl := Option.some.inj h
      exact .clearStarted (hwaiting.of_ended hpc)
    · simp only [controllerStep, hpc, if_false] at h
      cases h
  | clearStarted hkill =>
    obtain rfl := Option.some.inj h
    exact shape_waited rfl rfl rfl rfl hkill
  | cancel hsettled =>
    obtain rfl := Option.some.inj h
    refine .testStarted ?_
    cases hsettled with
    | inRun => exact Cancelling.inRun
    | ending => exact Cancelling.ending
    | ended => exact Cancelling.ended _
  | @clearRunning destructor running =>
    obtain rfl := Option.some.inj h
    cases destructor with
    | true => exact .destroyMembers
    | false => exact .idle .fresh
  | destroyMembers =>
    obtain rfl := Option.some.inj h
    exact .destroyed
  | destroyed => cases h

end Steps

/-! ## What is recorded of `start` -/

section Records

variable {s s' : Thread}

/-- A step of `start` records nothing before it returns true. -/
theorem startStep_records {pc : StartPc} (h : s.startStep pc = some s') :
    s'.workerRan = s.workerRan ∧
      (s'.starts = s.starts ∨
        pc = .unlock2 ∧ s'.starts = s.starts ++ [⟨s.workerRan, true, s.threadStarted⟩]) := by
  cases pc with
  | lock1 | lock2 =>
    simp only [startStep] at h
    split at h
    · obtain rfl := Option.some.inj h
      exact ⟨rfl, .inl rfl⟩
    · cases h
  | create =>
    simp only [startStep] at h
    split at h <;>
    · obtain rfl := Option.some.inj h
      exact ⟨rfl, .inl rfl⟩
  | poll =>
    obtain rfl := Option.some.inj h
    split <;> exact ⟨rfl, .inl rfl⟩
  | unlock2 =>
    obtain rfl := Option.some.inj h
    exact ⟨rfl, .inr ⟨rfl, rfl⟩⟩
  | clearRequestStop | setStarted | unlock1 =>
    obtain rfl := Option.some.inj h
    exact ⟨rfl, .inl rfl⟩

theorem waited_records (s : Thread) (caller : WaitCaller) :
    (s.waited caller).workerRan = s.workerRan ∧ (s.waited caller).starts = s.starts ∧
      ∀ pc, (s.waited caller).control ≠ .start pc := by
  unfold waited
  split <;> exact ⟨rfl, rfl, fun pc h => by cases h⟩

/-- The other methods record nothing and do not lead into `start`. -/
theorem controllerStep_records (hcontrol : ∀ pc, s.control ≠ .start pc)
    (h : s.controllerStep = some s') :
    s'.workerRan = s.workerRan ∧ s'.starts = s.starts ∧ ∀ pc, s'.control ≠ .start pc := by
  unfold controllerStep at h
  split at h
  case h_1 | h_9 => cases h
  case h_2 pc hc => exact absurd hc (hcontrol pc)
  case h_3 caller hc =>
    obtain rfl := Option.some.inj h
    split
    · exact ⟨rfl, rfl, fun pc h => by cases h⟩
    · exact waited_records s caller
  case h_4 caller hc =>
    split at h
    · obtain rfl := Option.some.inj h
      exact ⟨rfl, rfl, fun pc h => by cases h⟩
    · split at h
      · obtain rfl := Option.some.inj h
        exact ⟨rfl, rfl, fun pc h => by cases h⟩
      · cases h
  case h_5 caller hc =>
    obtain rfl := Option.some.inj h
    exact waited_records { s with started := false } caller
  case h_6 destructor hc =>
    obtain rfl := Option.some.inj h
    exact ⟨rfl, rfl, fun pc h => by cases h⟩
  case h_7 destructor hc =>
    obtain rfl := Option.some.inj h
    refine ⟨rfl, rfl, fun pc h => ?_⟩
    cases destructor <;> cases h
  case h_8 hc =>
    split at h
    · obtain rfl := Option.some.inj h
      exact ⟨rfl, rfl, fun pc h => by cases h⟩
    · obtain rfl := Option.some.inj h
      exact ⟨rfl, rfl, hcontrol⟩

end Records

/-! ## Every run -/

section Runs

variable {s s' : Thread}

theorem Recorded.keep (hs : s.Recorded) (hran : s'.workerRan = s.workerRan)
    (hstarts : s'.starts = s.starts)
    (hcontrol : ∀ pc, s'.control = .start pc → ∃ pc', s.control = .start pc') : s'.Recorded where
  found pc hpc := by
    obtain ⟨pc', hpc'⟩ := hcontrol pc hpc
    rw [hran, hs.found pc' hpc']
  answered := hstarts ▸ hs.answered
  handshaken := hstarts ▸ hs.handshaken

/-- A `start` returns with an entry of its own, which must be in order. -/
theorem Recorded.extend {r : Started} (hs : s.Recorded) (hstarts : s'.starts = s.starts ++ [r])
    (hcontrol : ∀ pc, s'.control ≠ .start pc) (hanswer : r.result = false ↔ r.workerRan = true)
    (hhandshake : r.result = true → r.threadStarted = true) : s'.Recorded where
  found pc hpc := absurd hpc (hcontrol pc)
  answered r' hr' := by
    rw [hstarts, List.mem_append, List.mem_singleton] at hr'
    rcases hr' with hr' | rfl
    · exact hs.answered r' hr'
    · exact hanswer
  handshaken r' hr' := by
    rw [hstarts, List.mem_append, List.mem_singleton] at hr'
    rcases hr' with hr' | rfl
    · exact hs.handshaken r' hr'
    · exact hhandshake

/-- Between two calls, `m_running` says whether the worker is running. -/
theorem Inv.workerRunning_eq (hs : s.Inv) (hidle : s.control = .idle) :
    s.workerRunning = s.running := by
  have hshape := hs.shape
  rw [hidle] at hshape
  generalize s.continuemutex = mutex1 at hshape
  generalize s.continuemutex2 = mutex2 at hshape
  cases hshape with
  | idle h => exact h.running_eq

theorem inv_call (hs : s.Inv) (hidle : s.control = .idle) (c : ThreadCall) : (s.call c).Inv := by
  refine ⟨shape_of_call hs hidle c, ?_⟩
  have hran := hs.workerRunning_eq hidle
  cases c with
  | start =>
    simp only [call]
    split
    · rename_i hrunning
      refine hs.recorded.extend rfl (fun pc h => by cases h) ?_ (fun h => by cases h)
      exact ⟨fun _ => hran.trans hrunning, fun _ => rfl⟩
    · rename_i hrunning
      refine ⟨fun pc _ => ?_, hs.recorded.answered, hs.recorded.handshaken⟩
      exact hran.trans (Bool.eq_false_iff.mpr hrunning)
  | stop => exact hs.recorded.keep rfl rfl fun pc h => ⟨pc, h⟩
  | wait => exact hs.recorded.keep rfl rfl fun pc h => by cases h
  | stopAndWait => exact hs.recorded.keep rfl rfl fun pc h => by cases h
  | kill | destroy =>
    simp only [call]
    split <;> exact hs.recorded.keep rfl rfl fun pc h => by cases h

/-- The worker has called `ThreadStarted` when `start` is about to return true. -/
theorem Inv.threadStarted (hs : s.Inv) (hcontrol : s.control = .start .unlock2) :
    s.threadStarted = true := by
  have hshape := hs.shape
  rw [hcontrol] at hshape
  unfold Thread.threadStarted
  generalize s.running = running at hshape
  generalize s.started = started at hshape
  generalize s.continuemutex = mutex1 at hshape
  generalize s.continuemutex2 = mutex2 at hshape
  generalize s.thread = thread at hshape
  cases hshape with
  | unlock2 h => cases h <;> rfl

theorem inv_controller (hs : s.Inv) (h : s.controllerStep = some s') : s'.Inv := by
  refine ⟨shape_of_controller hs h, ?_⟩
  by_cases hstart : ∃ pc, s.control = .start pc
  · obtain ⟨pc, hpc⟩ := hstart
    have hstep : s.startStep pc = some s' := by
      rw [← h, controllerStep, hpc]
    obtain ⟨hran, hstarts | ⟨rfl, hstarts⟩⟩ := startStep_records hstep
    · exact hs.recorded.keep hran hstarts fun _ _ => ⟨pc, hpc⟩
    · obtain rfl := Option.some.inj hstep
      refine hs.recorded.extend hstarts (fun pc h => by cases h) ?_ fun _ => hs.threadStarted hpc
      rw [hs.recorded.found _ hpc]
      exact ⟨nofun, nofun⟩
  · have hcontrol : ∀ pc, s.control ≠ .start pc := fun pc hpc => hstart ⟨pc, hpc⟩
    obtain ⟨hran, hstarts, hcontrol'⟩ := controllerStep_records hcontrol h
    exact hs.recorded.keep hran hstarts fun pc hpc => absurd hpc (hcontrol' pc)

theorem inv_step {e : ThreadEvent} (hs : s.Inv) (h : step s e = some s') : s'.Inv := by
  unfold step at h
  split at h
  · cases h
  cases e with
  | call c =>
    dsimp only at h
    split at h
    · rename_i hidle
      obtain rfl := Option.some.inj h
      exact inv_call hs hidle c
    · cases h
  | controller => exact inv_controller hs h
  | worker =>
    obtain ⟨w, hw, h⟩ := Option.bind_eq_some_iff.mp h
    obtain ⟨hcontrol, -, hran, hstarts, -⟩ := workerStep_frame h
    refine ⟨shape_of_worker hs hw h, hs.recorded.keep hran hstarts fun pc hpc => ⟨pc, ?_⟩⟩
    exact hcontrol.symm.trans hpc
  | cancelled =>
    obtain ⟨w, hw, h⟩ := Option.bind_eq_some_iff.mp h
    split at h
    · rename_i hcancel
      obtain rfl := Option.some.inj h
      rw [Bool.and_eq_true] at hcancel
      have hshape := shape_of_cancelled hs hw hcancel.1
      refine ⟨hshape, ?_⟩
      exact hs.recorded.keep rfl rfl fun pc hpc => ⟨pc, hpc⟩
    · cases h

end Runs

end Thread

end WinterWind.Utils
