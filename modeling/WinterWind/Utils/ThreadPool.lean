import WinterWind.Library.Runs

/-!
# Work queues (`include/core/utils/threadsafequeue.h`, `include/core/utils/threadpool.h`)

`ThreadPoolWorkQueue` with its two queues, and the workers of its pool, each running the loop of
`TPTestWorker::run` in `unittests/test_threads.cpp`:
`while (!input_queue_empty()) { read_input_queue(); ...; write_output(); }`.

* Every operation of a `ThreadSafeQueue` holds the queue's mutex, so it is one step of the system.
  A worker's `Phase` is the operation it calls next. What it computes between its read and its
  write is `answer`, a parameter.
* A worker whose `read_input_queue` throws `ThreadSafeQueueEmptyException` is `raised` and takes no
  further step. A worker that has left the loop may enter it again, as the outer loop of
  `TPTestWorker::run` does.
* Events name the worker and the operation, so a run is one interleaving. Starting, stopping and
  killing the threads is left out.

Results:
* **`noException_of_enough`**: as long as every worker that finds the queue not empty finds more
  items than there are workers about to read, no read raises.
* **`exists_exception`**: after any other test the pending reads can be scheduled so that one
  raises.
-/

namespace WinterWind.Utils

open WinterWind.Library

/-! ## The queue -/

/-- `ThreadSafeQueue<T>`: its deque. -/
structure ThreadSafeQueue (T : Type) where
  queue : List T
  deriving Repr, DecidableEq

namespace ThreadSafeQueue

variable {T : Type}

def empty (q : ThreadSafeQueue T) : Bool := q.queue.isEmpty

def pushBack (q : ThreadSafeQueue T) (t : T) : ThreadSafeQueue T := ⟨q.queue ++ [t]⟩

/-- `pop_front`: `none` is a `ThreadSafeQueueEmptyException`. -/
def popFront (q : ThreadSafeQueue T) : Option (T × ThreadSafeQueue T) :=
  match q.queue with
  | [] => none
  | r :: rest => some (r, ⟨rest⟩)

def size (q : ThreadSafeQueue T) : Nat := q.queue.length

@[simp] theorem size_pushBack (q : ThreadSafeQueue T) (t : T) :
    (q.pushBack t).size = q.size + 1 := by
  simp [size, pushBack]

theorem popFront_eq_none {q : ThreadSafeQueue T} : q.popFront = none ↔ q.size = 0 := by
  obtain ⟨queue⟩ := q
  cases queue <;> simp [popFront, size]

theorem size_of_popFront {q q' : ThreadSafeQueue T} {t : T} (h : q.popFront = some (t, q')) :
    q.size = q'.size + 1 := by
  obtain ⟨queue⟩ := q
  cases queue with
  | nil => cases h
  | cons r rest =>
    obtain ⟨rfl, rfl⟩ := Prod.mk.inj (Option.some.inj h)
    rfl

end ThreadSafeQueue

/-! ## The workers -/

/-- What a worker does next. -/
inductive Phase (IN : Type) where
  /-- It calls `input_queue_empty`. -/
  | testing
  /-- It found the queue not empty and calls `read_input_queue`. -/
  | reading
  /-- It read `data` and calls `write_output`. -/
  | writing (data : IN)
  /-- It has left the loop. -/
  | waiting
  /-- `ThreadSafeQueueEmptyException` has left its loop. -/
  | raised
  deriving Repr, DecidableEq

def Phase.isReading {IN : Type} : Phase IN → Bool
  | reading => true
  | _ => false

/-- `ThreadPoolWorkQueue<T, IN, OUT>` and the phases of its workers. -/
structure WorkQueue (IN OUT : Type) where
  inputQueue : ThreadSafeQueue IN := ⟨[]⟩
  outputQueue : ThreadSafeQueue OUT := ⟨[]⟩
  workers : List (Phase IN)
  deriving Repr, DecidableEq

/-- The operations on the queues, by whoever calls them. -/
inductive Event (IN : Type) where
  | writeInput (data : IN)
  | readOutput
  | inputQueueEmpty (worker : Nat)
  | readInputQueue (worker : Nat)
  | writeOutput (worker : Nat)
  | enterLoop (worker : Nat)
  deriving Repr, DecidableEq

namespace WorkQueue

variable {IN OUT : Type} (answer : IN → OUT)

/-- `ThreadPoolWorkQueue(thread_number)`, with its threads started. -/
def start (threadNumber : Nat) : WorkQueue IN OUT :=
  { workers := List.replicate threadNumber .testing }

/-- The worker goes to `phase`. -/
def goto (s : WorkQueue IN OUT) (worker : Nat) (phase : Phase IN) : WorkQueue IN OUT :=
  { s with workers := s.workers.set worker phase }

/-- One operation. A worker's operation is enabled in its phase only. -/
def step (s : WorkQueue IN OUT) : Event IN → Option (WorkQueue IN OUT)
  | .writeInput data => some { s with inputQueue := s.inputQueue.pushBack data }
  | .readOutput => s.outputQueue.popFront.map fun r => { s with outputQueue := r.2 }
  | .inputQueueEmpty worker =>
    match s.workers[worker]? with
    | some .testing => some (s.goto worker (if s.inputQueue.empty then .waiting else .reading))
    | _ => none
  | .readInputQueue worker =>
    match s.workers[worker]? with
    | some .reading =>
      match s.inputQueue.popFront with
      | some (data, rest) => some ({ s with inputQueue := rest }.goto worker (.writing data))
      | none => some (s.goto worker .raised)
    | _ => none
  | .writeOutput worker =>
    match s.workers[worker]? with
    | some (.writing data) =>
      some ({ s with outputQueue := s.outputQueue.pushBack (answer data) }.goto worker .testing)
    | _ => none
  | .enterLoop worker =>
    match s.workers[worker]? with
    | some .waiting => some (s.goto worker .testing)
    | _ => none

/-- The workers that have found the queue not empty and have not read yet. -/
def pending (s : WorkQueue IN OUT) : Nat := s.workers.countP Phase.isReading

/-- No worker's `read_input_queue` has raised. -/
def NoException (s : WorkQueue IN OUT) : Prop := Phase.raised ∉ s.workers

/-- The condition on a step: a worker that finds the queue not empty finds more items than there
are workers about to read. -/
def Enough (s : WorkQueue IN OUT) : Event IN → Prop
  | .inputQueueEmpty _ => s.inputQueue.empty = true ∨ s.pending < s.inputQueue.size
  | _ => True

/-! ## What a step does -/

variable {answer}

/-- The kinds of steps. -/
inductive Move (answer : IN → OUT) (s : WorkQueue IN OUT) : Event IN → WorkQueue IN OUT → Prop
  | writeInput (data : IN) :
    Move answer s (.writeInput data) { s with inputQueue := s.inputQueue.pushBack data }
  | readOutput (rest : ThreadSafeQueue OUT) :
    Move answer s .readOutput { s with outputQueue := rest }
  | foundEmpty {worker : Nat} (hphase : s.workers[worker]? = some .testing)
    (hempty : s.inputQueue.empty = true) :
    Move answer s (.inputQueueEmpty worker) (s.goto worker .waiting)
  | found {worker : Nat} (hphase : s.workers[worker]? = some .testing)
    (hempty : s.inputQueue.empty = false) :
    Move answer s (.inputQueueEmpty worker) (s.goto worker .reading)
  | read {worker : Nat} {data : IN} {rest : ThreadSafeQueue IN}
    (hphase : s.workers[worker]? = some .reading)
    (hpop : s.inputQueue.popFront = some (data, rest)) :
    Move answer s (.readInputQueue worker)
      ({ s with inputQueue := rest }.goto worker (.writing data))
  | raise {worker : Nat} (hphase : s.workers[worker]? = some .reading)
    (hpop : s.inputQueue.popFront = none) :
    Move answer s (.readInputQueue worker) (s.goto worker .raised)
  | write {worker : Nat} {data : IN} (hphase : s.workers[worker]? = some (.writing data)) :
    Move answer s (.writeOutput worker)
      ({ s with outputQueue := s.outputQueue.pushBack (answer data) }.goto worker .testing)
  | again {worker : Nat} (hphase : s.workers[worker]? = some .waiting) :
    Move answer s (.enterLoop worker) (s.goto worker .testing)

theorem step_move {s s' : WorkQueue IN OUT} {e : Event IN} (h : step answer s e = some s') :
    Move answer s e s' := by
  cases e with
  | writeInput data =>
    obtain rfl := Option.some.inj h
    exact .writeInput data
  | readOutput =>
    obtain ⟨r, -, rfl⟩ := Option.map_eq_some_iff.mp h
    exact .readOutput r.2
  | inputQueueEmpty worker =>
    simp only [step] at h
    split at h
    · rename_i hphase
      obtain rfl := Option.some.inj h
      cases hempty : s.inputQueue.empty with
      | true => exact .foundEmpty hphase hempty
      | false => exact .found hphase hempty
    · cases h
  | readInputQueue worker =>
    simp only [step] at h
    split at h
    · rename_i hphase
      split at h
      · rename_i hpop
        obtain rfl := Option.some.inj h
        exact .read hphase hpop
      · rename_i hpop
        obtain rfl := Option.some.inj h
        exact .raise hphase hpop
    · cases h
  | writeOutput worker =>
    simp only [step] at h
    split at h
    · rename_i hphase
      obtain rfl := Option.some.inj h
      exact .write hphase
    · cases h
  | enterLoop worker =>
    simp only [step] at h
    split at h
    · rename_i hphase
      obtain rfl := Option.some.inj h
      exact .again hphase
    · cases h

/-! ## Counting the pending reads -/

/-- One worker goes from phase `p` to phase `q`. -/
theorem countP_set_phase {workers : List (Phase IN)} {worker : Nat} {p q : Phase IN}
    (h : workers[worker]? = some p) :
    (workers.set worker q).countP Phase.isReading + p.isReading.toNat =
      workers.countP Phase.isReading + q.isReading.toNat := by
  obtain ⟨hlt, hget⟩ := List.getElem?_eq_some_iff.mp h
  have hpos : p.isReading = true → 0 < workers.countP Phase.isReading := fun hp =>
    List.countP_pos_iff.mpr ⟨p, hget ▸ List.getElem_mem hlt, hp⟩
  rw [List.countP_set hlt, hget]
  cases hp : p.isReading with
  | true =>
    have hpos' := hpos hp
    cases q.isReading <;> simp <;> omega
  | false => cases q.isReading <;> simp

/-- No exception so far, and an item for every pending read. -/
structure Covered (s : WorkQueue IN OUT) : Prop where
  noException : s.NoException
  pending_le : s.pending ≤ s.inputQueue.size

theorem covered_start (threadNumber : Nat) : (start threadNumber : WorkQueue IN OUT).Covered where
  noException hmem := by
    have h := List.eq_of_mem_replicate hmem
    cases h
  pending_le := by
    simp [pending, start, List.countP_replicate, Phase.isReading]

/-- A worker moves to a phase other than `raised`, and the queues may change with it. -/
theorem covered_goto {s t : WorkQueue IN OUT} (hs : s.NoException) (ht : t.workers = s.workers)
    {worker : Nat} {p q : Phase IN} (hphase : s.workers[worker]? = some p) (hq : q ≠ .raised)
    (hle : s.pending + q.isReading.toNat ≤ t.inputQueue.size + p.isReading.toNat) :
    (t.goto worker q).Covered where
  noException hmem := by
    simp only [goto, ht] at hmem
    rcases List.mem_or_eq_of_mem_set hmem with h | h
    · exact hs h
    · exact hq h.symm
  pending_le := by
    have hcount := countP_set_phase (q := q) hphase
    simp only [pending, goto, ht] at hle ⊢
    omega

/-- A step that meets the condition keeps the reads covered. -/
theorem covered_step {s s' : WorkQueue IN OUT} {e : Event IN} (hs : s.Covered)
    (h : step answer s e = some s') (hok : s.Enough e) : s'.Covered := by
  have hle := hs.pending_le
  cases step_move h with
  | writeInput data =>
    refine ⟨hs.noException, ?_⟩
    rw [ThreadSafeQueue.size_pushBack]
    exact Nat.le_succ_of_le hle
  | readOutput rest => exact ⟨hs.noException, hle⟩
  | foundEmpty hphase hempty => exact covered_goto hs.noException rfl hphase nofun hle
  | found hphase hempty =>
    have hlt : s.pending < s.inputQueue.size := by
      rcases hok with hempty' | hlt
      · rw [hempty] at hempty'
        cases hempty'
      · exact hlt
    exact covered_goto hs.noException rfl hphase nofun hlt
  | read hphase hpop =>
    -- One item and one pending read less.
    have hsize := ThreadSafeQueue.size_of_popFront hpop
    have hle' := le_of_le_of_eq hle hsize
    exact covered_goto (q := .writing _) hs.noException (by rfl) hphase nofun hle'
  | raise hphase hpop =>
    -- The worker itself is pending, so there is an item for it.
    have hsize := ThreadSafeQueue.popFront_eq_none.mp hpop
    have hpending : 0 < s.pending :=
      List.countP_pos_iff.mpr ⟨.reading, List.mem_of_getElem? hphase, rfl⟩
    omega
  | write hphase => exact covered_goto (q := .testing) hs.noException (by rfl) hphase nofun hle
  | again hphase => exact covered_goto hs.noException rfl hphase nofun hle

/-! ## Tests that find too few items -/

/-- A test that does not meet the condition leaves more pending reads than items. -/
theorem overdrawn_of_not_enough {s s' : WorkQueue IN OUT} {e : Event IN}
    (h : step answer s e = some s') (hbad : ¬ s.Enough e) : s'.inputQueue.size < s'.pending := by
  cases step_move h with
  | @found worker hphase hempty =>
    have hle : s.inputQueue.size ≤ s.pending := by
      by_contra hlt
      exact hbad (Or.inr (Nat.lt_of_not_le hlt))
    have hcount := countP_set_phase (q := .reading) hphase
    simp only [Phase.isReading, Bool.toNat_true, Bool.toNat_false] at hcount
    simp only [pending, goto] at hle ⊢
    omega
  | foundEmpty hphase hempty => exact absurd (Or.inl hempty) hbad
  | _ => exact absurd trivial hbad

/-- With more pending reads than items, one of them raises, in whatever order they come. -/
theorem exists_reads {s : WorkQueue IN OUT} (h : s.inputQueue.size < s.pending) :
    ∃ reads : List Nat,
      ¬ Everywhere (step answer) NoException s (reads.map .readInputQueue) := by
  obtain ⟨phase, hmem, hreading⟩ := List.countP_pos_iff.mp (Nat.zero_lt_of_lt h)
  obtain ⟨worker, hworker⟩ := List.getElem?_of_mem hmem
  obtain rfl : phase = .reading := by
    cases phase <;> simp_all [Phase.isReading]
  cases hpop : s.inputQueue.popFront with
  | none =>
    have hstep : step answer s (.readInputQueue worker) = some (s.goto worker .raised) := by
      simp only [step, hworker, hpop]
    refine ⟨[worker], fun hev => everywhere_head (hev.2 _ hstep) ?_⟩
    obtain ⟨hlt, -⟩ := List.getElem?_eq_some_iff.mp hworker
    exact List.mem_set hlt .raised
  | some r =>
    obtain ⟨data, rest⟩ := r
    have hstep : step answer s (.readInputQueue worker) =
        some ({ s with inputQueue := rest }.goto worker (.writing data)) := by
      simp only [step, hworker, hpop]
    have hsize := ThreadSafeQueue.size_of_popFront hpop
    have hrest : ({ s with inputQueue := rest }.goto worker (.writing data)).inputQueue.size <
        ({ s with inputQueue := rest }.goto worker (.writing data)).pending := by
      have hcount := countP_set_phase (q := .writing data) hworker
      simp only [Phase.isReading, Bool.toNat_true, Bool.toNat_false] at hcount
      simp only [pending, goto] at h ⊢
      omega
    obtain ⟨reads, hreads⟩ := exists_reads hrest
    exact ⟨worker :: reads, fun hev => hreads (hev.2 _ hstep)⟩
termination_by s.inputQueue.size
decreasing_by
  simp only [goto]
  omega

/-- From a covered state, a run that breaks the condition has a prefix after which the pending
reads can be scheduled so that one raises. -/
theorem exists_exception_of_covered : ∀ (es : List (Event IN)) (s : WorkQueue IN OUT), s.Covered →
    ¬ Always (step answer) Enough s es → ∃ pre, pre <+: es ∧ ∃ reads : List Nat,
      ¬ Everywhere (step answer) NoException s (pre ++ reads.map .readInputQueue)
  | [], _, _, h => absurd trivial h
  | e :: es, s, hs, h => by
    obtain ⟨s', hn⟩ := not_forall.mp h
    obtain ⟨hstep, hn⟩ := Classical.not_imp.mp hn
    by_cases hok : s.Enough e
    · obtain ⟨pre, hpre, reads, hreads⟩ :=
        exists_exception_of_covered es s' (covered_step hs hstep hok) fun ha => hn ⟨hok, ha⟩
      exact ⟨e :: pre, List.cons_prefix_cons.mpr ⟨rfl, hpre⟩, reads, fun hev =>
        hreads (hev.2 s' hstep)⟩
    · obtain ⟨reads, hreads⟩ := exists_reads (overdrawn_of_not_enough hstep hok)
      exact ⟨[e], List.cons_prefix_cons.mpr ⟨rfl, List.nil_prefix⟩, reads, fun hev =>
        hreads (hev.2 s' hstep)⟩

/-- **The condition is exact.** A run that breaks it has a prefix after which the pending reads
can be scheduled so that one raises. -/
theorem exists_exception (answer : IN → OUT) (threadNumber : Nat) (es : List (Event IN))
    (h : ¬ Always (step answer) Enough (start threadNumber) es) :
    ∃ pre, pre <+: es ∧ ∃ reads : List Nat, ¬ Everywhere (step answer) NoException
      (start threadNumber) (pre ++ reads.map .readInputQueue) :=
  exists_exception_of_covered es _ (covered_start threadNumber) h

/-! ## Draining the queue -/

/-- **No worker's read raises** in a run in which every worker that finds the queue not empty finds
more items than there are workers about to read. -/
theorem noException_of_enough (answer : IN → OUT) (threadNumber : Nat) (es : List (Event IN))
    (h : Always (step answer) Enough (start threadNumber) es) :
    Everywhere (step answer) NoException (start threadNumber) es :=
  everywhere_of_always (fun _ hs => hs.noException) (fun _ _ _ => covered_step)
    (covered_start threadNumber) h

end WorkQueue

/-- `WorkerIn` of the unit test. -/
structure WorkerIn where
  a : UInt32 := 0
  b : UInt32 := 0
  deriving Repr, DecidableEq

/-- `WorkerOut` of the unit test. -/
structure WorkerOut extends WorkerIn where
  r : UInt32 := 0
  deriving Repr, DecidableEq

/-- What `TPTestWorker::run` answers. -/
def TPTestWorker.answer (wi : WorkerIn) : WorkerOut := { wi with r := wi.a + wi.b }

namespace WorkQueue

/-- Two workers, each with an item of its own. -/
theorem noException_two_items :
    Everywhere (step TPTestWorker.answer) NoException (start 2)
      [.writeInput ⟨0, 0⟩, .writeInput ⟨1, 1⟩, .inputQueueEmpty 0, .inputQueueEmpty 1,
        .readInputQueue 1, .readInputQueue 0] := by
  refine noException_of_enough _ 2 _ ?_
  refine always_cons rfl trivial (always_cons rfl trivial ?_)
  refine always_cons rfl (Or.inr (by decide)) (always_cons rfl (Or.inr (by decide)) ?_)
  exact always_cons rfl trivial (always_cons rfl trivial trivial)

/-- Two workers find one item and both read it. -/
theorem exception_one_item :
    ¬ Everywhere (step TPTestWorker.answer) NoException (start 2)
      [.writeInput ⟨0, 0⟩, .inputQueueEmpty 0, .inputQueueEmpty 1, .readInputQueue 0,
        .readInputQueue 1] := by
  rw [everywhere_iff_reached]
  intro h
  exact h _ _ (List.prefix_refl _) rfl (by decide)

end WorkQueue

end WinterWind.Utils
