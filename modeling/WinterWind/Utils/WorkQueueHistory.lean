import WinterWind.Utils.ThreadPool
import WinterWind.Library.Fifo

/-!
# Histories of a work queue (`include/core/utils/threadpool.h`)

The four operations of `ThreadPoolWorkQueue` that move items, called by any actors in any order:
`write_input` and `read_output` from outside, `read_input_queue` and `write_output` from the
workers. Nothing is assumed of what an actor calls next.

* `perform` is one call. Each is one step, as it holds the mutex of its queue throughout.
* A `History` keeps the calls made with what each returned. What was written and what was read, and
  by whom, is read off it.

Results:
* **`items_conserved`**: at every moment the items written are the items read, in that order,
  followed by the content of the queue; for the inputs and for the outputs.
* `perform_of_emptyException`: a call that raises leaves both queues as they are.
* **`exists_history`**: a run of the pool's workers is such a history.
-/

namespace WinterWind.Utils

open WinterWind.Library

variable {A IN OUT : Type}

namespace ThreadSafeQueue

variable {T : Type}

theorem queue_of_popFront {q : ThreadSafeQueue T} {r : T × ThreadSafeQueue T}
    (h : q.popFront = some r) : q.queue = r.1 :: r.2.queue := by
  obtain ⟨queue⟩ := q
  cases queue with
  | nil => cases h
  | cons t rest =>
    obtain rfl := Option.some.inj h
    rfl

end ThreadSafeQueue

/-! ## The operations -/

/-- The queues of a `ThreadPoolWorkQueue<T, IN, OUT>`. -/
structure Queues (IN OUT : Type) where
  inputQueue : ThreadSafeQueue IN := ⟨[]⟩
  outputQueue : ThreadSafeQueue OUT := ⟨[]⟩
  deriving Repr, DecidableEq

/-- A call, with the actor that makes it. -/
inductive Call (A IN OUT : Type) where
  | writeInput (actor : A) (data : IN)
  | readInputQueue (actor : A)
  | writeOutput (actor : A) (data : OUT)
  | readOutput (actor : A)
  deriving Repr, DecidableEq

/-- How a call ends. -/
inductive Result (IN OUT : Type) where
  | returned
  | input (data : IN)
  | output (data : OUT)
  /-- `ThreadSafeQueueEmptyException` is thrown. -/
  | emptyException
  deriving Repr, DecidableEq

/-- One call. -/
def perform (q : Queues IN OUT) : Call A IN OUT → Result IN OUT × Queues IN OUT
  | .writeInput _ data => (.returned, { q with inputQueue := q.inputQueue.pushBack data })
  | .readInputQueue _ =>
    match q.inputQueue.popFront with
    | some (data, rest) => (.input data, { q with inputQueue := rest })
    | none => (.emptyException, q)
  | .writeOutput _ data => (.returned, { q with outputQueue := q.outputQueue.pushBack data })
  | .readOutput _ =>
    match q.outputQueue.popFront with
    | some (data, rest) => (.output data, { q with outputQueue := rest })
    | none => (.emptyException, q)

theorem perform_readInputQueue_of_some {q : Queues IN OUT} {rest : ThreadSafeQueue IN} {data : IN}
    (h : q.inputQueue.popFront = some (data, rest)) (actor : A) :
    perform q (.readInputQueue actor) = (.input data, { q with inputQueue := rest }) := by
  simp only [perform, h]

theorem perform_readInputQueue_of_none {q : Queues IN OUT} (h : q.inputQueue.popFront = none)
    (actor : A) : perform q (.readInputQueue actor) = (.emptyException, q) := by
  simp only [perform, h]

theorem perform_readOutput_of_some {q : Queues IN OUT} {rest : ThreadSafeQueue OUT} {data : OUT}
    (h : q.outputQueue.popFront = some (data, rest)) (actor : A) :
    perform q (.readOutput actor) = (.output data, { q with outputQueue := rest }) := by
  simp only [perform, h]

theorem perform_readOutput_of_none {q : Queues IN OUT} (h : q.outputQueue.popFront = none)
    (actor : A) : perform q (.readOutput actor) = (.emptyException, q) := by
  simp only [perform, h]

theorem perform_of_emptyException {q : Queues IN OUT} {c : Call A IN OUT}
    (h : (perform q c).1 = .emptyException) : (perform q c).2 = q := by
  cases c with
  | writeInput actor data => cases h
  | writeOutput actor data => cases h
  | readInputQueue actor =>
    cases hpop : q.inputQueue.popFront with
    | none => rw [perform_readInputQueue_of_none hpop]
    | some r =>
      rw [perform_readInputQueue_of_some hpop] at h
      cases h
  | readOutput actor =>
    cases hpop : q.outputQueue.popFront with
    | none => rw [perform_readOutput_of_none hpop]
    | some r =>
      rw [perform_readOutput_of_some hpop] at h
      cases h

/-- What a call, ended so, has written to the input queue. -/
def Call.inputWritten : Call A IN OUT × Result IN OUT → Option IN
  | (.writeInput _ data, _) => some data
  | _ => none

/-- What a call, ended so, has read from the input queue, and the actor that has it now. -/
def Call.inputRead : Call A IN OUT × Result IN OUT → Option (A × IN)
  | (.readInputQueue actor, .input data) => some (actor, data)
  | _ => none

/-- What a call, ended so, has written to the output queue. -/
def Call.outputWritten : Call A IN OUT × Result IN OUT → Option OUT
  | (.writeOutput _ data, _) => some data
  | _ => none

/-- What a call, ended so, has read from the output queue, and the actor that has it now. -/
def Call.outputRead : Call A IN OUT × Result IN OUT → Option (A × OUT)
  | (.readOutput actor, .output data) => some (actor, data)
  | _ => none

/-- A call writes to the end of the input queue and reads its front. -/
theorem inputs_of_perform (q : Queues IN OUT) (c : Call A IN OUT) :
    q.inputQueue.queue ++ [(c, (perform q c).1)].filterMap Call.inputWritten =
      ([(c, (perform q c).1)].filterMap Call.inputRead).map Prod.snd ++
        (perform q c).2.inputQueue.queue := by
  cases c with
  | writeInput actor data => rfl
  | writeOutput actor data => exact List.append_nil _
  | readInputQueue actor =>
    cases hpop : q.inputQueue.popFront with
    | none =>
      rw [perform_readInputQueue_of_none hpop]
      exact List.append_nil _
    | some r =>
      rw [perform_readInputQueue_of_some hpop, ThreadSafeQueue.queue_of_popFront hpop]
      exact List.append_nil _
  | readOutput actor =>
    cases hpop : q.outputQueue.popFront with
    | none =>
      rw [perform_readOutput_of_none hpop]
      exact List.append_nil _
    | some r =>
      rw [perform_readOutput_of_some hpop]
      exact List.append_nil _

/-- A call writes to the end of the output queue and reads its front. -/
theorem outputs_of_perform (q : Queues IN OUT) (c : Call A IN OUT) :
    q.outputQueue.queue ++ [(c, (perform q c).1)].filterMap Call.outputWritten =
      ([(c, (perform q c).1)].filterMap Call.outputRead).map Prod.snd ++
        (perform q c).2.outputQueue.queue := by
  cases c with
  | writeInput actor data => exact List.append_nil _
  | writeOutput actor data => rfl
  | readInputQueue actor =>
    cases hpop : q.inputQueue.popFront with
    | none =>
      rw [perform_readInputQueue_of_none hpop]
      exact List.append_nil _
    | some r =>
      rw [perform_readInputQueue_of_some hpop]
      exact List.append_nil _
  | readOutput actor =>
    cases hpop : q.outputQueue.popFront with
    | none =>
      rw [perform_readOutput_of_none hpop]
      exact List.append_nil _
    | some r =>
      rw [perform_readOutput_of_some hpop, ThreadSafeQueue.queue_of_popFront hpop]
      exact List.append_nil _

/-! ## Histories -/

/-- The calls made so far with their results, and the queues they left. -/
structure History (A IN OUT : Type) where
  queues : Queues IN OUT := {}
  calls : List (Call A IN OUT × Result IN OUT) := []
  deriving Repr, DecidableEq

namespace History

/-- Both queues are empty and no call has been made. -/
def fresh : History A IN OUT := {}

/-- Some actor makes a call. Every call is enabled. -/
def step (s : History A IN OUT) (c : Call A IN OUT) : Option (History A IN OUT) :=
  some
    { queues := (perform s.queues c).2
      calls := s.calls ++ [(c, (perform s.queues c).1)] }

/-- The inputs written, in the order of the calls. -/
def inputsWritten (s : History A IN OUT) : List IN := s.calls.filterMap Call.inputWritten

/-- The inputs handed to workers, each with the worker, in the order of the calls. -/
def inputsRead (s : History A IN OUT) : List (A × IN) := s.calls.filterMap Call.inputRead

/-- The outputs written, in the order of the calls. -/
def outputsWritten (s : History A IN OUT) : List OUT := s.calls.filterMap Call.outputWritten

/-- The outputs read, each with its reader, in the order of the calls. -/
def outputsRead (s : History A IN OUT) : List (A × OUT) := s.calls.filterMap Call.outputRead

/-- Nothing is lost, duplicated or reordered. -/
structure Conserved (s : History A IN OUT) : Prop where
  inputs : s.inputsWritten = s.inputsRead.map Prod.snd ++ s.queues.inputQueue.queue
  /-- The `k`-th input handed out is the `k`-th written: each goes to one worker. -/
  handed : ∀ (k : Nat) (worker : A) (data : IN),
    s.inputsRead[k]? = some (worker, data) → s.inputsWritten[k]? = some data
  outputs : s.outputsWritten = s.outputsRead.map Prod.snd ++ s.queues.outputQueue.queue
  delivered : ∀ (k : Nat) (reader : A) (data : OUT),
    s.outputsRead[k]? = some (reader, data) → s.outputsWritten[k]? = some data

/-- The invariant: both queues are first in, first out. -/
structure Inv (s : History A IN OUT) : Prop where
  inputs : Fifo s.inputsWritten (s.inputsRead.map Prod.snd) s.queues.inputQueue.queue
  outputs : Fifo s.outputsWritten (s.outputsRead.map Prod.snd) s.queues.outputQueue.queue

theorem inv_fresh : (fresh : History A IN OUT).Inv := ⟨Fifo.fresh, Fifo.fresh⟩

theorem Inv.conserved {s : History A IN OUT} (h : s.Inv) : s.Conserved where
  inputs := h.inputs
  handed k worker data hk := by
    refine h.inputs.popped_getElem ?_
    rw [List.getElem?_map, hk]
    rfl
  outputs := h.outputs
  delivered k reader data hk := by
    refine h.outputs.popped_getElem ?_
    rw [List.getElem?_map, hk]
    rfl

theorem inv_step {s s' : History A IN OUT} {c : Call A IN OUT} (hs : s.Inv)
    (h : step s c = some s') : s'.Inv := by
  obtain rfl := Option.some.inj h
  constructor <;>
    simp only [inputsWritten, inputsRead, outputsWritten, outputsRead, List.filterMap_append,
      List.map_append]
  · exact hs.inputs.extend (inputs_of_perform s.queues c)
  · exact hs.outputs.extend (outputs_of_perform s.queues c)

/-- **The work queue conserves items.** Whoever calls the operations, in whatever order: at every
moment the inputs written are the inputs handed to workers followed by the content of
`m_input_queue`, and the outputs written are the outputs read followed by the content of
`m_output_queue`. -/
theorem items_conserved (calls : List (Call A IN OUT)) : Everywhere step Conserved fresh calls :=
  everywhere_of_always (fun _ h => h.conserved) (fun _ _ _ hs h _ => inv_step hs h) inv_fresh
    (always_trivial calls fresh)

end History

/-! ## The workers of the pool -/

namespace WorkQueue

variable {answer : IN → OUT}

def queues (s : WorkQueue IN OUT) : Queues IN OUT := ⟨s.inputQueue, s.outputQueue⟩

/-- The call an event makes, if it moves an item. Outside the pool the actor is `none`. -/
def callOf (answer : IN → OUT) (s : WorkQueue IN OUT) :
    Event IN → Option (Call (Option Nat) IN OUT)
  | .writeInput data => some (.writeInput none data)
  | .readOutput => some (.readOutput none)
  | .readInputQueue worker => some (.readInputQueue (some worker))
  | .writeOutput worker =>
    match s.workers[worker]? with
    | some (.writing data) => some (.writeOutput (some worker) (answer data))
    | _ => none
  | .inputQueueEmpty _ => none
  | .enterLoop _ => none

/-- A step of the pool changes the queues as its call does. -/
theorem queues_of_step {s s' : WorkQueue IN OUT} {e : Event IN} (h : step answer s e = some s') :
    s'.queues = ((callOf answer s e).map fun c => (perform s.queues c).2).getD s.queues := by
  cases step_move h with
  | writeInput data => rfl
  | readOutput rest =>
    obtain ⟨r, hpop, heq⟩ := Option.map_eq_some_iff.mp h
    simp only [callOf, Option.map_some, Option.getD_some]
    rw [perform_readOutput_of_some hpop, ← heq]
    rfl
  | foundEmpty hphase hempty => rfl
  | found hphase hempty => rfl
  | read hphase hpop =>
    simp only [callOf, Option.map_some, Option.getD_some]
    rw [perform_readInputQueue_of_some hpop]
    rfl
  | raise hphase hpop =>
    simp only [callOf, Option.map_some, Option.getD_some]
    rw [perform_readInputQueue_of_none hpop]
    rfl
  | write hphase =>
    simp only [callOf, hphase]
    rfl
  | again hphase => rfl

/-- **The pool's runs are histories.** Whatever its workers do, some calls on the queues leave them
as the run does. -/
theorem exists_history {es : List (Event IN)} {s t : WorkQueue IN OUT}
    {q : History (Option Nat) IN OUT} (hq : q.queues = s.queues)
    (hrun : run (step answer) s es = some t) :
    ∃ calls q', run History.step q calls = some q' ∧ q'.queues = t.queues := by
  induction es generalizing s q with
  | nil =>
    obtain rfl := Option.some.inj hrun
    exact ⟨[], q, rfl, hq⟩
  | cons e es ih =>
    obtain ⟨s1, hs1, hrun1⟩ := Option.bind_eq_some_iff.mp hrun
    have hqueues := queues_of_step hs1
    cases hcall : callOf answer s e with
    | none =>
      rw [hcall] at hqueues
      exact ih (hq.trans hqueues.symm) hrun1
    | some c =>
      rw [hcall, Option.map_some, Option.getD_some, ← hq] at hqueues
      obtain ⟨calls, q', hcalls, hq'⟩ :=
        @ih s1 ⟨(perform q.queues c).2, q.calls ++ [(c, (perform q.queues c).1)]⟩ hqueues.symm hrun1
      exact ⟨c :: calls, q', hcalls, hq'⟩

end WorkQueue

end WinterWind.Utils
