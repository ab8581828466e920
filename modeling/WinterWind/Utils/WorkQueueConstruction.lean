import WinterWind.Library.Loops

/-!
# How a work queue is built (`include/core/utils/threadpool.h`)

The constructors of `ThreadPool` and `ThreadPoolWorkQueue`, each with its loop over the workers. The
first counts in an `uint32_t`, the second in an `uint8_t`, up to the same `m_thread_number`.

* A constructor has a result if it comes to its end within `fuel` tests of each of its loops. The
  failure of `assert(m_thread_number > 0)` ends the program.
* Of a worker there is only how often `set_work_queue(this)` was called on it. That it is a `Thread`
  is a matter of its type, and memory for all of them is taken for granted.

Results:
* `threadPoolWorkQueue_eq`: what the constructor makes, and when it ends.
* **`built_iff`**: a work queue can be built of at most 255 workers.
-/

namespace WinterWind.Utils

open Library

/-- A worker of the pool. -/
structure PoolWorker where
  workQueueCalls : Nat
  deriving Repr, DecidableEq

/-- `set_work_queue(this)`. -/
def PoolWorker.setWorkQueue (worker : PoolWorker) : PoolWorker where
  workQueueCalls := worker.workQueueCalls + 1

/-- `ThreadPool(thread_number)`: its `m_threads`. -/
def threadPool (fuel : Nat) (threadNumber : UInt32) : Option (List PoolWorker) :=
  if 0 < threadNumber then
    loop threadNumber.toNat (fun _ threads => threads ++ [⟨0⟩]) fuel (0 : BitVec 32) []
  else none

/-- `ThreadPoolWorkQueue(thread_number)`: its `m_threads`. -/
def threadPoolWorkQueue (fuel : Nat) (threadNumber : UInt32) : Option (List PoolWorker) := do
  let threads ← threadPool fuel threadNumber
  loop threadNumber.toNat (fun i threads => threads.modify i PoolWorker.setWorkQueue) fuel
    (0 : BitVec 8) threads

/-- The constructor ends, with the workers of the pool each told of the queue once. -/
def Built (threadNumber : UInt32) : Prop :=
  ∃ fuel threads, threadPoolWorkQueue fuel threadNumber = some threads ∧
    threads.length = threadNumber.toNat ∧ ∀ worker ∈ threads, worker.workQueueCalls = 1

theorem foldl_push {α : Type} (x : α) (n : Nat) :
    (List.range n).foldl (fun l _ => l ++ [x]) [] = List.replicate n x := by
  induction n with
  | zero => rfl
  | succ n ih =>
    rw [List.range_succ, List.foldl_append, ih, List.foldl_cons, List.foldl_nil,
      List.replicate_succ']

theorem threadPool_eq (fuel : Nat) (threadNumber : UInt32) : threadPool fuel threadNumber =
    if 0 < threadNumber ∧ threadNumber.toNat < fuel then
      some (List.replicate threadNumber.toNat ⟨0⟩)
    else none := by
  unfold threadPool
  rw [loop_eq, foldl_push]
  have hfits : threadNumber.toNat < 2 ^ 32 := threadNumber.toNat_lt
  by_cases h : 0 < threadNumber
  · rw [if_pos h]
    refine if_congr ?_ rfl rfl
    rw [and_iff_right hfits, and_iff_right h]
  · rw [if_neg h, if_neg fun hand => h hand.1]

/-- **What the constructor makes**, and when it ends. -/
theorem threadPoolWorkQueue_eq (fuel : Nat) (threadNumber : UInt32) :
    threadPoolWorkQueue fuel threadNumber =
      if 0 < threadNumber ∧ threadNumber ≤ 255 ∧ threadNumber.toNat < fuel then
        some (List.replicate threadNumber.toNat ⟨1⟩)
      else none := by
  have hbyte : threadNumber.toNat < 2 ^ 8 ↔ threadNumber ≤ 255 := by
    rw [UInt32.le_iff_toNat_le]
    exact Nat.lt_succ_iff
  unfold threadPoolWorkQueue
  rw [threadPool_eq]
  by_cases h : 0 < threadNumber ∧ threadNumber.toNat < fuel
  · have hmodify := foldl_modify_length PoolWorker.setWorkQueue
      (List.replicate threadNumber.toNat ⟨0⟩)
    rw [List.length_replicate, List.map_replicate] at hmodify
    rw [if_pos h]
    change loop _ _ _ _ _ = _
    rw [loop_eq, hmodify]
    refine if_congr ?_ rfl rfl
    rw [hbyte, and_iff_right h.1]
  · rw [if_neg h, if_neg fun hall => h ⟨hall.1, hall.2.2⟩]
    rfl

/-- **Which work queues can be built**: beyond 255 workers the `uint8_t` never gets there. -/
theorem built_iff (threadNumber : UInt32) :
    Built threadNumber ↔ 0 < threadNumber ∧ threadNumber ≤ 255 := by
  unfold Built
  simp only [threadPoolWorkQueue_eq]
  constructor
  · rintro ⟨fuel, threads, hsome, -⟩
    split at hsome
    · rename_i h
      exact ⟨h.1, h.2.1⟩
    · cases hsome
  · rintro ⟨hpos, hle⟩
    refine ⟨threadNumber.toNat + 1, _, if_pos ⟨hpos, hle, Nat.lt_succ_self _⟩,
      List.length_replicate, ?_⟩
    intro worker hworker
    rw [List.eq_of_mem_replicate hworker]

/-- With 256 workers the second loop goes round for ever. -/
theorem not_built_256 : ¬Built 256 := by
  rintro ⟨fuel, threads, hsome, -⟩
  rw [threadPoolWorkQueue_eq, if_neg fun h => absurd h.2.1 (by decide)] at hsome
  cases hsome

end WinterWind.Utils
