import WideMultiplier.Proofs.Pipeline.Flow
import WideMultiplier.Proofs.Pipeline.Progress

/-!
# How full the retirement queue gets

At most one partial sum joins the queue in a cycle, and none stays longer than its delay. A sum is
therefore gone before more than a few others stand behind it: `RetireQueue.DueWithin` bounds the
cycles that it still waits together with the sums behind it, `RetireQueue.dueWithin_push` and
`RetireQueue.DueWithin.waiting` keep the bound through a cycle, and `Pipeline.dueWithin_step`
through a run.
-/

namespace WideMultiplier

/-- The longest that a partial sum of any size waits. -/
def Retirement.limit : Retirement → Nat
  | .immediate => 0
  | .delayed cap => min maxDelay cap

theorem Retirement.delay_le_limit (retirement : Retirement) (count : Nat) :
    retirement.delay count ≤ retirement.limit := by
  cases retirement with
  | immediate => exact Nat.le_refl _
  | delayed cap => exact min_le_min_right cap (treeDepth_le count)

theorem Retirement.limit_le (retirement : Retirement) : retirement.limit ≤ maxDelay := by
  cases retirement with
  | immediate => exact Nat.zero_le _
  | delayed cap => exact Nat.min_le_left _ _

namespace RetireQueue

/-- Whether the cycles that each partial sum still waits and the sums behind it are together fewer
than a limit. -/
def DueWithin (limit : Nat) : RetireQueue → Prop
  | [] => True
  | entry :: rest => entry.remaining + rest.length < limit ∧ DueWithin limit rest

/-- A tick only takes sums out of the queue. -/
theorem length_waiting_le (queue : RetireQueue) : queue.waiting.length ≤ queue.length := by
  have hkept := length_ready_add_length_waiting queue
  omega

/-- A sum that joins the queue stands behind all others. -/
theorem dueWithin_push {limit delay : Nat} {queue : RetireQueue} (h : DueWithin limit queue)
    (sum : PartialSum) (hdelay : delay ≤ limit) :
    DueWithin (limit + 1) (queue.push sum delay) := by
  induction queue with
  | nil => exact ⟨Nat.lt_succ_of_le hdelay, trivial⟩
  | cons entry rest ih =>
      have hentry := h.1
      refine ⟨?_, ih h.2⟩
      show entry.remaining + (push rest sum delay).length < limit + 1
      rw [push, List.length_append, List.length_singleton]
      omega

namespace DueWithin

variable {limit : Nat} {queue : RetireQueue}

theorem succ (h : DueWithin limit queue) : DueWithin (limit + 1) queue := by
  induction queue with
  | nil => trivial
  | cons entry rest ih => exact ⟨Nat.lt_succ_of_lt h.1, ih h.2⟩

/-- A tick takes a cycle off each wait. -/
theorem waiting (h : DueWithin (limit + 1) queue) : DueWithin limit queue.waiting := by
  induction queue with
  | nil => trivial
  | cons entry rest ih =>
      have hentry := h.1
      have hrest := length_waiting_le rest
      rw [waiting_cons]
      split
      · exact ih h.2
      · refine ⟨?_, ih h.2⟩
        show entry.remaining - 1 + (RetireQueue.waiting rest).length < limit
        omega

/-- Such a queue is no longer than its limit. -/
theorem length_le (h : DueWithin limit queue) : queue.length ≤ limit := by
  cases queue with
  | nil => exact Nat.zero_le _
  | cons entry rest =>
      have hentry := h.1
      rw [List.length_cons]
      omega

end DueWithin

end RetireQueue

namespace Pipeline

/-- One partial sum at most joins the queue. -/
theorem length_enqueue_le (pipeline : Pipeline) :
    pipeline.enqueue.queue.length ≤ pipeline.queue.length + 1 := by
  unfold enqueue
  split
  · exact Nat.le_succ _
  · exact Nat.le_of_eq List.length_append

/-- The partial sum in the register joins the queue for its delay. -/
theorem dueWithin_enqueue {pipeline : Pipeline}
    (h : pipeline.queue.DueWithin pipeline.shape.retirement.limit) :
    pipeline.enqueue.queue.DueWithin (pipeline.shape.retirement.limit + 1) := by
  unfold enqueue
  split
  · exact h.succ
  · next sum hsum =>
      exact RetireQueue.dueWithin_push h sum (pipeline.shape.retirement.delay_le_limit _)

/-- A cycle keeps the queue within the longest delay. -/
theorem dueWithin_step {pipeline : Pipeline}
    (h : pipeline.queue.DueWithin pipeline.shape.retirement.limit) (operands : Operands)
    (product : Product) :
    (pipeline.step operands product).pipeline.queue.DueWithin pipeline.shape.retirement.limit := by
  have hmoved : (pipeline.moved operands).queue.DueWithin pipeline.shape.retirement.limit := by
    rw [moved_queue, ← accumulating_shape operands pipeline]
    refine (dueWithin_enqueue ?_).waiting
    rwa [accumulating_shape, accumulating_queue]
  cases hfinished : pipeline.finished with
  | true => simpa [step, hfinished] using h
  | false =>
      obtain ⟨-, -, hpipeline, -, -⟩ | ⟨-, ⟨counters, hpipeline⟩, -, -⟩ :=
        step_cases operands product hfinished
      · rw [hpipeline, close_queue]
        exact hmoved
      · rw [hpipeline]
        exact hmoved

end Pipeline

end WideMultiplier
