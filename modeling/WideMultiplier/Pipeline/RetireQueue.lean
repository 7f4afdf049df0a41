import WideMultiplier.Pipeline.PartialSum

/-!
# The retirement queue

Partial sums wait here for as long as the adder tree that they stand for would take. A sum enters at
the tail with a number of cycles to wait. Each clock tick lets go of every sum whose wait is over,
in queue order, and counts the others down, which keep their order.
-/

namespace WideMultiplier

/-- The number of slots in the queue. -/
abbrev retireQueueCapacity : Nat := 8

/-- A partial sum, and the cycles that it still has to wait. -/
structure InFlight where
  sum : PartialSum
  remaining : Nat
deriving DecidableEq

/-- The partial sums that wait, oldest first. -/
abbrev RetireQueue := List InFlight

namespace RetireQueue

/-- Adds a partial sum that waits `delay` cycles. -/
def push (queue : RetireQueue) (sum : PartialSum) (delay : Nat) : RetireQueue :=
  queue ++ [⟨sum, delay⟩]

/-- The partial sums whose wait is over. -/
def ready (queue : RetireQueue) : List PartialSum :=
  (queue.filter fun entry => entry.remaining == 0).map InFlight.sum

/-- The partial sums that wait longer, one cycle later. -/
def waiting (queue : RetireQueue) : RetireQueue :=
  (queue.filter fun entry => entry.remaining != 0).map fun entry =>
    { entry with remaining := entry.remaining - 1 }

/-- No partial sum is lost or made in a tick. -/
theorem length_ready_add_length_waiting (queue : RetireQueue) :
    queue.ready.length + queue.waiting.length = queue.length := by
  induction queue with
  | nil => rfl
  | cons entry rest ih =>
    simp only [ready, waiting, List.length_map] at ih ⊢
    by_cases hready : entry.remaining = 0 <;> simp [hready] <;> omega

end RetireQueue

end WideMultiplier
