import WideMultiplier.Proofs.Pipeline.RetireTimes

/-!
# The retirement queue in its slots

The queue has a fixed number of slots, and the partial sums that wait stand in the first of them. A
tick passes over these once: it hands out every sum whose wait is over, and moves every other entry
to the first slot that is free by then, one cycle closer to its end. `QueueSlots.tick_entries` says
that this is what a tick does to the list of entries, and `QueueSlots.fed_entries` that the slots
hold the queue in every cycle, with a slot free for each push.
-/

namespace WideMultiplier

namespace RetireQueue

/-- An entry at the tail retires behind all others. -/
theorem ready_concat (queue : RetireQueue) (entry : InFlight) :
    ready (queue ++ [entry]) =
      if entry.remaining = 0 then ready queue ++ [entry.sum] else ready queue := by
  by_cases hready : entry.remaining = 0 <;> simp [ready, hready]

/-- An entry at the tail waits on behind all others. -/
theorem waiting_concat (queue : RetireQueue) (entry : InFlight) :
    waiting (queue ++ [entry]) =
      if entry.remaining = 0 then waiting queue
      else waiting queue ++ [{ entry with remaining := entry.remaining - 1 }] := by
  by_cases hready : entry.remaining = 0 <;> simp [waiting, hready]

end RetireQueue

/-- The slots of a queue, with the number of those that are in use. -/
structure QueueSlots where
  slots : Vector InFlight retireQueueCapacity
  used : Nat

namespace QueueSlots

/-- A queue with no slot in use. -/
def empty : QueueSlots :=
  ⟨Vector.replicate retireQueueCapacity ⟨⟨0, 0, Wide.zero⟩, 0⟩, 0⟩

/-- The entries in use, oldest first. -/
def entries (queue : QueueSlots) : RetireQueue :=
  queue.slots.toList.take queue.used

/-- Puts a partial sum that waits `delay` cycles into the next slot. -/
def push (queue : QueueSlots) (sum : PartialSum) (delay : Nat) : QueueSlots :=
  ⟨queue.slots.setIfInBounds queue.used ⟨sum, delay⟩, queue.used + 1⟩

/-- What a pass over the slots works on: the slots, the number of entries that it has kept, and the
partial sums that it has handed out. -/
structure Pass where
  slots : Vector InFlight retireQueueCapacity
  kept : Nat
  retired : List PartialSum

/-- The pass comes to an entry: a sum whose wait is over is handed out, and any other entry moves to
the slot behind those that were kept. -/
def Pass.visit (pass : Pass) (entry : InFlight) : Pass :=
  if entry.remaining = 0 then { pass with retired := pass.retired ++ [entry.sum] }
  else
    { pass with
      slots := pass.slots.setIfInBounds pass.kept
        { entry with remaining := entry.remaining - 1 }
      kept := pass.kept + 1 }

/-- The pass over the first slots, so many of them. -/
def passOver (queue : QueueSlots) : Nat → Pass
  | 0 => ⟨queue.slots, 0, []⟩
  | index + 1 =>
    let before := queue.passOver index
    match before.slots[index]? with
    | some entry => before.visit entry
    | none => before

/-- Lets the queue tick: the queue after it, and the partial sums whose wait is over. -/
def tick (queue : QueueSlots) : QueueSlots × List PartialSum :=
  let pass := queue.passOver queue.used
  (⟨pass.slots, pass.kept⟩, pass.retired)

/-! ## A pass -/

/-- An entry that is put behind the first slots stands behind their entries. -/
theorem take_put (slots : Vector InFlight retireQueueCapacity) {place : Nat}
    (h : place < retireQueueCapacity) (entry : InFlight) :
    (slots.setIfInBounds place entry).toList.take (place + 1) =
      slots.toList.take place ++ [entry] := by
  have hroom : place < slots.toList.length := by
    rw [Vector.length_toList]
    exact h
  rw [Vector.toList_setIfInBounds, List.take_add_one, List.take_set_of_le (Nat.le_refl place),
    List.getElem?_set_self hroom]
  rfl

variable {queue : QueueSlots}

/-- What a pass has done when it comes to a slot. It writes no slot that it has yet to visit. -/
structure Passed (queue : QueueSlots) (index : Nat) (pass : Pass) : Prop where
  kept_le : pass.kept ≤ index
  kept_eq : pass.slots.toList.take pass.kept = RetireQueue.waiting (queue.slots.toList.take index)
  retired_eq : pass.retired = RetireQueue.ready (queue.slots.toList.take index)
  drop_eq : pass.slots.toList.drop index = queue.slots.toList.drop index

/-- A visit takes the pass over one more slot. -/
theorem Passed.visit {index : Nat} {pass : Pass} {entry : InFlight} (h : Passed queue index pass)
    (hindex : index < retireQueueCapacity) (hentry : queue.slots.toList[index]? = some entry) :
    Passed queue (index + 1) (pass.visit entry) := by
  have htake : queue.slots.toList.take (index + 1) = queue.slots.toList.take index ++ [entry] := by
    rw [List.take_add_one, hentry]
    rfl
  have hdrop : pass.slots.toList.drop (index + 1) = queue.slots.toList.drop (index + 1) := by
    rw [← List.drop_drop, ← List.drop_drop, h.drop_eq]
  have hkept := h.kept_le
  by_cases hready : entry.remaining = 0
  · rw [Pass.visit, if_pos hready]
    refine ⟨Nat.le_succ_of_le hkept, ?_, ?_, hdrop⟩
    · rw [htake, RetireQueue.waiting_concat, if_pos hready, h.kept_eq]
    · rw [htake, RetireQueue.ready_concat, if_pos hready, h.retired_eq]
  · rw [Pass.visit, if_neg hready]
    refine ⟨Nat.succ_le_succ hkept, ?_, ?_, ?_⟩
    · rw [htake, RetireQueue.waiting_concat, if_neg hready, ← h.kept_eq]
      exact take_put pass.slots (Nat.lt_of_le_of_lt hkept hindex) _
    · rw [htake, RetireQueue.ready_concat, if_neg hready, h.retired_eq]
    · -- the slot that is written has been visited
      rw [← hdrop]
      simp [List.drop_set_of_lt, Nat.lt_succ_of_le hkept]

/-- A pass over slots is what it should be. -/
theorem passed_passOver (queue : QueueSlots) {index : Nat} (h : index ≤ retireQueueCapacity) :
    Passed queue index (queue.passOver index) := by
  induction index with
  | zero => exact ⟨Nat.le_refl 0, rfl, rfl, rfl⟩
  | succ index ih =>
      have hbefore := ih (Nat.le_of_succ_le h)
      have hhead : (queue.passOver index).slots.toList[index]? = queue.slots.toList[index]? := by
        rw [← List.head?_drop, ← List.head?_drop, hbefore.drop_eq]
      have hslot : queue.slots.toList[index]? = some queue.slots[index] := by
        simp [Nat.lt_of_succ_le h]
      have hentry : (queue.passOver index).slots[index]? = some queue.slots[index] := by
        rw [← hslot, ← hhead]
        simp
      rw [passOver, hentry]
      exact hbefore.visit h hslot

/-- A tick hands out the partial sums whose wait is over, and leaves the others in the first slots,
one cycle later. -/
theorem tick_entries (h : queue.used ≤ retireQueueCapacity) :
    queue.tick.1.entries = queue.entries.waiting ∧ queue.tick.2 = queue.entries.ready ∧
      queue.tick.1.used ≤ queue.used := by
  have hpassed := queue.passed_passOver h
  exact ⟨hpassed.kept_eq, hpassed.retired_eq, hpassed.kept_le⟩

/-- A push into a free slot puts its partial sum behind all others. -/
theorem push_entries (h : queue.used < retireQueueCapacity) (sum : PartialSum) (delay : Nat) :
    (queue.push sum delay).entries = queue.entries.push sum delay :=
  take_put queue.slots h ⟨sum, delay⟩

/-- So many entries are in use. -/
theorem length_entries (h : queue.used ≤ retireQueueCapacity) :
    queue.entries.length = queue.used := by
  simp [entries, h]

/-! ## Accumulate cycles -/

/-- The queue with a partial sum pushed, if there is one. -/
def offered (retirement : Retirement) (queue : QueueSlots) : Option PartialSum → QueueSlots
  | none => queue
  | some sum => queue.push sum (retirement.delay sum.products)

/-- The queue after some accumulate cycles. In cycle `n`, counted from 0, the partial sum `offers n`
is pushed, if there is one. -/
def fed (retirement : Retirement) (offers : Nat → Option PartialSum) : Nat → QueueSlots
  | 0 => empty
  | cycles + 1 => ((fed retirement offers cycles).offered retirement (offers cycles)).tick.1

/-- A push that finds a free slot does to the entries what it does to the queue of a pipeline. -/
theorem offered_entries {pipeline : Pipeline} {offer : Option PartialSum}
    (hentries : queue.entries = pipeline.queue) (hroom : queue.used < retireQueueCapacity) :
    (queue.offered pipeline.shape.retirement offer).entries =
        (pipeline.offered offer).enqueue.queue ∧
      (queue.offered pipeline.shape.retirement offer).used ≤ retireQueueCapacity := by
  cases offer with
  | none => exact ⟨hentries, Nat.le_of_lt hroom⟩
  | some sum =>
      refine ⟨?_, hroom⟩
      rw [offered, push_entries hroom, hentries]
      rfl

/-- In every cycle the slots hold the queue, and one of them is free. -/
theorem fed_entries (shape : Shape) (offers : Nat → Option PartialSum) (cycles : Nat) :
    (fed shape.retirement offers cycles).entries = (Pipeline.fed shape offers cycles).queue ∧
      (fed shape.retirement offers cycles).used < retireQueueCapacity := by
  induction cycles with
  | zero => exact ⟨rfl, show 0 < retireQueueCapacity by decide⟩
  | succ cycles ih =>
      obtain ⟨hoffered, hroom⟩ := @offered_entries _ _ (offers cycles) ih.1 ih.2
      rw [Pipeline.fed_shape] at hoffered hroom
      obtain ⟨hwaiting, -, hused⟩ := tick_entries hroom
      have hentries : (fed shape.retirement offers (cycles + 1)).entries =
          (Pipeline.fed shape offers (cycles + 1)).queue := by
        rw [fed, hwaiting, hoffered, Pipeline.fed, Pipeline.accumulate_queue]
      refine ⟨hentries, ?_⟩
      -- no entry waits longer than the longest delay, so there are fewer than slots
      have hlength := (Pipeline.fed_dueWithin shape offers (cycles + 1)).length_le
      rw [← hentries, fed, length_entries (hused.trans hroom)] at hlength
      exact Nat.lt_of_le_of_lt (hlength.trans shape.retirement.limit_le) (by decide)

/-- In every cycle the slots hand out the partial sums that retire, in order. -/
theorem fed_retired (shape : Shape) (offers : Nat → Option PartialSum) (cycle : Nat) :
    ((fed shape.retirement offers cycle).offered shape.retirement (offers cycle)).tick.2 =
      shape.retirement.retiring offers cycle := by
  obtain ⟨hentries, hfree⟩ := fed_entries shape offers cycle
  obtain ⟨hoffered, hroom⟩ := @offered_entries _ _ (offers cycle) hentries hfree
  rw [Pipeline.fed_shape] at hoffered hroom
  obtain ⟨-, hready, -⟩ := tick_entries hroom
  have hshape := Pipeline.fed_shape shape offers cycle
  rw [hready, hoffered]
  exact Pipeline.ready_of_entries (congrArg Shape.retirement hshape)
    (Pipeline.fed_queue shape offers cycle) rfl

end QueueSlots

end WideMultiplier
