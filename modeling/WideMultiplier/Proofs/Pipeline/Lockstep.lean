import WideMultiplier.Proofs.Pipeline.Stages

/-!
# What a pipeline does hangs on no limb

Pipelines are in step (`Pipeline.InStep`) when they differ at most in the limbs that they have
fetched and in the sums that they have formed. Every stage leaves pipelines in step, whatever
factors they work on, and reports the same events but for the limbs of diagonals that close:
`Pipeline.InStep.step`.
-/

namespace WideMultiplier

/-! ## Without the limbs -/

/-- A closed diagonal without the limb that it gave. -/
def ClosedDiagonal.withoutLimb (closed : ClosedDiagonal) : ClosedDiagonal :=
  { closed with limb := 0 }

/-- An event without the limb of a diagonal that closed. -/
def Event.withoutLimb : Event → Event
  | .diagonalClosed diagonal _ => .diagonalClosed diagonal 0
  | event => event

/-- The diagonal of a batch that was fetched, and the number of its pairs. -/
def FetchedBatch.outline (batch : FetchedBatch) : Nat × Nat :=
  (batch.diagonal, batch.limbs.length)

/-- The diagonal of a partial sum, and the number of its products. -/
def PartialSum.outline (sum : PartialSum) : Nat × Nat :=
  (sum.diagonal, sum.products)

/-- What the retirement queue knows of a partial sum besides its value. -/
def InFlight.outline (entry : InFlight) : (Nat × Nat) × Nat :=
  (entry.sum.outline, entry.remaining)

/-- A batch has as many pairs of limbs as index pairs, whatever the limbs are. -/
theorem FetchedBatch.outline_fetch (operands : Operands) (batch : Batch) :
    (fetch operands batch).outline = (batch.diagonal, batch.pairs.length) := by
  simp [outline, fetch]

/-- Batches that are fetched differ in their limbs only. -/
theorem FetchedBatch.outline_map_fetch (issued : Option Batch) (first second : Operands) :
    (issued.map (fetch second)).map outline = (issued.map (fetch first)).map outline := by
  cases issued with
  | none => rfl
  | some batch => simp [outline_fetch]

/-- A batch gives as many products as it has pairs of limbs. -/
theorem FetchedBatch.outline_map_multiply (fetched : Option FetchedBatch) :
    (fetched.map multiply).map PartialSum.outline = fetched.map outline := by
  cases fetched <;> rfl

namespace RetireQueue

/-- Which sums are let go hangs on their waits alone. -/
theorem outline_ready (queue : RetireQueue) :
    queue.ready.map PartialSum.outline =
      ((queue.map InFlight.outline).filter fun entry => entry.2 == 0).map Prod.fst := by
  simp only [ready, List.map_map, List.filter_map]
  rfl

/-- Which sums wait on hangs on their waits alone. -/
theorem outline_waiting (queue : RetireQueue) :
    queue.waiting.map InFlight.outline =
      ((queue.map InFlight.outline).filter fun entry => entry.2 != 0).map fun entry =>
        (entry.1, entry.2 - 1) := by
  simp only [waiting, List.map_map, List.filter_map]
  rfl

end RetireQueue

namespace Pipeline

/-- Pipelines that differ at most in the values of limbs and sums. -/
structure InStep (left right : Pipeline) : Prop where
  shape : right.shape = left.shape
  cursor : right.cursor = left.cursor
  issued : right.issued = left.issued
  fetched : right.fetched.map FetchedBatch.outline = left.fetched.map FetchedBatch.outline
  summed : right.summed.map PartialSum.outline = left.summed.map PartialSum.outline
  queue : right.queue.map InFlight.outline = left.queue.map InFlight.outline
  counters : right.counters = left.counters
  finished : right.finished = left.finished

namespace InStep

variable {left right : Pipeline}

theorem refl (pipeline : Pipeline) : InStep pipeline pipeline :=
  ⟨rfl, rfl, rfl, rfl, rfl, rfl, rfl, rfl⟩

/-- Pipelines in step have as much in flight. -/
theorem drained_eq (h : InStep left right) : right.drained = left.drained := by
  have hfetched := congrArg Option.isNone h.fetched
  have hsummed := congrArg Option.isNone h.summed
  have hqueue := congrArg List.isEmpty h.queue
  simp only [Option.isNone_map, List.isEmpty_map] at hfetched hsummed hqueue
  rw [drained, drained, h.issued, hfetched, hsummed, hqueue]

/-- As many cycles are counted in both. -/
theorem counted (h : InStep left right) : InStep left.counted right.counted :=
  { h with counters := congrArg Counters.countCycle h.counters }

/-! ## Stages -/

/-- Both issue the same batch. -/
theorem issue (h : InStep left right) :
    InStep left.issue.1 right.issue.1 ∧ right.issue.2 = left.issue.2 := by
  unfold Pipeline.issue
  rw [h.shape, h.cursor]
  split
  · exact ⟨{ h with shape := rfl, cursor := rfl, issued := rfl }, rfl⟩
  · refine ⟨{ h with shape := rfl, cursor := rfl, issued := rfl, counters := ?_ }, rfl⟩
    exact congrArg Counters.countIssue h.counters

/-- Both take a partial sum into the queue, for the same time. -/
theorem enqueue (h : InStep left right) : InStep left.enqueue right.enqueue := by
  have hsummed := h.summed
  unfold Pipeline.enqueue
  cases hleft : left.summed with
  | none =>
      rw [hleft, Option.map_none, Option.map_eq_none_iff] at hsummed
      rw [hsummed]
      exact h
  | some sum =>
      rw [hleft, Option.map_some, Option.map_eq_some_iff] at hsummed
      obtain ⟨other, hright, houtline⟩ := hsummed
      obtain ⟨hdiagonal, hproducts⟩ := Prod.mk.inj houtline
      have hqueue : (right.queue.push other
            (right.shape.retirement.delay other.products)).map InFlight.outline =
          (left.queue.push sum (left.shape.retirement.delay sum.products)).map
            InFlight.outline := by
        simp [RetireQueue.push, InFlight.outline, h.queue, h.shape, hproducts, houtline]
      have hlength := congrArg List.length hqueue
      rw [List.length_map, List.length_map] at hlength
      rw [hright]
      exact { h with
        summed := rfl
        queue := hqueue
        counters := by dsimp only; rw [h.counters, hlength] }

/-- Both let the same partial sums go. -/
theorem tick (h : InStep left right) :
    InStep left.tick.1 right.tick.1 ∧ right.tick.2 = left.tick.2 := by
  have hready : right.queue.ready.map PartialSum.outline =
      left.queue.ready.map PartialSum.outline := by
    rw [RetireQueue.outline_ready, RetireQueue.outline_ready, h.queue]
  have hwaiting : right.queue.waiting.map InFlight.outline =
      left.queue.waiting.map InFlight.outline := by
    rw [RetireQueue.outline_waiting, RetireQueue.outline_waiting, h.queue]
  -- retirements are counted and reported by what the outlines show of them
  have hcounters := congrArg
    (List.foldl (fun counters _ => counters.countRetirement) left.counters) hready
  have hevents := congrArg (List.map fun sum : Nat × Nat => Event.batchRetired sum.1 sum.2) hready
  rw [List.foldl_map, List.foldl_map] at hcounters
  rw [List.map_map, List.map_map] at hevents
  simp only [Pipeline.tick, foldl_retire]
  refine ⟨{ h with queue := hwaiting, counters := ?_ }, hevents⟩
  dsimp only
  rw [h.counters]
  exact hcounters

theorem accumulate (h : InStep left right) :
    InStep left.accumulate.1 right.accumulate.1 ∧ right.accumulate.2 = left.accumulate.2 :=
  h.enqueue.tick

/-! ## A whole cycle -/

/-- A staged cycle leaves pipelines in step, whatever limbs they fetch. -/
theorem shiftStaged (h : InStep left right) (first second : Operands) :
    InStep (left.shiftStaged first).1 (right.shiftStaged second).1 ∧
      (right.shiftStaged second).2 = (left.shiftStaged first).2 := by
  obtain ⟨haccumulate, hretirements⟩ := h.accumulate
  have hmoved : InStep
      { left.accumulate.1 with
        summed := left.accumulate.1.fetched.map FetchedBatch.multiply
        fetched := left.accumulate.1.issued.map (FetchedBatch.fetch first) }
      { right.accumulate.1 with
        summed := right.accumulate.1.fetched.map FetchedBatch.multiply
        fetched := right.accumulate.1.issued.map (FetchedBatch.fetch second) } :=
    { haccumulate with
      fetched := by
        dsimp only
        rw [haccumulate.issued, FetchedBatch.outline_map_fetch]
      summed := by
        have hfetched := haccumulate.fetched
        rwa [← FetchedBatch.outline_map_multiply, ← FetchedBatch.outline_map_multiply]
          at hfetched }
  obtain ⟨hissue, hissues⟩ := hmoved.issue
  exact ⟨hissue, congrArg₂ _ hretirements hissues⟩

/-- A combinational cycle leaves pipelines in step, whatever limbs they fetch. -/
theorem shiftCombinational (h : InStep left right) (first second : Operands) :
    InStep (left.shiftCombinational first).1 (right.shiftCombinational second).1 ∧
      (right.shiftCombinational second).2 = (left.shiftCombinational first).2 := by
  obtain ⟨hissue, hissues⟩ := h.issue
  have hpassed : InStep
      { left.issue.1 with
        issued := none
        fetched := none
        summed := left.issue.1.issued.map fun batch =>
          (FetchedBatch.fetch first batch).multiply }
      { right.issue.1 with
        issued := none
        fetched := none
        summed := right.issue.1.issued.map fun batch =>
          (FetchedBatch.fetch second batch).multiply } :=
    { hissue with
      issued := rfl
      fetched := rfl
      summed := by
        have hbatch := FetchedBatch.outline_map_fetch left.issue.1.issued first second
        rw [← FetchedBatch.outline_map_multiply, ← FetchedBatch.outline_map_multiply] at hbatch
        rw [hissue.issued]
        simpa only [Option.map_map, Function.comp_def] using hbatch }
  obtain ⟨haccumulate, hretirements⟩ := hpassed.accumulate
  exact ⟨haccumulate, congrArg₂ _ hissues hretirements⟩

/-- While the batches in flight move, pipelines stay in step. -/
theorem moved (h : InStep left right) (first second : Operands) :
    InStep (left.moved first) (right.moved second) ∧
      right.movedEvents second = left.movedEvents first := by
  have hcounted := h.counted
  unfold Pipeline.moved Pipeline.movedEvents shift
  rw [hcounted.shape]
  split
  · exact hcounted.shiftStaged first second
  · exact hcounted.shiftCombinational first second

/-- Pipelines in step close the same diagonal. -/
theorem close (h : InStep left right) (first second : Product) :
    InStep (left.close first).pipeline (right.close second).pipeline ∧
      (right.close second).closed.map ClosedDiagonal.withoutLimb =
        (left.close first).closed.map ClosedDiagonal.withoutLimb ∧
      (right.close second).events.map Event.withoutLimb =
        (left.close first).events.map Event.withoutLimb := by
  have hclosing := congrArg Counters.countClosing h.counters
  unfold Pipeline.close
  dsimp only
  rw [h.cursor]
  refine ⟨?_, rfl, rfl⟩
  split
  · exact { h with cursor := rfl, counters := hclosing }
  · exact { h with cursor := rfl, counters := hclosing, finished := rfl }

/-- A cycle leaves pipelines in step, whatever factors they work on and whatever stands in their
products. It closes the same diagonal in both or in neither, and reports the same. -/
theorem step (h : InStep left right) (first second : Operands) (product other : Product) :
    InStep (left.step first product).pipeline (right.step second other).pipeline ∧
      (right.step second other).closed.map ClosedDiagonal.withoutLimb =
        (left.step first product).closed.map ClosedDiagonal.withoutLimb ∧
      (right.step second other).events.map Event.withoutLimb =
        (left.step first product).events.map Event.withoutLimb := by
  cases hfinished : left.finished with
  | true =>
      have hright := h.finished.trans hfinished
      simpa [Pipeline.step, hfinished, hright] using h
  | false =>
      obtain ⟨hmoved, hevents⟩ := h.moved first second
      obtain ⟨hclose, hclosed, hclosings⟩ := hmoved.close product other
      rw [step_eq second other (h.finished.trans hfinished), step_eq first product hfinished,
        hmoved.cursor, hmoved.drained_eq, hmoved.counters, h.counters, hevents]
      split
      · refine ⟨hclose, hclosed, ?_⟩
        rw [List.map_append, List.map_append, hclosings]
      · split
        · exact ⟨{ hmoved with counters := rfl }, rfl, rfl⟩
        · exact ⟨hmoved, rfl, rfl⟩

end InStep

end Pipeline

end WideMultiplier
