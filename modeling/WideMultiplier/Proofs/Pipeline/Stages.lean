import WideMultiplier.Pipeline
import WideMultiplier.Proofs.LimbPairs
import WideMultiplier.Wide.Total

/-!
# What the stages of a pipeline do

One law for each register and each stage: which registers a stage leaves alone, what it does to the
pairs that are still to be read, and what it does to the sum of everything that was read but is not
yet part of a closed diagonal (`Pipeline.content`). The main statements are `Pipeline.content_moved`
and `Pipeline.issuedPairs_moved`, for a cycle in which no diagonal closes, and
`Pipeline.step_cases`, which says that a cycle moves the batches in flight and then closes a
diagonal exactly when nothing is left of it.
-/

namespace WideMultiplier

/-! ## Sums in registers -/

namespace FetchedBatch

/-- The sum of the products of the limbs in a batch. -/
def total (batch : FetchedBatch) : Nat :=
  (batch.limbs.map fun limbs => limbs.1.toNat * limbs.2.toNat).sum

/-- The products of the limbs in a batch, as they are added up. -/
def addends (batch : FetchedBatch) : List Wide :=
  batch.limbs.map fun limbs => Wide.ofDouble (Limb.product limbs.1 limbs.2)

theorem multiply_value (batch : FetchedBatch) :
    batch.multiply.value = batch.addends.foldl Wide.add Wide.zero := by
  rw [addends, List.foldl_map]
  rfl

theorem sum_addends (batch : FetchedBatch) : (batch.addends.map Wide.value).sum = batch.total := by
  simp [addends, total, Function.comp_def]

/-- A batch is fetched from the limbs that its pairs name. -/
theorem total_fetch (operands : Operands) (batch : Batch) :
    (fetch operands batch).total = operands.sumOf batch.pairs := by
  simp only [total, fetch, List.map_map]
  rfl

/-- The sum of a batch is exact modulo `Wide.modulus`. -/
theorem value_multiply (batch : FetchedBatch) :
    batch.multiply.value.value = batch.total % Wide.modulus := by
  have hfold := Wide.value_foldl_add batch.addends Wide.zero
  rwa [← multiply_value, sum_addends, Wide.value_zero, Nat.zero_add] at hfold

end FetchedBatch

namespace RetireQueue

/-- The sum of the partial sums that wait. -/
def total (queue : RetireQueue) : Nat :=
  (queue.map fun entry => entry.sum.value.value).sum

@[simp] theorem total_push (queue : RetireQueue) (sum : PartialSum) (delay : Nat) :
    (queue.push sum delay).total = queue.total + sum.value.value := by
  simp [total, push]

/-- A tick divides the queue into the sums that are let go and the sums that wait on. -/
theorem total_ready_add_waiting (queue : RetireQueue) :
    (queue.ready.map fun sum => sum.value.value).sum + queue.waiting.total = queue.total := by
  induction queue with
  | nil => rfl
  | cons entry rest ih =>
      simp only [ready, waiting, total, List.map_map, Function.comp_def] at ih ⊢
      by_cases hready : entry.remaining = 0 <;> simp [hready] <;> omega

end RetireQueue

/-- Retirements that are counted one after the other change their own counter alone. -/
theorem Counters.foldl_countRetirement (sums : List PartialSum) (counters : Counters) :
    sums.foldl (fun counters _ => counters.countRetirement) counters =
      { counters with
        retired := (countUpTo wordLimit · 1)^[sums.length] counters.retired } := by
  induction sums generalizing counters with
  | nil => rfl
  | cons sum rest ih => exact ih counters.countRetirement

namespace Pipeline

/-- The pairs of the batch that was issued last. -/
def issuedPairs (pipeline : Pipeline) : List IndexPair :=
  pipeline.issued.elim [] Batch.pairs

/-- The pairs of the current diagonal that are not yet read, in the order in which they will be. -/
def owed (pipeline : Pipeline) : List IndexPair :=
  pipeline.issuedPairs ++ pipeline.cursor.unissued

/-- Everything that was read and is not yet part of a closed diagonal: the running sum, the partial
sums in the queue and in the register, and the products of the batch that was fetched last. -/
def content (pipeline : Pipeline) : Nat :=
  pipeline.accumulator.value + pipeline.queue.total +
    pipeline.summed.elim 0 (fun sum => sum.value.value) +
    pipeline.fetched.elim 0 FetchedBatch.total

/-! ## Issue -/

section Issue

variable (pipeline : Pipeline)

@[simp] theorem issue_shape : pipeline.issue.1.shape = pipeline.shape := by
  unfold issue; split <;> rfl

@[simp] theorem issue_fetched : pipeline.issue.1.fetched = pipeline.fetched := by
  unfold issue; split <;> rfl

@[simp] theorem issue_summed : pipeline.issue.1.summed = pipeline.summed := by
  unfold issue; split <;> rfl

@[simp] theorem issue_queue : pipeline.issue.1.queue = pipeline.queue := by
  unfold issue; split <;> rfl

@[simp] theorem issue_accumulator : pipeline.issue.1.accumulator = pipeline.accumulator := by
  unfold issue; split <;> rfl

@[simp] theorem issue_finished : pipeline.issue.1.finished = pipeline.finished := by
  unfold issue; split <;> rfl

/-- The pairs that are issued come from the front of what the cursor owes. -/
theorem issuedPairs_append_unissued :
    pipeline.issue.1.issuedPairs ++ pipeline.issue.1.cursor.unissued =
      pipeline.cursor.unissued := by
  unfold issue
  split
  · simp [issuedPairs]
  · next batch following hbatch =>
      simpa [issuedPairs] using Cursor.pairs_append_unissued hbatch

/-- Issuing stays on the diagonal. -/
@[simp] theorem issue_diagonal :
    pipeline.issue.1.cursor.diagonal = pipeline.cursor.diagonal := by
  unfold issue
  split
  · rfl
  · next batch following hbatch => exact (Cursor.nextBatch_diagonal hbatch).2

/-- What is issued hangs on the shape and the cursor alone. -/
theorem issue_congr {left right : Pipeline} (hshape : left.shape = right.shape)
    (hcursor : left.cursor = right.cursor) :
    left.issue.1.issued = right.issue.1.issued ∧ left.issue.1.cursor = right.issue.1.cursor := by
  unfold issue
  rw [hshape, hcursor]
  split <;> exact ⟨rfl, rfl⟩

/-- On an exhausted diagonal nothing is issued. -/
theorem issue_of_exhausted (h : pipeline.cursor.exhausted = true) :
    pipeline.issue.1.issued = none ∧ pipeline.issue.1.cursor = pipeline.cursor := by
  unfold issue
  rw [Cursor.nextBatch_eq_none_iff.mpr h]
  exact ⟨rfl, rfl⟩

/-- On a diagonal that is not exhausted at least one pair is issued. -/
theorem issue_remaining_lt (hwidth : 0 < pipeline.shape.width)
    (h : pipeline.cursor.exhausted = false) :
    pipeline.issue.1.cursor.remaining < pipeline.cursor.remaining := by
  unfold issue
  split
  · next hnone =>
      rw [Cursor.nextBatch_eq_none_iff, h] at hnone
      cases hnone
  · next batch following hbatch => exact Cursor.remaining_lt_of_nextBatch hwidth hbatch

/-- Only a batch that is issued is counted. -/
theorem issue_counters : pipeline.issue.1.counters =
    if pipeline.cursor.exhausted then pipeline.counters else pipeline.counters.countIssue := by
  unfold issue
  split
  · next hnone => rw [if_pos (Cursor.nextBatch_eq_none_iff.mp hnone)]
  · next batch following hbatch =>
      refine (if_neg fun hexhausted => ?_).symm
      rw [Cursor.nextBatch_eq_none_iff.mpr hexhausted] at hbatch
      cases hbatch

end Issue

/-! ## Accumulate -/

/-- Folding partial sums in touches the running sum and the counters. -/
theorem foldl_retire (sums : List PartialSum) (pipeline : Pipeline) :
    sums.foldl retire pipeline =
      { pipeline with
        accumulator := (sums.map PartialSum.value).foldl Wide.add pipeline.accumulator
        counters := sums.foldl (fun counters _ => counters.countRetirement)
          pipeline.counters } := by
  induction sums generalizing pipeline with
  | nil => rfl
  | cons sum rest ih => rw [List.foldl_cons, ih]; rfl

section Accumulate

variable (pipeline : Pipeline)

@[simp] theorem accumulate_shape : pipeline.accumulate.1.shape = pipeline.shape := by
  simp only [accumulate, tick, foldl_retire]; unfold enqueue; split <;> rfl

@[simp] theorem accumulate_cursor : pipeline.accumulate.1.cursor = pipeline.cursor := by
  simp only [accumulate, tick, foldl_retire]; unfold enqueue; split <;> rfl

@[simp] theorem accumulate_issued : pipeline.accumulate.1.issued = pipeline.issued := by
  simp only [accumulate, tick, foldl_retire]; unfold enqueue; split <;> rfl

@[simp] theorem accumulate_fetched : pipeline.accumulate.1.fetched = pipeline.fetched := by
  simp only [accumulate, tick, foldl_retire]; unfold enqueue; split <;> rfl

@[simp] theorem accumulate_finished : pipeline.accumulate.1.finished = pipeline.finished := by
  simp only [accumulate, tick, foldl_retire]; unfold enqueue; split <;> rfl

@[simp] theorem accumulate_summed : pipeline.accumulate.1.summed = none := by
  simp only [accumulate, tick, foldl_retire]
  unfold enqueue
  split
  · next hnone => exact hnone
  · rfl

@[simp] theorem accumulate_queue :
    pipeline.accumulate.1.queue = pipeline.enqueue.queue.waiting := by
  simp only [accumulate, tick, foldl_retire]

/-- The accumulate stage counts what it folds in, and observes the queue after the push. -/
theorem accumulate_counters : ∃ depth ≤ pipeline.enqueue.queue.length,
    pipeline.accumulate.1.counters =
      { pipeline.counters.observeQueue depth with
        retired := (countUpTo Counters.wordLimit · 1)^[pipeline.enqueue.queue.ready.length]
          pipeline.counters.retired } := by
  have henqueue : ∃ depth ≤ pipeline.enqueue.queue.length,
      pipeline.enqueue.counters = pipeline.counters.observeQueue depth := by
    unfold enqueue
    split
    · refine ⟨0, Nat.zero_le _, ?_⟩
      rw [Counters.observeQueue, Nat.max_zero]
    · exact ⟨_, Nat.le_refl _, rfl⟩
  obtain ⟨depth, hdepth, hcounters⟩ := henqueue
  refine ⟨depth, hdepth, ?_⟩
  rw [accumulate, tick, foldl_retire]
  simp only [hcounters, Counters.foldl_countRetirement]
  rfl

/-- The partial sum in the register joins the queue. -/
theorem total_enqueue :
    pipeline.enqueue.queue.total =
      pipeline.queue.total + pipeline.summed.elim 0 (fun sum => sum.value.value) := by
  unfold enqueue
  split <;> simp [*]

/-- Accumulating only moves sums along, as long as the running sum can hold them. -/
theorem content_accumulate
    (h : pipeline.accumulator.value + pipeline.queue.total +
      pipeline.summed.elim 0 (fun sum => sum.value.value) < Wide.modulus) :
    pipeline.accumulate.1.accumulator.value + pipeline.accumulate.1.queue.total =
      pipeline.accumulator.value + pipeline.queue.total +
        pipeline.summed.elim 0 (fun sum => sum.value.value) := by
  have hqueue := RetireQueue.total_ready_add_waiting pipeline.enqueue.queue
  have htotal := total_enqueue pipeline
  have haccumulator : pipeline.enqueue.accumulator = pipeline.accumulator := by
    unfold enqueue; split <;> rfl
  -- what leaves the queue goes into the running sum, which is large enough not to wrap around
  rw [accumulate_queue, accumulate, tick, foldl_retire]
  simp only [haccumulator, Wide.value_foldl_add, List.map_map, Function.comp_def]
  rw [Nat.mod_eq_of_lt (by omega)]
  omega

end Accumulate

/-! ## A whole cycle -/

/-- The pairs that the next cycle issues. -/
def issuing (pipeline : Pipeline) : List IndexPair :=
  if pipeline.finished then [] else pipeline.issue.1.issuedPairs

/-- The pairs whose limbs the next cycle reads: in a staged pipeline those of the batch that was
issued in the cycle before, in a combinational one those that it issues itself. -/
def reading (pipeline : Pipeline) : List IndexPair :=
  if pipeline.finished then []
  else
    match pipeline.shape.stages with
    | .staged => pipeline.issuedPairs
    | .combinational => pipeline.issuing

/-- A combinational pipeline keeps nothing in the registers between its stages. -/
def RegistersIdle (pipeline : Pipeline) : Prop :=
  pipeline.shape.stages = .combinational →
    pipeline.issued = none ∧ pipeline.fetched = none ∧ pipeline.summed = none

/-- The pipeline with one more cycle counted. -/
def counted (pipeline : Pipeline) : Pipeline :=
  { pipeline with counters := pipeline.counters.countCycle }

/-- The pipeline after every batch in flight has moved by one cycle, before a diagonal closes. -/
def moved (operands : Operands) (pipeline : Pipeline) : Pipeline :=
  (shift operands pipeline.counted).1

/-- What happens while every batch in flight moves by one cycle. -/
def movedEvents (operands : Operands) (pipeline : Pipeline) : List Event :=
  (shift operands pipeline.counted).2

/-- A combinational pipeline whose batch has gone through all stages but the last. -/
def passing (operands : Operands) (pipeline : Pipeline) : Pipeline :=
  { pipeline with
    cursor := pipeline.issue.1.cursor
    issued := none
    fetched := none
    summed := pipeline.issue.1.issued.map fun batch => (FetchedBatch.fetch operands batch).multiply
    counters := pipeline.counted.issue.1.counters }

section Moved

variable (operands : Operands) (pipeline : Pipeline)

@[simp] theorem moved_shape : (pipeline.moved operands).shape = pipeline.shape := by
  unfold moved shift
  split <;> simp [shiftStaged, shiftCombinational, counted]

@[simp] theorem moved_finished : (pipeline.moved operands).finished = pipeline.finished := by
  unfold moved shift
  split <;> simp [shiftStaged, shiftCombinational, counted]

/-- Counting the cycle changes nothing in what is issued. -/
theorem issue_counted :
    pipeline.counted.issue.1.issued = pipeline.issue.1.issued ∧
      pipeline.counted.issue.1.cursor = pipeline.issue.1.cursor :=
  issue_congr rfl rfl

/-- The cursor moves by what is issued. -/
@[simp] theorem moved_cursor : (pipeline.moved operands).cursor = pipeline.issue.1.cursor := by
  unfold moved shift
  split
  · simp only [shiftStaged]
    exact (issue_congr (by simp [counted]) (by simp [counted])).2
  · simp only [shiftCombinational, accumulate_cursor]
    exact (issue_counted pipeline).2

/-- The registers of a staged pipeline each take what the one before them held. -/
theorem moved_of_staged (hstages : pipeline.shape.stages = .staged) :
    (pipeline.moved operands).issued = pipeline.issue.1.issued ∧
      (pipeline.moved operands).fetched = pipeline.issued.map (FetchedBatch.fetch operands) ∧
      (pipeline.moved operands).summed = pipeline.fetched.map FetchedBatch.multiply ∧
      (pipeline.moved operands).queue = pipeline.counted.accumulate.1.queue ∧
      (pipeline.moved operands).accumulator = pipeline.counted.accumulate.1.accumulator := by
  have hcounted : pipeline.counted.shape.stages = .staged := hstages
  simp only [moved, shift, hcounted, shiftStaged]
  refine ⟨(issue_congr (by simp [counted]) (by simp [counted])).1, ?_, ?_, ?_, ?_⟩ <;>
    simp [counted]

/-- The batch that a combinational pipeline issues is fetched and multiplied in the same cycle. -/
theorem passing_eq : pipeline.passing operands =
    { pipeline.counted.issue.1 with
      issued := none
      fetched := none
      summed := pipeline.counted.issue.1.issued.map fun batch =>
        (FetchedBatch.fetch operands batch).multiply } := by
  unfold passing counted issue
  dsimp only
  split <;> rfl

/-- In a combinational pipeline a batch goes through all stages at once. -/
theorem moved_of_combinational (hstages : pipeline.shape.stages = .combinational) :
    pipeline.moved operands = (pipeline.passing operands).accumulate.1 := by
  have hcounted : pipeline.counted.shape.stages = .combinational := hstages
  simp only [moved, shift, hcounted, shiftCombinational, passing_eq]

/-- Between the stages of a combinational pipeline nothing stays. -/
theorem registersIdle_moved : (pipeline.moved operands).RegistersIdle := by
  intro hstages
  rw [moved_shape] at hstages
  simp [moved_of_combinational operands pipeline hstages, passing]

/-- The register behind the issue stage holds the pairs that were issued, unless they went through
all stages at once. -/
theorem issuedPairs_moved (hfinished : pipeline.finished = false) (hidle : pipeline.RegistersIdle) :
    pipeline.reading ++ (pipeline.moved operands).issuedPairs =
      pipeline.issuedPairs ++ pipeline.issuing := by
  have hissue : pipeline.issuing = pipeline.issue.1.issuedPairs := by simp [issuing, hfinished]
  rw [reading, hfinished]
  cases hstages : pipeline.shape.stages with
  | staged =>
      simp [hissue, issuedPairs, (moved_of_staged operands pipeline hstages).1]
  | combinational =>
      have hnone : (pipeline.moved operands).issued = none :=
        (registersIdle_moved operands pipeline (by simpa using hstages)).1
      simp [issuedPairs, hnone, (hidle hstages).1]

/-- The pairs that are read come from the front of what is owed. -/
theorem reading_append_owed (hfinished : pipeline.finished = false)
    (hidle : pipeline.RegistersIdle) :
    pipeline.reading ++ (pipeline.moved operands).owed = pipeline.owed := by
  have hissue : pipeline.issuing = pipeline.issue.1.issuedPairs := by simp [issuing, hfinished]
  rw [owed, ← List.append_assoc, issuedPairs_moved operands pipeline hfinished hidle,
    List.append_assoc, moved_cursor, hissue, issuedPairs_append_unissued, owed]

/-- A staged cycle adds the products of the batch that it fetches. -/
theorem content_moved_staged (hstages : pipeline.shape.stages = .staged)
    (hbound : pipeline.content + operands.sumOf pipeline.issuedPairs < Wide.modulus) :
    (pipeline.moved operands).content =
      pipeline.content + operands.sumOf pipeline.issuedPairs := by
  obtain ⟨-, hfetched, hsummed, hqueue, haccumulator⟩ := moved_of_staged operands pipeline hstages
  have hread : (pipeline.issued.map (FetchedBatch.fetch operands)).elim 0 FetchedBatch.total =
      operands.sumOf pipeline.issuedPairs := by
    cases hissued : pipeline.issued <;> simp [issuedPairs, hissued, FetchedBatch.total_fetch]
  -- multiplying is exact because the batch is part of the content
  have hsum : (pipeline.fetched.map FetchedBatch.multiply).elim 0
        (fun sum => sum.value.value) =
      pipeline.fetched.elim 0 FetchedBatch.total := by
    cases hbatch : pipeline.fetched with
    | none => rfl
    | some batch =>
        simp only [content, hbatch, Option.elim_some] at hbound
        simp only [Option.map_some, Option.elim_some, FetchedBatch.value_multiply]
        exact Nat.mod_eq_of_lt (by omega)
  have hcontent := content_accumulate pipeline.counted
    (by simp only [content, counted] at hbound ⊢; omega)
  rw [content, hfetched, hsummed, hqueue, haccumulator, hread, hsum, hcontent]
  simp only [content, counted]

/-- A combinational cycle adds the products of the batch that it issues. -/
theorem content_moved_combinational (hstages : pipeline.shape.stages = .combinational)
    (hidle : pipeline.RegistersIdle)
    (hbound : pipeline.content + operands.sumOf pipeline.issue.1.issuedPairs < Wide.modulus) :
    (pipeline.moved operands).content =
      pipeline.content + operands.sumOf pipeline.issue.1.issuedPairs := by
  obtain ⟨-, hfetched, hsummed⟩ := hidle hstages
  have hbefore : pipeline.content = pipeline.accumulator.value + pipeline.queue.total := by
    simp [content, hfetched, hsummed]
  rw [hbefore] at hbound ⊢
  have hread : (pipeline.passing operands).summed.elim 0 (fun sum => sum.value.value) =
      operands.sumOf pipeline.issue.1.issuedPairs := by
    rw [passing]
    cases hbatch : pipeline.issue.1.issued with
    | none => simp [issuedPairs, hbatch]
    | some batch =>
        simp only [issuedPairs, hbatch, Option.elim_some] at hbound ⊢
        simp only [Option.map_some, Option.elim_some, FetchedBatch.value_multiply,
          FetchedBatch.total_fetch]
        exact Nat.mod_eq_of_lt (by omega)
  have hcontent := content_accumulate (pipeline.passing operands) (by rw [hread]; exact hbound)
  rw [hread] at hcontent
  rw [moved_of_combinational operands pipeline hstages, content, hcontent]
  simp [passing]

/-- A cycle adds the products of what it reads to the content of the pipeline, as long as the
running sum can hold them. -/
theorem content_moved (hfinished : pipeline.finished = false) (hidle : pipeline.RegistersIdle)
    (hbound : pipeline.content + operands.sumOf pipeline.reading < Wide.modulus) :
    (pipeline.moved operands).content =
      pipeline.content + operands.sumOf pipeline.reading := by
  cases hstages : pipeline.shape.stages with
  | staged =>
      have hreading : pipeline.reading = pipeline.issuedPairs := by
        simp [reading, hfinished, hstages]
      rw [hreading] at hbound ⊢
      exact content_moved_staged operands pipeline hstages hbound
  | combinational =>
      have hreading : pipeline.reading = pipeline.issue.1.issuedPairs := by
        simp [reading, issuing, hfinished, hstages]
      rw [hreading] at hbound ⊢
      exact content_moved_combinational operands pipeline hstages hidle hbound

end Moved

/-! ## Closing a diagonal -/

/-- The number of diagonals that are closed. -/
def level (pipeline : Pipeline) : Nat :=
  if pipeline.finished then diagonalCount else pipeline.cursor.diagonal

/-- When nothing is in flight, the running sum is all there is. -/
theorem content_of_drained {pipeline : Pipeline} (h : pipeline.drained = true) :
    pipeline.issuedPairs = [] ∧ pipeline.content = pipeline.accumulator.value := by
  simp only [drained, Bool.and_eq_true, Option.isNone_iff_eq_none, List.isEmpty_iff] at h
  obtain ⟨⟨⟨hissued, hfetched⟩, hsummed⟩, hqueue⟩ := h
  simp [issuedPairs, content, hissued, hfetched, hsummed, hqueue, RetireQueue.total]

section Close

variable (product : Product) (pipeline : Pipeline)

@[simp] theorem close_shape : (pipeline.close product).pipeline.shape = pipeline.shape := by
  unfold close; dsimp only; split <;> rfl

@[simp] theorem close_issued : (pipeline.close product).pipeline.issued = pipeline.issued := by
  unfold close; dsimp only; split <;> rfl

@[simp] theorem close_fetched : (pipeline.close product).pipeline.fetched = pipeline.fetched := by
  unfold close; dsimp only; split <;> rfl

@[simp] theorem close_summed : (pipeline.close product).pipeline.summed = pipeline.summed := by
  unfold close; dsimp only; split <;> rfl

@[simp] theorem close_queue : (pipeline.close product).pipeline.queue = pipeline.queue := by
  unfold close; dsimp only; split <;> rfl

/-- The running sum without its lowest limb is the carry into the next diagonal. -/
@[simp] theorem close_accumulator :
    (pipeline.close product).pipeline.accumulator = pipeline.accumulator.emit.2 := by
  unfold close; dsimp only; split <;> rfl

/-- Behind the last diagonal the pipeline is finished. -/
theorem close_of_last (h : pipeline.cursor.diagonal = lastDiagonal) :
    (pipeline.close product).pipeline.cursor = pipeline.cursor ∧
      (pipeline.close product).pipeline.finished = true := by
  simp [close, Cursor.advance, Cursor.terminal, h]

/-- Before the last diagonal the cursor moves to the start of the next. -/
theorem close_of_ne_last (h : pipeline.cursor.diagonal ≠ lastDiagonal) :
    (pipeline.close product).pipeline.cursor = Cursor.startOf (pipeline.cursor.diagonal + 1) ∧
      (pipeline.close product).pipeline.finished = pipeline.finished := by
  simp [close, Cursor.advance, Cursor.terminal, h]

/-- Closing a diagonal puts one more below the level. -/
theorem level_close (hfinished : pipeline.finished = false) :
    (pipeline.close product).pipeline.level = pipeline.cursor.diagonal + 1 := by
  by_cases hlast : pipeline.cursor.diagonal = lastDiagonal
  · rw [level, (close_of_last product pipeline hlast).2, if_pos rfl, hlast]
    rfl
  · obtain ⟨hcursor, hopen⟩ := close_of_ne_last product pipeline hlast
    simp [level, hcursor, hopen, hfinished, Cursor.startOf]

/-- When nothing is in flight, a closing diagonal leaves its carry in the pipeline. -/
theorem content_close (h : pipeline.drained = true) :
    (pipeline.close product).pipeline.content = pipeline.accumulator.emit.2.value := by
  simp only [drained, Bool.and_eq_true, Option.isNone_iff_eq_none, List.isEmpty_iff] at h
  obtain ⟨⟨⟨-, hfetched⟩, hsummed⟩, hqueue⟩ := h
  simp [content, hfetched, hsummed, hqueue, RetireQueue.total]

end Close

/-- A cycle of a pipeline that is not finished, in terms of what moved. -/
theorem step_eq (operands : Operands) (product : Product) {pipeline : Pipeline}
    (hfinished : pipeline.finished = false) :
    pipeline.step operands product =
      if (pipeline.moved operands).cursor.exhausted && (pipeline.moved operands).drained then
        { (pipeline.moved operands).close product with
          events := pipeline.movedEvents operands ++
            ((pipeline.moved operands).close product).events }
      else if (pipeline.moved operands).counters.issued = pipeline.counters.issued then
        ⟨{ pipeline.moved operands with
            counters := (pipeline.moved operands).counters.countDrain },
          product, none, pipeline.movedEvents operands⟩
      else ⟨pipeline.moved operands, product, none, pipeline.movedEvents operands⟩ := by
  unfold step
  rw [if_neg (by simp [hfinished])]
  rfl

/-- A cycle moves the batches in flight. It closes the diagonal exactly when all its pairs are
issued and nothing of them is left in flight. -/
theorem step_cases (operands : Operands) (product : Product) {pipeline : Pipeline}
    (hfinished : pipeline.finished = false) :
    ((pipeline.moved operands).cursor.exhausted = true ∧
        (pipeline.moved operands).drained = true ∧
        (pipeline.step operands product).pipeline =
          ((pipeline.moved operands).close product).pipeline ∧
        (pipeline.step operands product).product =
          product.put pipeline.cursor.diagonal (pipeline.moved operands).accumulator.emit.1 ∧
        (pipeline.step operands product).closed =
          some ⟨pipeline.cursor.diagonal, (pipeline.moved operands).accumulator.emit.1⟩) ∨
      (((pipeline.moved operands).cursor.exhausted &&
          (pipeline.moved operands).drained) = false ∧
        (∃ counters, (pipeline.step operands product).pipeline =
          { pipeline.moved operands with counters }) ∧
        (pipeline.step operands product).product = product ∧
        (pipeline.step operands product).closed = none) := by
  have hdiagonal : (pipeline.moved operands).cursor.diagonal = pipeline.cursor.diagonal := by simp
  -- a closing diagonal is that of the cursor before the cycle, since issuing stays on it
  rw [step_eq operands product hfinished]
  cases hclosing : (pipeline.moved operands).cursor.exhausted &&
      (pipeline.moved operands).drained with
  | true =>
      left
      obtain ⟨hexhausted, hdrained⟩ := Bool.and_eq_true_iff.mp hclosing
      refine ⟨hexhausted, hdrained, ?_⟩
      rw [if_pos rfl, ← hdiagonal]
      exact ⟨rfl, rfl, rfl⟩
  | false =>
      right
      refine ⟨rfl, ?_⟩
      rw [if_neg Bool.false_ne_true]
      split <;> exact ⟨⟨_, rfl⟩, rfl, rfl⟩

/-- A cycle keeps the shape. -/
@[simp] theorem step_shape (operands : Operands) (product : Product) (pipeline : Pipeline) :
    (pipeline.step operands product).pipeline.shape = pipeline.shape := by
  cases hfinished : pipeline.finished with
  | true => simp [step, hfinished]
  | false =>
      obtain ⟨-, -, hpipeline, -, -⟩ | ⟨-, ⟨counters, hpipeline⟩, -, -⟩ :=
        step_cases operands product hfinished
      · simp [hpipeline]
      · simp [hpipeline]

end Pipeline

end WideMultiplier
