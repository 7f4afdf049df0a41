import WideMultiplier.Profile
import WideMultiplier.Proofs.CursorRange
import WideMultiplier.Proofs.Pipeline.Conservation
import WideMultiplier.Proofs.Pipeline.Retirement

/-!
# No register of a pipeline overflows

The hardware drops what does not fit: the carry out of the highest limb of a sum, a partial sum for
which the queue has no slot, an index that is more than a byte. `Pipeline.Bounded` says that what a
pipeline holds fits, and `Pipeline.StepsBounded` that everything fits that its next cycle computes.
`Engine.stays_in_bounds` proves both for every cycle of every run, and that each partial sum is the
exact sum of the batch that it comes from.
-/

namespace WideMultiplier

namespace FetchedBatch

/-- Each product of a batch adds at most the square of the largest limb. -/
theorem total_le (batch : FetchedBatch) :
    batch.total ≤ batch.limbs.length * (Limb.base - 1) ^ 2 := by
  rw [total, pow_two]
  induction batch.limbs with
  | nil => exact Nat.zero_le _
  | cons limbs rest ih =>
      have hproduct := Limb.toNat_mul_le limbs.1 limbs.2
      rw [List.map_cons, List.sum_cons, List.length_cons, Nat.succ_mul]
      omega

/-- The sum of a full diagonal is far from the largest number of three limbs. -/
theorem total_le_of_length {batch : FetchedBatch} (h : batch.limbs.length ≤ operandLimbs) :
    batch.total ≤ operandLimbs * (Limb.base - 1) ^ 2 :=
  batch.total_le.trans (Nat.mul_le_mul_right _ h)

theorem total_lt_modulus {batch : FetchedBatch} (h : batch.limbs.length ≤ operandLimbs) :
    batch.total < Wide.modulus :=
  Nat.lt_of_le_of_lt (total_le_of_length h) (by decide)

/-- The products of a batch are added up with no carry out of the highest limb. -/
theorem addsBelow (batch : FetchedBatch) (h : batch.limbs.length ≤ operandLimbs) :
    Wide.AddsBelow (operandLimbs * (Limb.base - 1) ^ 2 + 1) Wide.zero batch.addends := by
  refine Wide.addsBelow_of_sum_lt (by decide) _ ?_
  rw [sum_addends, Wide.value_zero, Nat.zero_add]
  exact Nat.lt_succ_of_le (total_le_of_length h)

end FetchedBatch

namespace Pipeline

namespace Sound

variable {samples : List Sample} {pipeline : Pipeline} {product : Product}

/-- The batch that was issued is no longer than a diagonal. -/
theorem length_issued_le (h : Sound samples pipeline product) {batch : Batch}
    (hbatch : batch ∈ pipeline.issued) : batch.pairs.length ≤ operandLimbs := by
  have hle := h.length_owed_le
  rw [owed, issuedPairs, Option.mem_def.mp hbatch, Option.elim_some, List.length_append] at hle
  omega

/-- The batch that the next cycle issues is no longer than a diagonal. -/
theorem length_issue_le (h : Sound samples pipeline product) {batch : Batch}
    (hbatch : batch ∈ pipeline.issue.1.issued) : batch.pairs.length ≤ operandLimbs := by
  have hle := h.length_owed_le
  rw [owed, ← issuedPairs_append_unissued, issuedPairs, issuedPairs, Option.mem_def.mp hbatch,
    Option.elim_some, List.length_append, List.length_append] at hle
  omega

/-- The batch that the next cycle reads is no longer than a diagonal. -/
theorem length_readBatch_le (h : Sound samples pipeline product) {batch : Batch}
    (hbatch : batch ∈ pipeline.readBatch) : batch.pairs.length ≤ operandLimbs := by
  unfold readBatch at hbatch
  split at hbatch
  · cases hbatch
  · split at hbatch
    · exact h.length_issued_le hbatch
    · exact h.length_issue_le hbatch

end Sound

end Pipeline

namespace Engine

/-! ## Partial sums -/

/-- Whether a batch was fetched in the first cycles of a run. -/
def Fetched (caches : Nat → Operands) (engine : Engine) (cycles : Nat) (fetched : FetchedBatch) :
    Prop :=
  ∃ cycle < cycles, ∃ batch ∈ (engine.after caches cycle).pipeline.readBatch,
    fetched = FetchedBatch.fetch (caches (cycle + 1)) batch

/-- Whether a partial sum is the exact sum of a batch that was read in the first cycles of a run,
and no more than 64 products can make it. -/
def IsBatchSum (caches : Nat → Operands) (engine : Engine) (cycles : Nat) (sum : PartialSum) :
    Prop :=
  ∃ cycle < cycles, ∃ batch ∈ (engine.after caches cycle).pipeline.readBatch,
    sum.diagonal = batch.diagonal ∧ sum.products = batch.pairs.length ∧
      batch.pairs.length ≤ maxBatchWidth ∧
      sum.value.value = (caches (cycle + 1)).sumOf batch.pairs ∧
      sum.value.value ≤ operandLimbs * (Limb.base - 1) ^ 2

section Partial

variable (caches : Nat → Operands) (shape : Shape) (product : Product)

/-- What was fetched in a run is no longer than a diagonal. -/
theorem Fetched.length_le {cycles : Nat} {fetched : FetchedBatch}
    (h : Fetched caches (start shape product) cycles fetched) :
    fetched.limbs.length ≤ operandLimbs := by
  obtain ⟨cycle, -, batch, hbatch, rfl⟩ := h
  rw [FetchedBatch.fetch, List.length_map]
  exact (sound_after caches shape product cycle).length_readBatch_le hbatch

/-- Multiplying what was fetched loses nothing. -/
theorem Fetched.isBatchSum {cycles : Nat} {fetched : FetchedBatch}
    (h : Fetched caches (start shape product) cycles fetched) :
    IsBatchSum caches (start shape product) cycles fetched.multiply := by
  have hlength := h.length_le
  have hvalue : fetched.multiply.value.value = fetched.total := by
    rw [FetchedBatch.value_multiply]
    exact Nat.mod_eq_of_lt (FetchedBatch.total_lt_modulus hlength)
  have hle := FetchedBatch.total_le_of_length hlength
  obtain ⟨cycle, hcycle, batch, hbatch, rfl⟩ := h
  rw [FetchedBatch.fetch, List.length_map] at hlength
  refine ⟨cycle, hcycle, batch, hbatch, rfl, List.length_map _, hlength, ?_, ?_⟩
  · rw [hvalue, FetchedBatch.total_fetch]
  · rwa [hvalue]

/-- A batch that the next cycle reads is fetched in it. -/
theorem fetched_of_mem_readBatch {cycles : Nat} {batch : Batch}
    (h : batch ∈ ((start shape product).after caches cycles).pipeline.readBatch) :
    Fetched caches (start shape product) (cycles + 1)
      (FetchedBatch.fetch (caches (cycles + 1)) batch) :=
  ⟨cycles, Nat.lt_succ_self _, batch, h, rfl⟩

/-- What was fetched in fewer cycles was fetched. -/
theorem Fetched.succ {cycles : Nat} {fetched : FetchedBatch}
    (h : Fetched caches (start shape product) cycles fetched) :
    Fetched caches (start shape product) (cycles + 1) fetched := by
  obtain ⟨cycle, hcycle, batch, hbatch, rfl⟩ := h
  exact ⟨cycle, Nat.lt_succ_of_lt hcycle, batch, hbatch, rfl⟩

/-- Everything behind the fetch stage was fetched in the run. -/
theorem behind_after (cycles : Nat) :
    ((start shape product).after caches cycles).pipeline.Behind
      (Fetched caches (start shape product) cycles) := by
  induction cycles with
  | zero => exact .ofShape shape
  | succ cycles ih =>
      refine (ih.imp fun fetched hfetched => hfetched.succ).step ?_ _
      exact fun batch hbatch => fetched_of_mem_readBatch caches shape product hbatch

end Partial

end Engine

namespace Pipeline

/-! ## The running sum -/

/-- The running sum of a cycle, with all that waits to be folded in, is what the cycle holds. -/
theorem accumulating_total_le (operands : Operands) {pipeline : Pipeline}
    (hfinished : pipeline.finished = false) :
    pipeline.accumulator.value + (pipeline.accumulating operands).enqueue.queue.total ≤
      pipeline.content + operands.sumOf pipeline.reading := by
  rw [total_enqueue, accumulating_queue, content]
  cases hstages : pipeline.shape.stages with
  | staged =>
      have hsummed : (pipeline.accumulating operands).summed = pipeline.summed := by
        simp [accumulating, hstages, counted]
      rw [hsummed]
      omega
  | combinational =>
      have hsummed : (pipeline.accumulating operands).summed =
          pipeline.issue.1.issued.map fun batch =>
            (FetchedBatch.fetch operands batch).multiply := by
        simp [accumulating, hstages, passing]
      have hread : pipeline.reading = pipeline.issue.1.issuedPairs := by
        simp [reading, issuing, hfinished, hstages]
      rw [hsummed, hread, issuedPairs]
      cases hissued : pipeline.issue.1.issued with
      | none =>
          simp only [Option.map_none, Option.elim_none]
          omega
      | some batch =>
          have hvalue := Nat.mod_le (FetchedBatch.fetch operands batch).total Wide.modulus
          rw [← FetchedBatch.value_multiply, FetchedBatch.total_fetch] at hvalue
          simp only [Option.map_some, Option.elim_some]
          omega

/-- In the middle of a run the running sum can take all that waits to be folded in. -/
theorem Sound.folds_below {samples : List Sample} {pipeline : Pipeline} {product : Product}
    (h : Sound samples pipeline product) (hfinished : pipeline.finished = false)
    (operands : Operands) :
    Wide.AddsBelow (2 ^ 134) (pipeline.accumulating operands).accumulator
      ((pipeline.accumulating operands).enqueue.queue.ready.map PartialSum.value) := by
  have hcontent := h.content_add_le hfinished operands
  have htotal := accumulating_total_le operands hfinished
  have hready := RetireQueue.total_ready_add_waiting
    (pipeline.accumulating operands).enqueue.queue
  have hlimit : operandLimbs * (Limb.base - 1) * Limb.base < 2 ^ 134 := by decide
  refine Wide.addsBelow_of_sum_lt (by decide) _ ?_
  rw [accumulating_accumulator, List.map_map]
  simp only [Function.comp_def]
  omega

/-- Also when everything that waits is folded in, the running sum is far from its limit. -/
theorem Sound.accumulator_moved_le {samples : List Sample} {pipeline : Pipeline}
    {product : Product} (h : Sound samples pipeline product) (hfinished : pipeline.finished = false)
    (operands : Operands) :
    (pipeline.moved operands).accumulator.value ≤
      operandLimbs * (Limb.base - 1) * Limb.base := by
  have hmoved := h.content_moved hfinished operands
  have hcontent := h.content_add_le hfinished operands
  rw [content] at hmoved
  omega

/-- A finished pipeline has no carry left. -/
theorem Sound.isZero_of_finished {samples : List Sample} {pipeline : Pipeline} {product : Product}
    (h : Sound samples pipeline product) (hfinished : pipeline.finished = true) :
    pipeline.accumulator.isZero = true := by
  have hcontent := (h.value_of_finished hfinished).2.2
  rw [content] at hcontent
  exact (Wide.isZero_iff_value _).mpr (by omega)

/-- In the middle of a run what a pipeline holds is far from the limit of the running sum. -/
theorem Sound.content_le {samples : List Sample} {pipeline : Pipeline} {product : Product}
    (h : Sound samples pipeline product) :
    pipeline.content ≤ operandLimbs * (Limb.base - 1) * Limb.base := by
  cases hfinished : pipeline.finished with
  | true =>
      rw [(h.value_of_finished hfinished).2.2]
      exact Nat.zero_le _
  | false => exact (Nat.le_add_right _ _).trans (h.content_add_le hfinished Operands.zero)

/-! ## Bounds -/

/-- Whether what a pipeline holds fits in its registers. -/
structure Bounded (pipeline : Pipeline) : Prop where
  /-- A cycle issues at least one pair, and no more than a diagonal holds. -/
  width : 0 < pipeline.shape.width ∧ pipeline.shape.width ≤ maxBatchWidth
  /-- The cursor stands on a diagonal. -/
  diagonal : pipeline.cursor.diagonal ≤ lastDiagonal
  /-- The cursor computes with bytes. -/
  cursor : pipeline.cursor.FitsBytes pipeline.shape.width
  /-- Each batch in a register has a slot for each of its pairs. -/
  issued : ∀ batch ∈ pipeline.issued, batch.pairs.length ≤ maxBatchWidth
  fetched : ∀ batch ∈ pipeline.fetched, batch.limbs.length ≤ maxBatchWidth
  /-- The queue has a slot left for the next partial sum. -/
  queue : pipeline.queue.length < retireQueueCapacity
  accumulator : pipeline.accumulator.value < 2 ^ 134
  /-- No carry is left behind the last diagonal. -/
  finished : pipeline.finished = true → pipeline.accumulator.isZero = true

/-- Whether what the next cycle computes fits in the registers. -/
structure StepsBounded (operands : Operands) (product : Product) (pipeline : Pipeline) : Prop where
  /-- The pairs that are issued and the pairs that are read name limbs of both factors. -/
  indices : ∀ pair ∈ pipeline.issuing ++ pipeline.reading,
    pair.i < operandLimbs ∧ pair.j < operandLimbs
  /-- The batch that is issued, the batch that is read and the batch that is multiplied have no more
  pairs than slots, and the number of slots is a byte. -/
  lengths : (∀ batch ∈ pipeline.issue.1.issued, batch.pairs.length ≤ maxBatchWidth) ∧
    (∀ batch ∈ pipeline.readBatch, batch.pairs.length ≤ maxBatchWidth) ∧
    (∀ batch ∈ pipeline.multiplying operands, batch.limbs.length ≤ maxBatchWidth) ∧
    maxBatchWidth ≤ byteLimit
  /-- The products are added up with no carry out of the highest limb. -/
  multiplied : ∀ batch ∈ pipeline.multiplying operands,
    Wide.AddsBelow (operandLimbs * (Limb.base - 1) ^ 2 + 1) Wide.zero batch.addends
  /-- The levels of the adder tree of the sum that joins the queue are a byte. -/
  levels : ∀ sum ∈ (pipeline.accumulating operands).summed, (sum.products - 1).log2 ≤ byteLimit
  /-- The queue has a slot for that sum. -/
  slot : (pipeline.accumulating operands).queue.length < retireQueueCapacity
  /-- The number of sums in the queue, before and after the tick, is a byte. -/
  queue : (pipeline.accumulating operands).enqueue.queue.length ≤ retireQueueCapacity ∧
    (pipeline.accumulating operands).enqueue.queue.waiting.length ≤ byteLimit
  /-- The sums whose wait is over are folded in with no carry out of the highest limb. -/
  folded : Wide.AddsBelow (2 ^ 134) (pipeline.accumulating operands).accumulator
    ((pipeline.accumulating operands).enqueue.queue.ready.map PartialSum.value)
  /-- So the running sum is in bounds before a diagonal closes. -/
  accumulator : (pipeline.moved operands).accumulator.value < 2 ^ 134
  /-- A diagonal that closes stores a limb of the product and leaves a small carry, and the last one
  leaves none. -/
  closed : ∀ closed, (pipeline.step operands product).closed = some closed →
    closed.index < productLimbs ∧
      (pipeline.step operands product).pipeline.accumulator.value < 2 ^ 70 ∧
      (closed.index = lastDiagonal →
        (pipeline.step operands product).pipeline.accumulator.isZero = true)

/-- Issuing keeps the cursor on its diagonal, and closing a diagonal moves it to the next. -/
theorem inRange_step {pipeline : Pipeline} (h : pipeline.cursor.InRange) (operands : Operands)
    (product : Product) : (pipeline.step operands product).pipeline.cursor.InRange := by
  have hmoved : (pipeline.moved operands).cursor.InRange := by
    rw [moved_cursor]
    unfold issue
    split
    · exact h
    · next batch following hbatch => exact h.nextBatch hbatch
  cases hfinished : pipeline.finished with
  | true => simpa [step, hfinished] using h
  | false =>
      obtain ⟨-, -, hpipeline, -, -⟩ | ⟨-, ⟨counters, hpipeline⟩, -, -⟩ :=
        step_cases operands product hfinished
      · rw [hpipeline]
        by_cases hlast : (pipeline.moved operands).cursor.diagonal = lastDiagonal
        · rw [(close_of_last product _ hlast).1]
          exact hmoved
        · rw [(close_of_ne_last product _ hlast).1]
          have hle := hmoved.diagonal_le
          exact Cursor.inRange_startOf (by omega)
      · rw [hpipeline]
        exact hmoved

/-- A diagonal that closes in the middle of a run stores a limb of the product. What it carries on
is small, and behind the last diagonal nothing. -/
theorem Sound.closed_bounds {samples : List Sample} {pipeline : Pipeline} {product : Product}
    (h : Sound samples pipeline product) (operands : Operands) {closed : ClosedDiagonal}
    (hclosed : (pipeline.step operands product).closed = some closed) :
    closed.index < productLimbs ∧
      (pipeline.step operands product).pipeline.accumulator.value < 2 ^ 70 ∧
      (closed.index = lastDiagonal →
        (pipeline.step operands product).pipeline.accumulator.isZero = true) := by
  cases hfinished : pipeline.finished with
  | true => simp [Pipeline.step, hfinished] at hclosed
  | false =>
      obtain ⟨-, -, hpipeline, -, hindex⟩ | ⟨-, -, -, hnone⟩ :=
        step_cases operands product hfinished
      · obtain rfl : closed = ⟨pipeline.cursor.diagonal, _⟩ :=
          Option.some.inj (hclosed.symm.trans hindex)
        refine ⟨h.diagonal_lt, ?_, fun hlast => ?_⟩
        · rw [hpipeline, close_accumulator]
          refine Wide.value_emit_lt
            (Nat.lt_of_le_of_lt (h.accumulator_moved_le hfinished operands) ?_)
          decide
        · -- the pipeline is finished, and a finished pipeline holds nothing
          have hdone : (pipeline.step operands product).pipeline.finished = true := by
            rw [hpipeline]
            exact (close_of_last product _ (by rw [moved_cursor, issue_diagonal]; exact hlast)).2
          exact (h.step operands).isZero_of_finished hdone
      · rw [hnone] at hclosed
        cases hclosed

end Pipeline

namespace Engine

section Bounds

variable (caches : Nat → Operands) (shape : Shape) (product : Product)

/-- In a run the cursor always stands on a diagonal. -/
theorem inRange_after (cycles : Nat) :
    ((start shape product).after caches cycles).pipeline.cursor.InRange := by
  induction cycles with
  | zero => exact Cursor.inRange_startOf (Nat.zero_le _)
  | succ cycles ih => exact Pipeline.inRange_step ih _ _

/-- In a run the queue always has a slot for one more partial sum. -/
theorem length_queue_lt (cycles : Nat) :
    ((start shape product).after caches cycles).pipeline.queue.length < retireQueueCapacity := by
  have hdue : ((start shape product).after caches cycles).pipeline.queue.DueWithin
      ((start shape product).after caches cycles).pipeline.shape.retirement.limit := by
    induction cycles with
    | zero => trivial
    | succ cycles ih =>
        have hstep := Pipeline.dueWithin_step ih (caches (cycles + 1))
          ((start shape product).after caches cycles).product
        rwa [← Pipeline.step_shape] at hstep
  have hlimit : maxDelay < retireQueueCapacity := by decide
  exact (hdue.length_le.trans (Retirement.limit_le _)).trans_lt hlimit

variable {shape}

/-- In a run everything that the pipeline holds fits. -/
theorem bounded_after (hvalid : shape.validate = .ok ()) (cycles : Nat) :
    ((start shape product).after caches cycles).pipeline.Bounded := by
  have hsound := sound_after caches shape product cycles
  have hrange := inRange_after caches shape product cycles
  have hbehind := behind_after caches shape product cycles
  refine ⟨?_, hrange.diagonal_le, hrange.fitsBytes _, fun batch hbatch =>
    hsound.length_issued_le hbatch, fun batch hbatch => (hbehind.fetched batch hbatch).length_le,
    length_queue_lt caches shape product cycles, ?_, hsound.isZero_of_finished⟩
  · rw [after_shape]
    exact Shape.width_of_validate hvalid
  · have hcontent := hsound.content_le
    have hlimit : operandLimbs * (Limb.base - 1) * Limb.base < 2 ^ 134 := by decide
    rw [Pipeline.content] at hcontent
    omega

/-- What the accumulate stage works on in a run are the sums of batches that were read. -/
theorem isBatchSum_of_mem_accumulating {cycles : Nat}
    (hfinished : ((start shape product).after caches cycles).pipeline.finished = false) :
    ∀ sum ∈ (((start shape product).after caches cycles).pipeline.accumulating
        (caches (cycles + 1))).partialSums,
      IsBatchSum caches (start shape product) (cycles + 1) sum := by
  intro sum hsum
  have hbehind := (behind_after caches shape product cycles).imp fun _ hfetched => hfetched.succ
  obtain ⟨fetched, hfetched, rfl⟩ := hbehind.accumulating hfinished
    (fun _ hbatch => fetched_of_mem_readBatch caches shape product hbatch) sum hsum
  exact hfetched.isBatchSum

/-- In a run everything that a cycle computes fits. -/
theorem stepsBounded_after {cycles : Nat}
    (hfinished : ((start shape product).after caches cycles).pipeline.finished = false) :
    ((start shape product).after caches cycles).pipeline.StepsBounded (caches (cycles + 1))
      ((start shape product).after caches cycles).product := by
  have hsound := sound_after caches shape product cycles
  have hslot := length_queue_lt caches shape product cycles
  have hbehind := (behind_after caches shape product cycles).imp fun _ hfetched => hfetched.succ
  have hmultiplying := hbehind.multiplying hfinished
    fun _ hbatch => fetched_of_mem_readBatch caches shape product hbatch
  have hsums := isBatchSum_of_mem_accumulating caches product hfinished
  generalize ((start shape product).after caches cycles).pipeline = pipeline at *
  have hpushed : (pipeline.accumulating (caches (cycles + 1))).enqueue.queue.length ≤
      retireQueueCapacity := by
    have hle := (pipeline.accumulating (caches (cycles + 1))).length_enqueue_le
    rw [Pipeline.accumulating_queue] at hle
    omega
  constructor
  case indices =>
    intro pair hpair
    have howed : pair ∈ pipeline.owed := (List.mem_append.mp hpair).elim
      Pipeline.Sound.mem_owed_of_mem_issuing hsound.mem_owed_of_mem_reading
    obtain ⟨hi, hj, -⟩ := Cursor.mem_pairsOf.mp (hsound.mem_pairsOf_of_mem_owed howed)
    exact ⟨hi, hj⟩
  case lengths =>
    exact ⟨fun batch hbatch => hsound.length_issue_le hbatch,
      fun batch hbatch => hsound.length_readBatch_le hbatch,
      fun batch hbatch => (hmultiplying batch hbatch).length_le, by decide⟩
  case multiplied =>
    intro batch hbatch
    exact batch.addsBelow (hmultiplying batch hbatch).length_le
  case levels =>
    intro sum hsum
    obtain ⟨cycle, -, batch, -, -, hproducts, hlength, -, -⟩ :=
      hsums sum (List.mem_append_left _ (Option.mem_toList.mpr hsum))
    have hlog := Nat.log2_le_self (sum.products - 1)
    have hbyte : maxBatchWidth ≤ byteLimit := by decide
    omega
  case slot =>
    rwa [Pipeline.accumulating_queue]
  case queue =>
    refine ⟨hpushed, (RetireQueue.length_waiting_le _).trans (hpushed.trans ?_)⟩
    decide
  case folded => exact hsound.folds_below hfinished _
  case accumulator =>
    exact Nat.lt_of_le_of_lt (hsound.accumulator_moved_le hfinished _) (by decide)
  case closed =>
    intro closed hclosed
    exact hsound.closed_bounds _ hclosed

end Bounds

/-- In every run of a valid shape, whatever stood in the product and however the factors change,
everything that the pipeline holds and computes fits in its registers, and every partial sum is the
exact sum of the batch that it comes from. -/
theorem stays_in_bounds {shape : Shape} (hvalid : shape.validate = .ok ())
    (caches : Nat → Operands) (product : Product) (cycles : Nat) :
    ((start shape product).after caches cycles).pipeline.Bounded ∧
      (∀ sum ∈ ((start shape product).after caches cycles).pipeline.partialSums,
        IsBatchSum caches (start shape product) cycles sum) ∧
      (((start shape product).after caches cycles).pipeline.finished = false →
        ((start shape product).after caches cycles).pipeline.StepsBounded (caches (cycles + 1))
            ((start shape product).after caches cycles).product ∧
          ∀ sum ∈ (((start shape product).after caches cycles).pipeline.accumulating
              (caches (cycles + 1))).partialSums,
            IsBatchSum caches (start shape product) (cycles + 1) sum) := by
  refine ⟨bounded_after caches product hvalid cycles, fun sum hsum => ?_, fun hfinished =>
    ⟨stepsBounded_after caches product hfinished,
      isBatchSum_of_mem_accumulating caches product hfinished⟩⟩
  obtain ⟨fetched, hfetched, rfl⟩ :=
    (behind_after caches shape product cycles).summed sum hsum
  exact hfetched.isBatchSum

/-- A run of the default profile over the largest factors, midway. -/
theorem stays_in_bounds_delayQueue :
    Profile.delayQueue.shape.validate = .ok () ∧
      ((start Profile.delayQueue.shape Product.zero).after
        (fun _ => ⟨Vector.replicate operandLimbs (-1), Vector.replicate operandLimbs (-1)⟩)
        500).pipeline.accumulator.value < 2 ^ 134 :=
  ⟨rfl, (stays_in_bounds rfl _ _ _).1.accumulator⟩

end Engine

end WideMultiplier
