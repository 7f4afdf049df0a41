import WideMultiplier.Proofs.Pipeline.Stages

/-!
# Where partial sums come from

A cycle reads the limbs of one batch (`Pipeline.readBatch`), and everything behind the fetch stage
was read in that way. `Pipeline.Behind` says that all of it has a property of fetched batches, and
`Pipeline.Behind.step` that a cycle keeps this if the batch that it reads has the property. Both
stage models end with the same accumulate stage, which works on `Pipeline.accumulating`.
-/

namespace WideMultiplier

namespace Pipeline

/-- The batch whose limbs the next cycle reads. -/
def readBatch (pipeline : Pipeline) : Option Batch :=
  if pipeline.finished then none
  else
    match pipeline.shape.stages with
    | .staged => pipeline.issued
    | .combinational => pipeline.issue.1.issued

/-- The batch whose limbs the next cycle multiplies. -/
def multiplying (operands : Operands) (pipeline : Pipeline) : Option FetchedBatch :=
  match pipeline.shape.stages with
  | .staged => pipeline.fetched
  | .combinational => pipeline.issue.1.issued.map (FetchedBatch.fetch operands)

/-- The pipeline at the beginning of the accumulate stage of the next cycle. -/
def accumulating (operands : Operands) (pipeline : Pipeline) : Pipeline :=
  match pipeline.shape.stages with
  | .staged => pipeline.counted
  | .combinational => pipeline.passing operands

/-- The partial sums in the register and in the queue. -/
def partialSums (pipeline : Pipeline) : List PartialSum :=
  pipeline.summed.toList ++ pipeline.queue.map InFlight.sum

section Accumulating

variable (operands : Operands) (pipeline : Pipeline)

@[simp] theorem accumulating_shape : (pipeline.accumulating operands).shape = pipeline.shape := by
  unfold accumulating; split <;> rfl

@[simp] theorem accumulating_queue : (pipeline.accumulating operands).queue = pipeline.queue := by
  unfold accumulating; split <;> rfl

@[simp] theorem accumulating_accumulator :
    (pipeline.accumulating operands).accumulator = pipeline.accumulator := by
  unfold accumulating; split <;> rfl

/-- What waits after a cycle waited longer when the cycle accumulated. -/
theorem moved_queue :
    (pipeline.moved operands).queue = (pipeline.accumulating operands).enqueue.queue.waiting := by
  unfold accumulating
  cases hstages : pipeline.shape.stages with
  | staged => rw [(moved_of_staged operands pipeline hstages).2.2.2.1, accumulate_queue]
  | combinational => rw [moved_of_combinational operands pipeline hstages, accumulate_queue]

end Accumulating

/-! ## Everything behind the fetch stage -/

variable {property : FetchedBatch → Prop}

/-- Whether everything behind the fetch stage comes from batches with a property. -/
structure Behind (property : FetchedBatch → Prop) (pipeline : Pipeline) : Prop where
  fetched : ∀ batch ∈ pipeline.fetched, property batch
  summed : ∀ sum ∈ pipeline.partialSums, ∃ batch, property batch ∧ sum = batch.multiply

namespace Behind

variable {pipeline : Pipeline}

/-- What is behind an empty pipeline has every property. -/
theorem ofShape (shape : Shape) : Behind property (Pipeline.ofShape shape) := by
  constructor <;> simp [Pipeline.ofShape, partialSums]

/-- A weaker property holds as well. -/
theorem imp {weaker : FetchedBatch → Prop} (h : Behind property pipeline)
    (himp : ∀ batch, property batch → weaker batch) : Behind weaker pipeline where
  fetched := fun batch hbatch => himp batch (h.fetched batch hbatch)
  summed := fun sum hsum => by
    obtain ⟨batch, hbatch, hmultiply⟩ := h.summed sum hsum
    exact ⟨batch, himp batch hbatch, hmultiply⟩

/-- The batch that the next cycle multiplies is such a batch, if the batch that it reads is one. -/
theorem multiplying (h : Behind property pipeline) (hfinished : pipeline.finished = false)
    {operands : Operands}
    (hread : ∀ batch ∈ pipeline.readBatch, property (FetchedBatch.fetch operands batch)) :
    ∀ batch ∈ pipeline.multiplying operands, property batch := by
  intro batch hbatch
  unfold Pipeline.multiplying at hbatch
  cases hstages : pipeline.shape.stages with
  | staged =>
      rw [hstages] at hbatch
      exact h.fetched batch hbatch
  | combinational =>
      rw [hstages] at hbatch
      simp only [readBatch, hfinished, hstages, Bool.false_eq_true, if_false] at hread
      obtain ⟨issued, hissued, rfl⟩ := Option.map_eq_some_iff.mp hbatch
      exact hread issued hissued

/-- What the accumulate stage finds comes from such batches, if the batch that is read is one. -/
theorem accumulating (h : Behind property pipeline) (hfinished : pipeline.finished = false)
    {operands : Operands}
    (hread : ∀ batch ∈ pipeline.readBatch, property (FetchedBatch.fetch operands batch)) :
    ∀ sum ∈ (pipeline.accumulating operands).partialSums,
      ∃ batch, property batch ∧ sum = batch.multiply := by
  intro sum hsum
  unfold Pipeline.accumulating at hsum
  cases hstages : pipeline.shape.stages with
  | staged =>
      rw [hstages] at hsum
      exact h.summed sum hsum
  | combinational =>
      rw [hstages] at hsum
      simp only [readBatch, hfinished, hstages, Bool.false_eq_true, if_false] at hread
      rcases List.mem_append.mp hsum with hsum | hsum
      · -- the batch has passed all stages but the last
        rw [Option.mem_toList] at hsum
        obtain ⟨batch, hissued, hmultiply⟩ := Option.map_eq_some_iff.mp hsum
        exact ⟨_, hread batch hissued, hmultiply.symm⟩
      · exact h.summed sum (List.mem_append_right _ hsum)

/-- The accumulate stage keeps the sums that it does not fold in. -/
theorem mem_waiting {queue : RetireQueue} {sum : PartialSum}
    (h : sum ∈ queue.waiting.map InFlight.sum) : sum ∈ queue.map InFlight.sum := by
  obtain ⟨entry, hentry, rfl⟩ := List.mem_map.mp h
  obtain ⟨before, hbefore, rfl⟩ := List.mem_map.mp hentry
  exact List.mem_map.mpr ⟨before, List.mem_of_mem_filter hbefore, rfl⟩

/-- The sum in the register joins the others in the queue. -/
theorem mem_enqueue {pipeline : Pipeline} {sum : PartialSum}
    (h : sum ∈ pipeline.enqueue.queue.map InFlight.sum) : sum ∈ pipeline.partialSums := by
  unfold enqueue at h
  split at h
  · exact List.mem_append_right _ h
  · next register hregister =>
      rw [RetireQueue.push, List.map_append] at h
      rcases List.mem_append.mp h with h | h
      · exact List.mem_append_right _ h
      · rw [List.map_singleton, List.mem_singleton] at h
        exact List.mem_append_left _ (by rw [hregister, h]; exact List.mem_singleton_self _)

/-- While the batches in flight move, a batch with the property comes in. -/
theorem moved (h : Behind property pipeline) (hfinished : pipeline.finished = false)
    {operands : Operands}
    (hread : ∀ batch ∈ pipeline.readBatch, property (FetchedBatch.fetch operands batch)) :
    Behind property (pipeline.moved operands) := by
  have hqueue : ∀ sum ∈ (pipeline.moved operands).queue.map InFlight.sum,
      ∃ batch, property batch ∧ sum = batch.multiply := by
    intro sum hsum
    rw [moved_queue] at hsum
    exact h.accumulating hfinished hread sum (mem_enqueue (mem_waiting hsum))
  cases hstages : pipeline.shape.stages with
  | staged =>
      obtain ⟨-, hfetched, hsummed, -, -⟩ := moved_of_staged operands pipeline hstages
      simp only [readBatch, hfinished, hstages, Bool.false_eq_true, if_false] at hread
      constructor
      · intro batch hbatch
        rw [hfetched, Option.mem_def, Option.map_eq_some_iff] at hbatch
        obtain ⟨issued, hissued, rfl⟩ := hbatch
        exact hread issued hissued
      · intro sum hsum
        rcases List.mem_append.mp hsum with hsum | hsum
        · rw [hsummed, Option.mem_toList, Option.map_eq_some_iff] at hsum
          obtain ⟨batch, hbatch, hmultiply⟩ := hsum
          exact ⟨batch, h.fetched batch hbatch, hmultiply.symm⟩
        · exact hqueue sum hsum
  | combinational =>
      obtain ⟨-, hfetched, hsummed⟩ :=
        registersIdle_moved operands pipeline (by simpa using hstages)
      constructor
      · intro batch hbatch
        rw [hfetched] at hbatch
        cases hbatch
      · intro sum hsum
        rw [partialSums, hsummed, Option.toList_none, List.nil_append] at hsum
        exact hqueue sum hsum

/-- A cycle keeps everything behind the fetch stage what it is, if it reads such a batch. -/
theorem step (h : Behind property pipeline) {operands : Operands}
    (hread : ∀ batch ∈ pipeline.readBatch, property (FetchedBatch.fetch operands batch))
    (product : Product) : Behind property (pipeline.step operands product).pipeline := by
  cases hfinished : pipeline.finished with
  | true => simpa [Pipeline.step, hfinished] using h
  | false =>
      have hmoved := h.moved hfinished hread
      obtain ⟨-, -, hpipeline, -, -⟩ | ⟨-, ⟨counters, hpipeline⟩, -, -⟩ :=
        step_cases operands product hfinished
      · rw [hpipeline]
        refine ⟨by simpa using hmoved.fetched, ?_⟩
        rw [partialSums, close_summed, close_queue]
        exact hmoved.summed
      · rw [hpipeline]
        exact ⟨hmoved.fetched, hmoved.summed⟩

end Behind

end Pipeline

end WideMultiplier
