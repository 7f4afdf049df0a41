import WideMultiplier.Proofs.Latency
import WideMultiplier.Proofs.Pipeline.Progress

/-!
# How many cycles a run takes

`Pipeline.outstanding` is the number of cycles after which nothing is left of the current diagonal,
neither to issue nor in flight, and `Pipeline.cyclesToFinish` adds the diagonals behind it. Each
cycle takes exactly one off both (`Pipeline.outstanding_moved`,
`Pipeline.Live.cyclesToFinish_step`), so a run takes the cycles that its shape tells, and its
counter shows them (`Engine.cyclesToFinish_after`, `Engine.cycles_after`).
-/

namespace WideMultiplier

namespace Cursor

/-- A diagonal is exhausted when no pairs remain on it. -/
theorem exhausted_iff_remaining (cursor : Cursor) :
    cursor.exhausted = true ↔ cursor.remaining = 0 := by
  rw [exhausted, decide_eq_true_iff, remaining]
  omega

/-- A batch takes as many of the remaining pairs as fit in it. -/
theorem nextBatch_length {cursor following : Cursor} {width : Nat} {batch : Batch}
    (h : cursor.nextBatch width = some (batch, following)) :
    batch.pairs.length = min cursor.remaining width ∧
      following.remaining = cursor.remaining - width := by
  have hlength : batch.pairs.length = min cursor.remaining width := by
    unfold nextBatch at h
    split at h
    · cases h
    · cases h
      rw [List.length_map, List.length_range']
  have hsplit := congrArg List.length (pairs_append_unissued h)
  rw [List.length_append, length_unissued, length_unissued] at hsplit
  exact ⟨hlength, by omega⟩

end Cursor

namespace Pipeline

/-! ## The cycles of a diagonal -/

/-- The cycles after which nothing is in flight of what is in flight now. A batch in a register has
the stages behind it before it, and then the wait of its partial sum. -/
def due (pipeline : Pipeline) : Nat :=
  max (pipeline.issued.elim 0 fun batch =>
      pipeline.shape.retirement.delay batch.pairs.length + 3)
    (max (pipeline.fetched.elim 0 fun batch =>
        pipeline.shape.retirement.delay batch.limbs.length + 2)
      (max (pipeline.summed.elim 0 fun sum => pipeline.shape.retirement.delay sum.products + 1)
        pipeline.queue.lag))

/-- The cycles after which nothing is left of the current diagonal. -/
def outstanding (pipeline : Pipeline) : Nat :=
  max pipeline.due (pipeline.shape.remainingCycles pipeline.cursor.remaining)

/-- A pipeline in which nothing is due is drained. -/
theorem drained_iff_due (pipeline : Pipeline) : pipeline.drained = true ↔ pipeline.due = 0 := by
  obtain ⟨shape, cursor, issued, fetched, summed, queue, accumulator, counters, finished⟩ :=
    pipeline
  simp only [drained, due, Bool.and_eq_true, Option.isNone_iff_eq_none, List.isEmpty_iff]
  constructor
  · rintro ⟨⟨⟨rfl, rfl⟩, rfl⟩, rfl⟩
    rfl
  · intro h
    rw [Nat.max_eq_zero_iff, Nat.max_eq_zero_iff, Nat.max_eq_zero_iff] at h
    obtain ⟨hissued, hfetched, hsummed, hlag⟩ := h
    refine ⟨⟨⟨?_, ?_⟩, ?_⟩, RetireQueue.eq_nil_of_lag hlag⟩
    · cases issued with
      | none => rfl
      | some batch => cases hissued
    · cases fetched with
      | none => rfl
      | some batch => cases hfetched
    · cases summed with
      | none => rfl
      | some sum => cases hsummed

section Moved

variable (operands : Operands) {pipeline : Pipeline}

/-- A cycle takes one off what is due, and a batch that it issues is due after the stages and its
wait. -/
theorem due_moved (hidle : pipeline.RegistersIdle) :
    (pipeline.moved operands).due =
      max (pipeline.issue.1.issued.elim 0 fun batch =>
          pipeline.shape.retirement.delay batch.pairs.length + pipeline.shape.stages.depth)
        (pipeline.due - 1) := by
  cases hstages : pipeline.shape.stages with
  | staged =>
      obtain ⟨hissued, hfetched, hsummed, hqueue, -⟩ := moved_of_staged operands pipeline hstages
      -- each register takes what the one before held, and is one cycle closer to the end
      have hread : ((pipeline.issued.map (FetchedBatch.fetch operands)).elim 0 fun batch =>
            pipeline.shape.retirement.delay batch.limbs.length + 2) =
          (pipeline.issued.elim 0 fun batch =>
            pipeline.shape.retirement.delay batch.pairs.length + 3) - 1 := by
        cases pipeline.issued <;> simp [FetchedBatch.fetch]
      have hmultiplied : ((pipeline.fetched.map FetchedBatch.multiply).elim 0 fun sum =>
            pipeline.shape.retirement.delay sum.products + 1) =
          (pipeline.fetched.elim 0 fun batch =>
            pipeline.shape.retirement.delay batch.limbs.length + 2) - 1 := by
        cases pipeline.fetched <;> simp [FetchedBatch.multiply]
      have hlag : pipeline.counted.accumulate.1.queue.lag =
          max (pipeline.summed.elim 0 fun sum => pipeline.shape.retirement.delay sum.products + 1)
            pipeline.queue.lag - 1 := by
        rw [accumulate_queue, RetireQueue.lag_waiting, lag_enqueue_eq]
        rfl
      rw [due, moved_shape, hissued, hfetched, hsummed, hqueue, hread, hmultiplied, hlag,
        Nat.sub_max_sub_right, Nat.sub_max_sub_right, due]
      rfl
  | combinational =>
      obtain ⟨hissued, hfetched, hsummed⟩ := hidle hstages
      have hbefore : pipeline.due = pipeline.queue.lag := by
        simp [due, hissued, hfetched, hsummed]
      have hmoved : (pipeline.moved operands).due =
          (pipeline.passing operands).enqueue.queue.lag - 1 := by
        rw [moved_of_combinational operands pipeline hstages, due]
        simp [passing, RetireQueue.lag_waiting]
      -- what is issued reaches the queue in the same cycle
      have hpassed : ((pipeline.passing operands).summed.elim 0 fun sum =>
            pipeline.shape.retirement.delay sum.products + 1) - 1 =
          pipeline.issue.1.issued.elim 0 fun batch =>
            pipeline.shape.retirement.delay batch.pairs.length := by
        rw [passing]
        cases pipeline.issue.1.issued <;> simp [FetchedBatch.fetch, FetchedBatch.multiply]
      rw [hmoved, lag_enqueue_eq, ← Nat.sub_max_sub_right, hbefore]
      exact congrArg (max · (pipeline.queue.lag - 1)) hpassed

/-- A cycle brings the end of the current diagonal one cycle closer. -/
theorem outstanding_moved (hidle : pipeline.RegistersIdle) (hwidth : 0 < pipeline.shape.width) :
    (pipeline.moved operands).outstanding = pipeline.outstanding - 1 := by
  have hdue := due_moved operands hidle
  rw [outstanding, moved_shape, moved_cursor, outstanding]
  cases hexhausted : pipeline.cursor.exhausted with
  | true =>
      obtain ⟨hissued, hcursor⟩ := issue_of_exhausted pipeline hexhausted
      have hnone := pipeline.cursor.exhausted_iff_remaining.mp hexhausted
      rw [hissued, Option.elim_none] at hdue
      rw [hcursor, hnone, Shape.remainingCycles_zero]
      omega
  | false =>
      have hpairs : 0 < pipeline.cursor.remaining := by
        refine Nat.pos_of_ne_zero fun hnone => ?_
        rw [pipeline.cursor.exhausted_iff_remaining.mpr hnone] at hexhausted
        cases hexhausted
      have hremaining := Shape.remainingCycles_of_pos hwidth hpairs
      unfold issue at hdue ⊢
      split at hdue
      · next hnone =>
          rw [Cursor.nextBatch_eq_none_iff, hexhausted] at hnone
          cases hnone
      · next batch following hbatch =>
          obtain ⟨hlength, hfollowing⟩ := Cursor.nextBatch_length hbatch
          simp only [Option.elim_some, hlength] at hdue
          simp only [hfollowing]
          omega

end Moved

/-- A diagonal closes when nothing is left of it. -/
theorem closing_iff_outstanding (pipeline : Pipeline) (hwidth : 0 < pipeline.shape.width) :
    (pipeline.cursor.exhausted && pipeline.drained) = true ↔ pipeline.outstanding = 0 := by
  rw [Bool.and_eq_true_iff, drained_iff_due, Cursor.exhausted_iff_remaining, outstanding,
    Nat.max_eq_zero_iff]
  constructor
  · rintro ⟨hremaining, hdue⟩
    rw [hremaining]
    exact ⟨hdue, Shape.remainingCycles_zero _⟩
  · rintro ⟨hdue, hcycles⟩
    refine ⟨Nat.eq_zero_of_not_pos fun hpairs => ?_, hdue⟩
    rw [Shape.remainingCycles_of_pos hwidth hpairs] at hcycles
    omega

/-! ## The cycles of a run -/

/-- The cycles until the pipeline is finished. -/
def cyclesToFinish (pipeline : Pipeline) : Nat :=
  if pipeline.finished then 0
  else
    max 1 pipeline.outstanding + pipeline.shape.cyclesBehind pipeline.cursor.diagonal

/-- The counters have no part in what is left. -/
theorem cyclesToFinish_counters (pipeline : Pipeline) (counters : Counters) :
    cyclesToFinish { pipeline with counters } = pipeline.cyclesToFinish := rfl

/-- Only a finished pipeline has no cycles left. -/
theorem cyclesToFinish_eq_zero_iff (pipeline : Pipeline) :
    pipeline.cyclesToFinish = 0 ↔ pipeline.finished = true := by
  unfold cyclesToFinish
  split
  · next hfinished => simp [hfinished]
  · next hfinished => exact ⟨fun hzero => by omega, fun hdone => absurd hdone hfinished⟩

/-- Where nothing is in flight, a diagonal takes the cycles of the pairs that remain on it. -/
theorem outstanding_of_drained {pipeline : Pipeline} (h : pipeline.drained = true) :
    pipeline.outstanding = pipeline.shape.remainingCycles pipeline.cursor.remaining := by
  rw [outstanding, (drained_iff_due pipeline).mp h, Nat.zero_max]

/-- An empty pipeline has the cycles of all diagonals before it. -/
theorem cyclesToFinish_ofShape {shape : Shape} (hwidth : 0 < shape.width) :
    (ofShape shape).cyclesToFinish = shape.runCycles := by
  have hfirst : (ofShape shape).outstanding =
      shape.remainingCycles (Cursor.pairsOf 0).length := by
    rw [outstanding_of_drained rfl, Cursor.pairsOf, Cursor.length_unissued]
    rfl
  rw [cyclesToFinish, if_neg (show ¬ (ofShape shape).finished = true from Bool.false_ne_true),
    hfirst, Shape.runCycles_eq hwidth]
  rfl

/-- A closing diagonal leaves the cycles of the diagonals behind it. -/
theorem cyclesToFinish_close {moved : Pipeline} (product : Product)
    (hdiagonal : moved.cursor.diagonal < diagonalCount) (hfinished : moved.finished = false)
    (hdrained : moved.drained = true) :
    (moved.close product).pipeline.cyclesToFinish =
      moved.shape.cyclesBehind moved.cursor.diagonal := by
  by_cases hlast : moved.cursor.diagonal = lastDiagonal
  · rw [cyclesToFinish, if_pos (close_of_last product moved hlast).2, hlast,
      Shape.cyclesBehind_last]
  · obtain ⟨hcursor, hopen⟩ := close_of_ne_last product moved hlast
    have hclosed : (moved.close product).pipeline.drained = true := by
      simpa [drained] using hdrained
    have hnext : (moved.close product).pipeline.outstanding =
        moved.shape.remainingCycles (Cursor.pairsOf (moved.cursor.diagonal + 1)).length := by
      rw [outstanding_of_drained hclosed, hcursor, close_shape, Cursor.pairsOf,
        Cursor.length_unissued]
    have hbehind : moved.cursor.diagonal + 1 < diagonalCount := by
      simp only [lastDiagonal] at hlast
      omega
    rw [cyclesToFinish, hopen, hfinished, if_neg Bool.false_ne_true, hnext, hcursor, close_shape,
      Shape.cyclesBehind_of_lt _ hbehind]
    rfl

/-- Each cycle of a pipeline that is not finished is one of those that it has left. -/
theorem Live.cyclesToFinish_step {pipeline : Pipeline} (h : Live pipeline)
    (hidle : pipeline.RegistersIdle) (hfinished : pipeline.finished = false) (operands : Operands)
    (product : Product) :
    (pipeline.step operands product).pipeline.cyclesToFinish + 1 = pipeline.cyclesToFinish := by
  have hmoved := outstanding_moved operands hidle h.width_pos
  have hclosing := closing_iff_outstanding (pipeline.moved operands) (by simpa using h.width_pos)
  have hleft : pipeline.cyclesToFinish =
      max 1 pipeline.outstanding + pipeline.shape.cyclesBehind pipeline.cursor.diagonal := by
    rw [cyclesToFinish, hfinished, if_neg Bool.false_ne_true]
  obtain ⟨hexhausted, hdrained, hpipeline, -, -⟩ | ⟨hopen, ⟨counters, hpipeline⟩, -, -⟩ :=
    step_cases operands product hfinished
  · have hnone := hclosing.mp (Bool.and_eq_true_iff.mpr ⟨hexhausted, hdrained⟩)
    rw [hpipeline, cyclesToFinish_close product (by simpa using h.diagonal_lt)
      (by simpa using hfinished) hdrained, moved_shape, moved_cursor, issue_diagonal]
    omega
  · have hsome : (pipeline.moved operands).outstanding ≠ 0 := by
      intro hzero
      rw [hclosing.mpr hzero] at hopen
      cases hopen
    have hafter : ((pipeline.step operands product).pipeline).cyclesToFinish =
        max 1 (pipeline.moved operands).outstanding +
          pipeline.shape.cyclesBehind pipeline.cursor.diagonal := by
      rw [hpipeline, cyclesToFinish_counters, cyclesToFinish, moved_finished, hfinished,
        if_neg Bool.false_ne_true, moved_shape, moved_cursor, issue_diagonal]
    omega

/-! ## The cycle counter -/

section Counter

variable (operands : Operands) (pipeline : Pipeline)

/-- Issuing counts no cycles. -/
theorem issue_cycles : pipeline.issue.1.counters.cycles = pipeline.counters.cycles := by
  unfold issue; split <;> rfl

/-- Folding sums in counts no cycles. -/
theorem accumulate_cycles :
    pipeline.accumulate.1.counters.cycles = pipeline.counters.cycles := by
  obtain ⟨depth, -, hcounters⟩ := pipeline.accumulate_counters
  rw [hcounters, Counters.observeQueue]

/-- While the batches in flight move, one cycle is counted. -/
theorem moved_cycles :
    (pipeline.moved operands).counters.cycles =
      countUpTo Counters.wordLimit pipeline.counters.cycles 1 := by
  unfold moved shift
  split
  · simp only [shiftStaged, issue_cycles, accumulate_cycles]
    rfl
  · simp only [shiftCombinational, accumulate_cycles, issue_cycles]
    rfl

/-- A pipeline that is not finished counts each cycle once. -/
theorem step_cycles (product : Product) (hfinished : pipeline.finished = false) :
    (pipeline.step operands product).pipeline.counters.cycles =
      countUpTo Counters.wordLimit pipeline.counters.cycles 1 := by
  rw [step_eq operands product hfinished, ← moved_cycles operands pipeline]
  split
  · unfold close
    dsimp only
    split <;> rfl
  · split <;> rfl

end Counter

end Pipeline

namespace Engine

variable {shape : Shape} (caches : Nat → Operands) (product : Product)

/-- After some cycles of a run, the others are left. -/
theorem cyclesToFinish_after (hvalid : shape.validate = .ok ()) (cycles : Nat) :
    ((start shape product).after caches cycles).pipeline.cyclesToFinish =
      shape.runCycles - cycles := by
  have hlive : (start shape product).pipeline.Live := Pipeline.live_ofShape hvalid
  induction cycles with
  | zero => exact Pipeline.cyclesToFinish_ofShape hlive.width_pos
  | succ cycles ih =>
      cases hfinished : ((start shape product).after caches cycles).pipeline.finished with
      | true =>
          have hnone := (Pipeline.cyclesToFinish_eq_zero_iff _).mpr hfinished
          simp only [after, step, tick, Pipeline.step, hfinished, if_true, hnone]
          omega
      | false =>
          have hidle := (sound_after caches shape product cycles).idle
          have hstep := (live_after caches hlive cycles).cyclesToFinish_step hidle hfinished
            (caches (cycles + 1)) ((start shape product).after caches cycles).product
          simp only [after, step, tick]
          omega

/-- A run is finished when its cycles are over. -/
theorem finished_iff (hvalid : shape.validate = .ok ()) (cycles : Nat) :
    ((start shape product).after caches cycles).pipeline.finished = true ↔
      shape.runCycles ≤ cycles := by
  rw [← Pipeline.cyclesToFinish_eq_zero_iff, cyclesToFinish_after caches product hvalid]
  omega

/-- No diagonal takes longer than one cycle for each limb and the longest lag. -/
theorem runCycles_le (hvalid : shape.validate = .ok ()) :
    shape.runCycles ≤ diagonalCount * (operandLimbs + Pipeline.lagLimit + 1) := by
  have hlive : (start shape Product.zero).pipeline.Live := Pipeline.live_ofShape hvalid
  have hfinished := finished_of_workload_le (fun _ => Operands.zero) hlive hlive.workload_le
  exact (finished_iff _ _ hvalid _).mp hfinished

/-- The counter shows the cycles that have passed, and stops with the last one. -/
theorem cycles_after (hvalid : shape.validate = .ok ()) (cycles : Nat) :
    ((start shape product).after caches cycles).pipeline.counters.cycles =
      min cycles shape.runCycles := by
  have hlimit : shape.runCycles ≤ Counters.wordLimit :=
    (runCycles_le hvalid).trans (by decide)
  induction cycles with
  | zero => exact (Nat.zero_min _).symm
  | succ cycles ih =>
      have hiff := finished_iff caches product hvalid cycles
      cases hfinished : ((start shape product).after caches cycles).pipeline.finished with
      | true =>
          rw [hfinished] at hiff
          have hover := hiff.mp rfl
          simp only [after, step, tick, Pipeline.step, hfinished, if_true, ih]
          omega
      | false =>
          rw [hfinished] at hiff
          have hleft : cycles < shape.runCycles := by
            refine Nat.lt_of_not_le fun hover => ?_
            cases hiff.mpr hover
          have hstep := Pipeline.step_cycles (caches (cycles + 1))
            ((start shape product).after caches cycles).pipeline
            ((start shape product).after caches cycles).product hfinished
          simp only [after, step, tick, hstep, ih, countUpTo]
          omega

end Engine

end WideMultiplier
