import WideMultiplier.Proofs.Pipeline.Conservation

/-!
# Every run of a pipeline comes to its end

`Pipeline.lag` counts the cycles after which nothing that is in flight now can still be in flight,
and `Pipeline.workload` the cycles after which the pipeline must be finished. Each cycle lowers the
workload (`Pipeline.Live.workload_step_lt`), whatever factors it works on, so a pipeline is finished
once as many cycles as its workload have passed (`Engine.finished_of_workload_le`).
-/

namespace WideMultiplier

namespace RetireQueue

/-- The cycles after which the queue is empty, if nothing joins it. -/
def lag (queue : RetireQueue) : Nat :=
  (queue.map fun entry => entry.remaining + 1).foldr max 0

@[simp] theorem lag_nil : lag [] = 0 := rfl

@[simp] theorem lag_cons (entry : InFlight) (rest : RetireQueue) :
    lag (entry :: rest) = max (entry.remaining + 1) (lag rest) := rfl

/-- A sum that joins the queue leaves it after its delay. -/
theorem lag_push (queue : RetireQueue) (sum : PartialSum) (delay : Nat) :
    (queue.push sum delay).lag = max queue.lag (delay + 1) := by
  induction queue with
  | nil => simp [push]
  | cons entry rest ih =>
      rw [push] at ih ⊢
      rw [List.cons_append, lag_cons, ih, lag_cons, Nat.max_assoc]

/-- A tick lets go of a sum whose wait is over, and takes a cycle off every other wait. -/
theorem waiting_cons (entry : InFlight) (rest : RetireQueue) :
    waiting (entry :: rest) =
      if entry.remaining = 0 then waiting rest
      else { entry with remaining := entry.remaining - 1 } :: waiting rest := by
  split <;> simp_all [waiting]

/-- A tick brings the queue one cycle closer to empty. -/
theorem lag_waiting (queue : RetireQueue) : queue.waiting.lag = queue.lag - 1 := by
  induction queue with
  | nil => rfl
  | cons entry rest ih =>
      rw [waiting_cons]
      split
      · rw [ih, lag_cons]
        omega
      · rw [lag_cons, ih, lag_cons]
        dsimp only
        omega

/-- Only the empty queue has nothing to wait for. -/
theorem eq_nil_of_lag {queue : RetireQueue} (h : queue.lag = 0) : queue = [] := by
  cases queue with
  | nil => rfl
  | cons entry rest =>
      rw [lag_cons] at h
      omega

end RetireQueue

/-- No adder tree is deeper than the deepest that is modelled. -/
theorem treeDepth_le (count : Nat) : treeDepth count ≤ maxDelay := by
  unfold treeDepth
  split
  · exact Nat.zero_le _
  · exact Nat.min_le_right _ _

/-- No partial sum waits longer than the deepest adder tree. -/
theorem Retirement.delay_le (retirement : Retirement) (count : Nat) :
    retirement.delay count ≤ maxDelay := by
  cases retirement with
  | immediate => exact Nat.zero_le _
  | delayed cap => exact (Nat.min_le_left _ _).trans (treeDepth_le count)

/-- A valid shape issues at least one pair in a cycle, and no more than a diagonal holds. -/
theorem Shape.width_of_validate {shape : Shape} (h : shape.validate = .ok ()) :
    0 < shape.width ∧ shape.width ≤ maxBatchWidth := by
  unfold Shape.validate at h
  split at h
  · cases h
  · next hwidth =>
      simp only [not_or, Nat.not_lt] at hwidth
      exact ⟨Nat.pos_of_ne_zero hwidth.1, hwidth.2⟩

namespace Pipeline

/-- The longest time that a batch is in flight, from the cycle that issues it. -/
abbrev lagLimit : Nat := maxDelay + 3

/-- The cycles after which nothing is in flight, if nothing more is issued. -/
def lag (pipeline : Pipeline) : Nat :=
  max (pipeline.issued.elim 0 fun _ => lagLimit)
    (max (pipeline.fetched.elim 0 fun _ => maxDelay + 2)
      (max (pipeline.summed.elim 0 fun _ => maxDelay + 1) pipeline.queue.lag))

/-- A pipeline without lag is drained. -/
theorem drained_of_lag {pipeline : Pipeline} (h : pipeline.lag = 0) : pipeline.drained = true := by
  obtain ⟨shape, cursor, issued, fetched, summed, queue, accumulator, counters, finished⟩ :=
    pipeline
  simp only [lag] at h
  have hqueue : queue = [] := RetireQueue.eq_nil_of_lag (by omega)
  cases issued <;> cases fetched <;> cases summed <;> simp_all [drained]

/-- The queue of a pipeline that takes the partial sum in the register in. -/
theorem lag_enqueue_eq (pipeline : Pipeline) :
    pipeline.enqueue.queue.lag =
      max (pipeline.summed.elim 0 fun sum => pipeline.shape.retirement.delay sum.products + 1)
        pipeline.queue.lag := by
  unfold enqueue
  split
  · next hnone => rw [hnone, Option.elim_none, Nat.zero_max]
  · next sum hsum => rw [hsum, Option.elim_some, RetireQueue.lag_push, Nat.max_comm]

/-- No partial sum keeps the queue busy longer than the deepest adder tree. -/
theorem lag_enqueue (pipeline : Pipeline) :
    pipeline.enqueue.queue.lag ≤
      max (pipeline.summed.elim 0 fun _ => maxDelay + 1) pipeline.queue.lag := by
  rw [lag_enqueue_eq]
  refine max_le_max_right _ ?_
  cases pipeline.summed with
  | none => exact Nat.le_refl _
  | some sum => exact Nat.succ_le_succ (pipeline.shape.retirement.delay_le sum.products)

/-- A cycle takes one off the lag, unless it issues a batch. -/
theorem lag_moved (operands : Operands) (pipeline : Pipeline) :
    (pipeline.moved operands).lag ≤
      max (pipeline.issue.1.issued.elim 0 fun _ => lagLimit) (pipeline.lag - 1) := by
  cases hstages : pipeline.shape.stages with
  | staged =>
      obtain ⟨hissued, hfetched, hsummed, hqueue, -⟩ := moved_of_staged operands pipeline hstages
      rw [accumulate_queue] at hqueue
      have henqueue : pipeline.counted.enqueue.queue.lag ≤
          max (pipeline.summed.elim 0 fun _ => maxDelay + 1) pipeline.queue.lag :=
        lag_enqueue pipeline.counted
      -- each register takes what the one before held, and is one cycle closer to the end
      have hread : ((pipeline.issued.map (FetchedBatch.fetch operands)).elim 0
          fun _ => maxDelay + 2) ≤ (pipeline.issued.elim 0 fun _ => lagLimit) - 1 := by
        cases pipeline.issued <;> simp [lagLimit]
      have hmultiplied : ((pipeline.fetched.map FetchedBatch.multiply).elim 0
          fun _ => maxDelay + 1) ≤ (pipeline.fetched.elim 0 fun _ => maxDelay + 2) - 1 := by
        cases pipeline.fetched <;> simp
      rw [lag, hissued, hfetched, hsummed, hqueue, RetireQueue.lag_waiting, lag]
      omega
  | combinational =>
      -- what is issued reaches the queue in the same cycle
      have henqueue : (pipeline.passing operands).enqueue.queue.lag ≤
          max ((pipeline.passing operands).summed.elim 0 fun _ => maxDelay + 1)
            pipeline.queue.lag := lag_enqueue (pipeline.passing operands)
      have hmoved : (pipeline.moved operands).lag =
          (pipeline.passing operands).enqueue.queue.lag - 1 := by
        rw [moved_of_combinational operands pipeline hstages, lag]
        simp [passing, RetireQueue.lag_waiting]
      have hsummed : ((pipeline.passing operands).summed.elim 0 fun _ => maxDelay + 1) ≤
          pipeline.issue.1.issued.elim 0 fun _ => lagLimit := by
        rw [passing]
        cases pipeline.issue.1.issued <;> simp
      have hbefore : pipeline.queue.lag ≤ pipeline.lag := by
        simp only [lag]
        omega
      omega

/-- The cycles after which the pipeline must be finished: those of the diagonals that are still to
come, and for the current one a cycle for each pair that is not issued and the lag of the last. -/
def workload (pipeline : Pipeline) : Nat :=
  if pipeline.finished then 0
  else
    (lastDiagonal - pipeline.cursor.diagonal) * (operandLimbs + lagLimit + 1) + 1 +
      if pipeline.cursor.exhausted then pipeline.lag else pipeline.cursor.remaining + lagLimit

/-- The counters are no part of the workload. -/
theorem workload_counters (pipeline : Pipeline) (counters : Counters) :
    workload { pipeline with counters } = pipeline.workload := rfl

/-- A pipeline that can issue something in each cycle, and holds nothing for long. -/
structure Live (pipeline : Pipeline) : Prop where
  width_pos : 0 < pipeline.shape.width
  diagonal_lt : pipeline.cursor.diagonal < diagonalCount
  lag_le : pipeline.lag ≤ lagLimit

namespace Live

variable {pipeline : Pipeline}

/-- A cycle never makes the lag longer than that of a batch that is issued. -/
theorem lag_moved_le (h : Live pipeline) (operands : Operands) :
    (pipeline.moved operands).lag ≤ lagLimit := by
  have hmoved := lag_moved operands pipeline
  have hlag := h.lag_le
  cases hissued : pipeline.issue.1.issued with
  | none => rw [hissued, Option.elim_none] at hmoved; omega
  | some batch => rw [hissued, Option.elim_some] at hmoved; omega

/-- The state after a diagonal has closed has nothing in flight. -/
theorem lag_close {moved : Pipeline} (product : Product) (hdrained : moved.drained = true) :
    (moved.close product).pipeline.lag = 0 := by
  simp only [drained, Bool.and_eq_true, Option.isNone_iff_eq_none, List.isEmpty_iff] at hdrained
  obtain ⟨⟨⟨hissued, hfetched⟩, hsummed⟩, hqueue⟩ := hdrained
  simp [lag, hissued, hfetched, hsummed, hqueue]

/-- A cycle keeps a pipeline live. -/
theorem step (h : Live pipeline) (operands : Operands) (product : Product) :
    Live (pipeline.step operands product).pipeline := by
  cases hfinished : pipeline.finished with
  | true => simpa [Pipeline.step, hfinished] using h
  | false =>
      have hlt := h.diagonal_lt
      obtain ⟨-, hdrained, hpipeline, -, -⟩ | ⟨-, ⟨counters, hpipeline⟩, -, -⟩ :=
        step_cases operands product hfinished
      · rw [hpipeline]
        refine ⟨by simpa using h.width_pos, ?_, by simp [lag_close product hdrained]⟩
        by_cases hlast : (pipeline.moved operands).cursor.diagonal = lastDiagonal
        · rw [(close_of_last product _ hlast).1, hlast]
          decide
        · rw [(close_of_ne_last product _ hlast).1]
          show (pipeline.moved operands).cursor.diagonal + 1 < diagonalCount
          rw [moved_cursor, issue_diagonal] at hlast ⊢
          simp only [lastDiagonal] at hlast
          omega
      · rw [hpipeline]
        exact ⟨by simpa using h.width_pos, by simpa using h.diagonal_lt, h.lag_moved_le operands⟩

/-- On an open diagonal a cycle issues a pair or brings what is in flight closer to its end. -/
theorem workload_moved_lt (h : Live pipeline) (hfinished : pipeline.finished = false)
    (operands : Operands)
    (hopen : ((pipeline.moved operands).cursor.exhausted &&
      (pipeline.moved operands).drained) = false) :
    (pipeline.moved operands).workload < pipeline.workload := by
  have hmoved := lag_moved operands pipeline
  have hlimit := h.lag_moved_le operands
  simp only [workload, moved_finished, hfinished, Bool.false_eq_true, if_false, moved_cursor,
    issue_diagonal]
  rw [moved_cursor] at hopen
  cases hexhausted : pipeline.cursor.exhausted with
  | true =>
      obtain ⟨hissued, hcursor⟩ := issue_of_exhausted pipeline hexhausted
      rw [hissued, Option.elim_none] at hmoved
      rw [hcursor, hexhausted, Bool.true_and] at hopen
      -- something is still in flight, or the diagonal would close
      have hpos : (pipeline.moved operands).lag ≠ 0 := by
        intro hzero
        rw [drained_of_lag hzero] at hopen
        cases hopen
      simp only [hcursor, hexhausted, if_true]
      omega
  | false =>
      have hremaining := issue_remaining_lt pipeline h.width_pos hexhausted
      simp only [Bool.false_eq_true, if_false]
      split <;> omega

/-- A closing diagonal leaves only the diagonals behind it to do. -/
theorem workload_close_lt (h : Live pipeline) (hfinished : pipeline.finished = false)
    (operands : Operands) (product : Product)
    (hdrained : (pipeline.moved operands).drained = true) :
    ((pipeline.moved operands).close product).pipeline.workload < pipeline.workload := by
  have hlag := lag_close product hdrained
  have hlt := h.diagonal_lt
  have hdiagonal : (pipeline.moved operands).cursor.diagonal = pipeline.cursor.diagonal := by simp
  by_cases hlast : (pipeline.moved operands).cursor.diagonal = lastDiagonal
  · have hdone := (close_of_last product _ hlast).2
    simp only [workload, hdone, hfinished, if_true, Bool.false_eq_true, if_false]
    omega
  · obtain ⟨hcursor, hopen⟩ := close_of_ne_last product _ hlast
    rw [hdiagonal] at hlast hcursor
    have hremaining : (Cursor.startOf (pipeline.cursor.diagonal + 1)).remaining ≤ operandLimbs := by
      simpa [Cursor.pairsOf] using Cursor.length_pairsOf_le (pipeline.cursor.diagonal + 1)
    have hnext : (Cursor.startOf (pipeline.cursor.diagonal + 1)).diagonal =
        pipeline.cursor.diagonal + 1 := rfl
    simp only [workload, hopen, moved_finished, hfinished, Bool.false_eq_true, if_false, hcursor,
      hlag, hnext]
    simp only [lastDiagonal, diagonalCount, productLimbs, operandLimbs, lagLimit, maxDelay] at *
    split <;> omega

/-- Each cycle lowers the workload. -/
theorem workload_step_lt (h : Live pipeline) (hfinished : pipeline.finished = false)
    (operands : Operands) (product : Product) :
    (pipeline.step operands product).pipeline.workload < pipeline.workload := by
  obtain ⟨-, hdrained, hpipeline, -, -⟩ | ⟨hopen, ⟨counters, hpipeline⟩, -, -⟩ :=
    step_cases operands product hfinished
  · rw [hpipeline]
    exact h.workload_close_lt hfinished operands product hdrained
  · rw [hpipeline, workload_counters]
    exact h.workload_moved_lt hfinished operands hopen

/-- A pipeline without workload is finished. -/
theorem finished_of_workload (h : pipeline.workload = 0) : pipeline.finished = true := by
  cases hfinished : pipeline.finished with
  | true => rfl
  | false =>
      simp only [workload, hfinished, Bool.false_eq_true, if_false] at h
      omega

/-- The workload is never more than that of all diagonals at their longest. -/
theorem workload_le (h : Live pipeline) :
    pipeline.workload ≤ diagonalCount * (operandLimbs + lagLimit + 1) := by
  have hlag := h.lag_le
  have hremaining : pipeline.cursor.remaining ≤ operandLimbs := by
    simp only [Cursor.remaining, Cursor.last, Cursor.lastOf, operandLimbs]
    omega
  unfold workload
  simp only [lastDiagonal, diagonalCount, productLimbs, operandLimbs, lagLimit, maxDelay] at *
  split
  · omega
  · split <;> omega

end Live

/-- An empty pipeline of a valid shape is live. -/
theorem live_ofShape {shape : Shape} (h : shape.validate = .ok ()) :
    Live (Pipeline.ofShape shape) :=
  ⟨(Shape.width_of_validate h).1, show 0 < diagonalCount by decide, show 0 ≤ lagLimit by decide⟩

end Pipeline

namespace Engine

/-- A pipeline stays live as long as it runs. -/
theorem live_after (caches : Nat → Operands) {engine : Engine} (h : engine.pipeline.Live)
    (cycles : Nat) : (engine.after caches cycles).pipeline.Live := by
  induction cycles with
  | zero => exact h
  | succ cycles ih => exact ih.step _ _

/-- A pipeline is finished once as many cycles as its workload have passed. -/
theorem finished_of_workload_le (caches : Nat → Operands) {engine : Engine}
    (h : engine.pipeline.Live) {cycles : Nat} (hcycles : engine.pipeline.workload ≤ cycles) :
    (engine.after caches cycles).pipeline.finished = true := by
  -- the workload that is left and the cycles that have passed never exceed the first workload
  have hrun : ∀ cycles, (engine.after caches cycles).pipeline.finished = true ∨
      (engine.after caches cycles).pipeline.workload + cycles ≤ engine.pipeline.workload := by
    intro cycles
    induction cycles with
    | zero => exact .inr (Nat.le_refl _)
    | succ cycles ih =>
        cases hfinished : (engine.after caches cycles).pipeline.finished with
        | true => exact .inl (by simp [after, step, tick, Pipeline.step, hfinished])
        | false =>
            have hstep := (live_after caches h cycles).workload_step_lt hfinished
              (caches (cycles + 1)) (engine.after caches cycles).product
            rw [hfinished] at ih
            rcases ih with ih | ih
            · cases ih
            · right
              simp only [after, step, tick]
              omega
  rcases hrun cycles with hfinished | hload
  · exact hfinished
  · exact Pipeline.Live.finished_of_workload (by omega)

end Engine

end WideMultiplier
