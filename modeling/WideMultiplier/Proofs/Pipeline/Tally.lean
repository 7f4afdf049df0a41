import WideMultiplier.Proofs.Pipeline.Bounds
import WideMultiplier.Proofs.Pipeline.CycleCount
import WideMultiplier.Proofs.Pipeline.Narration

/-!
# How the counters of a run relate

Each cycle of a run issues a batch, closes a diagonal, or waits, and may do the first two at once.
The counters keep these apart: `Pipeline.Tallied` says how they relate in the middle of a run, and
`Pipeline.Tallied.step` that a cycle keeps this as long as no counter is full. None ever is, because
a run is over long before. In a combinational pipeline that folds every partial sum in at once no
cycle waits (`Pipeline.Prompt`). `Engine.counters_balance` gathers what follows for every run.
-/

namespace WideMultiplier

open scoped BigOperators

/-- Below its limit a counter counts everything. -/
theorem countUpTo_of_le {limit count amount : Nat} (h : count + amount ≤ limit) :
    countUpTo limit count amount = count + amount :=
  Nat.min_eq_left h

/-- Counting one by one counts all, below the limit. -/
theorem iterate_countUpTo {limit count : Nat} (times : Nat) (h : count + times ≤ limit) :
    (countUpTo limit · 1)^[times] count = count + times := by
  induction times generalizing count with
  | zero => rfl
  | succ times ih =>
      rw [Function.iterate_succ_apply, countUpTo_of_le (by omega), ih (by omega)]
      omega

/-- A diagonal holds a pair, unless it is the last. -/
theorem Cursor.exhausted_startOf {diagonal : Nat} (h : diagonal < diagonalCount) :
    (startOf diagonal).exhausted = true ↔ diagonal = lastDiagonal := by
  rw [exhausted, decide_eq_true_iff]
  simp only [startOf, last, firstOf, lastOf, lastDiagonal, diagonalCount, productLimbs,
    operandLimbs] at *
  omega

/-- Whether a cycle closes a diagonal and issues nothing. -/
def PipelineStep.closesIdle (step : PipelineStep) : Bool :=
  step.closed.isSome && (Event.issues step.events).isEmpty

namespace Pipeline

/-! ## What a cycle counts -/

section Step

variable (operands : Operands) (pipeline : Pipeline)

/-- A batch is issued as long as the diagonal is not exhausted. -/
theorem issue_isSome : pipeline.issue.1.issued.isSome = !pipeline.cursor.exhausted := by
  cases hexhausted : pipeline.cursor.exhausted with
  | true => simp [issue_of_exhausted pipeline hexhausted]
  | false =>
      unfold issue
      split
      · next hnone =>
          rw [Cursor.nextBatch_eq_none_iff, hexhausted] at hnone
          cases hnone
      · rfl

/-- A cycle reports the issue of a batch, or of none on an exhausted diagonal. -/
theorem length_issues : (Event.issues (pipeline.movedEvents operands)).length =
    if pipeline.cursor.exhausted then 0 else 1 := by
  have hsome := pipeline.issue_isSome
  rw [(pipeline.movedEvents_batches operands).1, pipeline.issue_events.1, List.length_map]
  cases hissued : pipeline.issue.1.issued <;> cases hexhausted : pipeline.cursor.exhausted <;>
    simp_all

/-- What retires in a cycle are the partial sums that the queue lets go. -/
theorem length_retirements : (Event.retirements (pipeline.movedEvents operands)).length =
    (pipeline.accumulating operands).enqueue.queue.ready.length := by
  rw [(pipeline.movedEvents_batches operands).2.1, (accumulate_events _).2.1, List.length_map]

/-- While the batches in flight move, the issue, the retirements and the cycle are counted. -/
theorem moved_counters :
    ∃ peak ≤ max pipeline.counters.peakQueue (pipeline.accumulating operands).enqueue.queue.length,
      (pipeline.moved operands).counters =
        { cycles := countUpTo Counters.wordLimit pipeline.counters.cycles 1
          issued :=
            if pipeline.cursor.exhausted then pipeline.counters.issued
            else countUpTo Counters.wordLimit pipeline.counters.issued 1
          retired := (countUpTo Counters.wordLimit · 1)^[
            (Event.retirements (pipeline.movedEvents operands)).length] pipeline.counters.retired
          closed := pipeline.counters.closed
          drained := pipeline.counters.drained
          peakQueue := peak } := by
  obtain ⟨depth, hdepth, hcounters⟩ := (pipeline.accumulating operands).accumulate_counters
  rw [length_retirements]
  refine ⟨max pipeline.counters.peakQueue depth, max_le_max_left _ hdepth, ?_⟩
  cases hstages : pipeline.shape.stages with
  | staged =>
      have hcounted : pipeline.counted.shape.stages = .staged := hstages
      simp only [accumulating, hstages] at hcounters ⊢
      simp only [moved, shift, hcounted, shiftStaged, issue_counters, accumulate_cursor, hcounters]
      split <;> simp_all [counted, Counters.countCycle, Counters.countIssue, Counters.observeQueue]
  | combinational =>
      have hbegun : (pipeline.accumulating operands).counters =
          if pipeline.cursor.exhausted then pipeline.counters.countCycle
          else pipeline.counters.countCycle.countIssue := by
        simp only [accumulating, hstages]
        exact issue_counters pipeline.counted
      have hpassing : pipeline.accumulating operands = pipeline.passing operands := by
        simp only [accumulating, hstages]
      rw [hbegun, hpassing] at hcounters
      rw [moved_of_combinational operands pipeline hstages, hcounters, hpassing]
      split <;> rfl

variable {pipeline}

/-- A cycle closes the diagonal when nothing is left of it. -/
theorem step_closed_isSome (product : Product) (hfinished : pipeline.finished = false) :
    (pipeline.step operands product).closed.isSome =
      ((pipeline.moved operands).cursor.exhausted && (pipeline.moved operands).drained) := by
  obtain ⟨hexhausted, hdrained, -, -, hclosed⟩ | ⟨hopen, -, -, hclosed⟩ :=
    step_cases operands product hfinished
  · rw [hclosed, hexhausted, hdrained]
    rfl
  · rw [hclosed, hopen]
    rfl

/-- While the counter has room, it shows whether a cycle issues a batch. -/
theorem moved_issued_eq_iff (hroom : pipeline.counters.issued < Counters.wordLimit) :
    (pipeline.moved operands).counters.issued = pipeline.counters.issued ↔
      pipeline.cursor.exhausted = true := by
  obtain ⟨peak, -, hcounters⟩ := pipeline.moved_counters operands
  have hcount : countUpTo Counters.wordLimit pipeline.counters.issued 1 =
      pipeline.counters.issued + 1 := countUpTo_of_le hroom
  rw [hcounters, hcount]
  cases pipeline.cursor.exhausted <;> simp

/-- The queue is observed before a diagonal closes. -/
theorem step_peakQueue (product : Product) (hfinished : pipeline.finished = false) :
    (pipeline.step operands product).pipeline.counters.peakQueue =
      (pipeline.moved operands).counters.peakQueue := by
  rw [step_eq operands product hfinished]
  split
  · unfold close
    dsimp only
    split <;> rfl
  · split <;> rfl

/-- A cycle closes a diagonal and issues nothing if the diagonal was exhausted before. -/
theorem step_closesIdle (product : Product) (hfinished : pipeline.finished = false) :
    (pipeline.step operands product).closesIdle =
      ((pipeline.step operands product).closed.isSome && pipeline.cursor.exhausted) := by
  have hclosing : Event.issues ((pipeline.step operands product).closed.toList.map fun closed =>
      Event.diagonalClosed closed.index closed.limb) = [] := by
    simp [Event.issues, Event.issue?]
  have hlength := pipeline.length_issues operands
  rw [PipelineStep.closesIdle, step_events operands product hfinished, Event.issues_append,
    hclosing, List.append_nil]
  congr 1
  cases hissues : Event.issues (pipeline.movedEvents operands) <;>
    cases hexhausted : pipeline.cursor.exhausted <;> simp_all

/-- In a staged pipeline a batch that is issued is in flight when the cycle ends, so that only a
cycle that issues nothing closes a diagonal. -/
theorem closesIdle_of_staged (product : Product) (hstages : pipeline.shape.stages = .staged) :
    (pipeline.step operands product).closesIdle =
      (pipeline.step operands product).closed.isSome := by
  cases hfinished : pipeline.finished with
  | true => simp [step, hfinished, PipelineStep.closesIdle]
  | false =>
      rw [step_closesIdle operands product hfinished, step_closed_isSome operands product hfinished]
      cases hexhausted : pipeline.cursor.exhausted with
      | true => rw [Bool.and_true]
      | false =>
          have hsome := pipeline.issue_isSome
          rw [hexhausted, ← (moved_of_staged operands pipeline hstages).1] at hsome
          obtain ⟨batch, hbatch⟩ := Option.isSome_iff_exists.mp hsome
          simp [drained, hbatch]

/-- Nothing is in flight behind a cycle that closes a diagonal. -/
theorem inFlight_of_closed {product : Product}
    (h : (pipeline.step operands product).closed.isSome = true) :
    (pipeline.step operands product).pipeline.inFlight = [] := by
  cases hfinished : pipeline.finished with
  | true =>
      simp [step, hfinished] at h
  | false =>
      obtain ⟨-, hdrained, hpipeline, -, -⟩ | ⟨-, -, -, hnone⟩ :=
        step_cases operands product hfinished
      · rw [hpipeline, ← inFlight_of_drained hdrained]
        simp only [inFlight, close_issued, close_fetched, close_summed, close_queue]
      · rw [hnone] at h
        cases h

end Step

/-! ## The tally of a run -/

/-- The number of registers between the stages that hold a batch. -/
def occupied (pipeline : Pipeline) : Nat :=
  [pipeline.issued.isSome, pipeline.fetched.isSome, pipeline.summed.isSome].count true

/-- What is in flight is in the registers or in the queue. -/
theorem length_inFlight (pipeline : Pipeline) :
    pipeline.inFlight.length = pipeline.occupied + pipeline.queue.length := by
  rw [inFlight, occupied, RetireQueue.outlines]
  cases pipeline.issued <;> cases pipeline.fetched <;> cases pipeline.summed <;> simp <;> omega

/-- How the counters relate in the middle of a run, in which so many diagonals have closed in a
cycle that issued nothing. -/
structure Tallied (idle : Nat) (pipeline : Pipeline) : Prop where
  /-- What is issued has retired or is in flight. -/
  issued : pipeline.counters.issued = pipeline.counters.retired + pipeline.inFlight.length
  closed : pipeline.counters.closed = pipeline.level
  /-- A cycle issues, waits, or closes a diagonal of which it issues nothing. -/
  cycles : pipeline.counters.cycles = pipeline.counters.issued + pipeline.counters.drained + idle
  /-- What is issued and what is to come are the batches of the diagonals so far. -/
  batches : pipeline.counters.issued + pipeline.shape.batchCount pipeline.cursor.remaining =
    ∑ diagonal ∈ Finset.range (pipeline.cursor.diagonal + 1),
      pipeline.shape.batchCount (Cursor.pairsOf diagonal).length

namespace Tallied

variable {idle : Nat} {pipeline : Pipeline}

/-- In an empty pipeline nothing is counted. -/
theorem ofShape (shape : Shape) : Tallied 0 (Pipeline.ofShape shape) where
  issued := rfl
  closed := rfl
  cycles := rfl
  batches := by
    have hfirst : (Cursor.startOf 0).remaining = (Cursor.pairsOf 0).length :=
      (Cursor.length_unissued _).symm
    show 0 + shape.batchCount (Cursor.startOf 0).remaining =
      ∑ diagonal ∈ Finset.range 1, shape.batchCount (Cursor.pairsOf diagonal).length
    rw [Nat.zero_add, Finset.sum_range_one, hfirst]

/-- A batch that is issued is one of those that were to come. -/
theorem issue_batchCount (hwidth : 0 < pipeline.shape.width) :
    (if pipeline.cursor.exhausted then 0 else 1) +
        pipeline.shape.batchCount pipeline.issue.1.cursor.remaining =
      pipeline.shape.batchCount pipeline.cursor.remaining := by
  cases hexhausted : pipeline.cursor.exhausted with
  | true =>
      rw [(issue_of_exhausted pipeline hexhausted).2, if_pos rfl, Nat.zero_add]
  | false =>
      rw [if_neg Bool.false_ne_true]
      unfold issue
      split
      · next hnone =>
          rw [Cursor.nextBatch_eq_none_iff, hexhausted] at hnone
          cases hnone
      · next batch following hbatch =>
          have hless := Cursor.remaining_lt_of_nextBatch hwidth hbatch
          rw [Shape.batchCount_of_pos hwidth (Nat.zero_lt_of_lt hless), Nat.add_comm,
            ← (Cursor.nextBatch_length hbatch).2]

/-- While the batches in flight move, the counters stay in balance, but for a cycle that issues
nothing. -/
theorem moved (h : Tallied idle pipeline) (hidle : pipeline.RegistersIdle)
    (hwidth : 0 < pipeline.shape.width) (hroom : pipeline.counters.cycles < Counters.wordLimit)
    (operands : Operands) :
    Tallied (idle + if pipeline.cursor.exhausted then 1 else 0) (pipeline.moved operands) ∧
      (pipeline.moved operands).counters.cycles = pipeline.counters.cycles + 1 := by
  obtain ⟨hissued, hclosed, hcycles, hbatches⟩ := h
  obtain ⟨peak, -, hcounters⟩ := pipeline.moved_counters operands
  have hflight := (pipeline.flight_moved operands hidle).length_eq
  have hcount := issue_batchCount hwidth
  rw [List.length_append, List.length_append, length_issues] at hflight
  have hissuedAfter : (pipeline.moved operands).counters.issued =
      pipeline.counters.issued + if pipeline.cursor.exhausted then 0 else 1 := by
    rw [hcounters]
    cases pipeline.cursor.exhausted with
    | true => rfl
    | false => exact countUpTo_of_le (by omega)
  have hretiredAfter : (pipeline.moved operands).counters.retired =
      pipeline.counters.retired +
        (Event.retirements (pipeline.movedEvents operands)).length := by
    rw [hcounters]
    refine iterate_countUpTo _ ?_
    split at hflight <;> omega
  have hcyclesAfter : (pipeline.moved operands).counters.cycles = pipeline.counters.cycles + 1 := by
    rw [hcounters]
    exact countUpTo_of_le hroom
  have hdrainedAfter : (pipeline.moved operands).counters.drained = pipeline.counters.drained := by
    rw [hcounters]
  refine ⟨⟨by omega, ?_, ?_, ?_⟩, hcyclesAfter⟩
  · simp only [level, moved_finished, moved_cursor, issue_diagonal]
    rw [hcounters, hclosed, level]
  · rw [hcyclesAfter, hissuedAfter, hdrainedAfter, hcycles]
    split <;> omega
  · rw [hissuedAfter, moved_shape, moved_cursor, issue_diagonal, ← hbatches, ← hcount]
    omega

/-- A cycle that issues nothing and closes nothing is one that waits. -/
theorem wait (h : Tallied (idle + 1) pipeline)
    (hroom : pipeline.counters.cycles ≤ Counters.wordLimit) :
    Tallied idle { pipeline with counters := pipeline.counters.countDrain } := by
  obtain ⟨hissued, hclosed, hcycles, hbatches⟩ := h
  have hwaited : pipeline.counters.countDrain.drained = pipeline.counters.drained + 1 :=
    countUpTo_of_le (by omega)
  refine ⟨hissued, hclosed, ?_, hbatches⟩
  show pipeline.counters.cycles = pipeline.counters.issued + _ + idle
  rw [hwaited]
  omega

/-- Closing a diagonal of which nothing is left counts one more diagonal. -/
theorem close (h : Tallied idle pipeline) (hwidth : 0 < pipeline.shape.width)
    (hdiagonal : pipeline.cursor.diagonal < diagonalCount) (hfinished : pipeline.finished = false)
    (hexhausted : pipeline.cursor.exhausted = true) (product : Product) :
    Tallied idle (pipeline.close product).pipeline := by
  have hcounters : (pipeline.close product).pipeline.counters = pipeline.counters.countClosing := by
    unfold Pipeline.close
    dsimp only
    split <;> rfl
  have hlevel : pipeline.counters.closed = pipeline.cursor.diagonal := by
    rw [h.closed, level, hfinished, if_neg Bool.false_ne_true]
  constructor
  case issued =>
    simp only [hcounters, inFlight, close_issued, close_fetched, close_summed, close_queue]
    exact h.issued
  case closed =>
    rw [level_close product pipeline hfinished, hcounters, ← hlevel]
    refine countUpTo_of_le ?_
    rw [hlevel]
    exact Nat.le_trans hdiagonal (by decide)
  case cycles =>
    rw [hcounters]
    exact h.cycles
  case batches =>
    have hbatches := h.batches
    rw [hcounters, close_shape]
    show pipeline.counters.issued + _ = _
    by_cases hlast : pipeline.cursor.diagonal = lastDiagonal
    · rw [(close_of_last product pipeline hlast).1, hbatches]
    · -- the batches of the next diagonal are all to come
      rw [(Cursor.exhausted_iff_remaining _).mp hexhausted, Shape.batchCount_zero hwidth,
        Nat.add_zero] at hbatches
      rw [(close_of_ne_last product pipeline hlast).1, hbatches, Cursor.startOf,
        Finset.sum_range_succ _ (pipeline.cursor.diagonal + 1), Cursor.pairsOf,
        Cursor.length_unissued]
      rfl

/-- A cycle keeps the counters in balance as long as none is full. -/
theorem step (h : Tallied idle pipeline) (hidle : pipeline.RegistersIdle)
    (hwidth : 0 < pipeline.shape.width) (hdiagonal : pipeline.cursor.diagonal < diagonalCount)
    (hfinished : pipeline.finished = false)
    (hroom : pipeline.counters.cycles < Counters.wordLimit) (operands : Operands)
    (product : Product) :
    Tallied (idle + if (pipeline.step operands product).closesIdle then 1 else 0)
      (pipeline.step operands product).pipeline := by
  obtain ⟨hmoved, hcycles⟩ := h.moved hidle hwidth hroom operands
  have hbefore := h.cycles
  have hissued := moved_issued_eq_iff operands (show pipeline.counters.issued < _ by omega)
  rw [step_closesIdle operands product hfinished, step_closed_isSome operands product hfinished,
    step_eq operands product hfinished]
  cases hclosing : (pipeline.moved operands).cursor.exhausted &&
      (pipeline.moved operands).drained with
  | true =>
      exact hmoved.close (by simpa using hwidth) (by simpa using hdiagonal)
        (by simpa using hfinished) (Bool.and_eq_true_iff.mp hclosing).1 product
  | false =>
      rw [if_neg Bool.false_ne_true, Bool.false_and, if_neg Bool.false_ne_true, Nat.add_zero]
      cases hexhausted : pipeline.cursor.exhausted with
      | true =>
          rw [if_pos (hissued.mpr hexhausted)]
          rw [hexhausted, if_pos rfl] at hmoved
          exact hmoved.wait (by omega)
      | false =>
          rw [if_neg (by rw [hissued, hexhausted]; exact Bool.false_ne_true)]
          rwa [hexhausted, if_neg Bool.false_ne_true, Nat.add_zero] at hmoved

end Tallied

/-! ## Pipelines that never wait -/

/-- In the middle of a run a combinational pipeline that folds every partial sum in at once holds
nothing between two cycles and has never waited. Only the last diagonal closes in a cycle that
issues nothing. -/
structure Prompt (idle : Nat) (pipeline : Pipeline) : Prop where
  queue : pipeline.queue = []
  exhausted : pipeline.finished = false →
    (pipeline.cursor.exhausted = true ↔ pipeline.cursor.diagonal = lastDiagonal)
  drained : pipeline.counters.drained = 0
  idle : idle = if pipeline.finished then 1 else 0

namespace Prompt

variable {idle : Nat} {pipeline : Pipeline}

/-- An empty pipeline has not waited. -/
theorem ofShape (shape : Shape) : Prompt 0 (Pipeline.ofShape shape) where
  queue := rfl
  exhausted := fun _ => Cursor.exhausted_startOf (show 0 < diagonalCount by decide)
  drained := rfl
  idle := rfl

/-- A partial sum that is folded in at once does not stay in the queue. -/
theorem queue_moved (h : Prompt idle pipeline)
    (hretirement : pipeline.shape.retirement = .immediate) (operands : Operands) :
    (pipeline.moved operands).queue = [] := by
  rw [moved_queue]
  unfold enqueue
  split
  · rw [accumulating_queue, h.queue]
    rfl
  · rw [accumulating_queue, h.queue, accumulating_shape, hretirement]
    rfl

/-- Behind a cycle nothing is in flight. -/
theorem drained_moved (h : Prompt idle pipeline)
    (hstages : pipeline.shape.stages = .combinational)
    (hretirement : pipeline.shape.retirement = .immediate) (operands : Operands) :
    (pipeline.moved operands).drained = true := by
  obtain ⟨hissued, hfetched, hsummed⟩ :=
    registersIdle_moved operands pipeline (by simpa using hstages)
  simp [Pipeline.drained, hissued, hfetched, hsummed, h.queue_moved hretirement operands]

/-- A cycle does not wait. -/
theorem step (h : Prompt idle pipeline) (hstages : pipeline.shape.stages = .combinational)
    (hretirement : pipeline.shape.retirement = .immediate)
    (hdiagonal : pipeline.cursor.diagonal < diagonalCount) (hfinished : pipeline.finished = false)
    (hroom : pipeline.counters.issued < Counters.wordLimit) (operands : Operands)
    (product : Product) :
    Prompt (idle + if (pipeline.step operands product).closesIdle then 1 else 0)
      (pipeline.step operands product).pipeline := by
  have hqueue := h.queue_moved hretirement operands
  have hempty := h.drained_moved hstages hretirement operands
  have hopen := h.exhausted hfinished
  have hidle := h.idle
  have hwaited : (pipeline.moved operands).counters.drained = 0 := by
    obtain ⟨peak, -, hcounters⟩ := pipeline.moved_counters operands
    rw [hcounters, h.drained]
  have hissued := moved_issued_eq_iff operands hroom
  rw [hfinished, if_neg Bool.false_ne_true] at hidle
  rw [step_closesIdle operands product hfinished, step_closed_isSome operands product hfinished,
    step_eq operands product hfinished, hempty, Bool.and_true, hidle, Nat.zero_add]
  cases hclosing : (pipeline.moved operands).cursor.exhausted with
  | true =>
      rw [if_pos rfl, Bool.true_and]
      have hcounters : ((pipeline.moved operands).close product).pipeline.counters.drained = 0 := by
        rw [← hwaited]
        unfold close
        dsimp only
        split <;> rfl
      by_cases hlast : pipeline.cursor.diagonal = lastDiagonal
      · obtain ⟨-, hdone⟩ := close_of_last product (pipeline.moved operands) (by simpa using hlast)
        exact ⟨by simpa using hqueue, by simp [hdone], hcounters, by simp [hopen.mpr hlast, hdone]⟩
      · obtain ⟨hcursor, hrest⟩ :=
          close_of_ne_last product (pipeline.moved operands) (by simpa using hlast)
        have hbegun : pipeline.cursor.exhausted = false := Bool.eq_false_iff.mpr (mt hopen.mp hlast)
        rw [moved_cursor, issue_diagonal] at hcursor
        rw [moved_finished, hfinished] at hrest
        refine ⟨by simpa using hqueue, fun _ => ?_, hcounters, by simp [hbegun, hrest]⟩
        rw [hcursor]
        exact Cursor.exhausted_startOf (by simp only [lastDiagonal] at hlast; omega)
  | false =>
      have hbegun : pipeline.cursor.exhausted = false := by
        refine Bool.eq_false_iff.mpr fun hexhausted => ?_
        rw [moved_cursor, (issue_of_exhausted pipeline hexhausted).2, hexhausted] at hclosing
        cases hclosing
      rw [if_neg Bool.false_ne_true, Bool.false_and, if_neg Bool.false_ne_true,
        if_neg (by rw [hissued, hbegun]; exact Bool.false_ne_true)]
      refine ⟨hqueue, fun _ => ?_, hwaited, by simp [hfinished]⟩
      rw [hclosing, moved_cursor, issue_diagonal, ← hopen, hbegun]

end Prompt

end Pipeline

namespace Engine

/-! ## Runs -/

/-- The number of the first cycles of a run that find it unfinished. -/
def busyCycles (caches : Nat → Operands) (engine : Engine) (cycles : Nat) : Nat :=
  (List.range cycles).countP fun cycle => !(engine.after caches cycle).pipeline.finished

/-- The number of the first cycles of a run that close a diagonal and issue nothing. -/
def idleClosings (caches : Nat → Operands) (engine : Engine) (cycles : Nat) : Nat :=
  (List.range cycles).countP fun cycle =>
    ((engine.after caches cycle).tick (caches (cycle + 1))).closesIdle

theorem idleClosings_succ (caches : Nat → Operands) (engine : Engine) (cycles : Nat) :
    engine.idleClosings caches (cycles + 1) =
      engine.idleClosings caches cycles +
        if ((engine.after caches cycles).tick (caches (cycles + 1))).closesIdle then 1 else 0 := by
  rw [idleClosings, List.range_succ, List.countP_append, List.countP_singleton]
  rfl

/-- A finished run goes on as it is, and closes nothing. -/
theorem tick_of_finished {engine : Engine} (h : engine.pipeline.finished = true)
    (operands : Operands) :
    engine.tick operands = ⟨engine.pipeline, engine.product, none, []⟩ := by
  rw [tick, Pipeline.step, if_pos h]

section Run

variable (caches : Nat → Operands) (shape : Shape) (product : Product)

/-- The queue is never seen fuller than its slots. -/
theorem peakQueue_le (cycles : Nat) :
    ((start shape product).after caches cycles).pipeline.counters.peakQueue ≤
      retireQueueCapacity := by
  induction cycles with
  | zero => exact Nat.zero_le _
  | succ cycles ih =>
      have hslot := length_queue_lt caches shape product cycles
      rw [after, step, tick]
      generalize ((start shape product).after caches cycles).pipeline = pipeline at *
      have hpushed := (pipeline.accumulating (caches (cycles + 1))).length_enqueue_le
      rw [Pipeline.accumulating_queue] at hpushed
      cases hfinished : pipeline.finished with
      | true => simpa [Pipeline.step, hfinished] using ih
      | false =>
          obtain ⟨peak, hpeak, hcounters⟩ := pipeline.moved_counters (caches (cycles + 1))
          rw [Pipeline.step_peakQueue _ _ hfinished, hcounters]
          exact hpeak.trans (max_le ih (by omega))

variable {shape}

/-- As many cycles find a run unfinished as are counted. -/
theorem busyCycles_eq (hvalid : shape.validate = .ok ()) (cycles : Nat) :
    (start shape product).busyCycles caches cycles = min cycles shape.runCycles := by
  induction cycles with
  | zero => exact (Nat.zero_min _).symm
  | succ cycles ih =>
      have hiff := finished_iff caches product hvalid cycles
      rw [busyCycles, List.range_succ, List.countP_append, List.countP_singleton, ← busyCycles, ih]
      cases hfinished : ((start shape product).after caches cycles).pipeline.finished with
      | true =>
          have hover := hiff.mp hfinished
          simp
          omega
      | false =>
          have hleft := mt hiff.mpr (Bool.eq_false_iff.mp hfinished)
          simp
          omega

/-- The cycle counter is far from full. -/
theorem cycles_lt (hvalid : shape.validate = .ok ()) (cycles : Nat) :
    ((start shape product).after caches cycles).pipeline.counters.cycles < Counters.wordLimit := by
  rw [cycles_after caches product hvalid]
  exact Nat.lt_of_le_of_lt ((Nat.min_le_right _ _).trans (runCycles_le hvalid)) (by decide)

/-- In every run the counters are in balance. -/
theorem tallied_after (hvalid : shape.validate = .ok ()) (cycles : Nat) :
    ((start shape product).after caches cycles).pipeline.Tallied
      ((start shape product).idleClosings caches cycles) := by
  have hlive : (start shape product).pipeline.Live := Pipeline.live_ofShape hvalid
  induction cycles with
  | zero => exact .ofShape shape
  | succ cycles ih =>
      have hsound := sound_after caches shape product cycles
      rw [idleClosings_succ, after, step]
      cases hfinished : ((start shape product).after caches cycles).pipeline.finished with
      | true =>
          rw [tick_of_finished hfinished]
          exact ih
      | false =>
          exact ih.step hsound.idle (live_after caches hlive cycles).width_pos hsound.diagonal_lt
            hfinished (cycles_lt caches product hvalid cycles) _ _

/-- In every run of a combinational pipeline that folds partial sums in at once no cycle waits. -/
theorem prompt_after (hvalid : shape.validate = .ok ()) (hstages : shape.stages = .combinational)
    (hretirement : shape.retirement = .immediate) (cycles : Nat) :
    ((start shape product).after caches cycles).pipeline.Prompt
      ((start shape product).idleClosings caches cycles) := by
  induction cycles with
  | zero => exact .ofShape shape
  | succ cycles ih =>
      have htallied := tallied_after caches product hvalid cycles
      have hroom := cycles_lt caches product hvalid cycles
      have hcycles := htallied.cycles
      rw [idleClosings_succ, after, step]
      cases hfinished : ((start shape product).after caches cycles).pipeline.finished with
      | true =>
          rw [tick_of_finished hfinished]
          exact ih
      | false =>
          refine ih.step ?_ ?_ (sound_after caches shape product cycles).diagonal_lt hfinished
            (by omega) _ _
          · rw [after_shape]
            exact hstages
          · rw [after_shape]
            exact hretirement

/-- In every run of a staged pipeline all diagonals close in cycles that issue nothing. -/
theorem idleClosings_of_staged (hstages : shape.stages = .staged) (cycles : Nat) :
    (start shape product).idleClosings caches cycles =
      ((start shape product).after caches cycles).pipeline.level := by
  have hclosings := congrArg List.length (closings_index caches shape product cycles)
  rw [List.length_map, List.length_range] at hclosings
  rw [← hclosings, closings, List.length_filterMap_eq_countP, idleClosings]
  refine List.countP_congr fun cycle _ => ?_
  have hshape : ((start shape product).after caches cycle).pipeline.shape.stages = .staged := by
    rw [after_shape]
    exact hstages
  rw [tick, Pipeline.closesIdle_of_staged _ _ hshape]

/-- A finished run has issued the batches of all diagonals. -/
theorem issued_of_finished (hvalid : shape.validate = .ok ()) {cycles : Nat}
    (hfinished : ((start shape product).after caches cycles).pipeline.finished = true) :
    ((start shape product).after caches cycles).pipeline.counters.issued =
      ∑ diagonal ∈ Finset.range lastDiagonal,
        shape.batchCount (min diagonal (lastDiagonal - 1 - diagonal) + 1) := by
  have hbatches := (tallied_after caches product hvalid cycles).batches
  obtain ⟨hlast, howed⟩ := (sound_after caches shape product cycles).last hfinished
  have hremaining :
      ((start shape product).after caches cycles).pipeline.cursor.remaining = 0 := by
    rw [← Cursor.length_unissued, (List.append_eq_nil_iff.mp howed).2, List.length_nil]
  have hnone : (Cursor.pairsOf lastDiagonal).length = 0 := rfl
  have hwidth := (Shape.width_of_validate hvalid).1
  have hshape : (start shape product).pipeline.shape = shape := rfl
  rw [after_shape, hshape, hremaining, hlast, Finset.sum_range_succ, hnone,
    Shape.batchCount_zero hwidth, Nat.add_zero, Nat.add_zero] at hbatches
  refine hbatches.trans (Finset.sum_congr rfl fun diagonal hdiagonal => ?_)
  rw [Cursor.length_pairsOf (Finset.mem_range.mp hdiagonal)]

end Run

/-- How the counters of a pipeline relate, the cycles that have passed unfinished, the cycles among
them that closed a diagonal and issued nothing, and the next cycle. -/
structure CountersBalance (pipeline : Pipeline) (busy idle : Nat) (next : PipelineStep) : Prop where
  /-- Every batch that was issued has retired, or is in a register or in the queue. -/
  issued : pipeline.counters.issued =
    pipeline.counters.retired + pipeline.occupied + pipeline.queue.length
  /-- The diagonals before the current one are closed, and in the end all. -/
  closed : pipeline.counters.closed =
    if pipeline.finished then diagonalCount else pipeline.cursor.diagonal
  /-- The cycles count that found the pipeline unfinished. -/
  busy : pipeline.counters.cycles = busy
  /-- Each of them issued a batch, waited, or closed a diagonal and issued nothing. -/
  cycles : pipeline.counters.cycles = pipeline.counters.issued + pipeline.counters.drained + idle
  /-- In a staged pipeline no cycle that issues a batch closes a diagonal. -/
  staged : pipeline.shape.stages = .staged →
    pipeline.counters.cycles =
      pipeline.counters.issued + pipeline.counters.drained + pipeline.counters.closed
  /-- In a combinational pipeline that folds partial sums in at once no cycle waits, and only the
  last issues nothing. -/
  prompt : pipeline.shape.stages = .combinational → pipeline.shape.retirement = .immediate →
    pipeline.counters.drained = 0 ∧
      pipeline.counters.cycles =
        pipeline.counters.issued + if pipeline.finished then 1 else 0
  /-- When a diagonal closes, every batch that was issued has retired. -/
  closing : next.closed.isSome → next.pipeline.counters.issued = next.pipeline.counters.retired
  /-- In the end the batches of all diagonals were issued. -/
  finished : pipeline.finished = true →
    pipeline.counters.issued = ∑ diagonal ∈ Finset.range lastDiagonal,
      pipeline.shape.batchCount (min diagonal (lastDiagonal - 1 - diagonal) + 1)
  /-- No counter gets to its limit. -/
  unsaturated : pipeline.counters.cycles < Counters.wordLimit ∧
    pipeline.counters.issued < Counters.wordLimit ∧
    pipeline.counters.retired < Counters.wordLimit ∧
    pipeline.counters.closed < Counters.closedLimit ∧
    pipeline.counters.drained < Counters.wordLimit ∧
    pipeline.counters.peakQueue < byteLimit

/-- In every run of a valid shape, whatever stood in the product and however the factors change, the
counters account for each cycle and each batch, and none of them is ever full. -/
theorem counters_balance {shape : Shape} (hvalid : shape.validate = .ok ())
    (caches : Nat → Operands) (product : Product) (cycles : Nat) :
    CountersBalance ((start shape product).after caches cycles).pipeline
      ((start shape product).busyCycles caches cycles)
      ((start shape product).idleClosings caches cycles)
      (((start shape product).after caches cycles).tick (caches (cycles + 1))) := by
  obtain ⟨hissued, hclosed, hcycles, -⟩ := tallied_after caches product hvalid cycles
  have hshape : ((start shape product).after caches cycles).pipeline.shape = shape := by
    rw [after_shape]
    rfl
  have hroom := cycles_lt caches product hvalid cycles
  have hlevel : ((start shape product).after caches cycles).pipeline.counters.closed ≤
      diagonalCount := by
    rw [hclosed, Pipeline.level]
    have hdiagonal := (sound_after caches shape product cycles).diagonal_lt
    split <;> omega
  constructor
  case issued => rw [hissued, Pipeline.length_inFlight, Nat.add_assoc]
  case closed => exact hclosed
  case busy => rw [cycles_after caches product hvalid, busyCycles_eq caches product hvalid]
  case cycles => exact hcycles
  case staged =>
    intro hstages
    rw [hshape] at hstages
    rw [hcycles, idleClosings_of_staged caches product hstages, hclosed]
  case prompt =>
    intro hstages hretirement
    rw [hshape] at hstages hretirement
    have hprompt := prompt_after caches product hvalid hstages hretirement cycles
    refine ⟨hprompt.drained, ?_⟩
    rw [hcycles, hprompt.drained, hprompt.idle, Nat.add_zero]
  case closing =>
    intro hsome
    have hnext := (tallied_after caches product hvalid (cycles + 1)).issued
    rw [after, step] at hnext
    rw [hnext, tick, Pipeline.inFlight_of_closed _ hsome, List.length_nil, Nat.add_zero]
  case finished =>
    intro hfinished
    rw [hshape]
    exact issued_of_finished caches product hvalid hfinished
  case unsaturated =>
    have hcapacity : retireQueueCapacity < byteLimit := by decide
    have hdiagonals : diagonalCount < Counters.closedLimit := by decide
    have hpeak := peakQueue_le caches shape product cycles
    exact ⟨hroom, by omega, by omega, by omega, by omega, by omega⟩

/-- A finished run of the single-cycle profile has waited in no cycle. -/
theorem counters_balance_singleCycle :
    Profile.singleCycle.shape.validate = .ok () ∧
      ((start Profile.singleCycle.shape Product.zero).after
        (fun _ => ⟨Vector.replicate operandLimbs 3, Vector.replicate operandLimbs 5⟩)
        diagonalCount).pipeline.counters.cycles =
      ((start Profile.singleCycle.shape Product.zero).after
        (fun _ => ⟨Vector.replicate operandLimbs 3, Vector.replicate operandLimbs 5⟩)
        diagonalCount).pipeline.counters.issued + 1 := by
  have hvalid : Profile.singleCycle.shape.validate = .ok () := rfl
  refine ⟨hvalid, ?_⟩
  rw [((counters_balance hvalid _ _ _).prompt (by rw [after_shape]; rfl)
    (by rw [after_shape]; rfl)).2, if_pos (by decide +kernel)]

end Engine

end WideMultiplier
