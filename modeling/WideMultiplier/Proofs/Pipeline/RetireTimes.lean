import WideMultiplier.Proofs.Pipeline.Retirement

/-!
# When partial sums retire

A partial sum that is pushed in a cycle retires as many cycles later as its delay says, whatever is
pushed before and after it. `Retirement.entryAt` is what there is of it in the queue until then.
`RetireQueue.ready_entries` and `RetireQueue.waiting_entries` say what a tick does to such entries,
and `Pipeline.accumulate_of_entries` what an accumulate cycle does. `Pipeline.retires_on_time`
gathers this for every sequence of accumulate cycles (`Pipeline.fed`), and `Engine.queue_after`
finds such a sequence in every run.
-/

namespace WideMultiplier

namespace Retirement

variable (retirement : Retirement) (offers : Nat → Option PartialSum)

/-- The cycle in which a partial sum retires that is pushed in a given cycle. -/
def dueCycle (pushed : Nat) (sum : PartialSum) : Nat :=
  pushed + retirement.delay sum.products

/-- What the queue holds, at a time before a tick, of the partial sum that was pushed in a cycle. -/
def entryAt (now pushed : Nat) : Option InFlight :=
  (offers pushed).bind fun sum =>
    if now ≤ retirement.dueCycle pushed sum then
      some ⟨sum, retirement.dueCycle pushed sum - now⟩
    else none

/-- Whether a partial sum was pushed in a cycle and retires now. -/
def retiresNow (now pushed : Nat) : Bool :=
  (offers pushed).any fun sum => retirement.dueCycle pushed sum == now

/-- The cycles in which the partial sums were pushed that retire now, in order. -/
def retiringCycles (now : Nat) : List Nat :=
  (List.range (now + 1)).filter (retirement.retiresNow offers now)

/-- The partial sums that retire now, in the order in which they were pushed. -/
def retiring (now : Nat) : List PartialSum :=
  (retirement.retiringCycles offers now).filterMap offers

/-- The partial sums that were pushed in the first cycles and have not retired by then, in the order
in which they were pushed, each with the cycles that it still has to wait. -/
def awaiting (cycles : Nat) : RetireQueue :=
  (List.range cycles).filterMap (retirement.entryAt offers cycles)

variable {retirement offers}

/-- A partial sum that is pushed in a cycle retires in one cycle, and as one. -/
theorem count_retiringCycles {pushed : Nat} {sum : PartialSum} (h : offers pushed = some sum)
    (now : Nat) :
    (retirement.retiringCycles offers now).count pushed =
      if now = retirement.dueCycle pushed sum then 1 else 0 := by
  have hretires : retirement.retiresNow offers now pushed =
      decide (now = retirement.dueCycle pushed sum) := by
    rw [retiresNow, h, Option.any_some, Bool.beq_eq_decide_eq]
    exact decide_eq_decide.mpr eq_comm
  by_cases hdue : now = retirement.dueCycle pushed sum
  · rw [if_pos hdue, retiringCycles, List.count_filter (by rw [hretires, decide_eq_true hdue])]
    refine List.count_eq_one_of_mem List.nodup_range (List.mem_range.mpr ?_)
    rw [hdue, dueCycle]
    omega
  · rw [if_neg hdue, retiringCycles, List.count_eq_zero]
    intro hmem
    rw [List.mem_filter, hretires, decide_eq_true_eq] at hmem
    exact hdue hmem.2

/-- What retires together is in the order in which it was pushed. -/
theorem pairwise_retiringCycles (now : Nat) :
    (retirement.retiringCycles offers now).Pairwise (· < ·) :=
  List.pairwise_lt_range.filter _

end Retirement

namespace RetireQueue

variable {retirement : Retirement} {offers : Nat → Option PartialSum}

/-- A tick lets go of the partial sums that are due. -/
theorem ready_entries (now : Nat) (cycles : List Nat) :
    ready (cycles.filterMap (retirement.entryAt offers now)) =
      (cycles.filter (retirement.retiresNow offers now)).filterMap offers := by
  induction cycles with
  | nil => rfl
  | cons pushed rest ih =>
      rw [List.filterMap_cons, List.filter_cons, Retirement.entryAt, Retirement.retiresNow]
      cases hoffer : offers pushed with
      | none => simpa using ih
      | some sum =>
          rw [Option.bind_some, Option.any_some]
          rcases Nat.lt_trichotomy (retirement.dueCycle pushed sum) now with hpast | hnow | hlater
          · rw [if_neg (Nat.not_le.mpr hpast), if_neg (by simpa using Nat.ne_of_lt hpast)]
            exact ih
          · rw [if_pos (Nat.le_of_eq hnow.symm), if_pos (by simpa using hnow),
              List.filterMap_cons_some hoffer, ← ih]
            simp [ready, hnow]
          · rw [if_pos (Nat.le_of_lt hlater), if_neg (by simpa using Nat.ne_of_gt hlater), ← ih]
            have hwaits : retirement.dueCycle pushed sum - now ≠ 0 := by omega
            simp [ready, hwaits]

/-- A tick keeps the partial sums that are due later, one cycle closer to their end. -/
theorem waiting_entries (now : Nat) (cycles : List Nat) :
    waiting (cycles.filterMap (retirement.entryAt offers now)) =
      cycles.filterMap (retirement.entryAt offers (now + 1)) := by
  induction cycles with
  | nil => rfl
  | cons pushed rest ih =>
      rw [List.filterMap_cons, List.filterMap_cons, Retirement.entryAt, Retirement.entryAt]
      cases hoffer : offers pushed with
      | none => simpa using ih
      | some sum =>
          rw [Option.bind_some, Option.bind_some]
          rcases Nat.lt_trichotomy (retirement.dueCycle pushed sum) now with hpast | hnow | hlater
          · rw [if_neg (Nat.not_le.mpr hpast), if_neg (by omega)]
            exact ih
          · rw [if_pos (Nat.le_of_eq hnow.symm), if_neg (by omega)]
            simpa [waiting_cons, hnow] using ih
          · rw [if_pos (Nat.le_of_lt hlater), if_pos (by omega)]
            simp only [waiting_cons, ih]
            rw [if_neg (by omega), Nat.sub_sub]

/-- The entries behind an entry and the cycles that it waits are together fewer than the limit. -/
theorem DueWithin.remaining_add_length_lt {limit : Nat} {front behind : RetireQueue}
    {entry : InFlight} (h : DueWithin limit (front ++ entry :: behind)) :
    entry.remaining + behind.length < limit := by
  induction front with
  | nil => exact h.1
  | cons first rest ih => exact ih h.2

end RetireQueue

namespace Pipeline

variable {retirement : Retirement} {offers : Nat → Option PartialSum} {pipeline : Pipeline}
  {cycle : Nat}

/-! ## One accumulate cycle -/

/-- The partial sum that is pushed stands behind those that were pushed before. -/
theorem enqueue_of_entries (hretirement : pipeline.shape.retirement = retirement)
    (hqueue : pipeline.queue = retirement.awaiting offers cycle)
    (hsummed : pipeline.summed = offers cycle) :
    pipeline.enqueue.queue =
      (List.range (cycle + 1)).filterMap (retirement.entryAt offers cycle) := by
  have hlast : [cycle].filterMap (retirement.entryAt offers cycle) =
      (offers cycle).toList.map fun sum => ⟨sum, retirement.delay sum.products⟩ := by
    cases hoffer : offers cycle <;>
      simp [Retirement.entryAt, Retirement.dueCycle, hoffer]
  rw [List.range_succ, List.filterMap_append, hlast, ← Retirement.awaiting, ← hqueue, ← hsummed]
  unfold enqueue
  split
  · next hnone => simp [hnone]
  · next sum hsum => simp [hsum, RetireQueue.push, hretirement]

/-- After the push, the partial sums whose wait is over are those that retire now. -/
theorem ready_of_entries (hretirement : pipeline.shape.retirement = retirement)
    (hqueue : pipeline.queue = retirement.awaiting offers cycle)
    (hsummed : pipeline.summed = offers cycle) :
    pipeline.enqueue.queue.ready = retirement.retiring offers cycle := by
  rw [enqueue_of_entries hretirement hqueue hsummed, RetireQueue.ready_entries]
  rfl

/-- An accumulate cycle folds the partial sums in that retire now, and the others wait on. -/
theorem accumulate_of_entries (hretirement : pipeline.shape.retirement = retirement)
    (hqueue : pipeline.queue = retirement.awaiting offers cycle)
    (hsummed : pipeline.summed = offers cycle) :
    pipeline.accumulate =
      ((retirement.retiring offers cycle).foldl retire
          { pipeline.enqueue with queue := retirement.awaiting offers (cycle + 1) },
        (retirement.retiring offers cycle).map fun sum =>
          .batchRetired sum.diagonal sum.products) := by
  have hwaiting : pipeline.enqueue.queue.waiting = retirement.awaiting offers (cycle + 1) := by
    rw [enqueue_of_entries hretirement hqueue hsummed, RetireQueue.waiting_entries]
    rfl
  rw [accumulate, tick, ready_of_entries hretirement hqueue hsummed, hwaiting]

/-- An accumulate cycle leaves the partial sums in the queue that do not retire by its end. -/
theorem accumulate_queue_of_entries (hretirement : pipeline.shape.retirement = retirement)
    (hqueue : pipeline.queue = retirement.awaiting offers cycle)
    (hsummed : pipeline.summed = offers cycle) :
    pipeline.accumulate.1.queue = retirement.awaiting offers (cycle + 1) := by
  rw [accumulate_queue, enqueue_of_entries hretirement hqueue hsummed,
    RetireQueue.waiting_entries]
  rfl

/-- The most partial sums that were seen in the queue are those before the cycle or after its
push. -/
theorem accumulate_peakQueue (pipeline : Pipeline) :
    pipeline.accumulate.1.counters.peakQueue ≤
      max pipeline.counters.peakQueue pipeline.enqueue.queue.length := by
  obtain ⟨depth, hdepth, hcounters⟩ := pipeline.accumulate_counters
  rw [hcounters]
  exact max_le_max_left _ hdepth

/-! ## Sequences of accumulate cycles -/

/-- The pipeline with what the stage before left in the register. -/
def offered (pipeline : Pipeline) (offer : Option PartialSum) : Pipeline :=
  { pipeline with summed := offer }

/-- An empty pipeline after some accumulate cycles. In cycle `n`, counted from 0, the partial sum
`offers n` is pushed, if there is one. -/
def fed (shape : Shape) (offers : Nat → Option PartialSum) : Nat → Pipeline
  | 0 => ofShape shape
  | cycles + 1 => ((fed shape offers cycles).offered (offers cycles)).accumulate.1

section Fed

variable (shape : Shape) (offers : Nat → Option PartialSum) (cycles : Nat)

theorem fed_shape : (fed shape offers cycles).shape = shape := by
  induction cycles with
  | zero => rfl
  | succ cycles ih => rwa [fed, accumulate_shape]

/-- Between two cycles the queue holds what was pushed and has not retired. -/
theorem fed_queue : (fed shape offers cycles).queue = shape.retirement.awaiting offers cycles := by
  induction cycles with
  | zero => rfl
  | succ cycles ih =>
      have hretirement : ((fed shape offers cycles).offered (offers cycles)).shape.retirement =
          shape.retirement := congrArg Shape.retirement (fed_shape shape offers cycles)
      exact accumulate_queue_of_entries hretirement ih rfl

/-- Between two cycles each partial sum in the queue is due within the longest delay. -/
theorem fed_dueWithin : (fed shape offers cycles).queue.DueWithin shape.retirement.limit := by
  induction cycles with
  | zero => trivial
  | succ cycles ih =>
      have hshape : ((fed shape offers cycles).offered (offers cycles)).shape = shape :=
        fed_shape shape offers cycles
      have hbefore : ((fed shape offers cycles).offered (offers cycles)).queue.DueWithin
          ((fed shape offers cycles).offered (offers cycles)).shape.retirement.limit := by
        rw [hshape]
        exact ih
      have hpushed := dueWithin_enqueue hbefore
      rw [hshape] at hpushed
      rw [fed, accumulate_queue]
      exact hpushed.waiting

/-- Right after a push the queue holds at most one partial sum more than the longest delay. -/
theorem length_pushed_le :
    ((fed shape offers cycles).offered (offers cycles)).enqueue.queue.length ≤
      shape.retirement.limit + 1 :=
  (length_enqueue_le _).trans (Nat.succ_le_succ (fed_dueWithin shape offers cycles).length_le)

/-- The queue was never seen fuller than that. -/
theorem fed_peakQueue_le :
    (fed shape offers cycles).counters.peakQueue ≤ shape.retirement.limit + 1 := by
  induction cycles with
  | zero => exact Nat.zero_le _
  | succ cycles ih =>
      exact (accumulate_peakQueue _).trans
        (Nat.max_le.mpr ⟨ih, length_pushed_le shape offers cycles⟩)

end Fed

/-- Partial sums retire on time, whatever is pushed in whatever cycles. A cycle folds in those whose
wait is over, in the order in which they were pushed, and keeps the others as they are; each push
retires once, its delay later. The queue is never fuller than the longest delay and one, which
leaves slots free, and an entry with others behind it waits so much less. -/
theorem retires_on_time (shape : Shape) (offers : Nat → Option PartialSum) (cycle : Nat) :
    let before := (fed shape offers cycle).offered (offers cycle)
    before.accumulate =
        ((shape.retirement.retiring offers cycle).foldl retire
            { before.enqueue with queue := shape.retirement.awaiting offers (cycle + 1) },
          (shape.retirement.retiring offers cycle).map fun sum =>
            .batchRetired sum.diagonal sum.products) ∧
      (∀ pushed sum, offers pushed = some sum → ∀ now,
        (shape.retirement.retiringCycles offers now).count pushed =
          if now = pushed + shape.retirement.delay sum.products then 1 else 0) ∧
      (shape.retirement.retiringCycles offers cycle).Pairwise (· < ·) ∧
      (fed shape offers cycle).queue = shape.retirement.awaiting offers cycle ∧
      before.enqueue.queue.length ≤ shape.retirement.limit + 1 ∧
      before.enqueue.queue.length ≤ retireQueueCapacity ∧
      (fed shape offers cycle).counters.peakQueue ≤ shape.retirement.limit + 1 ∧
      ∀ front entry behind, (fed shape offers cycle).queue = front ++ entry :: behind →
        entry.remaining + behind.length + 1 ≤ shape.retirement.limit := by
  have hpushed := length_pushed_le shape offers cycle
  have hlimit := shape.retirement.limit_le
  have hretirement : ((fed shape offers cycle).offered (offers cycle)).shape.retirement =
      shape.retirement := congrArg Shape.retirement (fed_shape shape offers cycle)
  refine ⟨accumulate_of_entries hretirement (fed_queue shape offers cycle) rfl, ?_,
    Retirement.pairwise_retiringCycles cycle, fed_queue shape offers cycle, hpushed,
    hpushed.trans (Nat.succ_le_succ hlimit |>.trans (by decide)),
    fed_peakQueue_le shape offers cycle, ?_⟩
  · intro pushed sum hoffer now
    exact Retirement.count_retiringCycles hoffer now
  · intro front entry behind hsplit
    have hdue := fed_dueWithin shape offers cycle
    rw [hsplit] at hdue
    exact hdue.remaining_add_length_lt

end Pipeline

namespace Engine

/-- The partial sum that reaches the queue of a run in a cycle, counted from 0. -/
def offers (caches : Nat → Operands) (engine : Engine) (cycle : Nat) : Option PartialSum :=
  ((engine.after caches cycle).pipeline.accumulating (caches (cycle + 1))).summed

/-- As long as a run is not finished, its queue holds what reached it and has not retired. -/
theorem queue_after (caches : Nat → Operands) (shape : Shape) (product : Product) {cycles : Nat}
    (hopen : ∀ cycle < cycles,
      ((start shape product).after caches cycle).pipeline.finished = false) :
    ((start shape product).after caches cycles).pipeline.queue =
      shape.retirement.awaiting ((start shape product).offers caches) cycles := by
  induction cycles with
  | zero => rfl
  | succ cycles ih =>
      have hbefore := ih fun cycle hcycle => hopen cycle (Nat.lt_succ_of_lt hcycle)
      have hmoved : (((start shape product).after caches cycles).pipeline.moved
            (caches (cycles + 1))).queue =
          shape.retirement.awaiting ((start shape product).offers caches) (cycles + 1) := by
        rw [Pipeline.moved_queue, ← Pipeline.accumulate_queue]
        refine Pipeline.accumulate_queue_of_entries ?_ ?_ rfl
        · rw [Pipeline.accumulating_shape, after_shape]
          rfl
        · rw [Pipeline.accumulating_queue, hbefore]
      rw [← hmoved]
      -- a diagonal that closes leaves the queue alone
      obtain ⟨-, -, hpipeline, -, -⟩ | ⟨-, ⟨counters, hpipeline⟩, -, -⟩ :=
        Pipeline.step_cases (caches (cycles + 1))
          ((start shape product).after caches cycles).product
          (hopen cycles (Nat.lt_succ_self cycles))
      · rw [after, step, tick, hpipeline, Pipeline.close_queue]
      · rw [after, step, tick, hpipeline]

end Engine

end WideMultiplier
