import WideMultiplier.Counters
import WideMultiplier.Event
import WideMultiplier.Pipeline.RetireQueue
import WideMultiplier.Shape

/-!
# The multiply pipeline

One `Pipeline.step` is one clock cycle. A batch passes four stages: its index pairs are issued,
their limbs are fetched, multiplied and added, and the partial sum is folded into the running sum.
In a staged pipeline each stage works on what the stage before it left in its register in the cycle
before; in a combinational one a batch passes all four in the same cycle. Before it is folded in, a
partial sum may wait in the retirement queue. When all pairs of a diagonal are issued and nothing is
in flight, the diagonal closes: the lowest limb of the running sum is the next limb of the product,
and the rest is the carry into the next diagonal.
-/

namespace WideMultiplier

/-- The limb of the product that a closing diagonal gave. -/
structure ClosedDiagonal where
  index : Nat
  limb : Limb
deriving DecidableEq

/-- The registers of the pipeline. -/
structure Pipeline where
  shape : Shape
  cursor : Cursor
  /-- The batch that was issued last. -/
  issued : Option Batch
  /-- The batch whose limbs were fetched last. -/
  fetched : Option FetchedBatch
  /-- The partial sum that was computed last. -/
  summed : Option PartialSum
  queue : RetireQueue
  accumulator : Wide
  counters : Counters
  finished : Bool
deriving DecidableEq

/-- The result of one cycle: the pipeline and the product after it, the diagonal that closed, and
what happened in order. -/
structure PipelineStep where
  pipeline : Pipeline
  product : Product
  closed : Option ClosedDiagonal
  events : List Event

namespace Pipeline

/-- An empty pipeline at diagonal 0. -/
def ofShape (shape : Shape) : Pipeline :=
  { shape
    cursor := Cursor.startOf 0
    issued := none
    fetched := none
    summed := none
    queue := []
    accumulator := Wide.zero
    counters := Counters.zero
    finished := false }

/-- Empties the pipeline and goes back to diagonal 0. -/
def clear (pipeline : Pipeline) : Pipeline :=
  ofShape pipeline.shape

/-- Whether no register and no queue slot holds work. -/
def drained (pipeline : Pipeline) : Bool :=
  pipeline.issued.isNone && pipeline.fetched.isNone && pipeline.summed.isNone &&
    pipeline.queue.isEmpty

/-- Issues the next batch of the current diagonal, if there is one. -/
def issue (pipeline : Pipeline) : Pipeline × List Event :=
  match pipeline.cursor.nextBatch pipeline.shape.width with
  | none => ({ pipeline with issued := none }, [])
  | some (batch, cursor) =>
    ({ pipeline with
        cursor
        issued := some batch
        counters := pipeline.counters.countIssue },
      [.batchIssued batch.diagonal batch.pairs.length])

/-- Moves the partial sum that was computed last into the retirement queue. -/
def enqueue (pipeline : Pipeline) : Pipeline :=
  match pipeline.summed with
  | none => pipeline
  | some sum =>
    let queue := pipeline.queue.push sum (pipeline.shape.retirement.delay sum.products)
    { pipeline with
      summed := none
      queue
      counters := pipeline.counters.observeQueue queue.length }

/-- Folds a partial sum into the running sum. -/
def retire (pipeline : Pipeline) (sum : PartialSum) : Pipeline :=
  { pipeline with
    accumulator := pipeline.accumulator.add sum.value
    counters := pipeline.counters.countRetirement }

/-- Lets the retirement queue tick: every partial sum whose wait is over is folded in. -/
def tick (pipeline : Pipeline) : Pipeline × List Event :=
  let ready := pipeline.queue.ready
  (ready.foldl retire { pipeline with queue := pipeline.queue.waiting },
    ready.map fun sum => .batchRetired sum.diagonal sum.products)

/-- The accumulate stage. -/
def accumulate (pipeline : Pipeline) : Pipeline × List Event :=
  pipeline.enqueue.tick

/-- One cycle of a staged pipeline: the last stage works first, so that each stage sees what the
stage before it left in the cycle before. -/
def shiftStaged (operands : Operands) (pipeline : Pipeline) : Pipeline × List Event :=
  let (retired, retirements) := pipeline.accumulate
  let (moved, issues) := issue { retired with
    summed := retired.fetched.map FetchedBatch.multiply
    fetched := retired.issued.map (FetchedBatch.fetch operands) }
  (moved, retirements ++ issues)

/-- One cycle of a combinational pipeline: the batch that is issued passes all stages. -/
def shiftCombinational (operands : Operands) (pipeline : Pipeline) : Pipeline × List Event :=
  let (begun, issues) := pipeline.issue
  let (moved, retirements) := accumulate { begun with
    issued := none
    fetched := none
    summed := begun.issued.map fun batch => (FetchedBatch.fetch operands batch).multiply }
  (moved, issues ++ retirements)

/-- Moves every batch in flight by one cycle. -/
def shift (operands : Operands) (pipeline : Pipeline) : Pipeline × List Event :=
  match pipeline.shape.stages with
  | .staged => pipeline.shiftStaged operands
  | .combinational => pipeline.shiftCombinational operands

/-- Closes the current diagonal: stores its limb and moves on. Behind the last diagonal the pipeline
is finished. -/
def close (product : Product) (pipeline : Pipeline) : PipelineStep :=
  let index := pipeline.cursor.diagonal
  let (limb, carry) := pipeline.accumulator.emit
  let closed := { pipeline with
    accumulator := carry
    counters := pipeline.counters.countClosing }
  { pipeline :=
      match closed.cursor.advance with
      | some cursor => { closed with cursor }
      | none => { closed with finished := true }
    product := product.put index limb
    closed := some ⟨index, limb⟩
    events := [.diagonalClosed index limb] }

/-- One clock cycle. A finished pipeline does nothing. -/
def step (operands : Operands) (product : Product) (pipeline : Pipeline) : PipelineStep :=
  if pipeline.finished then ⟨pipeline, product, none, []⟩
  else
    let (moved, events) :=
      shift operands { pipeline with counters := pipeline.counters.countCycle }
    if moved.cursor.exhausted && moved.drained then
      let closing := moved.close product
      { closing with events := events ++ closing.events }
    else if moved.counters.issued = pipeline.counters.issued then
      ⟨{ moved with counters := moved.counters.countDrain }, product, none, events⟩
    else
      ⟨moved, product, none, events⟩

end Pipeline

end WideMultiplier
