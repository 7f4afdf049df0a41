import WideMultiplier.Multiplier.State

/-!
# Multiply runs

A run is issued, started by the first `Multiplier.advance` after that, and then advanced one clock
cycle at a time until the last diagonal closes. `Multiplier.run` advances until the multiply phase
is done; `advanceBudget` is more than any run takes.
-/

namespace WideMultiplier

/-- What one advance of the host's clock did. -/
inductive Outcome where
  /-- The multiply phase was done already. -/
  | idle
  /-- A run that was issued began. -/
  | started
  /-- One cycle of the pipeline, and the diagonal that closed in it. -/
  | cycle (closed : Option ClosedDiagonal)
  /-- The last diagonal closed, after this many cycles. -/
  | completed (cycles : Nat)
deriving DecidableEq

/-- The result of one advance. -/
structure Advanced where
  multiplier : Multiplier
  outcome : Outcome
  events : List Event

/-- The result of advancing until the multiply phase is done: the number of advances made. -/
structure Ran where
  multiplier : Multiplier
  advances : Nat

namespace Multiplier

/-- Begins a run on the factors that are loaded, with an empty product. -/
def start (multiplier : Multiplier) : Multiplier :=
  { multiplier with
    pipeline := multiplier.pipeline.clear
    product := Product.zero
    flags := { multiplier.flags with multiplyDone := false, writeDone := true }
    progress := .running }

/-- Issues a run and sets the address that its product is written back to. The run begins with the
next advance. -/
def issue (multiplier : Multiplier) (base : UInt64) : Multiplier :=
  { multiplier with
    transfer := { multiplier.transfer with baseProduct := base, writeOffset := 0 }
    pipeline := multiplier.pipeline.clear
    flags := { multiplier.flags with multiplyDone := false, writeDone := true }
    progress := .notStarted }

/-- Marks the product as complete and not yet written back. -/
def complete (multiplier : Multiplier) : Multiplier :=
  { multiplier with
    flags := { multiplier.flags with multiplyDone := true, writeDone := false }
    progress := .notStarted
    transfer := { multiplier.transfer with writeOffset := 0 } }

/-- One advance of the host's clock. -/
def advance (multiplier : Multiplier) : Advanced :=
  if multiplier.flags.multiplyDone then ⟨multiplier, .idle, []⟩
  else if !multiplier.progress.isRunning then
    ⟨multiplier.start, .started, multiplier.traced [.runStarted]⟩
  else
    let step := multiplier.pipeline.step multiplier.operands multiplier.product
    let moved := { multiplier with pipeline := step.pipeline, product := step.product }
    if step.pipeline.finished then
      let cycles := step.pipeline.counters.cycles
      ⟨moved.complete, .completed cycles,
        multiplier.traced (step.events ++ [.multiplyCompleted cycles])⟩
    else
      ⟨moved, .cycle step.closed, multiplier.traced step.events⟩

/-- Advances until the multiply phase is done, but at most as often as the budget allows. -/
def runWithin : Nat → Multiplier → Ran
  | 0, multiplier => ⟨multiplier, 0⟩
  | budget + 1, multiplier =>
    if multiplier.flags.multiplyDone then ⟨multiplier, 0⟩
    else
      let ran := runWithin budget multiplier.advance.multiplier
      { ran with advances := ran.advances + 1 }

/-- More advances than any run takes: one to start, and for each diagonal fewer cycles than its
pairs, the stages and the longest delay together. -/
abbrev advanceBudget : Nat := 2 + diagonalCount * (operandLimbs + 8)

/-- Advances until the multiply phase is done. -/
def run (multiplier : Multiplier) : Ran :=
  runWithin advanceBudget multiplier

end Multiplier

end WideMultiplier
