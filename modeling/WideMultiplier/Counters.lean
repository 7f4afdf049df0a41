/-!
# Activity counters

What a pipeline counts while it runs. A counter stops at the largest value of its register, 32 bits
for most of them and 16 bits for the closed diagonals, instead of starting over.
-/

namespace WideMultiplier

/-- A count with an amount added to it, but never above a limit. -/
def countUpTo (limit count amount : Nat) : Nat :=
  min (count + amount) limit

/-- The activity of a pipeline since the run began. -/
structure Counters where
  /-- Clock cycles that did something. -/
  cycles : Nat
  /-- Batches issued. -/
  issued : Nat
  /-- Batches folded into the running sum. -/
  retired : Nat
  /-- Diagonals closed. -/
  closed : Nat
  /-- Cycles that issued nothing and closed nothing. -/
  drained : Nat
  /-- The most partial sums that were waiting at one time. -/
  peakQueue : Nat
deriving DecidableEq

namespace Counters

/-- The largest value of a 32-bit counter. -/
abbrev wordLimit : Nat := UInt32.size - 1

/-- The largest value of the 16-bit counter of closed diagonals. -/
abbrev closedLimit : Nat := UInt16.size - 1

/-- Nothing counted. -/
def zero : Counters :=
  ⟨0, 0, 0, 0, 0, 0⟩

/-- Counts clock cycles, one unless told otherwise. -/
def countCycle (counters : Counters) (amount : Nat := 1) : Counters :=
  { counters with cycles := countUpTo wordLimit counters.cycles amount }

/-- Counts batches issued. -/
def countIssue (counters : Counters) (amount : Nat := 1) : Counters :=
  { counters with issued := countUpTo wordLimit counters.issued amount }

/-- Counts batches folded into the running sum. -/
def countRetirement (counters : Counters) (amount : Nat := 1) : Counters :=
  { counters with retired := countUpTo wordLimit counters.retired amount }

/-- Counts diagonals closed. -/
def countClosing (counters : Counters) (amount : Nat := 1) : Counters :=
  { counters with closed := countUpTo closedLimit counters.closed amount }

/-- Counts cycles spent waiting for work in flight. -/
def countDrain (counters : Counters) (amount : Nat := 1) : Counters :=
  { counters with drained := countUpTo wordLimit counters.drained amount }

/-- Observes the number of partial sums that are waiting. -/
def observeQueue (counters : Counters) (depth : Nat) : Counters :=
  { counters with peakQueue := max counters.peakQueue depth }

/-- Whether every batch issued is retired. -/
def balanced (counters : Counters) : Bool :=
  counters.issued == counters.retired

end Counters

end WideMultiplier
