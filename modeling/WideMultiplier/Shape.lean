import WideMultiplier.Cursor

/-!
# Pipeline shapes

How the four stages of the multiplier map onto clock cycles, how many products it forms in a cycle,
and how long a partial sum waits before it is folded into the running sum. The waiting time stands
for a tree of carry-save adders, whose depth grows with the number of products in a batch.
-/

namespace WideMultiplier

/-- The deepest adder tree that is modelled. -/
abbrev maxDelay : Nat := 4

/-- How stages map onto cycles: all four in one cycle, or one stage a cycle. -/
inductive StageModel where
  | combinational
  | staged
deriving DecidableEq

/-- When a partial sum is folded into the running sum: at once, or after the delay of an adder tree
whose depth is capped. -/
inductive Retirement where
  | immediate
  | delayed (cap : Nat)
deriving DecidableEq

/-- The depth of the adder tree for a batch: the base-two logarithm of its size, rounded up, less
one, and between zero and `maxDelay`. -/
def treeDepth (count : Nat) : Nat :=
  if count ≤ 2 then 0 else min (count - 1).log2 maxDelay

/-- The cycles that a partial sum of `count` products waits. -/
def Retirement.delay : Retirement → Nat → Nat
  | .immediate, _ => 0
  | .delayed cap, count => min (treeDepth count) cap

/-- The shape of a pipeline. -/
structure Shape where
  width : Nat
  stages : StageModel
  retirement : Retirement
deriving DecidableEq

/-- Checks that a shape can be built: the batch width first, then the cap of the delay. -/
def Shape.validate (shape : Shape) : Except Fault Unit :=
  if shape.width = 0 ∨ maxBatchWidth < shape.width then .error (.batchWidth shape.width)
  else
    match shape.retirement with
    | .immediate => .ok ()
    | .delayed cap => if maxDelay < cap then .error (.delayCap cap) else .ok ()

end WideMultiplier
