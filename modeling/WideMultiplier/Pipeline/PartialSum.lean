import WideMultiplier.Cursor
import WideMultiplier.Wide

/-!
# Partial sums

What a batch of index pairs becomes on its way through the pipeline: first the pairs of limbs that
the indices name, then the sum of their products.
-/

namespace WideMultiplier

/-- The pairs of limbs that a batch names. -/
structure FetchedBatch where
  diagonal : Nat
  limbs : List (Limb × Limb)
deriving DecidableEq

/-- The sum of the products of a batch, with their number. -/
structure PartialSum where
  diagonal : Nat
  products : Nat
  value : Wide
deriving DecidableEq

namespace FetchedBatch

/-- Reads the limbs that a batch names. -/
def fetch (operands : Operands) (batch : Batch) : FetchedBatch :=
  ⟨batch.diagonal, batch.pairs.map fun pair => operands.pairAt pair.i pair.j⟩

/-- Multiplies each pair of limbs and adds the products. -/
def multiply (batch : FetchedBatch) : PartialSum :=
  { diagonal := batch.diagonal
    products := batch.limbs.length
    value := batch.limbs.foldl (fun sum (a, b) => sum.addDouble (Limb.product a b)) Wide.zero }

end FetchedBatch

end WideMultiplier
