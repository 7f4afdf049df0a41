import WideMultiplier.Limb

/-!
# Events

What a traced multiplier reports, in the order in which it happens.
-/

namespace WideMultiplier

/-- Something that happened in a cycle. -/
inductive Event where
  /-- A run began at diagonal 0. -/
  | runStarted
  /-- A batch was issued. -/
  | batchIssued (diagonal products : Nat)
  /-- A partial sum was folded into the running sum. -/
  | batchRetired (diagonal products : Nat)
  /-- A diagonal closed and its limb was stored. -/
  | diagonalClosed (diagonal : Nat) (limb : Limb)
  /-- The last limb was stored. -/
  | multiplyCompleted (cycles : Nat)
  /-- One limb of each factor was copied in from memory. -/
  | limbLoaded (index : Nat)
  /-- One limb of the product was written to memory. -/
  | limbWritten (index : Nat) (address : UInt64)
deriving DecidableEq

end WideMultiplier
