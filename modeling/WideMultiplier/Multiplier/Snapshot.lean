import WideMultiplier.Multiplier.State

/-!
# Snapshots

A snapshot holds what the host can see of a multiplier: its stores, flags, marker, addresses and
offsets, but nothing of the pipeline. It may come from elsewhere, so its images may have any length
and its offsets any value; `Snapshot.validate` checks them in a fixed order. A multiplier that is
restored in the middle of a run begins that run again.
-/

namespace WideMultiplier

/-- The layouts of snapshots. -/
inductive SnapshotVersion where
  | v1
deriving DecidableEq

namespace SnapshotVersion

/-- The number that a version is written as. -/
def number : SnapshotVersion → Nat
  | .v1 => 1

/-- The version with a number. -/
def ofNumber (number : Nat) : Except Fault SnapshotVersion :=
  if number = 1 then .ok .v1 else .error (.snapshotVersion number)

end SnapshotVersion

/-- The factor whose limbs an image holds. -/
def OperandLimbs.ofImage (operand : Operand) (image : Array Limb) : Except Fault OperandLimbs :=
  if h : image.size = operandLimbs then .ok ⟨image, h⟩
  else .error (.layout (.operandLimbs operand operandLimbs image.size))

/-- The product whose limbs an image holds. -/
def Product.ofImage (image : Array Limb) : Except Fault Product :=
  if h : image.size = productLimbs then .ok ⟨image, h⟩
  else .error (.layout (.productLimbs productLimbs image.size))

/-- The visible state of a multiplier. -/
structure Snapshot where
  version : SnapshotVersion
  operandA : Array Limb
  operandB : Array Limb
  product : Array Limb
  flags : Flags
  progress : Progress
  transfer : Transfer
deriving DecidableEq

namespace Snapshot

/-- Checks that the snapshot fits. The images of A, of B and of the product are checked in this
order, and the offsets after them. -/
def validate (snapshot : Snapshot) : Except Fault Unit :=
  if snapshot.operandA.size ≠ operandLimbs then
    .error (.layout (.operandLimbs .a operandLimbs snapshot.operandA.size))
  else if snapshot.operandB.size ≠ operandLimbs then
    .error (.layout (.operandLimbs .b operandLimbs snapshot.operandB.size))
  else if snapshot.product.size ≠ productLimbs then
    .error (.layout (.productLimbs productLimbs snapshot.product.size))
  else
    match snapshot.transfer.validate snapshot.flags with
    | .error fault => .error (.layout fault)
    | .ok () => .ok ()

end Snapshot

namespace Multiplier

/-- The visible state. -/
def snapshot (multiplier : Multiplier) : Snapshot :=
  { version := .v1
    operandA := multiplier.operands.a.toArray
    operandB := multiplier.operands.b.toArray
    product := multiplier.product.toArray
    flags := multiplier.flags
    progress := multiplier.progress
    transfer := multiplier.transfer }

/-- Takes over the state of a snapshot that fits and empties the pipeline. -/
def restore (multiplier : Multiplier) (snapshot : Snapshot) : Except Fault Multiplier := do
  snapshot.validate
  let a ← OperandLimbs.ofImage .a snapshot.operandA
  let b ← OperandLimbs.ofImage .b snapshot.operandB
  let product ← Product.ofImage snapshot.product
  return { multiplier with
    operands := ⟨a, b⟩
    product
    flags := snapshot.flags
    progress := snapshot.progress.resumed
    transfer := snapshot.transfer
    pipeline := multiplier.pipeline.clear }

end Multiplier

end WideMultiplier
