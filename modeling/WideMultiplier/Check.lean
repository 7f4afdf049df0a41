import WideMultiplier.Multiplier.Phases
import WideMultiplier.Schoolbook

/-!
# Checking the multiplier

A check puts two factors into memory, lets a multiplier load them, multiply them and write the
product back, and compares what stands in memory with the schoolbook product.
-/

namespace WideMultiplier

/-- Why a check did not pass. -/
inductive CheckFault where
  | refused (fault : Fault)
  | mismatch (index : Nat) (expected actual : Limb)
deriving DecidableEq

/-- The text of a check fault. -/
def CheckFault.message : CheckFault → String
  | .refused fault => fault.message
  | .mismatch index expected actual =>
    "result limb " ++ toString index ++ " is " ++ Text.limbLiteral actual ++ ", expected " ++
      Text.limbLiteral expected

namespace Multiplier

variable {σ : Type} [LimbBus σ]

/-- Repeats load cycles until the load is done: the number of cycles, and the state after them. The
budget bounds the number of cycles. -/
def loadAll : Nat → Multiplier → σ → Except Fault (Nat × Multiplier × σ)
  | 0, multiplier, bus => .ok (0, multiplier, bus)
  | budget + 1, multiplier, bus =>
    let moved := multiplier.loadCycle bus
    match moved.result with
    | .error fault => .error fault
    | .ok true => .ok (1, moved.multiplier, moved.bus)
    | .ok false =>
      match loadAll budget moved.multiplier moved.bus with
      | .error fault => .error fault
      | .ok (cycles, rest) => .ok (cycles + 1, rest)

/-- Repeats write-back cycles until the write-back is done: the number of cycles, and the state
after them. The budget bounds the number of cycles. -/
def writeBackAll : Nat → Multiplier → σ → Except Fault (Nat × Multiplier × σ)
  | 0, multiplier, bus => .ok (0, multiplier, bus)
  | budget + 1, multiplier, bus =>
    let moved := multiplier.writeBackCycle bus
    match moved.result with
    | .error fault => .error fault
    | .ok true => .ok (1, moved.multiplier, moved.bus)
    | .ok false =>
      match writeBackAll budget moved.multiplier moved.bus with
      | .error fault => .error fault
      | .ok (cycles, rest) => .ok (cycles + 1, rest)

end Multiplier

/-- What a passing check has measured. -/
structure Checked where
  product : Product
  loadCycles : Nat
  advances : Nat
  writeCycles : Nat
  counters : Counters
deriving DecidableEq

namespace Check

/-- The address of A in memory. -/
def addressA : UInt64 := 0

/-- The address of B in memory. -/
def addressB : UInt64 := UInt64.ofNat operandBytes

/-- The address of the product in memory. -/
def addressProduct : UInt64 := UInt64.ofNat (2 * operandBytes)

/-- The size of the memory. -/
def memoryBytes : Nat := 2 * operandBytes + productBytes

/-- The first place at which two lists of limbs differ, from an index on, with the limb of each. -/
def firstDifference (index : Nat) : List Limb → List Limb → Option (Nat × Limb × Limb)
  | x :: xs, y :: ys => if x = y then firstDifference (index + 1) xs ys else some (index, x, y)
  | _, _ => none

/-- A result in which a bus fault is a refusal. -/
def overBus {α : Type} : Except BusFault α → Except CheckFault α
  | .ok value => .ok value
  | .error fault => .error (.refused (.bus fault))

/-- A result in which a fault of the multiplier is a refusal. -/
def byMultiplier {α : Type} : Except Fault α → Except CheckFault α
  | .ok value => .ok value
  | .error fault => .error (.refused fault)

/-- The memory that holds a pair of factors. -/
def stage (operands : Operands) : Except BusFault Memory :=
  match (Memory.zero memoryBytes).writeLimbs addressA operands.a.toList with
  | (.error fault, _) => .error fault
  | (.ok (), memory) =>
    match memory.writeLimbs addressB operands.b.toList with
    | (.error fault, _) => .error fault
    | (.ok (), memory) => .ok memory

/-- Loads, multiplies and writes back a pair of factors on a multiplier of a profile, and compares
the product in memory with the schoolbook product. -/
def run (operands : Operands) (profile : Profile) : Except CheckFault Checked := do
  let memory ← overBus (stage operands)
  let built ← byMultiplier (Multiplier.create (Config.ofProfile profile))
  let (loadCycles, loaded, memory) ←
    byMultiplier ((built.beginLoad addressA addressB).loadAll operandLimbs memory)
  let ran := (loaded.issue addressProduct).run
  let (writeCycles, _, memory) ← byMultiplier (ran.multiplier.writeBackAll productLimbs memory)
  let written ← overBus (memory.readLimbs addressProduct productLimbs)
  let expected := operands.schoolbook
  match firstDifference 0 expected.toList written with
  | some (index, limb, actual) => .error (.mismatch index limb actual)
  | none =>
    .ok {
      product := expected
      loadCycles
      advances := ran.advances
      writeCycles
      counters := ran.multiplier.pipeline.counters }

end Check

end WideMultiplier
