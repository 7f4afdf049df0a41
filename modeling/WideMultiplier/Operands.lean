import WideMultiplier.Fault
import WideMultiplier.Limb.Bytes

/-!
# Operands

The two 4096-bit factors of a multiplication, 64 limbs each. A pair of factors is a value of its own
in a test case, and the content of the multiplier's operand store. A store is read and written limb
by limb at an index, and an index past the end is a fault that changes nothing. `Operands.ofBytes`
reads both factors from their little-endian images.
-/

namespace WideMultiplier

/-- The number of limbs in a factor. -/
abbrev operandLimbs : Nat := 64

/-- The number of bytes in a factor. -/
abbrev operandBytes : Nat := operandLimbs * limbBytes

/-- The limbs of a factor, least significant first. -/
abbrev OperandLimbs := Vector Limb operandLimbs

/-- The factor that an image of 512 bytes holds. -/
def OperandLimbs.ofBytes (operand : Operand) (image : List UInt8) : Except Fault OperandLimbs :=
  if image.length = operandBytes then
    .ok (Vector.ofFn fun index =>
      Limb.ofBytes ((image.drop (limbBytes * index.val)).take limbBytes))
  else
    .error (.operandLength operand operandBytes image.length)

/-- A pair of factors. -/
@[ext] structure Operands where
  a : OperandLimbs
  b : OperandLimbs
deriving DecidableEq

namespace Operands

/-- Both factors zero. -/
def zero : Operands :=
  ⟨Vector.replicate operandLimbs 0, Vector.replicate operandLimbs 0⟩

/-- The limb of A at one index and the limb of B at another. Past the end stands a zero. -/
def pairAt (operands : Operands) (i j : Nat) : Limb × Limb :=
  (operands.a.getD i 0, operands.b.getD j 0)

/-- The limb of A at one index and the limb of B at another. -/
def pair (operands : Operands) (i j : Nat) : Except Fault (Limb × Limb) :=
  if operandLimbs ≤ i then .error (.limbIndex i operandLimbs)
  else if operandLimbs ≤ j then .error (.limbIndex j operandLimbs)
  else .ok (operands.pairAt i j)

/-- Replaces one limb of each factor. -/
def setLimb (operands : Operands) (index : Nat) (a b : Limb) : Except Fault Operands :=
  if h : index < operandLimbs then
    .ok ⟨operands.a.set index a h, operands.b.set index b h⟩
  else
    .error (.limbIndex index operandLimbs)

/-- The factors that two byte images hold. The length of A's image is checked first. -/
def ofBytes (a b : List UInt8) : Except Fault Operands :=
  match OperandLimbs.ofBytes .a a with
  | .error fault => .error fault
  | .ok a =>
    match OperandLimbs.ofBytes .b b with
    | .error fault => .error fault
    | .ok b => .ok ⟨a, b⟩

end Operands

end WideMultiplier
