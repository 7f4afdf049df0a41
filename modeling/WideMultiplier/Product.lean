import WideMultiplier.Operands

/-!
# Products

The 8192-bit product, 128 limbs, as the multiplier stores it. One limb is stored as each diagonal
closes; a limb read or stored at an index past the end is a fault that changes nothing.
-/

namespace WideMultiplier

/-- The number of limbs in a product. -/
abbrev productLimbs : Nat := operandLimbs * 2

/-- The number of bytes in a product. -/
abbrev productBytes : Nat := productLimbs * limbBytes

/-- The limbs of a product, least significant first. -/
abbrev Product := Vector Limb productLimbs

namespace Product

/-- All limbs zero. -/
def zero : Product :=
  Vector.replicate productLimbs 0

/-- Stores a limb. Past the end there is nothing to store it in. -/
def put (product : Product) (index : Nat) (limb : Limb) : Product :=
  product.setIfInBounds index limb

/-- Stores a limb at an index that must be in range. -/
def store (product : Product) (index : Nat) (limb : Limb) : Except Fault Product :=
  if index < productLimbs then .ok (product.put index limb)
  else .error (.limbIndex index productLimbs)

/-- The limb at an index that must be in range. -/
def limb (product : Product) (index : Nat) : Except Fault Limb :=
  if h : index < productLimbs then .ok product[index]
  else .error (.limbIndex index productLimbs)

/-- The little-endian image, as it is written back to memory. -/
def toBytes (product : Product) : List UInt8 :=
  Limbs.toBytes product.toList

end Product

end WideMultiplier
