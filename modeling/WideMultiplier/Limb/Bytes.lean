import WideMultiplier.Limb

/-!
# Limbs as bytes

In memory a limb is eight bytes, least significant first. `Limb.toBytes` and `Limb.ofBytes` are
defined through the number that bytes write in base 256.
-/

namespace WideMultiplier

/-- The number of bytes in a limb. -/
abbrev limbBytes : Nat := 8

/-- The number that bytes write in base 256, least significant first. -/
def bytesValue : List UInt8 → Nat
  | [] => 0
  | byte :: rest => byte.toNat + 256 * bytesValue rest

/-- The lowest bytes of a number in base 256, least significant first. -/
def bytesOf : Nat → Nat → List UInt8
  | 0, _ => []
  | count + 1, number => UInt8.ofNat number :: bytesOf count (number / 256)

/-- The bytes of a number are as many as were asked for. -/
@[simp] theorem length_bytesOf (count number : Nat) : (bytesOf count number).length = count := by
  induction count generalizing number with
  | zero => rfl
  | succ count ih => simp [bytesOf, ih]

namespace Limb

/-- The eight bytes of a limb, least significant first. -/
def toBytes (limb : Limb) : List UInt8 :=
  bytesOf limbBytes limb.toNat

/-- The limb that up to eight bytes write, least significant first. -/
def ofBytes (bytes : List UInt8) : Limb :=
  UInt64.ofNat (bytesValue bytes)

@[simp] theorem length_toBytes (limb : Limb) : (toBytes limb).length = limbBytes :=
  length_bytesOf _ _

end Limb

namespace Limbs

/-- The bytes of a long number, least significant first. -/
def toBytes (limbs : List Limb) : List UInt8 :=
  limbs.flatMap Limb.toBytes

end Limbs

end WideMultiplier
