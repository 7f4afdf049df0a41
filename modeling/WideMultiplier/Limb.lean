/-!
# Limbs

A long number is a list of 64-bit limbs, least significant first, and `Limbs.value` is the number it
stands for. This module holds the operations on single limbs that know about overflow: the full
product of two limbs, its split into a low and a high limb, and addition with a carry. The main
statements, `Limb.toNat_product`, `Limb.value_split` and `Limb.value_addWithCarry`, say that nothing
is lost: each operation is the operation on natural numbers, written in `Limb.base`.
-/

namespace WideMultiplier

/-- A 64-bit digit of a long number. -/
abbrev Limb := UInt64

/-- A 128-bit word: the full product of two limbs, with room for two more limbs on top of it. -/
abbrev DoubleLimb := BitVec 128

namespace Limb

/-- The base in which limbs are the digits: `2 ^ 64`. -/
abbrev base : Nat := UInt64.size

/-- A limb is below the base. -/
theorem toNat_lt (limb : Limb) : limb.toNat < base :=
  UInt64.toNat_lt_size limb

/-- The limb as a 128-bit word. -/
def widen (limb : Limb) : DoubleLimb :=
  limb.toBitVec.setWidth 128

/-- The full product of two limbs. -/
def product (a b : Limb) : DoubleLimb :=
  widen a * widen b

/-- The low and the high limb of a 128-bit word. -/
def split (word : DoubleLimb) : Limb × Limb :=
  (UInt64.ofBitVec (word.setWidth 64), UInt64.ofBitVec ((word >>> 64).setWidth 64))

/-- Adds two limbs and an incoming carry. The result is the wrapped sum and the outgoing carry,
which is set when either of the two additions wrapped. -/
def addWithCarry (a b : Limb) (carry : Bool) : Limb × Bool :=
  let partialSum := a + b
  let sum := partialSum + (if carry then 1 else 0)
  (sum, decide (partialSum < a) || decide (sum < partialSum))

/-- The number of significant bits of a limb, which is zero for the limb zero. -/
def bitLength (limb : Limb) : Nat :=
  if limb = 0 then 0 else limb.toNat.log2 + 1

/-- Widening keeps the value. -/
@[simp] theorem toNat_widen (limb : Limb) : (widen limb).toNat = limb.toNat := by
  have hlimb := toNat_lt limb
  simp only [base, UInt64.size] at hlimb
  simp only [widen, BitVec.toNat_setWidth, UInt64.toNat_toBitVec]
  omega

/-- The product of two limbs is at most the square of the largest limb. -/
theorem toNat_mul_le (a b : Limb) : a.toNat * b.toNat ≤ (base - 1) * (base - 1) :=
  Nat.mul_le_mul (Nat.le_pred_of_lt (toNat_lt a)) (Nat.le_pred_of_lt (toNat_lt b))

/-- The product of two limbs fits in 128 bits, so it is exact. -/
@[simp] theorem toNat_product (a b : Limb) : (product a b).toNat = a.toNat * b.toNat := by
  have hprod : a.toNat * b.toNat < base * base := Nat.mul_lt_mul'' (toNat_lt a) (toNat_lt b)
  simp only [product, BitVec.toNat_mul, toNat_widen]
  exact Nat.mod_eq_of_lt hprod

/-- The two limbs of a 128-bit word write its value. -/
theorem value_split (word : DoubleLimb) :
    (split word).1.toNat + base * (split word).2.toNat = word.toNat := by
  have hword := word.isLt
  simp only [split, UInt64.toNat_ofBitVec, BitVec.toNat_setWidth, BitVec.toNat_ushiftRight,
    Nat.shiftRight_eq_div_pow, base, UInt64.size]
  omega

/-- Adding with carry is exact: the wrapped sum and the outgoing carry write the true sum. -/
theorem value_addWithCarry (a b : Limb) (carry : Bool) :
    (addWithCarry a b carry).1.toNat + base * (addWithCarry a b carry).2.toNat =
      a.toNat + b.toNat + carry.toNat := by
  have ha := toNat_lt a
  have hb := toNat_lt b
  have hone : (if carry then 1 else 0 : Limb).toNat = carry.toNat := by cases carry <;> rfl
  have hcarry : carry.toNat ≤ 1 := Bool.toNat_le carry
  simp only [base, UInt64.size] at ha hb
  simp only [addWithCarry, UInt64.lt_iff_toNat_lt, UInt64.toNat_add, hone, base, UInt64.size]
  by_cases hfirst : (a.toNat + b.toNat) % 2 ^ 64 < a.toNat <;>
    by_cases hsecond : ((a.toNat + b.toNat) % 2 ^ 64 + carry.toNat) % 2 ^ 64 <
      (a.toNat + b.toNat) % 2 ^ 64 <;>
    simp only [hfirst, hsecond, decide_true, decide_false, Bool.or_true, Bool.or_false,
      Bool.toNat_true, Bool.toNat_false] <;>
    omega

end Limb

namespace Limbs

/-- The number that limbs write, least significant first. -/
def value : List Limb → Nat
  | [] => 0
  | limb :: rest => limb.toNat + Limb.base * value rest

/-- The number of significant bits of a long number: the place of its highest nonzero limb, and the
significant bits of that limb. -/
def bitLength (limbs : List Limb) : Nat :=
  limbs.foldr (fun limb above => if above = 0 then Limb.bitLength limb else above + 64) 0

@[simp] theorem value_nil : value [] = 0 := rfl

@[simp] theorem value_cons (limb : Limb) (rest : List Limb) :
    value (limb :: rest) = limb.toNat + Limb.base * value rest := rfl

end Limbs

end WideMultiplier
