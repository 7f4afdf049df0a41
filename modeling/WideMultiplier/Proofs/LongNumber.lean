import Mathlib.Algebra.BigOperators.Fin
import Mathlib.Algebra.BigOperators.Ring.Finset
import Mathlib.Tactic.Ring
import WideMultiplier.Limb.Value
import WideMultiplier.Product

/-!
# Long numbers by their limbs

The limbs of a long number are its digits in `Limb.base`. `Limbs.toNat_getElem` reads a limb off the
value, `Limbs.value_inj` says that numbers of one length with one value are equal, and
`Operands.value_mul_value` writes the product of two factors as the sum of the products of their
limbs, each at its place.
-/

namespace WideMultiplier

open scoped BigOperators

/-- The number that a factor writes. -/
def OperandLimbs.value (limbs : OperandLimbs) : Nat :=
  Limbs.value limbs.toList

/-- The number that a product writes. -/
def Product.value (product : Product) : Nat :=
  Limbs.value product.toList

namespace Limbs

/-! ## Digits -/

/-- One more limb counts at the place behind the limbs before it. -/
theorem value_take_succ (limbs : List Limb) (index : Nat) (h : index < limbs.length) :
    value (limbs.take (index + 1)) =
      value (limbs.take index) + Limb.base ^ index * limbs[index].toNat := by
  rw [List.take_succ_eq_append_getElem h, value_append, List.length_take_of_le (Nat.le_of_lt h)]
  simp

/-- A limb is the digit of the value at its place. -/
theorem toNat_getElem (limbs : List Limb) (index : Nat) (h : index < limbs.length) :
    limbs[index].toNat = value limbs / Limb.base ^ index % Limb.base := by
  induction limbs generalizing index with
  | nil => simp at h
  | cons limb rest ih =>
      have hlimb : limb.toNat < Limb.base := Limb.toNat_lt limb
      have hbase : 0 < Limb.base := by decide
      cases index with
      | zero =>
          rw [value_cons, pow_zero, Nat.div_one, Nat.add_mul_mod_self_left]
          exact (Nat.mod_eq_of_lt hlimb).symm
      | succ index =>
          have hrest : index < rest.length := by simpa using h
          rw [value_cons, pow_succ', ← Nat.div_div_eq_div_mul, Nat.add_mul_div_left _ _ hbase,
            Nat.div_eq_of_lt hlimb, Nat.zero_add]
          exact ih index hrest

/-- Zeros write zero. -/
theorem value_replicate_zero (count : Nat) : value (List.replicate count 0) = 0 := by
  induction count with
  | zero => rfl
  | succ count ih => simp [List.replicate_succ, ih]

/-- Long numbers of the same length and value have the same limbs. -/
theorem value_inj {left right : List Limb} (hlength : left.length = right.length)
    (hvalue : value left = value right) : left = right := by
  refine List.ext_getElem hlength fun index hleft hright => ?_
  apply UInt64.toNat_inj.mp
  rw [toNat_getElem left index hleft, toNat_getElem right index hright, hvalue]

/-- A long number is the sum of its limbs, each at its place. -/
theorem value_eq_sum (limbs : List Limb) :
    value limbs =
      ∑ index ∈ Finset.range limbs.length, (limbs.getD index 0).toNat * Limb.base ^ index := by
  induction limbs with
  | nil => rfl
  | cons limb rest ih =>
      rw [value_cons, ih, Finset.mul_sum, List.length_cons, Finset.sum_range_succ', Nat.add_comm]
      congr 1
      · refine Finset.sum_congr rfl fun index _ => ?_
        rw [List.getD_cons_succ, pow_succ']
        ring
      · simp

end Limbs

/-! ## Stores -/

/-- A factor is the sum of its limbs, each at its place. -/
theorem OperandLimbs.value_eq_sum (limbs : OperandLimbs) :
    limbs.value = ∑ index : Fin operandLimbs, (limbs.get index).toNat * Limb.base ^ index.val := by
  rw [value, Limbs.value_eq_sum, Vector.length_toList, Finset.sum_range]
  refine Finset.sum_congr rfl fun index _ => ?_
  simp [Vector.get]

/-- A factor is below the power of the base that its limbs reach. -/
theorem OperandLimbs.value_lt (limbs : OperandLimbs) :
    limbs.value < Limb.base ^ operandLimbs := by
  have h := Limbs.value_lt limbs.toList
  rwa [Vector.length_toList] at h

namespace Product

/-- A limb of a product is the digit of its value at its place. -/
theorem toNat_getElem (product : Product) (index : Nat) (h : index < productLimbs) :
    product[index].toNat = product.value / Limb.base ^ index % Limb.base := by
  rw [value, ← Limbs.toNat_getElem product.toList index (by simpa using h), Vector.getElem_toList]

/-- Products with the same value have the same limbs. -/
theorem value_inj {left right : Product} (h : left.value = right.value) : left = right := by
  apply Vector.toList_inj.mp
  exact Limbs.value_inj (by simp) h

/-- A limb that is stored behind the limbs so far counts at its place. -/
theorem value_take_put (product : Product) (index : Nat) (limb : Limb)
    (h : index < productLimbs) :
    Limbs.value ((product.put index limb).toList.take (index + 1)) =
      Limbs.value (product.toList.take index) + Limb.base ^ index * limb.toNat := by
  have hlist : (product.put index limb).toList = product.toList.set index limb := by
    obtain ⟨⟨limbs⟩, hlength⟩ := product
    simp [put, Vector.setIfInBounds]
  rw [hlist, Limbs.value_take_succ _ _ (by simpa using h), List.take_set_of_le (Nat.le_refl _)]
  simp

end Product

/-- The product of two factors is the sum of the products of their limbs, each at its place. -/
theorem Operands.value_mul_value (operands : Operands) :
    operands.a.value * operands.b.value =
      ∑ i : Fin operandLimbs, ∑ j : Fin operandLimbs,
        (operands.a.get i).toNat * (operands.b.get j).toNat * Limb.base ^ (i.val + j.val) := by
  rw [OperandLimbs.value_eq_sum, OperandLimbs.value_eq_sum, Finset.sum_mul_sum]
  refine Finset.sum_congr rfl fun i _ => Finset.sum_congr rfl fun j _ => ?_
  rw [pow_add]
  ring

end WideMultiplier
