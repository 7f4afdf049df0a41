import Mathlib.Tactic.Ring
import WideMultiplier.Proofs.LongNumber
import WideMultiplier.Schoolbook

/-!
# The value of a schoolbook product

A row adds the product of a limb and a number to its window, and the rows together add the product
of two numbers. `Operands.value_schoolbook` says that the schoolbook product of two factors writes
the product of their values.
-/

namespace WideMultiplier

namespace Schoolbook

/-- A row adds the product of its limb and the number, and the carry that comes in. -/
theorem value_addRow (x carry : Limb) (ys window : List Limb)
    (hlength : window.length = ys.length) :
    Limbs.value (addRow x ys window carry) =
      x.toNat * Limbs.value ys + Limbs.value window + carry.toNat := by
  induction ys generalizing window carry with
  | nil =>
      obtain rfl : window = [] := List.eq_nil_of_length_eq_zero hlength
      simp [addRow]
  | cons y ys ih =>
      cases window with
      | nil => simp at hlength
      | cons below window =>
          have hsplit := Limb.value_split (multiplyAdd x y below carry)
          rw [toNat_multiplyAdd] at hsplit
          rw [addRow, Limbs.value_cons, ih _ window (by simpa using hlength), Limbs.value_cons,
            Limbs.value_cons]
          calc
            _ = (Limb.split (multiplyAdd x y below carry)).1.toNat +
                  Limb.base * (Limb.split (multiplyAdd x y below carry)).2.toNat +
                Limb.base * (x.toNat * Limbs.value ys + Limbs.value window) := by ring
            _ = _ := by
              rw [hsplit]
              ring

/-- The rows add the product of the two numbers. -/
theorem value_addRows (xs ys window : List Limb) (hlength : window.length = ys.length) :
    Limbs.value (addRows ys xs window) = Limbs.value xs * Limbs.value ys + Limbs.value window := by
  induction xs generalizing window with
  | nil => simp [addRows]
  | cons x xs ih =>
      have hrow := length_addRow x 0 ys window hlength
      have hvalue := value_addRow x 0 ys window hlength
      rw [addRows]
      split
      · next hnil => simp [hnil] at hrow
      · next lowest rest hcons =>
          have hrest : rest.length = ys.length := by simpa [hcons] using hrow
          rw [hcons, Limbs.value_cons, UInt64.toNat_zero, Nat.add_zero] at hvalue
          rw [Limbs.value_cons, ih rest hrest, Limbs.value_cons]
          calc
            _ = lowest.toNat + Limb.base * Limbs.value rest +
                Limb.base * (Limbs.value xs * Limbs.value ys) := by ring
            _ = _ := by
              rw [hvalue]
              ring

/-- The schoolbook product writes the product of the two numbers. -/
theorem value_product (xs ys : List Limb) :
    Limbs.value (product xs ys) = Limbs.value xs * Limbs.value ys := by
  rw [product, value_addRows xs ys _ (by simp), Limbs.value_replicate_zero, Nat.add_zero]

end Schoolbook

/-- The schoolbook product of two factors writes the product of their values. -/
theorem Operands.value_schoolbook (operands : Operands) :
    operands.schoolbook.value = operands.a.value * operands.b.value := by
  rw [Product.value, OperandLimbs.value, OperandLimbs.value, ← Schoolbook.value_product]
  rfl

end WideMultiplier
