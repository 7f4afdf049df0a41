import Mathlib.Tactic.Ring
import WideMultiplier.Wide

/-!
# Totals of many numbers

`Wide.value_foldl_add` says that three-limb numbers added one after the other give their sum modulo
`Wide.modulus`, whatever the order of the carries. `Wide.add` drops the carry out of the highest
limb: `Wide.carryOut` is that carry, and `Wide.AddsBelow` says that it is never set on the way to a
total, and that every total stays below a limit. By `Wide.addsBelow_of_sum_lt` it is enough to bound
the last one.
-/

namespace WideMultiplier

namespace Wide

/-- Adding numbers one after the other gives their sum modulo `Wide.modulus`. -/
theorem value_foldl_add (addends : List Wide) (total : Wide) :
    (addends.foldl add total).value = (total.value + (addends.map value).sum) % modulus := by
  induction addends generalizing total with
  | nil =>
    rw [List.map_nil, List.sum_nil, Nat.add_zero]
    exact (Nat.mod_eq_of_lt (value_lt total)).symm
  | cons addend rest ih =>
    rw [List.foldl_cons, ih, value_add, List.map_cons, List.sum_cons, Nat.mod_add_mod,
      Nat.add_assoc]

/-! ## Carries out of the highest limb -/

/-- The carry out of the highest limb, which `Wide.add` drops. -/
def carryOut (a b : Wide) : Bool :=
  let lo := Limb.addWithCarry a.lo b.lo false
  let mid := Limb.addWithCarry a.mid b.mid lo.2
  (Limb.addWithCarry a.hi b.hi mid.2).2

/-- The sum and the carry out of it write the sum of the values. -/
theorem value_add_carryOut (a b : Wide) :
    (a.add b).value + modulus * (a.carryOut b).toNat = a.value + b.value := by
  have hlo := Limb.value_addWithCarry a.lo b.lo false
  have hmid := Limb.value_addWithCarry a.mid b.mid (Limb.addWithCarry a.lo b.lo false).2
  have hhi := Limb.value_addWithCarry a.hi b.hi
    (Limb.addWithCarry a.mid b.mid (Limb.addWithCarry a.lo b.lo false).2).2
  simp only [add, carryOut, value, Bool.toNat_false, modulus, Limb.base, UInt64.size] at *
  omega

/-- Nothing is carried out of a sum exactly if three limbs can write it. -/
theorem carryOut_eq_false_iff {a b : Wide} :
    a.carryOut b = false ↔ a.value + b.value < modulus := by
  have hsum := value_add_carryOut a b
  have hlt := value_lt (a.add b)
  cases hcarry : a.carryOut b with
  | false =>
    rw [hcarry, Bool.toNat_false, Nat.mul_zero, Nat.add_zero] at hsum
    exact ⟨fun _ => hsum ▸ hlt, fun _ => rfl⟩
  | true =>
    rw [hcarry, Bool.toNat_true, Nat.mul_one] at hsum
    refine ⟨fun h => Bool.noConfusion h, fun hfits => ?_⟩
    omega

/-- Whether numbers can be added to a total one after the other with nothing carried out of the
highest limb, and with every total below a limit. -/
def AddsBelow (limit : Nat) : Wide → List Wide → Prop
  | _, [] => True
  | total, addend :: rest =>
    total.carryOut addend = false ∧ (total.add addend).value < limit ∧
      AddsBelow limit (total.add addend) rest

/-- If the last total stays below a limit, so does every total before it. -/
theorem addsBelow_of_sum_lt {limit : Nat} (hlimit : limit ≤ modulus) (addends : List Wide)
    {total : Wide} (h : total.value + (addends.map value).sum < limit) :
    AddsBelow limit total addends := by
  induction addends generalizing total with
  | nil => trivial
  | cons addend rest ih =>
    rw [List.map_cons, List.sum_cons] at h
    have hvalue : (total.add addend).value = total.value + addend.value := by
      rw [value_add, Nat.mod_eq_of_lt (by omega)]
    exact ⟨carryOut_eq_false_iff.mpr (by omega), by omega, ih (by omega)⟩

/-! ## What is left of a total -/

/-- A number is zero when its limbs are. -/
theorem isZero_iff_value (sum : Wide) : sum.isZero = true ↔ sum.value = 0 := by
  have hzero : ∀ limb : Limb, limb = 0 ↔ limb.toNat = 0 := fun limb => UInt64.toNat_inj.symm
  simp only [isZero, Bool.and_eq_true, beq_iff_eq, hzero, value, Limb.base, UInt64.size]
  omega

/-- Shifting a limb out divides by the base. -/
theorem value_emit_lt {sum : Wide} {limit : Nat} (h : sum.value < Limb.base * limit) :
    sum.emit.2.value < limit := by
  have hemit := value_emit sum
  refine Nat.lt_of_mul_lt_mul_left (a := Limb.base) ?_
  omega

end Wide

end WideMultiplier
