import Mathlib.Tactic.Ring
import WideMultiplier.Limb.Bytes

/-!
# The value of a long number

How `Limbs.value` and the bytes of a limb depend on the number of digits. The main statements are
`Limbs.value_append` and `Limbs.value_lt`, for digits in `Limb.base`, and `Limb.ofBytes_toBytes`: a
limb reads back as it was written.
-/

namespace WideMultiplier

namespace Limbs

/-- Limbs appended at the significant end count from the place after the last one. -/
theorem value_append (low high : List Limb) :
    value (low ++ high) = value low + Limb.base ^ low.length * value high := by
  induction low with
  | nil => simp
  | cons limb rest ih =>
    rw [List.cons_append, value_cons, value_cons, ih, List.length_cons]
    ring

/-- A number of some limbs is below that power of the base. -/
theorem value_lt (limbs : List Limb) : value limbs < Limb.base ^ limbs.length := by
  induction limbs with
  | nil => simp
  | cons limb rest ih =>
    have hlimb : limb.toNat < Limb.base := Limb.toNat_lt limb
    rw [value_cons, List.length_cons, pow_succ']
    calc limb.toNat + Limb.base * value rest
        < Limb.base + Limb.base * value rest := Nat.add_lt_add_right hlimb _
      _ = Limb.base * (value rest + 1) := by ring
      _ ≤ Limb.base * Limb.base ^ rest.length := Nat.mul_le_mul_left _ ih

end Limbs

/-- Bytes write the number they were taken from, as far as they reach. -/
theorem bytesValue_bytesOf (count number : Nat) :
    bytesValue (bytesOf count number) = number % 256 ^ count := by
  induction count generalizing number with
  | zero => simp [bytesOf, bytesValue, Nat.mod_one]
  | succ count ih =>
    have hbyte : (UInt8.ofNat number).toNat = number % 256 := UInt8.toNat_ofNat'
    rw [bytesOf, bytesValue, ih, hbyte, pow_succ', Nat.mod_mul]

namespace Limb

/-- A limb reads back as it was written. -/
@[simp] theorem ofBytes_toBytes (limb : Limb) : ofBytes (toBytes limb) = limb := by
  have hlimb : limb.toNat < 256 ^ limbBytes := toNat_lt limb
  rw [ofBytes, toBytes, bytesValue_bytesOf, Nat.mod_eq_of_lt hlimb]
  exact UInt64.ofNat_toNat

end Limb

end WideMultiplier
