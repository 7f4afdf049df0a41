import WideMultiplier.Limb

/-!
# Three-limb sums

The partial sums of one diagonal, and the running sum that carries from one diagonal to the next,
are held in three limbs. `Wide.add` ripples a carry through them, and `Wide.emit` shifts the lowest
limb out. The main statements, `Wide.value_add` and `Wide.value_emit`, say that addition is exact
modulo `Wide.modulus` and that shifting out a limb loses nothing.
-/

namespace WideMultiplier

/-- An unsigned number of three limbs. -/
structure Wide where
  lo : Limb
  mid : Limb
  hi : Limb
deriving DecidableEq

namespace Wide

/-- The number that the three limbs write. -/
def value (sum : Wide) : Nat :=
  sum.lo.toNat + Limb.base * (sum.mid.toNat + Limb.base * sum.hi.toNat)

/-- The number of values that three limbs can write: `2 ^ 192`. -/
abbrev modulus : Nat := Limb.base * (Limb.base * Limb.base)

/-- The number zero. -/
def zero : Wide :=
  ⟨0, 0, 0⟩

/-- A 128-bit word as a three-limb number. -/
def ofDouble (word : DoubleLimb) : Wide :=
  ⟨(Limb.split word).1, (Limb.split word).2, 0⟩

/-- The limbs, least significant first. -/
def limbs (sum : Wide) : List Limb :=
  [sum.lo, sum.mid, sum.hi]

/-- Whether all three limbs are zero. -/
def isZero (sum : Wide) : Bool :=
  sum.lo == 0 && sum.mid == 0 && sum.hi == 0

/-- Adds two numbers limb by limb. A carry out of the highest limb is dropped. -/
def add (a b : Wide) : Wide :=
  let lo := Limb.addWithCarry a.lo b.lo false
  let mid := Limb.addWithCarry a.mid b.mid lo.2
  let hi := Limb.addWithCarry a.hi b.hi mid.2
  ⟨lo.1, mid.1, hi.1⟩

/-- Adds a 128-bit word. -/
def addDouble (sum : Wide) (word : DoubleLimb) : Wide :=
  sum.add (ofDouble word)

/-- Shifts the lowest limb out: the limb, and the number that is left. -/
def emit (sum : Wide) : Limb × Wide :=
  (sum.lo, ⟨sum.mid, sum.hi, 0⟩)

@[simp] theorem value_zero : zero.value = 0 := rfl

/-- A three-limb number is below the modulus. -/
theorem value_lt (sum : Wide) : sum.value < modulus := by
  have hlo := Limb.toNat_lt sum.lo
  have hmid := Limb.toNat_lt sum.mid
  have hhi := Limb.toNat_lt sum.hi
  simp only [value, modulus, Limb.base, UInt64.size] at *
  omega

/-- Widening a 128-bit word keeps its value. -/
@[simp] theorem value_ofDouble (word : DoubleLimb) : (ofDouble word).value = word.toNat := by
  rw [← Limb.value_split word]
  simp [ofDouble, value]

/-- Addition is exact modulo `Wide.modulus`. -/
theorem value_add (a b : Wide) : (a.add b).value = (a.value + b.value) % modulus := by
  have hlo := Limb.value_addWithCarry a.lo b.lo false
  have hmid := Limb.value_addWithCarry a.mid b.mid (Limb.addWithCarry a.lo b.lo false).2
  have hhi := Limb.value_addWithCarry a.hi b.hi
    (Limb.addWithCarry a.mid b.mid (Limb.addWithCarry a.lo b.lo false).2).2
  have hlt := value_lt (a.add b)
  simp only [add, value, Bool.toNat_false, modulus, Limb.base, UInt64.size] at *
  omega

/-- Shifting a limb out loses nothing. -/
theorem value_emit (sum : Wide) :
    sum.emit.1.toNat + Limb.base * sum.emit.2.value = sum.value := by
  simp [emit, value]

end Wide

end WideMultiplier
