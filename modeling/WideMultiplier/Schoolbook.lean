import WideMultiplier.Product

/-!
# Schoolbook multiplication

The product of two long numbers, one row of the first factor at a time. It shares nothing with the
pipeline but the product of two limbs, so that the two can be held against each other. A row is
added to the window of limbs that the rows before it have left; the lowest limb of the window is
then final. The main statement here, `Schoolbook.toNat_multiplyAdd`, says that the 128-bit word of a
row never overflows.
-/

namespace WideMultiplier

namespace Schoolbook

/-- The product of two limbs with two more limbs added to it. -/
def multiplyAdd (x y below carry : Limb) : DoubleLimb :=
  Limb.product x y + Limb.widen below + Limb.widen carry

/-- Adds one row, the product of a limb and a number, to a window of the same length. The carry
becomes the highest limb. -/
def addRow (x : Limb) : List Limb → List Limb → Limb → List Limb
  | y :: ys, below :: window, carry =>
    let word := Limb.split (multiplyAdd x y below carry)
    word.1 :: addRow x ys window word.2
  | _, _, carry => [carry]

/-- Adds the rows of all limbs of a number to a window, each one place higher than the row before.
-/
def addRows (ys : List Limb) : List Limb → List Limb → List Limb
  | [], window => window
  | x :: xs, window =>
    match addRow x ys window 0 with
    | [] => []
    | lowest :: rest => lowest :: addRows ys xs rest

/-- The product of two long numbers. -/
def product (xs ys : List Limb) : List Limb :=
  addRows ys xs (List.replicate ys.length 0)

/-- The word of a row is exact: the largest product leaves room for two more limbs. -/
theorem toNat_multiplyAdd (x y below carry : Limb) :
    (multiplyAdd x y below carry).toNat =
      x.toNat * y.toNat + below.toNat + carry.toNat := by
  have hprod := Limb.toNat_mul_le x y
  have hbelow := Limb.toNat_lt below
  have hcarry := Limb.toNat_lt carry
  simp only [Limb.base, UInt64.size] at hprod hbelow hcarry
  simp only [multiplyAdd, BitVec.toNat_add, Limb.toNat_product, Limb.toNat_widen]
  omega

/-- A row is one limb longer than the window that it is added to. -/
theorem length_addRow (x carry : Limb) (ys window : List Limb) (hlen : window.length = ys.length) :
    (addRow x ys window carry).length = ys.length + 1 := by
  induction ys generalizing window carry with
  | nil => simp [addRow]
  | cons y ys ih =>
    cases window with
    | nil => simp at hlen
    | cons below window => simpa [addRow] using ih _ window (by simpa using hlen)

/-- Each row makes the number one limb longer. -/
theorem length_addRows (xs ys window : List Limb) (hlen : window.length = ys.length) :
    (addRows ys xs window).length = xs.length + ys.length := by
  induction xs generalizing window with
  | nil => simp [addRows, hlen]
  | cons x xs ih =>
    have hrow := length_addRow x 0 ys window hlen
    rw [addRows]
    split
    · next hnil => simp [hnil] at hrow
    · next lowest rest hcons =>
      have hrest : rest.length = ys.length := by simpa [hcons] using hrow
      simp only [List.length_cons, ih rest hrest]
      omega

/-- A product is as long as its two factors together. -/
@[simp] theorem length_product (xs ys : List Limb) :
    (product xs ys).length = xs.length + ys.length :=
  length_addRows xs ys _ (by simp)

end Schoolbook

/-- The product of a pair of factors. -/
def Operands.schoolbook (operands : Operands) : Product :=
  ⟨(Schoolbook.product operands.a.toList operands.b.toList).toArray, by simp [Nat.mul_two]⟩

end WideMultiplier
