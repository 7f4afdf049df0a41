import Mathlib.Tactic.Ring
import WideMultiplier.Limb.Value
import WideMultiplier.Wide.Total

/-!
# Running sums

A running sum takes three-limb numbers in and gives limbs out, in any order. The limbs that it gave
out and the total above them write what was added, each addend at the place of the limb that was
next, less the carries that were dropped: `RunningSum.value_serveAll`. So nothing is lost exactly if
every total on the way fits in three limbs, and the same holds of the products of a batch:
`RunningSum.exact_iff_fits`.
-/

namespace WideMultiplier

/-- A request to a running sum. -/
inductive SumCall where
  | add (addend : Wide)
  | emit

/-- A running sum, and the limbs that it gave out, least significant first. -/
structure RunningSum where
  total : Wide
  emitted : List Limb

namespace RunningSum

/-- A running sum before all requests. -/
def zero : RunningSum :=
  ⟨Wide.zero, []⟩

/-- The running sum after a request. -/
def serve (sum : RunningSum) : SumCall → RunningSum
  | .add addend => { sum with total := sum.total.add addend }
  | .emit => ⟨sum.total.emit.2, sum.emitted ++ [sum.total.emit.1]⟩

/-- The running sum after some requests, one after the other. -/
def serveAll (sum : RunningSum) (calls : List SumCall) : RunningSum :=
  calls.foldl serve sum

/-- The number that is written so far: the limbs that were given out, and above them the total. -/
def value (sum : RunningSum) : Nat :=
  Limbs.value sum.emitted + Limb.base ^ sum.emitted.length * sum.total.value

/-- The sum of all addends, each at the place of the limb that is next when it is added. -/
def placed (next : Nat) : List SumCall → Nat
  | [] => 0
  | .add addend :: rest => Limb.base ^ next * addend.value + placed next rest
  | .emit :: rest => placed (next + 1) rest

/-- Whether every total on the way fits in three limbs. -/
def Fits (sum : RunningSum) (calls : List SumCall) : Prop :=
  ∀ before addend after, calls = before ++ .add addend :: after →
    (sum.serveAll before).total.value + addend.value < Wide.modulus

/-! ## Dropped carries -/

/-- The carry that a request drops, at its place above the total. -/
def droppedBy (sum : RunningSum) : SumCall → Nat
  | .add addend => Limb.base ^ sum.emitted.length * (sum.total.carryOut addend).toNat
  | .emit => 0

/-- All carries that some requests drop. -/
def dropped (sum : RunningSum) : List SumCall → Nat
  | [] => 0
  | call :: rest => sum.droppedBy call + (sum.serve call).dropped rest

variable (sum : RunningSum)

/-- An addition keeps what is written, up to the carry that it drops. -/
theorem value_add (addend : Wide) :
    (sum.serve (.add addend)).value + Wide.modulus * sum.droppedBy (.add addend) =
      sum.value + Limb.base ^ sum.emitted.length * addend.value := by
  have hsum := Wide.value_add_carryOut sum.total addend
  calc Limbs.value sum.emitted + Limb.base ^ sum.emitted.length * (sum.total.add addend).value +
        Wide.modulus * (Limb.base ^ sum.emitted.length * (sum.total.carryOut addend).toNat)
      = Limbs.value sum.emitted + Limb.base ^ sum.emitted.length *
          ((sum.total.add addend).value + Wide.modulus * (sum.total.carryOut addend).toNat) := by
        ring
    _ = sum.value + Limb.base ^ sum.emitted.length * addend.value := by
        rw [hsum, value]
        ring

/-- An emission keeps what is written: the limb only moves below the total. -/
theorem value_emit : (sum.serve .emit).value = sum.value := by
  have hemit := Wide.value_emit sum.total
  calc Limbs.value (sum.emitted ++ [sum.total.emit.1]) +
        Limb.base ^ (sum.emitted ++ [sum.total.emit.1]).length * sum.total.emit.2.value
      = Limbs.value sum.emitted + Limb.base ^ sum.emitted.length *
          (sum.total.emit.1.toNat + Limb.base * sum.total.emit.2.value) := by
        rw [Limbs.value_append, Limbs.value_cons, Limbs.value_nil, List.length_append,
          List.length_singleton]
        ring
    _ = sum.value := by rw [hemit, value]

/-- What is written after some requests, with the carries that were dropped, is what was written
before them and what they added. -/
theorem value_serveAll (calls : List SumCall) :
    (sum.serveAll calls).value + Wide.modulus * sum.dropped calls =
      sum.value + placed sum.emitted.length calls := by
  induction calls generalizing sum with
  | nil => rfl
  | cons call rest ih =>
      have hrest := ih (sum.serve call)
      rw [serveAll, List.foldl_cons, ← serveAll, dropped]
      cases call with
      | add addend =>
          have hadd := sum.value_add addend
          simp only [placed, Nat.mul_add]
          change _ = (sum.serve (.add addend)).value + placed sum.emitted.length rest at hrest
          omega
      | emit =>
          have hlength : (sum.serve .emit).emitted.length = sum.emitted.length + 1 :=
            List.length_append
          rw [hlength, value_emit] at hrest
          simpa [placed, droppedBy] using hrest

/-! ## Totals that fit -/

variable {sum : RunningSum}

/-- The totals of some requests fit if that of the first one does, and those of the others. -/
theorem fits_cons {call : SumCall} {rest : List SumCall} :
    sum.Fits (call :: rest) ↔
      (∀ addend, call = .add addend → sum.total.value + addend.value < Wide.modulus) ∧
        (sum.serve call).Fits rest := by
  constructor
  · intro h
    refine ⟨?_, fun before addend after hsplit => ?_⟩
    · rintro addend rfl
      exact h [] addend rest rfl
    · exact h (call :: before) addend after (congrArg (call :: ·) hsplit)
  · rintro ⟨hfirst, hrest⟩ before addend after hsplit
    cases before with
    | nil => exact hfirst addend (List.cons.inj hsplit).1
    | cons first before =>
        obtain ⟨rfl, hbehind⟩ := List.cons.inj hsplit
        exact hrest before addend after hbehind

/-- A request drops nothing exactly if the total that it makes fits. -/
theorem droppedBy_eq_zero_iff {call : SumCall} :
    sum.droppedBy call = 0 ↔
      ∀ addend, call = .add addend → sum.total.value + addend.value < Wide.modulus := by
  cases call with
  | add addend =>
      have hplace : Limb.base ^ sum.emitted.length ≠ 0 := (Nat.pow_pos (by decide)).ne'
      rw [droppedBy, Nat.mul_eq_zero, or_iff_right hplace, Bool.toNat_eq_zero,
        Wide.carryOut_eq_false_iff]
      simp
  | emit => simp [droppedBy]

/-- Nothing is dropped exactly if every total fits. -/
theorem dropped_eq_zero_iff {calls : List SumCall} : sum.dropped calls = 0 ↔ sum.Fits calls := by
  induction calls generalizing sum with
  | nil => simp [dropped, Fits]
  | cons call rest ih =>
      rw [dropped, Nat.add_eq_zero_iff, droppedBy_eq_zero_iff, ih, fits_cons]

/-! ## Products added up -/

/-- Products of limbs that are added to a total give their sum modulo `Wide.modulus`. -/
theorem value_foldl_product (factors : List (Limb × Limb)) (total : Wide) :
    (factors.foldl (fun sum pair => sum.addDouble (Limb.product pair.1 pair.2)) total).value =
      (total.value + (factors.map fun pair => pair.1.toNat * pair.2.toNat).sum) %
        Wide.modulus := by
  have hadds : factors.foldl (fun sum pair => sum.addDouble (Limb.product pair.1 pair.2)) total =
      (factors.map fun pair => Wide.ofDouble (Limb.product pair.1 pair.2)).foldl Wide.add
        total := by
    rw [List.foldl_map]
    rfl
  rw [hadds, Wide.value_foldl_add]
  simp [Function.comp_def]

/-- A running sum writes what was added exactly if every total on the way fits in three limbs, and
without that each addition is exact modulo `Wide.modulus`. Products that are added to a total give
their sum exactly if it fits. -/
theorem exact_iff_fits :
    (∀ calls, (zero.serveAll calls).value = placed 0 calls ↔ zero.Fits calls) ∧
    (∀ calls addend, ((zero.serveAll calls).serve (.add addend)).total.value =
      ((zero.serveAll calls).total.value + addend.value) % Wide.modulus) ∧
    (∀ (factors : List (Limb × Limb)) (total : Wide),
      (factors.foldl (fun sum pair => sum.addDouble (Limb.product pair.1 pair.2)) total).value =
          total.value + (factors.map fun pair => pair.1.toNat * pair.2.toNat).sum ↔
        total.value + (factors.map fun pair => pair.1.toNat * pair.2.toNat).sum <
          Wide.modulus) := by
  have hmodulus : 0 < Wide.modulus := by decide
  refine ⟨fun calls => ?_, fun calls addend => Wide.value_add _ addend, fun factors total => ?_⟩
  · have hkept := zero.value_serveAll calls
    have hzero : zero.value + placed zero.emitted.length calls = placed 0 calls :=
      Nat.zero_add _
    rw [hzero] at hkept
    rw [← dropped_eq_zero_iff, ← hkept, Nat.left_eq_add, Nat.mul_eq_zero]
    exact or_iff_right hmodulus.ne'
  · rw [value_foldl_product]
    exact ⟨fun hexact => hexact ▸ Nat.mod_lt _ hmodulus, Nat.mod_eq_of_lt⟩

/-- One more than the largest total is lost. -/
example : (zero.serveAll [.add ⟨-1, -1, -1⟩, .add ⟨1, 0, 0⟩, .emit]).value = 0 := by decide

end RunningSum

end WideMultiplier
