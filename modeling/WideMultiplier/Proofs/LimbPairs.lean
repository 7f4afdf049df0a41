import Mathlib.Algebra.BigOperators.Ring.List
import Mathlib.Algebra.Order.BigOperators.Group.List
import WideMultiplier.Proofs.LongNumber
import WideMultiplier.Proofs.Schedule

/-!
# Sums over pairs of limbs

The product of the limbs that a pair of indices names counts in the product of two factors at the
place of the sum of the indices. This module adds such products up over lists of pairs, where each
pair may be read from factors of its own (`Sample`). `ceiling_pairsThrough_le` bounds every sum over
the diagonals up to one of them, and `sum_pairsThrough` turns a sum over these diagonals into a sum
over all indices.
-/

namespace WideMultiplier

open scoped BigOperators

/-- The place at which the product of a pair of limbs counts. -/
def IndexPair.place (pair : IndexPair) : Nat :=
  Limb.base ^ (pair.i + pair.j)

namespace Operands

/-- The product of the limbs that a pair names. -/
def limbProduct (operands : Operands) (pair : IndexPair) : Nat :=
  (operands.pairAt pair.i pair.j).1.toNat * (operands.pairAt pair.i pair.j).2.toNat

/-- The sum of the products of the limbs that some pairs name. -/
def sumOf (operands : Operands) (pairs : List IndexPair) : Nat :=
  (pairs.map operands.limbProduct).sum

@[simp] theorem sumOf_nil (operands : Operands) : operands.sumOf [] = 0 := rfl

@[simp] theorem sumOf_append (operands : Operands) (first second : List IndexPair) :
    operands.sumOf (first ++ second) = operands.sumOf first + operands.sumOf second := by
  simp [sumOf]

/-- The pairs in range name the limbs at their indices. -/
theorem limbProduct_mk (operands : Operands) (i j : Fin operandLimbs) :
    operands.limbProduct ⟨i, j⟩ = (operands.a.get i).toNat * (operands.b.get j).toNat := by
  simp [limbProduct, pairAt, Vector.getD, Vector.get]

/-- The product of two limbs is at most the square of the largest limb. -/
theorem limbProduct_le (operands : Operands) (pair : IndexPair) :
    operands.limbProduct pair ≤ (Limb.base - 1) * (Limb.base - 1) :=
  Limb.toNat_mul_le _ _

end Operands

/-! ## Samples -/

/-- A pair of limbs that was read, and the factors that it was read from. -/
structure Sample where
  operands : Operands
  pair : IndexPair

namespace Sample

/-- What a pair of limbs adds to the product. -/
def term (sample : Sample) : Nat :=
  sample.operands.limbProduct sample.pair * sample.pair.place

/-- What some pairs of limbs add to the product together. -/
def total (samples : List Sample) : Nat :=
  (samples.map term).sum

/-- The samples of some pairs that are all read from the same factors. -/
def all (operands : Operands) (pairs : List IndexPair) : List Sample :=
  pairs.map fun pair => ⟨operands, pair⟩

@[simp] theorem total_append (first second : List Sample) :
    total (first ++ second) = total first + total second := by
  simp [total]

@[simp] theorem all_append (operands : Operands) (first second : List IndexPair) :
    all operands (first ++ second) = all operands first ++ all operands second :=
  List.map_append

@[simp] theorem map_pair_all (operands : Operands) (pairs : List IndexPair) :
    (all operands pairs).map pair = pairs := by
  simp [all, Function.comp_def]

/-- On one diagonal the place is common to all pairs. -/
theorem total_all_of_diagonal (operands : Operands) (pairs : List IndexPair) (diagonal : Nat)
    (h : ∀ pair ∈ pairs, pair.i + pair.j = diagonal) :
    total (all operands pairs) = Limb.base ^ diagonal * operands.sumOf pairs := by
  rw [Operands.sumOf, ← List.sum_map_mul_left, total, all, List.map_map]
  congr 1
  refine List.map_congr_left fun pair hpair => ?_
  simp only [Function.comp_apply, term, IndexPair.place, h pair hpair]
  exact Nat.mul_comm _ _

end Sample

/-! ## Bounds -/

/-- The most that some pairs of limbs can add to the product. -/
def ceiling (pairs : List IndexPair) : Nat :=
  (pairs.map fun pair => (Limb.base - 1) * (Limb.base - 1) * pair.place).sum

@[simp] theorem ceiling_append (first second : List IndexPair) :
    ceiling (first ++ second) = ceiling first + ceiling second := by
  simp [ceiling]

/-- Samples add no more than their pairs can. -/
theorem Sample.total_le_ceiling (samples : List Sample) :
    total samples ≤ ceiling (samples.map pair) := by
  rw [total, ceiling, List.map_map]
  refine List.sum_le_sum fun sample _ => ?_
  exact Nat.mul_le_mul_right _ (Operands.limbProduct_le _ _)

/-- On one diagonal the most that pairs can add grows with their number. -/
theorem ceiling_of_diagonal (pairs : List IndexPair) (diagonal : Nat)
    (h : ∀ pair ∈ pairs, pair.i + pair.j = diagonal) :
    ceiling pairs =
      pairs.length * ((Limb.base - 1) * (Limb.base - 1) * Limb.base ^ diagonal) := by
  rw [ceiling, List.map_congr_left (g := fun _ => (Limb.base - 1) * (Limb.base - 1) *
    Limb.base ^ diagonal) fun pair hpair => by rw [IndexPair.place, h pair hpair]]
  simp

/-- The diagonals up to one of them add less than 64 limbs at the place behind it can. -/
theorem ceiling_pairsThrough_le (diagonal : Nat) :
    ceiling (pairsThrough diagonal) ≤
      operandLimbs * (Limb.base - 1) * Limb.base ^ (diagonal + 1) := by
  have hone : ∀ diagonal, ceiling (Cursor.pairsOf diagonal) ≤
      operandLimbs * ((Limb.base - 1) * (Limb.base - 1) * Limb.base ^ diagonal) := by
    intro diagonal
    rw [ceiling_of_diagonal _ diagonal fun pair hpair => (Cursor.mem_pairsOf.mp hpair).2.2]
    exact Nat.mul_le_mul_right _ (Cursor.length_pairsOf_le diagonal)
  have hbase : Limb.base = Limb.base - 1 + 1 := rfl
  generalize Limb.base - 1 = top at hone hbase ⊢
  simp only [hbase] at hone ⊢
  induction diagonal with
  | zero =>
      calc
        _ ≤ operandLimbs * (top * top * (top + 1) ^ 0) := hone 0
        _ ≤ operandLimbs * (top * (top + 1)) := by
          rw [pow_zero, Nat.mul_one]
          exact Nat.mul_le_mul_left _ (Nat.mul_le_mul_left _ (Nat.le_succ top))
        _ = operandLimbs * top * (top + 1) ^ (0 + 1) := by ring
  | succ diagonal ih =>
      rw [pairsThrough_succ, ceiling_append]
      calc
        _ ≤ operandLimbs * top * (top + 1) ^ (diagonal + 1) +
            operandLimbs * (top * top * (top + 1) ^ (diagonal + 1)) :=
          Nat.add_le_add ih (hone (diagonal + 1))
        _ = operandLimbs * top * (top + 1) ^ (diagonal + 1 + 1) := by ring

/-! ## All pairs -/

/-- A list that holds the pairs below a diagonal once each adds up to the sum over their indices. -/
theorem sum_of_mem_iff (count diagonal : Nat) (term : Nat → Nat → Nat) (pairs : List IndexPair)
    (hnodup : pairs.Nodup)
    (hmem : ∀ pair, pair ∈ pairs ↔
      pair.i < count ∧ pair.j < count ∧ pair.i + pair.j ≤ diagonal) :
    (pairs.map fun pair => term pair.i pair.j).sum =
      ∑ i : Fin count, ∑ j : Fin count, if i.val + j.val ≤ diagonal then term i j else 0 := by
  rw [← List.sum_toFinset _ hnodup, ← Fintype.sum_prod_type', ← Finset.sum_filter]
  symm
  refine Finset.sum_bij (fun place _ => IndexPair.mk place.1 place.2) ?_ ?_ ?_ ?_
  · intro place hplace
    have hsum := (Finset.mem_filter.mp hplace).2
    exact List.mem_toFinset.mpr ((hmem _).mpr ⟨place.1.isLt, place.2.isLt, hsum⟩)
  · intro left _ right _ h
    obtain ⟨hi, hj⟩ := IndexPair.mk.inj h
    exact Prod.ext (Fin.ext hi) (Fin.ext hj)
  · intro pair hpair
    obtain ⟨hi, hj, hsum⟩ := (hmem pair).mp (List.mem_toFinset.mp hpair)
    exact ⟨(⟨pair.i, hi⟩, ⟨pair.j, hj⟩), Finset.mem_filter.mpr ⟨Finset.mem_univ _, hsum⟩, rfl⟩
  · intro place _
    rfl

/-- A sum over the diagonals up to one of them is a sum over all indices. -/
theorem sum_pairsThrough (term : Nat → Nat → Nat) (diagonal : Nat) :
    ((pairsThrough diagonal).map fun pair => term pair.i pair.j).sum =
      ∑ i : Fin operandLimbs, ∑ j : Fin operandLimbs,
        if i.val + j.val ≤ diagonal then term i j else 0 :=
  sum_of_mem_iff operandLimbs diagonal term _ (nodup_pairsThrough diagonal)
    fun _ => mem_pairsThrough

/-- The indices of two limbs lie on a diagonal. -/
theorem add_le_lastDiagonal (i j : Fin operandLimbs) : i.val + j.val ≤ lastDiagonal := by
  have hi : i.val < operandLimbs := i.isLt
  have hj : j.val < operandLimbs := j.isLt
  simp only [operandLimbs, lastDiagonal, diagonalCount, productLimbs] at *
  omega

/-- The diagonals up to the last one hold all indices. -/
theorem sum_pairsThrough_last (term : Nat → Nat → Nat) :
    ((pairsThrough lastDiagonal).map fun pair => term pair.i pair.j).sum =
      ∑ i : Fin operandLimbs, ∑ j : Fin operandLimbs, term i j := by
  rw [sum_pairsThrough]
  refine Finset.sum_congr rfl fun i _ => Finset.sum_congr rfl fun j _ => if_pos ?_
  exact add_le_lastDiagonal i j

namespace Sample

/-- The pairs of the diagonals up to one of them, all of the same factors, by their indices. -/
theorem total_all_through (operands : Operands) (diagonal : Nat) :
    total (all operands (pairsThrough diagonal)) =
      ∑ i : Fin operandLimbs, ∑ j : Fin operandLimbs,
        if i.val + j.val ≤ diagonal then
          (operands.a.get i).toNat * (operands.b.get j).toNat * Limb.base ^ (i.val + j.val)
        else 0 := by
  have hterms : (all operands (pairsThrough diagonal)).map term =
      (pairsThrough diagonal).map fun pair =>
        operands.limbProduct ⟨pair.i, pair.j⟩ * Limb.base ^ (pair.i + pair.j) := by
    simp [all, Function.comp_def, term, IndexPair.place]
  rw [total, hterms,
    sum_pairsThrough fun i j => operands.limbProduct ⟨i, j⟩ * Limb.base ^ (i + j)]
  refine Finset.sum_congr rfl fun i _ => Finset.sum_congr rfl fun j _ => ?_
  rw [Operands.limbProduct_mk]

/-- All pairs of the same factors add up to the product of the factors. -/
theorem total_all_pairs (operands : Operands) :
    total (all operands (pairsThrough lastDiagonal)) = operands.a.value * operands.b.value := by
  rw [total_all_through, Operands.value_mul_value]
  refine Finset.sum_congr rfl fun i _ => Finset.sum_congr rfl fun j _ => if_pos ?_
  exact add_le_lastDiagonal i j

/-- Pairs behind a place add a multiple of it. -/
theorem dvd_total_all (operands : Operands) {pairs : List IndexPair} {place : Nat}
    (h : ∀ pair ∈ pairs, place ≤ pair.i + pair.j) :
    Limb.base ^ place ∣ total (all operands pairs) := by
  apply List.dvd_sum
  intro summand hsummand
  obtain ⟨sample, hsample, rfl⟩ := List.mem_map.mp hsummand
  obtain ⟨pair, hpair, rfl⟩ := List.mem_map.mp hsample
  exact Dvd.dvd.mul_left (pow_dvd_pow _ (h pair hpair)) _

end Sample

/-- The factors with the largest limbs. -/
def Operands.largest : Operands :=
  ⟨Vector.replicate operandLimbs (UInt64.ofNat (Limb.base - 1)),
    Vector.replicate operandLimbs (UInt64.ofNat (Limb.base - 1))⟩

/-- No factors add more than the largest ones. -/
theorem ceiling_all_pairs :
    ceiling (pairsThrough lastDiagonal) = Operands.largest.a.value * Operands.largest.b.value := by
  have hlimbs : ∀ i j : Fin operandLimbs, (Limb.base - 1) * (Limb.base - 1) =
      (Operands.largest.a.get i).toNat * (Operands.largest.b.get j).toNat := by
    intro i j
    simp [Operands.largest, Vector.get]
  rw [ceiling, Operands.value_mul_value]
  simp only [IndexPair.place]
  rw [sum_pairsThrough_last fun i j => (Limb.base - 1) * (Limb.base - 1) * Limb.base ^ (i + j)]
  refine Finset.sum_congr rfl fun i _ => Finset.sum_congr rfl fun j _ => ?_
  rw [← hlimbs i j]

/-- All pairs together add less than the limbs of a product can write. -/
theorem ceiling_all_lt : ceiling (pairsThrough lastDiagonal) < Limb.base ^ productLimbs := by
  rw [ceiling_all_pairs, productLimbs, Nat.mul_two, pow_add]
  exact Nat.mul_lt_mul'' Operands.largest.a.value_lt Operands.largest.b.value_lt

end WideMultiplier
