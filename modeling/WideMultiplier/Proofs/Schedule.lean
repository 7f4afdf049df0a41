import Mathlib.Data.List.Nodup
import WideMultiplier.Cursor

/-!
# What a cursor issues

The pairs that a cursor still owes are a list, `Cursor.unissued`, and a batch takes its pairs from
the front of that list: `Cursor.pairs_append_unissued`. The diagonals up to one of them, in the
order in which they are issued, are `pairsThrough`. Every pair of indices stands there once, as
`mem_pairsThrough` and `nodup_pairsThrough` say.
-/

namespace WideMultiplier

namespace Cursor

/-- The pairs of the current diagonal that are not yet issued, in the order in which they will be.
-/
def unissued (cursor : Cursor) : List IndexPair :=
  (List.range' cursor.next cursor.remaining).map fun i => ⟨i, cursor.diagonal - i⟩

@[simp] theorem length_unissued (cursor : Cursor) :
    cursor.unissued.length = cursor.remaining := by
  simp [unissued]

/-- A cursor owes no pair exactly on an exhausted diagonal. -/
theorem unissued_eq_nil_iff (cursor : Cursor) :
    cursor.unissued = [] ↔ cursor.exhausted = true := by
  rw [← List.length_eq_zero_iff, length_unissued, exhausted, decide_eq_true_iff, remaining]
  omega

/-- The pairs that a cursor owes lie on its diagonal, within both factors. -/
theorem mem_unissued {cursor : Cursor} {pair : IndexPair} (h : pair ∈ cursor.unissued) :
    cursor.next ≤ pair.i ∧ pair.i < operandLimbs ∧ pair.i + pair.j = cursor.diagonal := by
  obtain ⟨i, hi, rfl⟩ := List.mem_map.mp h
  simp only [List.mem_range'_1, remaining, last, lastOf] at hi
  refine ⟨hi.1, ?_, ?_⟩ <;> simp only [operandLimbs] at * <;> omega

/-! ## Batches -/

variable {cursor following : Cursor} {width : Nat} {batch : Batch}

/-- There is no batch exactly on an exhausted diagonal. -/
theorem nextBatch_eq_none_iff : cursor.nextBatch width = none ↔ cursor.exhausted = true := by
  unfold nextBatch
  split <;> simp_all

/-- A batch takes its pairs from the front of what the cursor owes. -/
theorem pairs_append_unissued (h : cursor.nextBatch width = some (batch, following)) :
    batch.pairs ++ following.unissued = cursor.unissued := by
  unfold nextBatch at h
  split at h
  · exact absurd h (by simp)
  · simp only [Option.some.injEq, Prod.mk.injEq] at h
    obtain ⟨rfl, rfl⟩ := h
    have hsplit : min cursor.remaining width + (cursor.remaining - min cursor.remaining width) =
        cursor.remaining := by omega
    have hrest : (Cursor.mk cursor.diagonal (cursor.next + min cursor.remaining width)).remaining =
        cursor.remaining - min cursor.remaining width := by
      simp only [remaining, last]
      omega
    simp only [unissued, hrest]
    rw [← List.map_append, List.range'_append_1, hsplit]

/-- A batch lies on the diagonal of the cursor, which does not move. -/
theorem nextBatch_diagonal (h : cursor.nextBatch width = some (batch, following)) :
    batch.diagonal = cursor.diagonal ∧ following.diagonal = cursor.diagonal := by
  unfold nextBatch at h
  split at h
  · exact absurd h (by simp)
  · simp only [Option.some.injEq, Prod.mk.injEq] at h
    obtain ⟨rfl, rfl⟩ := h
    exact ⟨rfl, rfl⟩

/-- A batch that may hold a pair does hold one. -/
theorem remaining_lt_of_nextBatch (hwidth : 0 < width)
    (h : cursor.nextBatch width = some (batch, following)) :
    following.remaining < cursor.remaining := by
  unfold nextBatch at h
  split at h
  · exact absurd h (by simp)
  · next hexhausted =>
      simp only [Option.some.injEq, Prod.mk.injEq] at h
      obtain ⟨-, rfl⟩ := h
      simp only [exhausted, decide_eq_true_eq] at hexhausted
      simp only [remaining, last] at *
      omega

/-! ## Diagonals -/

/-- The pairs of a diagonal, in the order in which they are issued. -/
def pairsOf (diagonal : Nat) : List IndexPair :=
  (startOf diagonal).unissued

/-- A diagonal holds the pairs of both factors whose indices have its sum. -/
theorem mem_pairsOf {diagonal : Nat} {pair : IndexPair} :
    pair ∈ pairsOf diagonal ↔
      pair.i < operandLimbs ∧ pair.j < operandLimbs ∧ pair.i + pair.j = diagonal := by
  constructor
  · intro h
    obtain ⟨hfirst, hi, hsum⟩ := mem_unissued h
    simp only [startOf, firstOf, operandLimbs] at *
    omega
  · rintro ⟨hi, hj, rfl⟩
    refine List.mem_map.mpr ⟨pair.i, ?_, ?_⟩
    · simp only [List.mem_range'_1, remaining, last, lastOf, startOf, firstOf, operandLimbs] at *
      omega
    · simp [startOf]

/-- No pair stands twice on a diagonal. -/
theorem nodup_pairsOf (diagonal : Nat) : (pairsOf diagonal).Nodup := by
  refine List.Nodup.map ?_ List.nodup_range'
  intro i j h
  exact (IndexPair.mk.inj h).1

/-- No diagonal has more pairs than a factor has limbs. -/
theorem length_pairsOf_le (diagonal : Nat) : (pairsOf diagonal).length ≤ operandLimbs := by
  simp only [pairsOf, length_unissued, remaining, last, lastOf, startOf, firstOf, operandLimbs]
  omega

end Cursor

/-- The pairs of all diagonals up to one of them, in the order in which they are issued. -/
def pairsThrough (diagonal : Nat) : List IndexPair :=
  (List.range (diagonal + 1)).flatMap Cursor.pairsOf

/-- The pairs of one more diagonal come behind those of the diagonals before it. -/
theorem pairsThrough_succ (diagonal : Nat) :
    pairsThrough (diagonal + 1) = pairsThrough diagonal ++ Cursor.pairsOf (diagonal + 1) := by
  rw [pairsThrough, List.range_succ, List.flatMap_append]
  simp [pairsThrough]

/-- The diagonals up to a later one add only pairs behind the earlier one. -/
theorem pairsThrough_of_le {diagonal later : Nat} (h : diagonal ≤ later) :
    ∃ rest, pairsThrough later = pairsThrough diagonal ++ rest ∧
      ∀ pair ∈ rest, diagonal < pair.i + pair.j := by
  induction h with
  | refl => exact ⟨[], by simp, by simp⟩
  | @step later hle ih =>
      obtain ⟨rest, hrest, hbehind⟩ := ih
      refine ⟨rest ++ Cursor.pairsOf (later + 1), ?_, ?_⟩
      · rw [pairsThrough_succ, hrest, List.append_assoc]
      · intro pair hpair
        rcases List.mem_append.mp hpair with hpair | hpair
        · exact hbehind pair hpair
        · have hsum := (Cursor.mem_pairsOf.mp hpair).2.2
          rw [Nat.le_eq] at hle
          omega

/-- The diagonals up to one of them hold the pairs whose indices have at most its sum. -/
theorem mem_pairsThrough {diagonal : Nat} {pair : IndexPair} :
    pair ∈ pairsThrough diagonal ↔
      pair.i < operandLimbs ∧ pair.j < operandLimbs ∧ pair.i + pair.j ≤ diagonal := by
  simp only [pairsThrough, List.mem_flatMap, List.mem_range, Cursor.mem_pairsOf]
  constructor
  · rintro ⟨sum, hsum, hi, hj, rfl⟩
    exact ⟨hi, hj, by omega⟩
  · rintro ⟨hi, hj, hsum⟩
    exact ⟨pair.i + pair.j, by omega, hi, hj, rfl⟩

/-- No pair is issued twice. -/
theorem nodup_pairsThrough (diagonal : Nat) : (pairsThrough diagonal).Nodup := by
  refine List.nodup_flatMap.mpr ⟨fun sum _ => Cursor.nodup_pairsOf sum, ?_⟩
  refine List.nodup_range.imp ?_
  intro left right hne pair hleft hright
  obtain ⟨-, -, hleft⟩ := Cursor.mem_pairsOf.mp hleft
  obtain ⟨-, -, hright⟩ := Cursor.mem_pairsOf.mp hright
  exact hne (hleft.symm.trans hright)

end WideMultiplier
