import WideMultiplier.Proofs.Schedule

/-!
# Cursors stay on their diagonals

A cursor that starts on a diagonal stands at one of its pairs or behind the last of them, whatever
batches it issues (`Cursor.InRange`). Its place, and everything that is computed from it, then fits
in the bytes of a hardware register: `Cursor.InRange.fitsBytes`.
-/

namespace WideMultiplier

/-- The largest number that a byte holds. -/
abbrev byteLimit : Nat := UInt8.size - 1

namespace Cursor

/-- A cursor that stands at one of the pairs of a diagonal, or behind the last of them. -/
structure InRange (cursor : Cursor) : Prop where
  diagonal_le : cursor.diagonal ≤ lastDiagonal
  first_le : cursor.first ≤ cursor.next
  next_le : cursor.next ≤ cursor.last + 1

/-- Whether what a cursor computes fits in bytes: no sum is more than a byte holds, and nothing is
taken from less. -/
structure FitsBytes (cursor : Cursor) (width : Nat) : Prop where
  /-- The pairs of the diagonal are counted from its first to its last. -/
  first_le : cursor.first ≤ cursor.last + 1
  /-- The remaining pairs are counted from the next to the last. -/
  next_le : cursor.next ≤ cursor.last + 1
  /-- The size of a batch is a byte. -/
  count : min cursor.remaining width ≤ byteLimit
  /-- The next index moves by the size of a batch. -/
  moved : cursor.next + min cursor.remaining width ≤ byteLimit
  /-- The second index of a pair is the diagonal less the first. -/
  pair : ∀ i ∈ List.range' cursor.next (min cursor.remaining width), i ≤ cursor.diagonal
  /-- The next diagonal is one more. -/
  diagonal : cursor.diagonal + 1 ≤ byteLimit

/-- The start of a diagonal lies on it. -/
theorem inRange_startOf {diagonal : Nat} (h : diagonal ≤ lastDiagonal) :
    (startOf diagonal).InRange := by
  refine ⟨h, Nat.le_refl _, ?_⟩
  show firstOf diagonal ≤ lastOf diagonal + 1
  simp only [firstOf, lastOf, lastDiagonal, diagonalCount, productLimbs, operandLimbs] at *
  omega

namespace InRange

variable {cursor following : Cursor} {width : Nat} {batch : Batch}

/-- Issuing a batch stays on the diagonal. -/
theorem nextBatch (h : cursor.InRange) (hbatch : cursor.nextBatch width = some (batch, following)) :
    following.InRange := by
  have hfirst := h.first_le
  unfold Cursor.nextBatch at hbatch
  split at hbatch
  · cases hbatch
  · next hexhausted =>
      cases hbatch
      simp only [exhausted, decide_eq_true_eq] at hexhausted
      refine ⟨h.diagonal_le, ?_, ?_⟩
      · show cursor.first ≤ cursor.next + min cursor.remaining width
        omega
      · show cursor.next + min cursor.remaining width ≤ cursor.last + 1
        rw [remaining]
        omega

/-- The next diagonal is entered at its start. -/
theorem advance (h : cursor.InRange) (hadvance : cursor.advance = some following) :
    following.InRange := by
  unfold Cursor.advance at hadvance
  split at hadvance
  · cases hadvance
  · next hterminal =>
      cases hadvance
      have hle := h.diagonal_le
      simp only [terminal, beq_iff_eq] at hterminal
      exact inRange_startOf (by omega)

/-- On its diagonal a cursor computes with bytes only. -/
theorem fitsBytes (h : cursor.InRange) (width : Nat) : cursor.FitsBytes width := by
  obtain ⟨hdiagonal, hfirst, hnext⟩ := h
  have hlast : cursor.last < operandLimbs := Nat.lt_succ_of_le (Nat.min_le_right _ _)
  have hbelow : cursor.last ≤ cursor.diagonal := Nat.min_le_left _ _
  have hcount : min cursor.remaining width ≤ cursor.last + 1 - cursor.next := Nat.min_le_left _ _
  have hbyte : operandLimbs ≤ byteLimit := by decide
  refine ⟨by omega, hnext, by omega, by omega, ?_, ?_⟩
  · intro i hi
    rw [List.mem_range'_1] at hi
    omega
  · exact Nat.le_trans (Nat.succ_le_succ hdiagonal) (by decide)

end InRange

end Cursor

end WideMultiplier
