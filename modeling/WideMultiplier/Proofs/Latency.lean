import Mathlib.Algebra.BigOperators.Intervals
import Mathlib.Data.Finset.Lattice.Fold
import Mathlib.Data.Nat.Log
import Mathlib.Order.Interval.Finset.Nat
import Mathlib.Order.Lattice.Nat
import WideMultiplier.Proofs.Schedule
import WideMultiplier.Shape

/-!
# The cycles of a run, from the shape alone

A diagonal issues a batch in each cycle until its pairs run out. The batches overlap: each passes
the stages, waits for as long as its adder tree takes, and the diagonal closes with the last of
them. `Shape.diagonalCycles` is the cycle in which that is, counted from the issue of the first
batch, and `Shape.runCycles` adds these up. `Shape.remainingCycles_of_pos` takes the first batch
off, which is how a pipeline arrives at the same number.
-/

namespace WideMultiplier

open scoped BigOperators

/-- The cycles that a batch spends in the registers between the stages. -/
def StageModel.depth : StageModel → Nat
  | .combinational => 0
  | .staged => 3

/-- The cycles that a partial sum of `count` products waits for its adder tree: one less than the
levels of a binary tree with so many leaves, at most `maxDelay` and at most the cap. -/
def Retirement.wait : Retirement → Nat → Nat
  | .immediate, _ => 0
  | .delayed cap, count => min cap (min (Nat.clog 2 count - 1) maxDelay)

/-- The highest bit of the number before `count` tells the levels of its tree. -/
theorem treeDepth_eq_clog (count : Nat) :
    treeDepth count = min (Nat.clog 2 count - 1) maxDelay := by
  unfold treeDepth
  split
  · next hsmall =>
      have hclog : Nat.clog 2 count ≤ 1 :=
        (Nat.clog_le_iff_le_pow (by decide)).mpr (by simpa using hsmall)
      rw [Nat.sub_eq_zero_of_le hclog, Nat.zero_min]
  · next hlarge =>
      -- `count - 1` fits into as many bits as it takes levels to reach `count`
      have hlevels : (count - 1).log2 + 1 = Nat.clog 2 count := by
        refine eq_of_forall_ge_iff fun levels => ?_
        rw [Nat.log2_eq_log_two, Nat.succ_le_iff, Nat.log_lt_iff_lt_pow (by decide) (by omega),
          Nat.clog_le_iff_le_pow (by decide)]
        omega
      rw [← hlevels, Nat.add_sub_cancel]

/-- A partial sum waits as long as its adder tree takes. -/
theorem Retirement.delay_eq_wait (retirement : Retirement) (count : Nat) :
    retirement.delay count = retirement.wait count := by
  cases retirement with
  | immediate => rfl
  | delayed cap => rw [delay, wait, treeDepth_eq_clog, Nat.min_comm]

namespace Shape

variable (shape : Shape)

/-- The number of batches that so many pairs of a diagonal make. -/
def batchCount (pairs : Nat) : Nat :=
  (pairs + shape.width - 1) / shape.width

/-- The number of pairs in one of these batches, counted from 1. All but the last are full. -/
def batchSize (pairs batch : Nat) : Nat :=
  if batch < shape.batchCount pairs then shape.width
  else pairs - (shape.batchCount pairs - 1) * shape.width

/-- The cycles until the last of these batches is folded in, if none had to pass any registers. -/
def longestWait (pairs : Nat) : Nat :=
  (Finset.Icc 1 (shape.batchCount pairs)).sup fun batch =>
    batch + shape.retirement.wait (shape.batchSize pairs batch)

/-- The cycles that a diagonal of so many pairs takes. -/
def diagonalCycles (pairs : Nat) : Nat :=
  shape.stages.depth + shape.longestWait pairs

/-- The cycles of a run: those of the diagonals that hold pairs, and one for the last diagonal. -/
def runCycles : Nat :=
  1 + ∑ diagonal ∈ Finset.range lastDiagonal,
    shape.diagonalCycles (min diagonal (lastDiagonal - 1 - diagonal) + 1)

variable {shape}

/-- Without pairs there are no batches. -/
theorem batchCount_zero (hwidth : 0 < shape.width) : shape.batchCount 0 = 0 :=
  Nat.div_eq_of_lt (by omega)

/-- A batch more than the pairs behind the first batch make. -/
theorem batchCount_of_pos (hwidth : 0 < shape.width) {pairs : Nat} (hpairs : 0 < pairs) :
    shape.batchCount pairs = shape.batchCount (pairs - shape.width) + 1 := by
  unfold batchCount
  by_cases hlast : pairs ≤ shape.width
  · rw [Nat.sub_eq_zero_of_le hlast, Nat.div_eq_of_lt (by omega : 0 + shape.width - 1 < _)]
    exact Nat.div_eq_of_lt_le (by omega) (by omega)
  · rw [← Nat.add_div_right _ hwidth]
    congr 1
    omega

/-- The first batch takes what fits in it. -/
theorem batchSize_one (hwidth : 0 < shape.width) {pairs : Nat} (hpairs : 0 < pairs) :
    shape.batchSize pairs 1 = min pairs shape.width := by
  have hcount := batchCount_of_pos hwidth hpairs
  by_cases hlast : pairs ≤ shape.width
  · rw [Nat.sub_eq_zero_of_le hlast, batchCount_zero hwidth] at hcount
    simp [batchSize, hcount, hlast]
  · have hmore := batchCount_of_pos hwidth (show 0 < pairs - shape.width by omega)
    rw [batchSize, if_pos (by omega)]
    omega

/-- The batches behind the first are those of the pairs behind it. -/
theorem batchSize_succ (hwidth : 0 < shape.width) {pairs batch : Nat} (hpairs : 0 < pairs)
    (hfirst : 1 ≤ batch) (hbatch : batch ≤ shape.batchCount (pairs - shape.width)) :
    shape.batchSize pairs (batch + 1) = shape.batchSize (pairs - shape.width) batch := by
  have hcount := batchCount_of_pos hwidth hpairs
  unfold batchSize
  rw [hcount]
  by_cases hlast : batch < shape.batchCount (pairs - shape.width)
  · rw [if_pos (by omega), if_pos hlast]
  · obtain ⟨before, hbefore⟩ :=
      Nat.exists_eq_add_of_le' (hfirst.trans hbatch)
    rw [if_neg (by omega), if_neg hlast, hbefore, Nat.add_sub_cancel, Nat.add_sub_cancel,
      Nat.sub_sub, Nat.succ_mul, Nat.add_comm shape.width]

/-- Without pairs there is nothing to wait for. -/
theorem longestWait_zero (hwidth : 0 < shape.width) : shape.longestWait 0 = 0 := by
  rw [longestWait, batchCount_zero hwidth]
  rfl

/-- The last of the batches is the first one, or the last of those that are issued behind it. -/
theorem longestWait_of_pos (hwidth : 0 < shape.width) {pairs : Nat} (hpairs : 0 < pairs) :
    shape.longestWait pairs =
      1 + max (shape.retirement.wait (min pairs shape.width))
        (shape.longestWait (pairs - shape.width)) := by
  refine eq_of_forall_ge_iff fun limit => ?_
  have hcount := batchCount_of_pos hwidth hpairs
  have hone := batchSize_one hwidth hpairs
  rw [longestWait, Finset.sup_le_iff, hcount]
  constructor
  · intro hall
    have hhead := hall 1 (Finset.mem_Icc.mpr ⟨Nat.le_refl 1, by omega⟩)
    rw [hone] at hhead
    have htail : shape.longestWait (pairs - shape.width) ≤ limit - 1 := by
      rw [longestWait, Finset.sup_le_iff]
      intro batch hbatch
      obtain ⟨hfirst, hlast⟩ := Finset.mem_Icc.mp hbatch
      have hnext := hall (batch + 1) (Finset.mem_Icc.mpr ⟨by omega, by omega⟩)
      rw [batchSize_succ hwidth hpairs hfirst hlast] at hnext
      omega
    omega
  · intro hlimit batch hbatch
    obtain ⟨hfirst, hlast⟩ := Finset.mem_Icc.mp hbatch
    rcases Nat.eq_or_lt_of_le hfirst with rfl | hmore
    · rw [hone]
      omega
    · -- a later batch is one of those behind the first
      obtain ⟨before, rfl⟩ := Nat.exists_eq_add_of_lt hmore
      have hrest : 1 + before ≤ shape.batchCount (pairs - shape.width) := by omega
      have hle : 1 + before + shape.retirement.wait
          (shape.batchSize (pairs - shape.width) (1 + before)) ≤
            shape.longestWait (pairs - shape.width) :=
        Finset.le_sup (f := fun batch => batch + shape.retirement.wait
          (shape.batchSize (pairs - shape.width) batch))
          (Finset.mem_Icc.mpr ⟨by omega, hrest⟩)
      rw [batchSize_succ hwidth hpairs (by omega) hrest]
      omega

/-- A diagonal that holds pairs takes a cycle at least. -/
theorem diagonalCycles_pos (hwidth : 0 < shape.width) {pairs : Nat} (hpairs : 0 < pairs) :
    0 < shape.diagonalCycles pairs := by
  rw [diagonalCycles, longestWait_of_pos hwidth hpairs]
  omega

variable (shape)

/-- The cycles until a diagonal can close on which so many pairs are not yet issued. -/
def remainingCycles (pairs : Nat) : Nat :=
  if pairs = 0 then 0 else shape.diagonalCycles pairs

@[simp] theorem remainingCycles_zero : shape.remainingCycles 0 = 0 :=
  if_pos rfl

variable {shape}

/-- The next batch is folded in when it has passed the stages and has waited, and the batches behind
it are a cycle later. -/
theorem remainingCycles_of_pos (hwidth : 0 < shape.width) {pairs : Nat} (hpairs : 0 < pairs) :
    shape.remainingCycles pairs =
      1 + max (shape.retirement.delay (min pairs shape.width) + shape.stages.depth)
        (shape.remainingCycles (pairs - shape.width)) := by
  have hzero := longestWait_zero hwidth
  rw [remainingCycles, if_neg (by omega), diagonalCycles, longestWait_of_pos hwidth hpairs,
    Retirement.delay_eq_wait, remainingCycles]
  split
  · next hlast =>
      rw [hlast, hzero]
      omega
  · rw [diagonalCycles]
    omega

end Shape

namespace Cursor

/-- The pairs of a diagonal grow in number to the middle one and then get fewer. -/
theorem length_pairsOf {diagonal : Nat} (h : diagonal < lastDiagonal) :
    (pairsOf diagonal).length = min diagonal (lastDiagonal - 1 - diagonal) + 1 := by
  simp only [pairsOf, length_unissued, remaining, last, lastOf, startOf, firstOf, lastDiagonal,
    diagonalCount, productLimbs, operandLimbs] at *
  omega

end Cursor

namespace Shape

variable (shape : Shape)

/-- The cycles of the diagonals behind one of them, each at least one. -/
def cyclesBehind (diagonal : Nat) : Nat :=
  ∑ later ∈ Finset.Ico (diagonal + 1) diagonalCount,
    max 1 (shape.remainingCycles (Cursor.pairsOf later).length)

/-- Nothing comes behind the last diagonal. -/
theorem cyclesBehind_last : shape.cyclesBehind lastDiagonal = 0 := by
  rw [cyclesBehind, Finset.Ico_eq_empty (by decide), Finset.sum_empty]

/-- What comes behind a diagonal begins with the next one. -/
theorem cyclesBehind_of_lt {diagonal : Nat} (h : diagonal + 1 < diagonalCount) :
    shape.cyclesBehind diagonal =
      max 1 (shape.remainingCycles (Cursor.pairsOf (diagonal + 1)).length) +
        shape.cyclesBehind (diagonal + 1) :=
  Finset.sum_eq_sum_Ico_succ_bot h _

variable {shape}

/-- A run takes the cycles of its first diagonal and those behind it. -/
theorem runCycles_eq (hwidth : 0 < shape.width) :
    shape.runCycles =
      max 1 (shape.remainingCycles (Cursor.pairsOf 0).length) + shape.cyclesBehind 0 := by
  have hsplit : diagonalCount = lastDiagonal + 1 := rfl
  have hlast : (Cursor.pairsOf lastDiagonal).length = 0 := rfl
  have hpairs : ∀ diagonal ∈ Finset.range lastDiagonal,
      max 1 (shape.remainingCycles (Cursor.pairsOf diagonal).length) =
        shape.diagonalCycles (min diagonal (lastDiagonal - 1 - diagonal) + 1) := by
    intro diagonal hdiagonal
    rw [Cursor.length_pairsOf (Finset.mem_range.mp hdiagonal), remainingCycles,
      if_neg (Nat.succ_ne_zero _)]
    exact Nat.max_eq_right (diagonalCycles_pos hwidth (Nat.succ_pos _))
  have hall : ∑ diagonal ∈ Finset.range diagonalCount,
        max 1 (shape.remainingCycles (Cursor.pairsOf diagonal).length) =
      max 1 (shape.remainingCycles (Cursor.pairsOf 0).length) + shape.cyclesBehind 0 := by
    rw [Finset.range_eq_Ico]
    exact Finset.sum_eq_sum_Ico_succ_bot (show 0 < diagonalCount by decide) _
  -- the last diagonal holds no pairs and takes the one cycle
  rw [← hall, hsplit, Finset.sum_range_succ, hlast, remainingCycles_zero,
    Finset.sum_congr rfl hpairs, runCycles, Nat.add_comm]
  rfl

end Shape

end WideMultiplier
