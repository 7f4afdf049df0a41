import WideMultiplier.Product

/-!
# The schedule of limb pairs

Diagonal `s` of the cross product holds the pairs `(i, j)` with `i + j = s`. A cursor stands on a
diagonal and remembers the next `i` to issue there; `Cursor.nextBatch` issues the following pairs,
as many as fit in a batch, and `Cursor.advance` moves to the next diagonal. Diagonals 0 to 126 have
pairs. Diagonal 127 has none: it only hands the last carry to the highest limb of the product.
-/

namespace WideMultiplier

/-- The number of diagonals, one for each limb of the product. -/
abbrev diagonalCount : Nat := productLimbs

/-- The diagonal that carries the highest limb and has no pairs. -/
abbrev lastDiagonal : Nat := diagonalCount - 1

/-- The widest batch: all pairs of the longest diagonal. -/
abbrev maxBatchWidth : Nat := operandLimbs

/-- The batch width of the default multiplier array. -/
abbrev defaultBatchWidth : Nat := 25

/-- A limb of A and a limb of B that are to be multiplied, by their indices. -/
structure IndexPair where
  i : Nat
  j : Nat
deriving DecidableEq

/-- The pairs that are issued together, and whether they are the last of their diagonal. -/
structure Batch where
  diagonal : Nat
  pairs : List IndexPair
  closesDiagonal : Bool
deriving DecidableEq

/-- A place in the schedule: a diagonal, and the next `i` to issue on it. -/
structure Cursor where
  diagonal : Nat
  next : Nat
deriving DecidableEq

namespace Cursor

/-- The smallest `i` on a diagonal. -/
def firstOf (diagonal : Nat) : Nat :=
  diagonal - (operandLimbs - 1)

/-- The largest `i` on a diagonal. -/
def lastOf (diagonal : Nat) : Nat :=
  min diagonal (operandLimbs - 1)

/-- The start of a diagonal. -/
def startOf (diagonal : Nat) : Cursor :=
  ⟨diagonal, firstOf diagonal⟩

/-- The smallest `i` on the current diagonal. -/
def first (cursor : Cursor) : Nat :=
  firstOf cursor.diagonal

/-- The largest `i` on the current diagonal. -/
def last (cursor : Cursor) : Nat :=
  lastOf cursor.diagonal

/-- The number of pairs on the current diagonal. -/
def pairCount (cursor : Cursor) : Nat :=
  cursor.last + 1 - cursor.first

/-- The number of pairs of the current diagonal that are not yet issued. -/
def remaining (cursor : Cursor) : Nat :=
  cursor.last + 1 - cursor.next

/-- Whether every pair of the current diagonal is issued. -/
def exhausted (cursor : Cursor) : Bool :=
  cursor.last < cursor.next

/-- Whether the current diagonal is the last one. -/
def terminal (cursor : Cursor) : Bool :=
  cursor.diagonal == lastDiagonal

/-- Issues the next pairs of the current diagonal, at most `width` of them, in ascending order of
`i`. There is no batch on an exhausted diagonal. -/
def nextBatch (cursor : Cursor) (width : Nat) : Option (Batch × Cursor) :=
  if cursor.exhausted then none
  else
    let count := min cursor.remaining width
    let following : Cursor := { cursor with next := cursor.next + count }
    let pairs := (List.range' cursor.next count).map fun i => ⟨i, cursor.diagonal - i⟩
    some (⟨cursor.diagonal, pairs, following.exhausted⟩, following)

/-- The start of the next diagonal, unless the current one is the last. -/
def advance (cursor : Cursor) : Option Cursor :=
  if cursor.terminal then none else some (startOf (cursor.diagonal + 1))

/-- Issues the pairs that are left on the current diagonal, in at most so many batches. -/
def drainWithin (width : Nat) : Nat → Cursor → List Batch × Cursor
  | 0, cursor => ([], cursor)
  | budget + 1, cursor =>
    match cursor.nextBatch width with
    | none => ([], cursor)
    | some (batch, following) =>
      let (rest, last) := drainWithin width budget following
      (batch :: rest, last)

/-- Issues all pairs that are left on the current diagonal. -/
def drain (cursor : Cursor) (width : Nat) : List Batch × Cursor :=
  drainWithin width cursor.remaining cursor

/-- Issues all pairs that are left, one diagonal after the other, on at most so many diagonals. -/
def sweepWithin (width : Nat) : Nat → Cursor → List (List Batch) × Cursor
  | 0, cursor => ([], cursor)
  | budget + 1, cursor =>
    let (batches, exhausted) := cursor.drain width
    match exhausted.advance with
    | none => ([batches], exhausted)
    | some following =>
      let (rest, last) := sweepWithin width budget following
      (batches :: rest, last)

/-- Issues all pairs that are left. The batches of each diagonal stand together. -/
def sweep (cursor : Cursor) (width : Nat) : List (List Batch) × Cursor :=
  sweepWithin width diagonalCount cursor

end Cursor

end WideMultiplier
