import Mathlib.Data.Int.Basic
import WideMultiplier.Proofs.CursorRange

/-!
# Sweeps over the diagonals

A host asks a cursor for batches of any widths and moves it on whenever it likes. Each batch is then
the next piece of its diagonal (`Cursor.NextPiece`), whatever was asked before. A host that moves on
only from exhausted diagonals loses nothing: what was issued and what is still ahead are always the
same pairs (`Cursor.InRange.issued_append_ahead`). So a sweep to the last diagonal issues every pair
once and in order, and a host that asks often enough gets there: `Cursor.sweeps_every_pair`.
-/

namespace WideMultiplier

/-- A request to a cursor. -/
inductive CursorCall where
  | nextBatch (width : Nat)
  | advance

/-- The order in which pairs are issued: diagonal by diagonal, and on each with ascending `i`. -/
def IndexPair.Before (left right : IndexPair) : Prop :=
  left.i + left.j < right.i + right.j ∨ left.i + left.j = right.i + right.j ∧ left.i < right.i

namespace Cursor

/-- The cursor after a request. A request that cannot be met leaves it where it is. -/
def serve (cursor : Cursor) : CursorCall → Cursor
  | .nextBatch width =>
    match cursor.nextBatch width with
    | none => cursor
    | some (_, following) => following
  | .advance => cursor.advance.getD cursor

/-- The cursor after some requests, one after the other. -/
def serveAll (cursor : Cursor) (calls : List CursorCall) : Cursor :=
  calls.foldl serve cursor

/-- The pairs that a request issues. -/
def issuedBy (cursor : Cursor) : CursorCall → List IndexPair
  | .nextBatch width =>
    match cursor.nextBatch width with
    | none => []
    | some (batch, _) => batch.pairs
  | .advance => []

/-- The pairs that some requests issue, in order. -/
def issued (cursor : Cursor) : List CursorCall → List IndexPair
  | [] => []
  | call :: rest => cursor.issuedBy call ++ (cursor.serve call).issued rest

/-- Whether a host moves on from exhausted diagonals only. -/
def Drains (cursor : Cursor) : List CursorCall → Prop
  | [] => True
  | call :: rest =>
    (call = .advance → cursor.exhausted = true) ∧ (cursor.serve call).Drains rest

/-- The requests of a host that asks for batches of these widths, and moves on whenever it gets
none. -/
def sweepCalls : List Nat → Cursor → List CursorCall
  | [], _ => []
  | width :: widths, cursor =>
    match cursor.nextBatch width with
    | some (_, following) => .nextBatch width :: sweepCalls widths following
    | none => .nextBatch width :: .advance :: sweepCalls widths (cursor.serve .advance)

/-- What a batch is to the cursor that issues it: the next pairs of its diagonal. -/
structure NextPiece (cursor : Cursor) (width : Nat) (batch : Batch) (following : Cursor) :
    Prop where
  nonempty : batch.pairs ≠ []
  length : batch.pairs.length = min width cursor.remaining
  /-- The pairs stand side by side, from the next one on. -/
  getElem : ∀ index (h : index < batch.pairs.length),
    batch.pairs[index].i = cursor.next + index ∧
      batch.pairs[index].j = cursor.diagonal - (cursor.next + index)
  within : ∀ pair ∈ batch.pairs,
    pair.i < operandLimbs ∧ pair.j < operandLimbs ∧ pair.i + pair.j = cursor.diagonal
  batch_diagonal : batch.diagonal = cursor.diagonal
  diagonal : following.diagonal = cursor.diagonal
  next : following.next = cursor.next + batch.pairs.length
  closes : batch.closesDiagonal = following.exhausted

/-! ## One request -/

variable {cursor following : Cursor} {width : Nat} {batch : Batch}

theorem serve_of_none (h : cursor.nextBatch width = none) :
    cursor.serve (.nextBatch width) = cursor := by
  simp only [serve, h]

theorem serve_of_some (h : cursor.nextBatch width = some (batch, following)) :
    cursor.serve (.nextBatch width) = following := by
  simp only [serve, h]

theorem issuedBy_of_some (h : cursor.nextBatch width = some (batch, following)) :
    cursor.issuedBy (.nextBatch width) = batch.pairs := by
  simp only [issuedBy, h]

/-- Every batch is the next piece of its diagonal. -/
theorem InRange.nextPiece (h : cursor.InRange) (hwidth : 1 ≤ width)
    (hbatch : cursor.nextBatch width = some (batch, following)) :
    NextPiece cursor width batch following := by
  have hpairs := pairs_append_unissued hbatch
  obtain ⟨hdiagonal, hsame⟩ := nextBatch_diagonal hbatch
  have hrest := remaining_lt_of_nextBatch hwidth hbatch
  have hfront : ∀ pair ∈ batch.pairs, pair ∈ cursor.unissued := by
    intro pair hpair
    rw [← hpairs]
    exact List.mem_append_left _ hpair
  unfold Cursor.nextBatch at hbatch
  split at hbatch
  · cases hbatch
  · cases hbatch
    have hlength : ((List.range' cursor.next (min cursor.remaining width)).map
        fun i => IndexPair.mk i (cursor.diagonal - i)).length = min cursor.remaining width := by
      rw [List.length_map, List.length_range']
    refine ⟨?_, hlength.trans (Nat.min_comm _ _), ?_, ?_, hdiagonal, hsame, ?_, rfl⟩
    · rw [← List.length_pos_iff, hlength]
      omega
    · intro index hindex
      simp
    · intro pair hpair
      have hunissued := hfront pair hpair
      obtain ⟨hnext, hi, hsum⟩ := mem_unissued hunissued
      refine ⟨hi, ?_, hsum⟩
      have hfirst : cursor.diagonal - (operandLimbs - 1) ≤ cursor.next := h.first_le
      omega
    · rw [hlength]

/-- Requests keep a cursor on its diagonals. -/
theorem InRange.serve (h : cursor.InRange) (call : CursorCall) : (cursor.serve call).InRange := by
  cases call with
  | nextBatch width =>
      rw [Cursor.serve]
      split
      · exact h
      · next hbatch => exact h.nextBatch hbatch
  | advance =>
      rw [Cursor.serve]
      cases hadvance : cursor.advance with
      | none => exact h
      | some following => exact h.advance hadvance

theorem InRange.serveAll (h : cursor.InRange) (calls : List CursorCall) :
    (cursor.serveAll calls).InRange := by
  induction calls generalizing cursor with
  | nil => exact h
  | cons call rest ih => exact ih (h.serve call)

/-! ## What is ahead of a cursor -/

/-- All pairs that a cursor has not issued: those of its diagonal, and of the diagonals behind. -/
def ahead (cursor : Cursor) : List IndexPair :=
  cursor.unissued ++
    (List.range' (cursor.diagonal + 1) (lastDiagonal - cursor.diagonal)).flatMap pairsOf

/-- Ahead of the start of a diagonal lie the diagonals from this one on. -/
theorem ahead_startOf (diagonal : Nat) :
    (startOf diagonal).ahead =
      (List.range' diagonal (lastDiagonal - diagonal + 1)).flatMap pairsOf := by
  rw [List.range'_succ, List.flatMap_cons]
  rfl

/-- On the last diagonal nothing is ahead. -/
theorem InRange.exhausted_of_last (h : cursor.InRange) (hlast : cursor.diagonal = lastDiagonal) :
    cursor.exhausted = true := by
  have hfirst : cursor.diagonal - (operandLimbs - 1) ≤ cursor.next := h.first_le
  have hend : cursor.last ≤ operandLimbs - 1 := Nat.min_le_right _ _
  rw [exhausted, decide_eq_true_iff]
  simp only [lastDiagonal, diagonalCount, productLimbs, operandLimbs] at *
  omega

/-- There a cursor has one place only. -/
theorem InRange.eq_of_last (h : cursor.InRange) (hlast : cursor.diagonal = lastDiagonal) :
    cursor = ⟨127, 64⟩ := by
  obtain ⟨diagonal, next⟩ := cursor
  obtain rfl : diagonal = lastDiagonal := hlast
  exact congrArg _ (Nat.le_antisymm h.next_le h.first_le)

theorem InRange.ahead_of_last (h : cursor.InRange) (hlast : cursor.diagonal = lastDiagonal) :
    cursor.ahead = [] := by
  rw [ahead, (unissued_eq_nil_iff cursor).mpr (h.exhausted_of_last hlast), hlast, Nat.sub_self]
  rfl

/-- From an exhausted diagonal a cursor moves on without losing a pair. -/
theorem InRange.ahead_advance (h : cursor.InRange) (hexhausted : cursor.exhausted = true)
    (hadvance : cursor.advance = some following) :
    following.ahead = cursor.ahead ∧ following.diagonal = cursor.diagonal + 1 ∧
      cursor.diagonal < lastDiagonal := by
  unfold Cursor.advance at hadvance
  split at hadvance
  · cases hadvance
  · next hterminal =>
      cases hadvance
      simp only [terminal, beq_iff_eq] at hterminal
      have hlt : cursor.diagonal < lastDiagonal := Nat.lt_of_le_of_ne h.diagonal_le hterminal
      refine ⟨?_, rfl, hlt⟩
      rw [ahead_startOf, ahead, (unissued_eq_nil_iff cursor).mpr hexhausted, List.nil_append,
        show lastDiagonal - (cursor.diagonal + 1) + 1 = lastDiagonal - cursor.diagonal by omega]

/-- A request issues pairs from the front of what is ahead. -/
theorem InRange.issuedBy_append_ahead (h : cursor.InRange) (call : CursorCall)
    (hdrains : call = .advance → cursor.exhausted = true) :
    cursor.issuedBy call ++ (cursor.serve call).ahead = cursor.ahead := by
  cases call with
  | nextBatch width =>
      cases hbatch : cursor.nextBatch width with
      | none =>
          rw [serve_of_none hbatch]
          simp only [issuedBy, hbatch, List.nil_append]
      | some issue =>
          obtain ⟨batch, following⟩ := issue
          rw [serve_of_some hbatch, issuedBy_of_some hbatch, ahead, ahead,
            (nextBatch_diagonal hbatch).2, ← List.append_assoc, pairs_append_unissued hbatch]
  | advance =>
      rw [issuedBy, Cursor.serve, List.nil_append]
      cases hadvance : cursor.advance with
      | none => rfl
      | some following => exact (h.ahead_advance (hdrains rfl) hadvance).1

/-- What was issued and what is ahead are the same pairs in the same order, as long as the host
drains each diagonal. -/
theorem InRange.issued_append_ahead (h : cursor.InRange) (calls : List CursorCall)
    (hdrains : cursor.Drains calls) :
    cursor.issued calls ++ (cursor.serveAll calls).ahead = cursor.ahead := by
  induction calls generalizing cursor with
  | nil => rfl
  | cons call rest ih =>
      obtain ⟨hcall, hrest⟩ := hdrains
      rw [issued, List.append_assoc]
      exact (congrArg _ (ih (h.serve call) hrest)).trans (h.issuedBy_append_ahead call hcall)

/-! ## The pairs from a diagonal on -/

/-- The pairs of a diagonal are issued in order. -/
theorem pairwise_pairsOf (diagonal : Nat) : (pairsOf diagonal).Pairwise IndexPair.Before := by
  have hascending : (List.range' (startOf diagonal).next (startOf diagonal).remaining).Pairwise
      (· < ·) := List.pairwise_lt_range'
  refine List.pairwise_map.mpr (hascending.imp_of_mem ?_)
  intro left right hleft hright hlt
  have hbound : ∀ i ∈ List.range' (startOf diagonal).next (startOf diagonal).remaining,
      i + (diagonal - i) = diagonal := by
    intro i hi
    exact (mem_unissued (List.mem_map_of_mem hi)).2.2
  exact .inr ⟨(hbound left hleft).trans (hbound right hright).symm, hlt⟩

/-- The pairs ahead of the start of a diagonal are issued in order. -/
theorem pairwise_ahead_startOf (diagonal : Nat) :
    (startOf diagonal).ahead.Pairwise IndexPair.Before := by
  have hascending : (List.range' diagonal (lastDiagonal - diagonal + 1)).Pairwise (· < ·) :=
    List.pairwise_lt_range'
  rw [ahead_startOf, List.pairwise_flatMap]
  refine ⟨fun sum _ => pairwise_pairsOf sum, hascending.imp ?_⟩
  intro left right hlt first hfirst second hsecond
  obtain ⟨-, -, hleft⟩ := mem_pairsOf.mp hfirst
  obtain ⟨-, -, hright⟩ := mem_pairsOf.mp hsecond
  exact .inl (by omega)

/-- Ahead of the start of a diagonal lie the pairs whose indices have its sum or more. -/
theorem mem_ahead_startOf {diagonal : Nat} (h : diagonal ≤ lastDiagonal) {pair : IndexPair} :
    pair ∈ (startOf diagonal).ahead ↔
      pair.i < operandLimbs ∧ pair.j < operandLimbs ∧ diagonal ≤ pair.i + pair.j := by
  rw [ahead_startOf]
  simp only [List.mem_flatMap, List.mem_range'_1, mem_pairsOf]
  constructor
  · rintro ⟨sum, hsum, hi, hj, rfl⟩
    exact ⟨hi, hj, hsum.1⟩
  · rintro ⟨hi, hj, hsum⟩
    refine ⟨pair.i + pair.j, ⟨hsum, ?_⟩, hi, hj, rfl⟩
    simp only [lastDiagonal, diagonalCount, productLimbs, operandLimbs] at *
    omega

/-- Each of these pairs lies ahead once. -/
theorem count_ahead_startOf {diagonal : Nat} (h : diagonal ≤ lastDiagonal) (pair : IndexPair) :
    (startOf diagonal).ahead.count pair =
      if pair.i < operandLimbs ∧ pair.j < operandLimbs ∧ diagonal ≤ pair.i + pair.j then 1
      else 0 := by
  have hnodup : (startOf diagonal).ahead.Nodup := by
    refine (pairwise_ahead_startOf diagonal).imp ?_
    rintro left right hbefore rfl
    rcases hbefore with hlt | ⟨-, hlt⟩ <;> exact Nat.lt_irrefl _ hlt
  split
  · next hrange => exact List.count_eq_one_of_mem hnodup ((mem_ahead_startOf h).mpr hrange)
  · next hrange => exact List.count_eq_zero.mpr fun hmem => hrange ((mem_ahead_startOf h).mp hmem)

/-- All diagonals together have a pair for each two limbs. -/
theorem length_ahead_startOf_zero :
    (startOf 0).ahead.length = operandLimbs * operandLimbs := by
  decide +kernel

/-- Some of the diagonals have no more pairs than all of them. -/
theorem length_ahead_startOf_le {diagonal : Nat} (h : diagonal ≤ lastDiagonal) :
    (startOf diagonal).ahead.length ≤ operandLimbs * operandLimbs := by
  have hsplit : (startOf 0).ahead =
      (List.range' 0 diagonal).flatMap pairsOf ++ (startOf diagonal).ahead := by
    have hranges := @List.range'_append_1 0 diagonal (lastDiagonal - diagonal + 1)
    rw [Nat.zero_add, show diagonal + (lastDiagonal - diagonal + 1) = lastDiagonal - 0 + 1 by
      omega] at hranges
    rw [ahead_startOf, ahead_startOf, ← List.flatMap_append, hranges]
  rw [← length_ahead_startOf_zero, hsplit, List.length_append]
  exact Nat.le_add_left _ _

/-! ## Sweeps -/

/-- A host that moves on only when it gets no batch drains each diagonal. -/
theorem drains_sweepCalls (widths : List Nat) (cursor : Cursor) :
    cursor.Drains (sweepCalls widths cursor) := by
  induction widths generalizing cursor with
  | nil => trivial
  | cons width widths ih =>
      rw [sweepCalls]
      cases hbatch : cursor.nextBatch width with
      | none =>
          refine ⟨nofun, ?_⟩
          rw [serve_of_none hbatch]
          exact ⟨fun _ => nextBatch_eq_none_iff.mp hbatch, ih _⟩
      | some issue =>
          refine ⟨nofun, ?_⟩
          rw [serve_of_some hbatch]
          exact ih _

/-- Each width that is asked for issues a pair or leaves a diagonal behind, so that a sweep with
enough of them comes to the last diagonal. -/
theorem InRange.diagonal_sweepCalls (h : cursor.InRange) (widths : List Nat)
    (hwidths : ∀ width ∈ widths, 1 ≤ width)
    (henough : cursor.ahead.length + (lastDiagonal - cursor.diagonal) ≤ widths.length) :
    (cursor.serveAll (sweepCalls widths cursor)).diagonal = lastDiagonal := by
  induction widths generalizing cursor with
  | nil =>
      have hle := h.diagonal_le
      rw [List.length_nil] at henough
      show cursor.diagonal = lastDiagonal
      omega
  | cons width widths ih =>
      rw [List.length_cons] at henough
      have hrest := fun other hother => hwidths other (List.mem_cons_of_mem width hother)
      have hahead := h.issuedBy_append_ahead (.nextBatch width) nofun
      rw [sweepCalls]
      cases hbatch : cursor.nextBatch width with
      | some issue =>
          obtain ⟨batch, following⟩ := issue
          have hnext := serve_of_some hbatch
          have hpiece := h.nextPiece (hwidths width List.mem_cons_self) hbatch
          have hpos := List.length_pos_iff.mpr hpiece.nonempty
          rw [issuedBy_of_some hbatch, hnext] at hahead
          have hcount := congrArg List.length hahead
          rw [List.length_append] at hcount
          have hsame := hpiece.diagonal
          show ((cursor.serve (.nextBatch width)).serveAll
            (sweepCalls widths following)).diagonal = _
          rw [hnext]
          exact ih (h.nextBatch hbatch) hrest (by omega)
      | none =>
          have hexhausted := nextBatch_eq_none_iff.mp hbatch
          show (((cursor.serve (.nextBatch width)).serve .advance).serveAll
            (sweepCalls widths (cursor.serve .advance))).diagonal = _
          rw [serve_of_none hbatch]
          refine ih (h.serve .advance) hrest ?_
          rw [Cursor.serve]
          cases hadvance : cursor.advance with
          | none =>
              -- a cursor that cannot move on is at the end
              have hlast : cursor.diagonal = lastDiagonal := by
                unfold Cursor.advance at hadvance
                split at hadvance
                · next hterminal => simpa [terminal] using hterminal
                · cases hadvance
              rw [Option.getD_none, h.ahead_of_last hlast, hlast, Nat.sub_self]
              exact Nat.zero_le _
          | some following =>
              obtain ⟨hkept, hmoved, hlt⟩ := h.ahead_advance hexhausted hadvance
              rw [Option.getD_some, hkept, hmoved]
              omega

/-- Whatever batches are asked of a cursor and however it is moved on, it stays on its diagonal,
computes with bytes only, and issues the next piece of the diagonal, or nothing where it is
exhausted. A host that drains each diagonal before it moves on and comes to the last one has got
each pair of indices from the first diagonal on exactly once, in order, and the last diagonal gives
it none. It comes there with any widths, if there is one for each pair and one for each diagonal. -/
theorem sweeps_every_pair {start : Nat} (hstart : start ≤ lastDiagonal) :
    (∀ calls : List CursorCall,
      let cursor := (startOf start).serveAll calls
      ((cursor.first : Int) = max 0 ((cursor.diagonal : Int) - 63) ∧
          cursor.last = min 63 cursor.diagonal) ∧
        (cursor.first ≤ cursor.next ∧ cursor.next ≤ cursor.last + 1) ∧
        ∀ width, 1 ≤ width →
          cursor.FitsBytes width ∧
            (cursor.nextBatch width = none ↔ cursor.exhausted = true) ∧
            (cursor.nextBatch width = none → cursor.serve (.nextBatch width) = cursor) ∧
            ∀ batch following, cursor.nextBatch width = some (batch, following) →
              NextPiece cursor width batch following) ∧
      (∀ calls : List CursorCall, (startOf start).Drains calls →
        ((startOf start).serveAll calls).diagonal = lastDiagonal →
          (∀ pair : IndexPair, ((startOf start).issued calls).count pair =
              if pair.i < operandLimbs ∧ pair.j < operandLimbs ∧ start ≤ pair.i + pair.j then 1
              else 0) ∧
            (start = 0 → ((startOf start).issued calls).length = 4096) ∧
            ((startOf start).issued calls).Pairwise IndexPair.Before ∧
            (startOf start).serveAll calls = ⟨127, 64⟩ ∧
            ((startOf start).serveAll calls).remaining = 0) ∧
      ∀ widths : List Nat, (∀ width ∈ widths, 1 ≤ width) → 4096 + 127 ≤ widths.length →
        (startOf start).Drains (sweepCalls widths (startOf start)) ∧
          ((startOf start).serveAll (sweepCalls widths (startOf start))).diagonal =
            lastDiagonal := by
  have hbegin : (startOf start).InRange := inRange_startOf hstart
  refine ⟨?_, ?_, ?_⟩
  · intro calls cursor
    have hrange : cursor.InRange := hbegin.serveAll calls
    refine ⟨⟨?_, Nat.min_comm _ _⟩, ⟨hrange.first_le, hrange.next_le⟩, ?_⟩
    · show ((cursor.diagonal - 63 : Nat) : Int) = _
      omega
    · intro width hwidth
      refine ⟨hrange.fitsBytes width, nextBatch_eq_none_iff, serve_of_none, ?_⟩
      intro batch following hbatch
      exact hrange.nextPiece hwidth hbatch
  · intro calls hdrains hlast
    have hrange := hbegin.serveAll calls
    have hissued := hbegin.issued_append_ahead calls hdrains
    rw [hrange.ahead_of_last hlast, List.append_nil] at hissued
    rw [hissued]
    have hend := hrange.eq_of_last hlast
    refine ⟨count_ahead_startOf hstart, ?_, pairwise_ahead_startOf start, hend, ?_⟩
    · rintro rfl
      exact length_ahead_startOf_zero
    · rw [hend]
      rfl
  · intro widths hwidths henough
    refine ⟨drains_sweepCalls widths _, ?_⟩
    refine hbegin.diagonal_sweepCalls widths hwidths (le_trans ?_ henough)
    exact Nat.add_le_add (length_ahead_startOf_le hstart) (Nat.sub_le _ _)

/-- Widths that change from batch to batch. -/
def changingWidths (count : Nat) : List Nat :=
  (List.range count).map (· % 64 + 1)

/-- A sweep over all diagonals with such widths gets 4096 pairs, the last one among them, and comes
to the last diagonal. -/
theorem sweeps_every_pair_changing :
    ((startOf 0).issued (sweepCalls (changingWidths 4223) (startOf 0))).length = 4096 ∧
      ((startOf 0).issued (sweepCalls (changingWidths 4223) (startOf 0))).count ⟨63, 63⟩ = 1 ∧
      (startOf 0).serveAll (sweepCalls (changingWidths 4223) (startOf 0)) = ⟨127, 64⟩ := by
  obtain ⟨-, hsweep, hcomes⟩ := sweeps_every_pair (Nat.zero_le lastDiagonal)
  have hwidths : ∀ width ∈ changingWidths 4223, 1 ≤ width := by
    intro width hwidth
    obtain ⟨number, -, rfl⟩ := List.mem_map.mp hwidth
    exact Nat.succ_pos _
  have hlength : (changingWidths 4223).length = 4096 + 127 := by
    rw [changingWidths, List.length_map, List.length_range]
  generalize changingWidths 4223 = widths at *
  obtain ⟨hdrains, hlast⟩ := hcomes widths hwidths (Nat.le_of_eq hlength.symm)
  obtain ⟨hcount, htotal, -, hend, -⟩ := hsweep _ hdrains hlast
  exact ⟨htotal rfl, (hcount ⟨63, 63⟩).trans (if_pos (by decide)), hend⟩

end Cursor

end WideMultiplier
