import WideMultiplier.Proofs.Pipeline.Closing
import WideMultiplier.Proofs.Pipeline.CycleCount
import WideMultiplier.Proofs.Pipeline.Flow
import WideMultiplier.Proofs.Pipeline.Lockstep

/-!
# What a run reports about its diagonals

A run reports one diagonal after the other, and does not come back to a diagonal that it has closed.
What it reports about a diagonal is a block (`Event.Block`): the batches are issued in order, each
retires once and not before it was issued, and the limb of the product comes last. The invariant
`Pipeline.Underway` holds of the block that is not yet complete; `Pipeline.Underway.moved` is its
step, and `Engine.narrated_after` carries it over a run.
-/

namespace WideMultiplier

/-! ## The batches of a diagonal -/

namespace Shape

/-- The sizes of the batches that so many pairs of a diagonal make: full ones, and what is left. -/
def batchSizes (shape : Shape) (pairs : Nat) : List Nat :=
  List.replicate (pairs / shape.width) shape.width ++
    if pairs % shape.width = 0 then [] else [pairs % shape.width]

variable {shape : Shape}

/-- Without pairs there are no batches. -/
theorem batchSizes_zero : shape.batchSizes 0 = [] := by
  simp [batchSizes]

/-- The first batch takes what fits in it, and the others what is behind it. -/
theorem batchSizes_of_pos (hwidth : 0 < shape.width) {pairs : Nat} (hpairs : 0 < pairs) :
    shape.batchSizes pairs =
      min pairs shape.width :: shape.batchSizes (pairs - shape.width) := by
  by_cases hfull : shape.width ≤ pairs
  · have hcount : pairs / shape.width = (pairs - shape.width) / shape.width + 1 :=
      Nat.div_eq_sub_div hwidth hfull
    have hrest : pairs % shape.width = (pairs - shape.width) % shape.width :=
      Nat.mod_eq_sub_mod hfull
    rw [Nat.min_eq_right hfull, batchSizes, hcount, hrest, List.replicate_succ]
    rfl
  · have hless : pairs < shape.width := Nat.lt_of_not_le hfull
    rw [Nat.min_eq_left (Nat.le_of_lt hless), Nat.sub_eq_zero_of_le (Nat.le_of_lt hless),
      batchSizes_zero, batchSizes, Nat.div_eq_of_lt hless, Nat.mod_eq_of_lt hless,
      if_neg (Nat.ne_of_gt hpairs)]
    rfl

/-- The batches of a diagonal share its pairs out. -/
theorem sum_batchSizes (pairs : Nat) : (shape.batchSizes pairs).sum = pairs := by
  have hsplit := Nat.div_add_mod pairs shape.width
  rw [Nat.mul_comm] at hsplit
  rw [batchSizes, List.sum_append, List.sum_replicate, smul_eq_mul]
  by_cases hrest : pairs % shape.width = 0
  · rw [if_pos hrest, List.sum_nil]
    omega
  · rw [if_neg hrest, List.sum_singleton]
    exact hsplit

end Shape

/-! ## Issues and retirements -/

/-- The diagonal of a batch, and the number of its pairs. -/
def Batch.outline (batch : Batch) : Nat × Nat :=
  (batch.diagonal, batch.pairs.length)

namespace Event

/-- The outline of the batch that was issued. -/
def issue? : Event → Option (Nat × Nat)
  | .batchIssued diagonal products => some (diagonal, products)
  | _ => none

/-- The outline of the batch that was retired. -/
def retirement? : Event → Option (Nat × Nat)
  | .batchRetired diagonal products => some (diagonal, products)
  | _ => none

/-- Whether a batch was issued or retired. -/
def IsBatch : Event → Prop
  | .batchIssued _ _ | .batchRetired _ _ => True
  | _ => False

/-- The batches that were issued, in order. -/
def issues (events : List Event) : List (Nat × Nat) :=
  events.filterMap issue?

/-- The batches that were retired, in order. -/
def retirements (events : List Event) : List (Nat × Nat) :=
  events.filterMap retirement?

@[simp] theorem issues_append (first second : List Event) :
    issues (first ++ second) = issues first ++ issues second :=
  List.filterMap_append

@[simp] theorem retirements_append (first second : List Event) :
    retirements (first ++ second) = retirements first ++ retirements second :=
  List.filterMap_append

/-- Whether retirements never get ahead of issues: at no time have more batches of a kind retired
than were issued. -/
def NeverAhead (events : List Event) : Prop :=
  ∀ before, before <+: events → ∀ batch,
    (retirements before).count batch ≤ (issues before).count batch

theorem neverAhead_nil : NeverAhead [] := by
  intro before hbefore batch
  rw [List.prefix_nil.mp hbefore]
  exact Nat.le_refl 0

/-- Issues alone, or retirements alone, keep retirements behind if they are behind in the end. -/
theorem NeverAhead.append {events more : List Event} (h : NeverAhead events)
    (hkind : issues more = [] ∨ retirements more = [])
    (hends : ∀ batch, (retirements (events ++ more)).count batch ≤
      (issues (events ++ more)).count batch) : NeverAhead (events ++ more) := by
  intro before hbefore batch
  obtain ⟨rest, hsplit⟩ := hbefore
  rcases List.append_eq_append_iff.mp hsplit with ⟨behind, rfl, -⟩ | ⟨part, rfl, rfl⟩
  · exact h before (List.prefix_append before behind) batch
  · -- all of the events come before this place, and a part of the new ones
    have hend := hends batch
    have hstart := h events (List.prefix_refl events) batch
    simp only [issues_append, retirements_append, List.append_eq_nil_iff, List.count_append]
      at hkind hend ⊢
    rcases hkind with ⟨hpart, hrest⟩ | ⟨hpart, hrest⟩
    · rw [hpart, hrest, List.count_nil] at hend
      rw [hpart, List.count_nil]
      omega
    · rw [hpart, List.count_nil]
      omega

/-- What a run reports about the batches of a diagonal: they share its pairs out and are issued in
order, and each retires, in whatever order but not before it was issued. -/
structure BatchesOf (shape : Shape) (diagonal : Nat) (events : List Event) : Prop where
  batches : ∀ event ∈ events, event.IsBatch
  issued : issues events =
    (shape.batchSizes (Cursor.pairsOf diagonal).length).map fun size => (diagonal, size)
  shared : ((issues events).map Prod.snd).sum = (Cursor.pairsOf diagonal).length
  retired : (retirements events).Perm (issues events)
  neverAhead : NeverAhead events

/-- What a run over some factors reports about a diagonal: its batches, and at last that it closed
with the limb of the product. -/
def Block (shape : Shape) (operands : Operands) (diagonal : Nat) (block : List Event) : Prop :=
  ∃ batches limb, block = batches ++ [.diagonalClosed diagonal limb] ∧
    BatchesOf shape diagonal batches ∧
    limb.toNat = operands.a.value * operands.b.value / Limb.base ^ diagonal % Limb.base

end Event

namespace RetireQueue

/-- The outlines of the partial sums that wait. -/
def outlines (queue : RetireQueue) : List (Nat × Nat) :=
  queue.map fun entry => entry.sum.outline

/-- A tick lets go of some partial sums and keeps the others. -/
theorem ready_append_waiting_perm (queue : RetireQueue) :
    (queue.ready.map PartialSum.outline ++ queue.waiting.outlines).Perm queue.outlines := by
  have hsplit := (List.filter_append_perm (fun entry : InFlight => entry.remaining == 0) queue).map
    fun entry => entry.sum.outline
  rw [List.map_append] at hsplit
  simpa [outlines, ready, waiting, bne, Function.comp_def] using hsplit

end RetireQueue

namespace Pipeline

open Event

/-! ## What a cycle reports -/

/-- The outlines of the batches in flight, in the registers and in the queue. -/
def inFlight (pipeline : Pipeline) : List (Nat × Nat) :=
  pipeline.issued.toList.map Batch.outline ++ pipeline.fetched.toList.map FetchedBatch.outline ++
    pipeline.summed.toList.map PartialSum.outline ++ pipeline.queue.outlines

/-- Nothing is in flight in a drained pipeline. -/
theorem inFlight_of_drained {pipeline : Pipeline} (h : pipeline.drained = true) :
    pipeline.inFlight = [] := by
  simp only [drained, Bool.and_eq_true, Option.isNone_iff_eq_none, List.isEmpty_iff] at h
  obtain ⟨⟨⟨hissued, hfetched⟩, hsummed⟩, hqueue⟩ := h
  simp [inFlight, RetireQueue.outlines, hissued, hfetched, hsummed, hqueue]

section Events

variable (operands : Operands) (pipeline : Pipeline)

/-- The issue stage reports the batch that it issues. -/
theorem issue_events : issues pipeline.issue.2 = pipeline.issue.1.issued.toList.map Batch.outline ∧
    retirements pipeline.issue.2 = [] ∧ ∀ event ∈ pipeline.issue.2, event.IsBatch := by
  unfold issue
  split
  · simp [issues, retirements]
  · simp [issues, retirements, issue?, retirement?, IsBatch, Batch.outline]

/-- The issue stage reports by the shape and the cursor alone. -/
theorem issue_events_congr {left right : Pipeline} (hshape : left.shape = right.shape)
    (hcursor : left.cursor = right.cursor) : left.issue.2 = right.issue.2 := by
  unfold issue
  rw [hshape, hcursor]
  split <;> rfl

/-- The batch that is issued is the first of those that are to come. -/
theorem issues_append_batchSizes (hwidth : 0 < pipeline.shape.width) :
    issues pipeline.issue.2 ++
        (pipeline.shape.batchSizes pipeline.issue.1.cursor.remaining).map
          (fun size => (pipeline.cursor.diagonal, size)) =
      (pipeline.shape.batchSizes pipeline.cursor.remaining).map
        fun size => (pipeline.cursor.diagonal, size) := by
  unfold issue
  split
  · rfl
  · next batch following hbatch =>
      obtain ⟨hlength, hrest⟩ := Cursor.nextBatch_length hbatch
      have hless := Cursor.remaining_lt_of_nextBatch hwidth hbatch
      rw [Shape.batchSizes_of_pos hwidth (Nat.zero_lt_of_lt hless)]
      simp [issues, issue?, hlength, hrest, (Cursor.nextBatch_diagonal hbatch).1]

/-- The accumulate stage reports the partial sums that it folds in. -/
theorem accumulate_events : issues pipeline.accumulate.2 = [] ∧
    retirements pipeline.accumulate.2 = pipeline.enqueue.queue.ready.map PartialSum.outline ∧
    ∀ event ∈ pipeline.accumulate.2, event.IsBatch := by
  simp only [accumulate, tick]
  refine ⟨?_, ?_, ?_⟩
  · simp [issues, issue?, List.filterMap_map, Function.comp_def]
  · simp [retirements, retirement?, List.filterMap_map, Function.comp_def, PartialSum.outline]
  · simp [IsBatch]

/-- The partial sum in the register joins the queue. -/
theorem outlines_enqueue : pipeline.enqueue.queue.outlines =
    pipeline.queue.outlines ++ pipeline.summed.toList.map PartialSum.outline := by
  unfold enqueue
  split
  · next hnone => simp [hnone]
  · next sum hsum => simp [hsum, RetireQueue.outlines, RetireQueue.push]

/-- A staged cycle reports what retires before what is issued. -/
theorem movedEvents_of_staged (hstages : pipeline.shape.stages = .staged) :
    pipeline.movedEvents operands =
      (pipeline.accumulating operands).accumulate.2 ++ pipeline.issue.2 := by
  have hcounted : pipeline.counted.shape.stages = .staged := hstages
  simp only [movedEvents, shift, hcounted, shiftStaged, accumulating, hstages]
  exact congrArg _ (issue_events_congr (by simp [counted]) (by simp [counted]))

/-- A combinational cycle reports what is issued before what retires. -/
theorem movedEvents_of_combinational (hstages : pipeline.shape.stages = .combinational) :
    pipeline.movedEvents operands =
      pipeline.issue.2 ++ (pipeline.accumulating operands).accumulate.2 := by
  have hcounted : pipeline.counted.shape.stages = .combinational := hstages
  simp only [movedEvents, shift, hcounted, shiftCombinational, accumulating, hstages, passing_eq]
  exact congrArg (· ++ _) (issue_events_congr rfl rfl)

/-- The partial sums that retire in a cycle, and those that wait on, were in the queue or reached it
in this cycle. -/
theorem retiring_append_queue_perm :
    (retirements (pipeline.accumulating operands).accumulate.2 ++
        (pipeline.moved operands).queue.outlines).Perm
      (pipeline.queue.outlines ++
        (pipeline.accumulating operands).summed.toList.map PartialSum.outline) := by
  have hperm := (pipeline.accumulating operands).enqueue.queue.ready_append_waiting_perm
  rw [outlines_enqueue, accumulating_queue] at hperm
  rw [(accumulate_events _).2.1, moved_queue]
  exact hperm

/-- What a staged cycle retires was in flight before. -/
theorem flight_of_staged (hstages : pipeline.shape.stages = .staged) :
    ∃ others, (retirements (pipeline.accumulating operands).accumulate.2 ++ others).Perm
        pipeline.inFlight ∧
      (pipeline.moved operands).inFlight.Perm (issues pipeline.issue.2 ++ others) := by
  obtain ⟨hissued, hfetched, hsummed, -, -⟩ := moved_of_staged operands pipeline hstages
  have hretiring := pipeline.retiring_append_queue_perm operands
  have hfetch : (pipeline.issued.map (FetchedBatch.fetch operands)).toList.map
      FetchedBatch.outline = pipeline.issued.toList.map Batch.outline := by
    cases pipeline.issued with
    | none => rfl
    | some batch => simp [FetchedBatch.outline_fetch, Batch.outline]
  have hmultiply : (pipeline.fetched.map FetchedBatch.multiply).toList.map PartialSum.outline =
      pipeline.fetched.toList.map FetchedBatch.outline := by
    cases pipeline.fetched <;> rfl
  have hregister : (pipeline.accumulating operands).summed = pipeline.summed := by
    rw [accumulating, hstages]
    rfl
  rw [hregister] at hretiring
  refine ⟨pipeline.issued.toList.map Batch.outline ++
    pipeline.fetched.toList.map FetchedBatch.outline ++ (pipeline.moved operands).queue.outlines,
    ?_, ?_⟩
  · refine List.perm_iff_count.mpr fun batch => ?_
    have hcount := hretiring.count_eq batch
    simp only [inFlight, List.count_append] at hcount ⊢
    omega
  · rw [inFlight, hissued, hfetched, hsummed, hfetch, hmultiply, pipeline.issue_events.1]
    simp only [List.append_assoc]
    exact .refl _

/-- What a combinational cycle retires was in flight before or is issued in the cycle. -/
theorem flight_of_combinational (hstages : pipeline.shape.stages = .combinational)
    (hidle : pipeline.RegistersIdle) :
    (retirements (pipeline.accumulating operands).accumulate.2 ++
        (pipeline.moved operands).inFlight).Perm
      (pipeline.inFlight ++ issues pipeline.issue.2) := by
  obtain ⟨hissued, hfetched, hsummed⟩ := hidle hstages
  obtain ⟨hissuedAfter, hfetchedAfter, hsummedAfter⟩ :=
    registersIdle_moved operands pipeline (by simpa using hstages)
  have hpassed : (pipeline.accumulating operands).summed.toList.map PartialSum.outline =
      pipeline.issue.1.issued.toList.map Batch.outline := by
    rw [accumulating, hstages]
    show (pipeline.issue.1.issued.map fun batch =>
      (FetchedBatch.fetch operands batch).multiply).toList.map PartialSum.outline = _
    cases pipeline.issue.1.issued with
    | none => rfl
    | some batch => simp [FetchedBatch.fetch, FetchedBatch.multiply, PartialSum.outline,
        Batch.outline]
  have hretiring := pipeline.retiring_append_queue_perm operands
  rw [hpassed, ← pipeline.issue_events.1] at hretiring
  simpa [inFlight, hissued, hfetched, hsummed, hissuedAfter, hfetchedAfter, hsummedAfter] using
    hretiring

/-- A cycle reports what is issued and what retires, and nothing else. -/
theorem movedEvents_batches :
    issues (pipeline.movedEvents operands) = issues pipeline.issue.2 ∧
      retirements (pipeline.movedEvents operands) =
        retirements (pipeline.accumulating operands).accumulate.2 ∧
      ∀ event ∈ pipeline.movedEvents operands, event.IsBatch := by
  obtain ⟨-, hnoRetirement, hissue⟩ := pipeline.issue_events
  obtain ⟨hnoIssue, -, hretire⟩ := (pipeline.accumulating operands).accumulate_events
  cases hstages : pipeline.shape.stages with
  | staged =>
      rw [movedEvents_of_staged operands pipeline hstages, issues_append, retirements_append,
        hnoIssue, hnoRetirement]
      refine ⟨List.nil_append _, List.append_nil _, fun event hevent => ?_⟩
      exact (List.mem_append.mp hevent).elim (hretire event) (hissue event)
  | combinational =>
      rw [movedEvents_of_combinational operands pipeline hstages, issues_append,
        retirements_append, hnoIssue, hnoRetirement]
      refine ⟨List.append_nil _, List.nil_append _, fun event hevent => ?_⟩
      exact (List.mem_append.mp hevent).elim (hissue event) (hretire event)

/-- A cycle loses no batch: what was in flight and what is issued retires or is in flight. -/
theorem flight_moved (hidle : pipeline.RegistersIdle) :
    (retirements (pipeline.movedEvents operands) ++ (pipeline.moved operands).inFlight).Perm
      (pipeline.inFlight ++ issues (pipeline.movedEvents operands)) := by
  obtain ⟨hissues, hretirements, -⟩ := pipeline.movedEvents_batches operands
  rw [hissues, hretirements]
  cases hstages : pipeline.shape.stages with
  | staged =>
      obtain ⟨others, hretired, hafter⟩ := pipeline.flight_of_staged operands hstages
      refine List.perm_iff_count.mpr fun batch => ?_
      have hcountRetired := hretired.count_eq batch
      have hcountAfter := hafter.count_eq batch
      rw [List.count_append] at hcountRetired hcountAfter ⊢
      rw [List.count_append]
      omega
  | combinational => exact pipeline.flight_of_combinational operands hstages hidle

end Events

/-! ## The block of the current diagonal -/

/-- What was reported about the current diagonal so far: the batches that are issued and those that
are to come make up the diagonal, and those that are not retired are in flight. -/
structure Underway (events : List Event) (pipeline : Pipeline) : Prop where
  batches : ∀ event ∈ events, event.IsBatch
  issued : issues events ++ (pipeline.shape.batchSizes pipeline.cursor.remaining).map
      (fun size => (pipeline.cursor.diagonal, size)) =
    (pipeline.shape.batchSizes (Cursor.pairsOf pipeline.cursor.diagonal).length).map
      fun size => (pipeline.cursor.diagonal, size)
  conserved : (retirements events ++ pipeline.inFlight).Perm (issues events)
  neverAhead : NeverAhead events

namespace Underway

variable {events : List Event} {pipeline : Pipeline}

/-- Nothing was reported about a diagonal that nothing is issued of. -/
theorem startOf (hcursor : pipeline.cursor = Cursor.startOf pipeline.cursor.diagonal)
    (hflight : pipeline.inFlight = []) : Underway [] pipeline where
  batches := fun _ hevent => by cases hevent
  issued := by
    have hremaining : pipeline.cursor.remaining =
        (Cursor.pairsOf pipeline.cursor.diagonal).length := by
      rw [Cursor.pairsOf, Cursor.length_unissued, ← hcursor]
    rw [hremaining]
    rfl
  conserved := by
    rw [hflight]
    exact .refl _
  neverAhead := neverAhead_nil

/-- Of each kind, what was issued has retired or is in flight. -/
theorem count_eq (h : Underway events pipeline) (batch : Nat × Nat) :
    (retirements events).count batch + pipeline.inFlight.count batch =
      (issues events).count batch := by
  rw [← List.count_append]
  exact h.conserved.count_eq batch

/-- What a cycle issues is in flight or has retired by its end. -/
theorem conserved_moved (h : Underway events pipeline) (hidle : pipeline.RegistersIdle)
    (operands : Operands) :
    (retirements (events ++ pipeline.movedEvents operands) ++
        (pipeline.moved operands).inFlight).Perm
      (issues (events ++ pipeline.movedEvents operands)) := by
  refine List.perm_iff_count.mpr fun batch => ?_
  have hbefore := h.count_eq batch
  have hcycle := (pipeline.flight_moved operands hidle).count_eq batch
  simp only [issues_append, retirements_append, List.count_append] at hcycle ⊢
  omega

/-- At each event of a cycle the retirements are behind the issues. -/
theorem neverAhead_moved (h : Underway events pipeline) (hidle : pipeline.RegistersIdle)
    (operands : Operands) : NeverAhead (events ++ pipeline.movedEvents operands) := by
  obtain ⟨-, hnoRetirement, -⟩ := pipeline.issue_events
  obtain ⟨hnoIssue, -, -⟩ := (pipeline.accumulating operands).accumulate_events
  have hends : ∀ batch, (retirements (events ++ pipeline.movedEvents operands)).count batch ≤
      (issues (events ++ pipeline.movedEvents operands)).count batch := by
    intro batch
    rw [← (h.conserved_moved hidle operands).count_eq batch, List.count_append]
    exact Nat.le_add_right _ _
  cases hstages : pipeline.shape.stages with
  | staged =>
      -- the retirements come first, but what retires was in flight before the cycle
      obtain ⟨others, hretired, -⟩ := pipeline.flight_of_staged operands hstages
      rw [movedEvents_of_staged operands pipeline hstages, ← List.append_assoc] at hends ⊢
      refine (h.neverAhead.append (.inl hnoIssue) fun batch => ?_).append (.inr hnoRetirement)
        hends
      have hbefore := h.count_eq batch
      have hcount := hretired.count_eq batch
      rw [List.count_append] at hcount
      rw [issues_append, retirements_append, hnoIssue, List.append_nil, List.count_append]
      omega
  | combinational =>
      rw [movedEvents_of_combinational operands pipeline hstages, ← List.append_assoc] at hends ⊢
      refine (h.neverAhead.append (.inr hnoRetirement) fun batch => ?_).append (.inl hnoIssue)
        hends
      have hbefore := h.count_eq batch
      rw [issues_append, retirements_append, hnoRetirement, List.append_nil, List.count_append]
      omega

/-- While the batches in flight move, more of the block is reported. -/
theorem moved (h : Underway events pipeline) (hwidth : 0 < pipeline.shape.width)
    (hidle : pipeline.RegistersIdle) (operands : Operands) :
    Underway (events ++ pipeline.movedEvents operands) (pipeline.moved operands) := by
  obtain ⟨hissues, -, hbatches⟩ := pipeline.movedEvents_batches operands
  have hissued := congrArg (issues events ++ ·) (pipeline.issues_append_batchSizes hwidth)
  refine ⟨?_, ?_, h.conserved_moved hidle operands, h.neverAhead_moved hidle operands⟩
  · intro event hevent
    exact (List.mem_append.mp hevent).elim (h.batches event) (hbatches event)
  · rw [moved_shape, moved_cursor, issue_diagonal, issues_append, hissues, List.append_assoc,
      ← h.issued]
    exact hissued

/-- When nothing is left to issue and nothing is in flight, the batches are complete. -/
theorem batchesOf (h : Underway events pipeline) (hexhausted : pipeline.cursor.exhausted = true)
    (hdrained : pipeline.drained = true) :
    BatchesOf pipeline.shape pipeline.cursor.diagonal events := by
  have hissued := h.issued
  have hconserved := h.conserved
  rw [(Cursor.exhausted_iff_remaining _).mp hexhausted, Shape.batchSizes_zero, List.map_nil,
    List.append_nil] at hissued
  rw [inFlight_of_drained hdrained, List.append_nil] at hconserved
  refine ⟨h.batches, hissued, ?_, hconserved, h.neverAhead⟩
  rw [hissued, List.map_map]
  exact (congrArg List.sum (List.map_id _)).trans (Shape.sum_batchSizes _)

/-- A diagonal that closes with the limb of the product completes its block. -/
theorem block (h : Underway events pipeline) (hwidth : 0 < pipeline.shape.width)
    (hidle : pipeline.RegistersIdle) {operands : Operands}
    (hexhausted : (pipeline.moved operands).cursor.exhausted = true)
    (hdrained : (pipeline.moved operands).drained = true) {limb : Limb}
    (hlimb : limb.toNat = operands.a.value * operands.b.value /
      Limb.base ^ pipeline.cursor.diagonal % Limb.base) :
    Block pipeline.shape operands pipeline.cursor.diagonal
      (events ++ pipeline.movedEvents operands ++
        [.diagonalClosed pipeline.cursor.diagonal limb]) := by
  have hbatches := (h.moved hwidth hidle operands).batchesOf hexhausted hdrained
  rw [moved_shape, moved_cursor, issue_diagonal] at hbatches
  exact ⟨_, limb, rfl, hbatches, hlimb⟩

/-- Nothing was reported about the diagonal behind one that closes. -/
theorem close {product : Product} (hdrained : pipeline.drained = true)
    (hopen : (pipeline.close product).pipeline.finished = false) :
    Underway [] (pipeline.close product).pipeline := by
  have hne : pipeline.cursor.diagonal ≠ lastDiagonal := by
    intro hlast
    rw [(close_of_last product pipeline hlast).2] at hopen
    cases hopen
  have hcursor := (close_of_ne_last product pipeline hne).1
  have hflight := inFlight_of_drained hdrained
  refine startOf ?_ ?_
  · rw [hcursor]
    rfl
  · rw [inFlight, close_issued, close_fetched, close_summed, close_queue]
    exact hflight

end Underway

/-- A cycle reports what moved, and then the diagonal that closed. -/
theorem step_events (operands : Operands) (product : Product) {pipeline : Pipeline}
    (hfinished : pipeline.finished = false) :
    (pipeline.step operands product).events = pipeline.movedEvents operands ++
      (pipeline.step operands product).closed.toList.map fun closed =>
        .diagonalClosed closed.index closed.limb := by
  rw [step_eq operands product hfinished]
  split
  · rfl
  · split <;> exact (List.append_nil _).symm

namespace Underway

variable {events : List Event} {pipeline : Pipeline}

/-- A cycle in which no diagonal closes goes on with the current block. -/
theorem step_open (h : Underway events pipeline) (hwidth : 0 < pipeline.shape.width)
    (hidle : pipeline.RegistersIdle) {operands : Operands} {product : Product}
    (hfinished : pipeline.finished = false)
    (hnone : (pipeline.step operands product).closed = none) :
    Underway (events ++ (pipeline.step operands product).events)
        (pipeline.step operands product).pipeline ∧
      (pipeline.step operands product).pipeline.finished = false ∧
      (pipeline.step operands product).pipeline.level = pipeline.cursor.diagonal := by
  obtain ⟨-, -, -, -, hsome⟩ | ⟨-, ⟨counters, hpipeline⟩, -, -⟩ :=
    step_cases operands product hfinished
  · rw [hnone] at hsome
    cases hsome
  · have hmoved := h.moved hwidth hidle operands
    rw [step_events operands product hfinished, hnone, Option.toList_none, List.map_nil,
      List.append_nil, hpipeline]
    refine ⟨⟨hmoved.batches, hmoved.issued, hmoved.conserved, hmoved.neverAhead⟩, ?_, ?_⟩
    · simpa using hfinished
    · simp [level, hfinished]

/-- A cycle that closes a diagonal completes its block, and nothing is reported about the next one
so far. -/
theorem step_close (h : Underway events pipeline) (hwidth : 0 < pipeline.shape.width)
    (hidle : pipeline.RegistersIdle) {operands : Operands} {product : Product}
    (hfinished : pipeline.finished = false) {closed : ClosedDiagonal}
    (hclosed : (pipeline.step operands product).closed = some closed)
    (hlimb : closed.limb.toNat =
      operands.a.value * operands.b.value / Limb.base ^ closed.index % Limb.base) :
    Block pipeline.shape operands pipeline.cursor.diagonal
        (events ++ (pipeline.step operands product).events) ∧
      ((pipeline.step operands product).pipeline.finished = false →
        Underway [] (pipeline.step operands product).pipeline) ∧
      (pipeline.step operands product).pipeline.level = pipeline.cursor.diagonal + 1 := by
  obtain ⟨hexhausted, hdrained, hpipeline, -, hsome⟩ | ⟨-, -, -, hnone⟩ :=
    step_cases operands product hfinished
  · rw [step_events operands product hfinished, ← List.append_assoc, hclosed, hpipeline]
    obtain rfl := Option.some.inj (hclosed.symm.trans hsome)
    refine ⟨h.block hwidth hidle hexhausted hdrained hlimb, close hdrained, ?_⟩
    rw [level_close _ _ (by simpa using hfinished), moved_cursor, issue_diagonal]
  · rw [hnone] at hclosed
    cases hclosed

end Underway

end Pipeline

/-! ## Runs -/

namespace Engine

open Event

/-- What a run reports in its first cycles, in order. -/
def narration (caches : Nat → Operands) (engine : Engine) (cycles : Nat) : List Event :=
  (List.range cycles).flatMap fun cycle =>
    ((engine.after caches cycle).tick (caches (cycle + 1))).events

theorem narration_succ (caches : Nat → Operands) (engine : Engine) (cycles : Nat) :
    engine.narration caches (cycles + 1) =
      engine.narration caches cycles ++
        ((engine.after caches cycles).tick (caches (cycles + 1))).events := by
  rw [narration, List.range_succ, List.flatMap_append]
  simp [narration]

/-- Whether events are what a run reports until it comes to an engine: a block for each diagonal
that is closed, in order, and what there is of the current one. -/
def Narrated (operands : Operands) (engine : Engine) (events : List Event) : Prop :=
  ∃ blocks current, events = blocks.flatten ++ current ∧
    List.Forall₂ (Block engine.pipeline.shape operands) (List.range engine.pipeline.level) blocks ∧
    if engine.pipeline.finished then current = [] else engine.pipeline.Underway current

/-- The next cycle goes on with the current block, and ends it if it closes the diagonal. -/
theorem Narrated.step {operands : Operands} {engine : Engine} {events : List Event}
    (h : Narrated operands engine events) (hwidth : 0 < engine.pipeline.shape.width)
    {pairs : List IndexPair}
    (hsound : Pipeline.Sound (Sample.all operands pairs) engine.pipeline engine.product)
    {closings : List ClosedDiagonal}
    (hclosings : closings.map ClosedDiagonal.index = List.range engine.pipeline.level) :
    Narrated operands (engine.step operands) (events ++ (engine.tick operands).events) := by
  obtain ⟨blocks, current, hevents, hblocks, hcurrent⟩ := h
  have hinOrder := closesInOrder_of_sound hsound hclosings
  cases hfinished : engine.pipeline.finished with
  | true =>
      rw [Engine.step, hinOrder.finished hfinished, List.append_nil]
      exact ⟨blocks, current, hevents, hblocks, hcurrent⟩
  | false =>
      have hafter : (engine.step operands).pipeline =
          (engine.pipeline.step operands engine.product).pipeline := rfl
      rw [hfinished, if_neg Bool.false_ne_true] at hcurrent
      rw [Pipeline.level, hfinished, if_neg Bool.false_ne_true] at hblocks
      rw [Narrated, hafter, Pipeline.step_shape, tick]
      cases hclosed : (engine.pipeline.step operands engine.product).closed with
      | none =>
          obtain ⟨hnext, hopen, hlevel⟩ :=
            hcurrent.step_open hwidth hsound.idle hfinished hclosed
          rw [hlevel]
          refine ⟨blocks, current ++ (engine.pipeline.step operands engine.product).events, ?_,
            hblocks, ?_⟩
          · rw [hevents, List.append_assoc]
          · rw [hopen, if_neg Bool.false_ne_true]
            exact hnext
      | some closed =>
          obtain ⟨hblock, hnext, hlevel⟩ :=
            hcurrent.step_close hwidth hsound.idle hfinished hclosed (hinOrder.closed _ hclosed).2.1
          rw [hlevel, List.range_succ]
          refine ⟨blocks ++ [_], [], ?_, List.rel_append hblocks (.cons hblock .nil), ?_⟩
          · simp [hevents]
          · split
            · rfl
            · next hopen => exact hnext (Bool.eq_false_iff.mpr hopen)

/-- A run reports the blocks of the diagonals in order. -/
theorem narrated_after {shape : Shape} (hvalid : shape.validate = .ok ()) (operands : Operands)
    (product : Product) (cycles : Nat) :
    Narrated operands ((start shape product).after (fun _ => operands) cycles)
      ((start shape product).narration (fun _ => operands) cycles) := by
  induction cycles with
  | zero =>
      refine ⟨[], [], rfl, .nil, ?_⟩
      exact Pipeline.Underway.startOf rfl rfl
  | succ cycles ih =>
      obtain ⟨pairs, hsound⟩ := sound_of_constant operands shape product cycles
      have hwidth : 0 <
          ((start shape product).after (fun _ => operands) cycles).pipeline.shape.width := by
        rw [after_shape]
        exact (Shape.width_of_validate hvalid).1
      rw [narration_succ]
      exact ih.step hwidth hsound (closings_index _ shape product cycles)

/-- A finished run has reported the blocks of all diagonals, in order, and nothing else. -/
theorem narration_of_finished {shape : Shape} (hvalid : shape.validate = .ok ())
    (operands : Operands) (product : Product) {cycles : Nat}
    (hfinished : ((start shape product).after (fun _ => operands) cycles).pipeline.finished =
      true) :
    ∃ blocks, (start shape product).narration (fun _ => operands) cycles = blocks.flatten ∧
      List.Forall₂ (Block shape operands) (List.range diagonalCount) blocks := by
  obtain ⟨blocks, current, hevents, hblocks, hcurrent⟩ :=
    narrated_after hvalid operands product cycles
  rw [hfinished, if_pos rfl] at hcurrent
  rw [after_shape, Pipeline.level, hfinished, if_pos rfl] at hblocks
  refine ⟨blocks, ?_, hblocks⟩
  rw [hevents, hcurrent, List.append_nil]

end Engine

end WideMultiplier
