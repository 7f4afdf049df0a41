import WideMultiplier.Profile
import WideMultiplier.Proofs.Pipeline.Progress

/-!
# Diagonals close in order, with final limbs

Over factors that do not change, everything that a pipeline holds and everything that it still owes
on the current diagonal add up to the product of the limbs up to that diagonal. A limb that is
stored can therefore never change again: it is the limb of the full product
(`Pipeline.Sound.toNat_of_lt_level`). `Engine.diagonals_close_in_order` gathers what this says about
every cycle of a run.
-/

namespace WideMultiplier

open scoped BigOperators

namespace Pipeline

/-- What is still to come at the place of the current diagonal: the running sum, the partial sums in
the queue and in the register, the products of the batch that was fetched and of the batch that was
issued, and the products of the pairs that are not yet issued. -/
def pending (operands : Operands) (pipeline : Pipeline) : Nat :=
  pipeline.accumulator.value + pipeline.queue.total +
    pipeline.summed.elim 0 (fun sum => sum.value.value) +
    pipeline.fetched.elim 0 FetchedBatch.total +
    operands.sumOf (pipeline.issued.elim [] Batch.pairs) +
    operands.sumOf pipeline.cursor.unissued

theorem pending_eq (operands : Operands) (pipeline : Pipeline) :
    pipeline.pending operands = pipeline.content + operands.sumOf pipeline.owed := by
  rw [owed, Operands.sumOf_append, ← Nat.add_assoc]
  rfl

/-! ## Final limbs -/

namespace Sound

variable {operands : Operands} {pairs : List IndexPair} {pipeline : Pipeline} {product : Product}

/-- What is stored and what is pending add up to the products of the limbs up to the current
diagonal. -/
theorem value_add_pending (h : Sound (Sample.all operands pairs) pipeline product)
    (hfinished : pipeline.finished = false) :
    Limbs.value (product.toList.take pipeline.cursor.diagonal) +
        Limb.base ^ pipeline.cursor.diagonal * pipeline.pending operands =
      Sample.total (Sample.all operands (pairsThrough pipeline.cursor.diagonal)) := by
  have hlevel : pipeline.level = pipeline.cursor.diagonal := by simp [level, hfinished]
  have hconserved := h.conserved
  have hschedule := h.schedule
  -- what is owed counts at the place of the diagonal, as what is in flight does
  have howed := Sample.total_all_of_diagonal operands pipeline.owed _ h.onDiagonal
  rw [hlevel] at hconserved
  rw [Sample.map_pair_all] at hschedule
  rw [← hschedule, Sample.all_append, Sample.total_append, ← hconserved, howed, pending_eq]
  ring

/-- What is stored is the product of the factors but for a multiple of the place of the first limb
that is not stored. -/
theorem exists_value_add (h : Sound (Sample.all operands pairs) pipeline product) :
    ∃ rest, operands.a.value * operands.b.value =
      Limbs.value (product.toList.take pipeline.level) + Limb.base ^ pipeline.level * rest := by
  cases hfinished : pipeline.finished with
  | true =>
      have hlevel : pipeline.level = productLimbs := by simp [level, hfinished]
      have hvalue := h.value_of_constant hfinished
      refine ⟨0, ?_⟩
      rw [hlevel, List.take_of_length_le (by simp), ← Product.value, hvalue]
      rfl
  | false =>
      have hlevel : pipeline.level = pipeline.cursor.diagonal := by simp [level, hfinished]
      have hle : pipeline.cursor.diagonal ≤ lastDiagonal := Nat.le_pred_of_lt h.diagonal_lt
      -- the diagonals behind the current one only add multiples of its place
      obtain ⟨behind, hbehind, hplaces⟩ := pairsThrough_of_le hle
      obtain ⟨rest, hrest⟩ := Sample.dvd_total_all operands fun pair hpair =>
        Nat.le_of_lt (hplaces pair hpair)
      refine ⟨pipeline.pending operands + rest, ?_⟩
      rw [← Sample.total_all_pairs, hbehind, Sample.all_append, Sample.total_append,
        ← h.value_add_pending hfinished, hrest, hlevel]
      ring

/-- A limb that is stored is the limb of the product of the factors. -/
theorem toNat_of_lt_level (h : Sound (Sample.all operands pairs) pipeline product) {index : Nat}
    (hindex : index < productLimbs) (hlevel : index < pipeline.level) :
    product[index].toNat =
      operands.a.value * operands.b.value / Limb.base ^ index % Limb.base := by
  obtain ⟨rest, hrest⟩ := h.exists_value_add
  obtain ⟨more, hmore⟩ := Nat.exists_eq_add_of_lt hlevel
  have hlength : index < (product.toList.take pipeline.level).length := by
    simp only [List.length_take, Vector.length_toList]
    omega
  have hlimb : product[index] = (product.toList.take pipeline.level)[index] := by simp
  have hplace : 0 < Limb.base ^ index := Nat.pow_pos (by decide)
  have hsplit : Limb.base ^ pipeline.level * rest =
      Limb.base ^ index * (Limb.base * (Limb.base ^ more * rest)) := by
    rw [hmore]
    ring
  rw [hlimb, Limbs.toNat_getElem, hrest, hsplit, Nat.add_mul_div_left _ _ hplace,
    Nat.add_mul_mod_self_left]

end Sound

/-! ## Closings -/

/-- A cycle closes the diagonal behind those that are closed, or leaves the product alone. -/
theorem step_closed_cases (operands : Operands) (product : Product) {pipeline : Pipeline}
    (hdiagonal : pipeline.cursor.diagonal < diagonalCount) :
    (∃ limb, (pipeline.step operands product).closed = some ⟨pipeline.level, limb⟩ ∧
        (pipeline.step operands product).product = product.put pipeline.level limb ∧
        (pipeline.step operands product).pipeline.level = pipeline.level + 1 ∧
        pipeline.level < diagonalCount) ∨
      ((pipeline.step operands product).closed = none ∧
        (pipeline.step operands product).product = product ∧
        (pipeline.step operands product).pipeline.level = pipeline.level) := by
  cases hfinished : pipeline.finished with
  | true =>
      right
      simp [step, hfinished]
  | false =>
      have hlevel : pipeline.level = pipeline.cursor.diagonal := by simp [level, hfinished]
      rw [hlevel]
      obtain ⟨-, -, hpipeline, hproduct, hclosed⟩ | ⟨-, ⟨counters, hpipeline⟩, hproduct, hclosed⟩ :=
        step_cases operands product hfinished
      · refine .inl ⟨_, hclosed, hproduct, ?_, hdiagonal⟩
        rw [hpipeline, level_close _ _ (by simpa using hfinished), moved_cursor, issue_diagonal]
      · refine .inr ⟨hclosed, hproduct, ?_⟩
        simp [hpipeline, level, hfinished]

end Pipeline

namespace Engine

/-- The diagonals that close in the first cycles of a run, in order. -/
def closings (caches : Nat → Operands) (engine : Engine) (cycles : Nat) : List ClosedDiagonal :=
  (List.range cycles).filterMap fun cycle =>
    ((engine.after caches cycle).tick (caches (cycle + 1))).closed

theorem closings_succ (caches : Nat → Operands) (engine : Engine) (cycles : Nat) :
    engine.closings caches (cycles + 1) =
      engine.closings caches cycles ++
        ((engine.after caches cycles).tick (caches (cycles + 1))).closed.toList := by
  rw [closings, List.range_succ, List.filterMap_append, ← closings]
  cases hclosed : ((engine.after caches cycles).tick (caches (cycles + 1))).closed <;>
    simp [hclosed]

/-- The diagonals that are closed are those below the level, in order. -/
theorem closings_index (caches : Nat → Operands) (shape : Shape) (product : Product)
    (cycles : Nat) :
    ((start shape product).closings caches cycles).map ClosedDiagonal.index =
      List.range ((start shape product).after caches cycles).pipeline.level := by
  induction cycles with
  | zero => rfl
  | succ cycles ih =>
      have hdiagonal := (sound_after caches shape product cycles).diagonal_lt
      rw [closings_succ, List.map_append, ih]
      obtain ⟨limb, hclosed, -, hlevel, -⟩ | ⟨hclosed, -, hlevel⟩ :=
        Pipeline.step_closed_cases (caches (cycles + 1))
          ((start shape product).after caches cycles).product hdiagonal
      · rw [after, step, tick, hclosed, hlevel, List.range_succ]
        rfl
      · rw [after, step, tick, hclosed, hlevel, Option.toList_none, List.map_nil, List.append_nil]

/-- What holds of an engine in a run over the same factors, of the diagonals that were closed before
and of the next cycle. -/
structure ClosesInOrder (operands : Operands) (engine : Engine) (closings : List ClosedDiagonal) :
    Prop where
  /-- What is stored and what is pending add up to the products of the limbs up to the current
  diagonal. -/
  conserved : engine.pipeline.finished = false →
    Limbs.value (engine.product.toList.take engine.pipeline.cursor.diagonal) +
        Limb.base ^ engine.pipeline.cursor.diagonal * engine.pipeline.pending operands =
      ∑ i : Fin operandLimbs, ∑ j : Fin operandLimbs,
        if i.val + j.val ≤ engine.pipeline.cursor.diagonal then
          (operands.a.get i).toNat * (operands.b.get j).toNat * Limb.base ^ (i.val + j.val)
        else 0
  /-- The diagonals before the current one were closed, each once and in order. -/
  in_order : closings.map ClosedDiagonal.index =
    if engine.pipeline.finished then List.range diagonalCount
    else List.range engine.pipeline.cursor.diagonal
  /-- A diagonal that closes gives and stores the limb of the full product, and nothing else is
  stored. -/
  closed : ∀ closed, (engine.tick operands).closed = some closed →
    closed.index < diagonalCount ∧
      closed.limb.toNat =
        operands.a.value * operands.b.value / Limb.base ^ closed.index % Limb.base ∧
      (engine.tick operands).product = engine.product.put closed.index closed.limb
  /-- Where no diagonal closes the product stays as it is. -/
  unclosed : (engine.tick operands).closed = none → (engine.tick operands).product = engine.product
  /-- A finished pipeline does nothing. -/
  finished : engine.pipeline.finished = true →
    engine.tick operands = ⟨engine.pipeline, engine.product, none, []⟩

/-- The next cycle closes a diagonal with its final limb or leaves the product alone. -/
theorem closesInOrder_of_sound {operands : Operands} {engine : Engine} {pairs : List IndexPair}
    {closings : List ClosedDiagonal}
    (h : Pipeline.Sound (Sample.all operands pairs) engine.pipeline engine.product)
    (hclosings : closings.map ClosedDiagonal.index = List.range engine.pipeline.level) :
    ClosesInOrder operands engine closings := by
  have hcases := Pipeline.step_closed_cases operands engine.product h.diagonal_lt
  refine ⟨?_, ?_, ?_, ?_, ?_⟩
  · intro hfinished
    rw [h.value_add_pending hfinished, Sample.total_all_through]
  · rw [hclosings, Pipeline.level]
    split <;> rfl
  · intro closed hclosed
    obtain ⟨limb, hsome, hproduct, hlevel, hlt⟩ | ⟨hnone, -, -⟩ := hcases
    · obtain rfl : closed = ⟨_, limb⟩ := Option.some.inj (hclosed.symm.trans hsome)
      -- the limb is final because it lies below the level after the cycle
      have hnext := h.step operands
      rw [← Sample.all_append] at hnext
      have hfinal := hnext.toNat_of_lt_level hlt (by rw [hlevel]; exact Nat.lt_succ_self _)
      refine ⟨hlt, ?_, hproduct⟩
      rw [← hfinal]
      simp [hproduct, Product.put]
    · rw [tick, hnone] at hclosed
      cases hclosed
  · intro hclosed
    obtain ⟨limb, hsome, -, -, -⟩ | ⟨-, hproduct, -⟩ := hcases
    · rw [tick, hsome] at hclosed
      cases hclosed
    · exact hproduct
  · intro hfinished
    rw [tick, Pipeline.step, if_pos hfinished]

/-- In every run over the same factors the diagonals close in order, each with the limb of the full
product, until all are closed, and the sum of what is stored and what is pending is conserved. -/
theorem diagonals_close_in_order {shape : Shape} (hvalid : shape.validate = .ok ())
    (operands : Operands) (product : Product) :
    (∀ cycles, ClosesInOrder operands ((start shape product).after (fun _ => operands) cycles)
        ((start shape product).closings (fun _ => operands) cycles)) ∧
      ∃ cycles, ((start shape product).after (fun _ => operands) cycles).pipeline.finished =
        true := by
  constructor
  · intro cycles
    obtain ⟨pairs, hsound⟩ := sound_of_constant operands shape product cycles
    exact closesInOrder_of_sound hsound (closings_index _ shape product cycles)
  · have hlive : (start shape product).pipeline.Live := Pipeline.live_ofShape hvalid
    exact ⟨_, finished_of_workload_le _ hlive (Nat.le_refl _)⟩

/-- A run of the single-cycle profile closes all diagonals. -/
theorem diagonals_close_in_order_singleCycle :
    Profile.singleCycle.shape.validate = .ok () ∧
      ((start Profile.singleCycle.shape Product.zero).closings
        (fun _ => ⟨Vector.replicate operandLimbs 3, Vector.replicate operandLimbs 5⟩)
        diagonalCount).map ClosedDiagonal.index = List.range diagonalCount := by
  have hvalid : Profile.singleCycle.shape.validate = .ok () := rfl
  refine ⟨hvalid, ?_⟩
  rw [((diagonals_close_in_order hvalid _ _).1 _).in_order, if_pos (by decide +kernel)]

end Engine

end WideMultiplier
