import WideMultiplier.Proofs.Pipeline.Stages

/-!
# What a pipeline conserves

An engine is a pipeline with the product that it fills. `Engine.after` runs it for some cycles, each
on factors of its own, and `Engine.samples` lists what it has read by then. The invariant
`Pipeline.Sound` says that the limbs stored so far, with everything in flight at the place of the
current diagonal, add up to the products that were read, and that the pairs read and the pairs owed
are those of the diagonals up to the current one. `Pipeline.Sound.step` is its step, and
`Engine.sound_after` carries it over a run.
-/

namespace WideMultiplier

namespace Pipeline

/-- A pipeline in the middle of a run that has read `samples` and has stored what it closed in
`product`. -/
structure Sound (samples : List Sample) (pipeline : Pipeline) (product : Product) : Prop where
  /-- Nothing stays between the stages of a combinational pipeline. -/
  idle : pipeline.RegistersIdle
  /-- The cursor stands on a diagonal. -/
  diagonal_lt : pipeline.cursor.diagonal < diagonalCount
  /-- What is owed lies on that diagonal. -/
  onDiagonal : ∀ pair ∈ pipeline.owed, pair.i + pair.j = pipeline.cursor.diagonal
  /-- What was read and what is owed are the pairs of the diagonals so far, in their order. -/
  schedule : samples.map Sample.pair ++ pipeline.owed = pairsThrough pipeline.cursor.diagonal
  /-- What was read is stored or in flight. -/
  conserved :
    Limbs.value (product.toList.take pipeline.level) +
      Limb.base ^ pipeline.level * pipeline.content = Sample.total samples
  /-- A finished pipeline stands behind the last pair. -/
  last : pipeline.finished = true →
    pipeline.cursor.diagonal = lastDiagonal ∧ pipeline.owed = []

namespace Sound

variable {samples : List Sample} {pipeline : Pipeline} {product : Product}

/-- What is owed are pairs of the current diagonal, within both factors. -/
theorem mem_pairsOf_of_mem_owed (h : Sound samples pipeline product) {pair : IndexPair}
    (hpair : pair ∈ pipeline.owed) : pair ∈ Cursor.pairsOf pipeline.cursor.diagonal := by
  have hthrough : pair ∈ pairsThrough pipeline.cursor.diagonal := by
    rw [← h.schedule]
    exact List.mem_append_right _ hpair
  obtain ⟨hi, hj, -⟩ := mem_pairsThrough.mp hthrough
  exact Cursor.mem_pairsOf.mpr ⟨hi, hj, h.onDiagonal pair hpair⟩

/-- No more is owed than a diagonal holds. -/
theorem length_owed_le (h : Sound samples pipeline product) :
    pipeline.owed.length ≤ operandLimbs := by
  have hnodup : pipeline.owed.Nodup := by
    have hall := nodup_pairsThrough pipeline.cursor.diagonal
    rw [← h.schedule] at hall
    exact hall.of_append_right
  have hsubset : pipeline.owed ⊆ Cursor.pairsOf pipeline.cursor.diagonal :=
    fun pair hpair => h.mem_pairsOf_of_mem_owed hpair
  exact (hnodup.subperm hsubset).length_le.trans (Cursor.length_pairsOf_le _)

/-- What the next cycle reads is owed. -/
theorem mem_owed_of_mem_reading (h : Sound samples pipeline product) {pair : IndexPair}
    (hpair : pair ∈ pipeline.reading) : pair ∈ pipeline.owed := by
  cases hfinished : pipeline.finished with
  | true => simp [reading, hfinished] at hpair
  | false =>
      rw [← reading_append_owed Operands.zero pipeline hfinished h.idle]
      exact List.mem_append_left _ hpair

/-- What the next cycle issues is owed. -/
theorem mem_owed_of_mem_issuing {pair : IndexPair} (hpair : pair ∈ pipeline.issuing) :
    pair ∈ pipeline.owed := by
  rw [issuing] at hpair
  split at hpair
  · cases hpair
  · rw [owed, ← issuedPairs_append_unissued]
    exact List.mem_append_right _ (List.mem_append_left _ hpair)

/-- What is read next lies on the current diagonal. -/
theorem reading_onDiagonal (h : Sound samples pipeline product) :
    ∀ pair ∈ pipeline.reading, pair.i + pair.j = pipeline.cursor.diagonal :=
  fun pair hpair => h.onDiagonal pair (h.mem_owed_of_mem_reading hpair)

/-- While the batches in flight move, pairs that were owed are read. -/
theorem schedule_moved (h : Sound samples pipeline product) (hfinished : pipeline.finished = false)
    (operands : Operands) :
    (samples ++ Sample.all operands pipeline.reading).map Sample.pair ++
        (pipeline.moved operands).owed = pairsThrough pipeline.cursor.diagonal := by
  rw [← h.schedule, ← reading_append_owed operands pipeline hfinished h.idle]
  simp

/-- What is in flight and what is read next stay below 64 limbs in the place behind the current
diagonal. -/
theorem content_add_le (h : Sound samples pipeline product) (hfinished : pipeline.finished = false)
    (operands : Operands) :
    pipeline.content + operands.sumOf pipeline.reading ≤
      operandLimbs * (Limb.base - 1) * Limb.base := by
  have hplace : 0 < Limb.base ^ pipeline.cursor.diagonal := Nat.pow_pos (by decide)
  have hlevel : pipeline.level = pipeline.cursor.diagonal := by simp [level, hfinished]
  have hread := Sample.total_all_of_diagonal operands pipeline.reading _
    h.reading_onDiagonal
  have hconserved := h.conserved
  rw [hlevel] at hconserved
  -- at the place of the diagonal both are part of what the pairs so far can add at most
  refine Nat.le_of_mul_le_mul_left ?_ hplace
  calc
    Limb.base ^ pipeline.cursor.diagonal *
          (pipeline.content + operands.sumOf pipeline.reading)
        ≤ Sample.total (samples ++ Sample.all operands pipeline.reading) := by
      rw [Sample.total_append, hread, Nat.mul_add]
      omega
    _ ≤ ceiling ((samples ++ Sample.all operands pipeline.reading).map Sample.pair) :=
      Sample.total_le_ceiling _
    _ ≤ ceiling (pairsThrough pipeline.cursor.diagonal) := by
      rw [← h.schedule_moved hfinished operands, ceiling_append]
      exact Nat.le_add_right _ _
    _ ≤ operandLimbs * (Limb.base - 1) * Limb.base ^ (pipeline.cursor.diagonal + 1) :=
      ceiling_pairsThrough_le _
    _ = Limb.base ^ pipeline.cursor.diagonal * (operandLimbs * (Limb.base - 1) * Limb.base) := by
      rw [pow_succ]
      ring

/-- A cycle in which the batches in flight move adds what it reads to the content. -/
theorem content_moved (h : Sound samples pipeline product) (hfinished : pipeline.finished = false)
    (operands : Operands) :
    (pipeline.moved operands).content =
      pipeline.content + operands.sumOf pipeline.reading := by
  refine Pipeline.content_moved operands pipeline hfinished h.idle ?_
  refine Nat.lt_of_le_of_lt (h.content_add_le hfinished operands) ?_
  decide

/-- While the batches in flight move, what is read is added at the place of the diagonal. -/
theorem conserved_moved (h : Sound samples pipeline product) (hfinished : pipeline.finished = false)
    (operands : Operands) :
    Limbs.value (product.toList.take pipeline.cursor.diagonal) +
        Limb.base ^ pipeline.cursor.diagonal * (pipeline.moved operands).content =
      Sample.total (samples ++ Sample.all operands pipeline.reading) := by
  have hlevel : pipeline.level = pipeline.cursor.diagonal := by simp [level, hfinished]
  have hread := Sample.total_all_of_diagonal operands pipeline.reading _
    h.reading_onDiagonal
  have hconserved := h.conserved
  rw [hlevel] at hconserved
  rw [h.content_moved hfinished, Sample.total_append, hread, ← hconserved]
  ring

/-- A cycle in which no diagonal closes keeps the invariant. -/
theorem step_of_open (h : Sound samples pipeline product) (hfinished : pipeline.finished = false)
    (operands : Operands) (counters : Counters) :
    Sound (samples ++ Sample.all operands pipeline.reading)
      { pipeline.moved operands with counters } product where
  idle := registersIdle_moved operands pipeline
  diagonal_lt := by simpa using h.diagonal_lt
  onDiagonal := by
    intro pair hpair
    rw [moved_cursor, issue_diagonal]
    apply h.onDiagonal
    rw [← reading_append_owed operands pipeline hfinished h.idle]
    exact List.mem_append_right _ hpair
  schedule := by
    rw [moved_cursor, issue_diagonal]
    exact h.schedule_moved hfinished operands
  conserved := by
    have hconserved := h.conserved_moved hfinished operands
    simpa [level, hfinished, content] using hconserved
  last := by simp [hfinished]

/-- A closing diagonal stores its limb and carries the rest, so it keeps the invariant. -/
theorem step_of_closing (h : Sound samples pipeline product)
    (hfinished : pipeline.finished = false) (operands : Operands)
    (hexhausted : (pipeline.moved operands).cursor.exhausted = true)
    (hdrained : (pipeline.moved operands).drained = true) :
    Sound (samples ++ Sample.all operands pipeline.reading)
      ((pipeline.moved operands).close product).pipeline
      (product.put pipeline.cursor.diagonal (pipeline.moved operands).accumulator.emit.1) := by
  have hdiagonal : (pipeline.moved operands).cursor.diagonal = pipeline.cursor.diagonal := by simp
  obtain ⟨hissued, hcontent⟩ := content_of_drained hdrained
  have hunissued := (Cursor.unissued_eq_nil_iff _).mpr hexhausted
  have hissuedPairs : ((pipeline.moved operands).close product).pipeline.issuedPairs = [] := by
    rwa [issuedPairs, close_issued, ← issuedPairs]
  have hschedule := h.schedule_moved hfinished operands
  rw [owed, hissued, hunissued, List.append_nil, List.append_nil] at hschedule
  have hidle : ((pipeline.moved operands).close product).pipeline.RegistersIdle := by
    simpa [RegistersIdle] using registersIdle_moved operands pipeline
  -- the sum of the product and of the running sum stays when a limb goes over
  have hconserved : Limbs.value ((product.put pipeline.cursor.diagonal
          (pipeline.moved operands).accumulator.emit.1).toList.take
            ((pipeline.moved operands).close product).pipeline.level) +
        Limb.base ^ ((pipeline.moved operands).close product).pipeline.level *
          ((pipeline.moved operands).close product).pipeline.content =
      Sample.total (samples ++ Sample.all operands pipeline.reading) := by
    rw [level_close _ _ (by simpa using hfinished), content_close _ _ hdrained, hdiagonal,
      Product.value_take_put _ _ _ h.diagonal_lt, ← h.conserved_moved hfinished operands,
      hcontent, ← Wide.value_emit (pipeline.moved operands).accumulator]
    ring
  by_cases hlast : pipeline.cursor.diagonal = lastDiagonal
  · -- the cursor stays where it is, and owes nothing there
    obtain ⟨hcursor, -⟩ := close_of_last product (pipeline.moved operands) (by rwa [hdiagonal])
    have howed : ((pipeline.moved operands).close product).pipeline.owed = [] := by
      rw [owed, hissuedPairs, hcursor, hunissued, List.append_nil]
    refine ⟨hidle, ?_, ?_, ?_, hconserved, ?_⟩
    · rw [hcursor, hdiagonal]
      exact h.diagonal_lt
    · simp [howed]
    · rw [howed, List.append_nil, hcursor, hdiagonal]
      exact hschedule
    · intro _
      exact ⟨by rw [hcursor, hdiagonal, hlast], howed⟩
  · -- the cursor owes all of the next diagonal
    obtain ⟨hcursor, hopen⟩ :=
      close_of_ne_last product (pipeline.moved operands) (by rwa [hdiagonal])
    rw [hdiagonal] at hcursor
    have howed : ((pipeline.moved operands).close product).pipeline.owed =
        Cursor.pairsOf (pipeline.cursor.diagonal + 1) := by
      rw [owed, hissuedPairs, hcursor, List.nil_append, Cursor.pairsOf]
    refine ⟨hidle, ?_, ?_, ?_, hconserved, ?_⟩
    · have hlt := h.diagonal_lt
      rw [hcursor]
      show pipeline.cursor.diagonal + 1 < diagonalCount
      simp only [lastDiagonal] at hlast
      omega
    · intro pair hpair
      rw [howed] at hpair
      rw [hcursor]
      exact (Cursor.mem_pairsOf.mp hpair).2.2
    · rw [howed, hschedule, hcursor]
      exact (pairsThrough_succ _).symm
    · simp [hopen, hfinished]

/-- One cycle reads what is due and keeps the invariant. -/
theorem step (h : Sound samples pipeline product) (operands : Operands) :
    Sound (samples ++ Sample.all operands pipeline.reading)
      (pipeline.step operands product).pipeline (pipeline.step operands product).product := by
  cases hfinished : pipeline.finished with
  | true => simpa [reading, Pipeline.step, hfinished, Sample.all] using h
  | false =>
      obtain ⟨hexhausted, hdrained, hpipeline, hproduct, -⟩ |
        ⟨-, ⟨counters, hpipeline⟩, hproduct, -⟩ := step_cases operands product hfinished
      · rw [hpipeline, hproduct]
        exact h.step_of_closing hfinished operands hexhausted hdrained
      · rw [hpipeline, hproduct]
        exact h.step_of_open hfinished operands counters

/-- A pipeline that has read nothing yet, whatever stands in the product. -/
theorem ofShape (shape : Shape) (product : Product) :
    Sound [] (Pipeline.ofShape shape) product where
  idle := fun _ => ⟨rfl, rfl, rfl⟩
  diagonal_lt := show 0 < diagonalCount by decide
  onDiagonal := by
    intro pair hpair
    exact (Cursor.mem_pairsOf.mp hpair).2.2
  schedule := rfl
  conserved := by simp [Pipeline.ofShape, level, content, RetireQueue.total, Sample.total,
    Cursor.startOf]
  last := by simp [Pipeline.ofShape]

/-- A finished pipeline has read all pairs, and the product writes their sum. -/
theorem value_of_finished (h : Sound samples pipeline product)
    (hfinished : pipeline.finished = true) :
    samples.map Sample.pair = pairsThrough lastDiagonal ∧
      product.value = Sample.total samples ∧ pipeline.content = 0 := by
  obtain ⟨hlast, howed⟩ := h.last hfinished
  have hschedule : samples.map Sample.pair = pairsThrough lastDiagonal := by
    rw [← hlast, ← h.schedule, howed, List.append_nil]
  have hconserved := h.conserved
  have hlevel : pipeline.level = productLimbs := by simp [level, hfinished]
  have htake : product.toList.take productLimbs = product.toList :=
    List.take_of_length_le (by simp)
  rw [hlevel, htake] at hconserved
  -- the sum of all products is too small to leave a carry behind the last limb
  have hbound : Sample.total samples < Limb.base ^ productLimbs := by
    refine Nat.lt_of_le_of_lt (Sample.total_le_ceiling samples) ?_
    rw [hschedule]
    exact ceiling_all_lt
  have hcontent : pipeline.content = 0 := by
    by_contra hne
    have hle := Nat.le_mul_of_pos_right (Limb.base ^ productLimbs) (Nat.pos_of_ne_zero hne)
    omega
  refine ⟨hschedule, ?_, hcontent⟩
  rw [← hconserved, hcontent, Nat.mul_zero, Nat.add_zero, Product.value]

/-- A finished pipeline that has read all pairs from the same factors has multiplied them. -/
theorem value_of_constant {operands : Operands} {pairs : List IndexPair}
    (h : Sound (Sample.all operands pairs) pipeline product)
    (hfinished : pipeline.finished = true) :
    product.value = operands.a.value * operands.b.value := by
  obtain ⟨hschedule, hvalue, -⟩ := h.value_of_finished hfinished
  rw [Sample.map_pair_all] at hschedule
  rw [hvalue, hschedule, Sample.total_all_pairs]

end Sound

end Pipeline

/-! ## Runs -/

/-- A pipeline with the product that it fills. -/
structure Engine where
  pipeline : Pipeline
  product : Product

namespace Engine

/-- An engine at the start of a run, whatever stands in its product. -/
def start (shape : Shape) (product : Product) : Engine :=
  ⟨Pipeline.ofShape shape, product⟩

/-- What happens in one clock cycle. -/
def tick (operands : Operands) (engine : Engine) : PipelineStep :=
  engine.pipeline.step operands engine.product

/-- The engine after one clock cycle. -/
def step (operands : Operands) (engine : Engine) : Engine :=
  ⟨(engine.tick operands).pipeline, (engine.tick operands).product⟩

/-- The engine after some cycles, where cycle `t`, counted from 1, works on the factors `caches t`.
-/
def after (caches : Nat → Operands) (engine : Engine) : Nat → Engine
  | 0 => engine
  | cycles + 1 => (engine.after caches cycles).step (caches (cycles + 1))

/-- What the engine has read after some cycles, in order. -/
def samples (caches : Nat → Operands) (engine : Engine) (cycles : Nat) : List Sample :=
  (List.range cycles).flatMap fun cycle =>
    Sample.all (caches (cycle + 1)) (engine.after caches cycle).pipeline.reading

theorem samples_succ (caches : Nat → Operands) (engine : Engine) (cycles : Nat) :
    engine.samples caches (cycles + 1) =
      engine.samples caches cycles ++
        Sample.all (caches (cycles + 1)) (engine.after caches cycles).pipeline.reading := by
  rw [samples, List.range_succ, List.flatMap_append]
  simp [samples]

/-- The invariant holds after every number of cycles. -/
theorem sound_after (caches : Nat → Operands) (shape : Shape) (product : Product) (cycles : Nat) :
    Pipeline.Sound ((start shape product).samples caches cycles)
      ((start shape product).after caches cycles).pipeline
      ((start shape product).after caches cycles).product := by
  induction cycles with
  | zero => exact Pipeline.Sound.ofShape shape product
  | succ cycles ih =>
      rw [samples_succ]
      exact ih.step (caches (cycles + 1))

/-- A run keeps the shape. -/
@[simp] theorem after_shape (caches : Nat → Operands) (engine : Engine) (cycles : Nat) :
    (engine.after caches cycles).pipeline.shape = engine.pipeline.shape := by
  induction cycles with
  | zero => rfl
  | succ cycles ih => simpa [after, step, tick] using ih

/-! ## Factors that do not change -/

section Constant

variable (operands : Operands) (shape : Shape) (product : Product)

/-- A run over the same factors has read all its samples from them. -/
theorem sound_of_constant (cycles : Nat) :
    ∃ pairs, Pipeline.Sound (Sample.all operands pairs)
      ((start shape product).after (fun _ => operands) cycles).pipeline
      ((start shape product).after (fun _ => operands) cycles).product := by
  induction cycles with
  | zero => exact ⟨[], Pipeline.Sound.ofShape shape product⟩
  | succ cycles ih =>
      obtain ⟨pairs, hsound⟩ := ih
      have hstep := hsound.step operands
      rw [← Sample.all_append] at hstep
      exact ⟨_, hstep⟩

/-- A finished run over the same factors has multiplied them. -/
theorem value_of_finished {cycles : Nat}
    (h : ((start shape product).after (fun _ => operands) cycles).pipeline.finished = true) :
    ((start shape product).after (fun _ => operands) cycles).product.value =
      operands.a.value * operands.b.value := by
  obtain ⟨pairs, hsound⟩ := sound_of_constant operands shape product cycles
  exact hsound.value_of_constant h

end Constant

end Engine

end WideMultiplier
