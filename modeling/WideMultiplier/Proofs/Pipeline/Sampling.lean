import WideMultiplier.Profile
import WideMultiplier.Proofs.Pipeline.Progress
import WideMultiplier.Proofs.SchoolbookValue

/-!
# When each pair of limbs is read

The factors may change between any two cycles of a run, so what a pipeline computes hangs on the
cycle in which it reads each pair of limbs. `Engine.SampledAt` says that every pair is issued in one
cycle, that it is read in that cycle or in the one behind it, as the stage model has it, and that
the product adds up what was read. `Engine.every_pair_sampled_once` finds these cycles for every
shape and every run.
-/

namespace WideMultiplier

open scoped BigOperators

/-- If parts put together hold something once, one of them holds it once and the others do not hold
it. -/
theorem exists_part_of_count {α : Type} [BEq α] (parts : Nat → List α) (member : α) (count : Nat)
    (h : ((List.range count).flatMap parts).count member = 1) :
    ∃ place < count, ∀ part < count,
      (parts part).count member = if part = place then 1 else 0 := by
  have hnone : ∀ count, ((List.range count).flatMap parts).count member = 0 →
      ∀ part < count, (parts part).count member = 0 := by
    intro count h part hpart
    rw [List.count_flatMap, List.sum_eq_zero_iff] at h
    exact h _ (List.mem_map.mpr ⟨part, List.mem_range.mpr hpart, rfl⟩)
  induction count with
  | zero => simp at h
  | succ count ih =>
      have hsplit : ((List.range (count + 1)).flatMap parts).count member =
          ((List.range count).flatMap parts).count member + (parts count).count member := by
        simp [List.range_succ, List.flatMap_append]
      rw [hsplit] at h
      cases hlast : (parts count).count member with
      | zero =>
          obtain ⟨place, hplace, hparts⟩ := ih (by omega)
          refine ⟨place, by omega, fun part hpart => ?_⟩
          by_cases hcount : part = count
          · rw [hcount, hlast, if_neg (by omega)]
          · exact hparts part (by omega)
      | succ more =>
          have hbefore := hnone count (by omega)
          refine ⟨count, by omega, fun part hpart => ?_⟩
          by_cases hcount : part = count
          · rw [hcount, if_pos rfl]
            omega
          · rw [if_neg hcount]
            exact hbefore part (by omega)

/-- Whether a pair names a limb of each factor. -/
def IndexPair.InRange (pair : IndexPair) : Prop :=
  pair.i < operandLimbs ∧ pair.j < operandLimbs

instance (pair : IndexPair) : Decidable pair.InRange :=
  inferInstanceAs (Decidable (_ ∧ _))

/-- All diagonals together hold each pair in range once. -/
theorem count_pairsThrough_last (pair : IndexPair) :
    (pairsThrough lastDiagonal).count pair = if pair.InRange then 1 else 0 := by
  have hmem : pair ∈ pairsThrough lastDiagonal ↔ pair.InRange := by
    rw [mem_pairsThrough, IndexPair.InRange]
    simp only [operandLimbs, lastDiagonal, diagonalCount, productLimbs]
    omega
  split
  · next hrange => exact List.count_eq_one_of_mem (nodup_pairsThrough _) (hmem.mpr hrange)
  · next hrange => exact List.count_eq_zero.mpr fun h => hrange (hmem.mp h)

/-! ## What a cycle reads -/

/-- The cycles between the issue of a pair and its fetch. -/
def StageModel.readDelay : StageModel → Nat
  | .combinational => 0
  | .staged => 1

/-- A batch is the same when it is fetched from factors that agree on its pairs. -/
theorem FetchedBatch.fetch_congr {operands other : Operands} {batch : Batch}
    (h : ∀ pair ∈ batch.pairs,
      other.pairAt pair.i pair.j = operands.pairAt pair.i pair.j) :
    fetch other batch = fetch operands batch := by
  rw [fetch, fetch, List.map_congr_left h]

namespace Pipeline

/-- A cycle looks at no limbs but those of the pairs that it reads. -/
theorem step_congr {operands other : Operands} (product : Product) (pipeline : Pipeline)
    (h : ∀ pair ∈ pipeline.reading,
      other.pairAt pair.i pair.j = operands.pairAt pair.i pair.j) :
    pipeline.step other product = pipeline.step operands product := by
  cases hfinished : pipeline.finished with
  | true => simp [step, hfinished]
  | false =>
      -- the factors are only used to fetch one batch, which is the one that is read
      have hshift : shift other pipeline.counted = shift operands pipeline.counted := by
        have hcounted : pipeline.counted.shape.stages = pipeline.shape.stages := rfl
        cases hstages : pipeline.shape.stages with
        | staged =>
            simp only [reading, hfinished, hstages, issuedPairs] at h
            have hfetch : pipeline.issued.map (FetchedBatch.fetch other) =
                pipeline.issued.map (FetchedBatch.fetch operands) := by
              cases hissued : pipeline.issued with
              | none => rfl
              | some batch =>
                  rw [hissued] at h
                  exact congrArg some (FetchedBatch.fetch_congr h)
            have hissued : pipeline.counted.accumulate.1.issued = pipeline.issued := by
              rw [accumulate_issued]
              rfl
            simp only [shift, hcounted, hstages, shiftStaged, hissued, hfetch]
        | combinational =>
            simp only [reading, issuing, hfinished, hstages, issuedPairs] at h
            have hfetch : (pipeline.issue.1.issued.map fun batch =>
                  (FetchedBatch.fetch other batch).multiply) =
                pipeline.issue.1.issued.map fun batch =>
                  (FetchedBatch.fetch operands batch).multiply := by
              cases hissued : pipeline.issue.1.issued with
              | none => rfl
              | some batch =>
                  rw [hissued] at h
                  exact congrArg (fun batch => some batch.multiply) (FetchedBatch.fetch_congr h)
            simp only [shift, hcounted, hstages, shiftCombinational,
              (issue_counted pipeline).1, hfetch]
      have hmoved : pipeline.moved other = pipeline.moved operands := congrArg Prod.fst hshift
      have hevents : pipeline.movedEvents other = pipeline.movedEvents operands :=
        congrArg Prod.snd hshift
      rw [step_eq other product hfinished, hmoved, hevents,
        step_eq operands product hfinished]

section Step

variable (operands : Operands) (product : Product) (pipeline : Pipeline)

/-- What a cycle leaves in the issue register is what moving the batches leaves there. -/
theorem issuedPairs_step (hfinished : pipeline.finished = false) :
    (pipeline.step operands product).pipeline.issuedPairs =
      (pipeline.moved operands).issuedPairs := by
  obtain ⟨-, -, hpipeline, -, -⟩ | ⟨-, ⟨counters, hpipeline⟩, -, -⟩ :=
    step_cases operands product hfinished
  · rw [hpipeline, issuedPairs, close_issued, issuedPairs]
  · rw [hpipeline]
    rfl

/-- A cycle reads from the front of what is issued, and puts what it issues behind it. -/
theorem reading_append_issuedPairs_step (hidle : pipeline.RegistersIdle) :
    pipeline.reading ++ (pipeline.step operands product).pipeline.issuedPairs =
      pipeline.issuedPairs ++ pipeline.issuing := by
  cases hfinished : pipeline.finished with
  | true => simp [reading, issuing, step, hfinished]
  | false =>
      rw [issuedPairs_step operands product pipeline hfinished]
      exact issuedPairs_moved operands pipeline hfinished hidle

/-- A combinational pipeline reads what it issues. -/
theorem reading_of_combinational (hstages : pipeline.shape.stages = .combinational) :
    pipeline.reading = pipeline.issuing := by
  cases hfinished : pipeline.finished <;> simp [reading, issuing, hfinished, hstages]

/-- A staged pipeline reads what the cycle before issued. -/
theorem reading_step_of_staged (hstages : pipeline.shape.stages = .staged) :
    (pipeline.step operands product).pipeline.reading = pipeline.issuing := by
  cases hfinished : pipeline.finished with
  | true => simp [reading, issuing, step, hfinished]
  | false =>
      have hmoved : (pipeline.moved operands).issuedPairs = pipeline.issuing := by
        simp [issuedPairs, issuing, hfinished, (moved_of_staged operands pipeline hstages).1]
      have hpairs := issuedPairs_step operands product pipeline hfinished
      obtain ⟨-, hdrained, -, -, -⟩ | ⟨-, ⟨counters, hpipeline⟩, -, -⟩ :=
        step_cases operands product hfinished
      · -- a closing diagonal has nothing left in the register
        have hnone := (content_of_drained hdrained).1
        rw [← hmoved, hnone, reading, step_shape, hstages, hpairs, hnone]
        exact ite_self _
      · have hopen : (pipeline.step operands product).pipeline.finished = false := by
          simp [hpipeline, hfinished]
        rw [← hmoved, ← hpairs, reading, step_shape, hstages, hopen]
        rfl

end Step

end Pipeline

/-! ## What a run issues and reads -/

namespace Engine

section Issues

variable (caches : Nat → Operands) (engine : Engine)

/-- What the engine has issued after some cycles, in order. -/
def issues (cycles : Nat) : List IndexPair :=
  (List.range cycles).flatMap fun cycle => (engine.after caches cycle).pipeline.issuing

theorem issues_succ (cycles : Nat) :
    engine.issues caches (cycles + 1) =
      engine.issues caches cycles ++ (engine.after caches cycles).pipeline.issuing := by
  rw [issues, List.range_succ, List.flatMap_append]
  simp [issues]

/-- A finished engine does nothing more. -/
theorem after_of_finished {cycles : Nat}
    (h : (engine.after caches cycles).pipeline.finished = true) (more : Nat) :
    engine.after caches (cycles + more) = engine.after caches cycles := by
  induction more with
  | zero => rfl
  | succ more ih =>
      rw [← Nat.add_assoc, after, ih, step, tick, Pipeline.step, if_pos h]

end Issues

variable {shape : Shape} (caches : Nat → Operands) (product : Product)

/-- What is issued was read or stands in the issue register. -/
theorem map_pair_samples (cycles : Nat) :
    ((start shape product).samples caches cycles).map Sample.pair ++
        ((start shape product).after caches cycles).pipeline.issuedPairs =
      (start shape product).issues caches cycles := by
  induction cycles with
  | zero => rfl
  | succ cycles ih =>
      have hidle := (sound_after caches shape product cycles).idle
      have hstep := Pipeline.reading_append_issuedPairs_step (caches (cycles + 1))
        ((start shape product).after caches cycles).product _ hidle
      rw [samples_succ, issues_succ, ← ih, List.map_append, Sample.map_pair_all,
        List.append_assoc, List.append_assoc]
      exact congrArg _ hstep

/-- A finished run has issued all pairs in order. -/
theorem issues_of_finished {cycles : Nat}
    (h : ((start shape product).after caches cycles).pipeline.finished = true) :
    (start shape product).issues caches cycles = pairsThrough lastDiagonal := by
  have hsound := sound_after caches shape product cycles
  obtain ⟨-, howed⟩ := hsound.last h
  have hissued := (List.append_eq_nil_iff.mp howed).1
  rw [← map_pair_samples, ← (hsound.value_of_finished h).1]
  exact (congrArg _ hissued).trans (List.append_nil _)

/-- Every pair in range is issued in one cycle, and no other pair is issued. -/
theorem exists_issue_cycle (hvalid : shape.validate = .ok ()) (pair : IndexPair) :
    ∃ cycle, 0 < cycle ∧ ∀ cycles,
      ((start shape product).after caches cycles).pipeline.issuing.count pair =
        if pair.InRange ∧ cycles + 1 = cycle then 1 else 0 := by
  have hlive : (start shape product).pipeline.Live := Pipeline.live_ofShape hvalid
  obtain ⟨total, htotal⟩ : ∃ total,
      ((start shape product).after caches total).pipeline.finished = true :=
    ⟨_, finished_of_workload_le caches hlive (Nat.le_refl _)⟩
  have hcount := count_pairsThrough_last pair
  rw [← issues_of_finished caches product htotal] at hcount
  -- after its last cycle a run issues nothing
  have hafter : ∀ cycles, total ≤ cycles →
      ((start shape product).after caches cycles).pipeline.issuing.count pair = 0 := by
    intro cycles hcycles
    obtain ⟨more, rfl⟩ := Nat.exists_eq_add_of_le hcycles
    rw [after_of_finished caches _ htotal, Pipeline.issuing, htotal]
    rfl
  by_cases hrange : pair.InRange
  · rw [if_pos hrange] at hcount
    obtain ⟨place, hplace, hparts⟩ := exists_part_of_count _ _ _ hcount
    refine ⟨place + 1, by omega, fun cycles => ?_⟩
    by_cases hcycles : cycles < total
    · rw [hparts cycles hcycles]
      simp [hrange]
    · rw [hafter cycles (by omega), if_neg (by omega)]
  · refine ⟨1, by omega, fun cycles => ?_⟩
    rw [if_neg (by simp [hrange])]
    by_cases hcycles : cycles < total
    · rw [if_neg hrange, issues, List.count_flatMap, List.sum_eq_zero_iff] at hcount
      exact hcount _ (List.mem_map.mpr ⟨cycles, List.mem_range.mpr hcycles, rfl⟩)
    · exact hafter cycles (by omega)

/-- The cycles in which a run issues the pairs, and what follows from them. Cycle `t`, counted from
1, works on the factors `caches t`. -/
structure SampledAt (cycle : IndexPair → Nat) (caches : Nat → Operands) (engine : Engine) :
    Prop where
  /-- Cycles are counted from 1. -/
  cycle_pos : ∀ pair, 0 < cycle pair
  /-- Each pair in range is issued once, in its cycle, and no other pair is ever issued. -/
  issued : ∀ pair cycles, (engine.after caches cycles).pipeline.issuing.count pair =
    if pair.InRange ∧ cycles + 1 = cycle pair then 1 else 0
  /-- Each pair in range is read once, in its cycle or in the one behind it, and no other pair is
  ever read. -/
  read : ∀ pair cycles, (engine.after caches cycles).pipeline.reading.count pair =
    if pair.InRange ∧ cycles + 1 = cycle pair + engine.pipeline.shape.stages.readDelay then 1
    else 0
  /-- A cycle looks at no limbs but those of the pairs that it reads. -/
  read_only : ∀ cycles other,
    (∀ pair ∈ (engine.after caches cycles).pipeline.reading,
      other.pairAt pair.i pair.j = (caches (cycles + 1)).pairAt pair.i pair.j) →
    (engine.after caches cycles).step other = engine.after caches (cycles + 1)
  /-- A finished run has added up the products of the limbs that were read, each at its place. -/
  value : ∀ cycles, (engine.after caches cycles).pipeline.finished = true →
    (engine.after caches cycles).product.value =
      ∑ i : Fin operandLimbs, ∑ j : Fin operandLimbs,
        ((caches (cycle ⟨i, j⟩ + engine.pipeline.shape.stages.readDelay)).a.get i).toNat *
          ((caches (cycle ⟨i, j⟩ + engine.pipeline.shape.stages.readDelay)).b.get j).toNat *
            Limb.base ^ (i.val + j.val)

/-- A pair is read as many cycles after its issue as the stage model has it. -/
theorem count_reading {pair : IndexPair} {cycle : Nat} (hpos : 0 < cycle)
    (h : ∀ cycles, ((start shape product).after caches cycles).pipeline.issuing.count pair =
      if pair.InRange ∧ cycles + 1 = cycle then 1 else 0) (cycles : Nat) :
    ((start shape product).after caches cycles).pipeline.reading.count pair =
      if pair.InRange ∧ cycles + 1 = cycle + shape.stages.readDelay then 1 else 0 := by
  have hshape : ∀ cycles, ((start shape product).after caches cycles).pipeline.shape = shape :=
    after_shape caches (start shape product)
  cases hstages : shape.stages with
  | combinational =>
      rw [Pipeline.reading_of_combinational _ (by rw [hshape, hstages]), h]
      rfl
  | staged =>
      cases cycles with
      | zero =>
          have hnone : ((start shape product).after caches 0).pipeline.reading = [] := by
            simp [after, start, Pipeline.ofShape, Pipeline.reading, Pipeline.issuedPairs, hstages]
          rw [hnone, List.count_nil, if_neg]
          simp only [StageModel.readDelay]
          omega
      | succ cycles =>
          rw [after, step, tick, Pipeline.reading_step_of_staged _ _ _ (by rw [hshape, hstages]), h]
          simp only [StageModel.readDelay, Nat.add_right_cancel_iff]

/-- What a run has read is what the cycles of the pairs say. -/
theorem total_samples {cycle : IndexPair → Nat} {cycles : Nat}
    (h : ∀ pair cycles,
      ((start shape product).after caches cycles).pipeline.reading.count pair =
        if pair.InRange ∧ cycles + 1 = cycle pair then 1 else 0)
    (hfinished : ((start shape product).after caches cycles).pipeline.finished = true) :
    Sample.total ((start shape product).samples caches cycles) =
      ∑ i : Fin operandLimbs, ∑ j : Fin operandLimbs,
        ((caches (cycle ⟨i, j⟩)).a.get i).toNat * ((caches (cycle ⟨i, j⟩)).b.get j).toNat *
          Limb.base ^ (i.val + j.val) := by
  -- a pair is read in one cycle only, so its sample is of the factors of that cycle
  have hsource : ∀ sample ∈ (start shape product).samples caches cycles,
      sample.term = (caches (cycle sample.pair)).limbProduct sample.pair * sample.pair.place := by
    intro sample hsample
    obtain ⟨time, -, hsample⟩ := List.mem_flatMap.mp hsample
    obtain ⟨pair, hpair, rfl⟩ := List.mem_map.mp hsample
    have hread : 0 < ((start shape product).after caches time).pipeline.reading.count pair :=
      List.count_pos_iff.mpr hpair
    rw [h] at hread
    split at hread
    · next hcycle => rw [Sample.term, hcycle.2]
    · cases hread
  have hpairs := ((sound_after caches shape product cycles).value_of_finished hfinished).1
  calc
    Sample.total ((start shape product).samples caches cycles)
        = ((pairsThrough lastDiagonal).map fun pair =>
            (caches (cycle ⟨pair.i, pair.j⟩)).limbProduct ⟨pair.i, pair.j⟩ *
              Limb.base ^ (pair.i + pair.j)).sum := by
      rw [Sample.total, List.map_congr_left hsource, ← hpairs, List.map_map]
      rfl
    _ = ∑ i : Fin operandLimbs, ∑ j : Fin operandLimbs,
          (caches (cycle ⟨i, j⟩)).limbProduct ⟨i, j⟩ * Limb.base ^ (i.val + j.val) :=
      sum_pairsThrough_last fun i j =>
        (caches (cycle ⟨i, j⟩)).limbProduct ⟨i, j⟩ * Limb.base ^ (i + j)
    _ = _ := by
      refine Finset.sum_congr rfl fun i _ => Finset.sum_congr rfl fun j _ => ?_
      rw [Operands.limbProduct_mk]

/-- Every run of a valid shape comes to its end, issues and reads every pair of limbs once, and adds
up what it reads, whatever stood in the product and however the factors change. With factors that
do not change it gives the schoolbook product. -/
theorem every_pair_sampled_once (hvalid : shape.validate = .ok ()) :
    (∃ cycle, SampledAt cycle caches (start shape product)) ∧
      (∃ cycles, ((start shape product).after caches cycles).pipeline.finished = true) ∧
      ∀ operands cycles, (∀ cycle, caches cycle = operands) →
        ((start shape product).after caches cycles).pipeline.finished = true →
        ((start shape product).after caches cycles).product = operands.schoolbook := by
  have hlive : (start shape product).pipeline.Live := Pipeline.live_ofShape hvalid
  choose cycle hpos hissued using exists_issue_cycle caches product hvalid
  have hread := fun pair => count_reading caches product (hpos pair) (hissued pair)
  have hvalue : ∀ cycles, ((start shape product).after caches cycles).pipeline.finished = true →
      ((start shape product).after caches cycles).product.value = _ := fun cycles hfinished =>
    ((sound_after caches shape product cycles).value_of_finished hfinished).2.1.trans
      (total_samples caches product hread hfinished)
  refine ⟨⟨cycle, hpos, hissued, hread, ?_, hvalue⟩, ?_, ?_⟩
  · intro cycles other hother
    rw [step, tick, Pipeline.step_congr _ _ hother]
    rfl
  · exact ⟨_, finished_of_workload_le caches hlive (Nat.le_refl _)⟩
  · intro operands cycles hconstant hfinished
    obtain rfl : caches = fun _ => operands := funext hconstant
    apply Product.value_inj
    rw [value_of_finished operands shape product hfinished, Operands.value_schoolbook]

/-- The cycle of a pair is the one that issues it. -/
theorem SampledAt.cycle_eq {cycle : IndexPair → Nat} {caches : Nat → Operands} {engine : Engine}
    (h : SampledAt cycle caches engine) {pair : IndexPair} {cycles : Nat}
    (hissued : 0 < (engine.after caches cycles).pipeline.issuing.count pair) :
    cycle pair = cycles + 1 := by
  rw [h.issued] at hissued
  split at hissued
  · next hcycle => exact hcycle.2.symm
  · cases hissued

/-- Factors that grow from cycle to cycle. -/
def growing (cycle : Nat) : Operands :=
  ⟨Vector.replicate operandLimbs (UInt64.ofNat cycle), Vector.replicate operandLimbs 5⟩

/-- Two runs of the single-cycle profile: over factors that grow, so that its first two diagonals
read different limbs, and over factors that stay. -/
theorem every_pair_sampled_once_singleCycle :
    Profile.singleCycle.shape.validate = .ok () ∧ growing 1 ≠ growing 2 ∧
      (∃ cycle, SampledAt cycle growing (start Profile.singleCycle.shape Product.zero) ∧
        cycle ⟨0, 0⟩ = 1 ∧ cycle ⟨1, 0⟩ = 2) ∧
      ((start Profile.singleCycle.shape Product.zero).after (fun _ => growing 3)
        diagonalCount).product = (growing 3).schoolbook := by
  obtain ⟨⟨cycle, hsampled⟩, -, -⟩ :=
    @every_pair_sampled_once Profile.singleCycle.shape growing Product.zero rfl
  obtain ⟨-, -, hstays⟩ :=
    @every_pair_sampled_once Profile.singleCycle.shape (fun _ => growing 3) Product.zero rfl
  refine ⟨rfl, by decide, ⟨cycle, hsampled, ?_, ?_⟩, ?_⟩
  · exact @SampledAt.cycle_eq _ _ _ hsampled ⟨0, 0⟩ 0 (by decide +kernel)
  · exact @SampledAt.cycle_eq _ _ _ hsampled ⟨1, 0⟩ 1 (by decide +kernel)
  · exact hstays (growing 3) diagonalCount (fun _ => rfl) (by decide +kernel)

end Engine

end WideMultiplier
