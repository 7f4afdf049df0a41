import WideMultiplier.Proofs.Multiplier.Restoring

/-!
# Restored runs end alike

A snapshot may be taken in the middle of a run, and taken over by a multiplier of another shape. The
run then begins again, on the factors of the snapshot, so both multipliers end with the same product
and show the same state (`Multiplier.snapshot_run`). What a write-back does depends on nothing else
(`Multiplier.writeBackAll_of_snapshot_eq`), so both leave the same memory:
`Multiplier.Reachable.restored_converges`.
-/

namespace WideMultiplier

namespace Multiplier

/-! ## Runs -/

/-- What a run leaves alone: the addresses of the factors, and how far they are loaded. -/
structure SameLoad (before after : Multiplier) : Prop where
  loadDone : after.flags.loadDone = before.flags.loadDone
  baseA : after.transfer.baseA = before.transfer.baseA
  baseB : after.transfer.baseB = before.transfer.baseB
  loadOffset : after.transfer.loadOffset = before.transfer.loadOffset

/-- An advance leaves the load alone. -/
theorem SameLoad.advance {before multiplier : Multiplier} (h : SameLoad before multiplier) :
    SameLoad before multiplier.advance.multiplier := by
  cases multiplier.advance_case with
  | idle hdone hafter houtcome =>
      rw [hafter]
      exact h
  | started hpending hprogress hafter houtcome =>
      rw [hafter]
      exact ⟨h.loadDone, h.baseA, h.baseB, h.loadOffset⟩
  | cycle hpending hprogress hfinished hafter closed houtcome =>
      rw [hafter]
      exact ⟨h.loadDone, h.baseA, h.baseB, h.loadOffset⟩
  | completed hpending hprogress hfinished hafter cycles houtcome =>
      rw [hafter]
      exact ⟨h.loadDone, h.baseA, h.baseB, h.loadOffset⟩

/-- Advancing to the end leaves the load alone. -/
theorem sameLoad_run (multiplier : Multiplier) : SameLoad multiplier multiplier.run.multiplier :=
  runWithin_induction (motive := SameLoad multiplier) (fun _ hkept _ => hkept.advance) advanceBudget
    ⟨rfl, rfl, rfl, rfl⟩

/-- What a snapshot shows behind a run is the product and how far the factors were loaded. -/
theorem Multiplied.snapshot_eq {operands : Operands} {base : UInt64}
    {before multiplier : Multiplier} (h : Multiplied operands base multiplier)
    (hload : SameLoad before multiplier)
    (hfree : multiplier.progress = .notStarted) :
    multiplier.snapshot =
      { version := .v1
        operandA := operands.a.toArray
        operandB := operands.b.toArray
        product := multiplier.product.toArray
        flags := ⟨true, before.flags.loadDone, false⟩
        progress := .notStarted
        transfer := ⟨before.transfer.baseA, before.transfer.baseB, base,
          before.transfer.loadOffset, 0⟩ } := by
  rw [← h.operands_eq, ← h.baseProduct, ← h.multiplyDone, ← h.writeDone, ← h.writeOffset,
    ← hload.loadDone, ← hload.baseA, ← hload.baseB, ← hload.loadOffset, ← hfree]
  rfl

/-- A multiplier that takes over a snapshot shows the same behind its run as the one that the
snapshot was taken from. -/
theorem snapshot_run {config other : Config} {unit twin : Multiplier} (h : WellFormed config unit)
    (htwin : WellFormed other twin) :
    (unit.resumedOn twin).run.multiplier.snapshot = unit.run.multiplier.snapshot := by
  have hresumed : WellFormed other (unit.resumedOn twin) :=
    htwin.restore (restore_of_wellFormed h twin)
  cases hdone : unit.flags.multiplyDone with
  | true =>
      -- nothing is to be advanced on either side
      have hfree : unit.progress = .notStarted := by
        cases hprogress : unit.progress with
        | notStarted => rfl
        | running =>
            obtain ⟨cycles, hrun⟩ := h.consistent.running hprogress
            rw [hrun.pending] at hdone
            cases hdone
      have hright : (unit.resumedOn twin).flags.multiplyDone = true := hdone
      rw [run, run, runWithin_of_done _ hdone, runWithin_of_done _ hright, snapshot, snapshot,
        hfree]
      rfl
  | false =>
      have hleft := multiplied_run h.consistent hdone
      have hright : Multiplied unit.operands unit.transfer.baseProduct
          (unit.resumedOn twin).run.multiplier := multiplied_run hresumed.consistent hdone
      have hproduct : (unit.resumedOn twin).run.multiplier.product = unit.run.multiplier.product :=
        Product.value_inj (hright.value.trans hleft.value.symm)
      rw [hleft.snapshot_eq unit.sameLoad_run (run_progress h.consistent),
        hright.snapshot_eq (unit.resumedOn twin).sameLoad_run (run_progress hresumed.consistent),
        hproduct]
      rfl

/-! ## Write-backs -/

/-- Multipliers that show the same differ at most in the configuration and in the pipeline. -/
theorem exists_of_snapshot_eq {left right : Multiplier} (h : right.snapshot = left.snapshot) :
    ∃ config pipeline, right = { left with config, pipeline } := by
  obtain ⟨config, ⟨a, b⟩, product, flags, progress, transfer, pipeline⟩ := right
  simp only [snapshot, Snapshot.mk.injEq, Vector.toArray_inj] at h
  obtain ⟨-, rfl, rfl, rfl, rfl, rfl, rfl⟩ := h
  exact ⟨config, pipeline, rfl⟩

section Drains

variable {σ : Type} [LimbBus σ] {left right : Multiplier}

/-- A cycle of a write-back does the same on multipliers that show the same. -/
theorem writeBackCycle_of_snapshot_eq (h : right.snapshot = left.snapshot) (bus : σ) :
    (right.writeBackCycle bus).multiplier.snapshot =
        (left.writeBackCycle bus).multiplier.snapshot ∧
      (right.writeBackCycle bus).bus = (left.writeBackCycle bus).bus ∧
      (right.writeBackCycle bus).result = (left.writeBackCycle bus).result := by
  obtain ⟨config, pipeline, rfl⟩ := exists_of_snapshot_eq h
  unfold writeBackCycle
  dsimp only
  split
  · exact ⟨rfl, rfl, rfl⟩
  · cases left.product.limb left.transfer.writeOffset with
    | error fault => exact ⟨rfl, rfl, rfl⟩
    | ok limb =>
        dsimp only
        obtain ⟨fault | done, after⟩ := LimbBus.write (Transfer.limbAddress
          left.transfer.baseProduct left.transfer.writeOffset) limb bus
        · exact ⟨rfl, rfl, rfl⟩
        · exact ⟨rfl, rfl, rfl⟩

/-- A write-back does the same on multipliers that show the same. -/
theorem writeBackAll_of_snapshot_eq (h : right.snapshot = left.snapshot) {budget cycles : Nat}
    {bus after : σ} {first : Multiplier}
    (hleft : left.writeBackAll budget bus = .ok (cycles, first, after)) :
    ∃ second, right.writeBackAll budget bus = .ok (cycles, second, after) ∧
      second.snapshot = first.snapshot := by
  induction budget generalizing left right bus cycles with
  | zero =>
      cases hleft
      exact ⟨right, rfl, h⟩
  | succ budget ih =>
      obtain ⟨hsnapshot, hbus, hresult⟩ := writeBackCycle_of_snapshot_eq h bus
      rw [writeBackAll] at hleft ⊢
      rw [hresult, hbus]
      cases hcycle : (left.writeBackCycle bus).result with
      | error fault =>
          rw [hcycle] at hleft
          cases hleft
      | ok done =>
          rw [hcycle] at hleft
          cases done with
          | true =>
              cases hleft
              exact ⟨_, rfl, hsnapshot⟩
          | false =>
              dsimp only at hleft ⊢
              split at hleft
              · cases hleft
              · next count rest hrest =>
                  cases hleft
                  obtain ⟨second, hsecond, hshown⟩ := ih hsnapshot hrest
                  rw [hsecond]
                  exact ⟨second, rfl, hshown⟩

/-- A write-back that is done takes one cycle to say so. -/
theorem writeBackAll_of_done {multiplier : Multiplier} (h : multiplier.flags.writeDone = true)
    (budget : Nat) (bus : σ) :
    multiplier.writeBackAll (budget + 1) bus = .ok (1, multiplier, bus) := by
  rw [writeBackAll, writeBackCycle_of_idle (.inl h), h]

end Drains

/-- A multiplier with a complete product writes it back over a memory that its buffer lies in. -/
theorem WellFormed.writeBackAll_memory {config : Config} {multiplier : Multiplier}
    (h : WellFormed config multiplier) (hcomplete : multiplier.flags.multiplyDone = true)
    {memory : Memory}
    (hrange : multiplier.transfer.baseProduct.toNat + productBytes ≤ memory.size) :
    ∃ cycles written after,
      multiplier.writeBackAll productLimbs memory = .ok (cycles, written, after) ∧
        written.flags.writeDone = true ∧
        written.finishedProduct = some multiplier.product := by
  rcases idle_or_writing h.drain with hidle | hwriting
  · have hdone : multiplier.flags.writeDone = true := by
      rcases hidle with hdone | hopen
      · exact hdone
      · rw [hcomplete] at hopen
        cases hopen
    refine ⟨1, multiplier, memory, writeBackAll_of_done hdone _ memory, hdone, ?_⟩
    rw [finishedProduct, if_pos hcomplete]
  · obtain ⟨written, after, hall, hto, -⟩ := writeBackAll_of_writing hwriting
      (Memory.servesWrites hrange) rfl (Nat.sub_le productLimbs _)
    refine ⟨_, written, after, hall, hto.done, ?_⟩
    rw [finishedProduct, if_pos hto.multiplyDone, hto.product_eq]

/-- A snapshot of a multiplier in any state is taken over by every other, also by one of another
shape. When both then advance to the end and write the product back to equal memories that its
buffer lies in, they hold the same product and transfers and leave equal memories. If a run was
pending, the product is that of the factors in the snapshot. -/
theorem Reachable.restored_converges {config other : Config} {unit twin : Multiplier}
    (h : Reachable config unit) (htwin : Reachable other twin) :
    ∃ restored, twin.restore unit.snapshot = .ok restored ∧
      ∀ memory : Memory, unit.transfer.baseProduct.toNat + productBytes ≤ memory.size →
        ∃ cycles first second written product,
          unit.run.multiplier.writeBackAll productLimbs memory = .ok (cycles, first, written) ∧
            restored.run.multiplier.writeBackAll productLimbs memory =
              .ok (cycles, second, written) ∧
            first.flags.writeDone = true ∧ second.flags.writeDone = true ∧
            first.finishedProduct = some product ∧ second.finishedProduct = some product ∧
            second.transfer = first.transfer ∧
            (unit.flags.multiplyDone = false →
              product.value = unit.operands.a.value * unit.operands.b.value) := by
  have hunit := h.wellFormed
  refine ⟨_, restore_of_wellFormed hunit twin, fun memory hrange => ?_⟩
  have hbase : unit.run.multiplier.transfer.baseProduct = unit.transfer.baseProduct := by
    cases hdone : unit.flags.multiplyDone with
    | true => rw [run, runWithin_of_done _ hdone]
    | false => exact (multiplied_run hunit.consistent hdone).baseProduct
  rw [← hbase] at hrange
  obtain ⟨cycles, first, written, hfirst, hdone, hproduct⟩ :=
    hunit.run.writeBackAll_memory (run_multiplyDone hunit.consistent) hrange
  obtain ⟨second, hsecond, hshown⟩ :=
    writeBackAll_of_snapshot_eq (snapshot_run hunit htwin.wellFormed) hfirst
  obtain ⟨config, pipeline, rfl⟩ := exists_of_snapshot_eq hshown
  refine ⟨cycles, first, _, written, unit.run.multiplier.product, hfirst, hsecond, hdone, hdone,
    hproduct, hproduct, rfl, fun hpending => ?_⟩
  exact (multiplied_run hunit.consistent hpending).value

/-- A multiplier with the delay queue, in the middle of a run. -/
def midway : Multiplier :=
  (idle (.ofProfile .delayQueue)).serveAll
    (multiplication ⟨Vector.replicate operandLimbs 3, Vector.replicate operandLimbs 5⟩ 1024 100)

/-- Its run, taken over by a single-cycle multiplier, ends alike. -/
theorem Reachable.restored_converges_midway :
    ∃ restored, (idle (.ofProfile .singleCycle)).restore midway.snapshot = .ok restored ∧
      ∃ cycles first second written product,
        midway.run.multiplier.writeBackAll productLimbs (Memory.zero 2048) =
            .ok (cycles, first, written) ∧
          restored.run.multiplier.writeBackAll productLimbs (Memory.zero 2048) =
            .ok (cycles, second, written) ∧
          second.finishedProduct = some product ∧
          product.value = OperandLimbs.value (Vector.replicate operandLimbs 3) *
            OperandLimbs.value (Vector.replicate operandLimbs 5) := by
  have hmidway : Reachable (.ofProfile .delayQueue) midway := .serveAll (.create rfl) _
  have htransfer : midway.transfer.baseProduct = 1024 := by decide +kernel
  have hpending : midway.flags.multiplyDone = false := by decide +kernel
  have hoperands : midway.operands =
      ⟨Vector.replicate operandLimbs 3, Vector.replicate operandLimbs 5⟩ := by decide +kernel
  have hnew : Reachable (.ofProfile .singleCycle) (idle (.ofProfile .singleCycle)) := .create rfl
  obtain ⟨restored, hrestored, hends⟩ := restored_converges hmidway hnew
  have hrange : midway.transfer.baseProduct.toNat + productBytes ≤ (Memory.zero 2048).size := by
    rw [htransfer]
    decide
  obtain ⟨cycles, first, second, written, product, hfirst, hsecond, -, -, -, hproduct, -, hvalue⟩ :=
    hends (Memory.zero 2048) hrange
  rw [hoperands] at hvalue
  exact ⟨restored, hrestored, cycles, first, second, written, product, hfirst, hsecond, hproduct,
    hvalue hpending⟩

end Multiplier

end WideMultiplier
