import WideMultiplier.Multiplier.Operation
import WideMultiplier.Proofs.Pipeline.Progress

/-!
# What the control of a multiplier keeps

A multiplier is consistent (`Multiplier.Consistent`) when the run that is under way, if there is
one, is the run of an engine over the factors that are loaded. `Multiplier.Consistent.apply` says
that every operation keeps it consistent, and `Multiplier.run_multiplyDone` that a consistent
multiplier comes to the end of its run. While a run is under way no operation that leaves it under
way touches the factors (`Operation.apply_of_running`).
-/

namespace WideMultiplier

namespace Multiplier

/-! ## One advance -/

/-- The multiplier after one cycle of its pipeline, before its control has looked at it. -/
def clocked (multiplier : Multiplier) : Multiplier :=
  { multiplier with
    pipeline := (multiplier.pipeline.step multiplier.operands multiplier.product).pipeline
    product := (multiplier.pipeline.step multiplier.operands multiplier.product).product }

/-- Where nothing is pending an advance does nothing. -/
theorem advance_of_done {multiplier : Multiplier} (h : multiplier.flags.multiplyDone = true) :
    multiplier.advance = ⟨multiplier, .idle, []⟩ := by
  rw [advance, if_pos h]

/-- The first advance of a run that was issued begins it. -/
theorem advance_of_notStarted {multiplier : Multiplier}
    (hpending : multiplier.flags.multiplyDone = false)
    (hprogress : multiplier.progress = .notStarted) :
    multiplier.advance = ⟨multiplier.start, .started, multiplier.traced [.runStarted]⟩ := by
  rw [advance, hpending, hprogress]
  rfl

/-- An advance of a run under way is one cycle of the pipeline, and completes the run if that was
the last one. -/
theorem advance_of_running {multiplier : Multiplier}
    (hpending : multiplier.flags.multiplyDone = false)
    (hprogress : multiplier.progress = .running) :
    multiplier.advance =
      let step := multiplier.pipeline.step multiplier.operands multiplier.product
      if step.pipeline.finished then
        ⟨multiplier.clocked.complete, .completed step.pipeline.counters.cycles,
          multiplier.traced
            (step.events ++ [.multiplyCompleted step.pipeline.counters.cycles])⟩
      else ⟨multiplier.clocked, .cycle step.closed, multiplier.traced step.events⟩ := by
  have hrunning : ¬ (!multiplier.progress.isRunning) = true := by
    simp [hprogress, Progress.isRunning]
  rw [advance, if_neg (Bool.eq_false_iff.mp hpending), if_neg hrunning]
  rfl

/-- What an advance does. -/
inductive AdvanceCase (multiplier : Multiplier) : Prop where
  /-- Nothing is pending. -/
  | idle (hdone : multiplier.flags.multiplyDone = true)
      (hafter : multiplier.advance.multiplier = multiplier)
      (houtcome : multiplier.advance.outcome = .idle)
  /-- A run is pending and begins. -/
  | started (hpending : multiplier.flags.multiplyDone = false)
      (hprogress : multiplier.progress = .notStarted)
      (hafter : multiplier.advance.multiplier = multiplier.start)
      (houtcome : multiplier.advance.outcome = .started)
  /-- A run is under way and goes on. -/
  | cycle (hpending : multiplier.flags.multiplyDone = false)
      (hprogress : multiplier.progress = .running)
      (hfinished : multiplier.clocked.pipeline.finished = false)
      (hafter : multiplier.advance.multiplier = multiplier.clocked)
      (closed : Option ClosedDiagonal)
      (houtcome : multiplier.advance.outcome = .cycle closed)
  /-- A run is under way and comes to its end. -/
  | completed (hpending : multiplier.flags.multiplyDone = false)
      (hprogress : multiplier.progress = .running)
      (hfinished : multiplier.clocked.pipeline.finished = true)
      (hafter : multiplier.advance.multiplier = multiplier.clocked.complete)
      (cycles : Nat)
      (houtcome : multiplier.advance.outcome = .completed cycles)

theorem advance_case (multiplier : Multiplier) : AdvanceCase multiplier := by
  cases hdone : multiplier.flags.multiplyDone with
  | true =>
      have hadvance := advance_of_done hdone
      exact .idle hdone (by rw [hadvance]) (by rw [hadvance])
  | false =>
      cases hprogress : multiplier.progress with
      | notStarted =>
          have hadvance := advance_of_notStarted hdone hprogress
          exact .started hdone hprogress (by rw [hadvance]) (by rw [hadvance])
      | running =>
          have hadvance := advance_of_running hdone hprogress
          cases hfinished : (multiplier.pipeline.step multiplier.operands
              multiplier.product).pipeline.finished with
          | false =>
              dsimp only at hadvance
              rw [hfinished, if_neg Bool.false_ne_true] at hadvance
              exact .cycle hdone hprogress hfinished (by rw [hadvance]) _ (by rw [hadvance])
          | true =>
              dsimp only at hadvance
              rw [hfinished, if_pos rfl] at hadvance
              exact .completed hdone hprogress hfinished (by rw [hadvance]) _ (by rw [hadvance])

/-- A run that is still pending after an advance is under way. -/
theorem advance_progress {multiplier : Multiplier}
    (h : multiplier.advance.multiplier.flags.multiplyDone = false) :
    multiplier.advance.multiplier.progress = .running := by
  cases multiplier.advance_case with
  | idle hdone hafter houtcome =>
      rw [hafter, hdone] at h
      cases h
  | started hpending hprogress hafter houtcome =>
      rw [hafter]
      rfl
  | cycle hpending hprogress hfinished hafter closed houtcome =>
      rw [hafter]
      exact hprogress
  | completed hpending hprogress hfinished hafter cycles houtcome =>
      rw [hafter] at h
      cases h

/-! ## Runs under way -/

/-- A run that has made some cycles on the factors that are loaded, and is not at its end. -/
structure RunAt (multiplier : Multiplier) (cycles : Nat) : Prop where
  pending : multiplier.flags.multiplyDone = false
  engine : (⟨multiplier.pipeline, multiplier.product⟩ : Engine) =
    (Engine.start multiplier.pipeline.shape Product.zero).after (fun _ => multiplier.operands)
      cycles
  unfinished : multiplier.pipeline.finished = false

/-- A multiplier whose run, if one is under way, is that of an engine. -/
structure Consistent (multiplier : Multiplier) : Prop where
  valid : multiplier.pipeline.shape.validate = .ok ()
  running : multiplier.progress = .running → ∃ cycles, RunAt multiplier cycles

/-- One more cycle of a run is one more cycle of its engine. -/
theorem RunAt.clocked_engine {multiplier : Multiplier} {cycles : Nat}
    (h : RunAt multiplier cycles) :
    (⟨multiplier.clocked.pipeline, multiplier.clocked.product⟩ : Engine) =
      (Engine.start multiplier.pipeline.shape Product.zero).after (fun _ => multiplier.operands)
        (cycles + 1) := by
  rw [Engine.after, ← h.engine]
  rfl

/-- A run that does not come to its end has made one more cycle. -/
theorem RunAt.clocked {multiplier : Multiplier} {cycles : Nat} (h : RunAt multiplier cycles)
    (hfinished : multiplier.clocked.pipeline.finished = false) :
    RunAt multiplier.clocked (cycles + 1) := by
  have hshape : multiplier.clocked.pipeline.shape = multiplier.pipeline.shape :=
    Pipeline.step_shape _ _ _
  refine ⟨h.pending, ?_, hfinished⟩
  rw [h.clocked_engine, hshape]
  rfl

/-- A run that comes to its end has multiplied the factors that are loaded. -/
theorem RunAt.value_clocked {multiplier : Multiplier} {cycles : Nat} (h : RunAt multiplier cycles)
    (hfinished : multiplier.clocked.pipeline.finished = true) :
    multiplier.clocked.product.value =
      multiplier.operands.a.value * multiplier.operands.b.value := by
  have hengine := h.clocked_engine
  have hpipeline := congrArg Engine.pipeline hengine
  have hproduct := congrArg Engine.product hengine
  dsimp only at hpipeline hproduct
  rw [hpipeline] at hfinished
  rw [hproduct]
  exact Engine.value_of_finished _ _ _ hfinished

/-- A pipeline that a run has brought this far is live. -/
theorem RunAt.live {multiplier : Multiplier} {cycles : Nat} (h : RunAt multiplier cycles)
    (hvalid : multiplier.pipeline.shape.validate = .ok ()) : multiplier.pipeline.Live := by
  have hstart : (Engine.start multiplier.pipeline.shape Product.zero).pipeline.Live :=
    Pipeline.live_ofShape hvalid
  have hlive := Engine.live_after (fun _ => multiplier.operands) hstart cycles
  rwa [← h.engine] at hlive

namespace Consistent

variable {multiplier : Multiplier}

/-- A multiplier that starts has a run of no cycles under way. -/
theorem start (h : Consistent multiplier) : Consistent multiplier.start where
  valid := h.valid
  running := fun _ => ⟨0, rfl, rfl, rfl⟩

/-- A run under way stays one when the clock ticks and it does not come to its end. -/
theorem clocked (h : Consistent multiplier) (hprogress : multiplier.progress = .running)
    (hfinished : multiplier.clocked.pipeline.finished = false) :
    Consistent multiplier.clocked := by
  obtain ⟨cycles, hrun⟩ := h.running hprogress
  refine ⟨?_, fun _ => ⟨cycles + 1, hrun.clocked hfinished⟩⟩
  rw [show multiplier.clocked.pipeline.shape = multiplier.pipeline.shape from
    Pipeline.step_shape _ _ _]
  exact h.valid

/-- An advance keeps a multiplier consistent. -/
theorem advance (h : Consistent multiplier) : Consistent multiplier.advance.multiplier := by
  cases multiplier.advance_case with
  | idle hdone hafter houtcome =>
      rw [hafter]
      exact h
  | started hpending hprogress hafter houtcome =>
      rw [hafter]
      exact h.start
  | cycle hpending hprogress hfinished hafter closed houtcome =>
      rw [hafter]
      exact h.clocked hprogress hfinished
  | completed hpending hprogress hfinished hafter cycles houtcome =>
      rw [hafter]
      refine ⟨?_, fun hrunning => ?_⟩
      · have hshape : multiplier.clocked.pipeline.shape = multiplier.pipeline.shape :=
          Pipeline.step_shape _ _ _
        show multiplier.clocked.pipeline.shape.validate = .ok ()
        rw [hshape]
        exact h.valid
      · cases hrunning

end Consistent

/-! ## Advancing to the end -/

/-- The multiplier after some advances. -/
def afterAdvances (multiplier : Multiplier) : Nat → Multiplier
  | 0 => multiplier
  | count + 1 => (multiplier.afterAdvances count).advance.multiplier

/-- The first of some advances comes before the others. -/
theorem afterAdvances_succ (multiplier : Multiplier) (count : Nat) :
    multiplier.afterAdvances (count + 1) = multiplier.advance.multiplier.afterAdvances count := by
  induction count with
  | zero => rfl
  | succ count ih => rw [afterAdvances, ih, afterAdvances]

/-- What every advance of a pending run keeps is kept by advancing to its end. -/
theorem runWithin_induction {motive : Multiplier → Prop}
    (hstep : ∀ multiplier, motive multiplier → multiplier.flags.multiplyDone = false →
      motive multiplier.advance.multiplier)
    (budget : Nat) {multiplier : Multiplier} (h : motive multiplier) :
    motive (multiplier.runWithin budget).multiplier := by
  induction budget generalizing multiplier with
  | zero => exact h
  | succ budget ih =>
      cases hdone : multiplier.flags.multiplyDone with
      | true => simpa [runWithin, hdone] using h
      | false => simpa [runWithin, hdone] using ih (hstep multiplier h hdone)

/-- Where nothing is pending there is nothing to advance. -/
theorem runWithin_of_done (budget : Nat) {multiplier : Multiplier}
    (h : multiplier.flags.multiplyDone = true) :
    multiplier.runWithin budget = ⟨multiplier, 0⟩ := by
  cases budget <;> simp [runWithin, h]

/-- A pending run is advanced first, and then as often as the rest of the budget allows. -/
theorem runWithin_of_pending (budget : Nat) {multiplier : Multiplier}
    (h : multiplier.flags.multiplyDone = false) :
    (multiplier.runWithin (budget + 1)).multiplier =
      (multiplier.advance.multiplier.runWithin budget).multiplier := by
  simp [runWithin, h]

/-- A run comes to its end within as many advances as the workload of its pipeline. -/
theorem runWithin_multiplyDone {multiplier : Multiplier} (h : Consistent multiplier)
    (hprogress : multiplier.progress = .running) {budget : Nat}
    (hbudget : multiplier.pipeline.workload ≤ budget) :
    (multiplier.runWithin budget).multiplier.flags.multiplyDone = true := by
  induction budget generalizing multiplier with
  | zero =>
      -- a run without workload would be finished, and a run under way is not
      obtain ⟨cycles, hrun⟩ := h.running hprogress
      have hfinished := Pipeline.Live.finished_of_workload (Nat.le_zero.mp hbudget)
      rw [hrun.unfinished] at hfinished
      cases hfinished
  | succ budget ih =>
      obtain ⟨cycles, hrun⟩ := h.running hprogress
      have hworkload : multiplier.clocked.pipeline.workload < multiplier.pipeline.workload :=
        (hrun.live h.valid).workload_step_lt hrun.unfinished _ _
      rw [runWithin_of_pending budget hrun.pending]
      cases multiplier.advance_case with
      | idle hdone hafter houtcome =>
          rw [hrun.pending] at hdone
          cases hdone
      | started hpending hnot hafter houtcome =>
          rw [hprogress] at hnot
          cases hnot
      | cycle hpending hrunning hfinished hafter closed houtcome =>
          rw [hafter]
          exact ih (h.clocked hprogress hfinished) hprogress (by omega)
      | completed hpending hrunning hfinished hafter cycles houtcome =>
          rw [hafter, runWithin_of_done _ rfl]
          rfl

/-- A consistent multiplier comes to the end of its run. -/
theorem run_multiplyDone {multiplier : Multiplier} (h : Consistent multiplier) :
    multiplier.run.multiplier.flags.multiplyDone = true := by
  have hbudget : diagonalCount * (operandLimbs + Pipeline.lagLimit + 1) + 1 ≤ advanceBudget := by
    decide
  cases hdone : multiplier.flags.multiplyDone with
  | true => rw [run, runWithin_of_done _ hdone, hdone]
  | false =>
      cases hprogress : multiplier.progress with
      | running =>
          obtain ⟨cycles, hrun⟩ := h.running hprogress
          have hworkload := (hrun.live h.valid).workload_le
          exact runWithin_multiplyDone h hprogress (by omega)
      | notStarted =>
          -- one advance begins the run, with the workload of an empty pipeline
          have hstart : multiplier.advance.multiplier = multiplier.start := by
            simp [Multiplier.advance, hdone, hprogress, Progress.isRunning]
          have hlive : multiplier.start.pipeline.Live := Pipeline.live_ofShape h.valid
          have hworkload := hlive.workload_le
          obtain ⟨budget, hrest⟩ : ∃ budget, advanceBudget = budget + 1 := ⟨_, rfl⟩
          rw [run, hrest, runWithin_of_pending budget hdone, hstart]
          exact runWithin_multiplyDone h.start rfl (by omega)

/-- Advancing to the end keeps a multiplier consistent. -/
theorem Consistent.run {multiplier : Multiplier} (h : Consistent multiplier) :
    Consistent multiplier.run.multiplier :=
  runWithin_induction (fun _ hkept _ => hkept.advance) _ h

/-- After a run nothing is under way. -/
theorem run_progress {multiplier : Multiplier} (h : Consistent multiplier) :
    multiplier.run.multiplier.progress = .notStarted := by
  cases hprogress : multiplier.run.multiplier.progress with
  | notStarted => rfl
  | running =>
      obtain ⟨cycles, hrun⟩ := h.run.running hprogress
      have hdone := run_multiplyDone h
      rw [hrun.pending] at hdone
      cases hdone

/-! ## Transfers -/

/-- What a transfer leaves alone: the run, the product, and the factors while a run is under way. -/
structure SameRun (before after : Multiplier) : Prop where
  pipeline : after.pipeline = before.pipeline
  product : after.product = before.product
  progress : after.progress = before.progress
  multiplyDone : after.flags.multiplyDone = before.flags.multiplyDone
  operands : before.progress = .running → after.operands = before.operands

/-- What a transfer of the factors leaves alone besides: how far the product is written back. -/
structure SameDrain (before after : Multiplier) : Prop extends SameRun before after where
  writeDone : after.flags.writeDone = before.flags.writeDone
  baseProduct : after.transfer.baseProduct = before.transfer.baseProduct
  writeOffset : after.transfer.writeOffset = before.transfer.writeOffset

theorem SameDrain.refl (multiplier : Multiplier) : SameDrain multiplier multiplier :=
  ⟨⟨rfl, rfl, rfl, rfl, fun _ => rfl⟩, rfl, rfl, rfl⟩

/-- A consistent multiplier stays so when its run stays the same. -/
theorem Consistent.of_sameRun {before after : Multiplier} (h : Consistent before)
    (hsame : SameRun before after) : Consistent after := by
  refine ⟨by rw [hsame.pipeline]; exact h.valid, fun hrunning => ?_⟩
  rw [hsame.progress] at hrunning
  obtain ⟨cycles, hrun⟩ := h.running hrunning
  refine ⟨cycles, ?_, ?_, ?_⟩
  · rw [hsame.multiplyDone, hrun.pending]
  · rw [hsame.pipeline, hsame.product, hsame.operands hrunning, hrun.engine]
  · rw [hsame.pipeline, hrun.unfinished]

section Transfers

variable (multiplier : Multiplier)

/-- Loading factors touches them only while no run is under way. -/
theorem load_sameDrain (operands : Operands) :
    SameDrain multiplier (multiplier.load operands) := by
  unfold load
  split
  · exact .refl multiplier
  · next hfree =>
      refine ⟨⟨rfl, rfl, rfl, rfl, fun hrunning => ?_⟩, rfl, rfl, rfl⟩
      simp [hrunning, Progress.isRunning] at hfree

/-- Images that are accepted are loaded like the factors that they hold, if at all. -/
theorem loadBytes_of_ok {multiplier : Multiplier} {a b : List UInt8} {after : Multiplier}
    (h : multiplier.loadBytes a b = .ok after) :
    after = multiplier ∨ ∃ operands, after = multiplier.load operands := by
  unfold loadBytes at h
  split at h
  · cases h
    exact .inl rfl
  · next hfree =>
      split at h
      · cases h
      · next operands hoperands =>
          cases h
          exact .inr ⟨operands, by rw [load, if_neg hfree]⟩

/-- Loading images loads factors or is refused. -/
theorem loadBytes_sameDrain (a b : List UInt8) {after : Multiplier}
    (h : multiplier.loadBytes a b = .ok after) : SameDrain multiplier after := by
  rcases loadBytes_of_ok h with rfl | ⟨operands, rfl⟩
  · exact .refl after
  · exact multiplier.load_sameDrain operands

/-- Beginning a load only sets its addresses. -/
theorem beginLoad_sameDrain (baseA baseB : UInt64) :
    SameDrain multiplier (multiplier.beginLoad baseA baseB) := by
  unfold beginLoad
  split
  · exact .refl multiplier
  · exact ⟨⟨rfl, rfl, rfl, rfl, fun _ => rfl⟩, rfl, rfl, rfl⟩

variable {σ : Type} [LimbBus σ]

/-- A cycle of a load touches the factors only while no run is under way. -/
theorem loadCycle_sameDrain (bus : σ) :
    SameDrain multiplier (multiplier.loadCycle bus).multiplier := by
  unfold loadCycle
  split
  · exact .refl multiplier
  · next hfree =>
      simp only [Bool.or_eq_true, not_or] at hfree
      dsimp only
      split
      · exact .refl multiplier
      · split
        · exact .refl multiplier
        · split
          · exact .refl multiplier
          · refine ⟨⟨rfl, rfl, rfl, rfl, fun hrunning => ?_⟩, rfl, rfl, rfl⟩
            simp [hrunning, Progress.isRunning] at hfree

/-- A cycle of a write-back only counts. -/
theorem writeBackCycle_sameRun (bus : σ) :
    SameRun multiplier (multiplier.writeBackCycle bus).multiplier := by
  unfold writeBackCycle
  split
  · exact (SameDrain.refl multiplier).toSameRun
  · dsimp only
    split
    · exact (SameDrain.refl multiplier).toSameRun
    · split
      · exact (SameDrain.refl multiplier).toSameRun
      · exact ⟨rfl, rfl, rfl, rfl, fun _ => rfl⟩

omit [LimbBus σ]

/-- Marking the product as written back only counts. -/
theorem markWritten_sameRun : SameRun multiplier multiplier.markWritten := by
  unfold markWritten
  split
  · exact ⟨rfl, rfl, rfl, rfl, fun _ => rfl⟩
  · exact (SameDrain.refl multiplier).toSameRun

end Transfers

/-! ## Kinds of operations -/

/-- A multiplier's own snapshot fits, if its offsets do. -/
theorem validate_snapshot {multiplier : Multiplier}
    (h : multiplier.transfer.validate multiplier.flags = .ok ()) :
    multiplier.snapshot.validate = .ok () := by
  simp [Snapshot.validate, snapshot, h]

end Multiplier

namespace Snapshot

variable {image : Snapshot}

/-- The images of a snapshot that fits are as long as they have to be, and its offsets fit. -/
theorem of_validate (h : image.validate = .ok ()) :
    image.operandA.size = operandLimbs ∧ image.operandB.size = operandLimbs ∧
      image.product.size = productLimbs ∧ image.transfer.validate image.flags = .ok () := by
  unfold validate at h
  split at h
  · cases h
  · next ha =>
      split at h
      · cases h
      · next hb =>
          split at h
          · cases h
          · next hproduct =>
              split at h
              · cases h
              · next htransfer =>
                  exact ⟨of_not_not ha, of_not_not hb, of_not_not hproduct, htransfer⟩

end Snapshot

namespace Multiplier

variable {image : Snapshot}

/-- A snapshot that fits is taken over: behind the check no image is refused. -/
theorem restore_of_validate (h : image.validate = .ok ()) :
    ∃ operands product, operands.a.toArray = image.operandA ∧
      operands.b.toArray = image.operandB ∧ product.toArray = image.product ∧
      ∀ multiplier : Multiplier, multiplier.restore image =
        .ok { multiplier with
          operands
          product
          flags := image.flags
          progress := .notStarted
          transfer := image.transfer
          pipeline := multiplier.pipeline.clear } := by
  obtain ⟨ha, hb, hproduct, -⟩ := Snapshot.of_validate h
  have hresumed : image.progress.resumed = .notStarted := by cases image.progress <;> rfl
  refine ⟨⟨⟨image.operandA, ha⟩, ⟨image.operandB, hb⟩⟩, ⟨image.product, hproduct⟩, rfl, rfl, rfl,
    fun multiplier => ?_⟩
  simp only [restore, h, OperandLimbs.ofImage, dif_pos ha, dif_pos hb, Product.ofImage,
    dif_pos hproduct, hresumed]
  rfl

/-- A snapshot that does not fit is refused for its fault. -/
theorem restore_of_error {fault : Fault} (h : image.validate = .error fault)
    (multiplier : Multiplier) : multiplier.restore image = .error fault := by
  rw [restore, h]
  rfl

/-- What a snapshot that fits leaves of a multiplier. -/
theorem restore_eq_of_ok {multiplier restored : Multiplier}
    (h : multiplier.restore image = .ok restored) :
    image.validate = .ok () ∧ ∃ operands product, operands.a.toArray = image.operandA ∧
      operands.b.toArray = image.operandB ∧ product.toArray = image.product ∧
        restored =
          { multiplier with
            operands
            product
            flags := image.flags
            progress := .notStarted
            transfer := image.transfer
            pipeline := multiplier.pipeline.clear } := by
  cases hvalid : image.validate with
  | error fault =>
      rw [restore_of_error hvalid] at h
      cases h
  | ok =>
      obtain ⟨operands, product, ha, hb, hproduct, hrestore⟩ := restore_of_validate hvalid
      rw [hrestore multiplier] at h
      cases h
      exact ⟨rfl, operands, product, ha, hb, hproduct, rfl⟩

/-- A snapshot that is taken over leaves no run under way and keeps the shape. -/
theorem restore_of_ok {multiplier restored : Multiplier}
    (h : multiplier.restore image = .ok restored) :
    restored.progress = .notStarted ∧ restored.pipeline = multiplier.pipeline.clear := by
  obtain ⟨-, operands, product, -, -, -, rfl⟩ := restore_eq_of_ok h
  exact ⟨rfl, rfl⟩

end Multiplier

namespace Operation

/-- Whether an operation does no more than load factors or take a snapshot. -/
def LoadsFactors : Operation → Prop
  | .load _ | .loadBytes _ _ | .beginLoad _ _ | .loadCycle | .snapshot => True
  | _ => False

variable {σ : Type} [LimbBus σ] (multiplier : Multiplier) (bus : σ)

/-- Operations that load factors leave the run and the write-back alone. -/
theorem apply_sameDrain {operation : Operation} (h : operation.LoadsFactors) :
    multiplier.SameDrain (operation.apply multiplier bus).multiplier := by
  cases operation with
  | load operands => exact multiplier.load_sameDrain operands
  | loadBytes a b =>
      simp only [apply]
      cases hload : multiplier.loadBytes a b with
      | error fault => exact .refl multiplier
      | ok loaded => exact multiplier.loadBytes_sameDrain a b hload
  | beginLoad baseA baseB => exact multiplier.beginLoad_sameDrain baseA baseB
  | loadCycle => exact multiplier.loadCycle_sameDrain bus
  | snapshot => exact .refl multiplier
  | _ => exact h.elim

/-- Whether an operation has to do with transfers or takes a snapshot. -/
def Transfers : Operation → Prop
  | .load _ | .loadBytes _ _ | .beginLoad _ _ | .loadCycle | .writeBackCycle | .markWritten
  | .snapshot => True
  | _ => False

/-- Transfers leave the run alone. -/
theorem apply_sameRun {operation : Operation} (h : operation.Transfers) :
    multiplier.SameRun (operation.apply multiplier bus).multiplier := by
  cases operation with
  | load | loadBytes | beginLoad | loadCycle | snapshot =>
      refine (apply_sameDrain multiplier bus ?_).toSameRun
      trivial
  | writeBackCycle => exact multiplier.writeBackCycle_sameRun bus
  | markWritten => exact multiplier.markWritten_sameRun
  | _ => exact h.elim

/-- A snapshot that is taken over leaves no run under way, and one that is refused changes nothing.
-/
theorem apply_restore (image : Snapshot) :
    ((restore image).apply multiplier bus).multiplier = multiplier ∨
      (((restore image).apply multiplier bus).multiplier.progress = .notStarted ∧
        ((restore image).apply multiplier bus).multiplier.pipeline =
          multiplier.pipeline.clear) := by
  simp only [apply]
  cases hrestore : multiplier.restore image with
  | error fault => exact .inl rfl
  | ok restored => exact .inr (Multiplier.restore_of_ok hrestore)

end Operation

/-! ## All operations -/

namespace Multiplier

/-- A multiplier is created idle, and only with a valid shape. -/
theorem create_of_ok {config : Config} {multiplier : Multiplier}
    (h : Multiplier.create config = .ok multiplier) :
    config.shape.validate = .ok () ∧ multiplier = idle config := by
  unfold create at h
  split at h
  · cases h
  · next hvalid =>
      cases h
      exact ⟨hvalid, rfl⟩

/-- A multiplier with no run under way is consistent when its shape is valid. -/
theorem Consistent.of_notStarted {multiplier : Multiplier}
    (hvalid : multiplier.pipeline.shape.validate = .ok ())
    (hprogress : multiplier.progress = .notStarted) : Consistent multiplier := by
  refine ⟨hvalid, fun hrunning => ?_⟩
  rw [hprogress] at hrunning
  cases hrunning

/-- A new multiplier is consistent. -/
theorem Consistent.create {config : Config} {multiplier : Multiplier}
    (h : Multiplier.create config = .ok multiplier) : Consistent multiplier := by
  obtain ⟨hvalid, rfl⟩ := create_of_ok h
  exact .of_notStarted hvalid rfl

/-- Every operation keeps a multiplier consistent. -/
theorem Consistent.apply {multiplier : Multiplier} (h : Consistent multiplier) {σ : Type}
    [LimbBus σ] (bus : σ) (operation : Operation) :
    Consistent (operation.apply multiplier bus).multiplier := by
  cases operation with
  | reset => exact .of_notStarted h.valid rfl
  | start => exact h.start
  | issue base => exact .of_notStarted h.valid rfl
  | advance => exact h.advance
  | run => exact h.run
  | load | loadBytes | beginLoad | loadCycle | writeBackCycle | markWritten | snapshot =>
      exact h.of_sameRun (Operation.apply_sameRun multiplier bus trivial)
  | restore image =>
      rcases Operation.apply_restore multiplier bus image with hrefused | ⟨hprogress, hpipeline⟩
      · rw [hrefused]
        exact h
      · refine .of_notStarted ?_ hprogress
        rw [hpipeline]
        exact h.valid

end Multiplier

/-! ## Beginnings of runs -/

namespace Operation

/-- Whether an operation begins a run: a start, or an advance, also the first one of several, that
answers so. -/
def Begins (multiplier : Multiplier) : Operation → Prop
  | .start => True
  | .advance | .run => multiplier.advance.outcome = .started
  | _ => False

instance (multiplier : Multiplier) (operation : Operation) :
    Decidable (operation.Begins multiplier) :=
  match operation with
  | .start => isTrue trivial
  | .advance | .run => inferInstanceAs (Decidable (multiplier.advance.outcome = .started))
  | .reset | .issue _ | .load _ | .loadBytes _ _ | .beginLoad _ _ | .loadCycle | .writeBackCycle
  | .markWritten | .snapshot | .restore _ => isFalse id

/-- A run is under way behind an operation only if the operation began it or left it under way, and
then the factors are the same before and after. -/
theorem apply_of_running {multiplier : Multiplier} (h : multiplier.Consistent) {σ : Type}
    [LimbBus σ] (bus : σ) (operation : Operation)
    (hrunning : (operation.apply multiplier bus).multiplier.progress = .running) :
    (operation.Begins multiplier ∨ multiplier.progress = .running) ∧
      (operation.apply multiplier bus).multiplier.operands = multiplier.operands := by
  -- what a transfer leaves under way was under way before it, and locked its factors
  have htransfer : operation.Transfers →
      (operation.Begins multiplier ∨ multiplier.progress = .running) ∧
        (operation.apply multiplier bus).multiplier.operands = multiplier.operands := by
    intro htransfers
    have hsame := apply_sameRun multiplier bus htransfers
    rw [hsame.progress] at hrunning
    exact ⟨.inr hrunning, hsame.operands hrunning⟩
  cases operation with
  | reset => cases hrunning
  | start => exact ⟨.inl trivial, rfl⟩
  | issue base => cases hrunning
  | advance =>
      simp only [apply] at hrunning ⊢
      cases multiplier.advance_case with
      | idle hdone hafter houtcome =>
          rw [hafter] at hrunning ⊢
          exact ⟨.inr hrunning, rfl⟩
      | started hpending hprogress hafter houtcome =>
          rw [hafter]
          exact ⟨.inl houtcome, rfl⟩
      | cycle hpending hprogress hfinished hafter closed houtcome =>
          rw [hafter]
          exact ⟨.inr hprogress, rfl⟩
      | completed hpending hprogress hfinished hafter cycles houtcome =>
          rw [hafter]
          exact ⟨.inr hprogress, rfl⟩
  | run =>
      rw [show (Operation.run.apply multiplier bus).multiplier.progress = .notStarted from
        Multiplier.run_progress h] at hrunning
      cases hrunning
  | load | loadBytes | beginLoad | loadCycle | writeBackCycle | markWritten | snapshot =>
      exact htransfer trivial
  | restore image =>
      rcases apply_restore multiplier bus image with hrefused | ⟨hprogress, -⟩
      · rw [hrefused] at hrunning ⊢
        exact ⟨.inr hrunning, rfl⟩
      · rw [hprogress] at hrunning
        cases hrunning

end Operation

end WideMultiplier
