import WideMultiplier.Proofs.Multiplier.Reachable
import WideMultiplier.Proofs.Pipeline.CycleCount

/-!
# How many advances a run takes

`Multiplier.advancesLeft` is the number of advances until the multiply phase is done: none if it is
done, and for a run that is pending or under way what the cycles of the shape leave. Each advance
takes one off (`Multiplier.WellFormed.advancesLeft_advance`), so advancing to the end takes just as
many. `Multiplier.Reachable.run_length` gathers this for every multiplier that calls lead to.
-/

namespace WideMultiplier

namespace Multiplier

/-- The advances until the multiply phase is done. A run that is pending takes one advance to begin
and one for each cycle. -/
def advancesLeft (multiplier : Multiplier) : Nat :=
  if multiplier.flags.multiplyDone then 0
  else
    match multiplier.progress with
    | .notStarted => multiplier.config.shape.runCycles + 1
    | .running => multiplier.config.shape.runCycles - multiplier.pipeline.counters.cycles

section

variable {multiplier : Multiplier}

theorem advancesLeft_of_done (h : multiplier.flags.multiplyDone = true) :
    multiplier.advancesLeft = 0 := by
  rw [advancesLeft, if_pos h]

theorem advancesLeft_of_notStarted (h : multiplier.flags.multiplyDone = false)
    (hprogress : multiplier.progress = .notStarted) :
    multiplier.advancesLeft = multiplier.config.shape.runCycles + 1 := by
  rw [advancesLeft, h, if_neg Bool.false_ne_true, hprogress]

theorem advancesLeft_of_running (h : multiplier.flags.multiplyDone = false)
    (hprogress : multiplier.progress = .running) :
    multiplier.advancesLeft =
      multiplier.config.shape.runCycles - multiplier.pipeline.counters.cycles := by
  rw [advancesLeft, h, if_neg Bool.false_ne_true, hprogress]

end

/-- An advance that completes a run ends the multiply phase and tells the cycles that its counter
shows. -/
theorem advance_of_completed {multiplier : Multiplier} {cycles : Nat}
    (h : multiplier.advance.outcome = .completed cycles) :
    multiplier.flags.multiplyDone = false ∧
      multiplier.advance.multiplier.flags.multiplyDone = true ∧
      multiplier.advance.multiplier.pipeline.counters.cycles = cycles := by
  unfold advance at h ⊢
  split at h
  · cases h
  · next hpending =>
      split at h
      · cases h
      · next hrunning =>
          dsimp only at h ⊢
          split at h
          · next hfinished =>
              cases h
              rw [if_neg hpending, if_neg hrunning, if_pos hfinished]
              exact ⟨Bool.eq_false_iff.mpr hpending, rfl, rfl⟩
          · cases h

namespace RunAt

variable {multiplier : Multiplier} {cycles : Nat}

/-- The counter of a run that is under way shows its cycles, and some are left. -/
theorem counted (h : RunAt multiplier cycles)
    (hvalid : multiplier.pipeline.shape.validate = .ok ()) :
    multiplier.pipeline.counters.cycles = cycles ∧
      cycles < multiplier.pipeline.shape.runCycles := by
  have hpipeline := congrArg Engine.pipeline h.engine
  have hcycles := Engine.cycles_after (fun _ => multiplier.operands) Product.zero hvalid cycles
  have hfinished := Engine.finished_iff (fun _ => multiplier.operands) Product.zero hvalid cycles
  rw [← hpipeline] at hcycles hfinished
  dsimp only at hcycles hfinished
  rw [h.unfinished] at hfinished
  have hleft : cycles < multiplier.pipeline.shape.runCycles := by
    refine Nat.lt_of_not_le fun hover => ?_
    cases hfinished.mpr hover
  exact ⟨by omega, hleft⟩

/-- One more cycle of a run is counted, and it is the last one if no others are left. -/
theorem clocked_counted (h : RunAt multiplier cycles)
    (hvalid : multiplier.pipeline.shape.validate = .ok ()) :
    multiplier.clocked.pipeline.counters.cycles = cycles + 1 ∧
      (multiplier.clocked.pipeline.finished = true ↔
        cycles + 1 = multiplier.pipeline.shape.runCycles) := by
  have hleft := (h.counted hvalid).2
  have hpipeline := congrArg Engine.pipeline h.clocked_engine
  have hcycles :=
    Engine.cycles_after (fun _ => multiplier.operands) Product.zero hvalid (cycles + 1)
  have hfinished :=
    Engine.finished_iff (fun _ => multiplier.operands) Product.zero hvalid (cycles + 1)
  rw [← hpipeline] at hcycles hfinished
  dsimp only at hcycles hfinished
  refine ⟨by omega, hfinished.trans ?_⟩
  omega

end RunAt

namespace WellFormed

variable {config : Config} {multiplier : Multiplier}

/-- Something is left to do unless the multiply phase is done. -/
theorem advancesLeft_eq_zero_iff (h : WellFormed config multiplier) :
    multiplier.advancesLeft = 0 ↔ multiplier.flags.multiplyDone = true := by
  refine ⟨fun hzero => ?_, advancesLeft_of_done⟩
  cases hdone : multiplier.flags.multiplyDone with
  | true => rfl
  | false =>
      cases hprogress : multiplier.progress with
      | notStarted =>
          rw [advancesLeft_of_notStarted hdone hprogress] at hzero
          omega
      | running =>
          obtain ⟨cycles, hrun⟩ := h.consistent.running hprogress
          obtain ⟨hcycles, hleft⟩ := hrun.counted h.consistent.valid
          rw [advancesLeft_of_running hdone hprogress, h.config_eq, ← h.shape_eq] at hzero
          omega

/-- An advance is one of those that are left. -/
theorem advancesLeft_advance (h : WellFormed config multiplier)
    (hpending : multiplier.flags.multiplyDone = false) :
    multiplier.advance.multiplier.advancesLeft + 1 = multiplier.advancesLeft := by
  have hshape : multiplier.config.shape = multiplier.pipeline.shape := by
    rw [h.shape_eq, h.config_eq]
  cases multiplier.advance_case with
  | idle hdone hafter houtcome =>
      rw [hpending] at hdone
      cases hdone
  | started _ hprogress hafter houtcome =>
      -- the counter of a run that begins shows no cycles
      have hstart : multiplier.start.advancesLeft = multiplier.config.shape.runCycles - 0 :=
        advancesLeft_of_running rfl rfl
      rw [hafter, hstart, advancesLeft_of_notStarted hpending hprogress]
      rfl
  | cycle _ hprogress hfinished hafter closed houtcome =>
      obtain ⟨cycles, hrun⟩ := h.consistent.running hprogress
      obtain ⟨hcycles, hleft⟩ := hrun.counted h.consistent.valid
      have hclocked := (hrun.clocked_counted h.consistent.valid).1
      have hafterwards : multiplier.clocked.advancesLeft =
          multiplier.config.shape.runCycles - multiplier.clocked.pipeline.counters.cycles :=
        advancesLeft_of_running hpending hprogress
      rw [hafter, hafterwards, advancesLeft_of_running hpending hprogress, hshape]
      omega
  | completed _ hprogress hfinished hafter cycles houtcome =>
      obtain ⟨cycles, hrun⟩ := h.consistent.running hprogress
      obtain ⟨hcycles, -⟩ := hrun.counted h.consistent.valid
      have hlast := (hrun.clocked_counted h.consistent.valid).2.mp hfinished
      have hcomplete : multiplier.clocked.complete.advancesLeft = 0 := advancesLeft_of_done rfl
      rw [hafter, hcomplete, advancesLeft_of_running hpending hprogress, hshape]
      omega

/-- Advances keep a multiplier well-formed. -/
theorem afterAdvances (h : WellFormed config multiplier) (count : Nat) :
    WellFormed config (multiplier.afterAdvances count) := by
  induction count with
  | zero => exact h
  | succ count ih => exact ih.advance

/-- Some advances later so many fewer are left. -/
theorem advancesLeft_afterAdvances (h : WellFormed config multiplier) (count : Nat) :
    (multiplier.afterAdvances count).advancesLeft = multiplier.advancesLeft - count := by
  induction count with
  | zero => rfl
  | succ count ih =>
      have hformed := h.afterAdvances count
      rw [Multiplier.afterAdvances]
      cases hdone : (multiplier.afterAdvances count).flags.multiplyDone with
      | true =>
          have hzero := hformed.advancesLeft_eq_zero_iff.mpr hdone
          have hidle : (multiplier.afterAdvances count).advance.multiplier =
              multiplier.afterAdvances count := by
            simp [Multiplier.advance, hdone]
          rw [hidle]
          omega
      | false =>
          have hstep := hformed.advancesLeft_advance hdone
          omega

/-- Advancing to the end makes the advances that are left, whatever budget there is beyond them. -/
theorem runWithin_eq (h : WellFormed config multiplier) {budget : Nat}
    (hbudget : multiplier.advancesLeft ≤ budget) :
    multiplier.runWithin budget =
      ⟨multiplier.afterAdvances multiplier.advancesLeft, multiplier.advancesLeft⟩ := by
  induction budget generalizing multiplier with
  | zero =>
      rw [Nat.le_zero.mp hbudget]
      rfl
  | succ budget ih =>
      cases hdone : multiplier.flags.multiplyDone with
      | true =>
          rw [runWithin_of_done _ hdone, h.advancesLeft_eq_zero_iff.mpr hdone]
          rfl
      | false =>
          have hstep := h.advancesLeft_advance hdone
          rw [runWithin, if_neg (by simp [hdone]), ih h.advance (by omega), ← hstep,
            afterAdvances_succ]

/-- The budget of a run covers the advances that are left. -/
theorem advancesLeft_le (h : WellFormed config multiplier) :
    multiplier.advancesLeft ≤ advanceBudget := by
  have hrun : multiplier.config.shape.runCycles + 1 ≤ advanceBudget := by
    rw [h.config_eq, ← h.shape_eq]
    exact (Nat.succ_le_succ (Engine.runCycles_le h.consistent.valid)).trans (by decide)
  refine Nat.le_trans ?_ hrun
  unfold advancesLeft
  split
  · exact Nat.zero_le _
  · split <;> omega

/-- A run that completes shows the cycles of its shape. -/
theorem cycles_of_last (h : WellFormed config multiplier)
    (hpending : multiplier.flags.multiplyDone = false)
    (hdone : multiplier.advance.multiplier.flags.multiplyDone = true) :
    multiplier.advance.multiplier.pipeline.counters.cycles = config.shape.runCycles := by
  cases multiplier.advance_case with
  | idle hidle hafter houtcome =>
      rw [hpending] at hidle
      cases hidle
  | started _ hprogress hafter houtcome =>
      rw [hafter] at hdone
      cases hdone
  | cycle _ hprogress hfinished hafter closed houtcome =>
      rw [hafter, show multiplier.clocked.flags.multiplyDone = false from hpending] at hdone
      cases hdone
  | completed _ hprogress hfinished hafter cycles houtcome =>
      obtain ⟨cycles, hrun⟩ := h.consistent.running hprogress
      obtain ⟨hclocked, hlast⟩ := hrun.clocked_counted h.consistent.valid
      rw [hafter, ← h.shape_eq, ← hlast.mp hfinished, ← hclocked]
      rfl

/-- A run that is advanced to its end shows the cycles of its shape. -/
theorem cycles_run (h : WellFormed config multiplier)
    (hpending : multiplier.flags.multiplyDone = false) :
    multiplier.run.multiplier.pipeline.counters.cycles = config.shape.runCycles := by
  -- what an advance completes shows them, and the run ends with an advance
  have hstep : ∀ current,
      WellFormed config current ∧
        (current.flags.multiplyDone = true →
          current.pipeline.counters.cycles = config.shape.runCycles) →
      current.flags.multiplyDone = false →
      WellFormed config current.advance.multiplier ∧
        (current.advance.multiplier.flags.multiplyDone = true →
          current.advance.multiplier.pipeline.counters.cycles = config.shape.runCycles) :=
    fun _ hkept hopen => ⟨hkept.1.advance, hkept.1.cycles_of_last hopen⟩
  have hstart : multiplier.flags.multiplyDone = true →
      multiplier.pipeline.counters.cycles = config.shape.runCycles := by
    intro hdone
    rw [hpending] at hdone
    cases hdone
  exact (runWithin_induction hstep advanceBudget ⟨h, hstart⟩).2 (run_multiplyDone h.consistent)

end WellFormed

namespace Reachable

variable {config : Config} {unit : Multiplier}

/-- A run takes the cycles that its shape tells, whatever factors it works on. Its counter shows
them, and so does the advance that completes it. From every multiplier that calls lead to, advancing
to the end comes to it, after the advances that are left and no earlier. -/
theorem run_length (h : Reachable config unit) :
    (∀ (caches : Nat → Operands) (product : Product) (cycles : Nat),
        (((Engine.start config.shape product).after caches cycles).pipeline.finished = true ↔
            config.shape.runCycles ≤ cycles) ∧
          ((Engine.start config.shape product).after caches cycles).pipeline.counters.cycles =
            min cycles config.shape.runCycles) ∧
      (∀ cycles, unit.advance.outcome = .completed cycles →
        cycles = config.shape.runCycles ∧
          unit.advance.multiplier.pipeline.counters.cycles = config.shape.runCycles) ∧
      (unit.progress = .running →
        unit.pipeline.counters.cycles < config.shape.runCycles ∧
          (⟨unit.pipeline, unit.product⟩ : Engine) =
            (Engine.start config.shape Product.zero).after (fun _ => unit.operands)
              unit.pipeline.counters.cycles) ∧
      (∀ advances, (unit.afterAdvances advances).flags.multiplyDone = true ↔
        unit.advancesLeft ≤ advances) ∧
      (∀ budget ≥ unit.advancesLeft, unit.runWithin budget =
        ⟨unit.afterAdvances unit.advancesLeft, unit.advancesLeft⟩) ∧
      unit.run = ⟨unit.afterAdvances unit.advancesLeft, unit.advancesLeft⟩ ∧
      (unit.flags.multiplyDone = false →
        unit.run.multiplier.pipeline.counters.cycles = config.shape.runCycles) := by
  have hformed := h.wellFormed
  have hvalid : config.shape.validate = .ok () := by
    rw [← hformed.shape_eq]
    exact hformed.consistent.valid
  have hends : ∀ advances, (unit.afterAdvances advances).flags.multiplyDone = true ↔
      unit.advancesLeft ≤ advances := by
    intro advances
    rw [← (hformed.afterAdvances advances).advancesLeft_eq_zero_iff,
      hformed.advancesLeft_afterAdvances]
    exact Nat.sub_eq_zero_iff_le
  have hrun : unit.run = ⟨unit.afterAdvances unit.advancesLeft, unit.advancesLeft⟩ :=
    hformed.runWithin_eq hformed.advancesLeft_le
  refine ⟨fun caches product cycles => ⟨Engine.finished_iff caches product hvalid cycles,
    Engine.cycles_after caches product hvalid cycles⟩, ?_, ?_, hends,
    fun budget hbudget => hformed.runWithin_eq hbudget, hrun, ?_⟩
  · intro cycles hcompleted
    obtain ⟨hpending, hdone, hcycles⟩ := advance_of_completed hcompleted
    have hshown := hformed.cycles_of_last hpending hdone
    exact ⟨hcycles.symm.trans hshown, hshown⟩
  · intro hrunning
    obtain ⟨cycles, hrunAt⟩ := hformed.consistent.running hrunning
    obtain ⟨hcycles, hleft⟩ := hrunAt.counted hformed.consistent.valid
    rw [hcycles, ← hformed.shape_eq]
    exact ⟨hleft, hrunAt.engine⟩
  · exact hformed.cycles_run

/-- A run of the default profile takes 1002 cycles, and one advance to begin. -/
theorem run_length_delayQueue :
    (((idle (.ofProfile .delayQueue)).issue 0).run.advances,
        ((idle (.ofProfile .delayQueue)).issue 0).run.multiplier.pipeline.counters.cycles) =
      (1003, 1002) := by
  have hreachable : Reachable (.ofProfile .delayQueue)
      ((idle (.ofProfile .delayQueue)).issue 0) :=
    .serve (.create rfl) (.over (Memory.zero 0) (.issue 0))
  have hcycles : (Config.ofProfile .delayQueue).shape.runCycles = 1002 := by decide +kernel
  obtain ⟨-, -, -, -, -, hrun, hcounter⟩ := run_length hreachable
  rw [hcounter rfl, hrun, hcycles, advancesLeft_of_notStarted rfl rfl]
  exact congrArg (fun cycles => (cycles + 1, 1002)) hcycles

end Reachable

end Multiplier

end WideMultiplier
