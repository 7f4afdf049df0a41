import WideMultiplier.Proofs.Multiplier.Lockstep
import WideMultiplier.Proofs.Multiplier.RunLength
import WideMultiplier.Proofs.Pipeline.Narration

/-!
# What a run reports

A multiplier that traces reports that its run begins, then a block for each diagonal, and at last
that the run is complete: `Multiplier.Reachable.trace_of_run`. Without tracing it does the same in
silence (`Multiplier.advance_silenced`).
-/

namespace WideMultiplier

namespace Multiplier

/-! ## Without tracing -/

/-- The same multiplier without tracing. -/
def silenced (multiplier : Multiplier) : Multiplier :=
  { multiplier with config := { multiplier.config with tracing := false } }

/-- Without tracing an advance does the same and reports nothing. -/
theorem advance_silenced (multiplier : Multiplier) :
    multiplier.silenced.advance =
      ⟨multiplier.advance.multiplier.silenced, multiplier.advance.outcome, []⟩ := by
  cases hdone : multiplier.flags.multiplyDone with
  | true =>
      have hsilent : multiplier.silenced.flags.multiplyDone = true := hdone
      rw [advance_of_done hdone, advance_of_done hsilent]
  | false =>
      have hsilent : multiplier.silenced.flags.multiplyDone = false := hdone
      cases hprogress : multiplier.progress with
      | notStarted =>
          have hsilentProgress : multiplier.silenced.progress = .notStarted := hprogress
          rw [advance_of_notStarted hdone hprogress,
            advance_of_notStarted hsilent hsilentProgress]
          rfl
      | running =>
          have hsilentProgress : multiplier.silenced.progress = .running := hprogress
          have hstep : multiplier.silenced.pipeline.step multiplier.silenced.operands
              multiplier.silenced.product =
            multiplier.pipeline.step multiplier.operands multiplier.product := rfl
          rw [advance_of_running hdone hprogress, advance_of_running hsilent hsilentProgress]
          dsimp only
          rw [hstep]
          split <;> rfl

/-- Without tracing advances lead to the same. -/
theorem afterAdvances_silenced (multiplier : Multiplier) (count : Nat) :
    multiplier.silenced.afterAdvances count = (multiplier.afterAdvances count).silenced := by
  induction count with
  | zero => rfl
  | succ count ih => rw [afterAdvances, ih, advance_silenced, afterAdvances]

/-- Without tracing nothing is reported. -/
theorem reports_silenced (multiplier : Multiplier) (count : Nat) :
    multiplier.silenced.reports count = [] := by
  induction count with
  | zero => rfl
  | succ count ih => rw [reports_succ, ih, afterAdvances_silenced, advance_silenced]; rfl

/-! ## The reports of a run -/

/-- The first advance reports before the others. -/
theorem reports_cons (multiplier : Multiplier) (count : Nat) :
    multiplier.reports (count + 1) =
      multiplier.advance.events ++ multiplier.advance.multiplier.reports count := by
  induction count with
  | zero => rw [reports_succ]; exact (List.append_nil _).symm
  | succ count ih => rw [reports_succ, ih, reports_succ, afterAdvances_succ, List.append_assoc]

/-- A run over some factors that is under way and has made some cycles. -/
structure Cycling (config : Config) (operands : Operands) (cycles : Nat) (multiplier : Multiplier) :
    Prop where
  formed : WellFormed config multiplier
  run : RunAt multiplier cycles
  progress : multiplier.progress = .running
  operands_eq : multiplier.operands = operands

namespace Cycling

variable {config : Config} {operands : Operands} {cycles : Nat} {multiplier : Multiplier}

/-- A run that begins has made no cycles. -/
theorem start (h : WellFormed config multiplier) :
    Cycling config multiplier.operands 0 multiplier.start :=
  ⟨h.start, ⟨rfl, rfl, rfl⟩, rfl, rfl⟩

/-- The last cycle of a run is the one that makes its cycles complete. -/
theorem finished_iff (h : Cycling config operands cycles multiplier) :
    multiplier.clocked.pipeline.finished = true ↔ cycles + 1 = config.shape.runCycles := by
  rw [← h.formed.shape_eq]
  exact (h.run.clocked_counted h.formed.consistent.valid).2

/-- An advance before the last one makes one more cycle. -/
theorem advance (h : Cycling config operands cycles multiplier)
    (hmore : cycles + 1 < config.shape.runCycles) :
    Cycling config operands (cycles + 1) multiplier.advance.multiplier := by
  have hopen : multiplier.clocked.pipeline.finished = false := by
    rw [Bool.eq_false_iff]
    intro hfinished
    have hlast := h.finished_iff.mp hfinished
    omega
  have hadvance : multiplier.advance.multiplier = multiplier.clocked := by
    rw [advance_of_running h.run.pending h.progress]
    exact congrArg Advanced.multiplier (if_neg (Bool.eq_false_iff.mp hopen))
  have hformed := h.formed.advance
  rw [hadvance] at hformed ⊢
  exact ⟨hformed, h.run.clocked hopen, h.progress, h.operands_eq⟩

/-- So many advances, fewer than there are cycles, make so many cycles. -/
theorem afterAdvances (h : Cycling config operands 0 multiplier)
    (hcycles : cycles < config.shape.runCycles) :
    Cycling config operands cycles (multiplier.afterAdvances cycles) := by
  induction cycles with
  | zero => exact h
  | succ cycles ih => exact (ih (Nat.lt_of_succ_lt hcycles)).advance hcycles

/-- What a cycle of a run reports: what its engine reports, and behind the last one that the run is
complete. -/
theorem advance_events (h : Cycling config operands cycles multiplier)
    (htracing : config.tracing = true) :
    multiplier.advance.events =
      (((Engine.start config.shape Product.zero).after (fun _ => operands) cycles).tick
          operands).events ++
        if cycles + 1 = config.shape.runCycles then [.multiplyCompleted (cycles + 1)]
        else [] := by
  have hcycles := (h.run.clocked_counted h.formed.consistent.valid).1
  have htraced : ∀ events, multiplier.traced events = events := by
    intro events
    rw [traced, h.formed.config_eq, if_pos htracing]
  have hengine := h.run.engine
  rw [h.formed.shape_eq, h.operands_eq] at hengine
  rw [advance_of_running h.run.pending h.progress, ← hengine, h.operands_eq]
  dsimp only
  by_cases hlast : cycles + 1 = config.shape.runCycles
  · have hfinished := h.finished_iff.mpr hlast
    rw [clocked, h.operands_eq] at hfinished hcycles
    rw [if_pos hfinished, if_pos hlast, htraced, hcycles]
    rfl
  · have hfinished := mt h.finished_iff.mp hlast
    rw [clocked, h.operands_eq] at hfinished
    rw [if_neg hfinished, if_neg hlast, htraced, List.append_nil]
    rfl

/-- Before the last cycle a run reports what its engine reports. -/
theorem reports (h : Cycling config operands 0 multiplier) (htracing : config.tracing = true)
    (hcycles : cycles < config.shape.runCycles) :
    multiplier.reports cycles =
      (Engine.start config.shape Product.zero).narration (fun _ => operands) cycles := by
  induction cycles with
  | zero => rfl
  | succ cycles ih =>
      have hbefore := Nat.lt_of_succ_lt hcycles
      rw [reports_succ, ih hbefore, (h.afterAdvances hbefore).advance_events htracing,
        if_neg (Nat.ne_of_lt hcycles), List.append_nil, Engine.narration_succ]

end Cycling

/-- A run that is traced reports that it begins, what its engine reports, and that it is
complete. -/
theorem WellFormed.reports_of_run {config : Config} {unit : Multiplier} (h : WellFormed config unit)
    (htracing : config.tracing = true) (hpending : unit.flags.multiplyDone = false)
    (hprogress : unit.progress = .notStarted) :
    unit.reports (config.shape.runCycles + 1) =
      .runStarted ::
        (Engine.start config.shape Product.zero).narration (fun _ => unit.operands)
          config.shape.runCycles ++ [.multiplyCompleted config.shape.runCycles] := by
  have hcycling := Cycling.start h
  have hsome : 0 < config.shape.runCycles := by
    rw [← h.shape_eq]
    exact (hcycling.run.counted h.consistent.valid).2
  obtain ⟨last, hlast⟩ : ∃ last, last + 1 = config.shape.runCycles :=
    ⟨config.shape.runCycles - 1, by omega⟩
  have hless : last < config.shape.runCycles := by omega
  have hstarted : unit.traced [.runStarted] = [.runStarted] := by
    rw [traced, h.config_eq, if_pos htracing]
  have hlastEvents := (hcycling.afterAdvances hless).advance_events htracing
  rw [if_pos hlast] at hlastEvents
  rw [reports_cons, advance_of_notStarted hpending hprogress]
  dsimp only
  rw [hstarted, ← hlast, reports_succ, hcycling.reports htracing hless, hlastEvents,
    Engine.narration_succ]
  simp

/-- A run that is traced from its issue on reports that it begins, then a block for each diagonal in
order, with the limb of the product at its end, and at last that it is complete, with the cycles
that its counter shows. Without tracing it reports nothing, and each advance has the same outcome
and leads to the same multiplier but for the configuration. -/
theorem Reachable.trace_of_run {config : Config} {unit : Multiplier} (h : Reachable config unit)
    (htracing : config.tracing = true) (hpending : unit.flags.multiplyDone = false)
    (hprogress : unit.progress = .notStarted) :
    (∃ blocks, List.Forall₂ (Event.Block config.shape unit.operands) (List.range diagonalCount)
          blocks ∧
        unit.reports unit.advancesLeft =
          .runStarted :: blocks.flatten ++
            [.multiplyCompleted unit.run.multiplier.pipeline.counters.cycles]) ∧
      (unit.afterAdvances unit.advancesLeft = unit.run.multiplier ∧
        unit.run.multiplier.flags.multiplyDone = true) ∧
      ∀ count, unit.silenced.reports count = [] ∧
        (unit.silenced.afterAdvances count).advance.outcome =
          (unit.afterAdvances count).advance.outcome ∧
        unit.silenced.afterAdvances count = (unit.afterAdvances count).silenced := by
  have hformed := h.wellFormed
  have hvalid : config.shape.validate = .ok () := by
    rw [← hformed.shape_eq]
    exact hformed.consistent.valid
  have hrun : unit.afterAdvances unit.advancesLeft = unit.run.multiplier := by
    rw [run, hformed.runWithin_eq hformed.advancesLeft_le]
  have hleft : unit.advancesLeft = config.shape.runCycles + 1 := by
    rw [advancesLeft_of_notStarted hpending hprogress, hformed.config_eq]
  refine ⟨?_, ⟨hrun, run_multiplyDone hformed.consistent⟩, fun count => ⟨?_, ?_, ?_⟩⟩
  · have hfinished : ((Engine.start config.shape Product.zero).after (fun _ => unit.operands)
        config.shape.runCycles).pipeline.finished = true :=
      (Engine.finished_iff _ _ hvalid _).mpr (Nat.le_refl _)
    obtain ⟨blocks, hblocks, hall⟩ :=
      Engine.narration_of_finished hvalid unit.operands Product.zero hfinished
    refine ⟨blocks, hall, ?_⟩
    rw [hleft, hformed.reports_of_run htracing hpending hprogress, hblocks,
      hformed.cycles_run hpending]
  · exact unit.reports_silenced count
  · rw [afterAdvances_silenced, advance_silenced]
  · exact unit.afterAdvances_silenced count

/-- The default profile with tracing. -/
def tracingConfig : Config :=
  { Config.ofProfile .delayQueue with tracing := true }

/-- A traced run of the default profile reports 128 blocks over its 1003 advances. -/
theorem Reachable.trace_of_run_delayQueue :
    ∃ blocks, List.Forall₂
        (Event.Block tracingConfig.shape
          ⟨Vector.replicate operandLimbs 3, Vector.replicate operandLimbs 5⟩)
        (List.range diagonalCount) blocks ∧
      ((idle tracingConfig).serveAll
        (multiplication ⟨Vector.replicate operandLimbs 3, Vector.replicate operandLimbs 5⟩ 64
          0)).reports 1003 =
        .runStarted :: blocks.flatten ++ [.multiplyCompleted 1002] := by
  have hreachable : Reachable tracingConfig
      ((idle tracingConfig).serveAll
        (multiplication ⟨Vector.replicate operandLimbs 3, Vector.replicate operandLimbs 5⟩ 64
          0)) := .serveAll (.create rfl) _
  have hcycles : tracingConfig.shape.runCycles = 1002 := by decide +kernel
  have hleft : ((idle tracingConfig).serveAll
      (multiplication ⟨Vector.replicate operandLimbs 3, Vector.replicate operandLimbs 5⟩ 64
        0)).advancesLeft = 1003 := by
    rw [advancesLeft_of_notStarted rfl rfl]
    exact congrArg (· + 1) hcycles
  obtain ⟨⟨blocks, hblocks, hreports⟩, -⟩ := trace_of_run hreachable rfl rfl rfl
  rw [hleft, hreachable.wellFormed.cycles_run rfl, hcycles] at hreports
  exact ⟨blocks, hblocks, hreports⟩

end Multiplier

end WideMultiplier
