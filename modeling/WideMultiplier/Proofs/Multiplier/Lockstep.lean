import WideMultiplier.Proofs.Multiplier.Control
import WideMultiplier.Proofs.Pipeline.Lockstep

/-!
# Runs over different factors go in lockstep

Two multipliers that differ only in their factors take the same time over a run and say the same
about it, but for the limbs of the product: `Multiplier.runs_in_lockstep`. So nothing that can be
timed or counted tells one pair of factors from another. The relation that every advance keeps is
`Multiplier.InStep`.
-/

namespace WideMultiplier

/-- An outcome without the limb of a diagonal that closed. -/
def Outcome.withoutLimb : Outcome → Outcome
  | .cycle closed => .cycle (closed.map ClosedDiagonal.withoutLimb)
  | outcome => outcome

namespace Multiplier

/-! ## Advances -/

/-- What the first advances report, in order. -/
def reports (multiplier : Multiplier) (count : Nat) : List Event :=
  (List.range count).flatMap fun before => (multiplier.afterAdvances before).advance.events

theorem reports_succ (multiplier : Multiplier) (count : Nat) :
    multiplier.reports (count + 1) =
      multiplier.reports count ++ (multiplier.afterAdvances count).advance.events := by
  rw [reports, List.range_succ, List.flatMap_append]
  simp [reports]

/-! ## Lockstep -/

/-- Multipliers that differ at most in their stores and in the values that their pipelines hold. -/
structure InStep (left right : Multiplier) : Prop where
  config : right.config = left.config
  flags : right.flags = left.flags
  progress : right.progress = left.progress
  transfer : right.transfer = left.transfer
  pipeline : left.pipeline.InStep right.pipeline

namespace InStep

variable {left right : Multiplier}

/-- Both report events or neither. -/
theorem traced (h : InStep left right) {first second : List Event}
    (hevents : second.map Event.withoutLimb = first.map Event.withoutLimb) :
    (right.traced second).map Event.withoutLimb = (left.traced first).map Event.withoutLimb := by
  unfold Multiplier.traced
  rw [h.config]
  split
  · exact hevents
  · rfl

/-- Both begin a run. -/
theorem start (h : InStep left right) : InStep left.start right.start := by
  refine ⟨h.config, ?_, rfl, h.transfer, ?_⟩
  · show ({ right.flags with multiplyDone := false, writeDone := true } : Flags) = _
    rw [h.flags]
    rfl
  · show (Pipeline.ofShape left.pipeline.shape).InStep (Pipeline.ofShape right.pipeline.shape)
    rw [h.pipeline.shape]
    exact .refl _

/-- Both complete a run. -/
theorem complete (h : InStep left right) : InStep left.complete right.complete := by
  refine ⟨h.config, ?_, rfl, ?_, h.pipeline⟩
  · show ({ right.flags with multiplyDone := true, writeDone := false } : Flags) = _
    rw [h.flags]
    rfl
  · show { right.transfer with writeOffset := 0 } = _
    rw [h.transfer]
    rfl

/-- An advance of multipliers in step leaves them in step. It does the same in both and reports the
same. -/
theorem advance (h : InStep left right) :
    InStep left.advance.multiplier right.advance.multiplier ∧
      right.advance.outcome.withoutLimb = left.advance.outcome.withoutLimb ∧
      right.advance.events.map Event.withoutLimb = left.advance.events.map Event.withoutLimb := by
  obtain ⟨hpipeline, hclosed, hevents⟩ :=
    h.pipeline.step left.operands right.operands left.product right.product
  have hdone := congrArg Flags.multiplyDone h.flags
  have hrunning := congrArg Progress.isRunning h.progress
  unfold Multiplier.advance
  rw [hdone, hrunning]
  split
  · exact ⟨h, rfl, rfl⟩
  · split
    · exact ⟨h.start, rfl, h.traced rfl⟩
    · have hclocked : InStep left.clocked right.clocked :=
        ⟨h.config, h.flags, h.progress, h.transfer, hpipeline⟩
      dsimp only
      rw [hpipeline.finished, hpipeline.counters]
      split
      · refine ⟨hclocked.complete, rfl, h.traced ?_⟩
        rw [List.map_append, List.map_append, hevents]
      · exact ⟨hclocked, congrArg Outcome.cycle hclosed, h.traced hevents⟩

/-- Advances keep multipliers in step. -/
theorem afterAdvances (h : InStep left right) (count : Nat) :
    InStep (left.afterAdvances count) (right.afterAdvances count) := by
  induction count with
  | zero => exact h
  | succ count ih => exact ih.advance.1

/-- Multipliers in step report the same. -/
theorem reports (h : InStep left right) (count : Nat) :
    (right.reports count).map Event.withoutLimb = (left.reports count).map Event.withoutLimb := by
  induction count with
  | zero => rfl
  | succ count ih =>
      rw [reports_succ, reports_succ, List.map_append, List.map_append, ih,
        (h.afterAdvances count).advance.2.2]

end InStep

/-- A run takes the same course over any two pairs of factors. After every number of advances the
counters, the cursors and the lengths of the queues are the same, the next advance has the same
outcome but for a limb, and what was reported so far is the same but for the limbs. -/
theorem runs_in_lockstep (unit : Multiplier) (first second : Operands) (base : UInt64)
    (count : Nat) :
    let left := { unit with operands := first }.issue base
    let right := { unit with operands := second }.issue base
    (right.afterAdvances count).advance.outcome.withoutLimb =
        (left.afterAdvances count).advance.outcome.withoutLimb ∧
      (right.afterAdvances count).pipeline.counters =
        (left.afterAdvances count).pipeline.counters ∧
      (right.afterAdvances count).pipeline.cursor = (left.afterAdvances count).pipeline.cursor ∧
      (right.afterAdvances count).pipeline.queue.length =
        (left.afterAdvances count).pipeline.queue.length ∧
      (right.reports count).map Event.withoutLimb = (left.reports count).map Event.withoutLimb := by
  intro left right
  have hstart : left.InStep right := ⟨rfl, rfl, rfl, rfl, .refl _⟩
  have hafter := hstart.afterAdvances count
  have hqueue := congrArg List.length hafter.pipeline.queue
  rw [List.length_map, List.length_map] at hqueue
  exact ⟨hafter.advance.2.1, hafter.pipeline.counters, hafter.pipeline.cursor, hqueue,
    hstart.reports count⟩

end Multiplier

end WideMultiplier
