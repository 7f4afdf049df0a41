import WideMultiplier.Proofs.Multiplier.Lockstep
import WideMultiplier.Proofs.Multiplier.Overlap

/-!
# Nothing is left of earlier runs

What a run does depends on the configuration and on the factors, and on nothing that was done
before: `Multiplier.SameCourse.advance` says that one advance cannot tell two multipliers apart
which agree on these. So a run that is issued or begun anew takes the same course whatever came
before it, and a reset leaves a new multiplier: `Multiplier.Reachable.no_leak`.
-/

namespace WideMultiplier

namespace Multiplier

/-! ## The course of a run -/

/-- Multipliers whose runs, pending or under way, take the same course. A run that has yet to begin
clears the product, so the products count only from its beginning on. -/
structure SameCourse (left right : Multiplier) : Prop where
  config : right.config = left.config
  operands : right.operands = left.operands
  pipeline : right.pipeline = left.pipeline
  progress : right.progress = left.progress
  multiplyDone : right.flags.multiplyDone = left.flags.multiplyDone
  product : left.progress = .running ∨ left.flags.multiplyDone = true →
    right.product = left.product

namespace SameCourse

variable {left right : Multiplier}

/-- Both report events or neither. -/
theorem traced (h : SameCourse left right) (events : List Event) :
    right.traced events = left.traced events := by
  rw [Multiplier.traced, Multiplier.traced, h.config]

/-- Both pipelines make the same step. -/
theorem step_eq (h : SameCourse left right) (hprogress : left.progress = .running) :
    right.pipeline.step right.operands right.product =
      left.pipeline.step left.operands left.product := by
  rw [h.pipeline, h.operands, h.product (.inl hprogress)]

/-- An advance of multipliers on the same course leaves them on the same course. It does the same in
both and reports the same. -/
theorem advance (h : SameCourse left right) :
    SameCourse left.advance.multiplier right.advance.multiplier ∧
      right.advance.outcome = left.advance.outcome ∧
      right.advance.events = left.advance.events := by
  have hsameDone := h.multiplyDone
  have hsameProgress := h.progress
  cases hdone : left.flags.multiplyDone with
  | true =>
      rw [hdone] at hsameDone
      rw [advance_of_done hdone, advance_of_done hsameDone]
      exact ⟨h, rfl, rfl⟩
  | false =>
      rw [hdone] at hsameDone
      cases hprogress : left.progress with
      | notStarted =>
          rw [hprogress] at hsameProgress
          rw [advance_of_notStarted hdone hprogress, advance_of_notStarted hsameDone hsameProgress]
          have hclear : right.pipeline.clear = left.pipeline.clear := by rw [h.pipeline]
          exact ⟨⟨h.config, h.operands, hclear, rfl, rfl, fun _ => rfl⟩, rfl, h.traced _⟩
      | running =>
          rw [hprogress] at hsameProgress
          have hstep := h.step_eq hprogress
          have hpipeline := congrArg PipelineStep.pipeline hstep
          have hproduct := congrArg PipelineStep.product hstep
          rw [advance_of_running hdone hprogress, advance_of_running hsameDone hsameProgress]
          dsimp only
          rw [hstep]
          split
          · refine ⟨⟨h.config, h.operands, hpipeline, rfl, rfl, fun _ => hproduct⟩, rfl, ?_⟩
            exact h.traced _
          · refine ⟨⟨h.config, h.operands, hpipeline, h.progress, h.multiplyDone, ?_⟩, rfl, ?_⟩
            · exact fun _ => hproduct
            · exact h.traced _

/-- Advances keep multipliers on the same course. -/
theorem afterAdvances (h : SameCourse left right) (count : Nat) :
    SameCourse (left.afterAdvances count) (right.afterAdvances count) := by
  induction count with
  | zero => exact h
  | succ count ih => exact ih.advance.1

/-- Multipliers on the same course report the same. -/
theorem reports (h : SameCourse left right) (count : Nat) :
    right.reports count = left.reports count := by
  induction count with
  | zero => rfl
  | succ count ih => rw [reports_succ, reports_succ, ih, (h.afterAdvances count).advance.2.2]

/-- Multipliers on the same course give the same product, or none. -/
theorem finishedProduct (h : SameCourse left right) :
    right.finishedProduct = left.finishedProduct := by
  unfold Multiplier.finishedProduct
  rw [h.multiplyDone]
  split
  · next hdone => rw [h.product (.inr hdone)]
  · rfl

/-- After the first advance the products count. -/
theorem product_afterAdvances (h : SameCourse left right) {count : Nat} (hcount : 0 < count) :
    (right.afterAdvances count).product = (left.afterAdvances count).product := by
  obtain ⟨before, rfl⟩ : ∃ before, count = before + 1 := ⟨count - 1, by omega⟩
  refine (h.afterAdvances (before + 1)).product ?_
  cases hdone : (left.afterAdvances (before + 1)).flags.multiplyDone with
  | true => exact .inr rfl
  | false => exact .inl (advance_progress hdone)

end SameCourse

/-- Multipliers that cannot be told apart by what their advances do, from some advance on by the
product in their stores neither. -/
structure RunsAlike (left right : Multiplier) (first : Nat) : Prop where
  outcome : ∀ count, (right.afterAdvances count).advance.outcome =
    (left.afterAdvances count).advance.outcome
  reports : ∀ count, right.reports count = left.reports count
  pipeline : ∀ count, (right.afterAdvances count).pipeline = (left.afterAdvances count).pipeline
  finishedProduct : ∀ count, (right.afterAdvances count).finishedProduct =
    (left.afterAdvances count).finishedProduct
  product : ∀ count ≥ first, (right.afterAdvances count).product =
    (left.afterAdvances count).product

/-- Multipliers on the same course run alike. -/
theorem SameCourse.runsAlike {left right : Multiplier} (h : SameCourse left right) :
    RunsAlike left right 1 where
  outcome := fun count => (h.afterAdvances count).advance.2.1
  reports := h.reports
  pipeline := fun count => (h.afterAdvances count).pipeline
  finishedProduct := fun count => (h.afterAdvances count).finishedProduct
  product := fun _ hcount => h.product_afterAdvances hcount

/-! ## The write-back behind it -/

/-- Cycles of a write-back do the same on multipliers that write back alike. -/
theorem DrainsAlike.transferAll {left right : Multiplier} (h : DrainsAlike left right) {σ : Type}
    [LimbBus σ] (bus : σ) (count : Nat) :
    (right.transferAll bus (List.replicate count .writeBack)).bus =
        (left.transferAll bus (List.replicate count .writeBack)).bus ∧
      (right.transferAll bus (List.replicate count .writeBack)).replies =
        (left.transferAll bus (List.replicate count .writeBack)).replies := by
  induction count generalizing left right bus with
  | zero => exact ⟨rfl, rfl⟩
  | succ count ih =>
      obtain ⟨hnext, hbus, hresult, hevents⟩ := h.step bus
      obtain ⟨hrest, hreplies⟩ := ih hnext (left.writeBackCycle bus).bus
      rw [List.replicate_succ, transferAll_writeBack, transferAll_writeBack, hbus, hresult, hevents]
      exact ⟨hrest, congrArg (_ :: ·) hreplies⟩

/-- Runs on the same course that are to be written back behind the same address are written back
alike. -/
theorem SameCourse.drainsAlike_run {config : Config} {left right : Multiplier}
    (h : SameCourse left right) (hleft : WellFormed config left) (hright : WellFormed config right)
    (hpending : left.flags.multiplyDone = false)
    (hbase : right.transfer.baseProduct = left.transfer.baseProduct) :
    DrainsAlike left.run.multiplier right.run.multiplier := by
  have hfirst := multiplied_run hleft.consistent hpending
  have hsecond := multiplied_run hright.consistent (h.multiplyDone.trans hpending)
  have hproduct : right.run.multiplier.product = left.run.multiplier.product := by
    refine Product.value_inj ?_
    rw [hsecond.value, hfirst.value, h.operands]
  refine ⟨?_, hproduct, ?_, ?_, ?_, ?_⟩
  · rw [hright.run.config_eq, hleft.run.config_eq]
  · rw [hsecond.multiplyDone, hfirst.multiplyDone]
  · rw [hsecond.writeDone, hfirst.writeDone]
  · rw [hsecond.baseProduct, hfirst.baseProduct, hbase]
  · rw [hsecond.writeOffset, hfirst.writeOffset]

/-! ## Issue, start and reset -/

section Reachable

variable {config : Config} {unit other : Multiplier}

/-- Runs that are issued on the same factors take the same course. -/
theorem SameCourse.issue (h : WellFormed config unit) (hother : WellFormed config other)
    (hoperands : other.operands = unit.operands) (base : UInt64) :
    SameCourse (unit.issue base) (other.issue base) := by
  refine ⟨hother.config_eq.trans h.config_eq.symm, hoperands,
    hother.clear_eq.trans h.clear_eq.symm, rfl, rfl, fun hbegun => ?_⟩
  -- an issued run has neither begun nor ended
  rcases hbegun with hrunning | hdone
  · cases hrunning
  · cases hdone

/-- Runs that are begun on the same factors take the same course. -/
theorem SameCourse.start (h : WellFormed config unit) (hother : WellFormed config other)
    (hoperands : other.operands = unit.operands) : SameCourse unit.start other.start :=
  ⟨hother.config_eq.trans h.config_eq.symm, hoperands, hother.clear_eq.trans h.clear_eq.symm, rfl,
    rfl, fun _ => rfl⟩

/-- Whatever two multipliers of one configuration have been through: if they hold the same factors,
a run that is issued on both goes the same way on both, with every outcome, event and counter, and
so does a run that is begun on both. The product of the issued run is written back alike. And a
reset gives the multiplier that was built. -/
theorem Reachable.no_leak (h : Reachable config unit) (hother : Reachable config other)
    (hoperands : other.operands = unit.operands) :
    (∀ base, RunsAlike (unit.issue base) (other.issue base) 1 ∧
        ∀ {σ : Type} [LimbBus σ] (bus : σ) (count : Nat),
          let left := (unit.issue base).run.multiplier.transferAll (Recorder.ofBus bus)
            (List.replicate count .writeBack)
          let right := (other.issue base).run.multiplier.transferAll (Recorder.ofBus bus)
            (List.replicate count .writeBack)
          right.bus = left.bus ∧ right.replies = left.replies) ∧
      RunsAlike unit.start other.start 0 ∧
      Multiplier.create config = .ok unit.reset := by
  have hformed := h.wellFormed
  have hsecond := hother.wellFormed
  refine ⟨fun base => ?_, ?_, ?_⟩
  · have hcourse := SameCourse.issue hformed hsecond hoperands base
    refine ⟨hcourse.runsAlike, fun {σ} _ bus count => ?_⟩
    exact (hcourse.drainsAlike_run (hformed.issue base) (hsecond.issue base) rfl rfl).transferAll
      (Recorder.ofBus bus) count
  · have hcourse := SameCourse.start hformed hsecond hoperands
    refine { hcourse.runsAlike with product := fun count _ => ?_ }
    cases count with
    | zero => rfl
    | succ count => exact hcourse.product_afterAdvances (Nat.succ_pos count)
  · have hvalid : config.shape.validate = .ok () := by
      rw [← hformed.shape_eq]
      exact hformed.consistent.valid
    rw [Multiplier.create, hvalid, reset, hformed.clear_eq, hformed.config_eq]
    rfl

/-- A run that was aborted midway leaves nothing behind. -/
theorem Reachable.no_leak_midway :
    RunsAlike (midway.issue 64)
        (((idle (.ofProfile .delayQueue)).load midway.operands).issue 64) 1 ∧
      Multiplier.create (.ofProfile .delayQueue) = .ok midway.reset := by
  have hmidway : Reachable (.ofProfile .delayQueue) midway := .serveAll (.create rfl) _
  have hidle : Reachable (.ofProfile .delayQueue) (idle (.ofProfile .delayQueue)) := .create rfl
  have hloads : ∀ operands, ((idle (.ofProfile .delayQueue)).load operands).operands = operands :=
    fun _ => rfl
  obtain ⟨hissue, -, hreset⟩ := no_leak hmidway
    (hidle.serve (.over (Memory.zero 0) (.load midway.operands))) (hloads midway.operands)
  exact ⟨(hissue 64).1, hreset⟩

end Reachable

end Multiplier

end WideMultiplier
