import WideMultiplier.Proofs.Multiplier.Reachable

/-!
# Taking over a snapshot

A snapshot leaves the pipeline out. Where no run is under way nothing is lost with it: a multiplier
that takes the snapshot over is a twin of the one that it was taken from (`Multiplier.Twins`). Twins
differ at most in a pipeline that the control will never step again, and an operation on both gives
the same answer, the same events and the same accesses to the bus, and leaves twins
(`Multiplier.Twins.apply`). `Multiplier.Reachable.restored_alike` says so of every list of calls.
-/

namespace WideMultiplier

/-! ## What a snapshot restores -/

namespace Multiplier

/-- A multiplier in the state of another, as far as a snapshot shows it, with nothing under way. -/
def resumedOn (unit twin : Multiplier) : Multiplier :=
  { unit with
    config := twin.config
    progress := .notStarted
    pipeline := twin.pipeline.clear }

/-- Every multiplier takes over a snapshot of a well-formed one. -/
theorem restore_of_wellFormed {config : Config} {unit : Multiplier}
    (h : WellFormed config unit) (twin : Multiplier) :
    twin.restore unit.snapshot = .ok (unit.resumedOn twin) := by
  obtain ⟨operands, product, ha, hb, hproduct, hrestore⟩ := restore_of_validate h.snapshot_validate
  obtain rfl : operands = unit.operands :=
    Operands.ext (Vector.toArray_inj.mp ha) (Vector.toArray_inj.mp hb)
  obtain rfl : product = unit.product := Vector.toArray_inj.mp hproduct
  exact hrestore twin

/-- A multiplier with another pipeline. -/
def withPipeline (multiplier : Multiplier) (pipeline : Pipeline) : Multiplier :=
  { multiplier with pipeline }

end Multiplier

/-! ## Transfers and the pipeline -/

/-- The result of a cycle of a transfer, with another pipeline. -/
def Moved.withPipeline {σ : Type} (moved : Moved σ) (pipeline : Pipeline) : Moved σ :=
  { moved with multiplier := moved.multiplier.withPipeline pipeline }

/-- The result of an operation, with another pipeline. -/
def Applied.withPipeline {σ : Type} (applied : Applied σ) (pipeline : Pipeline) : Applied σ :=
  { applied with multiplier := applied.multiplier.withPipeline pipeline }

namespace Multiplier

variable {σ : Type} [LimbBus σ] (multiplier : Multiplier) (pipeline : Pipeline) (bus : σ)

/-- A cycle of a load does not look at the pipeline. -/
theorem loadCycle_withPipeline :
    (multiplier.withPipeline pipeline).loadCycle bus =
      (multiplier.loadCycle bus).withPipeline pipeline := by
  unfold loadCycle
  by_cases hidle : (multiplier.flags.loadDone || multiplier.progress.isRunning) = true
  · rw [if_pos hidle]
    exact if_pos hidle
  · rw [if_neg hidle]
    refine (if_neg hidle).trans ?_
    dsimp only [withPipeline]
    obtain ⟨fault | a, first⟩ := LimbBus.read
      (Transfer.limbAddress multiplier.transfer.baseA multiplier.transfer.loadOffset) bus
    · rfl
    · dsimp only
      obtain ⟨fault | b, second⟩ := LimbBus.read
        (Transfer.limbAddress multiplier.transfer.baseB multiplier.transfer.loadOffset) first
      · rfl
      · dsimp only
        cases multiplier.operands.setLimb multiplier.transfer.loadOffset a b <;> rfl

/-- A cycle of a write-back does not look at the pipeline. -/
theorem writeBackCycle_withPipeline :
    (multiplier.withPipeline pipeline).writeBackCycle bus =
      (multiplier.writeBackCycle bus).withPipeline pipeline := by
  unfold writeBackCycle
  by_cases hidle : (multiplier.flags.writeDone || !multiplier.flags.multiplyDone) = true
  · rw [if_pos hidle]
    exact if_pos hidle
  · rw [if_neg hidle]
    refine (if_neg hidle).trans ?_
    dsimp only [withPipeline]
    cases multiplier.product.limb multiplier.transfer.writeOffset with
    | error fault => rfl
    | ok limb =>
        dsimp only
        obtain ⟨fault | done, after⟩ := LimbBus.write (Transfer.limbAddress
          multiplier.transfer.baseProduct multiplier.transfer.writeOffset) limb bus
        · rfl
        · rfl

end Multiplier

namespace Operation

variable {σ : Type} [LimbBus σ] (multiplier : Multiplier) (bus : σ) {operation : Operation}

/-- Transfers do not look at the pipeline. -/
theorem apply_withPipeline (h : operation.Transfers) (pipeline : Pipeline) :
    operation.apply (multiplier.withPipeline pipeline) bus =
      (operation.apply multiplier bus).withPipeline pipeline := by
  cases operation with
  | load operands =>
      cases hlocked : multiplier.progress.isRunning <;>
        simp [apply, succeed, Multiplier.load, Multiplier.finishLoad, Multiplier.withPipeline,
          Applied.withPipeline, hlocked]
  | loadBytes a b =>
      cases hlocked : multiplier.progress.isRunning <;> cases hoperands : Operands.ofBytes a b <;>
        simp [apply, check, Multiplier.loadBytes, Multiplier.finishLoad, Multiplier.withPipeline,
          Applied.withPipeline, hlocked, hoperands]
  | beginLoad baseA baseB =>
      cases hlocked : multiplier.progress.isRunning <;>
        simp [apply, succeed, Multiplier.beginLoad, Multiplier.withPipeline,
          Applied.withPipeline, hlocked]
  | loadCycle =>
      rw [apply, apply, multiplier.loadCycle_withPipeline]
      rfl
  | writeBackCycle =>
      rw [apply, apply, multiplier.writeBackCycle_withPipeline]
      rfl
  | markWritten =>
      cases hdone : multiplier.flags.multiplyDone <;>
        simp [apply, succeed, Multiplier.markWritten, Multiplier.withPipeline,
          Applied.withPipeline, hdone]
  | snapshot => rfl
  | _ => exact h.elim

end Operation

/-! ## Twins -/

namespace Multiplier

/-- Multipliers that differ at most in a pipeline, and in that only while no run is pending, so that
it is emptied before it is stepped. -/
structure Twins (left right : Multiplier) : Prop where
  same : right = left.withPipeline right.pipeline
  shape_eq : right.pipeline.shape = left.pipeline.shape
  pending : left.flags.multiplyDone = false → right = left

end Multiplier

namespace Operation

/-- Whether an operation empties the pipeline, whatever it holds. -/
def Refreshes : Operation → Prop
  | .reset | .start | .issue _ => True
  | .restore image => image.validate = .ok ()
  | _ => False

end Operation

/-- An answer without counters that are those of an earlier run: advancing gives them where there is
nothing to advance. -/
def Answer.withoutStaleCounters : Answer → Answer
  | .ran 0 _ => .ran 0 Counters.zero
  | answer => answer

/-- Results of an operation on twins: twins again, and no difference in what the host or the bus can
tell. -/
structure Applied.Alike {σ : Type} (left right : Applied σ) : Prop where
  twins : left.multiplier.Twins right.multiplier
  bus_eq : right.bus = left.bus
  answer_eq : right.answer.withoutStaleCounters = left.answer.withoutStaleCounters
  events_eq : right.events = left.events

namespace Multiplier

namespace Twins

variable {left right : Multiplier}

theorem refl (multiplier : Multiplier) : Twins multiplier multiplier :=
  ⟨rfl, rfl, fun _ => rfl⟩

/-- Equal results are alike. -/
theorem alike_of_eq {σ : Type} {first second : Applied σ} (h : second = first) :
    first.Alike second := by
  rw [h]
  exact ⟨.refl _, rfl, rfl, rfl⟩

/-- Emptied pipelines of twins are equal. -/
theorem clear_eq (h : Twins left right) : right.pipeline.clear = left.pipeline.clear := by
  rw [Pipeline.clear, Pipeline.clear, h.shape_eq]

/-- Twins take a snapshot over in the same way, or refuse it both. -/
theorem restore_eq (h : Twins left right) (image : Snapshot) :
    right.restore image = left.restore image := by
  cases hvalid : image.validate with
  | error fault => rw [restore_of_error hvalid, restore_of_error hvalid]
  | ok =>
      have hclear := h.clear_eq
      obtain ⟨operands, product, -, -, -, hrestore⟩ := restore_of_validate hvalid
      rw [hrestore, hrestore, hclear, h.same]
      rfl

/-- Operations that empty the pipeline make twins equal. -/
theorem eq_of_refreshes (h : Twins left right) {σ : Type} [LimbBus σ] (bus : σ)
    {operation : Operation} (hrefreshes : operation.Refreshes) :
    operation.apply right bus = operation.apply left bus := by
  have hclear := h.clear_eq
  cases operation with
  | reset | start | issue =>
      rw [h.same] at hclear ⊢
      simp only [Operation.apply, reset, start, issue, hclear]
      rfl
  | restore image =>
      obtain ⟨operands, product, -, -, -, hrestore⟩ := restore_of_validate hrefreshes
      rw [Operation.apply, Operation.apply, h.restore_eq, hrestore]
      rfl
  | _ => exact hrefreshes.elim

/-- An operation on twins does the same on both and leaves twins. -/
theorem apply (h : Twins left right) {σ : Type} [LimbBus σ] (bus : σ) (operation : Operation) :
    (operation.apply left bus).Alike (operation.apply right bus) := by
  cases hdone : left.flags.multiplyDone with
  | false =>
      rw [h.pending hdone]
      exact alike_of_eq rfl
  | true =>
      have hright : right.flags.multiplyDone = true := by
        rw [h.same]
        exact hdone
      have htransfer : operation.Transfers →
          (operation.apply left bus).Alike (operation.apply right bus) := by
        intro htransfers
        have hsame := Operation.apply_sameRun left bus htransfers
        rw [h.same, Operation.apply_withPipeline left bus htransfers]
        refine ⟨⟨rfl, ?_, fun hpending => ?_⟩, rfl, rfl, rfl⟩
        · rw [hsame.pipeline]
          exact h.shape_eq
        · rw [hsame.multiplyDone, hdone] at hpending
          cases hpending
      cases operation with
      | reset | start | issue => exact alike_of_eq (h.eq_of_refreshes bus trivial)
      | advance =>
          rw [Operation.apply, Operation.apply, advance, advance, if_pos hdone, if_pos hright]
          exact ⟨h, rfl, rfl, rfl⟩
      | run =>
          -- there is nothing to advance, so the counters are those of some earlier run
          rw [Operation.apply, Operation.apply, run, run, runWithin_of_done _ hdone,
            runWithin_of_done _ hright]
          exact ⟨h, rfl, rfl, rfl⟩
      | load | loadBytes | beginLoad | loadCycle | writeBackCycle | markWritten | snapshot =>
          exact htransfer trivial
      | restore image =>
          rw [Operation.apply, Operation.apply, h.restore_eq]
          cases left.restore image with
          | error fault => exact ⟨h, rfl, rfl, rfl⟩
          | ok restored => exact alike_of_eq rfl

/-- Calls on twins leave twins. -/
theorem serveAll (h : Twins left right) (calls : List HostCall) :
    Twins (left.serveAll calls) (right.serveAll calls) := by
  induction calls generalizing left right with
  | nil => exact h
  | cons call rest ih => exact ih (h.apply call.bus call.operation).twins

/-- Calls on twins leave equal multipliers once one of them empties the pipeline. -/
theorem serveAll_eq (h : Twins left right) {calls : List HostCall}
    (hrefreshed : ∃ call ∈ calls, call.operation.Refreshes) :
    right.serveAll calls = left.serveAll calls := by
  induction calls generalizing left right with
  | nil =>
      obtain ⟨call, hcall, -⟩ := hrefreshed
      cases hcall
  | cons first rest ih =>
      obtain ⟨call, hcall, hrefreshes⟩ := hrefreshed
      rw [serveAll_cons, serveAll_cons]
      rcases List.mem_cons.mp hcall with rfl | hlater
      · rw [serve, serve, h.eq_of_refreshes call.bus hrefreshes]
      · exact ih (h.apply first.bus first.operation).twins ⟨call, hlater, hrefreshes⟩

end Twins

/-- What takes over a snapshot of a multiplier with no run under way is a twin of it. -/
theorem twins_resumedOn {config : Config} {unit twin : Multiplier} (h : WellFormed config unit)
    (htwin : WellFormed config twin) (hfree : unit.progress = .notStarted) :
    Twins unit (unit.resumedOn twin) := by
  have hconfig : twin.config = unit.config := htwin.config_eq.trans h.config_eq.symm
  have hsame : unit.resumedOn twin = unit.withPipeline twin.pipeline.clear := by
    rw [resumedOn, hconfig, ← hfree]
    rfl
  refine ⟨hsame, ?_, fun hpending => ?_⟩
  · show twin.pipeline.shape = unit.pipeline.shape
    rw [htwin.shape_eq, h.shape_eq]
  · rw [hsame, htwin.clear_eq, ← h.fresh hpending hfree]
    rfl

/-- A multiplier that takes over the snapshot of another of the same configuration, which has no run
under way, cannot be told from it: after the same calls both are in the same state but for the
pipeline, and a further call gives the same answer, events and bus. Only counters of an earlier run
may differ, and nothing does once a call has emptied the pipeline. -/
theorem Reachable.restored_alike {config : Config} {unit twin : Multiplier}
    (h : Reachable config unit) (htwin : Reachable config twin)
    (hfree : unit.progress = .notStarted) :
    ∃ restored, twin.restore unit.snapshot = .ok restored ∧ restored.snapshot = unit.snapshot ∧
      ∀ calls : List HostCall,
        restored.serveAll calls =
            { unit.serveAll calls with pipeline := (restored.serveAll calls).pipeline } ∧
          ((∃ call ∈ calls, call.operation.Refreshes) →
            restored.serveAll calls = unit.serveAll calls) ∧
          ∀ call : HostCall,
            (call.operation.apply (restored.serveAll calls) call.bus).bus =
                (call.operation.apply (unit.serveAll calls) call.bus).bus ∧
              (call.operation.apply (restored.serveAll calls) call.bus).events =
                (call.operation.apply (unit.serveAll calls) call.bus).events ∧
              (call.operation.apply (restored.serveAll calls)
                  call.bus).answer.withoutStaleCounters =
                (call.operation.apply (unit.serveAll calls)
                  call.bus).answer.withoutStaleCounters := by
  have htwins := twins_resumedOn h.wellFormed htwin.wellFormed hfree
  refine ⟨_, restore_of_wellFormed h.wellFormed twin, ?_, fun calls => ⟨?_, ?_, fun call => ?_⟩⟩
  · rw [htwins.same]
    rfl
  · exact (htwins.serveAll calls).same
  · exact htwins.serveAll_eq
  · have halike := (htwins.serveAll calls).apply call.bus call.operation
    exact ⟨halike.bus_eq, halike.events_eq, halike.answer_eq⟩

/-- A new multiplier takes over the snapshot of one that has completed a run. The next issue leaves
both equal. -/
theorem Reachable.restored_alike_singleCycle :
    ∃ restored,
      (idle (.ofProfile .singleCycle)).restore
          ((idle (.ofProfile .singleCycle)).serveAll
            (multiplication ⟨Vector.replicate operandLimbs 3, Vector.replicate operandLimbs 5⟩ 64
              129)).snapshot = .ok restored ∧
        restored.serveAll
            [.over (Memory.zero 2048) .writeBackCycle, .over (Memory.zero 0) (.issue 0)] =
          ((idle (.ofProfile .singleCycle)).serveAll
            (multiplication ⟨Vector.replicate operandLimbs 3, Vector.replicate operandLimbs 5⟩ 64
              129)).serveAll
            [.over (Memory.zero 2048) .writeBackCycle, .over (Memory.zero 0) (.issue 0)] := by
  have hnew : Reachable (.ofProfile .singleCycle) (idle (.ofProfile .singleCycle)) := .create rfl
  obtain ⟨restored, hrestored, -, hcalls⟩ := restored_alike
    (hnew.serveAll
      (multiplication ⟨Vector.replicate operandLimbs 3, Vector.replicate operandLimbs 5⟩ 64 129))
    hnew (by decide +kernel)
  refine ⟨restored, hrestored, (hcalls _).2.1 ⟨.over (Memory.zero 0) (.issue 0), ?_, trivial⟩⟩
  simp

end Multiplier

end WideMultiplier
