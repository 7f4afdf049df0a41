import WideMultiplier.Proofs.Multiplier.History
import WideMultiplier.Proofs.Multiplier.WellFormed
import WideMultiplier.Proofs.Pipeline.Closing

/-!
# Reachable multipliers

`Multiplier.Reachable` holds of the multipliers that calls lead to, over any buses and with any
snapshots. They are well-formed, so that no operation of theirs leaves the stores, their own
snapshots are accepted, and a pending transfer takes a cycle for each limb that is left:
`Multiplier.Reachable.keeps_order`.
-/

namespace WideMultiplier

namespace Pipeline

/-- Whether one cycle of a pipeline stays within the stores: the limbs that it reads are those of
the factors, and the limb of a diagonal that closes is one of the product. By
`Pipeline.step_congr` a cycle looks at no other limbs. -/
structure StepsWithin (operands : Operands) (product : Product) (pipeline : Pipeline) : Prop where
  read : ∀ pair ∈ pipeline.reading,
    operands.pair pair.i pair.j = .ok (operands.pairAt pair.i pair.j)
  stored : ∀ closed, (pipeline.step operands product).closed = some closed →
    product.store closed.index closed.limb = .ok (pipeline.step operands product).product

/-- In the middle of a run a cycle stays within the stores. -/
theorem Sound.stepsWithin {samples : List Sample} {pipeline : Pipeline} {product : Product}
    (h : Sound samples pipeline product) (operands : Operands) :
    StepsWithin operands product pipeline := by
  refine ⟨fun pair hpair => ?_, fun closed hclosed => ?_⟩
  · obtain ⟨hi, hj, -⟩ :=
      Cursor.mem_pairsOf.mp (h.mem_pairsOf_of_mem_owed (h.mem_owed_of_mem_reading hpair))
    rw [Operands.pair, if_neg (Nat.not_le.mpr hi), if_neg (Nat.not_le.mpr hj)]
  · obtain ⟨limb, hstep, hproduct, -, hlevel⟩ | ⟨hnone, -, -⟩ :=
      step_closed_cases operands product h.diagonal_lt
    · rw [hstep] at hclosed
      cases hclosed
      rw [hproduct, Product.store, if_pos hlevel]
    · rw [hnone] at hclosed
      cases hclosed

end Pipeline

namespace Multiplier

/-! ## Accesses to the stores -/

/-- Whether the next cycle of a multiplier stays within its stores, if a run is under way. -/
def ClocksWithin (multiplier : Multiplier) : Prop :=
  multiplier.progress = .running →
    Pipeline.StepsWithin multiplier.operands multiplier.product multiplier.pipeline

/-- A consistent multiplier stays within its stores. -/
theorem Consistent.clocksWithin {multiplier : Multiplier} (h : Consistent multiplier) :
    ClocksWithin multiplier := by
  intro hrunning
  obtain ⟨cycles, hrun⟩ := h.running hrunning
  have hsound := Engine.sound_after (fun _ => multiplier.operands) multiplier.pipeline.shape
    Product.zero cycles
  rw [← hrun.engine] at hsound
  exact hsound.stepsWithin multiplier.operands

end Multiplier

namespace Operation

/-- Whether an operation stays within the stores: a transfer uses no limb past their end, and
neither does any cycle of a run, which advances step by step (`Multiplier.run_eq_serveAll`). The
other operations use no single limbs. -/
def WithinStores {σ : Type} [LimbBus σ] (multiplier : Multiplier) (bus : σ) : Operation → Prop
  | .advance => multiplier.ClocksWithin
  | .run => ∀ advances,
      (multiplier.serveAll (List.replicate advances (.over bus .advance))).ClocksWithin
  | .loadCycle => ∀ index limit,
      (multiplier.loadCycle bus).result ≠ .error (.limbIndex index limit)
  | .writeBackCycle => ∀ index limit,
      (multiplier.writeBackCycle bus).result ≠ .error (.limbIndex index limit)
  | _ => True

end Operation

namespace Multiplier

namespace WellFormed

variable {config : Config} {multiplier : Multiplier}

/-- Every operation of a well-formed multiplier stays within the stores. -/
theorem withinStores (h : WellFormed config multiplier) {σ : Type} [LimbBus σ] (bus : σ)
    (operation : Operation) : operation.WithinStores multiplier bus := by
  cases operation with
  | advance => exact h.consistent.clocksWithin
  | run =>
      intro advances
      exact (h.consistent.serveAll _).clocksWithin
  | loadCycle =>
      intro index limit hfault
      rcases idle_or_loading h.load with hidle | hloading
      · rw [loadCycle_of_idle hidle] at hfault
        cases hfault
      · cases load_case hloading bus with
        | failedA fault hread hcycle =>
            rw [hcycle] at hfault
            cases hfault
        | failedB a fault first hread hsecond hcycle =>
            rw [hcycle] at hfault
            cases hfault
        | loaded a b first second hread hsecond hcycle =>
            rw [hcycle] at hfault
            cases hfault
  | writeBackCycle =>
      intro index limit hfault
      rcases idle_or_writing h.drain with hidle | hwriting
      · rw [writeBackCycle_of_idle hidle] at hfault
        cases hfault
      · cases write_case hwriting bus with
        | failed fault after hwrite hcycle =>
            rw [hcycle] at hfault
            cases hfault
        | written after hwrite hcycle =>
            rw [hcycle] at hfault
            cases hfault
  | _ => trivial

/-- A snapshot of a well-formed multiplier fits. -/
theorem snapshot_validate (h : WellFormed config multiplier) :
    multiplier.snapshot.validate = .ok () :=
  validate_snapshot ((Transfer.validate_eq_ok_iff _ _).mpr ⟨h.load, h.drain⟩)

end WellFormed

/-! ## Reachable multipliers -/

/-- The multipliers of a configuration that calls lead to, over any buses and with any snapshots. -/
inductive Reachable (config : Config) : Multiplier → Prop where
  | create {multiplier : Multiplier} (h : Multiplier.create config = .ok multiplier) :
      Reachable config multiplier
  | serve {multiplier : Multiplier} (h : Reachable config multiplier) (call : HostCall) :
      Reachable config (multiplier.serve call)

namespace Reachable

variable {config : Config} {unit : Multiplier}

/-- Reachable multipliers are well-formed. -/
theorem wellFormed (h : Reachable config unit) : WellFormed config unit := by
  induction h with
  | create hcreate => exact .create hcreate
  | serve _ call ih => exact ih.apply call.bus call.operation

/-- What calls lead to from a reachable multiplier is reachable. -/
theorem serveAll (h : Reachable config unit) (calls : List HostCall) :
    Reachable config (unit.serveAll calls) := by
  induction calls generalizing unit with
  | nil => exact h
  | cons call rest ih => exact ih (h.serve call)

/-- Every reachable multiplier is in order. Its offsets lie within their buffers, and before their
end while the transfer is pending. While a run is under way the flags say so and the pipeline is not
finished, and a run that is yet to begin finds a new pipeline, of the shape that was checked. No
operation leaves the stores, and its own snapshot is accepted. Over a bus that serves the limbs that
are left, a pending load takes a cycle for each of them, and so does a pending write-back. -/
theorem keeps_order (h : Reachable config unit) :
    (unit.transfer.loadOffset ≤ operandLimbs ∧ unit.transfer.writeOffset ≤ productLimbs) ∧
      (unit.flags.loadDone = false → unit.transfer.loadOffset < operandLimbs) ∧
      (unit.flags.multiplyDone = true → unit.flags.writeDone = false →
        unit.transfer.writeOffset < productLimbs) ∧
      (unit.progress = .running → unit.flags.multiplyDone = false ∧ unit.flags.writeDone = true ∧
        unit.pipeline.finished = false) ∧
      (unit.flags.multiplyDone = false → unit.progress = .notStarted →
        unit.pipeline = Pipeline.ofShape config.shape) ∧
      (unit.config = config ∧ unit.pipeline.shape = config.shape ∧
        config.shape.validate = .ok ()) ∧
      (∀ call : HostCall, call.operation.WithinStores unit call.bus) ∧
      unit.snapshot.validate = .ok () ∧
      ∀ (σ : Type) [LimbBus σ] (states : σ → Prop) (bus : σ), states bus →
        (unit.progress = .notStarted → unit.flags.loadDone = false →
          LimbBus.ServesReads unit.transfer.IsFactorAddress states →
          ∀ budget ≥ operandLimbs - unit.transfer.loadOffset, ∃ loaded after,
            unit.loadAll budget bus =
                .ok (operandLimbs - unit.transfer.loadOffset, loaded, after) ∧
              loaded.flags.loadDone = true) ∧
        (unit.flags.multiplyDone = true → unit.flags.writeDone = false →
          LimbBus.ServesWrites unit.transfer.IsProductAddress states →
          ∀ budget ≥ productLimbs - unit.transfer.writeOffset, ∃ written after,
            unit.writeBackAll budget bus =
                .ok (productLimbs - unit.transfer.writeOffset, written, after) ∧
              written.flags.writeDone = true) := by
  have hformed := h.wellFormed
  refine ⟨⟨hformed.load.le, hformed.drain.le⟩, hformed.load.lt, hformed.drain.lt, ?_,
    hformed.fresh, ⟨hformed.config_eq, hformed.shape_eq, ?_⟩, ?_, hformed.snapshot_validate, ?_⟩
  · intro hrunning
    obtain ⟨cycles, hrun⟩ := hformed.consistent.running hrunning
    exact ⟨hrun.pending, hformed.held hrunning, hrun.unfinished⟩
  · rw [← hformed.shape_eq]
    exact hformed.consistent.valid
  · intro call
    exact hformed.withinStores call.bus call.operation
  · intro σ _ states bus hbus
    constructor
    · intro hfree hpending hserves budget hbudget
      have hloading : Loading unit := ⟨hpending, hfree, hformed.load.lt hpending⟩
      obtain ⟨loaded, after, hall, hto, -⟩ := loadAll_of_loading hloading hserves hbus hbudget
      exact ⟨loaded, after, hall, hto.done⟩
    · intro hcomplete hpending hserves budget hbudget
      have hwriting : Writing unit := ⟨hcomplete, hpending, hformed.drain.lt hcomplete hpending⟩
      obtain ⟨written, after, hall, hto, -⟩ :=
        writeBackAll_of_writing hwriting hserves hbus hbudget
      exact ⟨written, after, hall, hto.done⟩

/-- A snapshot from elsewhere, with a load and a write-back that are both pending. -/
def halfway : Snapshot :=
  { version := .v1
    operandA := Array.replicate operandLimbs 3
    operandB := Array.replicate operandLimbs 5
    product := Array.replicate productLimbs 7
    flags := ⟨true, false, false⟩
    progress := .notStarted
    transfer := ⟨0, 512, 1024, 10, 100⟩ }

/-- Both transfers of such a snapshot come to their end over a memory that their buffers lie in. -/
theorem keeps_order_halfway :
    (∃ loaded after,
      ((idle (.ofProfile .singleCycle)).serve (.over (Memory.zero 0) (.restore halfway))).loadAll
          operandLimbs (Memory.zero 2048) = .ok (54, loaded, after) ∧
        loaded.flags.loadDone = true) ∧
      ∃ written after,
        ((idle (.ofProfile .singleCycle)).serve
            (.over (Memory.zero 0) (.restore halfway))).writeBackAll
            productLimbs (Memory.zero 2048) = .ok (28, written, after) ∧
          written.flags.writeDone = true := by
  have hreachable : Reachable (.ofProfile .singleCycle)
      ((idle (.ofProfile .singleCycle)).serve (.over (Memory.zero 0) (.restore halfway))) :=
    .serve (.create rfl) _
  have htransfer : ((idle (.ofProfile .singleCycle)).serve
      (.over (Memory.zero 0) (.restore halfway))).transfer = halfway.transfer := by decide +kernel
  have hflags : ((idle (.ofProfile .singleCycle)).serve
      (.over (Memory.zero 0) (.restore halfway))).flags = halfway.flags := by decide +kernel
  obtain ⟨-, -, -, -, -, -, -, -, hfinishes⟩ := keeps_order hreachable
  obtain ⟨hload, hwrite⟩ := hfinishes Memory (fun memory => memory.size = 2048)
    (Memory.zero 2048) rfl
  rw [htransfer, hflags] at hload hwrite
  constructor
  · refine hload (by decide +kernel) rfl (Memory.servesReads ?_ ?_) operandLimbs ?_ <;> decide
  · refine hwrite rfl rfl (Memory.servesWrites ?_) productLimbs ?_ <;> decide

end Reachable

end Multiplier

end WideMultiplier
