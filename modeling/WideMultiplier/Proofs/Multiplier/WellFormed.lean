import WideMultiplier.Proofs.Multiplier.Transfers

/-!
# Well-formed multipliers

`Multiplier.WellFormed` ties the flags, the marker and the offsets of a multiplier to one another
and to its pipeline: a phase that is pending has something left to do, and the pipeline holds the
run that is under way or nothing. `Multiplier.WellFormed.apply` says that every operation keeps it,
also over a bus that fails and with a snapshot that comes from elsewhere.
-/

namespace WideMultiplier

namespace Transfer

/-- Whether the offset of the load lies within the factors, and before their end if the load is
pending. -/
structure LoadInOrder (transfer : Transfer) (flags : Flags) : Prop where
  le : transfer.loadOffset ≤ operandLimbs
  lt : flags.loadDone = false → transfer.loadOffset < operandLimbs

/-- Whether the offset of the write-back lies within the product, and before its end if the
write-back is pending. -/
structure DrainInOrder (transfer : Transfer) (flags : Flags) : Prop where
  le : transfer.writeOffset ≤ productLimbs
  lt : flags.multiplyDone = true → flags.writeDone = false → transfer.writeOffset < productLimbs

/-- Only transfers that are in order pass the check. -/
theorem validate_eq_ok_iff (transfer : Transfer) (flags : Flags) :
    transfer.validate flags = .ok () ↔
      transfer.LoadInOrder flags ∧ transfer.DrainInOrder flags := by
  unfold validate
  constructor
  · intro h
    split at h
    · cases h
    · next hload =>
        split at h
        · cases h
        · next hwrite =>
            split at h
            · cases h
            · next hloading =>
                split at h
                · cases h
                · next hwriting =>
                    simp only [Bool.and_eq_true, Bool.not_eq_true', beq_iff_eq] at hloading hwriting
                    refine ⟨⟨by omega, fun hpending => ?_⟩, by omega, fun hdone hpending => ?_⟩
                    · have hne : transfer.loadOffset ≠ operandLimbs :=
                        fun heq => hloading ⟨hpending, heq⟩
                      omega
                    · have hne : transfer.writeOffset ≠ productLimbs :=
                        fun heq => hwriting ⟨⟨hdone, hpending⟩, heq⟩
                      omega
  · rintro ⟨hload, hdrain⟩
    have hloading : ¬ (!flags.loadDone && transfer.loadOffset == operandLimbs) = true := by
      simp only [Bool.and_eq_true, Bool.not_eq_true', beq_iff_eq]
      rintro ⟨hpending, heq⟩
      exact absurd (hload.lt hpending) (by omega)
    have hwriting : ¬ (flags.multiplyDone && !flags.writeDone &&
        transfer.writeOffset == productLimbs) = true := by
      simp only [Bool.and_eq_true, Bool.not_eq_true', beq_iff_eq]
      rintro ⟨⟨hdone, hpending⟩, heq⟩
      exact absurd (hdrain.lt hdone hpending) (by omega)
    rw [if_neg (Nat.not_lt.mpr hload.le), if_neg (Nat.not_lt.mpr hdrain.le), if_neg hloading,
      if_neg hwriting]

end Transfer

namespace Multiplier

/-! ## Transfers that stay in order -/

section Transfers

variable {multiplier : Multiplier}

/-- A load is done, held up, or pending with a limb left to load. -/
theorem idle_or_loading (h : multiplier.transfer.LoadInOrder multiplier.flags) :
    (multiplier.flags.loadDone = true ∨ multiplier.progress = .running) ∨ Loading multiplier := by
  cases hdone : multiplier.flags.loadDone with
  | true => exact .inl (.inl rfl)
  | false =>
      cases hprogress : multiplier.progress with
      | running => exact .inl (.inr rfl)
      | notStarted => exact .inr ⟨hdone, hprogress, h.lt hdone⟩

/-- There is nothing to write back, or a write-back is pending with a limb left to write. -/
theorem idle_or_writing (h : multiplier.transfer.DrainInOrder multiplier.flags) :
    (multiplier.flags.writeDone = true ∨ multiplier.flags.multiplyDone = false) ∨
      Writing multiplier := by
  cases hdone : multiplier.flags.writeDone with
  | true => exact .inl (.inl rfl)
  | false =>
      cases hcomplete : multiplier.flags.multiplyDone with
      | false => exact .inl (.inr rfl)
      | true => exact .inr ⟨hcomplete, hdone, h.lt hcomplete hdone⟩

/-- One more limb of each factor keeps a load in order. -/
theorem takeLimbs_loadInOrder (h : Loading multiplier) (a b : Limb) :
    (multiplier.takeLimbs h a b).transfer.LoadInOrder (multiplier.takeLimbs h a b).flags := by
  have hoffset := h.offset_lt
  refine ⟨?_, fun hpending => ?_⟩
  · show multiplier.transfer.loadOffset + 1 ≤ operandLimbs
    omega
  · show multiplier.transfer.loadOffset + 1 < operandLimbs
    have hne : multiplier.transfer.loadOffset + 1 ≠ operandLimbs := by
      simpa [takeLimbs, countLoaded, h.pending] using hpending
    omega

/-- One more limb of the product keeps a write-back in order. -/
theorem countWritten_drainInOrder (h : Writing multiplier) :
    multiplier.countWritten.transfer.DrainInOrder multiplier.countWritten.flags := by
  have hoffset := h.offset_lt
  refine ⟨?_, fun _ hpending => ?_⟩
  · show multiplier.transfer.writeOffset + 1 ≤ productLimbs
    omega
  · show multiplier.transfer.writeOffset + 1 < productLimbs
    have hne : multiplier.transfer.writeOffset + 1 ≠ productLimbs := by
      simpa [countWritten, h.pending] using hpending
    omega

/-- Loading both factors at once keeps the configuration and leaves the load in order. -/
theorem load_inOrder (h : multiplier.transfer.LoadInOrder multiplier.flags) (operands : Operands) :
    (multiplier.load operands).config = multiplier.config ∧
      (multiplier.load operands).transfer.LoadInOrder (multiplier.load operands).flags := by
  unfold load
  split
  · exact ⟨rfl, h⟩
  · exact ⟨rfl, Nat.le_refl _, fun hpending => by cases hpending⟩

variable {σ : Type} [LimbBus σ]

/-- Operations that load factors keep the configuration and leave the load in order. -/
theorem apply_loadInOrder (h : multiplier.transfer.LoadInOrder multiplier.flags) (bus : σ)
    {operation : Operation} (hloads : operation.LoadsFactors) :
    (operation.apply multiplier bus).multiplier.config = multiplier.config ∧
      (operation.apply multiplier bus).multiplier.transfer.LoadInOrder
        (operation.apply multiplier bus).multiplier.flags := by
  cases operation with
  | load operands => exact load_inOrder h operands
  | loadBytes a b =>
      simp only [Operation.apply]
      cases hload : multiplier.loadBytes a b with
      | error fault => exact ⟨rfl, h⟩
      | ok after =>
          rcases loadBytes_of_ok hload with rfl | ⟨operands, rfl⟩
          · exact ⟨rfl, h⟩
          · exact load_inOrder h operands
  | beginLoad baseA baseB =>
      show (multiplier.beginLoad baseA baseB).config = multiplier.config ∧
        (multiplier.beginLoad baseA baseB).transfer.LoadInOrder
          (multiplier.beginLoad baseA baseB).flags
      unfold beginLoad
      split
      · exact ⟨rfl, h⟩
      · exact ⟨rfl, Nat.zero_le _, fun _ => show 0 < operandLimbs by decide⟩
  | loadCycle =>
      simp only [Operation.apply, Operation.move]
      rcases idle_or_loading h with hidle | hloading
      · rw [loadCycle_of_idle hidle]
        exact ⟨rfl, h⟩
      · cases load_case hloading bus with
        | failedA fault hread hcycle =>
            rw [hcycle]
            exact ⟨rfl, h⟩
        | failedB a fault first hread hsecond hcycle =>
            rw [hcycle]
            exact ⟨rfl, h⟩
        | loaded a b first second hread hsecond hcycle =>
            rw [hcycle]
            exact ⟨rfl, takeLimbs_loadInOrder hloading a b⟩
  | snapshot => exact ⟨rfl, h⟩
  | _ => exact hloads.elim

end Transfers

/-! ## The invariant -/

/-- What every operation of a multiplier keeps. -/
structure WellFormed (config : Config) (multiplier : Multiplier) : Prop where
  consistent : Consistent multiplier
  config_eq : multiplier.config = config
  shape_eq : multiplier.pipeline.shape = config.shape
  load : multiplier.transfer.LoadInOrder multiplier.flags
  drain : multiplier.transfer.DrainInOrder multiplier.flags
  /-- Nothing is to be written back while a run is under way. -/
  held : multiplier.progress = .running → multiplier.flags.writeDone = true
  /-- A run that has not begun finds an empty pipeline. -/
  fresh : multiplier.flags.multiplyDone = false → multiplier.progress = .notStarted →
    multiplier.pipeline = Pipeline.ofShape config.shape

namespace WellFormed

variable {config : Config} {multiplier : Multiplier}

/-- A new multiplier is well-formed. -/
theorem create (h : Multiplier.create config = .ok multiplier) : WellFormed config multiplier := by
  have hconsistent := Consistent.create h
  obtain ⟨-, rfl⟩ := create_of_ok h
  refine ⟨hconsistent, rfl, rfl, ⟨Nat.zero_le _, ?_⟩, ⟨Nat.zero_le _, ?_⟩, ?_, fun _ _ => rfl⟩
  · intro hpending
    cases hpending
  · intro _ hpending
    cases hpending
  · intro hrunning
    cases hrunning

/-- The pipeline is emptied to that of the configuration. -/
theorem clear_eq (h : WellFormed config multiplier) :
    multiplier.pipeline.clear = Pipeline.ofShape config.shape := by
  rw [Pipeline.clear, h.shape_eq]

theorem reset (h : WellFormed config multiplier) : WellFormed config multiplier.reset where
  consistent := .of_notStarted h.consistent.valid rfl
  config_eq := h.config_eq
  shape_eq := h.shape_eq
  load := ⟨Nat.zero_le _, fun hpending => by cases hpending⟩
  drain := ⟨Nat.zero_le _, fun _ hpending => by cases hpending⟩
  held := fun hrunning => by cases hrunning
  fresh := fun _ _ => h.clear_eq

theorem start (h : WellFormed config multiplier) : WellFormed config multiplier.start where
  consistent := h.consistent.start
  config_eq := h.config_eq
  shape_eq := h.shape_eq
  load := ⟨h.load.le, h.load.lt⟩
  drain := ⟨h.drain.le, fun hdone => by cases hdone⟩
  held := fun _ => rfl
  fresh := fun _ hidle => by cases hidle

theorem issue (h : WellFormed config multiplier) (base : UInt64) :
    WellFormed config (multiplier.issue base) where
  consistent := .of_notStarted h.consistent.valid rfl
  config_eq := h.config_eq
  shape_eq := h.shape_eq
  load := ⟨h.load.le, h.load.lt⟩
  drain := ⟨Nat.zero_le _, fun hdone => by cases hdone⟩
  held := fun hrunning => by cases hrunning
  fresh := fun _ _ => h.clear_eq

theorem advance (h : WellFormed config multiplier) :
    WellFormed config multiplier.advance.multiplier := by
  have hconsistent := h.consistent.advance
  have hshape : multiplier.clocked.pipeline.shape = config.shape :=
    (Pipeline.step_shape _ _ _).trans h.shape_eq
  cases multiplier.advance_case with
  | idle hdone hafter houtcome =>
      rw [hafter]
      exact h
  | started hpending hprogress hafter houtcome =>
      rw [hafter]
      exact h.start
  | cycle hpending hprogress hfinished hafter closed houtcome =>
      rw [hafter] at hconsistent ⊢
      refine ⟨hconsistent, h.config_eq, hshape, h.load, h.drain, h.held, fun _ hidle => ?_⟩
      rw [show multiplier.clocked.progress = .running from hprogress] at hidle
      cases hidle
  | completed hpending hprogress hfinished hafter cycles houtcome =>
      rw [hafter] at hconsistent ⊢
      refine ⟨hconsistent, h.config_eq, hshape, ⟨h.load.le, h.load.lt⟩,
        ⟨Nat.zero_le _, fun _ _ => ?_⟩, fun hrunning => ?_, fun hopen => ?_⟩
      · show 0 < productLimbs
        decide
      · cases hrunning
      · cases hopen

theorem run (h : WellFormed config multiplier) : WellFormed config multiplier.run.multiplier :=
  runWithin_induction (fun _ hkept _ => hkept.advance) _ h

/-- Operations that load factors leave the rest of a well-formed multiplier alone. -/
theorem loadsFactors (h : WellFormed config multiplier) {σ : Type} [LimbBus σ] (bus : σ)
    {operation : Operation} (hloads : operation.LoadsFactors) :
    WellFormed config (operation.apply multiplier bus).multiplier := by
  have hsame := Operation.apply_sameDrain multiplier bus hloads
  obtain ⟨hconfig, hload⟩ := apply_loadInOrder h.load bus hloads
  refine ⟨h.consistent.of_sameRun hsame.toSameRun, hconfig.trans h.config_eq, ?_, hload, ⟨?_, ?_⟩,
    ?_, ?_⟩
  · rw [hsame.pipeline, h.shape_eq]
  · rw [hsame.writeOffset]
    exact h.drain.le
  · rw [hsame.multiplyDone, hsame.writeDone, hsame.writeOffset]
    exact h.drain.lt
  · rw [hsame.progress, hsame.writeDone]
    exact h.held
  · rw [hsame.multiplyDone, hsame.progress, hsame.pipeline]
    exact h.fresh

theorem writeBackCycle (h : WellFormed config multiplier) {σ : Type} [LimbBus σ] (bus : σ) :
    WellFormed config (multiplier.writeBackCycle bus).multiplier := by
  rcases idle_or_writing h.drain with hidle | hwriting
  · rw [writeBackCycle_of_idle hidle]
    exact h
  · cases write_case hwriting bus with
    | failed fault after hwrite hcycle =>
        rw [hcycle]
        exact h
    | written after hwrite hcycle =>
        have hsame := multiplier.writeBackCycle_sameRun bus
        rw [hcycle] at hsame ⊢
        refine ⟨h.consistent.of_sameRun hsame, h.config_eq, h.shape_eq, ⟨h.load.le, h.load.lt⟩,
          countWritten_drainInOrder hwriting, fun hrunning => ?_, h.fresh⟩
        -- what is written back is complete, so no run is under way
        obtain ⟨cycles, hrun⟩ := h.consistent.running hrunning
        have hcomplete := hwriting.complete
        rw [hrun.pending] at hcomplete
        cases hcomplete

theorem markWritten (h : WellFormed config multiplier) :
    WellFormed config multiplier.markWritten := by
  have hconsistent := h.consistent.of_sameRun multiplier.markWritten_sameRun
  unfold Multiplier.markWritten at hconsistent ⊢
  split
  · next hdone =>
      rw [if_pos hdone] at hconsistent
      refine ⟨hconsistent, h.config_eq, h.shape_eq, ⟨h.load.le, h.load.lt⟩,
        ⟨Nat.le_refl _, fun _ hpending => ?_⟩, fun _ => rfl, h.fresh⟩
      cases hpending
  · exact h

theorem restore (h : WellFormed config multiplier) {restored : Multiplier} {image : Snapshot}
    (hrestored : multiplier.restore image = .ok restored) : WellFormed config restored := by
  obtain ⟨hvalid, operands, product, -, -, -, rfl⟩ := restore_eq_of_ok hrestored
  obtain ⟨-, -, -, htransfer⟩ := Snapshot.of_validate hvalid
  obtain ⟨hload, hdrain⟩ := (Transfer.validate_eq_ok_iff _ _).mp htransfer
  refine ⟨.of_notStarted h.consistent.valid rfl, h.config_eq, h.shape_eq, hload, hdrain, ?_, ?_⟩
  · intro hrunning
    cases hrunning
  · intro _ _
    exact h.clear_eq

/-- Every operation keeps a multiplier well-formed. -/
theorem apply (h : WellFormed config multiplier) {σ : Type} [LimbBus σ] (bus : σ)
    (operation : Operation) : WellFormed config (operation.apply multiplier bus).multiplier := by
  cases operation with
  | reset => exact h.reset
  | start => exact h.start
  | issue base => exact h.issue base
  | advance => exact h.advance
  | run => exact h.run
  | load | loadBytes | beginLoad | loadCycle | snapshot =>
      exact h.loadsFactors bus trivial
  | writeBackCycle => exact h.writeBackCycle bus
  | markWritten => exact h.markWritten
  | restore image =>
      simp only [Operation.apply]
      cases hrestore : multiplier.restore image with
      | error fault => exact h
      | ok restored => exact h.restore hrestore

end WellFormed

end Multiplier

end WideMultiplier
