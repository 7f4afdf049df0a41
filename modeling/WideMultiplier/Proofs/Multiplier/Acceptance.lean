import WideMultiplier.Proofs.Multiplier.History

/-!
# Which snapshots are taken over

A snapshot fits if it meets seven conditions (`Snapshot.Fits`). `Snapshot.checks` lists them in the
order in which they are checked, and `Snapshot.validate_eq` says that a snapshot is refused for the
first that it does not meet. Whether it fits has nothing to do with the multiplier that is to take
it over, so a host that leaves all refused restores out of a history is told the same by the other
calls (`Multiplier.told_accepted`). `Multiplier.restore_all_or_nothing` gathers this.
-/

namespace WideMultiplier

/-- A condition that a snapshot has to meet, and the fault of one that does not. -/
structure LayoutCheck where
  met : Bool
  fault : LayoutFault

namespace Snapshot

/-- The conditions, in the order in which they are checked. -/
def checks (image : Snapshot) : List LayoutCheck :=
  [⟨image.operandA.size = operandLimbs, .operandLimbs .a operandLimbs image.operandA.size⟩,
    ⟨image.operandB.size = operandLimbs, .operandLimbs .b operandLimbs image.operandB.size⟩,
    ⟨image.product.size = productLimbs, .productLimbs productLimbs image.product.size⟩,
    ⟨image.transfer.loadOffset ≤ operandLimbs,
      .transferOffset image.transfer.loadOffset operandLimbs⟩,
    ⟨image.transfer.writeOffset ≤ productLimbs,
      .transferOffset image.transfer.writeOffset productLimbs⟩,
    ⟨¬ (image.flags.loadDone = false ∧ image.transfer.loadOffset = operandLimbs),
      .unfinishedTransfer image.transfer.loadOffset operandLimbs⟩,
    ⟨¬ (image.flags.multiplyDone = true ∧ image.flags.writeDone = false ∧
        image.transfer.writeOffset = productLimbs),
      .unfinishedTransfer image.transfer.writeOffset productLimbs⟩]

/-- The fault of the first condition that is not met. -/
def firstFault (image : Snapshot) : Option LayoutFault :=
  (image.checks.find? fun check => !check.met).map LayoutCheck.fault

/-- Whether a snapshot meets all conditions. -/
structure Fits (image : Snapshot) : Prop where
  operandA : image.operandA.size = operandLimbs
  operandB : image.operandB.size = operandLimbs
  product : image.product.size = productLimbs
  loadOffset : image.transfer.loadOffset ≤ operandLimbs
  writeOffset : image.transfer.writeOffset ≤ productLimbs
  /-- A load that is not done has a limb left to move. -/
  loading : ¬ (image.flags.loadDone = false ∧ image.transfer.loadOffset = operandLimbs)
  /-- A write-back that is not done has a limb left to move. -/
  draining : ¬ (image.flags.multiplyDone = true ∧ image.flags.writeDone = false ∧
    image.transfer.writeOffset = productLimbs)

variable (image : Snapshot)

/-- A snapshot without a fault meets all conditions. -/
theorem firstFault_eq_none_iff : image.firstFault = none ↔ image.Fits := by
  have hall : image.firstFault = none ↔ ∀ check ∈ image.checks, check.met = true := by
    simp [firstFault]
  rw [hall]
  simp only [checks, List.forall_mem_cons, decide_eq_true_eq]
  constructor
  · rintro ⟨ha, hb, hproduct, hload, hwrite, hloading, hdraining, -⟩
    exact ⟨ha, hb, hproduct, hload, hwrite, hloading, hdraining⟩
  · rintro ⟨ha, hb, hproduct, hload, hwrite, hloading, hdraining⟩
    exact ⟨ha, hb, hproduct, hload, hwrite, hloading, hdraining, List.forall_mem_nil _⟩

/-- The offsets are checked after the images, in order. -/
theorem transfer_fault :
    (match image.transfer.validate image.flags with
      | .error fault => some fault
      | .ok () => none) =
      ((image.checks.drop 3).find? fun check => !check.met).map LayoutCheck.fault := by
  by_cases hload : image.transfer.loadOffset ≤ operandLimbs
  · by_cases hwrite : image.transfer.writeOffset ≤ productLimbs
    · have hinside := And.intro (Nat.not_lt.mpr hload) (Nat.not_lt.mpr hwrite)
      by_cases hloading : image.flags.loadDone = false ∧
          image.transfer.loadOffset = operandLimbs
      · simp [Transfer.validate, checks, hinside, hwrite, hloading]
      · by_cases hdraining : image.flags.multiplyDone = true ∧ image.flags.writeDone = false ∧
          image.transfer.writeOffset = productLimbs
        · simp [Transfer.validate, checks, hinside, hload, hloading, hdraining]
        · simp [Transfer.validate, checks, hinside, hload, hwrite, hloading, hdraining, and_assoc]
    · simp [Transfer.validate, checks, hload, hwrite, Nat.not_lt.mpr hload, Nat.not_le.mp hwrite]
  · simp [Transfer.validate, checks, hload, Nat.not_le.mp hload]

/-- A snapshot is refused for its first fault. -/
theorem validate_eq : image.validate =
    match image.firstFault with
    | some fault => .error (.layout fault)
    | none => .ok () := by
  by_cases ha : image.operandA.size = operandLimbs
  · by_cases hb : image.operandB.size = operandLimbs
    · by_cases hproduct : image.product.size = productLimbs
      · have hrest : image.firstFault =
            ((image.checks.drop 3).find? fun check => !check.met).map LayoutCheck.fault := by
          simp [firstFault, checks, ha, hb, hproduct]
        rw [hrest, ← transfer_fault, validate, if_neg (not_not_intro ha),
          if_neg (not_not_intro hb), if_neg (not_not_intro hproduct)]
        cases image.transfer.validate image.flags <;> rfl
      · simp [validate, firstFault, checks, ha, hb, hproduct]
    · simp [validate, firstFault, checks, ha, hb]
  · simp [validate, firstFault, checks, ha]

example : (Snapshot.mk .v1 #[] #[] #[] Flags.idle .running ⟨0, 0, 0, 65, 129⟩).firstFault =
    some (.operandLimbs .a operandLimbs 0) := by decide

end Snapshot

namespace HostCall

/-- Whether a call is a restore of a snapshot that does not fit. -/
def refused (call : HostCall) : Bool :=
  match call.operation with
  | .restore image => image.firstFault.isSome
  | _ => false

end HostCall

namespace Multiplier

section Restore

variable (multiplier : Multiplier) (image : Snapshot)

/-- A multiplier takes a snapshot over that has no fault, and refuses it for its first fault
otherwise. -/
theorem restore_cases :
    (image.firstFault = none ∧ ∃ restored, multiplier.restore image = .ok restored) ∨
      ∃ fault, image.firstFault = some fault ∧
        multiplier.restore image = .error (.layout fault) := by
  have hvalid := image.validate_eq
  cases hfault : image.firstFault with
  | some fault =>
      rw [hfault] at hvalid
      exact .inr ⟨fault, rfl, restore_of_error hvalid multiplier⟩
  | none =>
      rw [hfault] at hvalid
      obtain ⟨operands, product, -, -, -, hrestore⟩ := restore_of_validate hvalid
      exact .inl ⟨rfl, _, hrestore multiplier⟩

/-- A multiplier that has taken a snapshot over shows it again, with no run under way. -/
theorem snapshot_of_restore {restored : Multiplier} (h : multiplier.restore image = .ok restored) :
    restored.snapshot = { image with progress := .notStarted } := by
  obtain ⟨-, operands, product, ha, hb, hproduct, rfl⟩ := restore_eq_of_ok h
  cases image
  simp only at ha hb hproduct
  simp [snapshot, ha, hb, hproduct]

end Restore

/-- A restore that is refused does nothing. -/
theorem serve_of_refused (multiplier : Multiplier) {call : HostCall} (h : call.refused = true) :
    multiplier.serve call = multiplier := by
  obtain ⟨σ, bus, operation⟩ := call
  cases operation with
  | restore image =>
      have hsome : image.firstFault.isSome = true := h
      rcases multiplier.restore_cases image with ⟨hnone, -⟩ | ⟨fault, -, hfault⟩
      · rw [hnone] at hsome
        cases hsome
      · rw [serve, Operation.apply, hfault]
        rfl
  | _ => cases h

/-- What the host is told by some calls, one after the other: the answer to each, and the events
that are reported. -/
def told (multiplier : Multiplier) : List HostCall → List (HostCall × Answer × List Event)
  | [] => []
  | call :: rest =>
    (call, (call.operation.apply multiplier call.bus).answer,
        (call.operation.apply multiplier call.bus).events) ::
      (multiplier.serve call).told rest

/-- Without the restores that are refused, the other calls do the same. -/
theorem serveAll_accepted (multiplier : Multiplier) (calls : List HostCall) :
    multiplier.serveAll (calls.filter fun call => !call.refused) = multiplier.serveAll calls := by
  induction calls generalizing multiplier with
  | nil => rfl
  | cons call rest ih =>
      rw [List.filter_cons, serveAll_cons, ← ih]
      cases hrefused : call.refused with
      | true => rw [multiplier.serve_of_refused hrefused]; rfl
      | false => rfl

/-- Without the restores that are refused, the other calls tell the same. -/
theorem told_accepted (multiplier : Multiplier) (calls : List HostCall) :
    multiplier.told (calls.filter fun call => !call.refused) =
      (multiplier.told calls).filter fun reply => !reply.1.refused := by
  induction calls generalizing multiplier with
  | nil => rfl
  | cons call rest ih =>
      rw [List.filter_cons, told, List.filter_cons, ← ih]
      cases hrefused : call.refused with
      | true => rw [multiplier.serve_of_refused hrefused]; rfl
      | false => rfl

/-- Whatever a multiplier is doing, it takes a snapshot over as a whole or not at all. It does so if
the snapshot meets all conditions, and then shows it again with no run under way. Otherwise the
fault is that of the first condition that is not met, which the snapshot tells of itself. Restores
that are refused may stand anywhere in a history, also in the middle of a run: all other calls do
and tell what they would without them. -/
theorem restore_all_or_nothing (unit : Multiplier) (image : Snapshot) :
    ((∃ restored, unit.restore image = .ok restored) ↔ image.Fits) ∧
      (∀ fault, unit.restore image = .error fault ↔
        ∃ unmet, image.firstFault = some unmet ∧ fault = .layout unmet) ∧
      (∀ fault, unit.restore image = .error fault ↔ image.validate = .error fault) ∧
      (∀ restored, unit.restore image = .ok restored →
        restored.snapshot = { image with progress := .notStarted } ∧
          restored.config = unit.config ∧ restored.pipeline = unit.pipeline.clear) ∧
      (∀ call : HostCall, call.operation = .restore image →
        (call.operation.apply unit call.bus).answer = .checked image.validate ∧
          (¬ image.Fits → unit.serve call = unit)) ∧
      ∀ calls : List HostCall,
        unit.serveAll (calls.filter fun call => !call.refused) = unit.serveAll calls ∧
          unit.told (calls.filter fun call => !call.refused) =
            (unit.told calls).filter fun reply => !reply.1.refused := by
  refine ⟨?_, ?_, ?_, ?_, ?_, fun calls =>
    ⟨unit.serveAll_accepted calls, unit.told_accepted calls⟩⟩
  · rw [← image.firstFault_eq_none_iff]
    rcases unit.restore_cases image with ⟨hnone, hrestored⟩ | ⟨unmet, hunmet, hfault⟩
    · simp [hnone, hrestored]
    · simp [hunmet, hfault]
  · intro fault
    rcases unit.restore_cases image with ⟨hnone, restored, hrestored⟩ | ⟨unmet, hunmet, hfault⟩
    · simp [hnone, hrestored]
    · simp [hunmet, hfault, eq_comm]
  · intro fault
    rw [image.validate_eq]
    rcases unit.restore_cases image with ⟨hnone, restored, hrestored⟩ | ⟨unmet, hunmet, hfault⟩
    · simp [hnone, hrestored]
    · simp [hunmet, hfault]
  · intro restored hrestored
    refine ⟨unit.snapshot_of_restore image hrestored, ?_, (restore_of_ok hrestored).2⟩
    obtain ⟨-, operands, product, -, -, -, rfl⟩ := restore_eq_of_ok hrestored
    rfl
  · rintro ⟨σ, bus, operation⟩ rfl
    refine ⟨?_, fun hmisfit => ?_⟩
    · rw [image.validate_eq, Operation.apply]
      rcases unit.restore_cases image with ⟨hnone, restored, hrestored⟩ | ⟨unmet, hunmet, hfault⟩
      · rw [hnone, hrestored]
        rfl
      · rw [hunmet, hfault]
        rfl
    · refine unit.serve_of_refused (Option.isSome_iff_ne_none.mpr ?_)
      rwa [ne_eq, image.firstFault_eq_none_iff]

end Multiplier

end WideMultiplier
