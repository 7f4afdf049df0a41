import WideMultiplier.Proofs.Multiplier.History

/-!
# What reaches a bus

A recorder passes every access on to the bus behind it and keeps a record, so that what an operation
stores can be read off: `HostCall.stores`. Recording does not change what an operation does
(`Operation.apply_recorder`). Only a write-back stores anything, and a cycle of it stores the limb
at the offset or leaves the multiplier as it was (`Multiplier.writeBack_case`).
-/

namespace WideMultiplier

variable {σ τ : Type}

/-- An access to a bus, with its result. -/
inductive Access where
  | read (address : UInt64) (result : Except BusFault Limb)
  | write (address : UInt64) (limb : Limb) (result : Except BusFault Unit)

/-- The address and the limb of a write that succeeded. -/
def Access.stored? : Access → Option (UInt64 × Limb)
  | .read _ _ => none
  | .write address limb (.ok ()) => some (address, limb)
  | .write _ _ (.error _) => none

/-- A bus with a record of the accesses that were made, in order. -/
structure Recorder (σ : Type) where
  bus : σ
  accesses : List Access

namespace Recorder

/-- A bus with an empty record. -/
def ofBus (bus : σ) : Recorder σ :=
  ⟨bus, []⟩

/-- The writes that succeeded, in order. -/
def stores (recorder : Recorder σ) : List (UInt64 × Limb) :=
  recorder.accesses.filterMap Access.stored?

variable [LimbBus σ]

instance : LimbBus (Recorder σ) where
  read address recorder :=
    let (result, bus) := LimbBus.read address recorder.bus
    (result, ⟨bus, recorder.accesses ++ [.read address result]⟩)
  write address limb recorder :=
    let (result, bus) := LimbBus.write address limb recorder.bus
    (result, ⟨bus, recorder.accesses ++ [.write address limb result]⟩)

/-- A read stores nothing. -/
theorem stores_read (recorder : Recorder σ) (address : UInt64) :
    (LimbBus.read address recorder).2.stores = recorder.stores := by
  show (recorder.accesses ++ [_]).filterMap Access.stored? = _
  rw [List.filterMap_append]
  exact List.append_nil _

/-- A first write is put on record with its result. -/
theorem write_ofBus (bus : σ) (address : UInt64) (limb : Limb) :
    LimbBus.write address limb (ofBus bus) =
      ((LimbBus.write address limb bus).1,
        ⟨(LimbBus.write address limb bus).2,
          [.write address limb (LimbBus.write address limb bus).1]⟩) := rfl

end Recorder

/-! ## Buses that behave alike -/

/-- One bus stands for another when accesses to it give the same results. -/
structure LimbBus.Simulates [LimbBus σ] [LimbBus τ] (project : σ → τ) : Prop where
  read : ∀ address bus, LimbBus.read address (project bus) =
    ((LimbBus.read address bus).1, project (LimbBus.read address bus).2)
  write : ∀ address limb bus, LimbBus.write address limb (project bus) =
    ((LimbBus.write address limb bus).1, project (LimbBus.write address limb bus).2)

/-- A recorder stands for the bus behind it. -/
theorem Recorder.simulates [LimbBus σ] : LimbBus.Simulates (Recorder.bus (σ := σ)) :=
  ⟨fun _ _ => rfl, fun _ _ _ => rfl⟩

/-- The result of a transfer cycle, seen on another bus. -/
def Moved.onBus (project : σ → τ) (moved : Moved σ) : Moved τ :=
  ⟨moved.multiplier, project moved.bus, moved.result, moved.events⟩

/-- The result of an operation, seen on another bus. -/
def Applied.onBus (project : σ → τ) (applied : Applied σ) : Applied τ :=
  ⟨applied.multiplier, project applied.bus, applied.answer, applied.events⟩

namespace Multiplier

variable [LimbBus σ] [LimbBus τ] {project : σ → τ} (multiplier : Multiplier) (bus : σ)

/-- A cycle of a load does the same on buses that behave alike. -/
theorem loadCycle_onBus (h : LimbBus.Simulates project) :
    (multiplier.loadCycle bus).onBus project = multiplier.loadCycle (project bus) := by
  unfold loadCycle
  split
  · rfl
  · dsimp only
    rw [h.read]
    obtain ⟨a | a, first⟩ := LimbBus.read
      (Transfer.limbAddress multiplier.transfer.baseA multiplier.transfer.loadOffset) bus
    · rfl
    · dsimp only
      rw [h.read]
      obtain ⟨b | b, second⟩ := LimbBus.read
        (Transfer.limbAddress multiplier.transfer.baseB multiplier.transfer.loadOffset) first
      · rfl
      · dsimp only
        split <;> rfl

/-- A cycle of a write-back does the same on buses that behave alike. -/
theorem writeBackCycle_onBus (h : LimbBus.Simulates project) :
    (multiplier.writeBackCycle bus).onBus project = multiplier.writeBackCycle (project bus) := by
  unfold writeBackCycle
  split
  · rfl
  · dsimp only
    split
    · rfl
    · next limb hlimb =>
        rw [h.write]
        obtain ⟨fault | done, after⟩ := LimbBus.write (Transfer.limbAddress
          multiplier.transfer.baseProduct multiplier.transfer.writeOffset) limb bus
        · rfl
        · rfl

end Multiplier

/-- Every operation does the same on buses that behave alike. -/
theorem Operation.apply_onBus [LimbBus σ] [LimbBus τ] {project : σ → τ}
    (h : LimbBus.Simulates project) (multiplier : Multiplier) (bus : σ) (operation : Operation) :
    (operation.apply multiplier bus).onBus project = operation.apply multiplier (project bus) := by
  cases operation with
  | loadCycle =>
      rw [apply, apply, ← multiplier.loadCycle_onBus bus h]
      rfl
  | writeBackCycle =>
      rw [apply, apply, ← multiplier.writeBackCycle_onBus bus h]
      rfl
  | loadBytes a b =>
      rw [apply, apply]
      cases multiplier.loadBytes a b <;> rfl
  | restore image =>
      rw [apply, apply]
      cases multiplier.restore image <;> rfl
  | _ => rfl

/-- Recording does not change what an operation does. -/
theorem Operation.apply_recorder [LimbBus σ] (multiplier : Multiplier) (recorder : Recorder σ)
    (operation : Operation) :
    (operation.apply multiplier recorder).onBus Recorder.bus =
      operation.apply multiplier recorder.bus :=
  apply_onBus Recorder.simulates multiplier recorder operation

/-! ## Stores -/

/-- What a call stores on its bus, in order. -/
def HostCall.stores (multiplier : Multiplier) (call : HostCall) : List (UInt64 × Limb) :=
  (call.operation.apply multiplier (Recorder.ofBus call.bus)).bus.stores

namespace Multiplier

/-- What some calls store on their buses, one after the other. -/
def storesOf (multiplier : Multiplier) : List HostCall → List (UInt64 × Limb)
  | [] => []
  | call :: rest => call.stores multiplier ++ storesOf (multiplier.serve call) rest

theorem storesOf_append (multiplier : Multiplier) (first second : List HostCall) :
    multiplier.storesOf (first ++ second) =
      multiplier.storesOf first ++ (multiplier.serveAll first).storesOf second := by
  induction first generalizing multiplier with
  | nil => rfl
  | cons call rest ih =>
      rw [List.cons_append, storesOf, ih, storesOf, List.append_assoc, serveAll_cons]

variable [LimbBus σ] (multiplier : Multiplier)

/-- A cycle of a load stores nothing. -/
theorem stores_loadCycle (recorder : Recorder σ) :
    (multiplier.loadCycle recorder).bus.stores = recorder.stores := by
  have hfirst := recorder.stores_read
    (Transfer.limbAddress multiplier.transfer.baseA multiplier.transfer.loadOffset)
  unfold loadCycle
  split
  · rfl
  · dsimp only
    generalize LimbBus.read (Transfer.limbAddress multiplier.transfer.baseA
      multiplier.transfer.loadOffset) recorder = access at hfirst ⊢
    obtain ⟨a | a, first⟩ := access
    · exact hfirst
    · have hsecond := first.stores_read
        (Transfer.limbAddress multiplier.transfer.baseB multiplier.transfer.loadOffset)
      dsimp only
      generalize LimbBus.read (Transfer.limbAddress multiplier.transfer.baseB
        multiplier.transfer.loadOffset) first = access at hsecond ⊢
      obtain ⟨b | b, second⟩ := access
      · exact hsecond.trans hfirst
      · dsimp only
        split <;> exact hsecond.trans hfirst

/-- What a cycle of a write-back does. -/
inductive WriteBackCase (bus : σ) : Prop where
  /-- There is nothing to write back. -/
  | idle (hidle : multiplier.flags.writeDone = true ∨ multiplier.flags.multiplyDone = false)
      (hafter : (multiplier.writeBackCycle bus).multiplier = multiplier)
      (hresult : (multiplier.writeBackCycle bus).result = .ok multiplier.flags.writeDone)
      (hstores : (multiplier.writeBackCycle (Recorder.ofBus bus)).bus.stores = [])
  /-- The cycle fails and can be tried again. -/
  | failed (hpending : multiplier.flags.writeDone = false) (fault : Fault)
      (hafter : (multiplier.writeBackCycle bus).multiplier = multiplier)
      (hresult : (multiplier.writeBackCycle bus).result = .error fault)
      (hstores : (multiplier.writeBackCycle (Recorder.ofBus bus)).bus.stores = [])
  /-- The limb at the offset is stored. -/
  | stored (hpending : multiplier.flags.writeDone = false)
      (hoffset : multiplier.transfer.writeOffset < productLimbs)
      (hafter : (multiplier.writeBackCycle bus).multiplier = multiplier.countWritten)
      (hresult : (multiplier.writeBackCycle bus).result =
        .ok multiplier.countWritten.flags.writeDone)
      (hstores : (multiplier.writeBackCycle (Recorder.ofBus bus)).bus.stores =
        [(Transfer.limbAddress multiplier.transfer.baseProduct multiplier.transfer.writeOffset,
          multiplier.product[multiplier.transfer.writeOffset])])

theorem writeBack_case (bus : σ) : WriteBackCase multiplier bus := by
  by_cases hidle : (multiplier.flags.writeDone || !multiplier.flags.multiplyDone) = true
  · have hcycle : ∀ {σ : Type} [LimbBus σ] (bus : σ), multiplier.writeBackCycle bus =
        ⟨multiplier, bus, .ok multiplier.flags.writeDone, []⟩ := by
      intro σ _ bus
      rw [writeBackCycle, if_pos hidle]
    refine .idle (by simpa using hidle) ?_ ?_ ?_ <;> rw [hcycle]
    rfl
  · have hpending : multiplier.flags.writeDone = false := by
      cases hdone : multiplier.flags.writeDone with
      | false => rfl
      | true => simp [hdone] at hidle
    by_cases hoffset : multiplier.transfer.writeOffset < productLimbs
    · have hlimb : multiplier.product.limb multiplier.transfer.writeOffset =
          .ok multiplier.product[multiplier.transfer.writeOffset] := by
        rw [Product.limb, dif_pos hoffset]
      cases hwrite : LimbBus.write (Transfer.limbAddress multiplier.transfer.baseProduct
          multiplier.transfer.writeOffset) multiplier.product[multiplier.transfer.writeOffset]
          bus with
      | mk result after =>
          cases result with
          | error fault =>
              refine .failed hpending (.bus fault) ?_ ?_ ?_ <;>
                simp [writeBackCycle, hidle, hlimb, hwrite, Recorder.write_ofBus, Recorder.stores,
                  Access.stored?]
          | ok done =>
              refine .stored hpending hoffset ?_ ?_ ?_ <;>
                simp [writeBackCycle, hidle, hlimb, hwrite, Recorder.write_ofBus, Recorder.stores,
                  Access.stored?]
    · have hlimb : multiplier.product.limb multiplier.transfer.writeOffset =
          .error (.limbIndex multiplier.transfer.writeOffset productLimbs) := by
        rw [Product.limb, dif_neg hoffset]
      refine .failed hpending (.limbIndex multiplier.transfer.writeOffset productLimbs) ?_ ?_ ?_ <;>
        simp [writeBackCycle, hidle, hlimb, Recorder.ofBus, Recorder.stores]

end Multiplier

end WideMultiplier
