import WideMultiplier.Proofs.Multiplier.Recording

/-!
# Which limbs are written back

A ledger keeps what matters of a history: the factors that the last run began with, and the run that
completed last. `Multiplier.Lineage` ties multipliers to ledgers, where a snapshot carries the
ledger of the multiplier that it was taken from. Along every lineage a write-back stores limbs of
the product of the run that completed last and nothing else, and it stores them in order, each once:
`Multiplier.Lineage.write_back`.
-/

namespace WideMultiplier

/-- A completed run: the factors that were loaded when it began, and the address that was set for
its product when it completed. -/
structure Completion where
  operands : Operands
  base : UInt64

namespace Completion

/-- The product of the factors. -/
def value (completion : Completion) : Nat :=
  completion.operands.a.value * completion.operands.b.value

/-- The address and the limb with which a limb of the product is written back. -/
def store (completion : Completion) (index : Nat) : UInt64 × Limb :=
  (Transfer.limbAddress completion.base index,
    UInt64.ofNat (completion.value / Limb.base ^ index % Limb.base))

end Completion

/-- What a history says about the runs of a multiplier. -/
structure Ledger where
  /-- The factors that were loaded when the last run began. -/
  begun : Operands
  /-- The run that completed last. -/
  completed : Option Completion

namespace Ledger

/-- The ledger of a multiplier that has done nothing yet. -/
def empty : Ledger :=
  ⟨Operands.zero, none⟩

/-- The factors that the last run began with, if an operation is carried out. -/
def begunBy (ledger : Ledger) (multiplier : Multiplier) (operation : Operation) : Operands :=
  if operation.Begins multiplier then multiplier.operands else ledger.begun

/-- The ledger after an operation. -/
def after (ledger : Ledger) (multiplier : Multiplier) (operation : Operation) : Ledger :=
  { begun := ledger.begunBy multiplier operation
    completed :=
      if operation.Completes multiplier then
        some ⟨ledger.begunBy multiplier operation, multiplier.transfer.baseProduct⟩
      else ledger.completed }

end Ledger

namespace Operation

/-- Whether an operation is neither a snapshot that is taken over nor anything that gives up or
disowns a completed product. -/
def SparesProduct : Operation → Prop
  | .reset | .start | .issue _ | .markWritten | .restore _ => False
  | _ => True

end Operation

namespace Multiplier

/-- The multipliers that calls lead to, with their ledgers, where only snapshots of such multipliers
are taken over. A snapshot that is refused changes nothing. -/
inductive Lineage : Multiplier → Ledger → Prop where
  | create {config : Config} {multiplier : Multiplier}
      (h : Multiplier.create config = .ok multiplier) : Lineage multiplier .empty
  | serve {multiplier : Multiplier} {ledger : Ledger} (h : Lineage multiplier ledger)
      (call : HostCall) (hcall : ∀ image, call.operation ≠ .restore image) :
      Lineage (multiplier.serve call) (ledger.after multiplier call.operation)
  | restore {multiplier source restored : Multiplier} {ledger origin : Ledger}
      (h : Lineage multiplier ledger) (hsource : Lineage source origin)
      (hrestored : multiplier.restore source.snapshot = .ok restored) : Lineage restored origin

/-! ## Products that are being written back -/

/-- A multiplier that holds the product of a completed run and has written the first limbs of it
back. -/
structure Draining (completion : Completion) (count : Nat) (multiplier : Multiplier) : Prop where
  multiplyDone : multiplier.flags.multiplyDone = true
  value : multiplier.product.value = completion.value
  baseProduct : multiplier.transfer.baseProduct = completion.base
  writeOffset : multiplier.transfer.writeOffset = count
  count_le : count ≤ productLimbs
  writeDone : multiplier.flags.writeDone = true ↔ count = productLimbs

namespace Draining

variable {completion : Completion} {count : Nat} {multiplier : Multiplier}

/-- A multiplier that has just multiplied has written nothing back. -/
theorem of_multiplied {operands : Operands} {base : UInt64}
    (h : Multiplied operands base multiplier) : Draining ⟨operands, base⟩ 0 multiplier where
  multiplyDone := h.multiplyDone
  value := h.value
  baseProduct := h.baseProduct
  writeOffset := h.writeOffset
  count_le := Nat.zero_le _
  writeDone := by simp [h.writeDone]

/-- What is written back hangs on the product, the flags, the address and the offset. -/
theorem congr {after : Multiplier} (h : Draining completion count multiplier)
    (hproduct : after.product = multiplier.product)
    (hmultiplyDone : after.flags.multiplyDone = multiplier.flags.multiplyDone)
    (hwriteDone : after.flags.writeDone = multiplier.flags.writeDone)
    (hbase : after.transfer.baseProduct = multiplier.transfer.baseProduct)
    (hoffset : after.transfer.writeOffset = multiplier.transfer.writeOffset) :
    Draining completion count after := by
  refine ⟨?_, ?_, ?_, ?_, h.count_le, ?_⟩
  · rw [hmultiplyDone, h.multiplyDone]
  · rw [hproduct, h.value]
  · rw [hbase, h.baseProduct]
  · rw [hoffset, h.writeOffset]
  · rw [hwriteDone, h.writeDone]

/-- Transfers of the factors leave the write-back alone. -/
theorem of_sameDrain {after : Multiplier} (h : Draining completion count multiplier)
    (hsame : SameDrain multiplier after) : Draining completion count after :=
  h.congr hsame.product hsame.multiplyDone hsame.writeDone hsame.baseProduct hsame.writeOffset

/-- One more limb written back. -/
theorem countWritten (h : Draining completion count multiplier) (hcount : count < productLimbs) :
    Draining completion (count + 1) multiplier.countWritten := by
  have hopen : multiplier.flags.writeDone = false := by
    cases hdone : multiplier.flags.writeDone with
    | false => rfl
    | true => exact absurd (h.writeDone.mp hdone) (by omega)
  refine ⟨h.multiplyDone, h.value, h.baseProduct, ?_, hcount, ?_⟩
  · simp [Multiplier.countWritten, h.writeOffset]
  · simp [Multiplier.countWritten, h.writeOffset, hopen]

/-- The limb at the offset is the limb of the product. -/
theorem store_eq (h : Draining completion count multiplier)
    (hoffset : multiplier.transfer.writeOffset < productLimbs) :
    (Transfer.limbAddress multiplier.transfer.baseProduct multiplier.transfer.writeOffset,
        multiplier.product[multiplier.transfer.writeOffset]) =
      completion.store count := by
  have hlimb := Product.toNat_getElem multiplier.product _ hoffset
  rw [h.value] at hlimb
  rw [Completion.store, ← h.baseProduct, ← h.writeOffset, ← hlimb, UInt64.ofNat_toNat]

/-- A cycle of a write-back stores the next limb, or nothing. -/
theorem writeBackCycle (h : Draining completion count multiplier) {σ : Type} [LimbBus σ]
    (bus : σ) :
    ((multiplier.writeBackCycle (Recorder.ofBus bus)).bus.stores = [] ∧
        Draining completion count (multiplier.writeBackCycle bus).multiplier ∧
        ((multiplier.writeBackCycle bus).result = .ok true ↔ count = productLimbs)) ∨
      (count < productLimbs ∧
        (multiplier.writeBackCycle (Recorder.ofBus bus)).bus.stores = [completion.store count] ∧
        Draining completion (count + 1) (multiplier.writeBackCycle bus).multiplier ∧
        ((multiplier.writeBackCycle bus).result = .ok true ↔ count + 1 = productLimbs)) := by
  cases multiplier.writeBack_case bus with
  | idle hidle hafter hresult hstores =>
      refine .inl ⟨hstores, by rw [hafter]; exact h, ?_⟩
      rw [hresult, Except.ok.injEq, h.writeDone]
  | failed hpending fault hafter hresult hstores =>
      refine .inl ⟨hstores, by rw [hafter]; exact h, ?_⟩
      rw [hresult, ← h.writeDone, hpending]
      simp
  | stored hpending hoffset hafter hresult hstores =>
      -- the flag that is answered is set by the last limb
      have hcount : count < productLimbs := by
        rw [← h.writeOffset]
        exact hoffset
      have hnext := h.countWritten hcount
      refine .inr ⟨hcount, ?_, by rw [hafter]; exact hnext, ?_⟩
      · rw [hstores, h.store_eq hoffset]
      · rw [hresult, Except.ok.injEq, hnext.writeDone]

end Draining

end Multiplier

/-- Only a write-back stores anything. -/
theorem HostCall.stores_of_ne (multiplier : Multiplier) {call : HostCall}
    (h : call.operation ≠ .writeBackCycle) : call.stores multiplier = [] := by
  obtain ⟨σ, bus, operation⟩ := call
  cases operation with
  | writeBackCycle => exact absurd rfl h
  | loadCycle => exact multiplier.stores_loadCycle (Recorder.ofBus bus)
  | loadBytes a b =>
      simp only [stores, Operation.apply]
      cases multiplier.loadBytes a b <;> rfl
  | restore image =>
      simp only [stores, Operation.apply]
      cases multiplier.restore image <;> rfl
  | _ => rfl

namespace Multiplier

/-- As long as the product is spared, a call stores the next limb of it, or nothing. -/
theorem Draining.serve {completion : Completion} {count : Nat} {multiplier : Multiplier}
    (h : Draining completion count multiplier) {call : HostCall}
    (hspares : call.operation.SparesProduct) :
    (call.stores multiplier = [] ∧ Draining completion count (multiplier.serve call)) ∨
      (count < productLimbs ∧ call.stores multiplier = [completion.store count] ∧
        Draining completion (count + 1) (multiplier.serve call)) := by
  obtain ⟨σ, bus, operation⟩ := call
  cases operation with
  | reset | start | issue | markWritten | restore => exact hspares.elim
  | writeBackCycle =>
      obtain ⟨hstores, hafter, -⟩ | ⟨hcount, hstores, hafter, -⟩ := h.writeBackCycle bus
      · exact .inl ⟨hstores, hafter⟩
      · exact .inr ⟨hcount, hstores, hafter⟩
  | advance =>
      -- the multiply phase is done, so there is nothing to advance
      refine .inl ⟨rfl, ?_⟩
      show Draining completion count multiplier.advance.multiplier
      rw [show multiplier.advance = ⟨multiplier, .idle, []⟩ by simp [advance, h.multiplyDone]]
      exact h
  | run =>
      refine .inl ⟨rfl, ?_⟩
      show Draining completion count multiplier.run.multiplier
      rw [run, runWithin_of_done _ h.multiplyDone]
      exact h
  | load | loadBytes | beginLoad | loadCycle | snapshot =>
      refine .inl ⟨HostCall.stores_of_ne multiplier (by simp), ?_⟩
      refine h.of_sameDrain (Operation.apply_sameDrain multiplier bus ?_)
      trivial

/-- As long as the product is spared, its limbs are stored in order, each once. -/
theorem Draining.serveAll {completion : Completion} {count : Nat} {multiplier : Multiplier}
    (h : Draining completion count multiplier) (calls : List HostCall)
    (hspares : ∀ call ∈ calls, call.operation.SparesProduct) :
    ∃ more, multiplier.storesOf calls = (List.range' count more).map completion.store ∧
      Draining completion (count + more) (multiplier.serveAll calls) := by
  induction calls generalizing count multiplier with
  | nil => exact ⟨0, rfl, h⟩
  | cons call rest ih =>
      have hrest : ∀ other ∈ rest, other.operation.SparesProduct :=
        fun other hother => hspares other (List.mem_cons_of_mem _ hother)
      obtain ⟨hstores, hafter⟩ | ⟨-, hstores, hafter⟩ :=
        h.serve (hspares call List.mem_cons_self)
      · obtain ⟨more, hmore, hend⟩ := ih hafter hrest
        exact ⟨more, by rw [storesOf, hstores, hmore, List.nil_append], hend⟩
      · obtain ⟨more, hmore, hend⟩ := ih hafter hrest
        refine ⟨more + 1, ?_, by rw [← Nat.add_assoc, Nat.add_right_comm]; exact hend⟩
        rw [storesOf, hstores, hmore, List.range'_succ, List.map_cons, List.singleton_append]

/-- A write-back answers that it is done when all limbs are stored, with its own. -/
theorem Draining.result_iff {completion : Completion} {count : Nat} {multiplier : Multiplier}
    (h : Draining completion count multiplier) {σ : Type} [LimbBus σ] (bus : σ) :
    (multiplier.writeBackCycle bus).result = .ok true ↔
      count + (multiplier.storesOf [.over bus .writeBackCycle]).length = productLimbs := by
  have hlast : multiplier.storesOf [.over bus .writeBackCycle] =
      (multiplier.writeBackCycle (Recorder.ofBus bus)).bus.stores := List.append_nil _
  rw [hlast]
  obtain ⟨hnone, -, hresult⟩ | ⟨-, hone, -, hresult⟩ := h.writeBackCycle bus
  · rw [hnone]
    exact hresult
  · rw [hone]
    exact hresult

/-! ## Lineages -/

/-- What is to be written back is a product that is completed, and the ledger knows it. -/
structure Settled (completed : Option Completion) (multiplier : Multiplier) : Prop where
  held : multiplier.flags.multiplyDone = false → multiplier.flags.writeDone = true
  draining : multiplier.flags.writeDone = false → ∃ completion count,
    completed = some completion ∧ Draining completion count multiplier

/-- Where nothing is to be written back there is nothing to know. -/
theorem Settled.of_writeDone {completed : Option Completion} {multiplier : Multiplier}
    (h : multiplier.flags.writeDone = true) : Settled completed multiplier :=
  ⟨fun _ => h, fun hopen => by rw [h] at hopen; cases hopen⟩

/-- The product of the last completion is there to be written back. -/
theorem Settled.of_draining {completion : Completion} {count : Nat} {multiplier : Multiplier}
    (h : Draining completion count multiplier) : Settled (some completion) multiplier := by
  refine ⟨fun hpending => ?_, fun _ => ⟨completion, count, rfl, h⟩⟩
  rw [h.multiplyDone] at hpending
  cases hpending

/-- Transfers of the factors settle nothing. -/
theorem Settled.of_sameDrain {completed : Option Completion} {before after : Multiplier}
    (h : Settled completed before) (hsame : SameDrain before after) : Settled completed after := by
  refine ⟨fun hpending => ?_, fun hopen => ?_⟩
  · rw [hsame.writeDone]
    rw [hsame.multiplyDone] at hpending
    exact h.held hpending
  · rw [hsame.writeDone] at hopen
    obtain ⟨completion, count, hcompleted, hdraining⟩ := h.draining hopen
    exact ⟨completion, count, hcompleted, hdraining.of_sameDrain hsame⟩

/-- What a call stores is a limb of the product of the last completion. -/
theorem Settled.of_mem_stores {completed : Option Completion} {multiplier : Multiplier}
    (h : Settled completed multiplier) (call : HostCall) {store : UInt64 × Limb}
    (hstore : store ∈ call.stores multiplier) :
    call.operation = .writeBackCycle ∧ ∃ completion index, completed = some completion ∧
      completion.base = multiplier.transfer.baseProduct ∧ index < productLimbs ∧
        store = completion.store index := by
  by_cases hwrite : call.operation = .writeBackCycle
  · obtain ⟨σ, bus, operation⟩ := call
    obtain rfl : operation = .writeBackCycle := hwrite
    refine ⟨rfl, ?_⟩
    change store ∈ (multiplier.writeBackCycle (Recorder.ofBus bus)).bus.stores at hstore
    cases multiplier.writeBack_case bus with
    | idle hidle hafter hresult hnone =>
        rw [hnone] at hstore
        cases hstore
    | failed hpending fault hafter hresult hnone =>
        rw [hnone] at hstore
        cases hstore
    | stored hpending hoffset hafter hresult hone =>
        obtain ⟨completion, count, hcompleted, hdraining⟩ := h.draining hpending
        rw [hone, hdraining.store_eq hoffset, List.mem_singleton] at hstore
        refine ⟨completion, count, hcompleted, hdraining.baseProduct.symm, ?_, hstore⟩
        rw [← hdraining.writeOffset]
        exact hoffset
  · rw [HostCall.stores_of_ne multiplier hwrite] at hstore
    cases hstore

/-- An operation that completes nothing leaves the last completion as it was. -/
theorem Settled.serve {completed : Option Completion} {multiplier : Multiplier}
    (h : Settled completed multiplier) {call : HostCall}
    (hcompletes : ¬ call.operation.Completes multiplier)
    (hcall : ∀ image, call.operation ≠ .restore image) :
    Settled completed (multiplier.serve call) := by
  obtain ⟨σ, bus, operation⟩ := call
  cases operation with
  | reset | start | issue => exact .of_writeDone rfl
  | advance =>
      simp only [Multiplier.serve, Operation.apply]
      cases multiplier.advance_case with
      | idle hdone hafter houtcome =>
          rw [hafter]
          exact h
      | started hpending hprogress hafter houtcome =>
          rw [hafter]
          exact .of_writeDone rfl
      | cycle hpending hprogress hfinished hafter closed houtcome =>
          rw [hafter]
          exact .of_writeDone (h.held hpending)
      | completed hpending hprogress hfinished hafter cycles houtcome =>
          exact absurd ⟨cycles, houtcome⟩ hcompletes
  | run =>
      have hdone : multiplier.flags.multiplyDone = true := by
        simpa [Operation.Completes] using hcompletes
      show Settled completed multiplier.run.multiplier
      rw [run, runWithin_of_done _ hdone]
      exact h
  | load | loadBytes | beginLoad | loadCycle | snapshot =>
      refine h.of_sameDrain (Operation.apply_sameDrain multiplier bus ?_)
      trivial
  | writeBackCycle =>
      show Settled completed (multiplier.writeBackCycle bus).multiplier
      cases hopen : multiplier.flags.writeDone with
      | true =>
          have hidle : multiplier.writeBackCycle bus = ⟨multiplier, bus, .ok true, []⟩ := by
            simp [writeBackCycle, hopen]
          rw [hidle]
          exact h
      | false =>
          obtain ⟨completion, count, hcompleted, hdraining⟩ := h.draining hopen
          rw [hcompleted]
          obtain ⟨-, hafter, -⟩ | ⟨-, -, hafter, -⟩ := hdraining.writeBackCycle bus
          · exact .of_draining hafter
          · exact .of_draining hafter
  | markWritten =>
      show Settled completed multiplier.markWritten
      unfold markWritten
      split
      · exact .of_writeDone rfl
      · exact h
  | restore image => exact absurd rfl (hcall image)

/-- A snapshot carries the flags, the product and the transfers of its multiplier. -/
theorem restore_snapshot {multiplier source restored : Multiplier}
    (h : multiplier.restore source.snapshot = .ok restored) :
    restored.flags = source.flags ∧ restored.product = source.product ∧
      restored.transfer = source.transfer := by
  obtain ⟨-, operands, product, -, -, hproduct, rfl⟩ := restore_eq_of_ok h
  exact ⟨rfl, Vector.toArray_inj.mp hproduct, rfl⟩

/-- What holds along every lineage. -/
structure Kept (ledger : Ledger) (multiplier : Multiplier) : Prop where
  consistent : Consistent multiplier
  begun : multiplier.progress = .running → ledger.begun = multiplier.operands
  settled : Settled ledger.completed multiplier

/-- A run that completes is put on the ledger with the factors that are still loaded. -/
theorem Kept.completed_after {ledger : Ledger} {multiplier : Multiplier}
    (h : Kept ledger multiplier) {operation : Operation}
    (hcompletes : operation.Completes multiplier) :
    (ledger.after multiplier operation).completed =
      some ⟨multiplier.operands, multiplier.transfer.baseProduct⟩ := by
  have hbegun : ledger.begunBy multiplier operation = multiplier.operands := by
    rw [Ledger.begunBy]
    rcases Operation.running_or_begins_of_completes hcompletes with ⟨hrunning, hnot⟩ | hbegins
    · rw [if_neg hnot, h.begun hrunning]
    · rw [if_pos hbegins]
  rw [Ledger.after, if_pos hcompletes, hbegun]

/-- A call keeps the ledger true. -/
theorem Kept.serve {ledger : Ledger} {multiplier : Multiplier} (h : Kept ledger multiplier)
    {call : HostCall} (hcall : ∀ image, call.operation ≠ .restore image) :
    Kept (ledger.after multiplier call.operation) (multiplier.serve call) := by
  refine ⟨h.consistent.apply call.bus call.operation, fun hrunning => ?_, ?_⟩
  · obtain ⟨hsource, hoperands⟩ :=
      Operation.apply_of_running h.consistent call.bus call.operation hrunning
    rw [Multiplier.serve, hoperands, Ledger.after, Ledger.begunBy]
    split
    · rfl
    · next hbegins => exact h.begun (hsource.resolve_left hbegins)
  · by_cases hcompletes : call.operation.Completes multiplier
    · rw [h.completed_after hcompletes]
      exact .of_draining (.of_multiplied (multiplied_of_completes h.consistent hcompletes))
    · rw [Ledger.after, if_neg hcompletes]
      exact h.settled.serve hcompletes hcall

namespace Lineage

variable {multiplier : Multiplier} {ledger : Ledger}

/-- The ledger is true along every lineage. -/
theorem kept (h : Lineage multiplier ledger) : Kept ledger multiplier := by
  induction h with
  | create hcreate =>
      have hconsistent := Consistent.create hcreate
      obtain ⟨-, rfl⟩ := create_of_ok hcreate
      refine ⟨hconsistent, fun hrunning => ?_, .of_writeDone rfl⟩
      cases hrunning
  | serve _ call hcall ih => exact ih.serve hcall
  | restore _ _ hrestored ih ihsource =>
      -- the pipeline comes from the multiplier, all that the ledger speaks of from the source
      obtain ⟨hprogress, hpipeline⟩ := restore_of_ok hrestored
      obtain ⟨hflags, hproduct, htransfer⟩ := restore_snapshot hrestored
      refine ⟨.of_notStarted ?_ hprogress, fun hrunning => ?_, ⟨?_, fun hopen => ?_⟩⟩
      · rw [hpipeline]
        exact ih.consistent.valid
      · rw [hprogress] at hrunning
        cases hrunning
      · rw [hflags]
        exact ihsource.settled.held
      · rw [hflags] at hopen
        obtain ⟨completion, count, hcompleted, hdraining⟩ := ihsource.settled.draining hopen
        exact ⟨completion, count, hcompleted, hdraining.congr hproduct (by rw [hflags])
          (by rw [hflags]) (by rw [htransfer]) (by rw [htransfer])⟩

/-- Along every lineage nothing is to be written back while a run is pending, a write-back stores
limbs of the product of the run that completed last, behind the address that was set when it
completed, and after a completion it stores these limbs in order, each once, and answers that it is
done when all are stored. -/
theorem write_back (h : Lineage multiplier ledger) :
    (multiplier.flags.multiplyDone = false → multiplier.flags.writeDone = true) ∧
      (∀ call : HostCall, ∀ store ∈ call.stores multiplier,
        call.operation = .writeBackCycle ∧ ∃ completion index,
          ledger.completed = some completion ∧
            completion.base = multiplier.transfer.baseProduct ∧ index < productLimbs ∧
            store = completion.store index) ∧
      ∀ call : HostCall, call.operation.Completes multiplier → ∃ completion,
        (ledger.after multiplier call.operation).completed = some completion ∧
          ∀ rest : List HostCall, (∀ other ∈ rest, other.operation.SparesProduct) →
            (∃ count ≤ productLimbs, (multiplier.serve call).storesOf rest =
              (List.range count).map completion.store) ∧
            ∀ (σ : Type) [LimbBus σ] (bus : σ),
              (((multiplier.serve call).serveAll rest).writeBackCycle bus).result = .ok true ↔
                ((multiplier.serve call).storesOf
                  (rest ++ [.over bus .writeBackCycle])).length = productLimbs := by
  have hkept := h.kept
  refine ⟨hkept.settled.held, ?_, ?_⟩
  · intro call store hstore
    exact hkept.settled.of_mem_stores call hstore
  · intro call hcompletes
    have hdraining := Draining.of_multiplied (multiplied_of_completes hkept.consistent hcompletes)
    refine ⟨_, hkept.completed_after hcompletes, ?_⟩
    intro rest hspares
    obtain ⟨count, hstores, hend⟩ := hdraining.serveAll rest hspares
    rw [Nat.zero_add] at hend
    constructor
    · exact ⟨count, hend.count_le, by rw [hstores, List.range_eq_range']⟩
    · intro σ _ bus
      rw [hend.result_iff bus, storesOf_append, List.length_append, hstores, List.length_map,
        List.length_range']

/-- Calls that take no snapshots over lead on from a lineage. -/
theorem serveAll (h : Lineage multiplier ledger) (calls : List HostCall)
    (hcalls : ∀ call ∈ calls, ∀ image, call.operation ≠ .restore image) :
    ∃ last, Lineage (multiplier.serveAll calls) last := by
  induction calls generalizing multiplier ledger with
  | nil => exact ⟨ledger, h⟩
  | cons call rest ih =>
      refine ih (h.serve call (hcalls call List.mem_cons_self)) fun other hother => ?_
      exact hcalls other (List.mem_cons_of_mem _ hother)

/-- The first limbs of a product that are written back to a memory. -/
theorem write_back_singleCycle :
    ∃ ledger, Lineage ((idle (.ofProfile .singleCycle)).serveAll
        (multiplication ⟨Vector.replicate operandLimbs 3, Vector.replicate operandLimbs 5⟩ 64 128))
        ledger ∧
      ∃ completion : Completion,
        (((idle (.ofProfile .singleCycle)).serveAll
          (multiplication ⟨Vector.replicate operandLimbs 3, Vector.replicate operandLimbs 5⟩ 64
            128)).serve (.over (Memory.zero 0) .advance)).storesOf
          (List.replicate 3 (.over (Memory.zero 2048) .writeBackCycle)) =
          [completion.store 0, completion.store 1, completion.store 2] := by
  have hcreate : Multiplier.create (.ofProfile .singleCycle) =
      .ok (idle (.ofProfile .singleCycle)) := rfl
  obtain ⟨ledger, hlineage⟩ := (Lineage.create hcreate).serveAll
    (multiplication ⟨Vector.replicate operandLimbs 3, Vector.replicate operandLimbs 5⟩ 64 128)
    (by simp [multiplication, HostCall.over])
  obtain ⟨completion, -, hrest⟩ := (write_back hlineage).2.2 (.over (Memory.zero 0) .advance)
    ⟨128, by decide +kernel⟩
  obtain ⟨⟨count, -, hstores⟩, -⟩ := hrest
    (List.replicate 3 (.over (Memory.zero 2048) .writeBackCycle))
    (fun other hother => by rw [List.eq_of_mem_replicate hother]; trivial)
  have hlength := congrArg List.length hstores
  rw [List.length_map, List.length_range,
    show List.length _ = 3 by decide +kernel] at hlength
  refine ⟨ledger, hlineage, completion, ?_⟩
  rw [hstores, ← hlength]
  rfl

end Lineage

end Multiplier

end WideMultiplier
