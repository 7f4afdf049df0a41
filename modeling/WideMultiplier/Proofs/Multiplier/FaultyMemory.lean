import WideMultiplier.Proofs.Multiplier.Transfers

/-!
# Transfers over a memory with outages

Behind schedules of failures an access to a memory fails without touching it, or it reaches the
memory. A cycle of a transfer that fails therefore changes neither the multiplier nor the memory
(`Multiplier.loadCycle_of_error`, `Multiplier.writeBackCycle_of_error`), and one that does not fail
moves the next limb (`Multiplier.loadCycle_cases`, `Multiplier.writeBackCycle_cases`).
-/

namespace WideMultiplier

namespace Outages

/-- Whether nothing fails any more from some access on. -/
def SettledBy (outages : Outages) (last : Nat) : Prop :=
  ∀ number, last ≤ number → outages.fails number = false

/-- A schedule after more accesses. -/
structure Later (before after : Outages) : Prop where
  fails : after.fails = before.fails
  made_le : before.made ≤ after.made

/-- A schedule after more accesses, one of which failed. -/
structure Failed (before after : Outages) : Prop extends Later before after where
  failure : ∃ number, before.made ≤ number ∧ number < after.made ∧ before.fails number = true

variable {before middle after : Outages}

theorem Later.refl (outages : Outages) : Later outages outages :=
  ⟨rfl, Nat.le_refl _⟩

theorem Later.trans (hfirst : Later before middle) (hsecond : Later middle after) :
    Later before after :=
  ⟨hsecond.fails.trans hfirst.fails, Nat.le_trans hfirst.made_le hsecond.made_le⟩

/-- A schedule settles by the same access as long as it is followed. -/
theorem Later.settledBy {last : Nat} (h : Later before after) (hsettled : before.SettledBy last) :
    after.SettledBy last := by
  intro number hnumber
  rw [h.fails]
  exact hsettled number hnumber

/-- Failures are used up, since each comes before the access by which the schedule settles. -/
theorem Failed.sub_lt {last : Nat} (h : Failed before after) (hsettled : before.SettledBy last) :
    last - after.made < last - before.made := by
  obtain ⟨number, hfrom, hto, hfails⟩ := h.failure
  have hlast : number < last := by
    by_contra hnot
    rw [hsettled number (Nat.le_of_not_lt hnot)] at hfails
    cases hfails
  omega

theorem later_count (outages : Outages) : Later outages outages.count :=
  ⟨rfl, Nat.le_succ _⟩

/-- An access that fails. -/
theorem failed_count {outages : Outages} (h : outages.failsNow = true) :
    Failed outages outages.count :=
  ⟨later_count outages, outages.made, Nat.le_refl _, Nat.lt_succ_self _, h⟩

end Outages

namespace FaultyBus

/-- The bus after one more read. -/
def countRead (bus : FaultyBus Memory) : FaultyBus Memory :=
  { bus with reads := bus.reads.count }

/-- A read of a limb in memory fails, or gives the limb. -/
theorem read_cases (bus : FaultyBus Memory) {address : UInt64}
    (hholds : bus.bus.holds address.toNat = true) :
    (bus.reads.failsNow = true ∧
        LimbBus.read address bus = (.error (.readFailed address), bus.countRead)) ∨
      LimbBus.read address bus = (.ok (bus.bus.limbAt address.toNat), bus.countRead) := by
  obtain ⟨memory, reads, writes⟩ := bus
  cases hfails : reads.failsNow with
  | true =>
      left
      refine ⟨rfl, ?_⟩
      simp [LimbBus.read, hfails, countRead]
  | false =>
      right
      have hread : memory.read address = .ok (memory.limbAt address.toNat) := if_pos hholds
      simp [LimbBus.read, hfails, hread, countRead]

/-- No read touches the memory. -/
theorem read_bus (bus : FaultyBus Memory) (address : UInt64) :
    (LimbBus.read address bus).2.bus = bus.bus := by
  obtain ⟨memory, reads, writes⟩ := bus
  cases hfails : reads.failsNow <;> simp [LimbBus.read, hfails]

/-- A write of a limb in memory fails, or puts the limb there. -/
theorem write_cases (bus : FaultyBus Memory) {address : UInt64}
    (hholds : bus.bus.holds address.toNat = true) (limb : Limb) :
    (bus.writes.failsNow = true ∧
        LimbBus.write address limb bus =
          (.error (.writeFailed address), { bus with writes := bus.writes.count })) ∨
      LimbBus.write address limb bus =
        (.ok (), ⟨bus.bus.putLimb address.toNat limb, bus.reads, bus.writes.count⟩) := by
  obtain ⟨memory, reads, writes⟩ := bus
  cases hfails : writes.failsNow with
  | true =>
      left
      refine ⟨rfl, ?_⟩
      simp [LimbBus.write, hfails]
  | false =>
      right
      have hwrite : memory.write address limb = (.ok (), memory.putLimb address.toNat limb) :=
        if_pos hholds
      simp [LimbBus.write, hfails, hwrite]

/-- A write that fails does not touch the memory. -/
theorem write_bus_of_error (bus : FaultyBus Memory) {address : UInt64} {limb : Limb}
    {fault : BusFault} (h : (LimbBus.write address limb bus).1 = .error fault) :
    (LimbBus.write address limb bus).2.bus = bus.bus := by
  obtain ⟨memory, reads, writes⟩ := bus
  cases hfails : writes.failsNow with
  | true => simp [LimbBus.write, hfails]
  | false =>
      have hwrite : LimbBus.write address limb (⟨memory, reads, writes⟩ : FaultyBus Memory) =
          ((memory.write address limb).1,
            ⟨(memory.write address limb).2, reads, writes.count⟩) := by
        simp [LimbBus.write, hfails]
      rw [hwrite] at h ⊢
      unfold Memory.write at h ⊢
      split
      · next hholds =>
          rw [if_pos hholds] at h
          cases h
      · rfl

end FaultyBus

namespace Multiplier

variable (multiplier : Multiplier) (bus : FaultyBus Memory)

/-! ## Cycles that fail -/

/-- A cycle of a load that fails changes neither the multiplier nor the memory. -/
theorem loadCycle_of_error {fault : Fault} (h : (multiplier.loadCycle bus).result = .error fault) :
    (multiplier.loadCycle bus).multiplier = multiplier ∧
      (multiplier.loadCycle bus).bus.bus = bus.bus := by
  have hfirst := bus.read_bus
    (Transfer.limbAddress multiplier.transfer.baseA multiplier.transfer.loadOffset)
  unfold loadCycle at h ⊢
  split at h
  · cases h
  · next hfree =>
      rw [if_neg hfree]
      dsimp only at h ⊢
      split at h
      · next cause first hread =>
          rw [hread] at hfirst
          exact ⟨rfl, hfirst⟩
      · next a first hread =>
          have hsecond := first.read_bus
            (Transfer.limbAddress multiplier.transfer.baseB multiplier.transfer.loadOffset)
          rw [hread] at hfirst
          rw [hfirst] at hsecond
          split at h
          · next cause second hread =>
              rw [hread] at hsecond
              exact ⟨rfl, hsecond⟩
          · next b second hread =>
              rw [hread] at hsecond
              split at h
              · exact ⟨rfl, hsecond⟩
              · cases h

/-- A cycle of a write-back that fails changes neither the multiplier nor the memory. -/
theorem writeBackCycle_of_error {fault : Fault}
    (h : (multiplier.writeBackCycle bus).result = .error fault) :
    (multiplier.writeBackCycle bus).multiplier = multiplier ∧
      (multiplier.writeBackCycle bus).bus.bus = bus.bus := by
  unfold writeBackCycle at h ⊢
  split at h
  · cases h
  · next hopen =>
      rw [if_neg hopen]
      dsimp only at h ⊢
      split at h
      · exact ⟨rfl, rfl⟩
      · next limb hlimb =>
          split at h
          · next cause after hwrite =>
              have hkept := bus.write_bus_of_error (congrArg Prod.fst hwrite)
              rw [hwrite] at hkept
              exact ⟨rfl, hkept⟩
          · cases h

/-! ## Cycles that reach the memory -/

variable {multiplier bus}

/-- A cycle of a pending load fails, or loads the limbs that lie in memory. -/
theorem loadCycle_cases (h : Loading multiplier)
    (hA : bus.bus.holds multiplier.nextA.toNat = true)
    (hB : bus.bus.holds multiplier.nextB.toNat = true) :
    (∃ fault reads, bus.reads.Failed reads ∧
        multiplier.loadCycle bus = ⟨multiplier, { bus with reads }, .error fault, []⟩) ∨
      ∃ reads events, bus.reads.Later reads ∧
        multiplier.loadCycle bus =
          ⟨multiplier.takeLimbs h (bus.bus.limbAt multiplier.nextA.toNat)
              (bus.bus.limbAt multiplier.nextB.toNat),
            { bus with reads },
            .ok (decide (multiplier.transfer.loadOffset + 1 = operandLimbs)), events⟩ := by
  have hsecond := FaultyBus.read_cases bus.countRead hB
  have htwice : bus.reads.Later bus.countRead.countRead.reads :=
    (Outages.later_count _).trans (Outages.later_count _)
  cases load_case h bus with
  | failedA fault hread hcycle =>
      rcases bus.read_cases hA with ⟨hfails, hresult⟩ | hresult
      · rw [hresult] at hcycle
        exact .inl ⟨_, _, Outages.failed_count hfails, hcycle⟩
      · rw [hresult] at hread
        cases hread
  | failedB a fault first hread hother hcycle =>
      rcases bus.read_cases hA with ⟨-, hresult⟩ | hresult
      · rw [hresult] at hread
        cases hread
      · rw [hresult, Prod.mk.injEq] at hread
        obtain ⟨-, rfl⟩ := hread
        rcases hsecond with ⟨hfails, hresult⟩ | hresult
        · rw [hresult] at hcycle
          refine .inl ⟨_, _, ⟨htwice, bus.reads.made + 1, Nat.le_succ _, ?_, hfails⟩, hcycle⟩
          exact Nat.lt_succ_self _
        · rw [hresult] at hother
          cases hother
  | loaded a b first second hread hother hcycle =>
      rcases bus.read_cases hA with ⟨-, hresult⟩ | hresult
      · rw [hresult] at hread
        cases hread
      · rw [hresult, Prod.mk.injEq, Except.ok.injEq] at hread
        obtain ⟨rfl, rfl⟩ := hread
        rcases hsecond with ⟨-, hresult⟩ | hresult
        · rw [hresult] at hother
          cases hother
        · rw [hresult, Prod.mk.injEq, Except.ok.injEq] at hother
          obtain ⟨rfl, rfl⟩ := hother
          exact .inr ⟨_, _, htwice, hcycle⟩

/-- A cycle of a pending write-back fails, or puts the next limb of the product into memory. -/
theorem writeBackCycle_cases (h : Writing multiplier)
    (hproduct : bus.bus.holds multiplier.nextProduct.toNat = true) :
    (∃ fault writes, bus.writes.Failed writes ∧
        multiplier.writeBackCycle bus = ⟨multiplier, { bus with writes }, .error fault, []⟩) ∨
      ∃ writes events, bus.writes.Later writes ∧
        multiplier.writeBackCycle bus =
          ⟨multiplier.countWritten,
            ⟨bus.bus.putLimb multiplier.nextProduct.toNat (multiplier.nextLimb h), bus.reads,
              writes⟩,
            .ok (decide (multiplier.transfer.writeOffset + 1 = productLimbs)), events⟩ := by
  rcases bus.write_cases hproduct (multiplier.nextLimb h) with ⟨hfails, hresult⟩ | hresult
  · cases write_case h bus with
    | failed fault after hwrite hcycle =>
        rw [hresult] at hwrite
        cases hwrite
        exact .inl ⟨_, _, Outages.failed_count hfails, hcycle⟩
    | written after hwrite hcycle =>
        rw [hresult] at hwrite
        cases hwrite
  · cases write_case h bus with
    | failed fault after hwrite hcycle =>
        rw [hresult] at hwrite
        cases hwrite
    | written after hwrite hcycle =>
        rw [hresult] at hwrite
        cases hwrite
        exact .inr ⟨_, _, Outages.later_count _, hcycle⟩

end Multiplier

end WideMultiplier
