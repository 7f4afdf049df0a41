import WideMultiplier.Fault

/-!
# Limb buses

A bus reads and writes one limb at a byte address, and either may fail. What a bus does may depend
on a state of its own, which every access may change. `FaultyBus` puts schedules of transient
failures in front of another bus: they decide for each access in turn whether it fails without
reaching the bus behind.
-/

namespace WideMultiplier

/-- A bus with state `σ`. An access gives its result and the state after it. -/
class LimbBus (σ : Type) where
  read : UInt64 → σ → Except BusFault Limb × σ
  write : UInt64 → Limb → σ → Except BusFault Unit × σ

/-- A schedule of failures: which accesses fail, by their number, and how many were made. -/
structure Outages where
  fails : Nat → Bool
  made : Nat

namespace Outages

/-- The schedule in which nothing fails. -/
def none : Outages :=
  ⟨fun _ => false, 0⟩

/-- The schedule in which one access fails after `skip` others. -/
def after (skip : Nat) : Outages :=
  ⟨fun number => number == skip, 0⟩

/-- Whether the next access fails. -/
def failsNow (outages : Outages) : Bool :=
  outages.fails outages.made

/-- The schedule with one more access made. -/
def count (outages : Outages) : Outages :=
  { outages with made := outages.made + 1 }

end Outages

/-- A bus behind schedules of failures, one for reads and one for writes. -/
structure FaultyBus (σ : Type) where
  bus : σ
  reads : Outages
  writes : Outages

namespace FaultyBus

/-- A bus on which nothing fails that does not fail behind it. -/
def ofBus {σ : Type} (bus : σ) : FaultyBus σ :=
  ⟨bus, .none, .none⟩

instance [LimbBus σ] : LimbBus (FaultyBus σ) where
  read address
    | ⟨bus, reads, writes⟩ =>
      if reads.failsNow then (.error (.readFailed address), ⟨bus, reads.count, writes⟩)
      else
        let (result, bus) := LimbBus.read address bus
        (result, ⟨bus, reads.count, writes⟩)
  write address limb
    | ⟨bus, reads, writes⟩ =>
      if writes.failsNow then (.error (.writeFailed address), ⟨bus, reads, writes.count⟩)
      else
        let (result, bus) := LimbBus.write address limb bus
        (result, ⟨bus, reads, writes.count⟩)

end FaultyBus

end WideMultiplier
