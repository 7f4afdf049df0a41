import WideMultiplier.Memory
import WideMultiplier.Multiplier.Run

/-!
# Loading factors and writing products back

The factors are loaded at once, from limbs or from byte images, or in 64 cycles over a bus, one limb
of each factor in a cycle. The product is written back in 128 cycles. A bus fault leaves the
multiplier as it was, so that the cycle can be tried again. While a run is under way its factors are
locked: a load then does nothing.
-/

namespace WideMultiplier

/-- The result of a cycle of a load or a write-back: the flag of the phase after it, or a fault. -/
structure Moved (σ : Type) where
  multiplier : Multiplier
  bus : σ
  result : Except Fault Bool
  events : List Event

namespace Multiplier

/-- Marks the factors as loaded. -/
def finishLoad (multiplier : Multiplier) : Multiplier :=
  { multiplier with
    transfer := { multiplier.transfer with loadOffset := operandLimbs }
    flags := { multiplier.flags with loadDone := true } }

/-- Loads both factors. -/
def load (multiplier : Multiplier) (operands : Operands) : Multiplier :=
  if multiplier.progress.isRunning then multiplier
  else { multiplier with operands }.finishLoad

/-- Loads both factors from their little-endian images. -/
def loadBytes (multiplier : Multiplier) (a b : List UInt8) : Except Fault Multiplier :=
  if multiplier.progress.isRunning then .ok multiplier
  else
    match Operands.ofBytes a b with
    | .error fault => .error fault
    | .ok operands => .ok { multiplier with operands }.finishLoad

/-- Begins to load both factors from memory. -/
def beginLoad (multiplier : Multiplier) (baseA baseB : UInt64) : Multiplier :=
  if multiplier.progress.isRunning then multiplier
  else
    { multiplier with
      transfer := { multiplier.transfer with baseA, baseB, loadOffset := 0 }
      flags := { multiplier.flags with loadDone := false } }

/-- Counts one more limb of each factor as loaded. -/
def countLoaded (multiplier : Multiplier) : Multiplier :=
  let offset := multiplier.transfer.loadOffset + 1
  { multiplier with
    transfer := { multiplier.transfer with loadOffset := offset }
    flags := { multiplier.flags with
      loadDone := multiplier.flags.loadDone || offset == operandLimbs } }

/-- Counts one more limb of the product as written back. -/
def countWritten (multiplier : Multiplier) : Multiplier :=
  let offset := multiplier.transfer.writeOffset + 1
  { multiplier with
    transfer := { multiplier.transfer with writeOffset := offset }
    flags := { multiplier.flags with
      writeDone := multiplier.flags.writeDone || offset == productLimbs } }

variable {σ : Type} [LimbBus σ]

/-- Loads the next limb of each factor. -/
def loadCycle (multiplier : Multiplier) (bus : σ) : Moved σ :=
  if multiplier.flags.loadDone || multiplier.progress.isRunning then
    ⟨multiplier, bus, .ok multiplier.flags.loadDone, []⟩
  else
    let index := multiplier.transfer.loadOffset
    match LimbBus.read (Transfer.limbAddress multiplier.transfer.baseA index) bus with
    | (.error fault, bus) => ⟨multiplier, bus, .error (.bus fault), []⟩
    | (.ok a, bus) =>
      match LimbBus.read (Transfer.limbAddress multiplier.transfer.baseB index) bus with
      | (.error fault, bus) => ⟨multiplier, bus, .error (.bus fault), []⟩
      | (.ok b, bus) =>
        match multiplier.operands.setLimb index a b with
        | .error fault => ⟨multiplier, bus, .error fault, []⟩
        | .ok operands =>
          let loaded := { multiplier with operands }.countLoaded
          ⟨loaded, bus, .ok loaded.flags.loadDone, multiplier.traced [.limbLoaded index]⟩

/-- Writes the next limb of the product back. -/
def writeBackCycle (multiplier : Multiplier) (bus : σ) : Moved σ :=
  if multiplier.flags.writeDone || !multiplier.flags.multiplyDone then
    ⟨multiplier, bus, .ok multiplier.flags.writeDone, []⟩
  else
    let index := multiplier.transfer.writeOffset
    let address := Transfer.limbAddress multiplier.transfer.baseProduct index
    match multiplier.product.limb index with
    | .error fault => ⟨multiplier, bus, .error fault, []⟩
    | .ok limb =>
      match LimbBus.write address limb bus with
      | (.error fault, bus) => ⟨multiplier, bus, .error (.bus fault), []⟩
      | (.ok (), bus) =>
        let written := multiplier.countWritten
        ⟨written, bus, .ok written.flags.writeDone,
          multiplier.traced [.limbWritten index address]⟩

omit [LimbBus σ]

/-- Marks the product as written back by the host itself, unless a run is pending. -/
def markWritten (multiplier : Multiplier) : Multiplier :=
  if multiplier.flags.multiplyDone then
    { multiplier with
      transfer := { multiplier.transfer with writeOffset := productLimbs }
      flags := { multiplier.flags with writeDone := true } }
  else multiplier

end Multiplier

end WideMultiplier
