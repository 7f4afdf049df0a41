import WideMultiplier.Pipeline
import WideMultiplier.Profile

/-!
# The state of a multiplier

A multiplier owns the stores of its factors and of its product, three flags that the host polls, a
marker that tells whether a run is under way, the addresses and offsets of the transfers to and from
memory, and a pipeline.
-/

namespace WideMultiplier

/-- How a multiplier is built: the shape of its pipeline, and whether it reports events. -/
structure Config where
  shape : Shape
  tracing : Bool
deriving DecidableEq

/-- The shape of a profile, without tracing. -/
def Config.ofProfile (profile : Profile) : Config :=
  ⟨profile.shape, false⟩

/-- The flags that the host polls, one for each phase. -/
structure Flags where
  /-- The product is complete. -/
  multiplyDone : Bool
  /-- The factors are loaded. -/
  loadDone : Bool
  /-- The product is written back. -/
  writeDone : Bool
deriving DecidableEq

namespace Flags

/-- The flags when no phase is pending. -/
def idle : Flags :=
  ⟨true, true, true⟩

/-- Whether no phase is pending. -/
def isIdle (flags : Flags) : Bool :=
  flags.multiplyDone && flags.loadDone && flags.writeDone

end Flags

/-- Whether a run is under way. -/
inductive Progress where
  | notStarted
  | running
deriving DecidableEq

namespace Progress

/-- Whether a run is under way. -/
def isRunning : Progress → Bool
  | .notStarted => false
  | .running => true

/-- What is left of a marker in a restored snapshot: a run begins again from the start. -/
def resumed : Progress → Progress
  | .notStarted => .notStarted
  | .running => .notStarted

end Progress

/-- The addresses and offsets of the transfers. An offset counts the limbs already moved. -/
structure Transfer where
  baseA : UInt64
  baseB : UInt64
  baseProduct : UInt64
  loadOffset : Nat
  writeOffset : Nat
deriving DecidableEq

namespace Transfer

/-- No addresses set and nothing moved. -/
def zero : Transfer :=
  ⟨0, 0, 0, 0, 0⟩

/-- The address of a limb behind a base address, modulo `2 ^ 64`. -/
def limbAddress (base : UInt64) (index : Nat) : UInt64 :=
  base + UInt64.ofNat (index * limbBytes)

/-- Checks that the offsets lie within their buffers, and that a phase which is not done has a limb
left to move. -/
def validate (transfer : Transfer) (flags : Flags) : Except LayoutFault Unit :=
  if operandLimbs < transfer.loadOffset then
    .error (.transferOffset transfer.loadOffset operandLimbs)
  else if productLimbs < transfer.writeOffset then
    .error (.transferOffset transfer.writeOffset productLimbs)
  else if !flags.loadDone && transfer.loadOffset == operandLimbs then
    .error (.unfinishedTransfer transfer.loadOffset operandLimbs)
  else if flags.multiplyDone && !flags.writeDone && transfer.writeOffset == productLimbs then
    .error (.unfinishedTransfer transfer.writeOffset productLimbs)
  else .ok ()

end Transfer

/-- A multiplier. -/
structure Multiplier where
  config : Config
  operands : Operands
  product : Product
  flags : Flags
  progress : Progress
  transfer : Transfer
  pipeline : Pipeline
deriving DecidableEq

namespace Multiplier

/-- An idle multiplier with empty stores. -/
def idle (config : Config) : Multiplier :=
  { config
    operands := Operands.zero
    product := Product.zero
    flags := Flags.idle
    progress := .notStarted
    transfer := Transfer.zero
    pipeline := Pipeline.ofShape config.shape }

/-- Builds an idle multiplier if its shape is valid. -/
def create (config : Config) : Except Fault Multiplier :=
  match config.shape.validate with
  | .error fault => .error fault
  | .ok () => .ok (idle config)

/-- The events that are reported: all of them when tracing, otherwise none. -/
def traced (multiplier : Multiplier) (events : List Event) : List Event :=
  if multiplier.config.tracing then events else []

/-- The product of the last completed run, unless another run is pending. -/
def finishedProduct (multiplier : Multiplier) : Option Product :=
  if multiplier.flags.multiplyDone then some multiplier.product else none

/-- Goes back to the state in which the multiplier was built. -/
def reset (multiplier : Multiplier) : Multiplier :=
  { multiplier with
    operands := Operands.zero
    product := Product.zero
    flags := Flags.idle
    progress := .notStarted
    transfer := Transfer.zero
    pipeline := multiplier.pipeline.clear }

end Multiplier

end WideMultiplier
