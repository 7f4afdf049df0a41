import WideMultiplier.Text.Numeral

/-!
# Faults

The causes for which the multiplier refuses a request, each with the text that reports it. A
multiply run itself never fails: faults come from configuration, from operand images, from
snapshots, and from the bus.
-/

namespace WideMultiplier

/-- One of the two factors. -/
inductive Operand where
  | a
  | b
deriving DecidableEq

/-- The letter a factor is called by. -/
def Operand.name : Operand → String
  | .a => "A"
  | .b => "B"

/-- A transfer of one limb that the bus could not complete. -/
inductive BusFault where
  | readFailed (address : UInt64)
  | writeFailed (address : UInt64)
deriving DecidableEq

/-- The text of a bus fault. -/
def BusFault.message : BusFault → String
  | .readFailed address => "limb read failed at " ++ Text.hexLiteral address
  | .writeFailed address => "limb write failed at " ++ Text.hexLiteral address

/-- A part of a snapshot that does not fit the multiplier. -/
inductive LayoutFault where
  | operandLimbs (operand : Operand) (expected actual : Nat)
  | productLimbs (expected actual : Nat)
  | transferOffset (offset limit : Nat)
  | unfinishedTransfer (offset limit : Nat)
deriving DecidableEq

/-- The text of a layout fault. -/
def LayoutFault.message : LayoutFault → String
  | .operandLimbs operand expected actual =>
    s!"operand {operand.name} image has {actual} limbs, expected {expected}"
  | .productLimbs expected actual => s!"result image has {actual} limbs, expected {expected}"
  | .transferOffset offset limit => s!"transfer offset {offset} exceeds {limit}"
  | .unfinishedTransfer offset limit =>
    s!"transfer offset {offset} reached {limit} but the phase is not done"

/-- A request that the multiplier refuses. -/
inductive Fault where
  | batchWidth (width : Nat)
  | delayCap (cap : Nat)
  | operandLength (operand : Operand) (expected actual : Nat)
  | layout (fault : LayoutFault)
  | snapshotVersion (version : Nat)
  | bus (fault : BusFault)
  | limbIndex (index limit : Nat)
deriving DecidableEq

/-- The text of a fault. -/
def Fault.message : Fault → String
  | .batchWidth width => s!"batch width {width} outside 1..=64"
  | .delayCap cap => s!"csa depth cap {cap} exceeds 4"
  | .operandLength operand expected actual =>
    s!"operand {operand.name} is {actual} bytes, expected {expected}"
  | .layout fault => "snapshot layout mismatch: " ++ fault.message
  | .snapshotVersion version => s!"unsupported snapshot version {version}"
  | .bus fault => "bus transfer failed: " ++ fault.message
  | .limbIndex index limit => s!"limb index {index} outside a store of {limit} limbs"

end WideMultiplier
