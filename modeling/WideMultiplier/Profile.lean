import WideMultiplier.Shape

/-!
# Profiles

The named shapes, which model successive revisions of the hardware. `Profile.ofName?_name` says that
each of them is found by its name.
-/

namespace WideMultiplier

/-- A named shape. -/
inductive Profile where
  | singleCycle
  | streaming
  | staged
  | delayQueue
  | systolic
deriving DecidableEq

namespace Profile

/-- All profiles, in the order in which they are listed. -/
def all : List Profile :=
  [.singleCycle, .streaming, .staged, .delayQueue, .systolic]

/-- The profile that is used when none is named. -/
def default : Profile :=
  .delayQueue

/-- The name of a profile. -/
def name : Profile → String
  | .singleCycle => "single-cycle"
  | .streaming => "streaming"
  | .staged => "staged"
  | .delayQueue => "delay-queue"
  | .systolic => "systolic"

/-- The profile with a name. -/
def ofName? (text : String) : Option Profile :=
  all.find? fun profile => profile.name == text

/-- The shape of a profile. -/
def shape : Profile → Shape
  | .singleCycle => ⟨maxBatchWidth, .combinational, .immediate⟩
  | .streaming => ⟨1, .combinational, .immediate⟩
  | .staged => ⟨defaultBatchWidth, .staged, .immediate⟩
  | .delayQueue => ⟨defaultBatchWidth, .staged, .delayed maxDelay⟩
  | .systolic => ⟨maxBatchWidth, .staged, .delayed maxDelay⟩

/-- A profile is found by its name. -/
@[simp] theorem ofName?_name (profile : Profile) : ofName? profile.name = some profile := by
  cases profile <;> decide

end Profile

end WideMultiplier
