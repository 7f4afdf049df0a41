import WideMultiplier.Console.Session
import WideMultiplier.Keystream

/-!
# The program

Carries the plan for the arguments of the command line out in the world, with the factors that the
key stream of a seed gives.
-/

namespace WideMultiplier

/-- The number of an error of the operating system. It can be reported with a minus sign. -/
def errorNumber (code : UInt32) : Nat :=
  code.toInt32.toInt.natAbs

/-- The file fault that an error of the operating system stands for. -/
def FileFault.ofError : IO.Error → FileFault
  | .noFileOrDirectory _ code details => ofNumber (errorNumber code) details
  | .permissionDenied _ code details => ofNumber (errorNumber code) details
  | .inappropriateType _ code details => ofNumber (errorNumber code) details
  | .invalidArgument _ code details => ofNumber (errorNumber code) details
  | .resourceExhausted _ code details => ofNumber (errorNumber code) details
  | .noSuchThing _ code details => ofNumber (errorNumber code) details
  | .hardwareFault code details => ofNumber (errorNumber code) details
  | .resourceBusy code details => ofNumber (errorNumber code) details
  | error => .other (toString error)

/-- Reads a text file. -/
def readTextFile (path : String) : IO (Except FileFault String) := do
  try
    let bytes ← IO.FS.readBinFile path
    return decodeText bytes.toList
  catch error =>
    return .error (.ofError error)

/-- Writes a text file. -/
def writeTextFile (path content : String) : IO (Except FileFault Unit) := do
  try
    IO.FS.withFile path .write fun file => do
      file.putStr content
      file.flush
    return .ok ()
  catch error =>
    return .error (.ofError error)

/-- Draws a random seed. -/
def randomSeed : IO UInt64 := do
  let bytes ← IO.getRandomBytes 8
  return bytes.toList.foldl (fun seed byte => seed * 256 + byte.toUInt64) 0

/-- Carries a plan out and gives its exit code. -/
def Plan.perform : Plan → IO UInt32
  | .exit code => return code
  | .print text next => do
    IO.print text
    (← IO.getStdout).flush
    next.perform
  | .complain text next => do
    IO.eprint text
    next.perform
  | .read path next => do
    (next (← readTextFile path)).perform
  | .write path content next => do
    (next (← writeTextFile path content)).perform
  | .drawSeed next => do
    (next (← randomSeed)).perform

end WideMultiplier

/-- The program. -/
def main (arguments : List String) : IO UInt32 :=
  (WideMultiplier.Session.plan (WideMultiplier.Operands.ofSeed WideMultiplier.Keystream)
    arguments).perform
