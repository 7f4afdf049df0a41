import WideMultiplier.Console.FileSystem

/-!
# Plans

What a session does, step by step, as a value: a plan prints, reads and writes files, asks for a
random seed, and ends with an exit code. `Plan.runIn` carries a plan out in any file system; the
program carries the same plan out in the world.
-/

namespace WideMultiplier

/-- The steps of a session. -/
inductive Plan where
  | exit (code : UInt32)
  | print (text : String) (next : Plan)
  | complain (text : String) (next : Plan)
  | read (path : String) (next : Except FileFault String → Plan)
  | write (path content : String) (next : Except FileFault Unit → Plan)
  | drawSeed (next : UInt64 → Plan)

/-- What a session leaves behind. -/
structure Transcript (σ : Type) where
  code : UInt32
  output : String
  errors : String
  /-- The state of the file system. -/
  after : σ

/-- Carries a plan out in a file system. The number is drawn if the plan asks for a random seed. -/
def Plan.runIn {σ : Type} (system : FileSystem σ) (drawn : UInt64) (state : σ) :
    Plan → Transcript σ
  | .exit code => ⟨code, "", "", state⟩
  | .print text next =>
    let rest := next.runIn system drawn state
    { rest with output := text ++ rest.output }
  | .complain text next =>
    let rest := next.runIn system drawn state
    { rest with errors := text ++ rest.errors }
  | .read path next =>
    let read := system.readText path state
    (next read.1).runIn system drawn read.2
  | .write path content next =>
    let written := system.writeText path content state
    let rest := (next written.result).runIn system drawn written.after
    { rest with
      output := written.output ++ rest.output
      errors := written.errors ++ rest.errors }
  | .drawSeed next => (next drawn).runIn system drawn state

end WideMultiplier
