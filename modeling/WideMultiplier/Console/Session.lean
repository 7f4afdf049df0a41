import WideMultiplier.Check
import WideMultiplier.Console.Command
import WideMultiplier.Console.Plan
import WideMultiplier.Limb.Display
import WideMultiplier.Listing.Reader

/-!
# Sessions

The plan for each command: `generate` shows a test case and writes its listing, `verify` checks the
multiplier on a test case in some profiles. `Session.plan` is the plan for the arguments of the
command line. The factors that a seed stands for come from outside.
-/

namespace WideMultiplier

/-- What can go wrong with a test case. -/
inductive CaseFault where
  | file (path : String) (fault : FileFault)
  | listing (fault : ListingFault)
  | check (fault : CheckFault)

/-- The text of a fault of a test case. -/
def CaseFault.message : CaseFault → String
  | .file path fault => path ++ ": " ++ fault.message
  | .listing fault => fault.message
  | .check fault => fault.message

namespace Session

/-- The lines of the text that explains the command line. -/
def usageLines : List String :=
  ["Usage: bigmul-testgen <command> [options]",
    "",
    "Commands:",
    "  generate [-o <file>] [--seed <u64>]              Emit operands, product and assembly",
    "  verify   [--seed <u64>] [--profile <name>]       Check the simulated unit against",
    "           [--input <file>]                        the schoolbook product",
    "",
    "Options:",
    "  -o, --output <file>  Assembly output path (default: bignum_data.s)",
    "  -s, --seed <u64>     RNG seed (default: OS entropy)",
    "  -p, --profile <name> single-cycle, streaming, staged, delay-queue, systolic",
    "                       (default: all)",
    "  -i, --input <file>   Verify operands read from a generated assembly file",
    "  -h, --help           Show this help message",
    "",
    "Examples:",
    "  bigmul-testgen generate --seed 7",
    "  bigmul-testgen verify --profile systolic",
    "  bigmul-testgen verify --input bignum_data.s"]

/-- The text that explains the command line. -/
def usage : String :=
  String.join (usageLines.map (· ++ "\n"))

/-- Reports a fault and ends. -/
def fail (fault : CaseFault) : Plan :=
  .complain ("error: " ++ fault.message ++ "\n") (.exit 1)

/-- Goes on with the seed that is given, or with a random one. -/
def withSeed (seed : Option UInt64) (next : UInt64 → Plan) : Plan :=
  match seed with
  | some seed => next seed
  | none => .drawSeed next

/-! ## Generating a test case -/

/-- What is shown of a test case before its listing is written. -/
def caseReport (seed : UInt64) (operands : Operands) (path : String) : String :=
  let product := operands.schoolbook.toList
  "=== 4096-bit Number Multiplication Tester ===\n" ++
    "seed: " ++ toString seed.toNat ++ "\n\n" ++
    Limbs.labelled "Number A" operands.a.toList ++ "\n" ++
    Limbs.labelled "Number B" operands.b.toList ++ "\n" ++
    "Computing A * B...\n\n" ++
    "Raw result in limb order (LSW -> MSW):\n" ++
    Limbs.dump product ++ "\n" ++
    Limbs.labelled "Result" product ++ "\n" ++
    "Writing numbers to " ++ path ++ "...\n"

/-- What is shown of a test case after its listing is written. -/
def bitReport (operands : Operands) : String :=
  "Done!\n\nActual bit usage:\n" ++
    "A: " ++ toString (Limbs.bitLength operands.a.toList) ++ " bits\n" ++
    "B: " ++ toString (Limbs.bitLength operands.b.toList) ++ " bits\n" ++
    "Result: " ++ toString (Limbs.bitLength operands.schoolbook.toList) ++ " bits\n"

/-- The plan of `generate`. -/
def generate (operandsOf : UInt64 → Operands) (output : String) (seed : Option UInt64) : Plan :=
  withSeed seed fun seed =>
    let operands := operandsOf seed
    .print (caseReport seed operands output) <|
      .write output (Listing.render operands) fun
        | .error fault => fail (.file output fault)
        | .ok () => .print (bitReport operands) (.exit 0)

/-! ## Checking the multiplier -/

/-- A text with spaces behind it, up to a width. -/
def padRight (width : Nat) (text : String) : String :=
  text ++ String.ofList (List.replicate (width - text.length) ' ')

/-- The line for the check of one profile. -/
def checkLine (origin : String) (profile : Profile) : Except CheckFault Checked → String
  | .ok checked =>
    "ok   " ++ padRight 13 profile.name ++ " " ++ origin ++ ": " ++
      toString checked.counters.cycles ++ " cycles (" ++ toString checked.loadCycles ++
      " load, " ++ toString checked.writeCycles ++ " write-back)\n"
  | .error fault =>
    "FAIL " ++ padRight 13 profile.name ++ " " ++ origin ++ ": " ++ fault.message ++ "\n"

/-- The profiles that are checked: the one that is named, or all. -/
def selected : Option Profile → List Profile
  | some profile => [profile]
  | none => Profile.all

/-- Checks profiles one after the other. The session fails if one of them does. -/
def checkProfiles (operands : Operands) (origin : String) : Bool → List Profile → Plan
  | failed, [] => .exit (if failed then 1 else 0)
  | failed, profile :: rest =>
    let result := Check.run operands profile
    .print (checkLine origin profile result) <|
      checkProfiles operands origin (failed || !result.isOk) rest

/-- The plan of `verify`. -/
def verify (operandsOf : UInt64 → Operands) (seed : Option UInt64) (profile : Option Profile)
    (input : Option String) : Plan :=
  match input with
  | some path =>
    .read path fun
      | .error fault => fail (.file path fault)
      | .ok text =>
        match Listing.read text with
        | .error fault => fail (.listing fault)
        | .ok operands => checkProfiles operands path false (selected profile)
  | none =>
    withSeed seed fun seed =>
      checkProfiles (operandsOf seed) ("seed " ++ toString seed.toNat) false (selected profile)

/-! ## The command line -/

/-- The plan of a command. -/
def execute (operandsOf : UInt64 → Operands) : Command → Plan
  | .generate output seed => generate operandsOf output seed
  | .verify seed profile input => verify operandsOf seed profile input

/-- The plan for arguments that are not understood. -/
def refuse : UsageFault → Plan
  | .helpRequested => .print (usage ++ "\n") (.exit 1)
  | fault => .complain ("error: " ++ fault.message ++ "\n" ++ usage ++ "\n") (.exit 1)

/-- The plan for the arguments of the command line. -/
def plan (operandsOf : UInt64 → Operands) (arguments : List String) : Plan :=
  match Request.read Listing.defaultFile arguments with
  | .error fault => refuse fault
  | .ok .help => .print (usage ++ "\n") (.exit 0)
  | .ok (.execute command) => execute operandsOf command

end Session

end WideMultiplier
