import WideMultiplier.Profile
import WideMultiplier.Text.Numeral

/-!
# Commands

The arguments of the command line. A command is followed by pairs of a flag and a value, in any
order; of several values for one flag the last counts. `Setting.readAll` reads the pairs from the
left and stops at the first that is wrong, so that the first fault decides what is reported.
-/

namespace WideMultiplier

/-- A request that can be carried out. -/
inductive Command where
  /-- Writes a test case to a file. Without a seed one is drawn at random. -/
  | generate (output : String) (seed : Option UInt64)
  /-- Checks the multiplier on a test case, from a file or from a seed, in one profile or in all. -/
  | verify (seed : Option UInt64) (profile : Option Profile) (input : Option String)
deriving DecidableEq

/-- What the arguments ask for. -/
inductive Request where
  | help
  | execute (command : Command)
deriving DecidableEq

/-- Why arguments are not understood. -/
inductive UsageFault where
  | missingCommand
  | unknownCommand (name : String)
  /-- Help was asked for behind a command. -/
  | helpRequested
  | unknownOption (argument : String)
  | missingValue (flag : String)
  | invalidSeed (value : String)
  | unknownProfile (name : String)
  | conflictingSources
deriving DecidableEq

/-- The text of a usage fault. A request for help has none of its own. -/
def UsageFault.message : UsageFault → String
  | .missingCommand => "missing command"
  | .unknownCommand name => "unknown command: " ++ name
  | .helpRequested => ""
  | .unknownOption argument => "unknown option: " ++ argument
  | .missingValue flag => "missing value for " ++ flag
  | .invalidSeed value => "invalid seed: " ++ value
  | .unknownProfile name => "unknown profile: " ++ name
  | .conflictingSources => "--seed and --input are mutually exclusive"

/-- Whether an argument asks for help. -/
def isHelp (argument : String) : Bool :=
  argument == "--help" || argument == "-h"

/-- A flag that takes a value. -/
inductive Flag where
  | output
  | seed
  | profile
  | input
deriving DecidableEq

/-- The spellings of a flag. -/
def Flag.names : Flag → List String
  | .output => ["-o", "--output"]
  | .seed => ["-s", "--seed"]
  | .profile => ["-p", "--profile"]
  | .input => ["-i", "--input"]

/-- The flag among some that an argument spells. -/
def Flag.ofName? (allowed : List Flag) (argument : String) : Option Flag :=
  allowed.find? fun flag => flag.names.contains argument

/-- A flag with its value. -/
inductive Setting where
  | output (path : String)
  | seed (value : UInt64)
  | profile (value : Profile)
  | input (path : String)
deriving DecidableEq

namespace Setting

/-- Reads a seed: a hexadecimal number behind `0x`, otherwise a decimal number. -/
def readSeed (value : String) : Option UInt64 :=
  match value.toList with
  | '0' :: 'x' :: digits => Text.readWord 16 digits
  | digits => Text.readWord 10 digits

/-- Reads the value of a flag. -/
def read (flag : Flag) (value : String) : Except UsageFault Setting :=
  match flag with
  | .output => .ok (.output value)
  | .input => .ok (.input value)
  | .seed =>
    match readSeed value with
    | some number => .ok (.seed number)
    | none => .error (.invalidSeed value)
  | .profile =>
    match Profile.ofName? value with
    | some named => .ok (.profile named)
    | none => .error (.unknownProfile value)

/-- Reads pairs of a flag and a value. -/
def readAll (allowed : List Flag) : List String → Except UsageFault (List Setting)
  | [] => .ok []
  | argument :: rest =>
    if isHelp argument then .error .helpRequested
    else
      match Flag.ofName? allowed argument with
      | none => .error (.unknownOption argument)
      | some flag =>
        match rest with
        | [] => .error (.missingValue argument)
        | value :: later =>
          match read flag value with
          | .error fault => .error fault
          | .ok setting =>
            match readAll allowed later with
            | .error fault => .error fault
            | .ok settings => .ok (setting :: settings)

/-- The path of an output setting. -/
def output? : Setting → Option String
  | .output path => some path
  | _ => none

/-- The value of a seed setting. -/
def seed? : Setting → Option UInt64
  | .seed value => some value
  | _ => none

/-- The value of a profile setting. -/
def profile? : Setting → Option Profile
  | .profile value => some value
  | _ => none

/-- The path of an input setting. -/
def input? : Setting → Option String
  | .input path => some path
  | _ => none

/-- The last of several settings that a reader accepts. -/
def last? {α : Type} (accept : Setting → Option α) (settings : List Setting) : Option α :=
  (settings.filterMap accept).getLast?

end Setting

namespace Command

/-- The flags of `generate`. -/
def generateFlags : List Flag :=
  [.output, .seed]

/-- The flags of `verify`. -/
def verifyFlags : List Flag :=
  [.seed, .profile, .input]

/-- The command `generate` with some settings. -/
def ofGenerateSettings (defaultOutput : String) (settings : List Setting) : Command :=
  .generate ((Setting.last? Setting.output? settings).getD defaultOutput)
    (Setting.last? Setting.seed? settings)

/-- The command `verify` with some settings. Operands come from a seed or from a file, not from
both. -/
def ofVerifySettings (settings : List Setting) : Except UsageFault Command :=
  let seed := Setting.last? Setting.seed? settings
  let input := Setting.last? Setting.input? settings
  if seed.isSome && input.isSome then .error .conflictingSources
  else .ok (.verify seed (Setting.last? Setting.profile? settings) input)

/-- Reads the arguments of `generate`. -/
def readGenerate (defaultOutput : String) (arguments : List String) : Except UsageFault Command :=
  match Setting.readAll generateFlags arguments with
  | .error fault => .error fault
  | .ok settings => .ok (ofGenerateSettings defaultOutput settings)

/-- Reads the arguments of `verify`. -/
def readVerify (arguments : List String) : Except UsageFault Command :=
  match Setting.readAll verifyFlags arguments with
  | .error fault => .error fault
  | .ok settings => ofVerifySettings settings

end Command

/-- Reads all arguments of the command line. -/
def Request.read (defaultOutput : String) : List String → Except UsageFault Request
  | [] => .error .missingCommand
  | name :: arguments =>
    if isHelp name then .ok .help
    else if name == "generate" then
      (Command.readGenerate defaultOutput arguments).map Request.execute
    else if name == "verify" then (Command.readVerify arguments).map Request.execute
    else .error (.unknownCommand name)

end WideMultiplier
