import WideMultiplier.Product
import WideMultiplier.Text.Numeral

/-!
# Assembly listings

A test case for the simulator is an assembly program that declares both factors, one `dword` line
for each limb, reserves the buffer of the product, and multiplies. `Listing.lines` gives its lines,
and `Listing.render` its text, which can be handed to a sink piece by piece.
-/

namespace WideMultiplier.Listing

/-- The file that a listing is written to when none is named. -/
def defaultFile : String :=
  "bignum_data.s"

/-- The instructions of the program. -/
def program : List String :=
  ["la x3, A", "la x4, B", "la x5, RES", "ldbm x0, x3, x4", "bigmul x0, 0(x5)", "li a7, 93",
    "li a0, 0", "ecall"]

/-- What stands before an instruction, a directive or a limb. -/
def indent : String :=
  "    "

/-- The line that declares one limb. -/
def dwordLine (limb : Limb) : String :=
  indent ++ "dword " ++ Text.limbLiteral limb

/-- The lines that declare one factor. -/
def operandLines (operand : Operand) (limbs : OperandLimbs) : List String :=
  (operand.name ++ ":") :: limbs.toList.map dwordLine

/-- The lines of the program for a pair of factors. -/
def lines (operands : Operands) : List String :=
  ["# Auto-generated 4096-bit values for simulator", "", ".data", ""] ++
    operandLines .a operands.a ++ operandLines .b operands.b ++
    ["RES:", indent ++ ".zero " ++ toString productBytes, "", ".text", "main:"] ++
    program.map (indent ++ ·)

/-- The text in pieces: each line, and each line break. Where a writer breaks the text does not
matter, since a sink takes the same of it however it comes. -/
def pieces (operands : Operands) : List String :=
  (lines operands).flatMap fun line => [line, "\n"]

/-- The text of the program for a pair of factors. -/
def render (operands : Operands) : String :=
  String.join (pieces operands)

end WideMultiplier.Listing
