import WideMultiplier.Listing
import WideMultiplier.Text.Blank

/-!
# Reading listings

A listing is read line by line. A `#` begins a comment, blanks at both ends of a line do not count,
and an empty line does not count at all. A line that ends in `:` is a label; another that begins
with `dword` is a data line; any other is a directive. A data line belongs to the factor whose label
was the last line before it that is not a data line, and to none if there is no such label. The
limbs of each factor are its data lines in order, and each factor must have 64 of them.
-/

namespace WideMultiplier

/-- A listing from which no pair of factors can be read. -/
inductive ListingFault where
  | invalidDword (line : Nat) (literal : String)
  | limbCount (operand : Operand) (expected actual : Nat)
deriving DecidableEq

/-- The text of a listing fault. -/
def ListingFault.message : ListingFault → String
  | .invalidDword line literal => s!"line {line}: invalid dword literal `{literal}`"
  | .limbCount operand expected actual =>
    s!"operand {operand.name} has {actual} limbs, expected {expected}"

namespace Listing

/-- The lines of a text, without their line breaks. -/
def splitLines (text : List Char) : List (List Char) :=
  text.splitOn '\n'

/-- What a line says. -/
inductive Line where
  | label (name : List Char)
  | data (literal : List Char)
  | directive
deriving DecidableEq

/-- The word that a data line begins with. -/
def keyword : List Char :=
  ['d', 'w', 'o', 'r', 'd']

/-- What a text says that has no comment and no blanks at its ends. -/
def Line.ofText (text : List Char) : Line :=
  if text.getLast? = some ':' then .label text.dropLast
  else if keyword.isPrefixOf text then .data (Text.trim (text.drop keyword.length))
  else .directive

/-- A line without its comment and without blanks at its ends. -/
def content (raw : List Char) : List Char :=
  Text.trim (raw.takeWhile fun c => c != '#')

/-- What a line says, if it says anything. -/
def Line.ofRaw (raw : List Char) : Option Line :=
  if (content raw).isEmpty then none else some (.ofText (content raw))

/-- The lines that say something, each with its number. -/
def numbered (lines : List (List Char)) : List (Nat × Line) :=
  (lines.zipIdx 1).filterMap fun (raw, number) => (Line.ofRaw raw).map fun line => (number, line)

/-- The factor that a label stands for. -/
def ownerOf (name : List Char) : Option Operand :=
  if name = ['A'] then some .a else if name = ['B'] then some .b else none

/-- Reads the literal of a data line: a hexadecimal number below `2 ^ 64`, behind `0x`, `0X` or
nothing. -/
def readLiteral (literal : List Char) : Option Limb :=
  match literal with
  | '0' :: 'x' :: digits => Text.readWord 16 digits
  | '0' :: 'X' :: digits => Text.readWord 16 digits
  | digits => Text.readWord 16 digits

/-- The limbs of both factors in the order of their lines, given those that were taken before,
latest first, and the factor that the first data line belongs to. -/
def collectFrom : List (Operand × Limb) → Option Operand → List (Nat × Line) →
    Except ListingFault (List (Operand × Limb))
  | taken, _, [] => .ok taken.reverse
  | taken, _, (_, .label name) :: rest => collectFrom taken (ownerOf name) rest
  | taken, _, (_, .directive) :: rest => collectFrom taken none rest
  | taken, none, (_, .data _) :: rest => collectFrom taken none rest
  | taken, some owner, (number, .data literal) :: rest =>
    match readLiteral literal with
    | none => .error (.invalidDword number (String.ofList literal))
    | some limb => collectFrom ((owner, limb) :: taken) (some owner) rest

/-- The limbs of both factors in the order of their lines. -/
def collect (lines : List (Nat × Line)) : Except ListingFault (List (Operand × Limb)) :=
  collectFrom [] none lines

/-- The limbs of one factor among the limbs of both. -/
def limbsOf (operand : Operand) (limbs : List (Operand × Limb)) : List Limb :=
  (limbs.filter fun limb => limb.1 = operand).map Prod.snd

/-- A factor from its limbs, which must be as many as a factor has. -/
def operandOf (operand : Operand) (limbs : List Limb) : Except ListingFault OperandLimbs :=
  if h : limbs.toArray.size = operandLimbs then .ok ⟨limbs.toArray, h⟩
  else .error (.limbCount operand operandLimbs limbs.length)

/-- The pair of factors among the limbs of both. -/
def operandsOf (limbs : List (Operand × Limb)) : Except ListingFault Operands :=
  match operandOf .a (limbsOf .a limbs) with
  | .error fault => .error fault
  | .ok a =>
    match operandOf .b (limbsOf .b limbs) with
    | .error fault => .error fault
    | .ok b => .ok ⟨a, b⟩

/-- Reads the pair of factors from a listing. -/
def read (text : String) : Except ListingFault Operands :=
  match collect (numbered (splitLines text.toList)) with
  | .error fault => .error fault
  | .ok limbs => operandsOf limbs

end Listing

end WideMultiplier
