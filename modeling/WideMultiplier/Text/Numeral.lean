import WideMultiplier.Limb

/-!
# Numerals

Numbers are written in lower-case hexadecimal, with or without padding, and read in base ten or
sixteen. A reader accepts one leading `+`, then one or more digits of its base, in either case, with
any number of leading zeros; a word must also be below `2 ^ 64`.
-/

namespace WideMultiplier.Text

/-- The value of a decimal or hexadecimal digit. -/
def digitValue? (c : Char) : Option Nat :=
  if '0' ≤ c ∧ c ≤ '9' then some (c.toNat - '0'.toNat)
  else if 'a' ≤ c ∧ c ≤ 'f' then some (c.toNat - 'a'.toNat + 10)
  else if 'A' ≤ c ∧ c ≤ 'F' then some (c.toNat - 'A'.toNat + 10)
  else none

/-- Continues a number with further digits of a base, most significant first, as long as it stays
below a limit. -/
def readDigits (base limit : Nat) : Nat → List Char → Option Nat
  | number, [] => some number
  | number, c :: rest =>
    match digitValue? c with
    | some digit =>
      let longer := number * base + digit
      if digit < base ∧ longer < limit then readDigits base limit longer rest else none
    | none => none

/-- Reads a natural number below a limit: an optional `+`, then at least one digit. -/
def readBelow (base limit : Nat) (text : List Char) : Option Nat :=
  let digits :=
    match text with
    | '+' :: rest => rest
    | _ => text
  if digits.isEmpty then none else readDigits base limit 0 digits

/-- Reads a natural number below `2 ^ 64`. -/
def readWord (base : Nat) (text : List Char) : Option UInt64 :=
  (readBelow base Limb.base text).map UInt64.ofNat

/-- The lower-case hexadecimal numeral of a number, without leading zeros. -/
def hex (number : Nat) : String :=
  String.ofList (Nat.toDigits 16 number)

/-- The hexadecimal numeral of a number, padded with zeros to a width. -/
def hexPadded (width number : Nat) : String :=
  let digits := Nat.toDigits 16 number
  String.ofList (List.replicate (width - digits.length) '0' ++ digits)

/-- All sixteen hexadecimal digits of a limb. -/
def hexLimb (limb : Limb) : String :=
  hexPadded 16 limb.toNat

/-- A word as a hexadecimal literal, without leading zeros. -/
def hexLiteral (word : UInt64) : String :=
  "0x" ++ hex word.toNat

/-- A limb as a hexadecimal literal of sixteen digits. -/
def limbLiteral (limb : Limb) : String :=
  "0x" ++ hexLimb limb

end WideMultiplier.Text
