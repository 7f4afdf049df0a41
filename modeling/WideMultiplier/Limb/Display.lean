import WideMultiplier.Text.Numeral

/-!
# Showing long numbers

A long number is shown either as one hexadecimal numeral, broken into lines at limb boundaries, or
limb by limb in the order in which it is stored.
-/

namespace WideMultiplier.Limbs

/-- A number under a label, most significant limb first. Zero limbs at the significant end are left
out; the first limb that is shown has no leading zeros, and each limb after it has a line of sixteen
digits. -/
def labelled (label : String) (limbs : List Limb) : String :=
  let significant := limbs.reverse.dropWhile fun limb => limb == 0
  let (head, rest) :=
    match significant with
    | [] => (0, [])
    | top :: below => (top, below)
  label ++ ":\n" ++ Text.hexLiteral head ++ "\n" ++
    String.join (rest.map fun limb => Text.hexLimb limb ++ "\n")

/-- All limbs in storage order, one to a line. -/
def dump (limbs : List Limb) : String :=
  String.join <| limbs.zipIdx.map fun (limb, index) =>
    "result[" ++ toString index ++ "] = " ++ Text.limbLiteral limb ++ "\n"

end WideMultiplier.Limbs
