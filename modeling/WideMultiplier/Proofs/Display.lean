import Mathlib.Data.List.TakeWhile
import Mathlib.Data.Nat.Size
import WideMultiplier.Limb.Display
import WideMultiplier.Proofs.LongNumber
import WideMultiplier.Proofs.Numeral

/-!
# Long numbers shown

The lines under a label write one hexadecimal numeral. The limb at the significant end has its own
numeral, and every limb below it fills its line with sixteen digits, so the lines put together are
the numeral of the value (`Limbs.flatten_digitLines`). The number of its digits follows from the
number of significant bits, which is that of the value (`Limbs.bitLength_eq_size`).
`Limbs.labelled_canonical` puts the text and the bits side by side.
-/

namespace WideMultiplier

/-! ## Significant bits -/

/-- The significant bits of a limb are those of its value. -/
theorem Limb.bitLength_eq_size (limb : Limb) : bitLength limb = Nat.size limb.toNat := by
  by_cases hzero : limb = 0
  · rw [hzero]
    rfl
  · have hvalue : limb.toNat ≠ 0 := fun h => hzero (UInt64.toNat_inj.mp h)
    rw [bitLength, if_neg hzero]
    refine Nat.le_antisymm (Nat.lt_size.mpr (Nat.log2_self_le hvalue)) ?_
    exact Nat.size_le.mpr Nat.lt_log2_self

namespace Limbs

/-- A limb below a number that is not zero adds all its bits. -/
theorem size_add_base_mul (limb : Limb) {high : Nat} (h : high ≠ 0) :
    Nat.size (limb.toNat + Limb.base * high) = Nat.size high + 64 := by
  have hlimb : limb.toNat < 2 ^ 64 := Limb.toNat_lt limb
  obtain ⟨bits, hbits⟩ : ∃ bits, Nat.size high = bits + 1 :=
    Nat.exists_eq_add_one.mpr (Nat.size_pos.mpr (Nat.pos_of_ne_zero h))
  have hbelow : high < 2 ^ (bits + 1) := Nat.size_le.mp (Nat.le_of_eq hbits)
  have habove : 2 ^ bits ≤ high := Nat.lt_size.mp (by omega)
  refine Nat.le_antisymm (Nat.size_le.mpr ?_) (Nat.succ_le_of_lt (Nat.lt_size.mpr ?_))
  · rw [hbits]
    calc limb.toNat + 2 ^ 64 * high
        < 2 ^ 64 * (high + 1) := by omega
      _ ≤ 2 ^ 64 * 2 ^ (bits + 1) := Nat.mul_le_mul_left _ hbelow
      _ = 2 ^ (bits + 1 + 64) := by rw [← pow_add, Nat.add_comm]
  · rw [hbits]
    calc 2 ^ (bits + 64)
        = 2 ^ 64 * 2 ^ bits := by rw [← pow_add, Nat.add_comm]
      _ ≤ 2 ^ 64 * high := Nat.mul_le_mul_left _ habove
      _ ≤ limb.toNat + 2 ^ 64 * high := Nat.le_add_left _ _

/-- The significant bits of a long number are those of its value. -/
theorem bitLength_eq_size (limbs : List Limb) : bitLength limbs = Nat.size (value limbs) := by
  induction limbs with
  | nil => rfl
  | cons limb rest ih =>
      have hstep : bitLength (limb :: rest) =
          if bitLength rest = 0 then Limb.bitLength limb else bitLength rest + 64 := rfl
      rw [hstep, ih, value_cons]
      by_cases hrest : value rest = 0
      · rw [if_pos (Nat.size_eq_zero.mpr hrest), hrest, Limb.bitLength_eq_size]
        rfl
      · rw [if_neg (Nat.size_eq_zero.not.mpr hrest), size_add_base_mul limb hrest]

/-- A number has one hexadecimal digit for every four bits begun, and at least one. -/
theorem length_toDigits_sixteen (number : Nat) :
    (Nat.toDigits 16 number).length = max 1 ((Nat.size number + 3) / 4) := by
  have hreach : ∀ count, 0 < count →
      ((Nat.toDigits 16 number).length ≤ count ↔ Nat.size number ≤ 4 * count) := by
    intro count hcount
    rw [Nat.length_toDigits_le_iff (by decide) hcount, Nat.size_le, pow_mul]
    rfl
  have hpos : 0 < (Nat.toDigits 16 number).length := Nat.length_toDigits_pos
  have hleast := (hreach _ hpos).mp (Nat.le_refl _)
  have henough := (hreach (max 1 ((Nat.size number + 3) / 4)) (by omega)).mpr (by omega)
  omega

/-! ## Significant limbs -/

/-- The limbs of a long number without the zeros at its significant end, most significant first. -/
def significant (limbs : List Limb) : List Limb :=
  limbs.reverse.dropWhile (· == 0)

/-- Zeros appended at the significant end are not significant. -/
theorem significant_append_zeros (limbs : List Limb) (count : Nat) :
    significant (limbs ++ List.replicate count 0) = significant limbs := by
  rw [significant, List.reverse_append, List.reverse_replicate,
    List.dropWhile_append_of_pos (by simp)]
  rfl

/-- What is not significant of a long number are zeros. -/
theorem exists_zeros_append (limbs : List Limb) :
    ∃ count, limbs = (significant limbs).reverse ++ List.replicate count 0 := by
  have hzeros : limbs.reverse.takeWhile (· == 0) =
      List.replicate (limbs.reverse.takeWhile (· == 0)).length 0 := by
    refine List.eq_replicate_of_mem fun limb hlimb => ?_
    have hzero : (limb == 0) = true := List.mem_takeWhile_imp (p := (· == 0)) hlimb
    exact beq_iff_eq.mp hzero
  refine ⟨(limbs.reverse.takeWhile (· == 0)).length, ?_⟩
  rw [← List.reverse_replicate, ← hzeros, ← List.reverse_append, significant,
    List.takeWhile_append_dropWhile, List.reverse_reverse]

/-- Zeros appended at the significant end add nothing. -/
theorem value_append_zeros (limbs : List Limb) (count : Nat) :
    value (limbs ++ List.replicate count 0) = value limbs := by
  rw [value_append, value_replicate_zero, Nat.mul_zero, Nat.add_zero]

/-- The significant limbs write the whole number. -/
theorem value_reverse_significant (limbs : List Limb) :
    value (significant limbs).reverse = value limbs := by
  obtain ⟨count, hlimbs⟩ := exists_zeros_append limbs
  conv_rhs => rw [hlimbs]
  exact (value_append_zeros _ count).symm

/-- The first of the significant limbs is not zero. -/
theorem pos_of_significant {limbs below : List Limb} {top : Limb}
    (h : significant limbs = top :: below) : 0 < top.toNat := by
  have hfirst := List.head?_dropWhile_not (· == 0) limbs.reverse
  rw [← significant, h] at hfirst
  have hne : top ≠ 0 := by simpa using hfirst
  exact Nat.pos_of_ne_zero fun hzero => hne (UInt64.toNat_inj.mp hzero)

/-! ## Lines of digits -/

/-- The lines of digits that show limbs, most significant first. -/
def digitLines : List Limb → List (List Char)
  | [] => [['0']]
  | top :: below => Nat.toDigits 16 top.toNat :: below.map fun limb => (Text.hexLimb limb).toList

/-- The text under a label, line by line. -/
theorem toList_labelled (label : String) (limbs : List Limb) :
    (labelled label limbs).toList = label.toList ++ [':', '\n', '0', 'x'] ++
      (digitLines (significant limbs)).flatMap (· ++ ['\n']) := by
  rw [labelled, ← significant]
  cases significant limbs with
  | nil => simp [digitLines, Text.hexLiteral, Text.hex]
  | cons top below =>
      simp [digitLines, Text.hexLiteral, Text.hex, String.toList_join, List.flatMap_map]

/-- The digits of a number and the lines of further limbs write the number and, behind it, the
limbs. -/
theorem toDigits_append_hexLimbs {high : Nat} (hhigh : 0 < high) (below : List Limb) :
    Nat.toDigits 16 high ++ (below.map fun limb => (Text.hexLimb limb).toList).flatten =
      Nat.toDigits 16 (Limb.base ^ below.length * high + value below.reverse) := by
  induction below generalizing high with
  | nil => simp
  | cons limb rest ih =>
      have hlonger : 0 < Limb.base * high + limb.toNat :=
        Nat.add_pos_left (Nat.mul_pos (by decide) hhigh) _
      have hnext : Nat.toDigits 16 high ++ (Text.hexLimb limb).toList =
          Nat.toDigits 16 (Limb.base * high + limb.toNat) :=
        Text.toDigits_append_hexPadded hhigh 15 (Limb.toNat_lt limb)
      rw [List.map_cons, List.flatten_cons, ← List.append_assoc, hnext, ih hlonger,
        List.reverse_cons, value_append, List.length_reverse, List.length_cons, value_cons,
        value_nil]
      congr 1
      ring

/-- The lines put together are the digits of the value. -/
theorem flatten_digitLines (limbs : List Limb) :
    (digitLines (significant limbs)).flatten = Nat.toDigits 16 (value limbs) := by
  rw [← value_reverse_significant limbs]
  cases hsignificant : significant limbs with
  | nil => exact (Nat.toDigits_zero 16).symm
  | cons top below =>
      rw [digitLines, List.flatten_cons,
        toDigits_append_hexLimbs (pos_of_significant hsignificant) below, List.reverse_cons,
        value_append, List.length_reverse, value_cons, value_nil, Nat.mul_zero, Nat.add_zero,
        Nat.add_comm]

/-- Every line has a digit. -/
theorem ne_nil_of_mem_digitLines {limbs : List Limb} {line : List Char}
    (h : line ∈ digitLines limbs) : line ≠ [] := by
  cases limbs with
  | nil =>
      rw [digitLines, List.mem_singleton] at h
      rw [h]
      exact List.cons_ne_nil _ _
  | cons top below =>
      rw [digitLines, List.mem_cons, List.mem_map] at h
      rcases h with rfl | ⟨limb, -, rfl⟩
      · exact Nat.toDigits_ne_nil
      · exact Text.hexLimb_ne_nil limb

/-- Below the first line, every line is full. -/
theorem length_of_mem_tail_digitLines {limbs : List Limb} {line : List Char}
    (h : line ∈ (digitLines limbs).tail) : line.length = 16 := by
  cases limbs with
  | nil => cases h
  | cons top below =>
      rw [digitLines, List.tail_cons, List.mem_map] at h
      obtain ⟨limb, -, rfl⟩ := h
      exact Text.length_hexLimb limb

/-- What a long number shown under a label looks like: the label, then the lines of its numeral. -/
structure Shown (label : String) (limbs : List Limb) (lines : List (List Char)) : Prop where
  text : (labelled label limbs).toList =
    label.toList ++ [':', '\n', '0', 'x'] ++ lines.flatMap (· ++ ['\n'])
  ne_nil : ∀ line ∈ lines, line ≠ []
  full : ∀ line ∈ lines.tail, line.length = 16
  canonical : Text.Canonical lines.flatten (value limbs)
  length_eq : lines.flatten.length = max 1 ((bitLength limbs + 3) / 4)

/-- A long number is shown by the lines of its significant limbs. -/
theorem shown_digitLines (label : String) (limbs : List Limb) :
    Shown label limbs (digitLines (significant limbs)) where
  text := toList_labelled label limbs
  ne_nil _ hline := ne_nil_of_mem_digitLines hline
  full _ hline := length_of_mem_tail_digitLines hline
  canonical := by
    rw [flatten_digitLines]
    exact Text.canonical_toDigits _
  length_eq := by
    rw [flatten_digitLines, length_toDigits_sixteen, bitLength_eq_size]

/-- A long number under a label is shown as the canonical hexadecimal numeral of its value, which
lines break at the limbs. Its bits are counted up to the highest one that is set, and the numeral
has a digit for every four of them. Zero limbs at the significant end change neither. -/
theorem labelled_canonical (label : String) (limbs : List Limb) :
    (∃ lines, Shown label limbs lines) ∧
      (bitLength limbs = 0 ↔ value limbs = 0) ∧
      value limbs < 2 ^ bitLength limbs ∧
      (value limbs = 0 ∨ 2 ^ (bitLength limbs - 1) ≤ value limbs) ∧
      ∀ count, labelled label (limbs ++ List.replicate count 0) = labelled label limbs ∧
        bitLength (limbs ++ List.replicate count 0) = bitLength limbs := by
  refine ⟨⟨_, shown_digitLines label limbs⟩, ?_⟩
  rw [bitLength_eq_size limbs]
  refine ⟨Nat.size_eq_zero, Nat.lt_size_self _, ?_, fun count => ⟨?_, ?_⟩⟩
  · rcases Nat.eq_zero_or_pos (value limbs) with hzero | hpos
    · exact Or.inl hzero
    · exact Or.inr (Nat.lt_size.mp (Nat.sub_one_lt (Nat.size_pos.mpr hpos).ne'))
  · apply String.toList_inj.mp
    rw [toList_labelled, toList_labelled, significant_append_zeros]
  · rw [bitLength_eq_size, value_append_zeros]

example : labelled "Number A" [0x2, 0xabc, 0, 0] = "Number A:\n0xabc\n0000000000000002\n" := by
  decide

end Limbs

end WideMultiplier
