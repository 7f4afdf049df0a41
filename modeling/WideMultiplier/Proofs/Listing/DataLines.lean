import WideMultiplier.Proofs.Listing.Edits
import WideMultiplier.Proofs.Listing.Reading

/-!
# Data lines

A data line should be the keyword, a blank or more, and an unsigned literal (`Listing.Declares`).
The reader also takes a limb from a line that lacks the blank, or that has a sign in its literal
(`Listing.Passes`), but from no other line: `Listing.passes_of_read`. By `Listing.declares_iff`
these are the only two faults of a line that passes.
-/

namespace WideMultiplier

namespace Text

/-- A trimmed text does not end in a blank. -/
theorem isBlank_of_mem_getLast?_trim {text : List Char} {c : Char}
    (h : c ∈ (trim text).getLast?) : isBlank c = false := by
  rw [trim, List.getLast?_reverse] at h
  have hfirst := List.head?_dropWhile_not isBlank (trimLeft text).reverse
  rw [← trimLeft, Option.mem_def.mp h] at hfirst
  exact hfirst

/-- A text that no blank ends keeps its end. -/
theorem trimRight_eq_self {text : List Char} (h : ∀ c ∈ text.getLast?, isBlank c = false) :
    trimRight text = text := by
  refine List.rdropWhile_eq_self_iff.mpr fun hne => ?_
  rw [h _ (List.getLast?_eq_some_getLast hne)]
  decide

/-- A text that no blank ends is what is left of it behind its first blanks. -/
theorem exists_blanks_append_trim {text : List Char}
    (h : ∀ c ∈ text.getLast?, isBlank c = false) :
    ∃ blanks, AllBlank blanks ∧ text = blanks ++ trim text := by
  have hsplit : text.takeWhile isBlank ++ trimLeft text = text := List.takeWhile_append_dropWhile
  have hlast : ∀ c ∈ (trimLeft text).getLast?, isBlank c = false := by
    intro c hc
    refine h c ?_
    rw [← hsplit, List.getLast?_append, Option.mem_def.mp hc]
    rfl
  refine ⟨text.takeWhile isBlank, fun c hc => List.mem_takeWhile_imp hc, ?_⟩
  rw [trim_eq, trimRight_eq_self hlast, hsplit]

/-- A digit is no blank and no sign. -/
theorem IsNumeral.not_blank {digits : List Char} {number : Nat} (h : IsNumeral digits number)
    {c : Char} (hc : c ∈ digits) : isBlank c = false ∧ c ≠ '+' := by
  obtain ⟨digit, hlt, hsame⟩ := (isNumeral_iff.mp h).exists_digit (by decide) hc
  constructor
  · rw [← isBlank_toLower, hsame]
    exact isBlank_digitChar hlt
  · rintro rfl
    exact Nat.digitChar_ne '+' rfl hsame.symm

end Text

namespace Listing

open Text (AllBlank IsNumeral)

/-! ## Lines that declare a limb -/

/-- Whether a line declares a limb: behind the keyword stand a blank or more, and behind these, with
a mark or none, the numeral of the limb. -/
def Declares (line : List Char) (limb : Limb) : Prop :=
  ∃ blanks, blanks ≠ [] ∧ AllBlank blanks ∧ ∃ mark ∈ [[], ['0', 'x'], ['0', 'X']], ∃ digits,
    line = keyword ++ (blanks ++ (mark ++ digits)) ∧ IsNumeral digits limb.toNat

/-- Whether a line passes for the declaration of a limb: behind the keyword stand blanks or none,
and behind these a literal that writes the limb, with a sign or none. -/
def Passes (line : List Char) (limb : Limb) : Prop :=
  ∃ blanks, AllBlank blanks ∧ ∃ literal, line = keyword ++ (blanks ++ literal) ∧ Writes literal limb

/-- Whether a blank stands right behind the keyword of a line. -/
def Separated (line : List Char) : Prop :=
  ∃ c ∈ (line.drop keyword.length).head?, Text.isBlank c = true

/-- A literal begins with no blank. -/
theorem Writes.head_not_blank {literal : List Char} {limb : Limb} (h : Writes literal limb) :
    ∀ c ∈ literal.head?, Text.isBlank c = false := by
  obtain ⟨mark, hmark, sign, hsign, digits, rfl, hnumeral⟩ := h
  simp only [List.mem_cons, List.not_mem_nil, or_false] at hmark hsign
  rcases hmark with rfl | rfl | rfl
  · rcases hsign with rfl | rfl
    · exact fun c hc => (hnumeral.not_blank (List.mem_of_mem_head? hc)).1
    · rintro c ⟨⟩
      decide
  · rintro c ⟨⟩
    decide
  · rintro c ⟨⟩
    decide

/-- A line declares a limb when it passes for its declaration, has a blank behind the keyword and
has no sign. -/
theorem declares_iff {line : List Char} {limb : Limb} :
    Declares line limb ↔ Passes line limb ∧ Separated line ∧ '+' ∉ line := by
  constructor
  · rintro ⟨blanks, hne, hblanks, mark, hmark, digits, rfl, hnumeral⟩
    refine ⟨⟨blanks, hblanks, mark ++ digits, rfl, mark, hmark, [], by simp, digits, rfl, hnumeral⟩,
      ?_, ?_⟩
    · obtain ⟨c, rest, rfl⟩ := List.exists_cons_of_ne_nil hne
      exact ⟨c, rfl, hblanks c List.mem_cons_self⟩
    · have hmarks : ∀ mark ∈ [[], ['0', 'x'], ['0', 'X']], '+' ∉ mark := by decide
      simp only [List.mem_append, not_or]
      refine ⟨by decide, fun hplus => ?_, hmarks mark hmark, fun hplus => ?_⟩
      · cases hblanks '+' hplus
      · exact (hnumeral.not_blank hplus).2 rfl
  · rintro ⟨⟨blanks, hblanks, literal, rfl, hwrites⟩, ⟨c, hc, hblank⟩, hplus⟩
    have hne : blanks ≠ [] := by
      rintro rfl
      rw [List.drop_left] at hc
      rw [hwrites.head_not_blank c hc] at hblank
      cases hblank
    obtain ⟨mark, hmark, sign, hsign, digits, rfl, hnumeral⟩ := hwrites
    refine ⟨blanks, hne, hblanks, mark, hmark, digits, ?_, hnumeral⟩
    simp only [List.mem_cons, List.not_mem_nil, or_false] at hsign
    rcases hsign with rfl | rfl
    · rfl
    · simp at hplus

/-! ## Lines that a limb is taken from -/

variable {lines : List (List Char)} {index : Nat}

/-- A data line is its keyword, blanks or none, and its literal. -/
theorem exists_contentAt_eq (h : IsData (contentAt lines index)) :
    ∃ blanks, AllBlank blanks ∧
      contentAt lines index = keyword ++ (blanks ++ literalAt lines index) := by
  obtain ⟨rest, hrest⟩ := h.2
  have hlast : ∀ c ∈ rest.getLast?, Text.isBlank c = false := by
    intro c hc
    have hcontent : c ∈ (contentAt lines index).getLast? := by
      rw [← hrest, List.getLast?_append, Option.mem_def.mp hc]
      rfl
    exact Text.isBlank_of_mem_getLast?_trim hcontent
  obtain ⟨blanks, hblanks, htrim⟩ := Text.exists_blanks_append_trim hlast
  refine ⟨blanks, hblanks, ?_⟩
  rw [literalAt, ← hrest, List.drop_left, ← htrim]

/-- A data line passes for the declaration of the limb that its literal writes. -/
theorem passes_of_writes {limb : Limb} (h : IsData (contentAt lines index))
    (hwrites : Writes (literalAt lines index) limb) : Passes (contentAt lines index) limb := by
  obtain ⟨blanks, hblanks, hcontent⟩ := exists_contentAt_eq h
  exact ⟨blanks, hblanks, _, hcontent, hwrites⟩

/-- What is known of a line that a limb is taken from: it passes for the declaration of the limb,
and declares it if it has a blank behind the keyword and no sign. -/
def TakenFrom (line : List Char) (limb : Limb) : Prop :=
  Passes line limb ∧ (Declares line limb ↔ Separated line ∧ '+' ∉ line)

/-- The limbs of a factor are taken from its data lines. -/
theorem takenFrom_of_writes {operand : Operand} {limbs : List Limb}
    (h : List.Forall₂ Writes ((ownedLines lines operand).map (literalAt lines)) limbs) :
    List.Forall₂ (fun index limb => TakenFrom (contentAt lines index) limb)
      (ownedLines lines operand) limbs := by
  have hdata : ∀ index ∈ ownedLines lines operand, IsData (contentAt lines index) := by
    intro index hindex
    have howns : Owns lines operand index := by simpa using (List.mem_filter.mp hindex).2
    exact howns.1
  refine ((List.forall₂_and_left _ _).mpr ⟨hdata, List.forall₂_map_left_iff.mp h⟩).imp ?_
  rintro index limb ⟨hline, hwrites⟩
  have hpasses := passes_of_writes hline hwrites
  exact ⟨hpasses, declares_iff.trans (and_iff_right hpasses)⟩

/-- A line in the block of a factor that begins with the keyword passes for a declaration, is a
label, or is a fault unless a line before it is. -/
theorem line_in_block {operand : Operand} (hheads : Heads lines operand index)
    (hkeyword : keyword <+: contentAt lines index) {result : Except ListingFault Operands}
    (hreads : Reads lines result) :
    (∃ limb, Passes (contentAt lines index) limb) ∨ IsLabel (contentAt lines index) ∨
      ∃ bad ≤ index,
        result = .error (.invalidDword (bad + 1) (String.ofList (literalAt lines bad))) := by
  by_cases hlabel : IsLabel (contentAt lines index)
  · exact .inr (.inl hlabel)
  have hdata : IsData (contentAt lines index) := ⟨hlabel, hkeyword⟩
  have hpasses : Readable lines index → ∃ limb, Passes (contentAt lines index) limb := by
    intro hreadable
    obtain ⟨limb, hwrites⟩ := hreadable operand ⟨hdata, hheads⟩
    exact ⟨limb, passes_of_writes hdata hwrites⟩
  cases hreads with
  | @malformed bad hfirst hbad =>
      rcases Nat.lt_or_ge index bad with hlt | hge
      · exact .inl (hpasses (hfirst index hlt))
      · exact .inr (.inr ⟨bad, hge, rfl⟩)
  | miscounted hreadable _ _ => exact .inl (hpasses (hreadable index))
  | complete hreadable _ _ => exact .inl (hpasses (hreadable index))

/-- Every line that a limb is taken from passes for the declaration of that limb, and declares it
unless it lacks a blank behind the keyword or has a sign. Any other line in the block of a factor
that begins with the keyword is a label, or a fault unless a line before it is. -/
theorem passes_of_read (text : String) :
    (∀ operands, read text = .ok operands →
      List.Forall₂ (fun index limb => TakenFrom (contentAt (splitLines text.toList) index) limb)
          (ownedLines (splitLines text.toList) .a) operands.a.toList ∧
        List.Forall₂ (fun index limb => TakenFrom (contentAt (splitLines text.toList) index) limb)
          (ownedLines (splitLines text.toList) .b) operands.b.toList) ∧
      ∀ operand index, Heads (splitLines text.toList) operand index →
        keyword <+: contentAt (splitLines text.toList) index →
        (∃ limb, Passes (contentAt (splitLines text.toList) index) limb) ∨
          IsLabel (contentAt (splitLines text.toList) index) ∨
          ∃ bad ≤ index, read text =
            .error (.invalidDword (bad + 1)
              (String.ofList (literalAt (splitLines text.toList) bad))) := by
  have hreads := reads_read text
  constructor
  · intro operands hread
    rw [hread] at hreads
    cases hreads with
    | complete _ hA hB => exact ⟨takenFrom_of_writes hA, takenFrom_of_writes hB⟩
  · intro operand index hheads hkeyword
    exact line_in_block hheads hkeyword hreads

/-! ## A listing that is read all the same -/

/-- The lines of a listing in which the first limb of A has a sign and the second no blank in front
of it. -/
def sloppyLines : List (List Char) :=
  ['A', ':'] :: "dword 0x+1".toList :: "dword2".toList :: List.replicate 62 "dword 0".toList ++
    ['B', ':'] :: List.replicate 64 "dword 0".toList

/-- The text of these lines. -/
def sloppy : String :=
  String.ofList (sloppyLines.flatMap (· ++ ['\n']))

/-- The factors that are read from it. -/
def sloppyOperands : Operands :=
  ⟨((Vector.replicate operandLimbs 0).set 0 1).set 1 2, Vector.replicate operandLimbs 0⟩

theorem splitLines_sloppy : splitLines sloppy.toList = sloppyLines ++ [[]] := by
  rw [sloppy, String.toList_ofList]
  exact splitLines_flatMap (by decide +kernel)

theorem read_sloppy : read sloppy = .ok sloppyOperands := by
  have hcollect : collect (numbered (sloppyLines ++ [[]])) = .ok (owned sloppyOperands) := by
    decide +kernel
  rw [read, splitLines_sloppy, hcollect]
  exact operandsOf_owned sloppyOperands

/-- Both sloppy lines pass for declarations of their limbs. -/
theorem passes_of_read_sloppy :
    read sloppy = .ok sloppyOperands ∧
      List.Forall₂ (fun index limb => TakenFrom (contentAt (sloppyLines ++ [[]]) index) limb)
        (List.range' 1 64) sloppyOperands.a.toList ∧
      ((∃ limb, Passes (contentAt (sloppyLines ++ [[]]) 2) limb) ∨
        IsLabel (contentAt (sloppyLines ++ [[]]) 2) ∨
        ∃ bad ≤ 2, read sloppy = .error (.invalidDword (bad + 1)
          (String.ofList (literalAt (sloppyLines ++ [[]]) bad)))) := by
  have howned : ownedLines (sloppyLines ++ [[]]) .a = List.range' 1 64 := by decide +kernel
  have hheads : Heads (sloppyLines ++ [[]]) .a 2 :=
    ownerBefore_eq_some_iff.mp (by decide +kernel)
  have hkeyword : keyword <+: contentAt (sloppyLines ++ [[]]) 2 := by decide +kernel
  have hsloppy := passes_of_read sloppy
  rw [splitLines_sloppy] at hsloppy
  have htaken := (hsloppy.1 _ read_sloppy).1
  rw [howned] at htaken
  exact ⟨read_sloppy, htaken, hsloppy.2 .a 2 hheads hkeyword⟩

/-- Limbs are taken from the sloppy lines, and neither line declares one. -/
theorem sloppy_undeclared :
    read sloppy = .ok sloppyOperands ∧
      ∀ index ∈ [1, 2], Owns (splitLines sloppy.toList) .a index ∧
        ∀ limb, ¬ Declares (contentAt (splitLines sloppy.toList) index) limb := by
  rw [splitLines_sloppy]
  have howned : ownedLines (sloppyLines ++ [[]]) .a = List.range' 1 64 := by decide +kernel
  have howns : ∀ index ∈ List.range' 1 64, Owns (sloppyLines ++ [[]]) .a index := by
    intro index hindex
    rw [← howned] at hindex
    simpa using (List.mem_filter.mp hindex).2
  have hsigned : contentAt (sloppyLines ++ [[]]) 1 = "dword 0x+1".toList := by decide +kernel
  have hjoined : contentAt (sloppyLines ++ [[]]) 2 = "dword2".toList := by decide +kernel
  refine ⟨read_sloppy, fun index hindex => ?_⟩
  simp only [List.mem_cons, List.not_mem_nil, or_false] at hindex
  rcases hindex with rfl | rfl
  · refine ⟨howns 1 (by decide), fun limb hdeclares => ?_⟩
    rw [hsigned] at hdeclares
    exact (declares_iff.mp hdeclares).2.2 (by decide)
  · refine ⟨howns 2 (by decide), fun limb hdeclares => ?_⟩
    rw [hjoined] at hdeclares
    obtain ⟨c, hc, hblank⟩ := (declares_iff.mp hdeclares).2.1
    cases hc
    cases hblank

end Listing

end WideMultiplier
