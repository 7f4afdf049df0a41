import Mathlib.Data.List.TakeWhile
import WideMultiplier.Listing.Reader
import WideMultiplier.Proofs.Numeral

/-!
# Listings read back

A listing is read line by line (`Listing.splitLines_flatMap`). The line that declares a limb says
the literal of that limb (`Listing.ofRaw_dwordLine`), so the lines behind the label of a factor give
its limbs in order (`Listing.collectFrom_dwordLines`), and the other lines of a rendered listing
give none. `Listing.read_render` says that a rendered listing reads back as its factors.
-/

namespace WideMultiplier

namespace Text

/-! ## Blanks -/

/-- A text that no blank begins keeps its begin. -/
theorem trimLeft_eq_self {text : List Char} (h : ∀ c ∈ text.head?, isBlank c = false) :
    trimLeft text = text := by
  cases text with
  | nil => rfl
  | cons c rest => exact List.dropWhile_cons_of_neg (by simp [h c rfl])

/-- What neither begins nor ends in a blank is all that is left behind blanks. -/
theorem trim_append {blanks text : List Char} (hblanks : blanks.all isBlank = true)
    (hfirst : ∀ c ∈ text.head?, isBlank c = false)
    (hlast : ∀ c ∈ text.getLast?, isBlank c = false) : trim (blanks ++ text) = text := by
  have hfront : trimLeft (blanks ++ text) = trimLeft text :=
    List.dropWhile_append_of_pos (List.all_eq_true.mp hblanks)
  have hback : trimLeft text.reverse = text.reverse := by
    refine trimLeft_eq_self ?_
    rwa [List.head?_reverse]
  rw [trim, hfront, trimLeft_eq_self hfirst, hback, List.reverse_reverse]

/-! ## Limb literals -/

/-- No digit is a blank. -/
theorem isBlank_digitChar {digit : Nat} (h : digit < 16) :
    isBlank (Nat.digitChar digit) = false := by
  have hall : ∀ digit < 16, isBlank (Nat.digitChar digit) = false := by decide
  exact hall digit h

/-- A limb literal ends in a digit. -/
theorem exists_digit_of_getLast? {limb : Limb} {front : List Char} {c : Char}
    (h : c ∈ (front ++ (hexLimb limb).toList).getLast?) :
    ∃ digit < 16, c = Nat.digitChar digit := by
  rw [List.getLast?_append, List.getLast?_eq_some_getLast (hexLimb_ne_nil limb),
    Option.some_or, Option.mem_some_iff] at h
  rw [← h]
  exact exists_digit_of_mem_hexLimb (List.getLast_mem _)

/-- What ends in a limb literal is all that is left behind blanks. -/
theorem trim_hexLimb {blanks front : List Char} (hblanks : blanks.all isBlank = true)
    (hfront : front.head?.any (!isBlank ·) = true) (limb : Limb) :
    trim (blanks ++ (front ++ (hexLimb limb).toList)) = front ++ (hexLimb limb).toList := by
  refine trim_append hblanks ?_ ?_
  · cases front with
    | nil => cases hfront
    | cons first rest =>
        intro c hc
        cases hc
        simpa using hfront
  · intro c hc
    obtain ⟨digit, hlt, rfl⟩ := exists_digit_of_getLast? hc
    exact isBlank_digitChar hlt

end Text

namespace Listing

/-! ## Lines -/

/-- A text whose lines each end in a line break is read line by line. Behind the last one stands
an empty line. -/
theorem splitLines_flatMap {lines : List (List Char)} (h : ∀ line ∈ lines, '\n' ∉ line) :
    splitLines (lines.flatMap (· ++ ['\n'])) = lines ++ [[]] := by
  induction lines with
  | nil => rfl
  | cons line rest ih =>
      rw [List.flatMap_cons, List.append_assoc, List.singleton_append, splitLines,
        List.splitOn_append_cons_self_of_not_mem (h line List.mem_cons_self)]
      exact congrArg (line :: ·) (ih fun other hother => h other (List.mem_cons_of_mem _ hother))

/-- The characters of a rendered listing, line by line. -/
theorem toList_render (operands : Operands) :
    (render operands).toList = ((lines operands).map String.toList).flatMap (· ++ ['\n']) := by
  rw [render, pieces, String.toList_join, List.flatMap_assoc, List.flatMap_map]
  refine congrArg (List.flatMap · _) (funext fun line => ?_)
  simp

/-- The literal of a limb reads as the limb. -/
theorem readLiteral_limbLiteral (limb : Limb) :
    readLiteral (Text.limbLiteral limb).toList = some limb := by
  rw [Text.limbLiteral, String.toList_append]
  exact Text.readWord_hexLimb limb

/-- The line that declares a limb, in characters. -/
theorem toList_dwordLine (limb : Limb) :
    (dwordLine limb).toList =
      indent.toList ++ (keyword ++ [' ', '0', 'x'] ++ (Text.hexLimb limb).toList) := by
  rw [dwordLine, Text.limbLiteral]
  simp only [String.toList_append, List.append_assoc]
  rfl

/-- What is neither in the words around a limb nor a digit is not in the line that declares it. -/
theorem not_mem_dwordLine {c : Char} (hword : c ∉ indent.toList ++ keyword ++ [' ', '0', 'x'])
    (hdigit : ∀ digit < 16, c ≠ Nat.digitChar digit) (limb : Limb) :
    c ∉ (dwordLine limb).toList := by
  intro hmem
  rw [toList_dwordLine, ← List.append_assoc, ← List.append_assoc, List.mem_append] at hmem
  rcases hmem with hfront | hback
  · exact hword hfront
  · obtain ⟨digit, hlt, hsame⟩ := Text.exists_digit_of_mem_hexLimb hback
    exact hdigit digit hlt hsame

/-- No comment and no blanks are left of the line that declares a limb. -/
theorem content_dwordLine (limb : Limb) :
    content (dwordLine limb).toList =
      keyword ++ [' ', '0', 'x'] ++ (Text.hexLimb limb).toList := by
  have hcomment : ∀ c ∈ (dwordLine limb).toList, (c != '#') = true := by
    intro c hc
    rw [bne_iff_ne]
    rintro rfl
    exact not_mem_dwordLine (by decide) (by decide) limb hc
  rw [content, List.takeWhile_eq_self_iff.mpr hcomment, toList_dwordLine]
  exact Text.trim_hexLimb (by decide) (by decide) limb

/-- The line that declares a limb says its literal. -/
theorem ofRaw_dwordLine (limb : Limb) :
    Line.ofRaw (dwordLine limb).toList = some (.data (Text.limbLiteral limb).toList) := by
  have hlabel : (keyword ++ [' ', '0', 'x'] ++ (Text.hexLimb limb).toList).getLast? ≠
      some ':' := by
    intro hcolon
    obtain ⟨digit, -, hsame⟩ := Text.exists_digit_of_getLast? hcolon
    exact Nat.digitChar_ne ':' rfl hsame.symm
  have hbegin : keyword.isPrefixOf (keyword ++ [' ', '0', 'x'] ++ (Text.hexLimb limb).toList) =
      true := by
    rw [List.append_assoc]
    exact List.isPrefixOf_iff_prefix.mpr (List.prefix_append _ _)
  have hdata : Text.trim ([' ', '0', 'x'] ++ (Text.hexLimb limb).toList) =
      (Text.limbLiteral limb).toList := by
    rw [Text.limbLiteral, String.toList_append]
    exact @Text.trim_hexLimb [' '] ['0', 'x'] (by decide) (by decide) limb
  rw [Line.ofRaw, content_dwordLine, Line.ofText, if_neg hlabel, if_pos hbegin, List.append_assoc,
    List.drop_left, hdata]
  rfl

/-! ## The limbs of the factors -/

/-- The lines that say something, numbered from a number on. -/
def numberedFrom (number : Nat) (lines : List (List Char)) : List (Nat × Line) :=
  (lines.zipIdx number).filterMap fun (raw, number) =>
    (Line.ofRaw raw).map fun line => (number, line)

/-- Whether a line says a limb. -/
def Line.isData : Line → Bool
  | .data _ => true
  | .label _ | .directive => false

variable {number : Nat} {rest : List (List Char)} {taken : List (Operand × Limb)}

theorem numberedFrom_cons_of_none {raw : List Char} (h : Line.ofRaw raw = none) :
    numberedFrom number (raw :: rest) = numberedFrom (number + 1) rest := by
  rw [numberedFrom, List.zipIdx_cons, List.filterMap_cons]
  simp only [h]
  rfl

theorem numberedFrom_cons_of_some {raw : List Char} {line : Line} (h : Line.ofRaw raw = some line) :
    numberedFrom number (raw :: rest) = (number, line) :: numberedFrom (number + 1) rest := by
  rw [numberedFrom, List.zipIdx_cons, List.filterMap_cons]
  simp only [h]
  rfl

/-- The lines behind the label of a factor give its limbs in order. -/
theorem collectFrom_dwordLines (owner : Operand) (limbs : List Limb) :
    collectFrom taken (some owner)
        (numberedFrom number (limbs.map (fun limb => (dwordLine limb).toList) ++ rest)) =
      collectFrom ((limbs.map (owner, ·)).reverse ++ taken) (some owner)
        (numberedFrom (number + limbs.length) rest) := by
  induction limbs generalizing number taken with
  | nil => rfl
  | cons limb limbs ih =>
      rw [List.map_cons, List.cons_append, numberedFrom_cons_of_some (ofRaw_dwordLine limb),
        collectFrom, readLiteral_limbLiteral]
      dsimp only
      rw [ih, List.map_cons, List.reverse_cons, List.append_assoc, List.singleton_append,
        List.length_cons, Nat.add_right_comm, Nat.add_assoc]

/-- Lines that say no limb give none. -/
theorem collectFrom_of_no_data {owner : Option Operand} {lines : List (List Char)}
    (h : ∀ raw ∈ lines, (Line.ofRaw raw).any Line.isData = false) :
    collectFrom taken owner (numberedFrom number lines) = .ok taken.reverse := by
  induction lines generalizing number owner with
  | nil => rfl
  | cons raw lines ih =>
      have hfirst := h raw List.mem_cons_self
      have hrest := fun other hother => h other (List.mem_cons_of_mem raw hother)
      cases hline : Line.ofRaw raw with
      | none =>
          rw [numberedFrom_cons_of_none hline]
          exact ih hrest
      | some line =>
          rw [numberedFrom_cons_of_some hline]
          cases line with
          | label name => exact ih hrest
          | directive => exact ih hrest
          | data literal =>
              rw [hline] at hfirst
              cases hfirst

/-- The limbs of both factors, A first. -/
def owned (operands : Operands) : List (Operand × Limb) :=
  operands.a.toList.map (.a, ·) ++ operands.b.toList.map (.b, ·)

/-- The limbs of both factors give the factors. -/
theorem operandsOf_owned (operands : Operands) : operandsOf (owned operands) = .ok operands := by
  obtain ⟨a, b⟩ := operands
  have hmine : ∀ (owner : Operand) (limbs : List Limb),
      limbsOf owner (limbs.map (owner, ·)) = limbs := by
    intro owner limbs
    simp [limbsOf, List.filter_map, Function.comp_def]
  have hother : ∀ (owner other : Operand) (limbs : List Limb), other ≠ owner →
      limbsOf owner (limbs.map (other, ·)) = [] := by
    intro owner other limbs hne
    simp [limbsOf, List.filter_map, Function.comp_def, hne]
  have happend : ∀ (owner : Operand) (first second : List (Operand × Limb)),
      limbsOf owner (first ++ second) = limbsOf owner first ++ limbsOf owner second := by
    intro owner first second
    simp [limbsOf]
  have hvector : ∀ (owner : Operand) (limbs : OperandLimbs),
      operandOf owner limbs.toList = .ok limbs := by
    intro owner limbs
    rw [operandOf, dif_pos (by simp)]
    rfl
  rw [operandsOf, owned, happend, happend, hmine, hmine, hother .a .b _ (by decide),
    hother .b .a _ (by decide), List.append_nil, List.nil_append, hvector]
  dsimp only
  rw [hvector]

/-- The lines in front of the label of A. -/
def heading : List String :=
  ["# Auto-generated 4096-bit values for simulator", "", ".data", ""]

/-- The lines behind the limbs of B. -/
def ending : List String :=
  ["RES:", indent ++ ".zero " ++ toString productBytes, "", ".text", "main:"] ++
    program.map (indent ++ ·)

/-- The lines of a rendered listing, in characters. -/
theorem map_toList_lines (operands : Operands) :
    (lines operands).map String.toList =
      heading.map String.toList ++
        ['A', ':'] :: (operands.a.toList.map (fun limb => (dwordLine limb).toList) ++
          ['B', ':'] :: (operands.b.toList.map (fun limb => (dwordLine limb).toList) ++
            ending.map String.toList)) := by
  simp [lines, operandLines, Operand.name, heading, ending, Function.comp_def]

/-- No line of a rendered listing holds a line break. -/
theorem newline_not_mem {operands : Operands} {line : List Char}
    (h : line ∈ (lines operands).map String.toList) : '\n' ∉ line := by
  have hlimb : ∀ limb : Limb, '\n' ∉ (dwordLine limb).toList :=
    not_mem_dwordLine (by decide) (by decide)
  have hheading : ∀ line ∈ heading.map String.toList, '\n' ∉ line := by decide
  have hending : ∀ line ∈ ending.map String.toList, '\n' ∉ line := by decide
  simp only [map_toList_lines, List.mem_append, List.mem_cons] at h
  rcases h with h | rfl | h | rfl | h | h
  · exact hheading line h
  · decide
  · obtain ⟨limb, -, rfl⟩ := List.mem_map.mp h
    exact hlimb limb
  · decide
  · obtain ⟨limb, -, rfl⟩ := List.mem_map.mp h
    exact hlimb limb
  · exact hending line h

/-- A rendered listing says the limbs of both factors. -/
theorem collect_lines (operands : Operands) :
    collect (numbered ((lines operands).map String.toList ++ [[]])) = .ok (owned operands) := by
  -- what stands in front of the label of A is one directive
  have hheading : ∀ rest, collectFrom [] none (numberedFrom 1 (heading.map String.toList ++ rest)) =
      collectFrom [] none (numberedFrom 5 rest) := by
    intro rest
    have hdirective : Line.ofRaw ".data".toList = some .directive := by decide
    rw [show heading.map String.toList ++ rest =
      "# Auto-generated 4096-bit values for simulator".toList :: [] :: ".data".toList :: [] :: rest
      from rfl, numberedFrom_cons_of_none (by decide), numberedFrom_cons_of_none rfl,
      numberedFrom_cons_of_some hdirective, collectFrom, numberedFrom_cons_of_none rfl]
  have hlabelA : Line.ofRaw ['A', ':'] = some (.label ['A']) := by decide
  have hlabelB : Line.ofRaw ['B', ':'] = some (.label ['B']) := by decide
  have hending : ∀ raw ∈ ending.map String.toList ++ [[]],
      (Line.ofRaw raw).any Line.isData = false := by decide
  rw [collect, show numbered _ = numberedFrom 1 _ from rfl, map_toList_lines]
  simp only [List.append_assoc, List.cons_append]
  rw [hheading, numberedFrom_cons_of_some hlabelA, collectFrom,
    show ownerOf ['A'] = some .a from rfl, collectFrom_dwordLines,
    numberedFrom_cons_of_some hlabelB, collectFrom, show ownerOf ['B'] = some .b from rfl,
    collectFrom_dwordLines, collectFrom_of_no_data hending]
  simp [owned]

/-- Reading a rendered listing gives back the factors. -/
theorem read_render (operands : Operands) : read (render operands) = .ok operands := by
  rw [read, toList_render, splitLines_flatMap fun _ => newline_not_mem, collect_lines]
  exact operandsOf_owned operands

end Listing

end WideMultiplier
