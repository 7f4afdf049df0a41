import Mathlib.Data.List.DropRight
import Mathlib.Logic.Function.Basic
import Mathlib.Logic.Relation
import WideMultiplier.Proofs.Listing.Literals

/-!
# Edited listings

A listing may be spaced, commented, spelled in capitals and broken into lines differently
(`Listing.Edit`). None of this changes what its lines state, which is all that the limbs depend on
(`Listing.toOption_collectFrom`), so a rendered listing still reads as its factors:
`Listing.read_of_edited`.
-/

namespace WideMultiplier

namespace Text

/-! ## Blanks around a text -/

/-- The text without the blanks that it ends in. -/
def trimRight (text : List Char) : List Char :=
  text.rdropWhile isBlank

/-- Whether all of a text is blank. -/
def AllBlank (text : List Char) : Prop :=
  ∀ c ∈ text, isBlank c = true

variable {blanks : List Char}

/-- Blanks in front do not count. -/
theorem trimLeft_append (hblanks : AllBlank blanks) (text : List Char) :
    trimLeft (blanks ++ text) = trimLeft text :=
  List.dropWhile_append_of_pos hblanks

/-- Blanks behind a text do not count. -/
theorem trimRight_append (hblanks : AllBlank blanks) (text : List Char) :
    trimRight (text ++ blanks) = trimRight text := by
  have hreverse : ∀ c ∈ blanks.reverse, isBlank c = true :=
    fun c hc => hblanks c (List.mem_reverse.mp hc)
  rw [trimRight, List.rdropWhile, List.reverse_append, List.dropWhile_append_of_pos hreverse]
  rfl

/-- What ends a text loses the blanks at its end, and what stands before it does if nothing is left
of it. -/
theorem trimRight_append_eq (front text : List Char) :
    trimRight (front ++ text) =
      if trimRight text = [] then trimRight front else front ++ trimRight text := by
  rw [trimRight, trimRight, trimRight, List.rdropWhile, List.rdropWhile, List.rdropWhile,
    List.reverse_append, List.dropWhile_append]
  simp only [List.isEmpty_iff, List.reverse_eq_nil_iff]
  split
  · rfl
  · rw [List.reverse_append, List.reverse_reverse]

/-- Trimming is trimming the front and then the end. -/
theorem trim_eq (text : List Char) : trim text = trimRight (trimLeft text) :=
  rfl

/-- Blanks around a text do not count. -/
theorem trim_blanks_append (hblanks : AllBlank blanks) (text : List Char) :
    trim (blanks ++ text) = trim text := by
  rw [trim_eq, trimLeft_append hblanks, ← trim_eq]

theorem trim_append_blanks (hblanks : AllBlank blanks) (text : List Char) :
    trim (text ++ blanks) = trim text := by
  have hfront : trimLeft (text ++ blanks) = [] ∧ trimLeft text = [] ∨
      trimLeft (text ++ blanks) = trimLeft text ++ blanks := by
    rw [trimLeft, List.dropWhile_append]
    split
    · next hempty =>
        refine .inl ⟨List.dropWhile_eq_nil_iff.mpr hblanks, List.isEmpty_iff.mp hempty⟩
    · exact .inr rfl
  rcases hfront with ⟨hboth, htext⟩ | hboth
  · rw [trim_eq, trim_eq, hboth, htext]
  · rw [trim_eq, trim_eq, hboth, trimRight_append hblanks]

/-- No blank begins a comment. -/
theorem takeWhile_append (hblanks : AllBlank blanks) (text : List Char) :
    (blanks ++ text).takeWhile (fun c => c != '#') =
      blanks ++ text.takeWhile (fun c => c != '#') := by
  refine List.takeWhile_append_of_pos fun c hc => ?_
  rw [bne_iff_ne]
  rintro rfl
  cases hblanks '#' hc

/-- No letter is a blank in one case only. -/
theorem isBlank_toLower (c : Char) : isBlank c.toLower = isBlank c :=
  apply_toLower isBlank (by decide) c

theorem trimLeft_map_toLower (text : List Char) :
    trimLeft (text.map Char.toLower) = (trimLeft text).map Char.toLower := by
  rw [trimLeft, List.dropWhile_map, show isBlank ∘ Char.toLower = isBlank from
    funext isBlank_toLower]
  rfl

theorem trimRight_map_toLower (text : List Char) :
    trimRight (text.map Char.toLower) = (trimRight text).map Char.toLower := by
  rw [trimRight, List.rdropWhile, ← List.map_reverse, ← trimLeft, trimLeft_map_toLower,
    ← List.map_reverse]
  rfl

end Text

namespace Listing

open Text (AllBlank)

/-! ## Edits -/

/-- Whether a text is spaces and tabs. -/
def IsSpacing (text : List Char) : Prop :=
  ∀ c ∈ text, c = ' ' ∨ c = '\t'

/-- The edits of a line that do not change what it states. -/
inductive LineEdit : List Char → List Char → Prop where
  /-- Spaces and tabs in front. -/
  | before (raw : List Char) {spacing : List Char} (h : IsSpacing spacing) :
      LineEdit raw (spacing ++ raw)
  /-- Spaces and tabs at the end. -/
  | behind (raw : List Char) {spacing : List Char} (h : IsSpacing spacing) :
      LineEdit raw (raw ++ spacing)
  /-- Spaces and tabs between the keyword of a data line and its literal. -/
  | between {front gap spacing : List Char} (rest : List Char) (hfront : AllBlank front)
      (hgap : AllBlank gap) (h : IsSpacing spacing) :
      LineEdit (front ++ (keyword ++ (gap ++ rest)))
        (front ++ (keyword ++ (gap ++ (spacing ++ rest))))
  /-- A comment at the end. -/
  | comment (raw : List Char) {text : List Char} (h : '\n' ∉ text) :
      LineEdit raw (raw ++ '#' :: text)
  /-- Letters behind the keyword of a data line in another case. -/
  | letters {front rest other : List Char} (hfront : AllBlank front)
      (h : other.map Char.toLower = rest.map Char.toLower) :
      LineEdit (front ++ (keyword ++ rest)) (front ++ (keyword ++ other))

/-- The edits of a listing, as a list of lines, that do not change what it states. -/
inductive Edit : List (List Char) → List (List Char) → Prop where
  /-- An edit of one line. -/
  | line (front back : List (List Char)) {raw other : List Char} (h : LineEdit raw other) :
      Edit (front ++ raw :: back) (front ++ other :: back)
  /-- A further line that is blank, or blank before a comment. -/
  | insert (front back : List (List Char)) {blanks comment : List Char} (hblanks : AllBlank blanks)
      (hcomment : ∀ c ∈ comment.head?, c = '#') (hline : '\n' ∉ blanks ++ comment) :
      Edit (front ++ back) (front ++ (blanks ++ comment) :: back)
  /-- A carriage return before a line break. -/
  | carriage (front back : List (List Char)) (raw next : List Char) :
      Edit (front ++ raw :: next :: back) (front ++ (raw ++ ['\r']) :: next :: back)
  /-- No line break at the end. -/
  | final (lines : List (List Char)) : Edit (lines ++ [[]]) lines

/-- Whether a text is another one after some edits. -/
def Edited (first second : String) : Prop :=
  Relation.ReflTransGen Edit (splitLines first.toList) (splitLines second.toList)

/-! ## What lines state -/

/-- What a line states to a reader who does not ask for its number or its spelling. -/
inductive Statement where
  /-- The data lines behind this one belong to a factor, or to none. -/
  | head (owner : Option Operand)
  /-- A limb, or a literal that writes none. -/
  | limb (value : Option Limb)

/-- What a line states. -/
def Line.statement : Line → Statement
  | .label name => .head (ownerOf name)
  | .data literal => .limb (readLiteral literal)
  | .directive => .head none

/-- What a line states, if it says anything. -/
def statement (raw : List Char) : Option Statement :=
  (Line.ofRaw raw).map Line.statement

/-- The limbs of both factors in the order of their lines, given the factor that the first limb
belongs to. -/
def stated : Option Operand → List Statement → Option (List (Operand × Limb))
  | _, [] => some []
  | _, .head owner :: rest => stated owner rest
  | none, .limb _ :: rest => stated none rest
  | some owner, .limb value :: rest =>
    match value with
    | none => none
    | some limb => (stated (some owner) rest).map ((owner, limb) :: ·)

/-- The limbs that are collected are those that the lines state. -/
theorem toOption_collectFrom (taken : List (Operand × Limb)) (owner : Option Operand)
    (number : Nat) (lines : List (List Char)) :
    (collectFrom taken owner (numberedFrom number lines)).toOption =
      (stated owner (lines.filterMap statement)).map (taken.reverse ++ ·) := by
  induction lines generalizing taken owner number with
  | nil => simp [numberedFrom, collectFrom, stated, Except.toOption]
  | cons raw rest ih =>
      cases hline : Line.ofRaw raw with
      | none =>
          have hstates : statement raw = none := by rw [statement, hline]; rfl
          rw [numberedFrom_cons_of_none hline, ih, List.filterMap_cons_none hstates]
      | some line =>
          have hstates : statement raw = some line.statement := by rw [statement, hline]; rfl
          rw [numberedFrom_cons_of_some hline, List.filterMap_cons_some hstates]
          cases line with
          | label name => exact ih taken (ownerOf name) (number + 1)
          | directive => exact ih taken none (number + 1)
          | data literal =>
              cases owner with
              | none => exact ih taken none (number + 1)
              | some owner =>
                  simp only [collectFrom, Line.statement, stated]
                  cases readLiteral literal with
                  | none => rfl
                  | some limb =>
                      dsimp only
                      rw [ih, Option.map_map]
                      refine congrArg (Option.map · _) (funext fun limbs => ?_)
                      simp

/-- Texts whose lines state the same read as the same factors, or both as none. -/
theorem toOption_read_congr {first second : String}
    (h : (splitLines first.toList).filterMap statement =
      (splitLines second.toList).filterMap statement) :
    (read first).toOption = (read second).toOption := by
  have hread : ∀ text : String, (read text).toOption =
      (stated none ((splitLines text.toList).filterMap statement)).bind
        fun limbs => (operandsOf limbs).toOption := by
    intro text
    have hcollect := toOption_collectFrom [] none 1 (splitLines text.toList)
    rw [List.reverse_nil, show (fun limbs : List (Operand × Limb) => [] ++ limbs) = id from rfl,
      Option.map_id_apply] at hcollect
    rw [← hcollect, read, collect, show numbered _ = numberedFrom 1 _ from rfl]
    cases collectFrom [] none (numberedFrom 1 (splitLines text.toList)) with
    | error fault => rfl
    | ok limbs => rfl
  rw [hread, hread, h]

/-! ## Edits of a line -/

section

variable {blanks : List Char}

/-- Blanks in front of a line do not count. -/
theorem content_append (hblanks : AllBlank blanks) (raw : List Char) :
    content (blanks ++ raw) = content raw := by
  rw [content, Text.takeWhile_append hblanks, Text.trim_blanks_append hblanks]
  rfl

/-- Neither do blanks and a comment at its end. -/
theorem content_append_comment (hblanks : AllBlank blanks) (raw : List Char) {comment : List Char}
    (hcomment : ∀ c ∈ comment.head?, c = '#') :
    content (raw ++ (blanks ++ comment)) = content raw := by
  have hend : (blanks ++ comment).takeWhile (fun c => c != '#') = blanks := by
    rw [Text.takeWhile_append hblanks]
    cases comment with
    | nil => simp
    | cons c rest => simp [hcomment c rfl]
  rw [content, content, List.takeWhile_append, hend]
  split
  · next hwhole =>
      have hraw : raw.takeWhile (fun c => c != '#') = raw :=
        (List.takeWhile_prefix _).eq_of_length hwhole
      rw [Text.trim_append_blanks hblanks, hraw]
  · rfl

/-- Blanks at the end of a line do not count. -/
theorem content_append_blanks (hblanks : AllBlank blanks) (raw : List Char) :
    content (raw ++ blanks) = content raw := by
  have hnone : ∀ c ∈ ([] : List Char).head?, c = '#' := nofun
  have hend := content_append_comment hblanks raw hnone
  rwa [List.append_nil] at hend

end

/-- Lines with the same content state the same. -/
theorem statement_congr {first second : List Char} (h : content first = content second) :
    statement first = statement second := by
  rw [statement, statement, Line.ofRaw, Line.ofRaw, h]

/-- What a data line states, from what stands between its keyword and a comment. -/
def statementOf (body : List Char) : Statement :=
  if (Text.trimRight body).getLast? = some ':' then .head none
  else .limb (readLiteral (Text.trim (Text.trimRight body)))

/-- A line that begins with the keyword states what stands between it and a comment. -/
theorem statement_keyword {front : List Char} (hfront : AllBlank front) (rest : List Char) :
    statement (front ++ (keyword ++ rest)) =
      some (statementOf (rest.takeWhile fun c => c != '#')) := by
  have hcontent : content (front ++ (keyword ++ rest)) =
      keyword ++ Text.trimRight (rest.takeWhile fun c => c != '#') := by
    have hkeyword : ∀ c ∈ keyword, (c != '#') = true := List.all_eq_true.mp rfl
    rw [content_append hfront, content, List.takeWhile_append_of_pos hkeyword]
    generalize rest.takeWhile (fun c => c != '#') = body
    have hfirst : Text.trimLeft (keyword ++ body) = keyword ++ body :=
      Text.trimLeft_eq_self (by rintro c ⟨⟩; decide)
    rw [Text.trim_eq, hfirst, Text.trimRight_append_eq]
    split
    · next hnil =>
        rw [hnil]
        decide
    · rfl
  have hlabel : ∀ right : List Char, (keyword ++ right).getLast? = some ':' ↔
      right.getLast? = some ':' := by
    intro right
    rw [List.getLast?_append]
    cases right.getLast? with
    | none => decide
    | some c => rfl
  rw [statement, Line.ofRaw, hcontent, statementOf]
  generalize Text.trimRight (rest.takeWhile fun c => c != '#') = right
  rw [if_neg (by simp [keyword]), Option.map_some, Line.ofText]
  by_cases hcolon : right.getLast? = some ':'
  · -- a label that begins with the keyword is that of no factor
    have hname : (keyword ++ right).dropLast = keyword ++ right.dropLast :=
      List.dropLast_append_of_ne_nil (by rintro rfl; cases hcolon)
    rw [if_pos ((hlabel right).mpr hcolon), if_pos hcolon, hname]
    rfl
  · have hbegin : keyword.isPrefixOf (keyword ++ right) = true :=
      List.isPrefixOf_iff_prefix.mpr (List.prefix_append _ _)
    rw [if_neg fun hlast => hcolon ((hlabel right).mp hlast), if_neg hcolon, if_pos hbegin,
      List.drop_left]
    rfl

/-- Blanks behind the keyword do not count. -/
theorem statementOf_append {blanks : List Char} (hblanks : AllBlank blanks) (body : List Char) :
    statementOf (blanks ++ body) = statementOf body := by
  have hnone : Text.trimRight blanks = [] := Text.trimRight_append hblanks []
  rw [statementOf, statementOf, Text.trimRight_append_eq, hnone]
  by_cases hbody : Text.trimRight body = []
  · rw [if_pos hbody, hbody]
  · rw [if_neg hbody, Text.trim_blanks_append hblanks, List.getLast?_append]
    obtain ⟨c, hc⟩ := Option.ne_none_iff_exists'.mp (mt List.getLast?_eq_none_iff.mp hbody)
    rw [hc]
    rfl

/-- Neither does the case of the letters there. -/
theorem statementOf_map_toLower (body : List Char) :
    statementOf (body.map Char.toLower) = statementOf body := by
  have hcolon : ∀ text : List Char, (text.map Char.toLower).getLast? = some ':' ↔
      text.getLast? = some ':' := by
    intro text
    rw [List.getLast?_map]
    cases text.getLast? with
    | none => exact Iff.rfl
    | some c =>
        have hview := Text.apply_toLower (· == ':') (by decide) c
        simpa using hview
  have htrim : ∀ text : List Char, Text.trim (text.map Char.toLower) =
      (Text.trim text).map Char.toLower := by
    intro text
    rw [Text.trim_eq, Text.trimLeft_map_toLower, Text.trimRight_map_toLower, ← Text.trim_eq]
  rw [statementOf, statementOf, Text.trimRight_map_toLower, htrim, readLiteral_map_toLower]
  simp only [hcolon]

/-- Spaces and tabs are blanks. -/
theorem IsSpacing.allBlank {text : List Char} (h : IsSpacing text) : AllBlank text := by
  intro c hc
  rcases h c hc with rfl | rfl
  · rfl
  · rfl

/-- An edit of a line does not change what it states. -/
theorem LineEdit.statement_eq {raw other : List Char} (h : LineEdit raw other) :
    statement other = statement raw := by
  cases h with
  | before raw hspacing => exact statement_congr (content_append hspacing.allBlank raw)
  | behind raw hspacing => exact statement_congr (content_append_blanks hspacing.allBlank raw)
  | @comment raw text hline =>
      have hblanks : AllBlank [] := nofun
      exact statement_congr (content_append_comment hblanks raw (by simp))
  | @between front gap spacing rest hfront hgap hspacing =>
      have hspaces := hspacing.allBlank
      rw [statement_keyword hfront, statement_keyword hfront, Text.takeWhile_append hgap,
        Text.takeWhile_append hgap, Text.takeWhile_append hspaces, statementOf_append hgap,
        statementOf_append hgap, statementOf_append hspaces]
  | @letters front rest other hfront hcase =>
      have hbody : ∀ text : List Char,
          statementOf ((text.map Char.toLower).takeWhile fun c => c != '#') =
            statementOf (text.takeWhile fun c => c != '#') := by
        intro text
        have hview : (fun c => c != '#') ∘ Char.toLower = fun c => c != '#' :=
          funext fun c => Text.apply_toLower (fun c => c != '#') (by decide) c
        rw [List.takeWhile_map, hview, statementOf_map_toLower]
      rw [statement_keyword hfront, statement_keyword hfront, ← hbody other, hcase, hbody]

/-! ## Edits of a listing -/

/-- One line for another that states the same. -/
theorem filterMap_statement_congr (front back : List (List Char)) {raw other : List Char}
    (h : statement other = statement raw) :
    (front ++ other :: back).filterMap statement =
      (front ++ raw :: back).filterMap statement := by
  rw [List.filterMap_append, List.filterMap_append, List.filterMap_cons, List.filterMap_cons, h]

/-- An edit does not change what the lines of a listing state. -/
theorem Edit.filterMap_statement {first second : List (List Char)} (h : Edit first second) :
    second.filterMap statement = first.filterMap statement := by
  have hempty : statement [] = none := rfl
  cases h with
  | line front back hedit => exact filterMap_statement_congr front back hedit.statement_eq
  | @insert front back blanks comment hblanks hcomment hline =>
      have hsilent : statement (blanks ++ comment) = none := by
        rw [← hempty]
        exact statement_congr (content_append_comment hblanks [] hcomment)
      rw [List.filterMap_append, List.filterMap_append, List.filterMap_cons_none hsilent]
  | carriage front back raw next =>
      have hreturn : AllBlank ['\r'] := List.all_eq_true.mp rfl
      exact filterMap_statement_congr front (next :: back)
        (statement_congr (content_append_blanks hreturn raw))
  | final =>
      rw [List.filterMap_append, List.filterMap_cons_none hempty, List.filterMap_nil,
        List.append_nil]

/-- Edits do not change what is read, if anything is. -/
theorem toOption_read_of_edited {first second : String} (h : Edited first second) :
    (read second).toOption = (read first).toOption := by
  refine toOption_read_congr ?_
  unfold Edited at h
  generalize splitLines second.toList = lines at h
  induction h with
  | refl => rfl
  | tail _ hedit ih => rw [hedit.filterMap_statement, ih]

/-- However a rendered listing is spaced, commented, spelled in capitals and broken into lines, it
reads as its factors. So different factors are rendered differently. -/
theorem read_of_edited :
    (∀ (operands : Operands) (text : String), Edited (render operands) text →
      read text = .ok operands) ∧
      (∀ operands, read (render operands) = .ok operands) ∧ Function.Injective render := by
  refine ⟨fun operands text hedited => ?_, read_render, fun first second hsame => ?_⟩
  · have hread := toOption_read_of_edited hedited
    rw [read_render] at hread
    cases hresult : read text with
    | error fault =>
        rw [hresult] at hread
        cases hread
    | ok result =>
        rw [hresult] at hread
        exact congrArg Except.ok (Option.some.inj hread)
  · have hread := read_render first
    rw [hsame, read_render] at hread
    exact (Except.ok.inj hread).symm

/-- The line that declares a limb, from what stands behind its keyword. -/
def dataLine (rest : List Char) : List Char :=
  "    ".toList ++ (keyword ++ ([' '] ++ rest))

/-- The label of A behind a tab, with a comment and a carriage return. -/
def relaidLabel : List Char :=
  (['\t'] ++ ['A', ':'] ++ '#' :: " first".toList) ++ ['\r']

/-- Lines around the first limb of A in another layout: a comment on top, the label with its own, a
tab and a capital in the literal, and no line break at the end. -/
def relaid (front back : List (List Char)) (digits : List Char) : List (List Char) :=
  ([' '] ++ "# relaid".toList) ::
    (front ++ relaidLabel :: dataLine (['\t'] ++ '0' :: 'X' :: digits) :: back)

/-- Lines become those in the other layout edit by edit. -/
theorem edits_relaid (front back : List (List Char)) (digits : List Char) :
    Relation.ReflTransGen Edit
      (front ++ ['A', ':'] :: dataLine ('0' :: 'x' :: digits) :: (back ++ [[]]))
      (relaid front back digits) := by
  have htab : IsSpacing ['\t'] := List.forall_mem_singleton.mpr (.inr rfl)
  have hindent : AllBlank "    ".toList := List.all_eq_true.mp rfl
  have hspace : AllBlank [' '] := List.all_eq_true.mp rfl
  have hfinal : ∀ label limb, Edit (front ++ label :: limb :: (back ++ [[]]))
      (front ++ label :: limb :: back) := by
    intro label limb
    have hlines := Edit.final (front ++ label :: limb :: back)
    rwa [List.append_assoc] at hlines
  have hlabel : ∀ limb, Relation.ReflTransGen Edit (front ++ ['A', ':'] :: limb :: back)
      (front ++ relaidLabel :: limb :: back) := by
    intro limb
    have hcomment : '\n' ∉ " first".toList := by decide
    exact .tail (.tail (.single (.line front _ (.before _ htab)))
      (.line front _ (.comment _ hcomment))) (.carriage front back _ limb)
  have hlimb : ∀ lines, Relation.ReflTransGen Edit
      (lines ++ dataLine ('0' :: 'x' :: digits) :: back)
      (lines ++ dataLine (['\t'] ++ '0' :: 'X' :: digits) :: back) := by
    intro lines
    have hcase : ([' '] ++ (['\t'] ++ '0' :: 'X' :: digits)).map Char.toLower =
        ([' '] ++ (['\t'] ++ '0' :: 'x' :: digits)).map Char.toLower := rfl
    exact .tail (.single (.line lines back (.between _ hindent hspace htab)))
      (.line lines back (.letters hindent hcase))
  have htop : ∀ lines, Edit lines (([' '] ++ "# relaid".toList) :: lines) := by
    intro lines
    exact .insert [] lines hspace (by rintro c ⟨⟩; rfl) (by decide)
  have hboth := Relation.ReflTransGen.head (hfinal _ _) (hlabel (dataLine ('0' :: 'x' :: digits)))
  rw [List.append_cons front relaidLabel] at hboth
  rw [relaid, List.append_cons front relaidLabel]
  exact .tail (hboth.trans (hlimb _)) (htop _)

/-- The rest of a listing of zeros, behind its first limb. -/
def zeros : List (List Char) :=
  List.replicate 63 (dwordLine 0).toList ++
    ['B', ':'] :: (List.replicate 64 (dwordLine 0).toList ++ ending.map String.toList)

/-- In the other layout too, a listing of zeros reads as zeros. -/
theorem read_of_edited_zeros :
    ∃ text : String, splitLines text.toList =
        relaid (heading.map String.toList) zeros (Text.hexLimb 0).toList ∧
      read text = .ok .zero := by
  have hlines : splitLines (render .zero).toList =
      heading.map String.toList ++ ['A', ':'] :: dataLine ('0' :: 'x' :: (Text.hexLimb 0).toList) ::
        (zeros ++ [[]]) := by
    have hlimbs : (Vector.replicate operandLimbs (0 : Limb)).toList.map
        (fun limb => (dwordLine limb).toList) = List.replicate 64 (dwordLine 0).toList := by
      rw [Vector.toList_replicate, List.map_replicate]
    have hfirst : (dwordLine 0).toList = dataLine ('0' :: 'x' :: (Text.hexLimb 0).toList) :=
      toList_dwordLine 0
    rw [toList_render, splitLines_flatMap fun _ => newline_not_mem, map_toList_lines,
      show Operands.zero.a = Vector.replicate operandLimbs 0 from rfl,
      show Operands.zero.b = Vector.replicate operandLimbs 0 from rfl, hlimbs, ← hfirst, zeros]
    simp only [List.replicate_succ, List.cons_append, List.append_assoc]
  have htext : splitLines (String.ofList (['\n'].intercalate
      (relaid (heading.map String.toList) zeros (Text.hexLimb 0).toList))).toList =
        relaid (heading.map String.toList) zeros (Text.hexLimb 0).toList := by
    rw [String.toList_ofList]
    exact List.splitOn_intercalate _ (by decide +kernel) (List.cons_ne_nil _ _)
  refine ⟨_, htext, read_of_edited.1 .zero _ ?_⟩
  rw [Edited, hlines, htext]
  exact edits_relaid _ _ _

end Listing

end WideMultiplier
