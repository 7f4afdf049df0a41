import Mathlib.Data.List.Forall2
import Mathlib.Data.List.GetD
import WideMultiplier.Proofs.Listing.Literals

/-!
# What a listing says

`Listing.Reads` says what is read from the lines of a text, without going through them one by one: a
data line belongs to the factor whose label is the last head before it (`Listing.Owns`), the first
literal of such a line that writes no limb is a fault, and so is a factor that has not 64 of them.
The reader carries the owner of the next data line along (`Listing.ownerBefore_eq_some_iff`), and
comes to the same result for every text: `Listing.read_eq_iff`.
-/

namespace WideMultiplier.Listing

/-! ## The lines of a factor -/

/-- The line with an index, without its comment and without blanks at its ends. -/
def contentAt (lines : List (List Char)) (index : Nat) : List Char :=
  content (lines.getD index [])

/-- Whether a line is a label. -/
def IsLabel (text : List Char) : Prop :=
  text.getLast? = some ':'

/-- Whether a line is a data line. -/
def IsData (text : List Char) : Prop :=
  ¬ IsLabel text ∧ keyword <+: text

/-- Whether a line is a head: it says something, and is no data line. -/
def IsHead (text : List Char) : Prop :=
  text ≠ [] ∧ ¬ IsData text

/-- The label of a factor. -/
def labelOf (operand : Operand) : List Char :=
  operand.name.toList ++ [':']

/-- Whether the last head before a line is the label of a factor. -/
def Heads (lines : List (List Char)) (operand : Operand) (index : Nat) : Prop :=
  ∃ head < index, contentAt lines head = labelOf operand ∧
    ∀ between < index, head < between → ¬ IsHead (contentAt lines between)

/-- Whether a line is a data line of a factor. -/
def Owns (lines : List (List Char)) (operand : Operand) (index : Nat) : Prop :=
  IsData (contentAt lines index) ∧ Heads lines operand index

/-- The literal of a data line. -/
def literalAt (lines : List (List Char)) (index : Nat) : List Char :=
  Text.trim ((contentAt lines index).drop keyword.length)

/-- What kinds of lines there are, and what is read of them. -/
inductive LineCase (raw : List Char) : Prop where
  | silent (hcontent : content raw = []) (hline : Line.ofRaw raw = none)
  | label (name : List Char) (hcontent : content raw = name ++ [':'])
      (hline : Line.ofRaw raw = some (.label name))
  | data (hdata : IsData (content raw))
      (hline : Line.ofRaw raw = some (.data (Text.trim ((content raw).drop keyword.length))))
  | directive (hhead : IsHead (content raw)) (hlabel : ¬ IsLabel (content raw))
      (hline : Line.ofRaw raw = some .directive)

theorem line_case (raw : List Char) : LineCase raw := by
  by_cases hcontent : content raw = []
  · exact .silent hcontent (if_pos (by rw [hcontent]; rfl))
  · have hraw : Line.ofRaw raw = some (.ofText (content raw)) :=
      if_neg (by simpa using hcontent)
    by_cases hlabel : IsLabel (content raw)
    · obtain ⟨name, hname⟩ := List.getLast?_eq_some_iff.mp hlabel
      have htext : Line.ofText (content raw) = .label (content raw).dropLast := if_pos hlabel
      refine .label name hname ?_
      rw [hraw, htext, hname, List.dropLast_concat]
    · have htext : Line.ofText (content raw) =
          if keyword.isPrefixOf (content raw) then
            .data (Text.trim ((content raw).drop keyword.length))
          else .directive := if_neg hlabel
      by_cases hkeyword : keyword <+: content raw
      · refine .data ⟨hlabel, hkeyword⟩ ?_
        rw [hraw, htext, if_pos (List.isPrefixOf_iff_prefix.mpr hkeyword)]
      · refine .directive ⟨hcontent, fun hdata => hkeyword hdata.2⟩ hlabel ?_
        rw [hraw, htext, if_neg fun hbegins => hkeyword (List.isPrefixOf_iff_prefix.mp hbegins)]

/-- A line that says nothing is no data line. -/
theorem not_isData_nil : ¬ IsData [] := by
  rintro ⟨-, hkeyword⟩
  cases List.prefix_nil.mp hkeyword

/-- A label is a head. -/
theorem isHead_label (name : List Char) : IsHead (name ++ [':']) :=
  ⟨List.append_ne_nil_of_right_ne_nil _ (List.cons_ne_nil _ _),
    fun hdata => hdata.1 List.getLast?_concat⟩

/-- Behind a line, the last head is that line or the last one before it. -/
theorem heads_succ {lines : List (List Char)} {operand : Operand} {index : Nat} :
    Heads lines operand (index + 1) ↔
      contentAt lines index = labelOf operand ∨
        ¬ IsHead (contentAt lines index) ∧ Heads lines operand index := by
  constructor
  · rintro ⟨head, hhead, hlabel, hbetween⟩
    rcases Nat.lt_succ_iff_lt_or_eq.mp hhead with hbefore | rfl
    · exact .inr ⟨hbetween index (Nat.lt_succ_self _) hbefore, head, hbefore, hlabel,
        fun between hlt => hbetween between (Nat.lt_succ_of_lt hlt)⟩
    · exact .inl hlabel
  · rintro (hlabel | ⟨hsilent, head, hhead, hlabel, hbetween⟩)
    · exact ⟨index, Nat.lt_succ_self _, hlabel, fun between hlt hgt => absurd hgt (by omega)⟩
    · refine ⟨head, Nat.lt_succ_of_lt hhead, hlabel, fun between hlt hgt => ?_⟩
      rcases Nat.lt_succ_iff_lt_or_eq.mp hlt with hbefore | rfl
      · exact hbetween between hbefore hgt
      · exact hsilent

/-! ## The owner that the reader carries along -/

/-- The owner of the data lines behind a line, given the owner of those before it. -/
def ownerAfter (owner : Option Operand) (raw : List Char) : Option Operand :=
  match Line.ofRaw raw with
  | none | some (.data _) => owner
  | some (.label name) => ownerOf name
  | some .directive => none

/-- The owner of the data lines behind so many lines. -/
def ownerBefore (lines : List (List Char)) : Nat → Option Operand
  | 0 => none
  | index + 1 => ownerAfter (ownerBefore lines index) (lines.getD index [])

/-- A label stands for the factor whose label it is. -/
theorem ownerOf_eq_some_iff {name : List Char} {operand : Operand} :
    ownerOf name = some operand ↔ name ++ [':'] = labelOf operand := by
  have hname : ownerOf name = some operand ↔ name = operand.name.toList := by
    cases operand with
    | a => by_cases hA : name = ['A'] <;> simp [ownerOf, hA, Operand.name]
    | b => by_cases hA : name = ['A'] <;> simp [ownerOf, hA, Operand.name]
  rw [hname, labelOf, List.append_left_inj]

/-- The owner that the reader carries along is the factor whose label is the last head. -/
theorem ownerBefore_eq_some_iff {lines : List (List Char)} {operand : Operand} {index : Nat} :
    ownerBefore lines index = some operand ↔ Heads lines operand index := by
  induction index with
  | zero => simp [ownerBefore, Heads]
  | succ index ih =>
      rw [heads_succ, ← ih, ownerBefore, ownerAfter, contentAt]
      have hlabelOf : IsLabel (labelOf operand) := List.getLast?_concat
      cases line_case (lines.getD index []) with
      | silent hcontent hline =>
          rw [hline, hcontent]
          simp [IsHead, labelOf]
      | label name hcontent hline =>
          rw [hline, hcontent]
          simp [isHead_label, ownerOf_eq_some_iff]
      | data hdata hline =>
          have hother : content (lines.getD index []) ≠ labelOf operand := by
            intro hsame
            rw [hsame] at hdata
            exact hdata.1 hlabelOf
          rw [hline]
          simp only [IsHead, hdata, hother, not_true_eq_false, and_false, not_false_eq_true,
            true_and, false_or]
      | directive hhead hlabel hline =>
          have hother : content (lines.getD index []) ≠ labelOf operand := by
            intro hsame
            rw [hsame] at hlabel
            exact hlabel hlabelOf
          rw [hline]
          simp only [hhead, hother, not_true_eq_false, false_and, or_false, reduceCtorEq]

instance (text : List Char) : Decidable (IsLabel text) :=
  inferInstanceAs (Decidable (text.getLast? = some ':'))

instance (text : List Char) : Decidable (IsData text) :=
  inferInstanceAs (Decidable (_ ∧ _))

instance (lines : List (List Char)) (operand : Operand) (index : Nat) :
    Decidable (Owns lines operand index) :=
  haveI : Decidable (Heads lines operand index) := decidable_of_iff _ ownerBefore_eq_some_iff
  inferInstanceAs (Decidable (_ ∧ _))

/-! ## What is read -/

/-- The data lines of a factor, in order. -/
def ownedLines (lines : List (List Char)) (operand : Operand) : List Nat :=
  (List.range lines.length).filter fun index => Owns lines operand index

/-- Whether a line has a literal that writes a limb, if it is a data line of a factor. -/
def Readable (lines : List (List Char)) (index : Nat) : Prop :=
  ∀ operand, Owns lines operand index → ∃ limb, Writes (literalAt lines index) limb

/-- What is read from some lines. -/
inductive Reads (lines : List (List Char)) : Except ListingFault Operands → Prop where
  /-- The first data line of a factor whose literal writes no limb is a fault, however many limbs
  the factors have. Lines count from one. -/
  | malformed {index : Nat} (hfirst : ∀ earlier < index, Readable lines earlier)
      (hbad : ¬ Readable lines index) :
      Reads lines (.error
        (.invalidDword (index + 1) (String.ofList (literalAt lines index))))
  /-- A factor that has not 64 data lines is a fault, A before B. -/
  | miscounted {operand : Operand} (hreadable : ∀ index, Readable lines index)
      (hcount : (ownedLines lines operand).length ≠ operandLimbs)
      (hother : operand = .b → (ownedLines lines .a).length = operandLimbs) :
      Reads lines (.error
        (.limbCount operand operandLimbs (ownedLines lines operand).length))
  /-- Otherwise the literals write the limbs of the factors in order. -/
  | complete {operands : Operands} (hreadable : ∀ index, Readable lines index)
      (hA : List.Forall₂ Writes ((ownedLines lines .a).map (literalAt lines)) operands.a.toList)
      (hB : List.Forall₂ Writes ((ownedLines lines .b).map (literalAt lines)) operands.b.toList) :
      Reads lines (.ok operands)

section

variable {lines : List (List Char)}

/-- A line belongs to one factor at most. -/
theorem Owns.unique {first second : Operand} {index : Nat} (hfirst : Owns lines first index)
    (hsecond : Owns lines second index) : first = second := by
  have hsame := (ownerBefore_eq_some_iff.mpr hfirst.2).symm.trans
    (ownerBefore_eq_some_iff.mpr hsecond.2)
  exact Option.some.inj hsame

/-- A literal writes one limb at most. -/
theorem Writes.unique {literal : List Char} {first second : Limb} (hfirst : Writes literal first)
    (hsecond : Writes literal second) : first = second :=
  Option.some.inj ((readLiteral_eq_some_iff.mpr hfirst).symm.trans
    (readLiteral_eq_some_iff.mpr hsecond))

/-! ## The reader -/

/-- The data lines of a factor from an index on. -/
def ownedFrom (lines : List (List Char)) (index : Nat) (operand : Operand) : List Nat :=
  (List.range' index (lines.length - index)).filter fun index => Owns lines operand index

/-- What the reader makes of the lines from an index on, given the limbs that it took before. -/
inductive Collects (lines : List (List Char)) (index : Nat) (taken : List (Operand × Limb)) :
    Except ListingFault (List (Operand × Limb)) → Prop where
  | malformed {bad : Nat} (hle : index ≤ bad)
      (hfirst : ∀ earlier < bad, index ≤ earlier → Readable lines earlier)
      (hbad : ¬ Readable lines bad) :
      Collects lines index taken (.error
        (.invalidDword (bad + 1) (String.ofList (literalAt lines bad))))
  | complete {limbs : List (Operand × Limb)}
      (hreadable : ∀ later, index ≤ later → Readable lines later)
      (hlimbs : ∀ operand, List.Forall₂ Writes
        ((ownedFrom lines index operand).map (literalAt lines)) (limbsOf operand limbs)) :
      Collects lines index taken (.ok (taken.reverse ++ limbs))

variable {index : Nat} {taken : List (Operand × Limb)}
  {result : Except ListingFault (List (Operand × Limb))}

/-- The data lines of a factor from an index on begin with the one at the index, if it is one. -/
theorem ownedFrom_eq (hindex : index < lines.length) (operand : Operand) :
    ownedFrom lines index operand =
      if Owns lines operand index then index :: ownedFrom lines (index + 1) operand
      else ownedFrom lines (index + 1) operand := by
  have hlength : lines.length - index = (lines.length - (index + 1)) + 1 := by omega
  rw [ownedFrom, hlength, List.range'_succ, List.filter_cons]
  simp only [decide_eq_true_eq]
  rfl

/-- What the reader makes of the lines behind an index it makes of those from the index on, when the
line there is readable and the limbs behind it are taken as well. -/
theorem Collects.of_succ {next : List (Operand × Limb)}
    (h : Collects lines (index + 1) next result) (hreadable : Readable lines index)
    (htaken : ∀ limbs,
      (∀ operand, List.Forall₂ Writes
        ((ownedFrom lines (index + 1) operand).map (literalAt lines)) (limbsOf operand limbs)) →
      ∃ more, next.reverse ++ limbs = taken.reverse ++ more ∧
        ∀ operand, List.Forall₂ Writes
          ((ownedFrom lines index operand).map (literalAt lines)) (limbsOf operand more)) :
    Collects lines index taken result := by
  cases h with
  | malformed hle hfirst hbad =>
      refine .malformed (Nat.le_of_succ_le hle) (fun earlier hlt hge => ?_) hbad
      rcases Nat.eq_or_lt_of_le hge with rfl | hgt
      · exact hreadable
      · exact hfirst earlier hlt hgt
  | complete hlater hlimbs =>
      obtain ⟨more, hsame, hmore⟩ := htaken _ hlimbs
      rw [hsame]
      refine .complete (fun later hge => ?_) hmore
      rcases Nat.eq_or_lt_of_le hge with rfl | hgt
      · exact hreadable
      · exact hlater later hgt

/-- A line that belongs to no factor is passed over. -/
theorem Collects.skip (h : Collects lines (index + 1) taken result) (hindex : index < lines.length)
    (howns : ∀ operand, ¬ Owns lines operand index) : Collects lines index taken result := by
  refine h.of_succ (fun operand hown => absurd hown (howns operand)) fun limbs hlimbs => ?_
  refine ⟨limbs, rfl, fun operand => ?_⟩
  rw [ownedFrom_eq hindex, if_neg (howns operand)]
  exact hlimbs operand

/-- A limb is taken from a line that belongs to a factor. -/
theorem Collects.take {owner : Operand} {limb : Limb}
    (h : Collects lines (index + 1) ((owner, limb) :: taken) result) (hindex : index < lines.length)
    (hown : Owns lines owner index) (hwrites : Writes (literalAt lines index) limb) :
    Collects lines index taken result := by
  refine h.of_succ (fun _ _ => ⟨limb, hwrites⟩) fun limbs hlimbs => ?_
  refine ⟨(owner, limb) :: limbs, by simp, fun operand => ?_⟩
  rw [ownedFrom_eq hindex]
  by_cases hsame : owner = operand
  · have hmine : limbsOf owner ((owner, limb) :: limbs) = limb :: limbsOf owner limbs := by
      simp [limbsOf]
    rw [← hsame, if_pos hown, List.map_cons, hmine]
    exact .cons hwrites (hlimbs owner)
  · have hnot : ¬ Owns lines operand index := fun hother => hsame (hown.unique hother)
    have hothers : limbsOf operand ((owner, limb) :: limbs) = limbsOf operand limbs := by
      simp [limbsOf, hsame]
    rw [if_neg hnot, hothers]
    exact hlimbs operand

/-- The reader comes to what the lines say. -/
theorem collects_drop (lines : List (List Char)) (index : Nat) (taken : List (Operand × Limb)) :
    Collects lines index taken (collectFrom taken (ownerBefore lines index)
      (numberedFrom (index + 1) (lines.drop index))) := by
  induction hrest : lines.drop index generalizing index taken with
  | nil =>
      have hlength : lines.length ≤ index := List.drop_eq_nil_iff.mp hrest
      have hnone : ∀ operand later, index ≤ later → ¬ Owns lines operand later := by
        intro operand later hge hown
        refine not_isData_nil ?_
        have hdata := hown.1
        rwa [contentAt, List.getD_eq_default _ _ (hlength.trans hge)] at hdata
      rw [show collectFrom taken _ (numberedFrom (index + 1) []) = .ok (taken.reverse ++ []) by
        rw [List.append_nil]; rfl]
      refine .complete (fun later hge operand hown => absurd hown (hnone operand later hge))
        (fun operand => ?_)
      rw [ownedFrom, Nat.sub_eq_zero_of_le hlength]
      exact .nil
  | cons raw rest ih =>
      have hindex : index < lines.length := by
        by_contra hge
        rw [List.drop_eq_nil_of_le (Nat.le_of_not_lt hge)] at hrest
        cases hrest
      obtain ⟨hraw, htail⟩ := List.cons.inj ((List.drop_eq_getElem_cons hindex).symm.trans hrest)
      have hget : lines.getD index [] = raw := by rw [List.getD_eq_getElem _ _ hindex, hraw]
      have hcontentAt : contentAt lines index = content raw := by rw [contentAt, hget]
      have howner : ownerBefore lines (index + 1) = ownerAfter (ownerBefore lines index) raw := by
        rw [ownerBefore, hget]
      have hnext := fun taken => ih (index + 1) taken htail
      rw [howner, ownerAfter] at hnext
      have hother : ¬ IsData (content raw) → ∀ operand, ¬ Owns lines operand index := by
        intro hnot operand hown
        exact hnot (hcontentAt ▸ hown.1)
      cases line_case raw with
      | silent hcontent hline =>
          rw [hline] at hnext
          rw [numberedFrom_cons_of_none hline]
          exact (hnext taken).skip hindex (hother (hcontent ▸ not_isData_nil))
      | label name hcontent hline =>
          rw [hline] at hnext
          rw [numberedFrom_cons_of_some hline]
          exact (hnext taken).skip hindex (hother (hcontent ▸ (isHead_label name).2))
      | directive hhead hlabel hline =>
          rw [hline] at hnext
          rw [numberedFrom_cons_of_some hline]
          exact (hnext taken).skip hindex (hother hhead.2)
      | data hdata hline =>
          rw [hline] at hnext
          rw [numberedFrom_cons_of_some hline]
          have hliteral : Text.trim ((content raw).drop keyword.length) =
              literalAt lines index := by
            rw [literalAt, hcontentAt]
          rw [hliteral]
          cases hstate : ownerBefore lines index with
          | none =>
              rw [hstate] at hnext
              refine (hnext taken).skip hindex fun operand hown => ?_
              rw [ownerBefore_eq_some_iff.mpr hown.2] at hstate
              cases hstate
          | some owner =>
              have hown : Owns lines owner index :=
                ⟨hcontentAt ▸ hdata, ownerBefore_eq_some_iff.mp hstate⟩
              rw [hstate] at hnext
              rw [collectFrom]
              cases hread : readLiteral (literalAt lines index) with
              | none =>
                  refine .malformed le_rfl (fun earlier hlt hge => absurd hlt (by omega)) ?_
                  intro hreadable
                  obtain ⟨limb, hwrites⟩ := hreadable owner hown
                  rw [readLiteral_eq_some_iff.mpr hwrites] at hread
                  cases hread
              | some limb =>
                  exact (hnext _).take hindex hown (readLiteral_eq_some_iff.mp hread)

/-- A factor has as many data lines as its limbs are. -/
theorem length_ownedLines {operand : Operand} {limbs : OperandLimbs}
    (h : List.Forall₂ Writes ((ownedLines lines operand).map (literalAt lines)) limbs.toList) :
    (ownedLines lines operand).length = operandLimbs := by
  have hlength := h.length_eq
  rwa [List.length_map, Vector.length_toList] at hlength

/-- What lines say is determined. -/
theorem Reads.unique {first second : Except ListingFault Operands} (hfirst : Reads lines first)
    (hsecond : Reads lines second) : first = second := by
  have hwritten : ∀ {literals : List (List Char)} {limbs others : OperandLimbs},
      List.Forall₂ Writes literals limbs.toList → List.Forall₂ Writes literals others.toList →
        limbs = others := by
    intro literals limbs others hlimbs hothers
    exact Vector.toList_inj.mp (List.right_unique_forall₂'
      (fun _ _ _ hfirst hsecond => hfirst.unique hsecond) hlimbs hothers)
  cases hfirst with
  | @malformed index hearlier hbad =>
      cases hsecond with
      | @malformed other hothers hother =>
          rcases Nat.lt_trichotomy index other with hlt | rfl | hgt
          · exact absurd (hothers index hlt) hbad
          · rfl
          · exact absurd (hearlier other hgt) hother
      | miscounted hreadable _ _ => exact absurd (hreadable index) hbad
      | complete hreadable _ _ => exact absurd (hreadable index) hbad
  | @miscounted operand hreadable hcount hbefore =>
      cases hsecond with
      | @malformed index _ hbad => exact absurd (hreadable index) hbad
      | @miscounted other _ hothers hahead =>
          cases operand with
          | a =>
              cases other with
              | a => rfl
              | b => exact absurd (hahead rfl) hcount
          | b =>
              cases other with
              | a => exact absurd (hbefore rfl) hothers
              | b => rfl
      | complete _ hA hB =>
          cases operand with
          | a => exact absurd (length_ownedLines hA) hcount
          | b => exact absurd (length_ownedLines hB) hcount
  | complete hreadable hA hB =>
      cases hsecond with
      | @malformed index _ hbad => exact absurd (hreadable index) hbad
      | @miscounted other _ hcount _ =>
          cases other with
          | a => exact absurd (length_ownedLines hA) hcount
          | b => exact absurd (length_ownedLines hB) hcount
      | complete _ hotherA hotherB =>
          exact congrArg _ (Operands.ext (hwritten hA hotherA) (hwritten hB hotherB))

/-- Limbs make a factor if they are as many as a factor has. -/
theorem operandOf_cases (operand : Operand) (limbs : List Limb) :
    (limbs.length ≠ operandLimbs ∧
      operandOf operand limbs = .error (.limbCount operand operandLimbs limbs.length)) ∨
    ∃ value, value.toList = limbs ∧ operandOf operand limbs = .ok value := by
  by_cases h : limbs.toArray.size = operandLimbs
  · exact .inr ⟨⟨limbs.toArray, h⟩, rfl, dif_pos h⟩
  · exact .inl ⟨h, dif_neg h⟩

/-- The reader comes to what the lines of a text say. -/
theorem reads_read (text : String) : Reads (splitLines text.toList) (read text) := by
  rw [read, collect, show numbered (splitLines text.toList) = numberedFrom 1 _ from rfl]
  generalize splitLines text.toList = lines
  have hcollects : Collects lines 0 [] (collectFrom [] none (numberedFrom 1 lines)) := by
    have hdrop := collects_drop lines 0 []
    rwa [List.drop_zero] at hdrop
  generalize collectFrom [] none (numberedFrom 1 lines) = result at hcollects
  cases hcollects with
  | malformed hle hfirst hbad =>
      exact .malformed (fun earlier hlt => hfirst earlier hlt (Nat.zero_le _)) hbad
  | @complete limbs hreadable hlimbs =>
      have hall : ∀ index, Readable lines index := fun index => hreadable index (Nat.zero_le _)
      have howned : ∀ operand, List.Forall₂ Writes
          ((ownedLines lines operand).map (literalAt lines)) (limbsOf operand limbs) := by
        intro operand
        have hlimbs := hlimbs operand
        rwa [ownedFrom, Nat.sub_zero, ← List.range_eq_range'] at hlimbs
      have hcount : ∀ operand,
          (limbsOf operand limbs).length = (ownedLines lines operand).length := by
        intro operand
        rw [← (howned operand).length_eq, List.length_map]
      show Reads lines (operandsOf limbs)
      rw [operandsOf]
      rcases operandOf_cases .a (limbsOf .a limbs) with ⟨hshort, ha⟩ | ⟨a, htoA, ha⟩
      · rw [ha]
        dsimp only
        rw [hcount] at hshort ⊢
        exact .miscounted hall hshort fun hsame => by cases hsame
      · have hA := howned .a
        rw [← htoA] at hA
        rw [ha]
        dsimp only
        rcases operandOf_cases .b (limbsOf .b limbs) with ⟨hshort, hb⟩ | ⟨b, htoB, hb⟩
        · rw [hb]
          dsimp only
          rw [hcount] at hshort ⊢
          exact .miscounted hall hshort fun _ => length_ownedLines hA
        · have hB := howned .b
          rw [← htoB] at hB
          rw [hb]
          exact .complete hall hA hB

/-- Whatever the text, the reader comes to what its lines say, and to nothing else. -/
theorem read_eq_iff (text : String) (result : Except ListingFault Operands) :
    read text = result ↔ Reads (splitLines text.toList) result := by
  constructor
  · rintro rfl
    exact reads_read text
  · exact (reads_read text).unique

end

end WideMultiplier.Listing
