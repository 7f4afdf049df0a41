import WideMultiplier.Proofs.Listing
import WideMultiplier.Proofs.Numeral.Reading

/-!
# Literals

A literal is read as a limb when it is the hexadecimal numeral of the limb, up to the case of its
letters, zeros in front, a sign and a mark: `Listing.readLiteral_eq_some_iff`. The case of a letter
never counts (`Listing.readLiteral_map_toLower`).
-/

namespace WideMultiplier

namespace Listing

open Text (IsNumeral)

/-- Whether a literal writes a limb: behind a mark or none and a sign or none stands the numeral of
the limb. -/
def Writes (literal : List Char) (limb : Limb) : Prop :=
  ∃ mark ∈ [[], ['0', 'x'], ['0', 'X']], ∃ sign ∈ [[], ['+']], ∃ digits,
    literal = mark ++ (sign ++ digits) ∧ IsNumeral digits limb.toNat

/-- A literal is read as a word behind a mark or none. -/
theorem readLiteral_eq_readWord_iff {literal : List Char} {limb : Limb} :
    readLiteral literal = some limb ↔
      ∃ mark ∈ [[], ['0', 'x'], ['0', 'X']], ∃ text, literal = mark ++ text ∧
        Text.readWord 16 text = some limb := by
  constructor
  · intro h
    unfold readLiteral at h
    split at h
    · exact ⟨['0', 'x'], by simp, _, rfl, h⟩
    · exact ⟨['0', 'X'], by simp, _, rfl, h⟩
    · exact ⟨[], by simp, _, rfl, h⟩
  · rintro ⟨mark, hmark, text, rfl, h⟩
    simp only [List.mem_cons, List.not_mem_nil, or_false] at hmark
    rcases hmark with rfl | rfl | rfl
    · -- no word begins with a mark
      rw [List.nil_append]
      unfold readLiteral
      split
      · next digits =>
          rw [show Text.readWord 16 ('0' :: 'x' :: digits) = none from rfl] at h
          cases h
      · next digits =>
          rw [show Text.readWord 16 ('0' :: 'X' :: digits) = none from rfl] at h
          cases h
      · exact h
    · exact h
    · exact h

/-- A literal is read as the limb that it writes. -/
theorem readLiteral_eq_some_iff {literal : List Char} {limb : Limb} :
    readLiteral literal = some limb ↔ Writes literal limb := by
  have hword : ∀ text : List Char, Text.readWord 16 text = some limb ↔
      ∃ sign ∈ [[], ['+']], ∃ digits, text = sign ++ digits ∧ IsNumeral digits limb.toNat :=
    fun _ => Text.readWord_eq_some_iff (by decide) (Nat.le_refl 16)
  rw [readLiteral_eq_readWord_iff]
  constructor
  · rintro ⟨mark, hmark, text, rfl, h⟩
    obtain ⟨sign, hsign, digits, rfl, hnumeral⟩ := (hword text).mp h
    exact ⟨mark, hmark, sign, hsign, digits, rfl, hnumeral⟩
  · rintro ⟨mark, hmark, sign, hsign, digits, rfl, hnumeral⟩
    exact ⟨mark, hmark, _, rfl, (hword _).mpr ⟨sign, hsign, digits, rfl, hnumeral⟩⟩

/-- A literal reads alike in either case. -/
theorem readLiteral_map_toLower (literal : List Char) :
    readLiteral (literal.map Char.toLower) = readLiteral literal := by
  have hword : ∀ text : List Char,
      Text.readWord 16 (text.map Char.toLower) = Text.readWord 16 text := by
    intro text
    rw [Text.readWord, Text.readBelow_map_toLower]
    rfl
  have hone : ∀ c : Char, readLiteral [c] = Text.readWord 16 [c] := by
    intro c
    unfold readLiteral
    split <;> simp_all
  have hcons : ∀ (c d : Char) (rest : List Char), readLiteral (c :: d :: rest) =
      if c == '0' && (d == 'x' || d == 'X') then Text.readWord 16 rest
      else Text.readWord 16 (c :: d :: rest) := by
    intro c d rest
    unfold readLiteral
    split <;> simp_all
  rcases literal with _ | ⟨c, _ | ⟨d, rest⟩⟩
  · rfl
  · rw [List.map_singleton, hone, hone, ← List.map_singleton, hword]
  · rw [List.map_cons, List.map_cons, hcons, hcons,
      Text.apply_toLower (· == '0') (by decide) c,
      Text.apply_toLower (fun c => c == 'x' || c == 'X') (by decide) d,
      ← List.map_cons, ← List.map_cons, hword, hword]

end Listing

end WideMultiplier
