import Mathlib.Tactic.Ring
import WideMultiplier.Text.Numeral

/-!
# Numerals read back

The digits that write a number read as that number, also behind further zeros. So a word reads back
from its numeral in base ten or sixteen (`Text.readWord_toDigits`), and a limb from its literal of
sixteen digits (`Text.readWord_hexLimb`).

The digits of a number are its canonical numeral (`Text.canonical_toDigits`). Behind them, the
padded numeral of another number continues them (`Text.toDigits_append_hexPadded`).
-/

namespace WideMultiplier.Text

/-! ## Digits -/

/-- A digit has the value that it writes. -/
theorem digitValue?_digitChar {digit : Nat} (h : digit < 16) :
    digitValue? (Nat.digitChar digit) = some digit := by
  have hall : ∀ digit < 16, digitValue? (Nat.digitChar digit) = some digit := by decide
  exact hall digit h

variable {base limit number : Nat}

/-- One digit is read behind the digits before it. -/
theorem readDigits_cons {digit : Nat} (hdigit : digit < base) (hbase : base ≤ 16)
    (hlimit : number * base + digit < limit) (rest : List Char) :
    readDigits base limit number (Nat.digitChar digit :: rest) =
      readDigits base limit (number * base + digit) rest := by
  rw [readDigits, digitValue?_digitChar (by omega)]
  exact if_pos ⟨hdigit, hlimit⟩

/-- The digits of a number are read before those behind them. -/
theorem readDigits_toDigits_append (hbase : 1 < base) (hsixteen : base ≤ 16) (h : number < limit)
    (rest : List Char) :
    readDigits base limit 0 (Nat.toDigits base number ++ rest) =
      readDigits base limit number rest := by
  induction number using Nat.strongRecOn generalizing rest with
  | ind number ih =>
      by_cases hsmall : number < base
      · rw [Nat.toDigits_of_lt_base hsmall, List.singleton_append,
          readDigits_cons hsmall hsixteen (by omega), Nat.zero_mul, Nat.zero_add]
      · -- the last digit comes behind those of the quotient
        have hquotient : number / base < number := Nat.div_lt_self (by omega) hbase
        have hsplit : number / base * base + number % base = number := by
          rw [Nat.mul_comm]
          exact Nat.div_add_mod number base
        rw [Nat.toDigits_of_base_le hbase (by omega), List.append_assoc, List.singleton_append,
          ih _ hquotient (by omega), readDigits_cons (Nat.mod_lt _ (by omega)) hsixteen (by omega),
          hsplit]

/-- The digits of a number read as that number. -/
theorem readDigits_toDigits (hbase : 1 < base) (hsixteen : base ≤ 16) (h : number < limit) :
    readDigits base limit 0 (Nat.toDigits base number) = some number := by
  have hread := readDigits_toDigits_append hbase hsixteen h []
  rwa [List.append_nil] at hread

/-- Zeros in front do not count. -/
theorem readDigits_replicate_zero (hbase : 0 < base) (hsixteen : base ≤ 16) (hlimit : 0 < limit)
    (zeros : Nat) (digits : List Char) :
    readDigits base limit 0 (List.replicate zeros '0' ++ digits) =
      readDigits base limit 0 digits := by
  induction zeros with
  | zero => rfl
  | succ zeros ih =>
      rw [List.replicate_succ, List.cons_append, show '0' = Nat.digitChar 0 from rfl,
        readDigits_cons hbase hsixteen (by omega), Nat.zero_mul]
      exact ih

/-! ## Words -/

/-- What writes a number are digits of its base. -/
theorem exists_digit_of_mem_toDigits (hbase : 1 < base) {c : Char}
    (h : c ∈ Nat.toDigits base number) : ∃ digit < base, c = Nat.digitChar digit := by
  induction number using Nat.strongRecOn with
  | ind number ih =>
      by_cases hsmall : number < base
      · rw [Nat.toDigits_of_lt_base hsmall, List.mem_singleton] at h
        exact ⟨number, hsmall, h⟩
      · rw [Nat.toDigits_of_base_le hbase (by omega), List.mem_append, List.mem_singleton] at h
        rcases h with hfront | hlast
        · exact ih _ (Nat.div_lt_self (by omega) hbase) hfront
        · exact ⟨number % base, Nat.mod_lt _ (by omega), hlast⟩

/-- A text that no sign begins is read digit by digit. -/
theorem readBelow_of_unsigned {text : List Char} (hsign : '+' ∉ text) (hne : text ≠ []) :
    readBelow base limit text = readDigits base limit 0 text := by
  cases text with
  | nil => exact absurd rfl hne
  | cons c rest =>
      have hc : c ≠ '+' := by
        rintro rfl
        exact hsign List.mem_cons_self
      simp [readBelow, hc]

/-- A word reads back from the digits that write it, also behind further zeros. -/
theorem readWord_replicate_zero (hbase : 1 < base) (hsixteen : base ≤ 16) (zeros : Nat)
    (word : UInt64) :
    readWord base (List.replicate zeros '0' ++ Nat.toDigits base word.toNat) = some word := by
  have hsign : '+' ∉ List.replicate zeros '0' ++ Nat.toDigits base word.toNat := by
    intro hmem
    rw [List.mem_append] at hmem
    rcases hmem with hzero | hdigit
    · cases List.eq_of_mem_replicate hzero
    · obtain ⟨digit, -, hsame⟩ := exists_digit_of_mem_toDigits hbase hdigit
      exact Nat.digitChar_ne '+' rfl hsame.symm
  have hne : List.replicate zeros '0' ++ Nat.toDigits base word.toNat ≠ [] :=
    List.append_ne_nil_of_right_ne_nil _ Nat.toDigits_ne_nil
  rw [readWord, readBelow_of_unsigned hsign hne,
    readDigits_replicate_zero (by omega) hsixteen (by decide),
    readDigits_toDigits hbase hsixteen (Limb.toNat_lt word), Option.map_some, UInt64.ofNat_toNat]

/-- A limb reads back from its sixteen digits. -/
theorem readWord_hexLimb (limb : Limb) : readWord 16 (hexLimb limb).toList = some limb := by
  rw [hexLimb, hexPadded, String.toList_ofList]
  exact readWord_replicate_zero (by decide) (Nat.le_refl 16) _ limb

/-! ## Canonical numerals -/

/-- Whether digits are the canonical hexadecimal numeral of a number: they are digits in lower case
and read as the number, and none of them is a zero in front, unless the number is zero and has this
one digit. -/
structure Canonical (digits : List Char) (number : Nat) : Prop where
  lower : ∀ c ∈ digits, ∃ digit < 16, c = Nat.digitChar digit
  reads : ∀ limit, number < limit → readDigits 16 limit 0 digits = some number
  zero : number = 0 → digits = ['0']
  leading : number ≠ 0 → digits.head? ≠ some '0'

/-- Only the numeral of zero begins in a zero. -/
theorem head?_toDigits_ne_zero (hbase : 1 < base) (hsixteen : base ≤ 16) (h : number ≠ 0) :
    (Nat.toDigits base number).head? ≠ some '0' := by
  induction number using Nat.strongRecOn with
  | ind number ih =>
      by_cases hsmall : number < base
      · rw [Nat.toDigits_of_lt_base hsmall]
        intro hzero
        have hread := digitValue?_digitChar (Nat.lt_of_lt_of_le hsmall hsixteen)
        rw [Option.some.inj hzero] at hread
        exact h (Option.some.inj hread).symm
      · have hquotient : number / base ≠ 0 :=
          Nat.pos_iff_ne_zero.mp (Nat.div_pos (by omega) (by omega))
        have hfirst := ih _ (Nat.div_lt_self (by omega) hbase) hquotient
        rw [List.head?_eq_some_head Nat.toDigits_ne_nil] at hfirst
        rwa [Nat.toDigits_of_base_le hbase (by omega), List.head?_append,
          List.head?_eq_some_head Nat.toDigits_ne_nil, Option.some_or]

/-- The digits of a number in base sixteen are its canonical numeral. -/
theorem canonical_toDigits (number : Nat) : Canonical (Nat.toDigits 16 number) number where
  lower _ hc := exists_digit_of_mem_toDigits (by decide) hc
  reads _ hlimit := readDigits_toDigits (by decide) (Nat.le_refl 16) hlimit
  zero hzero := by
    rw [hzero]
    exact Nat.toDigits_zero 16
  leading := head?_toDigits_ne_zero (by decide) (Nat.le_refl 16)

/-! ## All digits of a limb -/

/-- What writes a limb are hexadecimal digits. -/
theorem exists_digit_of_mem_hexLimb {limb : Limb} {c : Char} (h : c ∈ (hexLimb limb).toList) :
    ∃ digit < 16, c = Nat.digitChar digit := by
  rw [hexLimb, hexPadded, String.toList_ofList, List.mem_append] at h
  rcases h with hzero | hdigit
  · exact ⟨0, by decide, List.eq_of_mem_replicate hzero⟩
  · exact exists_digit_of_mem_toDigits (by decide) hdigit

/-- Sixteen digits write a limb. -/
theorem length_hexLimb (limb : Limb) : (hexLimb limb).toList.length = 16 := by
  have hlength : (Nat.toDigits 16 limb.toNat).length ≤ 16 :=
    (Nat.length_toDigits_le_iff (by decide) (by decide)).mpr (Limb.toNat_lt limb)
  rw [hexLimb, hexPadded, String.toList_ofList, List.length_append, List.length_replicate]
  omega

/-- Some digits write a limb. -/
theorem hexLimb_ne_nil (limb : Limb) : (hexLimb limb).toList ≠ [] := by
  apply List.ne_nil_of_length_pos
  rw [length_hexLimb]
  decide

/-- The last digit of a padded numeral stands behind the padded numeral of the digits before it. -/
theorem toList_hexPadded_succ (width number : Nat) :
    (hexPadded (width + 2) number).toList =
      (hexPadded (width + 1) (number / 16)).toList ++ [Nat.digitChar (number % 16)] := by
  rw [hexPadded, hexPadded, String.toList_ofList, String.toList_ofList]
  by_cases hsmall : number < 16
  · -- the digits before it are all padding
    rw [Nat.div_eq_of_lt hsmall, Nat.mod_eq_of_lt hsmall, Nat.toDigits_of_lt_base hsmall,
      Nat.toDigits_zero]
    exact congrArg (· ++ [Nat.digitChar number]) List.replicate_succ'
  · rw [Nat.toDigits_of_base_le (by decide) (by omega), List.length_append, List.append_assoc]
    congr 2
    simp

/-- The digits of a number and the padded numeral behind them write the number and, behind it, the
other one. -/
theorem toDigits_append_hexPadded {high : Nat} (hhigh : 0 < high) (width : Nat) {low : Nat}
    (hlow : low < 16 ^ (width + 1)) :
    Nat.toDigits 16 high ++ (hexPadded (width + 1) low).toList =
      Nat.toDigits 16 (16 ^ (width + 1) * high + low) := by
  induction width generalizing low with
  | zero =>
      have hpadded : (hexPadded 1 low).toList = Nat.toDigits 16 low := by
        rw [hexPadded, String.toList_ofList, Nat.toDigits_of_lt_base (by simpa using hlow)]
        rfl
      rw [hpadded]
      exact Nat.toDigits_append_toDigits (by decide) hhigh (by simpa using hlow)
  | succ width ih =>
      have hfront : low / 16 < 16 ^ (width + 1) := by
        rw [Nat.div_lt_iff_lt_mul (by decide)]
        rwa [pow_succ] at hlow
      have hlast : low % 16 < 16 := Nat.mod_lt _ (by decide)
      have hpos : 0 < 16 ^ (width + 1) * high + low / 16 :=
        Nat.add_pos_left (Nat.mul_pos (Nat.pow_pos (by decide)) hhigh) _
      rw [toList_hexPadded_succ, ← List.append_assoc, ih hfront, ← Nat.toDigits_of_lt_base hlast,
        Nat.toDigits_append_toDigits (by decide) hpos hlast]
      congr 1
      have hdigits : 16 * (low / 16) + low % 16 = low := Nat.div_add_mod low 16
      calc 16 * (16 ^ (width + 1) * high + low / 16) + low % 16
          = 16 * 16 ^ (width + 1) * high + (16 * (low / 16) + low % 16) := by ring
        _ = 16 ^ (width + 1 + 1) * high + low := by rw [hdigits, ← pow_succ']

end WideMultiplier.Text
