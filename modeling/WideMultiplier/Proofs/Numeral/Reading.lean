import WideMultiplier.Proofs.Numeral

/-!
# What a reader of numerals accepts

A word is read from its numerals and from no other text: its digits in the base, in either case and
behind any zeros, with a sign in front or none (`Text.readWord_eq_some_iff`). The case of a letter
never counts (`Text.readBelow_map_toLower`).
-/

namespace WideMultiplier

namespace Text

/-! ## Letters in either case -/

/-- What does not tell the capitals from their small letters does not tell any characters from their
small letters. -/
theorem apply_toLower {α : Type} (view : Char → α)
    (h : ∀ letter < 26, view (Char.ofNat (65 + letter)).toLower = view (Char.ofNat (65 + letter)))
    (c : Char) : view c.toLower = view c := by
  by_cases hcapital : c.toNat - 65 < 26 ∧ 65 ≤ c.toNat
  · have hc : c = Char.ofNat (65 + (c.toNat - 65)) := by
      rw [Nat.add_sub_of_le hcapital.2, Char.ofNat_toNat]
    rw [hc]
    exact h _ hcapital.1
  · have hkept : c.toLower = c := by
      refine dif_neg fun hc => hcapital ?_
      simp only [ge_iff_le, UInt32.le_iff_toNat_le] at hc
      change 65 ≤ c.toNat ∧ c.toNat ≤ 90 at hc
      omega
    rw [hkept]

/-- Small letters are the same digits. -/
theorem digitValue?_toLower (c : Char) : digitValue? c.toLower = digitValue? c :=
  apply_toLower digitValue? (by decide) c

/-- A digit is the one that writes its value, up to its case. -/
theorem toLower_of_digitValue? {c : Char} {digit : Nat} (h : digitValue? c = some digit)
    (hdigit : digit < 16) : c.toLower = Nat.digitChar digit := by
  have hall : ∀ code < 103, ∀ digit < 16, digitValue? (Char.ofNat code) = some digit →
      (Char.ofNat code).toLower = Nat.digitChar digit := by decide
  have hcode : c.toNat < 103 := by
    by_contra hlarge
    have hnone : digitValue? c = none := by
      simp only [digitValue?, Char.le_def, UInt32.le_iff_toNat_le]
      change (if 48 ≤ c.toNat ∧ c.toNat ≤ 57 then _ else
        if 97 ≤ c.toNat ∧ c.toNat ≤ 102 then _ else
        if 65 ≤ c.toNat ∧ c.toNat ≤ 70 then _ else none) = none
      rw [if_neg (by omega), if_neg (by omega), if_neg (by omega)]
    rw [hnone] at h
    cases h
  have hread := hall c.toNat hcode digit hdigit
  rw [Char.ofNat_toNat] at hread
  exact hread h

/-- Digits read alike in either case. -/
theorem readDigits_map_toLower {base limit : Nat} (number : Nat) (digits : List Char) :
    readDigits base limit number (digits.map Char.toLower) =
      readDigits base limit number digits := by
  induction digits generalizing number with
  | nil => rfl
  | cons c rest ih =>
      rw [List.map_cons, readDigits, readDigits, digitValue?_toLower]
      simp only [ih]

/-- Numbers read alike in either case. -/
theorem readBelow_map_toLower {base limit : Nat} (text : List Char) :
    readBelow base limit (text.map Char.toLower) = readBelow base limit text := by
  have hcons : ∀ (c : Char) (rest : List Char), readBelow base limit (c :: rest) =
      if c == '+' then (if rest.isEmpty then none else readDigits base limit 0 rest)
      else readDigits base limit 0 (c :: rest) := by
    intro c rest
    by_cases hsign : c = '+'
    · rw [hsign]
      rfl
    · simp [readBelow, hsign]
  cases text with
  | nil => rfl
  | cons c rest =>
      rw [List.map_cons, hcons, hcons, apply_toLower (· == '+') (by decide) c,
        ← List.map_cons, readDigits_map_toLower, readDigits_map_toLower, List.isEmpty_map]

/-! ## Numerals -/

/-- Whether digits are the numeral of a number in a base, with letters in either case and any zeros
in front. -/
def IsNumeralIn (base : Nat) (digits : List Char) (number : Nat) : Prop :=
  ∃ zeros, digits.map Char.toLower = List.replicate zeros '0' ++ Nat.toDigits base number

/-- Whether digits are the hexadecimal numeral of a number, with letters in either case and any
zeros in front. -/
def IsNumeral (digits : List Char) (number : Nat) : Prop :=
  ∃ zeros, digits.map Char.toLower = List.replicate zeros '0' ++ Nat.toDigits 16 number

theorem isNumeral_iff {digits : List Char} {number : Nat} :
    IsNumeral digits number ↔ IsNumeralIn 16 digits number :=
  Iff.rfl

variable {base : Nat}

/-- A numeral has a digit. -/
theorem IsNumeralIn.ne_nil {digits : List Char} {number : Nat}
    (h : IsNumeralIn base digits number) : digits ≠ [] := by
  obtain ⟨zeros, hnumeral⟩ := h
  rintro rfl
  exact List.append_ne_nil_of_right_ne_nil _ Nat.toDigits_ne_nil hnumeral.symm

/-- One digit is the numeral of its value. -/
theorem isNumeralIn_digit (hsixteen : base ≤ 16) {c : Char} {digit : Nat}
    (h : digitValue? c = some digit) (hdigit : digit < base) : IsNumeralIn base [c] digit := by
  refine ⟨0, ?_⟩
  rw [Nat.toDigits_of_lt_base hdigit, List.map_singleton,
    toLower_of_digitValue? h (Nat.lt_of_lt_of_le hdigit hsixteen)]
  rfl

/-- One more digit behind a numeral. -/
theorem IsNumeralIn.snoc (hbase : 1 < base) (hsixteen : base ≤ 16) {front : List Char}
    {number : Nat} (h : IsNumeralIn base front number) {c : Char} {digit : Nat}
    (hc : digitValue? c = some digit) (hdigit : digit < base) :
    IsNumeralIn base (front ++ [c]) (number * base + digit) := by
  obtain ⟨zeros, hfront⟩ := h
  rw [IsNumeralIn, List.map_append, hfront, List.map_singleton,
    toLower_of_digitValue? hc (Nat.lt_of_lt_of_le hdigit hsixteen)]
  cases number with
  | zero =>
      -- the numeral of zero is one more zero in front
      refine ⟨zeros + 1, ?_⟩
      rw [Nat.zero_mul, Nat.zero_add, Nat.toDigits_of_lt_base hdigit, List.replicate_succ',
        Nat.toDigits_zero]
  | succ number =>
      refine ⟨zeros, ?_⟩
      have hlarge : base ≤ (number + 1) * base + digit :=
        Nat.le_trans (Nat.le_mul_of_pos_left base (Nat.succ_pos number)) (Nat.le_add_right _ _)
      have hquotient : ((number + 1) * base + digit) / base = number + 1 := by
        rw [Nat.mul_comm, Nat.mul_add_div (by omega), Nat.div_eq_of_lt hdigit, Nat.add_zero]
      have hlast : ((number + 1) * base + digit) % base = digit := by
        rw [Nat.mul_comm, Nat.mul_add_mod, Nat.mod_eq_of_lt hdigit]
      rw [Nat.toDigits_of_base_le hbase hlarge, hquotient, hlast, List.append_assoc]

/-- What is read behind a numeral makes a longer numeral. -/
theorem IsNumeralIn.readDigits (hbase : 1 < base) (hsixteen : base ≤ 16) {limit : Nat}
    {front digits : List Char} {number result : Nat} (h : IsNumeralIn base front number)
    (hread : readDigits base limit number digits = some result) (hlimit : number < limit) :
    IsNumeralIn base (front ++ digits) result ∧ result < limit := by
  induction digits generalizing front number with
  | nil =>
      cases hread
      rw [List.append_nil]
      exact ⟨h, hlimit⟩
  | cons c rest ih =>
      rw [Text.readDigits] at hread
      split at hread
      · next digit hc =>
          dsimp only at hread
          split at hread
          · next hfits =>
              rw [List.append_cons]
              exact ih (h.snoc hbase hsixteen hc hfits.1) hread hfits.2
          · cases hread
      · cases hread

/-- Digits are read as the number whose numeral they are. -/
theorem readDigits_eq_some_iff (hbase : 1 < base) (hsixteen : base ≤ 16) {limit number : Nat}
    {digits : List Char} (hlimit : 0 < limit) :
    digits ≠ [] ∧ readDigits base limit 0 digits = some number ↔
      IsNumeralIn base digits number ∧ number < limit := by
  constructor
  · rintro ⟨hne, hread⟩
    -- the zero that the reader begins with is no digit of the numeral
    obtain ⟨c, rest, rfl⟩ := List.exists_cons_of_ne_nil hne
    rw [readDigits] at hread
    split at hread
    · next digit hc =>
        dsimp only at hread
        split at hread
        · next hfits =>
            rw [Nat.zero_mul, Nat.zero_add] at hread hfits
            exact (isNumeralIn_digit hsixteen hc hfits.1).readDigits hbase hsixteen hread hfits.2
        · cases hread
    · cases hread
  · rintro ⟨hdigits, hnumber⟩
    refine ⟨hdigits.ne_nil, ?_⟩
    obtain ⟨zeros, hnumeral⟩ := hdigits
    rw [← readDigits_map_toLower, hnumeral,
      readDigits_replicate_zero (by omega) hsixteen hlimit,
      readDigits_toDigits hbase hsixteen hnumber]

/-- A numeral consists of digits, up to their case. -/
theorem IsNumeralIn.exists_digit (hbase : 1 < base) {digits : List Char} {number : Nat}
    (h : IsNumeralIn base digits number) {c : Char} (hc : c ∈ digits) :
    ∃ digit < base, c.toLower = Nat.digitChar digit := by
  obtain ⟨zeros, hnumeral⟩ := h
  have hmem : c.toLower ∈ List.replicate zeros '0' ++ Nat.toDigits base number := by
    rw [← hnumeral]
    exact List.mem_map_of_mem hc
  rcases List.mem_append.mp hmem with hzero | hdigit
  · exact ⟨0, by omega, List.eq_of_mem_replicate hzero⟩
  · exact exists_digit_of_mem_toDigits hbase hdigit

/-- What a numeral consists of has a value. -/
theorem IsNumeralIn.isSome_digitValue? (hbase : 1 < base) (hsixteen : base ≤ 16)
    {digits : List Char} {number : Nat} (h : IsNumeralIn base digits number) {c : Char}
    (hc : c ∈ digits) : (digitValue? c).isSome = true := by
  obtain ⟨digit, hlt, hsame⟩ := h.exists_digit hbase hc
  rw [← digitValue?_toLower, hsame, digitValue?_digitChar (Nat.lt_of_lt_of_le hlt hsixteen)]
  rfl

/-- Digits are read as the word whose numeral they are. -/
theorem map_readDigits_eq_some_iff (hbase : 1 < base) (hsixteen : base ≤ 16) {digits : List Char}
    {word : UInt64} :
    (if digits.isEmpty then none else readDigits base Limb.base 0 digits).map UInt64.ofNat =
      some word ↔ IsNumeralIn base digits word.toNat := by
  have hdigits :=
    @readDigits_eq_some_iff base hbase hsixteen Limb.base word.toNat digits (by decide)
  rw [and_iff_left (Limb.toNat_lt word)] at hdigits
  rw [← hdigits, Option.map_eq_some_iff]
  constructor
  · rintro ⟨number, hnumber, rfl⟩
    split at hnumber
    · cases hnumber
    · next hempty =>
        have hne : digits ≠ [] := by simpa using hempty
        have hlt := (readDigits_eq_some_iff hbase hsixteen (by decide)).mp ⟨hne, hnumber⟩
        rw [UInt64.toNat_ofNat_of_lt' hlt.2]
        exact ⟨hne, hnumber⟩
  · rintro ⟨hne, hnumber⟩
    refine ⟨word.toNat, ?_, UInt64.ofNat_toNat⟩
    rw [if_neg (by simpa using hne), hnumber]

/-- A word is read from its numeral, behind a sign or none. -/
theorem readWord_eq_some_iff (hbase : 1 < base) (hsixteen : base ≤ 16) {text : List Char}
    {word : UInt64} :
    readWord base text = some word ↔
      ∃ sign ∈ [[], ['+']], ∃ digits, text = sign ++ digits ∧
        IsNumeralIn base digits word.toNat := by
  have hsigned : (∃ sign ∈ [[], ['+']], ∃ digits, text = sign ++ digits ∧
      IsNumeralIn base digits word.toNat) ↔
      IsNumeralIn base text word.toNat ∨
        ∃ digits, text = '+' :: digits ∧ IsNumeralIn base digits word.toNat := by
    simp
  rw [hsigned]
  unfold readWord readBelow
  split
  · next rest =>
      -- a sign is no digit
      have hsign : ¬ IsNumeralIn base ('+' :: rest) word.toNat := fun hnumeral =>
        absurd (hnumeral.isSome_digitValue? hbase hsixteen List.mem_cons_self) (by decide)
      refine (map_readDigits_eq_some_iff hbase hsixteen).trans ⟨fun h => .inr ⟨rest, rfl, h⟩, ?_⟩
      rintro (h | ⟨digits, hsame, h⟩)
      · exact absurd h hsign
      · cases hsame
        exact h
  · next hunsigned =>
      rw [map_readDigits_eq_some_iff hbase hsixteen]
      refine (or_iff_left ?_).symm
      rintro ⟨digits, rfl, -⟩
      exact hunsigned digits rfl

end Text

end WideMultiplier
