import WideMultiplier.Console.Command
import WideMultiplier.Proofs.Numeral.Reading

/-!
# Flags and their values

What a flag and its value mean, without the reader: `Spells` says which words stand for the flags of
a command, `Setting.Means` which texts are values of a flag, and `Setting.Refuses` what is said of a
text that is none. The reader agrees: `spells_iff`, `Setting.read_eq_ok_iff` and
`Setting.read_eq_error_iff`.
-/

namespace WideMultiplier

/-- A command that is followed by flags. -/
inductive Verb where
  | generate
  | verify

/-- The word for a command. -/
def Verb.word : Verb → String
  | .generate => "generate"
  | .verify => "verify"

/-- The flags of a command. -/
def Verb.flags : Verb → List Flag
  | .generate => Command.generateFlags
  | .verify => Command.verifyFlags

/-- The words that ask for help. -/
def helpWords : List String :=
  ["-h", "--help"]

/-! ## Flags -/

/-- How the flags of a command are spelled, in short and in full. -/
inductive Spells : Verb → String → Flag → Prop where
  | output {word : String} (h : word ∈ ["-o", "--output"]) : Spells .generate word .output
  | seed {verb : Verb} {word : String} (h : word ∈ ["-s", "--seed"]) : Spells verb word .seed
  | profile {word : String} (h : word ∈ ["-p", "--profile"]) : Spells .verify word .profile
  | input {word : String} (h : word ∈ ["-i", "--input"]) : Spells .verify word .input

/-- A word is a name of one flag only. -/
theorem Flag.eq_of_mem_names {first second : Flag} {word : String} (hfirst : word ∈ first.names)
    (hsecond : word ∈ second.names) : first = second := by
  have hall : ∀ word ∈ first.names, word ∈ second.names → first = second := by
    cases first <;> cases second <;> decide
  exact hall word hfirst hsecond

/-- A word spells the flag that it is a name of. -/
theorem Flag.ofName?_eq_some_iff {allowed : List Flag} {word : String} {flag : Flag} :
    ofName? allowed word = some flag ↔ flag ∈ allowed ∧ word ∈ flag.names := by
  have hfinds : ∀ found, ofName? allowed word = some found →
      found ∈ allowed ∧ word ∈ found.names := by
    intro found hfound
    unfold ofName? at hfound
    have hname := List.find?_some hfound
    exact ⟨List.mem_of_find?_eq_some hfound, List.contains_iff_mem.mp hname⟩
  refine ⟨hfinds flag, ?_⟩
  rintro ⟨hallowed, hword⟩
  have hsome : (ofName? allowed word).isSome = true :=
    List.find?_isSome.mpr ⟨flag, hallowed, List.contains_iff_mem.mpr hword⟩
  obtain ⟨found, hfound⟩ := Option.isSome_iff_exists.mp hsome
  rw [hfound, Flag.eq_of_mem_names (hfinds found hfound).2 hword]

variable {verb : Verb} {word : String} {flag : Flag}

/-- The reader finds the flag that a word spells. -/
theorem spells_iff : Spells verb word flag ↔ Flag.ofName? verb.flags word = some flag := by
  rw [Flag.ofName?_eq_some_iff]
  constructor
  · intro h
    cases h with
    | output h => exact ⟨by decide, h⟩
    | seed h => exact ⟨by cases verb <;> decide, h⟩
    | profile h => exact ⟨by decide, h⟩
    | input h => exact ⟨by decide, h⟩
  · rintro ⟨hflag, hword⟩
    cases flag with
    | seed => exact .seed hword
    | output =>
        cases verb with
        | generate => exact .output hword
        | verify => exact absurd hflag (by decide)
    | profile =>
        cases verb with
        | generate => exact absurd hflag (by decide)
        | verify => exact .profile hword
    | input =>
        cases verb with
        | generate => exact absurd hflag (by decide)
        | verify => exact .input hword

theorem isHelp_iff : isHelp word = true ↔ word ∈ helpWords := by
  simp [isHelp, helpWords, or_comm]

/-- No flag asks for help. -/
theorem Spells.not_help (h : Spells verb word flag) : isHelp word = false := by
  have hnone : ∀ flag : Flag, ∀ word ∈ flag.names, isHelp word = false := by
    intro flag
    cases flag <;> decide
  exact hnone flag word (Flag.ofName?_eq_some_iff.mp (spells_iff.mp h)).2

/-! ## Values -/

/-- The profile that a text names. -/
theorem Profile.ofName?_eq_some_iff {value : String} {profile : Profile} :
    ofName? value = some profile ↔ profile.name = value := by
  constructor
  · intro h
    unfold ofName? at h
    have hname := List.find?_some h
    exact beq_iff_eq.mp hname
  · rintro rfl
    exact ofName?_name profile

namespace Setting

open Text (IsNumeralIn)

/-- Whether a text writes a seed: in base ten, or behind `0x` in base sixteen, with a sign or
none. -/
def WritesSeed (text : List Char) (seed : UInt64) : Prop :=
  ∃ sign ∈ [[], ['+']], ∃ digits,
    text = sign ++ digits ∧ IsNumeralIn 10 digits seed.toNat ∨
      text = '0' :: 'x' :: (sign ++ digits) ∧ IsNumeralIn 16 digits seed.toNat

/-- A seed is read in base sixteen behind a mark, and in base ten without one. -/
theorem readSeed_eq_readWord_iff {value : String} {seed : UInt64} :
    readSeed value = some seed ↔
      Text.readWord 10 value.toList = some seed ∨
        ∃ text, value.toList = '0' :: 'x' :: text ∧ Text.readWord 16 text = some seed := by
  unfold readSeed
  split
  · next text hmarked =>
      -- a mark begins no word in base ten
      have hten : Text.readWord 10 ('0' :: 'x' :: text) = none := rfl
      simp [hmarked, hten]
  · next hunmarked =>
      refine (or_iff_left ?_).symm
      rintro ⟨text, htext, -⟩
      exact hunmarked text htext

/-- A seed is read from the texts that write it. -/
theorem readSeed_eq_some_iff {value : String} {seed : UInt64} :
    readSeed value = some seed ↔ WritesSeed value.toList seed := by
  have hten := @Text.readWord_eq_some_iff 10 (by decide) (by decide) value.toList seed
  have hsixteen := fun text => @Text.readWord_eq_some_iff 16 (by decide) (by decide) text seed
  rw [readSeed_eq_readWord_iff, hten]
  constructor
  · rintro (⟨sign, hsign, digits, htext, hnumeral⟩ | ⟨text, htext, hword⟩)
    · exact ⟨sign, hsign, digits, .inl ⟨htext, hnumeral⟩⟩
    · obtain ⟨sign, hsign, digits, rfl, hnumeral⟩ := (hsixteen text).mp hword
      exact ⟨sign, hsign, digits, .inr ⟨htext, hnumeral⟩⟩
  · rintro ⟨sign, hsign, digits, ⟨htext, hnumeral⟩ | ⟨htext, hnumeral⟩⟩
    · exact .inl ⟨sign, hsign, digits, htext, hnumeral⟩
    · exact .inr ⟨_, htext, (hsixteen _).mpr ⟨sign, hsign, digits, rfl, hnumeral⟩⟩

/-- What the values of the flags mean. Every text is a path. -/
inductive Means : Flag → String → Setting → Prop where
  | output (path : String) : Means .output path (.output path)
  | seed {value : String} {seed : UInt64} (h : WritesSeed value.toList seed) :
      Means .seed value (.seed seed)
  | profile (profile : Profile) : Means .profile profile.name (.profile profile)
  | input (path : String) : Means .input path (.input path)

/-- What is said of a text that is no value of a flag. -/
inductive Refuses : Flag → String → UsageFault → Prop where
  | seed {value : String} (h : ∀ seed, ¬ WritesSeed value.toList seed) :
      Refuses .seed value (.invalidSeed value)
  | profile {value : String} (h : ∀ profile : Profile, profile.name ≠ value) :
      Refuses .profile value (.unknownProfile value)

/-- A value is read as what it means. -/
theorem read_eq_ok_iff {flag : Flag} {value : String} {setting : Setting} :
    read flag value = .ok setting ↔ Means flag value setting := by
  constructor
  · intro h
    unfold read at h
    split at h
    · cases h
      exact .output value
    · cases h
      exact .input value
    · split at h
      · next seed hseed =>
          cases h
          exact .seed (readSeed_eq_some_iff.mp hseed)
      · cases h
    · split at h
      · next profile hprofile =>
          cases h
          rw [← Profile.ofName?_eq_some_iff.mp hprofile]
          exact .profile profile
      · cases h
  · intro h
    cases h with
    | output path => rfl
    | seed h => rw [read, readSeed_eq_some_iff.mpr h]
    | profile profile => rw [read, Profile.ofName?_name]
    | input path => rfl

/-- A value is refused with what is said of it. -/
theorem read_eq_error_iff {flag : Flag} {value : String} {fault : UsageFault} :
    read flag value = .error fault ↔ Refuses flag value fault := by
  constructor
  · intro h
    unfold read at h
    split at h
    · cases h
    · cases h
    · split at h
      · cases h
      · next hnone =>
          cases h
          refine .seed fun seed hseed => ?_
          rw [readSeed_eq_some_iff.mpr hseed] at hnone
          cases hnone
    · split at h
      · cases h
      · next hnone =>
          cases h
          refine .profile fun profile hprofile => ?_
          rw [Profile.ofName?_eq_some_iff.mpr hprofile] at hnone
          cases hnone
  · intro h
    cases h with
    | seed h =>
        have hnone : readSeed value = none := by
          rw [Option.eq_none_iff_forall_ne_some]
          exact fun seed hseed => h seed (readSeed_eq_some_iff.mp hseed)
        rw [read, hnone]
    | profile h =>
        have hnone : Profile.ofName? value = none := by
          rw [Option.eq_none_iff_forall_ne_some]
          exact fun profile hprofile => h profile (Profile.ofName?_eq_some_iff.mp hprofile)
        rw [read, hnone]

end Setting

end WideMultiplier
