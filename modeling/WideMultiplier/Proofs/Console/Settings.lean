import WideMultiplier.Listing
import WideMultiplier.Proofs.Console.Options

/-!
# The command that settings make

An option has the value of the last setting for it (`LastOf`), or its default, and for `verify` a
seed and a file conflict: `Verb.Makes` says which command settings make. The reader makes the same
one (`Verb.Makes.settle`), and settings with different flags make it in any order
(`Verb.Makes.perm`).
-/

namespace WideMultiplier

/-- The value that settings give to an option: that of the last one, or none. -/
inductive LastOf {α : Type} (option : α → Setting) : List Setting → Option α → Prop where
  | absent {settings : List Setting} (h : ∀ value, option value ∉ settings) :
      LastOf option settings none
  | present (before : List Setting) (value : α) (after : List Setting)
      (h : ∀ later, option later ∉ after) :
      LastOf option (before ++ option value :: after) (some value)

/-- Whether settings give both a seed and a file. -/
def Conflicts (settings : List Setting) : Prop :=
  (∃ seed, .seed seed ∈ settings) ∧ ∃ path, .input path ∈ settings

/-- The command that settings make. -/
inductive Verb.Makes : Verb → List Setting → Command → Prop where
  | generate {settings : List Setting} {output : Option String} {seed : Option UInt64}
      (houtput : LastOf .output settings output) (hseed : LastOf .seed settings seed) :
      Makes .generate settings (.generate (output.getD "bignum_data.s") seed)
  | verify {settings : List Setting} {seed : Option UInt64} {profile : Option Profile}
      {input : Option String} (hseed : LastOf .seed settings seed)
      (hprofile : LastOf .profile settings profile) (hinput : LastOf .input settings input)
      (hagree : ¬ Conflicts settings) : Makes .verify settings (.verify seed profile input)

/-! ## The last value of an option -/

variable {settings : List Setting}

section

variable {α : Type} {option : α → Setting} {chosen : Option α}

/-- A value is chosen for an option that occurs. -/
theorem LastOf.isSome_iff (h : LastOf option settings chosen) :
    chosen.isSome = true ↔ ∃ value, option value ∈ settings := by
  cases h with
  | absent h => simpa using h
  | present before value after h => simpa using ⟨value, .inr (.inl rfl)⟩

/-- What a reader of an option finds last is the last value of the option. -/
theorem last?_eq_iff {accept : Setting → Option α}
    (haccept : ∀ setting value, accept setting = some value ↔ setting = option value) :
    Setting.last? accept settings = chosen ↔ LastOf option settings chosen := by
  have habsent : ∀ others : List Setting,
      others.filterMap accept = [] ↔ ∀ value, option value ∉ others := by
    intro others
    rw [List.filterMap_eq_nil_iff]
    constructor
    · intro h value hvalue
      have hnone := h _ hvalue
      rw [(haccept _ value).mpr rfl] at hnone
      cases hnone
    · intro h setting hsetting
      rw [Option.eq_none_iff_forall_ne_some]
      intro value hvalue
      rw [(haccept setting value).mp hvalue] at hsetting
      exact h value hsetting
  constructor
  · rintro rfl
    cases hlast : Setting.last? accept settings with
    | none => exact .absent ((habsent settings).mp (List.getLast?_eq_none_iff.mp hlast))
    | some value =>
        -- the settings split at the one that the value comes from
        obtain ⟨front, hfront⟩ := List.getLast?_eq_some_iff.mp hlast
        obtain ⟨before, behind, rfl, -, hbehind⟩ := List.filterMap_eq_append_iff.mp hfront
        obtain ⟨between, setting, after, rfl, -, hsetting, hafter⟩ :=
          List.filterMap_eq_cons_iff.mp hbehind
        rw [(haccept setting value).mp hsetting, ← List.append_assoc]
        exact .present _ value after ((habsent after).mp hafter)
  · intro h
    cases h with
    | absent h => rw [Setting.last?, (habsent settings).mpr h, List.getLast?_nil]
    | present before value after h =>
        rw [Setting.last?, List.filterMap_append,
          List.filterMap_cons_some ((haccept _ value).mpr rfl), (habsent after).mpr h,
          List.getLast?_concat]

end

theorem last?_output_iff {output : Option String} :
    Setting.last? Setting.output? settings = output ↔ LastOf .output settings output :=
  last?_eq_iff fun setting path => by cases setting <;> simp [Setting.output?]

theorem last?_seed_iff {seed : Option UInt64} :
    Setting.last? Setting.seed? settings = seed ↔ LastOf .seed settings seed :=
  last?_eq_iff fun setting value => by cases setting <;> simp [Setting.seed?]

theorem last?_profile_iff {profile : Option Profile} :
    Setting.last? Setting.profile? settings = profile ↔ LastOf .profile settings profile :=
  last?_eq_iff fun setting value => by cases setting <;> simp [Setting.profile?]

theorem last?_input_iff {input : Option String} :
    Setting.last? Setting.input? settings = input ↔ LastOf .input settings input :=
  last?_eq_iff fun setting path => by cases setting <;> simp [Setting.input?]

/-! ## Commands -/

/-- The command that is made of settings, unless they conflict. -/
def Verb.settle : Verb → List Setting → Except UsageFault Command
  | .generate, settings => .ok (Command.ofGenerateSettings Listing.defaultFile settings)
  | .verify, settings => Command.ofVerifySettings settings

variable {verb : Verb} {command : Command}

/-- A conflict is found when there are a last seed and a last file. -/
theorem conflicts_iff :
    Conflicts settings ↔
      ((Setting.last? Setting.seed? settings).isSome &&
        (Setting.last? Setting.input? settings).isSome) = true := by
  rw [Bool.and_eq_true, (last?_seed_iff.mp rfl).isSome_iff, (last?_input_iff.mp rfl).isSome_iff,
    Conflicts]

/-- The command that settings make is made of them. -/
theorem Verb.Makes.settle (h : verb.Makes settings command) :
    verb.settle settings = .ok command := by
  cases h with
  | generate houtput hseed =>
      rw [Verb.settle, Command.ofGenerateSettings, last?_output_iff.mpr houtput,
        last?_seed_iff.mpr hseed]
      rfl
  | verify hseed hprofile hinput hagree =>
      rw [Verb.settle, Command.ofVerifySettings, if_neg (hagree ∘ conflicts_iff.mpr),
        last?_seed_iff.mpr hseed, last?_profile_iff.mpr hprofile, last?_input_iff.mpr hinput]

/-- Settings that conflict are refused by `verify`. -/
theorem Conflicts.settle (h : Conflicts settings) :
    Verb.verify.settle settings = .error .conflictingSources := by
  rw [Verb.settle, Command.ofVerifySettings, if_pos (conflicts_iff.mp h)]

/-- Settings make a command, unless they conflict and are for `verify`. -/
theorem exists_makes (hagree : verb = .verify → ¬ Conflicts settings) :
    ∃ command, verb.Makes settings command := by
  cases verb with
  | generate => exact ⟨_, .generate (last?_output_iff.mp rfl) (last?_seed_iff.mp rfl)⟩
  | verify =>
      exact ⟨_, .verify (last?_seed_iff.mp rfl) (last?_profile_iff.mp rfl)
        (last?_input_iff.mp rfl) (hagree rfl)⟩

/-! ## The order of settings -/

/-- The flag of a setting. -/
def Setting.flag : Setting → Flag
  | .output _ => .output
  | .seed _ => .seed
  | .profile _ => .profile
  | .input _ => .input

theorem Setting.Means.flag_eq {flag : Flag} {value : String} {setting : Setting}
    (h : Means flag value setting) : setting.flag = flag := by
  cases h <;> rfl

section

variable {permuted : List Setting} (hperm : settings.Perm permuted)
  (honce : (settings.map Setting.flag).Nodup)

include hperm honce

/-- An option that occurs once has its value wherever it stands. -/
theorem LastOf.perm {α : Type} {option : α → Setting} {chosen : Option α} {flag : Flag}
    (hflag : ∀ value, (option value).flag = flag) (h : LastOf option settings chosen) :
    LastOf option permuted chosen := by
  cases h with
  | absent h => exact .absent fun value hvalue => h value (hperm.mem_iff.mpr hvalue)
  | present before value after h =>
      have hmem : option value ∈ permuted := hperm.mem_iff.mp (by simp)
      obtain ⟨front, behind, rfl⟩ := List.append_of_mem hmem
      refine .present front value behind fun later hlater => ?_
      -- a later value would have the same flag
      have hnodup := (hperm.map Setting.flag).nodup_iff.mp honce
      rw [List.map_append, List.map_cons] at hnodup
      have hbehind := (List.nodup_cons.mp (List.nodup_append.mp hnodup).2.1).1
      rw [hflag value, ← hflag later] at hbehind
      exact hbehind (List.mem_map_of_mem hlater)

/-- Settings with different flags make the same command in any order. -/
theorem Verb.Makes.perm (h : verb.Makes settings command) : verb.Makes permuted command := by
  cases h with
  | generate houtput hseed =>
      exact .generate (houtput.perm hperm honce fun _ => rfl) (hseed.perm hperm honce fun _ => rfl)
  | verify hseed hprofile hinput hagree =>
      refine .verify (hseed.perm hperm honce fun _ => rfl) (hprofile.perm hperm honce fun _ => rfl)
        (hinput.perm hperm honce fun _ => rfl) ?_
      rintro ⟨⟨seed, hseed⟩, path, hpath⟩
      exact hagree ⟨⟨seed, hperm.mem_iff.mpr hseed⟩, path, hperm.mem_iff.mpr hpath⟩

end

end WideMultiplier
