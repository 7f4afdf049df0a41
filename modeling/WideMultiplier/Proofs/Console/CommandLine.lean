import Mathlib.Data.List.Perm.Basic
import WideMultiplier.Proofs.Console.Arguments
import WideMultiplier.Proofs.Console.Settings

/-!
# What a command line says

`Verb.Says` gives the meaning of the words behind a command, without going through them one by one:
they are pairs of a flag and a value, and of several values for one flag the last counts, or the
first words that are no such pair are the fault. The reader comes to the same result for every list
of words, and the order of the pairs does not count when no flag stands there twice:
`Verb.understood_iff`.
-/

namespace WideMultiplier

/-- The words of some pairs of a flag and a value. -/
def wordsOf (pairs : List (String × String)) : List String :=
  pairs.flatMap fun pair => [pair.1, pair.2]

/-- Whether a pair is a flag of a command and a value of it, which make a setting. -/
def Verb.Takes (verb : Verb) (pair : String × String) (setting : Setting) : Prop :=
  ∃ flag, Spells verb pair.1 flag ∧ Setting.Means flag pair.2 setting

/-- What is said of words that do not begin with a flag of a command and a value of it. -/
inductive Offends (verb : Verb) : List String → UsageFault → Prop where
  | help {word : String} (later : List String) (h : word ∈ helpWords) :
      Offends verb (word :: later) .helpRequested
  | unknown {word : String} (later : List String) (hhelp : word ∉ helpWords)
      (hflag : ∀ flag, ¬ Spells verb word flag) : Offends verb (word :: later) (.unknownOption word)
  | missing {word : String} {flag : Flag} (hflag : Spells verb word flag) :
      Offends verb [word] (.missingValue word)
  | refused {word value : String} (later : List String) {flag : Flag} {fault : UsageFault}
      (hflag : Spells verb word flag) (hvalue : Setting.Refuses flag value fault) :
      Offends verb (word :: value :: later) fault

/-- What the words behind a command say. The first words that offend decide. -/
inductive Verb.Says : Verb → List String → Except UsageFault Command → Prop where
  | command {verb : Verb} {pairs : List (String × String)} {settings : List Setting}
      {command : Command} (hpairs : List.Forall₂ verb.Takes pairs settings)
      (hcommand : verb.Makes settings command) : Says verb (wordsOf pairs) (.ok command)
  | fault {verb : Verb} {pairs : List (String × String)} {settings : List Setting}
      {rest : List String} {fault : UsageFault} (hpairs : List.Forall₂ verb.Takes pairs settings)
      (hfault : Offends verb rest fault) : Says verb (wordsOf pairs ++ rest) (.error fault)
  | conflict {pairs : List (String × String)} {settings : List Setting}
      (hpairs : List.Forall₂ Verb.verify.Takes pairs settings) (hconflict : Conflicts settings) :
      Says .verify (wordsOf pairs) (.error .conflictingSources)

/-! ## Reading pairs -/

variable {verb : Verb}

theorem wordsOf_cons (pair : String × String) (pairs : List (String × String)) :
    wordsOf (pair :: pairs) = pair.1 :: pair.2 :: wordsOf pairs :=
  rfl

/-- A pair is read before the words behind it. -/
theorem Verb.Takes.readAll {word value : String} {setting : Setting}
    (h : verb.Takes (word, value) setting) (rest : List String) :
    Setting.readAll verb.flags (word :: value :: rest) =
      (Setting.readAll verb.flags rest).map (setting :: ·) := by
  obtain ⟨flag, hflag, hvalue⟩ := h
  exact Setting.readAll_pair hflag.not_help (spells_iff.mp hflag)
    (Setting.read_eq_ok_iff.mpr hvalue) rest

/-- Pairs are read before the words behind them. -/
theorem readAll_wordsOf_append {pairs : List (String × String)} {settings : List Setting}
    (h : List.Forall₂ verb.Takes pairs settings) (rest : List String) :
    Setting.readAll verb.flags (wordsOf pairs ++ rest) =
      (Setting.readAll verb.flags rest).map (settings ++ ·) := by
  induction h with
  | nil =>
      change Setting.readAll verb.flags rest = _
      cases Setting.readAll verb.flags rest <;> rfl
  | cons hpair _ ih =>
      rw [wordsOf_cons, List.cons_append, List.cons_append, hpair.readAll, ih]
      cases Setting.readAll verb.flags rest <;> rfl

/-- Pairs are read as their settings. -/
theorem readAll_wordsOf {pairs : List (String × String)} {settings : List Setting}
    (h : List.Forall₂ verb.Takes pairs settings) :
    Setting.readAll verb.flags (wordsOf pairs) = .ok settings := by
  have hread := readAll_wordsOf_append h []
  rw [List.append_nil] at hread
  rw [hread, Setting.readAll, Except.map, List.append_nil]

/-- Words that offend are refused. -/
theorem Offends.readAll {rest : List String} {fault : UsageFault} (h : Offends verb rest fault) :
    Setting.readAll verb.flags rest = .error fault := by
  cases h with
  | help later h => rw [Setting.readAll, isHelp_iff.mpr h, if_pos rfl]
  | @unknown word later hhelp hflag =>
      have hnone : Flag.ofName? verb.flags word = none := by
        rw [Option.eq_none_iff_forall_ne_some]
        exact fun flag hspells => hflag flag (spells_iff.mpr hspells)
      rw [Setting.readAll, if_neg (hhelp ∘ isHelp_iff.mp), hnone]
  | missing hflag =>
      rw [Setting.readAll, hflag.not_help, if_neg Bool.false_ne_true, spells_iff.mp hflag]
  | refused later hflag hvalue =>
      rw [Setting.readAll, hflag.not_help, if_neg Bool.false_ne_true, spells_iff.mp hflag]
      dsimp only
      rw [Setting.read_eq_error_iff.mpr hvalue]

/-- Words begin with a pair, or offend, or there are none. -/
theorem takes_or_offends (verb : Verb) (words : List String) :
    words = [] ∨ (∃ fault, Offends verb words fault) ∨
      ∃ word value rest setting,
        words = word :: value :: rest ∧ verb.Takes (word, value) setting := by
  rcases words with _ | ⟨word, rest⟩
  · exact .inl rfl
  · refine .inr ?_
    by_cases hhelp : word ∈ helpWords
    · exact .inl ⟨_, .help rest hhelp⟩
    · cases hspells : Flag.ofName? verb.flags word with
      | none =>
          refine .inl ⟨_, .unknown rest hhelp fun flag hflag => ?_⟩
          rw [spells_iff.mp hflag] at hspells
          cases hspells
      | some flag =>
          have hflag := spells_iff.mpr hspells
          rcases rest with _ | ⟨value, rest⟩
          · exact .inl ⟨_, .missing hflag⟩
          · cases hvalue : Setting.read flag value with
            | error fault =>
                exact .inl ⟨fault, .refused rest hflag (Setting.read_eq_error_iff.mp hvalue)⟩
            | ok setting =>
                exact .inr ⟨word, value, rest, setting, rfl, flag, hflag,
                  Setting.read_eq_ok_iff.mp hvalue⟩

/-- Words are pairs up to the first ones that offend. -/
theorem exists_pairs (verb : Verb) (words : List String) :
    ∃ pairs settings rest, words = wordsOf pairs ++ rest ∧
      List.Forall₂ verb.Takes pairs settings ∧ (rest = [] ∨ ∃ fault, Offends verb rest fault) := by
  rcases takes_or_offends verb words with rfl | hfault | ⟨word, value, rest, setting, rfl, hpair⟩
  · exact ⟨[], [], [], rfl, .nil, .inl rfl⟩
  · exact ⟨[], [], words, rfl, .nil, .inr hfault⟩
  · obtain ⟨pairs, settings, last, rfl, hpairs, hlast⟩ := exists_pairs verb rest
    exact ⟨(word, value) :: pairs, setting :: settings, last, rfl, .cons hpair hpairs, hlast⟩
termination_by words.length

/-- Settings are read from the words behind a command, and the command is made of them. -/
theorem Request.read_word (verb : Verb) (words : List String) :
    Request.read Listing.defaultFile (verb.word :: words) =
      ((Setting.readAll verb.flags words).bind verb.settle).map Request.execute := by
  cases verb with
  | generate =>
      rw [Request.read, if_neg (by decide), if_pos (by decide), Command.readGenerate, Verb.flags]
      cases Setting.readAll Command.generateFlags words <;> rfl
  | verify =>
      rw [Request.read, if_neg (by decide), if_neg (by decide), if_pos (by decide),
        Command.readVerify, Verb.flags]
      cases Setting.readAll Command.verifyFlags words <;> rfl

/-! ## What is understood -/

variable {words : List String}

/-- Words are read as what they say. -/
theorem Verb.Says.read {result : Except UsageFault Command} (h : verb.Says words result) :
    Request.read Listing.defaultFile (verb.word :: words) = result.map Request.execute := by
  rw [Request.read_word]
  cases h with
  | command hpairs hcommand =>
      rw [readAll_wordsOf hpairs, Except.bind, hcommand.settle]
  | fault hpairs hfault =>
      rw [readAll_wordsOf_append hpairs, hfault.readAll]
      rfl
  | conflict hpairs hconflict =>
      rw [readAll_wordsOf hpairs, Except.bind, hconflict.settle]

/-- All words say something. -/
theorem exists_says (verb : Verb) (words : List String) : ∃ result, verb.Says words result := by
  obtain ⟨pairs, settings, rest, rfl, hpairs, rfl | ⟨fault, hfault⟩⟩ := exists_pairs verb words
  · rw [List.append_nil]
    by_cases hagree : verb = .verify → ¬ Conflicts settings
    · obtain ⟨command, hcommand⟩ := exists_makes hagree
      exact ⟨_, .command hpairs hcommand⟩
    · obtain ⟨rfl, hconflict⟩ := Classical.not_imp.mp hagree
      exact ⟨_, .conflict hpairs (not_not.mp hconflict)⟩
  · exact ⟨_, .fault hpairs hfault⟩

/-! ## The order of the pairs -/

/-- Whether no flag of a command stands in two of some pairs, however it is spelled. -/
def Verb.NoneTwice (verb : Verb) (pairs : List (String × String)) : Prop :=
  pairs.Pairwise fun first second =>
    ∀ flag, Spells verb first.1 flag → ¬ Spells verb second.1 flag

/-- A pair spells the flag of the setting that it makes. -/
theorem Verb.Takes.spells {pair : String × String} {setting : Setting}
    (h : verb.Takes pair setting) : Spells verb pair.1 setting.flag := by
  obtain ⟨flag, hflag, hvalue⟩ := h
  rwa [hvalue.flag_eq]

/-- A setting is made of one of the pairs. -/
theorem exists_mem_of_takes {pairs : List (String × String)} {settings : List Setting}
    (h : List.Forall₂ verb.Takes pairs settings) {setting : Setting}
    (hsetting : setting ∈ settings) :
    ∃ pair ∈ pairs, verb.Takes pair setting := by
  induction h with
  | nil => cases hsetting
  | @cons pair _ pairs _ hpair _ ih =>
      rcases List.mem_cons.mp hsetting with rfl | hrest
      · exact ⟨pair, List.mem_cons_self, hpair⟩
      · obtain ⟨other, hother, htakes⟩ := ih hrest
        exact ⟨other, List.mem_cons_of_mem _ hother, htakes⟩

/-- Pairs with different flags make settings with different flags. -/
theorem Verb.NoneTwice.nodup_flags {pairs : List (String × String)} {settings : List Setting}
    (honce : verb.NoneTwice pairs) (h : List.Forall₂ verb.Takes pairs settings) :
    (settings.map Setting.flag).Nodup := by
  induction h with
  | nil => exact List.nodup_nil
  | cons hpair hrest ih =>
      obtain ⟨hfirst, hothers⟩ := List.pairwise_cons.mp honce
      refine List.nodup_cons.mpr ⟨fun hmem => ?_, ih hothers⟩
      obtain ⟨setting, hsetting, hsame⟩ := List.mem_map.mp hmem
      obtain ⟨other, hother, htakes⟩ := exists_mem_of_takes hrest hsetting
      exact hfirst other hother _ hpair.spells (hsame ▸ htakes.spells)

/-- Words are those of one list of pairs only. -/
theorem wordsOf_injective : Function.Injective wordsOf := by
  intro first
  induction first with
  | nil =>
      intro second h
      cases second with
      | nil => rfl
      | cons pair rest => cases h
  | cons pair rest ih =>
      intro second h
      cases second with
      | nil => cases h
      | cons other others =>
          rw [wordsOf_cons, wordsOf_cons, List.cons.injEq, List.cons.injEq] at h
          rw [ih h.2.2, Prod.ext h.1 h.2.1]

/-- Pairs with different flags say the same command in any order. -/
theorem Verb.Says.perm {pairs permuted : List (String × String)} {command : Command}
    (h : verb.Says (wordsOf pairs) (.ok command)) (hperm : permuted.Perm pairs)
    (honce : verb.NoneTwice pairs) : verb.Says (wordsOf permuted) (.ok command) := by
  generalize hwords : wordsOf pairs = words at h
  cases h with
  | command hpairs hcommand =>
      obtain rfl := wordsOf_injective hwords
      obtain ⟨reordered, hreordered, hsettings⟩ := List.perm_comp_forall₂ hperm hpairs
      exact .command hreordered (hcommand.perm hsettings.symm (honce.nodup_flags hpairs))

/-! ## Command lines -/

theorem map_execute_injective {first second : Except UsageFault Command}
    (h : first.map Request.execute = second.map Request.execute) : first = second := by
  cases first <;> cases second <;> cases h <;> rfl

/-- Words are read as nothing but what they say. -/
theorem read_eq_map_iff {result : Except UsageFault Command} :
    Request.read Listing.defaultFile (verb.word :: words) = result.map Request.execute ↔
      verb.Says words result := by
  refine ⟨fun hread => ?_, Verb.Says.read⟩
  obtain ⟨said, hsays⟩ := exists_says verb words
  rwa [map_execute_injective (hread.symm.trans hsays.read)]

/-- Words are a command exactly if they are pairs of a flag and a value, which do not give `verify`
both a seed and a file. -/
theorem exists_says_command_iff :
    (∃ command, verb.Says words (.ok command)) ↔
      ∃ pairs settings, words = wordsOf pairs ∧ List.Forall₂ verb.Takes pairs settings ∧
        (verb = .verify → ¬ Conflicts settings) := by
  constructor
  · rintro ⟨command, h⟩
    cases h with
    | @command _ pairs settings _ hpairs hcommand =>
        refine ⟨pairs, settings, rfl, hpairs, ?_⟩
        rintro rfl
        cases hcommand with
        | verify _ _ _ hagree => exact hagree
  · rintro ⟨pairs, settings, rfl, hpairs, hagree⟩
    obtain ⟨command, hcommand⟩ := exists_makes hagree
    exact ⟨command, .command hpairs hcommand⟩

/-- Every command line is read as the one thing that it says. It is a command exactly if its words
are pairs of a flag and a value that do not give `verify` both a seed and a file, and with different
flags the pairs are the same command in any order. -/
theorem Verb.understood_iff (verb : Verb) :
    (∀ words, ∃ result,
      Request.read Listing.defaultFile (verb.word :: words) = result.map Request.execute ∧
        ∀ said, verb.Says words said ↔ said = result) ∧
    (∀ words,
      (∃ command, Request.read Listing.defaultFile (verb.word :: words) = .ok (.execute command)) ↔
        ∃ pairs settings, words = wordsOf pairs ∧ List.Forall₂ verb.Takes pairs settings ∧
          (verb = .verify → ¬ Conflicts settings)) ∧
    (∀ pairs permuted command, verb.NoneTwice pairs → permuted.Perm pairs →
      Request.read Listing.defaultFile (verb.word :: wordsOf pairs) = .ok (.execute command) →
        Request.read Listing.defaultFile (verb.word :: wordsOf permuted) =
          .ok (.execute command)) := by
  have hcommand : ∀ words command,
      Request.read Listing.defaultFile (verb.word :: words) = .ok (.execute command) ↔
        verb.Says words (.ok command) := fun words command =>
    @read_eq_map_iff verb words (.ok command)
  refine ⟨fun words => ?_, fun words => ?_, fun pairs permuted command honce hperm hread => ?_⟩
  · obtain ⟨result, hsays⟩ := exists_says verb words
    refine ⟨result, hsays.read, fun said => ⟨fun hsaid => ?_, fun hsame => hsame ▸ hsays⟩⟩
    exact map_execute_injective (hsaid.read.symm.trans hsays.read)
  · simp only [hcommand]
    exact exists_says_command_iff
  · rw [hcommand] at hread ⊢
    exact hread.perm hperm honce

/-- A path may look like a flag, and stands in either place. -/
theorem Verb.understood_iff_swapped :
    Verb.generate.NoneTwice [("-o", "--seed"), ("--seed", "0x+1f")] ∧
      Request.read Listing.defaultFile ["generate", "-o", "--seed", "--seed", "0x+1f"] =
        .ok (.execute (.generate "--seed" (some 31))) ∧
      Request.read Listing.defaultFile ["generate", "--seed", "0x+1f", "-o", "--seed"] =
        .ok (.execute (.generate "--seed" (some 31))) := by
  have honce : Verb.generate.NoneTwice [("-o", "--seed"), ("--seed", "0x+1f")] := by
    refine List.pairwise_pair.mpr fun flag => ?_
    rw [spells_iff, spells_iff]
    cases flag <;> decide
  have hread : Request.read Listing.defaultFile ["generate", "-o", "--seed", "--seed", "0x+1f"] =
      .ok (.execute (.generate "--seed" (some 31))) := by
    rfl
  exact ⟨honce, hread, (Verb.understood_iff .generate).2.2 _ _ _ honce (.swap _ _ _) hread⟩

/-- A bad seed is reported before a request for help behind it, and before a conflict. -/
example : Request.read Listing.defaultFile ["verify", "-i", "a.s", "-s", "7", "--seed", "x", "-h"] =
    .error (.invalidSeed "x") := by
  rfl

end WideMultiplier
