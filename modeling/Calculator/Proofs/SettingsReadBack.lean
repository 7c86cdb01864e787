/-
Module: Calculator.Proofs.SettingsReadBack
Purpose: Settings given again are the same settings. The text that a field gets from a value is itself a value that
  becomes this text: no blanks are left around it, it is in upper case if it is a log level, and if it is a path, no
  tilde in it stands for the home directory any more. For paths this takes a home directory that does not start with
  a tilde itself and has no blanks at its ends, and that there is no other user.
Main exports: PlainHome, SteadyPath, steadyPath_of_expands, SteadyPath.becomes, Becomes.again,
  settings_read_back
-/
import Calculator.Proofs.SettingsLayers

namespace Calculator

variable {α : Type}

/-! ### Paths that stay as they are -/

/-- Without the slashes at its end, the home directory does not start with a tilde, and neither starts nor ends with
    a blank. -/
def PlainHome (home : String) : Prop :=
  ∃ bare, TrimmedHome home bare ∧ bare.head? ≠ some '~' ∧ bare.head?.any Text.isBlank = false ∧
    bare.getLast?.any Text.isBlank = false

/-- A path that is not empty, with no blanks around it and no tilde to expand. -/
structure SteadyPath (homes : Homes) (path : List Char) : Prop where
  nonempty : path ≠ []
  starts : path.head?.any Text.isBlank = false
  ends : path.getLast?.any Text.isBlank = false
  stays : HomeExpands homes path path
  notAlone : path ≠ ['~']
  notInside : ¬['~', '/'] <+: path

section Paths

variable {reader : TextReader α} {home text : String} {core path : List Char}

theorem steadyPath_of_head? {homes : Homes} (nonempty : path ≠ []) (starts : path.head?.any Text.isBlank = false)
    (ends : path.getLast?.any Text.isBlank = false) (noTilde : path.head? ≠ some '~') : SteadyPath homes path := by
  refine ⟨nonempty, starts, ends, .elsewhere noTilde, ?_, ?_⟩
  · rintro rfl
    exact noTilde rfl
  · rintro ⟨rest, rfl⟩
    exact noTilde rfl

/-- The tilde alone, or before a slash, has no name behind it. -/
theorem user_eq_nil_of_alone {user rest : List Char} (tilde : TildePath path user rest)
    (alone : path = ['~'] ∨ ['~', '/'] <+: path) : user = [] := by
  obtain ⟨behind, split, rfl, -⟩ := tildePath_iff.mp tilde
  rcases alone with rfl | ⟨later, rfl⟩
  · obtain rfl : [] = behind := (List.cons.inj split).2
    rfl
  · obtain rfl : '/' :: later = behind := (List.cons.inj split).2
    rfl

/-- The only user is the one who is not named. -/
theorem of_only {user : List Char} {found : String} (known : (Homes.only home).of user = some found) :
    found = home ∧ user = [] := by
  unfold Homes.of at known
  split at known
  · exact ⟨(Option.some.inj known).symm, ‹_›⟩
  · cases known

/-- What a path without blanks around it expands to needs no stripping and no expansion. -/
theorem steadyPath_of_expands (plain : PlainHome home) (nonempty : core ≠ [])
    (starts : core.head?.any Text.isBlank = false) (ends : core.getLast?.any Text.isBlank = false)
    (expands : HomeExpands (.only home) core path) : SteadyPath (.only home) path := by
  obtain ⟨known, trimmedKnown, noTilde, homeStarts, homeEnds⟩ := plain
  have same : ∀ {bare}, TrimmedHome home bare → bare = known := by
    intro bare trimmed
    rw [← trimmedHome_iff.mp trimmed, trimmedHome_iff.mp trimmedKnown]
  cases expands with
  | @inside user rest bare found tilde _ found_eq trimmed named =>
      obtain ⟨rfl, rfl⟩ := of_only found_eq
      obtain rfl := same trimmed
      have atSlash := tilde.atSlash
      -- the slash stands at the start if nothing is left of the home directory
      refine steadyPath_of_head? named ?_ ?_ ?_
      · rw [List.head?_append]
        cases first : bare.head? with
        | some c => simpa [first] using homeStarts
        | none =>
            cases rest with
            | nil => rfl
            | cons c rest =>
                obtain rfl : c = '/' := by simpa using atSlash
                exact (by decide : Text.isBlank '/' = false)
      · cases rest with
        | nil => rwa [List.append_nil]
        | cons c rest =>
            rw [List.getLast?_append_of_ne_nil _ (List.cons_ne_nil _ _)]
            rw [tilde.split] at ends
            simpa using ends
      · rw [List.head?_append]
        cases first : bare.head? with
        | some c => simpa [first] using noTilde
        | none =>
            cases rest with
            | nil => nofun
            | cons c rest =>
                obtain rfl : c = '/' := by simpa using atSlash
                simp
  | root => exact steadyPath_of_head? (by decide) (by decide) (by decide) (by decide)
  | unknown tilde noNull unknown =>
      have named : ¬(core = ['~'] ∨ ['~', '/'] <+: core) := by
        intro alone
        rw [user_eq_nil_of_alone tilde alone] at unknown
        cases unknown
      obtain ⟨notAlone, notInside⟩ := not_or.mp named
      exact ⟨nonempty, starts, ends, .unknown tilde noNull unknown, notAlone, notInside⟩
  | elsewhere noTilde => exact steadyPath_of_head? nonempty starts ends noTilde

theorem stripped_self (starts : core.head?.any Text.isBlank = false)
    (ends : core.getLast?.any Text.isBlank = false) : Text.Stripped core core :=
  ⟨[], [], by simp, nofun, nofun, starts, ends⟩

theorem SteadyPath.becomes {homes : Homes} (steady : SteadyPath homes path) (reader : TextReader α) :
    Becomes reader homes .historyFile (.text (String.ofList path)) (String.ofList path) := by
  refine .historyFile (reader.read_text _) ?_ steady.nonempty steady.stays
  rw [String.toList_ofList]
  exact stripped_self steady.starts steady.ends

theorem steadyPath_of_becomes {value : Given α} (plain : PlainHome home)
    (becomes : Becomes reader (.only home) .historyFile value text) : SteadyPath (.only home) text.toList := by
  cases becomes with
  | historyFile _ stripped nonempty expands =>
      obtain ⟨-, -, -, -, -, starts, ends⟩ := stripped
      rw [String.toList_ofList]
      exact steadyPath_of_expands plain nonempty starts ends expands

/-- The name of a level is read as this name. -/
theorem becomes_of_mem_levelNames {homes : Homes} {name : String} (known : name ∈ levelNames) :
    Becomes reader homes .logLevel (.text name) name := by
  rw [becomes_logLevel_iff]
  refine ⟨name, reader.read_text name, ?_, known⟩
  simp only [levelNames, List.mem_cons, List.not_mem_nil, or_false] at known
  rcases known with rfl | rfl | rfl | rfl | rfl | rfl <;> decide

/-- What a value becomes is a value that becomes the same. -/
theorem Becomes.again {field : Field} {value : Given α} (plain : PlainHome home)
    (becomes : Becomes reader (.only home) field value text) :
    Becomes reader (.only home) field (.text text) text := by
  cases field with
  | prompt => exact .prompt (reader.read_text text)
  | historyFile =>
      have again := (steadyPath_of_becomes plain becomes).becomes reader
      rwa [String.ofList_toList] at again
  | logLevel =>
      obtain ⟨-, -, -, known⟩ := becomes_logLevel_iff.mp becomes
      exact becomes_of_mem_levelNames known

end Paths

/-- **Reading back.** With a plain home directory, loaded settings that are given again, each field as an override
    over any environment or as a variable without an override, are loaded as they are. Their history file is not blank,
    and no tilde in it stands for the home directory. -/
theorem settings_read_back {reader : TextReader α} {home : String} (plain : PlainHome home)
    {mapping : String → Option (Given α)} {overrides : Layer α} {settings : Settings}
    (loaded : Settings.load reader (.only home) (Layer.ofMapping mapping) overrides = .ok settings) :
    (∀ others, Settings.load reader (.only home) others (fun field => some (.text (settings.textOf field))) =
      .ok settings) ∧
    (∀ others : String → Option (Given α),
      (∀ field, others field.environmentName = some (.text (settings.textOf field))) →
      Settings.load reader (.only home) (Layer.ofMapping others) Layer.nothing = .ok settings) ∧
    (∀ environment : Environment,
      (∀ field, environment.lookup field.environmentName = some (settings.textOf field)) →
      Settings.load reader (.only home) (Layer.ofEnvironment environment) Layer.nothing = .ok settings) ∧
    (∀ others otherOverrides, (∀ field, Counts others otherOverrides field (.text (settings.textOf field))) →
      Settings.load reader (.only home) (Layer.ofMapping others) otherOverrides = .ok settings) ∧
    (∃ c ∈ settings.historyFile.toList, Text.isBlank c = false) ∧ settings.historyFile ≠ "~" ∧
    ¬"~/".toList <+: settings.historyFile.toList := by
  have becomes := Settings.load_eq_ok_iff.mp loaded
  have again : ∀ {environment otherOverrides},
      (∀ field, effective environment otherOverrides field = .text (settings.textOf field)) →
      Settings.load reader (.only home) environment otherOverrides = .ok settings := by
    intro environment otherOverrides given
    apply Settings.load_eq_ok_iff.mpr
    intro field
    rw [given]
    exact (becomes field).again plain
  have steady : SteadyPath (.only home) settings.historyFile.toList :=
    steadyPath_of_becomes plain (becomes .historyFile)
  refine ⟨?_, ?_, ?_, ?_, ?_, ?_, steady.notInside⟩
  · intro others
    exact again fun field => rfl
  · intro others held
    exact again fun field => counts_iff.mp (.inherited rfl (held field))
  · intro environment held
    rw [Layer.ofEnvironment_eq]
    exact again fun field => counts_iff.mp (.inherited rfl (by rw [held field, Option.map_some]))
  · intro others otherOverrides counts
    exact again fun field => counts_iff.mp (counts field)
  · obtain ⟨c, first⟩ := Option.ne_none_iff_exists'.mp (mt List.head?_eq_none_iff.mp steady.nonempty)
    refine ⟨c, List.mem_of_mem_head? first, ?_⟩
    simpa [first] using steady.starts
  · intro alone
    exact steady.notAlone (congrArg String.toList alone)

/-- A home directory with a blank and a tilde inside, and a path that ends in a slash. -/
theorem settings_read_back_slash :
    let reader : TextReader Unit := .textOnly
    let home := "/a ~b//"
    let settings : Settings := ⟨" ~ ", "/a ~b/", .critical⟩
    let mapping : String → Option (Given Unit) := fun name =>
      [("INTCALC_PROMPT", Given.text " ~ "), ("INTCALC_HISTORY_FILE", .text " ~/\n"),
        ("INTCALC_LOG_LEVEL", .text "critical ")].lookup name
    let written : Environment :=
      [("INTCALC_LOG_LEVEL", "CRITICAL"), ("HOME", home), ("INTCALC_PROMPT", " ~ "),
        ("INTCALC_HISTORY_FILE", "/a ~b/")]
    PlainHome home ∧ Settings.load reader (.only home) (Layer.ofMapping mapping) Layer.nothing = .ok settings ∧
      Settings.load reader (.only home) (Layer.ofMapping mapping) (fun field => some (.text (settings.textOf field))) =
        .ok settings ∧
      Settings.load reader (.only home) (Layer.ofEnvironment written) Layer.nothing = .ok settings := by
  intro reader home settings mapping written
  have plain : PlainHome home :=
    ⟨"/a ~b".toList, trimmedHome_iff.mpr (by decide), by decide, by decide, by decide⟩
  have loaded : Settings.load reader (.only home) (Layer.ofMapping mapping) Layer.nothing = .ok settings := by
    apply Settings.load_eq_ok_iff.mpr
    intro field
    cases field with
    | prompt => exact .prompt rfl
    | historyFile =>
        have file : checkHistoryFile (.textOnly : TextReader Unit) (.only "/a ~b//") (.text " ~/\n") =
            .ok "/a ~b/" := by rfl
        exact checkHistoryFile_eq_ok_iff.mp file
    | logLevel =>
        have level : checkLevel reader (.text "critical ") = .ok .critical := by rfl
        exact checkLevel_eq_ok_iff.mp level
  obtain ⟨overridden, -, inherited, -⟩ := settings_read_back plain loaded
  refine ⟨plain, loaded, overridden _, inherited written ?_⟩
  intro field
  cases field <;> rfl

end Calculator
