/-
Module: Calculator.Proofs.SettingsLayers
Purpose: Which settings a session gets. For each field one value counts, and a layer below it is not looked at. The
  relation `Becomes` says what a value that counts becomes as the text of its field, and `Refused` why it does not do;
  the two exclude each other. Settings are loaded if every value becomes a text, and then each field is made of its own
  value alone; otherwise the fields whose values are refused are reported, each once and in their order. All this is
  for every library that reads texts, and for whatever home directories are known.
Main exports: Layer.ofMapping, Counts, counts_iff, TrimmedHome, TildePath, HomeExpands, homeExpands_iff, levelNames,
  Becomes, Refused, Settings.textOf, Becomes.unique, Becomes.not_refused, Settings.load_eq_ok_iff,
  Settings.load_eq_error, Settings.exists_load_iff, Settings.load_congr, settings_of_layers
-/
import Calculator.Proofs.Blanks
import Calculator.Settings

namespace Calculator

variable {α : Type}

/-! ### The value that counts -/

/-- The layer of an environment that may hold any values: each field has its own variable. -/
def Layer.ofMapping (mapping : String → Option (Given α)) : Layer α :=
  fun field => mapping field.environmentName

/-- The variables of a process hold texts. -/
theorem Layer.ofEnvironment_eq (environment : Environment) :
    (ofEnvironment environment : Layer α) =
      ofMapping fun name => (environment.lookup name).map Given.text := rfl

/-- The value that counts for a field: an override, without one the variable of the field, and without that the
    default. -/
inductive Counts (mapping : String → Option (Given α)) (overrides : Layer α) (field : Field) : Given α → Prop where
  | overridden {value : Given α} (given : overrides field = some value) : Counts mapping overrides field value
  | inherited {value : Given α} (noOverride : overrides field = none)
      (held : mapping field.environmentName = some value) : Counts mapping overrides field value
  | byDefault (noOverride : overrides field = none) (noVariable : mapping field.environmentName = none) :
      Counts mapping overrides field (.text field.default)

theorem counts_iff {mapping : String → Option (Given α)} {overrides : Layer α} {field : Field} {value : Given α} :
    Counts mapping overrides field value ↔ effective (Layer.ofMapping mapping) overrides field = value := by
  unfold effective Layer.ofMapping
  constructor
  · rintro (given | ⟨noOverride, held⟩ | ⟨noOverride, noVariable⟩)
    · rw [given, Option.some_or, Option.getD_some]
    · rw [noOverride, Option.none_or, held, Option.getD_some]
    · rw [noOverride, Option.none_or, noVariable, Option.getD_none]
  · rintro rfl
    cases given : overrides field with
    | some value => exact .overridden given
    | none =>
        cases held : mapping field.environmentName with
        | some value => exact .inherited given held
        | none => exact .byDefault given held

/-! ### Home directories -/

/-- The home directory without the slashes at its end. -/
def TrimmedHome (home : String) (bare : List Char) : Prop :=
  ∃ slashes, home.toList = bare ++ slashes ∧ (∀ c ∈ slashes, c = '/') ∧ bare.getLast? ≠ some '/'

/-- A path that starts with a tilde: the name of a user, who may be left out, goes up to the first slash. -/
structure TildePath (path user rest : List Char) : Prop where
  split : path = '~' :: (user ++ rest)
  noSlash : '/' ∉ user
  atSlash : rest.head?.all (· = '/') = true

/-- A path with a home directory in place of a tilde and the name behind it, which must be one that can be looked up.
    The path of an unknown user is left alone. -/
inductive HomeExpands (homes : Homes) (path : List Char) : List Char → Prop where
  | inside {user rest bare : List Char} {home : String} (tilde : TildePath path user rest) (noNull : '\x00' ∉ user)
      (known : homes.of user = some home) (trimmed : TrimmedHome home bare) (nonempty : bare ++ rest ≠ []) :
      HomeExpands homes path (bare ++ rest)
  | root {user : List Char} {home : String} (tilde : TildePath path user []) (noNull : '\x00' ∉ user)
      (known : homes.of user = some home) (trimmed : TrimmedHome home []) : HomeExpands homes path ['/']
  | unknown {user rest : List Char} (tilde : TildePath path user rest) (noNull : '\x00' ∉ user)
      (unknown : homes.of user = none) : HomeExpands homes path path
  | elsewhere (noTilde : path.head? ≠ some '~') : HomeExpands homes path path

theorem trimmedHome_iff {home : String} {bare : List Char} :
    TrimmedHome home bare ↔ trimSlashes home.toList = bare := by
  constructor
  · rintro ⟨slashes, split, cut, ends⟩
    rw [split]
    apply rdropWhile_append
    · cases last : bare.getLast? with
      | none => rfl
      | some c => simpa [last] using ends
    · simpa using cut
  · rintro rfl
    refine ⟨home.toList.rtakeWhile (· = '/'), List.rdropWhile_append_rtakeWhile.symm, ?_, ?_⟩
    · intro c among
      simpa using List.mem_rtakeWhile_imp among
    · intro last
      have ends := getLast?_rdropWhile (· = '/') home.toList
      change (trimSlashes home.toList).getLast?.any _ = false at ends
      simp [last] at ends

theorem inHome_of_ne_nil {home : String} {rest : List Char} (nonempty : trimSlashes home.toList ++ rest ≠ []) :
    inHome home rest = trimSlashes home.toList ++ rest := by
  unfold inHome
  split
  · rename_i nothing
    exact absurd nothing nonempty
  · rfl

theorem tildePath_iff {path user rest : List Char} :
    TildePath path user rest ↔
      ∃ behind, path = '~' :: behind ∧ behind.takeWhile (· ≠ '/') = user ∧ behind.dropWhile (· ≠ '/') = rest := by
  constructor
  · rintro ⟨split, noSlash, atSlash⟩
    have inUser : ∀ c ∈ user, decide (c ≠ '/') = true := by
      intro c among
      exact decide_eq_true fun slash => noSlash (slash ▸ among)
    refine ⟨user ++ rest, split, ?_, ?_⟩
    · rw [List.takeWhile_append_of_pos inUser]
      cases rest with
      | nil => simp
      | cons c rest =>
          obtain rfl : c = '/' := by simpa using atSlash
          simp
    · rw [List.dropWhile_append_of_pos inUser]
      cases rest with
      | nil => rfl
      | cons c rest =>
          obtain rfl : c = '/' := by simpa using atSlash
          simp
  · rintro ⟨behind, rfl, rfl, rfl⟩
    refine ⟨by rw [List.takeWhile_append_dropWhile], ?_, ?_⟩
    · intro slash
      simpa using List.mem_takeWhile_imp slash
    · cases rest : behind.dropWhile (· ≠ '/') with
      | nil => rfl
      | cons c behind' =>
          have starts := List.head?_dropWhile_not (· ≠ '/') behind
          rw [rest] at starts
          simpa using starts

/-- How a path with a tilde is expanded. -/
theorem expandHome_of_tildePath {homes : Homes} {path user rest : List Char} (tilde : TildePath path user rest) :
    expandHome homes path =
      if '\x00' ∈ user then .error .nullInUser
      else .ok ((homes.of user).elim path fun home => inHome home rest) := by
  obtain ⟨behind, rfl, rfl, rfl⟩ := tildePath_iff.mp tilde
  simp only [expandHome, List.contains_eq_mem, decide_eq_true_eq]
  cases homes.of (behind.takeWhile (· ≠ '/')) <;> rfl

theorem expandHome_of_noTilde {homes : Homes} {path : List Char} (noTilde : path.head? ≠ some '~') :
    expandHome homes path = .ok path := by
  unfold expandHome
  split
  · exact absurd rfl noTilde
  · rfl

theorem tildePath_or_noTilde (path : List Char) :
    (∃ user rest, TildePath path user rest) ∨ path.head? ≠ some '~' := by
  cases path with
  | nil => exact Or.inr nofun
  | cons c behind =>
      by_cases tilde : c = '~'
      · exact Or.inl ⟨_, _, tildePath_iff.mpr ⟨behind, by rw [tilde], rfl, rfl⟩⟩
      · exact Or.inr (by simpa using tilde)

theorem homeExpands_iff {homes : Homes} {path expanded : List Char} :
    HomeExpands homes path expanded ↔ expandHome homes path = .ok expanded := by
  constructor
  · rintro (⟨tilde, noNull, known, trimmed, nonempty⟩ | ⟨tilde, noNull, known, trimmed⟩ |
      ⟨tilde, noNull, unknown⟩ | noTilde)
    · rw [trimmedHome_iff] at trimmed
      rw [expandHome_of_tildePath tilde, if_neg noNull, known, Option.elim_some,
        inHome_of_ne_nil (trimmed ▸ nonempty), trimmed]
    · rw [trimmedHome_iff] at trimmed
      rw [expandHome_of_tildePath tilde, if_neg noNull, known, Option.elim_some, inHome, trimmed]
      rfl
    · rw [expandHome_of_tildePath tilde, if_neg noNull, unknown, Option.elim_none]
    · exact expandHome_of_noTilde noTilde
  · intro done
    rcases tildePath_or_noTilde path with ⟨user, rest, tilde⟩ | noTilde
    · rw [expandHome_of_tildePath tilde] at done
      split at done
      · cases done
      · rename_i noNull
        obtain rfl := Except.ok.inj done
        cases known : homes.of user with
        | some home =>
            rw [Option.elim_some]
            by_cases nothing : trimSlashes home.toList ++ rest = []
            · obtain ⟨trimmed, rfl⟩ := List.append_eq_nil_iff.mp nothing
              rw [inHome, nothing]
              exact .root tilde noNull known (trimmedHome_iff.mpr trimmed)
            · rw [inHome_of_ne_nil nothing]
              exact .inside tilde noNull known (trimmedHome_iff.mpr rfl) nothing
        | none =>
            rw [Option.elim_none]
            exact .unknown tilde noNull known
    · rw [expandHome_of_noTilde noTilde] at done
      obtain rfl := Except.ok.inj done
      exact .elsewhere noTilde

/-- A path cannot be expanded just if the name in it holds a null character. -/
theorem expandHome_eq_error_iff {homes : Homes} {path : List Char} {problem : SettingProblem} :
    expandHome homes path = .error problem ↔
      problem = .nullInUser ∧ ∃ user rest, TildePath path user rest ∧ '\x00' ∈ user := by
  constructor
  · intro failed
    rcases tildePath_or_noTilde path with ⟨user, rest, tilde⟩ | noTilde
    · rw [expandHome_of_tildePath tilde] at failed
      split at failed
      · rename_i null
        exact ⟨(Except.error.inj failed).symm, user, rest, tilde, null⟩
      · cases failed
    · rw [expandHome_of_noTilde noTilde] at failed
      cases failed
  · rintro ⟨rfl, user, rest, tilde, null⟩
    rw [expandHome_of_tildePath tilde, if_pos null]

/-! ### Fields one by one -/

/-- The names of the log levels. -/
def levelNames : List String :=
  ["CRITICAL", "ERROR", "WARNING", "INFO", "DEBUG", "NOTSET"]

/-- A value passes for a text and does for a field, and becomes this text: a prompt is taken as it is; of a history
    file and of a log level the blanks around them are cut off, the one is then expanded and the other put in upper
    case. -/
inductive Becomes (reader : TextReader α) (homes : Homes) : Field → Given α → String → Prop where
  | prompt {value : Given α} {text : String} (taken : reader.read value = .ok text) :
      Becomes reader homes .prompt value text
  | historyFile {value : Given α} {text : String} {core path : List Char} (taken : reader.read value = .ok text)
      (stripped : Text.Stripped text.toList core) (nonempty : core ≠ []) (expands : HomeExpands homes core path) :
      Becomes reader homes .historyFile value (String.ofList path)
  | logLevel {value : Given α} {text : String} {core : List Char} (taken : reader.read value = .ok text)
      (stripped : Text.Stripped text.toList core) (known : String.ofList (Text.upper core) ∈ levelNames) :
      Becomes reader homes .logLevel value (String.ofList (Text.upper core))

/-- A value does not do for a field: it does not pass for a text, the history file is blank or starts with a tilde and
    a name that holds a null character, or the log level has no such name. -/
inductive Refused (reader : TextReader α) : Field → Given α → SettingProblem → Prop where
  | notText (field : Field) {value : Given α} {problem : TextProblem} (refused : reader.read value = .error problem) :
      Refused reader field value (.notText problem)
  | blank {value : Given α} {text : String} (taken : reader.read value = .ok text)
      (blank : ∀ c ∈ text.toList, Text.isBlank c = true) : Refused reader .historyFile value .emptyHistoryFile
  | nullInUser {value : Given α} {text : String} {core user rest : List Char} (taken : reader.read value = .ok text)
      (stripped : Text.Stripped text.toList core) (tilde : TildePath core user rest) (null : '\x00' ∈ user) :
      Refused reader .historyFile value .nullInUser
  | unknown {value : Given α} {text : String} {core : List Char} (taken : reader.read value = .ok text)
      (stripped : Text.Stripped text.toList core) (unknown : String.ofList (Text.upper core) ∉ levelNames) :
      Refused reader .logLevel value (.unknownLevel text)

/-- The text of a field in settings. -/
def Settings.textOf (settings : Settings) : Field → String
  | .prompt => settings.prompt
  | .historyFile => settings.historyFile
  | .logLevel => settings.logLevel.name

namespace LogLevel

theorem ofName?_eq_some_iff {name : String} {level : LogLevel} : ofName? name = some level ↔ level.name = name := by
  constructor
  · intro found
    simpa using List.find?_some found
  · rintro rfl
    exact ofName?_name level

theorem exists_name_iff {name : String} : (∃ level : LogLevel, level.name = name) ↔ name ∈ levelNames := by
  constructor
  · rintro ⟨level, rfl⟩
    cases level <;> decide
  · intro known
    simp only [levelNames, List.mem_cons, List.not_mem_nil, or_false] at known
    rcases known with rfl | rfl | rfl | rfl | rfl | rfl
    · exact ⟨critical, rfl⟩
    · exact ⟨error, rfl⟩
    · exact ⟨warning, rfl⟩
    · exact ⟨info, rfl⟩
    · exact ⟨debug, rfl⟩
    · exact ⟨notset, rfl⟩

theorem ofName?_eq_none_iff {name : String} : ofName? name = none ↔ name ∉ levelNames := by
  rw [← exists_name_iff, Option.eq_none_iff_forall_ne_some]
  simp only [ne_eq, ofName?_eq_some_iff, not_exists]

end LogLevel

/-! ### Checks -/

section Checks

variable {reader : TextReader α} {homes : Homes} {text : String} {field : Field} {value : Given α}
  {problem : SettingProblem}

theorem checkText_of_read (taken : reader.read value = .ok text) : checkText reader value = .ok text := by
  rw [checkText, taken]

theorem checkText_of_refused {refusal : TextProblem} (refused : reader.read value = .error refusal) :
    checkText reader value = .error (.notText refusal) := by
  rw [checkText, refused]

theorem checkText_eq_ok_iff : checkText reader value = .ok text ↔ Becomes reader homes .prompt value text := by
  constructor
  · intro passed
    cases read : reader.read value with
    | error refusal =>
        rw [checkText_of_refused read] at passed
        cases passed
    | ok taken =>
        rw [checkText_of_read read] at passed
        obtain rfl := Except.ok.inj passed
        exact .prompt read
  · rintro ⟨taken⟩
    exact checkText_of_read taken

theorem checkText_eq_error_iff : checkText reader value = .error problem ↔ Refused reader .prompt value problem := by
  constructor
  · intro failed
    cases read : reader.read value with
    | error refusal =>
        rw [checkText_of_refused read] at failed
        obtain rfl := Except.error.inj failed
        exact .notText .prompt read
    | ok taken =>
        rw [checkText_of_read read] at failed
        cases failed
  · rintro ⟨⟩
    exact checkText_of_refused ‹_›

/-- What a history file is checked for, once it is known to be a text. -/
theorem checkHistoryFile_of_read (taken : reader.read value = .ok text) :
    checkHistoryFile reader homes value =
      if Text.strip text.toList = [] then .error .emptyHistoryFile
      else (expandHome homes (Text.strip text.toList)).map String.ofList := by
  rw [checkHistoryFile, checkText_of_read taken]
  dsimp only
  cases Text.strip text.toList <;> rfl

theorem checkHistoryFile_eq_ok_iff :
    checkHistoryFile reader homes value = .ok text ↔ Becomes reader homes .historyFile value text := by
  constructor
  · intro passed
    cases read : reader.read value with
    | error refusal =>
        rw [checkHistoryFile, checkText_of_refused read] at passed
        cases passed
    | ok given =>
        rw [checkHistoryFile_of_read read] at passed
        split at passed
        · cases passed
        · rename_i nonempty
          cases expanded : expandHome homes (Text.strip given.toList) with
          | error problem =>
              rw [expanded] at passed
              cases passed
          | ok path =>
              rw [expanded] at passed
              obtain rfl := Except.ok.inj passed
              exact .historyFile read (Text.stripped_iff.mpr rfl) nonempty (homeExpands_iff.mpr expanded)
  · rintro (_ | ⟨taken, stripped, nonempty, expands⟩)
    rw [Text.stripped_iff] at stripped
    rw [checkHistoryFile_of_read taken, stripped, if_neg nonempty, homeExpands_iff.mp expands]
    rfl

theorem checkHistoryFile_eq_error_iff :
    checkHistoryFile reader homes value = .error problem ↔ Refused reader .historyFile value problem := by
  constructor
  · intro failed
    cases read : reader.read value with
    | error refusal =>
        rw [checkHistoryFile, checkText_of_refused read] at failed
        obtain rfl := Except.error.inj failed
        exact .notText .historyFile read
    | ok given =>
        rw [checkHistoryFile_of_read read] at failed
        split at failed
        · rename_i nothing
          obtain rfl := Except.error.inj failed
          exact .blank read (Text.strip_eq_nil_iff.mp nothing)
        · cases expanded : expandHome homes (Text.strip given.toList) with
          | ok path =>
              rw [expanded] at failed
              cases failed
          | error other =>
              rw [expanded] at failed
              obtain rfl := Except.error.inj failed
              obtain ⟨rfl, user, rest, tilde, null⟩ := expandHome_eq_error_iff.mp expanded
              exact .nullInUser read (Text.stripped_iff.mpr rfl) tilde null
  · intro refused
    cases refused with
    | notText _ refused => rw [checkHistoryFile, checkText_of_refused refused]
    | blank taken blank => rw [checkHistoryFile_of_read taken, if_pos (Text.strip_of_forall_isBlank blank)]
    | nullInUser taken stripped tilde null =>
        rw [Text.stripped_iff] at stripped
        rw [checkHistoryFile_of_read taken, stripped, if_neg (tilde.split ▸ List.cons_ne_nil _ _),
          expandHome_eq_error_iff.mpr ⟨rfl, _, _, tilde, null⟩]
        rfl

theorem becomes_logLevel_iff {name : String} :
    Becomes reader homes .logLevel value name ↔
      ∃ text, reader.read value = .ok text ∧ String.ofList (Text.upper (Text.strip text.toList)) = name ∧
        name ∈ levelNames := by
  constructor
  · rintro (_ | _ | ⟨taken, stripped, known⟩)
    rw [Text.stripped_iff] at stripped
    exact ⟨_, taken, by rw [stripped], known⟩
  · rintro ⟨text, taken, rfl, known⟩
    exact .logLevel taken (Text.stripped_iff.mpr rfl) known

/-- What a log level is checked for, once it is known to be a text. -/
theorem checkLevel_of_read (taken : reader.read value = .ok text) :
    checkLevel reader value =
      (LogLevel.ofName? (String.ofList (Text.upper (Text.strip text.toList)))).elim (.error (.unknownLevel text))
        .ok := by
  simp only [checkLevel, checkText_of_read taken]
  cases LogLevel.ofName? (String.ofList (Text.upper (Text.strip text.toList))) <;> rfl

theorem checkLevel_eq_ok_iff {level : LogLevel} :
    checkLevel reader value = .ok level ↔ Becomes reader homes .logLevel value level.name := by
  rw [becomes_logLevel_iff]
  cases read : reader.read value with
  | error refusal => simp [checkLevel, checkText_of_refused read]
  | ok given =>
      have known : level.name ∈ levelNames := LogLevel.exists_name_iff.mp ⟨level, rfl⟩
      simp only [Except.ok.injEq, exists_eq_left', known, and_true, checkLevel_of_read read]
      rw [eq_comm (a := String.ofList _), ← LogLevel.ofName?_eq_some_iff]
      cases LogLevel.ofName? (String.ofList (Text.upper (Text.strip given.toList))) <;> simp

theorem checkLevel_eq_error_iff :
    checkLevel reader value = .error problem ↔ Refused reader .logLevel value problem := by
  constructor
  · intro failed
    cases read : reader.read value with
    | error refusal =>
        rw [checkLevel, checkText_of_refused read] at failed
        obtain rfl := Except.error.inj failed
        exact .notText .logLevel read
    | ok given =>
        rw [checkLevel_of_read read] at failed
        cases found : LogLevel.ofName? (String.ofList (Text.upper (Text.strip given.toList))) with
        | some level => simp [found] at failed
        | none =>
            rw [found, Option.elim_none] at failed
            obtain rfl := Except.error.inj failed
            exact .unknown read (Text.stripped_iff.mpr rfl) (LogLevel.ofName?_eq_none_iff.mp found)
  · intro refused
    cases refused with
    | notText _ refused => rw [checkLevel, checkText_of_refused refused]
    | unknown taken stripped unknown =>
        rw [Text.stripped_iff] at stripped
        rw [← LogLevel.ofName?_eq_none_iff] at unknown
        simp [checkLevel_of_read taken, stripped, unknown]

/-- A value becomes one text at most. -/
theorem Becomes.unique {one other : String} (first : Becomes reader homes field value one)
    (second : Becomes reader homes field value other) : one = other := by
  cases field with
  | prompt =>
      rw [← checkText_eq_ok_iff] at first second
      exact Except.ok.inj (first.symm.trans second)
  | historyFile =>
      rw [← checkHistoryFile_eq_ok_iff] at first second
      exact Except.ok.inj (first.symm.trans second)
  | logLevel =>
      obtain ⟨text, taken, upper, -⟩ := becomes_logLevel_iff.mp first
      obtain ⟨again, takenAgain, upperAgain, -⟩ := becomes_logLevel_iff.mp second
      obtain rfl := Except.ok.inj (taken.symm.trans takenAgain)
      exact upper.symm.trans upperAgain

/-- What becomes a text is not refused. -/
theorem Becomes.not_refused (becomes : Becomes reader homes field value text) :
    ¬Refused reader field value problem := by
  intro refused
  cases field with
  | prompt =>
      rw [← checkText_eq_error_iff, checkText_eq_ok_iff.mpr becomes] at refused
      cases refused
  | historyFile =>
      rw [← checkHistoryFile_eq_error_iff, checkHistoryFile_eq_ok_iff.mpr becomes] at refused
      cases refused
  | logLevel =>
      obtain ⟨-, -, -, known⟩ := becomes_logLevel_iff.mp becomes
      obtain ⟨level, rfl⟩ := LogLevel.exists_name_iff.mpr known
      rw [← checkLevel_eq_error_iff, checkLevel_eq_ok_iff.mpr becomes] at refused
      cases refused

end Checks

/-! ### Settings as a whole -/

theorem mem_problemOf_iff {β : Type} {field checked : Field} {problem : SettingProblem}
    {result : Except SettingProblem β} :
    (field, problem) ∈ problemOf checked result ↔ field = checked ∧ result = .error problem := by
  cases result <;> simp [problemOf, eq_comm]

theorem map_fst_problemOf_sublist {β : Type} (field : Field) (result : Except SettingProblem β) :
    ((problemOf field result).map Prod.fst).Sublist [field] := by
  cases result with
  | ok => exact List.nil_sublist _
  | error problem => exact List.Sublist.refl _

namespace Settings

variable {reader : TextReader α} {homes : Homes} {environment overrides : Layer α}

/-- Settings are loaded if each field has the text that its value becomes. -/
theorem load_eq_ok_iff {settings : Settings} :
    load reader homes environment overrides = .ok settings ↔
      ∀ field, Becomes reader homes field (effective environment overrides field) (settings.textOf field) := by
  have checks : load reader homes environment overrides = .ok settings ↔
      checkText reader (effective environment overrides .prompt) = .ok settings.prompt ∧
      checkHistoryFile reader homes (effective environment overrides .historyFile) = .ok settings.historyFile ∧
      checkLevel reader (effective environment overrides .logLevel) = .ok settings.logLevel := by
    obtain ⟨prompt, historyFile, logLevel⟩ := settings
    unfold load
    cases checkText reader (effective environment overrides .prompt) <;>
      cases checkHistoryFile reader homes (effective environment overrides .historyFile) <;>
      cases checkLevel reader (effective environment overrides .logLevel) <;> simp
  rw [checks, @checkText_eq_ok_iff α reader homes, checkHistoryFile_eq_ok_iff,
    @checkLevel_eq_ok_iff α reader homes]
  constructor
  · rintro ⟨prompt, historyFile, logLevel⟩ field
    cases field with
    | prompt => exact prompt
    | historyFile => exact historyFile
    | logLevel => exact logLevel
  · intro each
    exact ⟨each .prompt, each .historyFile, each .logLevel⟩

/-- Otherwise the problems are those of the fields that are refused. -/
theorem load_eq_error {problems : List (Field × SettingProblem)}
    (failed : load reader homes environment overrides = .error problems) :
    problems ≠ [] ∧ (problems.map Prod.fst).Sublist [.prompt, .historyFile, .logLevel] ∧
      ∀ field problem, (field, problem) ∈ problems ↔
        Refused reader field (effective environment overrides field) problem := by
  have collected : problems ≠ [] ∧ problems =
      problemOf .prompt (checkText reader (effective environment overrides .prompt)) ++
        problemOf .historyFile (checkHistoryFile reader homes (effective environment overrides .historyFile)) ++
        problemOf .logLevel (checkLevel reader (effective environment overrides .logLevel)) := by
    unfold load at failed
    revert failed
    cases checkText reader (effective environment overrides .prompt) <;>
      cases checkHistoryFile reader homes (effective environment overrides .historyFile) <;>
      cases checkLevel reader (effective environment overrides .logLevel) <;> intro failed
    case ok.ok.ok => cases failed
    all_goals
      obtain rfl := Except.error.inj failed
      exact ⟨by simp [problemOf], rfl⟩
  obtain ⟨nonempty, collected⟩ := collected
  refine ⟨nonempty, ?_, ?_⟩
  · rw [collected, List.map_append, List.map_append]
    exact ((map_fst_problemOf_sublist _ _).append (map_fst_problemOf_sublist _ _)).append
      (map_fst_problemOf_sublist _ _)
  · intro field problem
    rw [collected, List.mem_append, List.mem_append, mem_problemOf_iff, mem_problemOf_iff, mem_problemOf_iff,
      checkText_eq_error_iff, checkHistoryFile_eq_error_iff, checkLevel_eq_error_iff]
    cases field <;> simp

/-- What is loaded depends on the values that count alone. -/
theorem load_congr {otherEnvironment otherOverrides : Layer α}
    (same : ∀ field, effective otherEnvironment otherOverrides field = effective environment overrides field) :
    load reader homes otherEnvironment otherOverrides = load reader homes environment overrides := by
  unfold load
  simp only [same]

/-- Settings are loaded just if no value that counts is refused. -/
theorem exists_load_iff :
    (∃ settings, load reader homes environment overrides = .ok settings) ↔
      ∀ field problem, ¬Refused reader field (effective environment overrides field) problem := by
  constructor
  · rintro ⟨settings, loaded⟩ field problem
    exact (load_eq_ok_iff.mp loaded field).not_refused
  · intro fine
    cases loaded : load reader homes environment overrides with
    | ok settings => exact ⟨settings, rfl⟩
    | error problems =>
        obtain ⟨nonempty, -, refused⟩ := load_eq_error loaded
        obtain ⟨⟨field, problem⟩, among⟩ := List.exists_mem_of_ne_nil _ nonempty
        exact absurd ((refused field problem).mp among) (fine field problem)

end Settings

/-- **Layers.** For each field one value counts: an override, else the variable of the field, else the default. Settings
    are loaded just if none of these values is refused; otherwise the refused fields are reported, each once and in
    their order. Loaded settings have for each field the text that its value becomes, whatever the other fields are,
    and a variable below an override makes no difference. -/
theorem settings_of_layers (reader : TextReader α) (homes : Homes) (mapping : String → Option (Given α))
    (overrides : Layer α) :
    let value := effective (Layer.ofMapping mapping) overrides
    let loaded := Settings.load reader homes (Layer.ofMapping mapping) overrides
    (∀ field given, Counts mapping overrides field given ↔ value field = given) ∧
    ((∃ settings, loaded = .ok settings) ↔ ∀ field problem, ¬Refused reader field (value field) problem) ∧
    (∀ problems, loaded = .error problems →
      (problems.map Prod.fst).Sublist [.prompt, .historyFile, .logLevel] ∧
      ∀ field problem, (field, problem) ∈ problems ↔ Refused reader field (value field) problem) ∧
    (∀ settings, loaded = .ok settings ↔
      ∀ field, Becomes reader homes field (value field) (settings.textOf field)) ∧
    (∀ otherMapping otherOverrides settings other, loaded = .ok settings →
      Settings.load reader homes (Layer.ofMapping otherMapping) otherOverrides = .ok other →
      ∀ field, effective (Layer.ofMapping otherMapping) otherOverrides field = value field →
        other.textOf field = settings.textOf field) ∧
    ∀ otherMapping : String → Option (Given α),
      (∀ field, overrides field = none → otherMapping field.environmentName = mapping field.environmentName) →
      Settings.load reader homes (Layer.ofMapping otherMapping) overrides = loaded := by
  intro value loaded
  refine ⟨fun _ _ => counts_iff, Settings.exists_load_iff, ?_, fun _ => Settings.load_eq_ok_iff, ?_, ?_⟩
  · intro problems failed
    exact (Settings.load_eq_error failed).2
  · intro otherMapping otherOverrides settings other first second field same
    have one := Settings.load_eq_ok_iff.mp first field
    have two := Settings.load_eq_ok_iff.mp second field
    rw [same] at two
    exact two.unique one
  · intro otherMapping same
    apply Settings.load_congr
    intro field
    unfold effective Layer.ofMapping
    cases given : overrides field with
    | some value => rfl
    | none => rw [same field given]

/-- An empty prompt hides a variable that does not pass for a text, another value passes for one, and a level is known
    by characters that are not ASCII. Without the override that variable is refused, and so is a history file of one
    blank. -/
theorem settings_of_layers_masked :
    let reader : TextReader (Option String) :=
      ⟨fun | .text value | .other (some value) => .ok value | .other none => .error ⟨"string_type", "No text"⟩,
        fun _ => rfl⟩
    let homes : Homes := ⟨some "home//", fun user => if user = "root" then some "/root/" else none⟩
    let held (prompt : Given (Option String)) : List (String × Given (Option String)) :=
      [("INTCALC_PROMPT", prompt), ("INTCALC_HISTORY_FILE", .other (some "\u00a0~root/h \t")),
        ("INTCALC_LOG_LEVEL", .text "\u0131nfo")]
    let mapping := fun name => (held (.other none)).lookup name
    let covering : Layer (Option String) := fun field => if field = .prompt then some (.text "") else none
    let failing : Layer (Option String) := fun field => if field = .historyFile then some (.text "\u2003") else none
    Settings.load reader homes (Layer.ofMapping mapping) covering = .ok ⟨"", "/root/h", .info⟩ ∧
      (∀ prompt, Settings.load reader homes (Layer.ofMapping fun name => (held prompt).lookup name) covering =
        .ok ⟨"", "/root/h", .info⟩) ∧
      ∃ problems, Settings.load reader homes (Layer.ofMapping mapping) failing = .error problems ∧
        problems.map Prod.fst = [.prompt, .historyFile] ∧
        Refused reader .historyFile (.text "\u2003") .emptyHistoryFile := by
  intro reader homes held mapping covering failing
  obtain ⟨-, -, -, loads, -, masked⟩ := settings_of_layers reader homes mapping covering
  have hidden : Settings.load reader homes (Layer.ofMapping mapping) covering = .ok ⟨"", "/root/h", .info⟩ := by
    apply (loads _).mpr
    intro field
    cases field with
    | prompt => exact .prompt rfl
    | historyFile => exact checkHistoryFile_eq_ok_iff.mp (by rfl)
    | logLevel =>
        have level : checkLevel reader (.text "\u0131nfo") = .ok .info := by rfl
        exact checkLevel_eq_ok_iff.mp level
  refine ⟨hidden, ?_, ?_⟩
  · intro prompt
    rw [masked (fun name => (held prompt).lookup name), hidden]
    intro field visible
    cases field with
    | prompt => cases visible
    | historyFile | logLevel => rfl
  · obtain ⟨-, -, fails, -⟩ := settings_of_layers reader homes mapping failing
    have failed : Settings.load reader homes (Layer.ofMapping mapping) failing =
        .error [(.prompt, .notText ⟨"string_type", "No text"⟩), (.historyFile, .emptyHistoryFile)] := by rfl
    exact ⟨_, failed, rfl, ((fails _ failed).2 .historyFile _).mp (by simp)⟩

/-- It is not enough that all values are texts, that the history file is not blank and that the log level is known: a
    null character in the name behind a tilde cannot be looked up. -/
theorem null_in_user_refused :
    ¬∀ (reader : TextReader Unit) (homes : Homes) (mapping : String → Option (Given Unit)) (overrides : Layer Unit)
      (texts : Field → String),
      (∀ field, effective (Layer.ofMapping mapping) overrides field = .text (texts field)) →
      (∃ c ∈ (texts .historyFile).toList, Text.isBlank c = false) →
      String.ofList (Text.upper (Text.strip (texts .logLevel).toList)) ∈ levelNames →
      ∃ settings, Settings.load reader homes (Layer.ofMapping mapping) overrides = .ok settings := by
  intro claim
  let mapping (name : String) : Option (Given Unit) :=
    if name = "INTCALC_HISTORY_FILE" then some (.text "~a\x00b") else none
  let texts : Field → String := fun
    | .prompt => "> "
    | .historyFile => "~a\x00b"
    | .logLevel => "WARNING"
  have given : ∀ field, effective (Layer.ofMapping mapping) Layer.nothing field = .text (texts field) := by
    intro field
    cases field <;> rfl
  have visible : ∃ c ∈ (texts .historyFile).toList, Text.isBlank c = false := ⟨'~', by decide, by decide⟩
  obtain ⟨settings, loaded⟩ := claim .textOnly (.only "home") mapping Layer.nothing texts given visible (by decide)
  have refused : Settings.load .textOnly (.only "home") (Layer.ofMapping mapping) Layer.nothing =
      .error [(.historyFile, .nullInUser)] := by rfl
  rw [refused] at loaded
  cases loaded

end Calculator
