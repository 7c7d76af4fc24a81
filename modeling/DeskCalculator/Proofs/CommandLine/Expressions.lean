import DeskCalculator.CommandLine.Run
import DeskCalculator.Proofs.Outcome

/-!
Expressions as arguments of the program.

An expression is calculated whatever options stand before it, unless it begins with a minus and
goes on: then it is taken for an option that there is not, for all that a number or a parenthesis
may have a minus before it. Behind `--` every expression is calculated.

* `TakenForOption`: the arguments that are taken for options.
* `OptionArguments`: arguments that set options, each at most once. They are read so, and leave
  what is behind them (`OptionArguments.behind_append`).
* `Request.command_eval`, `Request.command_eval_taken`: an expression as the argument of the
  command.
* `Report.Answers`, `RunCalculates`: what a run prints that calculates, and what it does
  (`calculates_runCommand`).
* `expression_argument`: the result.
* `difference_taken_for_option`: an expression that has a value and is refused.
-/

namespace DeskCalculator

/-! ### Options -/

/-- An argument that begins with a minus and goes on. -/
def TakenForOption (arg : String) : Prop := ∃ c cs, arg.toList = '-' :: c :: cs

/-- Arguments that set options. A value that is an argument of its own is not taken for an
option. -/
inductive OptionArguments : List String → Options → Prop
  | none : OptionArguments [] ⟨.none, .none, false⟩
  | settingsFile {front : List String} {directory : Option String} {ephemeral : Bool}
      {path : String} (h : OptionArguments front ⟨.none, directory, ephemeral⟩) (named : path ≠ "")
      (plain : ¬ TakenForOption path) :
      OptionArguments (front ++ ["--config", path]) ⟨some path, directory, ephemeral⟩
  | settingsFileJoined {front : List String} {directory : Option String} {ephemeral : Bool}
      {path : String} (h : OptionArguments front ⟨.none, directory, ephemeral⟩)
      (named : path ≠ "") :
      OptionArguments (front ++ ["--config=" ++ path]) ⟨some path, directory, ephemeral⟩
  | dataDirectory {front : List String} {file : Option String} {ephemeral : Bool}
      {path : String} (h : OptionArguments front ⟨file, .none, ephemeral⟩) (named : path ≠ "")
      (plain : ¬ TakenForOption path) :
      OptionArguments (front ++ ["--data-dir", path]) ⟨file, some path, ephemeral⟩
  | dataDirectoryJoined {front : List String} {file : Option String} {ephemeral : Bool}
      {path : String} (h : OptionArguments front ⟨file, .none, ephemeral⟩) (named : path ≠ "") :
      OptionArguments (front ++ ["--data-dir=" ++ path]) ⟨file, some path, ephemeral⟩
  | ephemeral {front : List String} {file directory : Option String}
      (h : OptionArguments front ⟨file, directory, false⟩) :
      OptionArguments (front ++ ["--ephemeral"]) ⟨file, directory, true⟩

namespace Request

variable {options options' : Options} {name value : String}
  {set : Options → String → Except Misuse Options}

/-- The arguments that begin with a minus and go on are read as options. -/
lemma isOption_iff {arg : String} : isOption arg = true ↔ TakenForOption arg := by
  rw [isOption]
  split
  · case _ c cs hchars => exact iff_of_true rfl ⟨c, cs, hchars⟩
  · case _ hother => exact iff_of_false (by decide) fun ⟨c, cs, hchars⟩ => hother c cs hchars

/-- An option is set to the next argument. -/
lemma behind_separate (hname : valued? name = some set) (hvalue : ¬ TakenForOption value)
    (hset : set options value = .ok options') (args : List String) :
    behind (.ok options) (name :: value :: args) = behind (.ok options') args := by
  rw [← hset]
  unfold valued? at hname
  split at hname <;> cases hname <;>
  · rw [behind, if_neg (by decide), if_neg (by decide)]
    dsimp only [Except.bind]
    rw [if_neg (by decide), if_neg (by decide)]
    simp [valued?, mt isOption_iff.1 hvalue]

/-- The name of an option that takes a value begins with two minus signs and has no equals sign. -/
lemma form_of_valued? (hname : valued? name = some set) :
    (∃ cs, name.toList = '-' :: '-' :: cs) ∧ '=' ∉ name.toList := by
  unfold valued? at hname
  split at hname
  · exact ⟨⟨_, rfl⟩, by decide⟩
  · exact ⟨⟨_, rfl⟩, by decide⟩
  · cases hname

/-- A value that is joined to an option by an equals sign is told from it. -/
lemma optionName_joined (value : String) {cs : List Char} (hname : name.toList = '-' :: '-' :: cs)
    (hequals : '=' ∉ name.toList) :
    optionName (name ++ "=" ++ value) = name ∧
      joinedValue? (name ++ "=" ++ value) = some value := by
  have hfront : ∀ c ∈ name.toList, decide (c ≠ '=') = true := by
    intro c hc
    rw [decide_eq_true_eq]
    rintro rfl
    exact hequals hc
  have hchars : (name ++ "=" ++ value).toList = name.toList ++ '=' :: value.toList := by
    simp
  have hbegins : beginsWith (name ++ "=" ++ value) "--" = true := by
    rw [beginsWith, hchars, hname]
    rfl
  constructor
  · rw [optionName, if_pos hbegins, hchars, List.takeWhile_append_of_pos hfront]
    simp
  · rw [joinedValue?, hchars, List.dropWhile_append_of_pos hfront]
    simp

/-- An option is set to a value that is joined to it. -/
lemma behind_joined (hname : valued? name = some set) (hset : set options value = .ok options')
    (args : List String) :
    behind (.ok options) ((name ++ "=" ++ value) :: args) = behind (.ok options') args := by
  obtain ⟨⟨cs, hcs⟩, hequals⟩ := form_of_valued? hname
  obtain ⟨hoption, hvalue⟩ := optionName_joined value hcs hequals
  have hchars : (name ++ "=" ++ value).toList = '-' :: '-' :: (cs ++ '=' :: value.toList) := by
    simp [hcs]
  have hne {text : String} (h : '=' ∉ text.toList) : name ++ "=" ++ value ≠ text := by
    rintro rfl
    exact h (by simp)
  generalize name ++ "=" ++ value = arg at hoption hvalue hchars hne
  have hisOption : isOption arg = true := isOption_iff.2 ⟨_, _, hchars⟩
  have hversion : asksForVersion arg = false := by
    rw [asksForVersion, beginsWith, hchars, beq_eq_false_iff_ne.2 (hne (by decide))]
    rfl
  have hhelp : asksForHelp arg = false := by
    rw [asksForHelp, beginsWith, hchars, beq_eq_false_iff_ne.2 (hne (by decide))]
    rfl
  have hnone : valued? arg = none := by
    unfold valued?
    split
    · exact absurd rfl (hne (by decide))
    · exact absurd rfl (hne (by decide))
    · rfl
  rw [behind, if_neg (hne (by decide)), hisOption, if_neg (by decide)]
  dsimp only [Except.bind]
  rw [hversion, hhelp, if_neg (by decide), if_neg (by decide), hnone]
  simp only [withSingle, hoption, hvalue, hname, hset]

end Request

lemma OptionArguments.behind_append {front : List String} {options : Options}
    (h : OptionArguments front options) (args : List String) :
    Request.behind (.ok Request.noOptions) (front ++ args) = Request.behind (.ok options) args := by
  induction h generalizing args with
  | none => rfl
  | @settingsFile front directory ephemeral path h named plain ih =>
      rw [List.append_assoc, ih]
      have hname : Request.valued? "--config" = some Request.withSettingsFile := rfl
      exact Request.behind_separate hname plain (by simp [Request.withSettingsFile, named]) args
  | @settingsFileJoined front directory ephemeral path h named ih =>
      rw [List.append_assoc, ih]
      have hname : Request.valued? "--config" = some Request.withSettingsFile := rfl
      exact Request.behind_joined hname (by simp [Request.withSettingsFile, named]) args
  | @dataDirectory front file ephemeral path h named plain ih =>
      rw [List.append_assoc, ih]
      have hname : Request.valued? "--data-dir" = some Request.withDataDirectory := rfl
      exact Request.behind_separate hname plain (by simp [Request.withDataDirectory, named]) args
  | @dataDirectoryJoined front file ephemeral path h named ih =>
      rw [List.append_assoc, ih]
      have hname : Request.valued? "--data-dir" = some Request.withDataDirectory := rfl
      exact Request.behind_joined hname (by simp [Request.withDataDirectory, named]) args
  | ephemeral h ih =>
      rw [List.append_assoc, ih]
      rfl

/-! ### Expressions -/

namespace Request

variable {e : String}

/-- An argument that asks for help is taken for an option. -/
lemma takenForOption_of_asksForHelp (h : asksForHelp e = true) :
    TakenForOption e ∧ ∃ c ∈ e.toList, inAlphabet c = false := by
  rw [asksForHelp, Bool.or_eq_true, beq_iff_eq, beginsWith, List.isPrefixOf_iff_prefix] at h
  rcases h with rfl | ⟨cs, hcs⟩
  · exact ⟨⟨_, _, rfl⟩, 'h', by decide, by decide⟩
  · refine ⟨⟨'h', cs, hcs.symm⟩, 'h', ?_, by decide⟩
    rw [← hcs]
    simp

/-- An expression that is not taken for an option is calculated. -/
lemma command_eval (h : ¬ TakenForOption e) : command "eval" [e] = .ok (some (.calculate e)) := by
  have hdashes : e ≠ "--" := by
    rintro rfl
    exact h ⟨_, _, rfl⟩
  have hhelp : ¬ asksForHelp e = true := fun hhelp => h (takenForOption_of_asksForHelp hhelp).1
  have harguments : commandArguments 1 [e] = .ok (some [e]) := by
    rw [commandArguments, if_neg hdashes, if_neg hhelp, if_neg (mt isOption_iff.1 h)]
    rfl
  rw [command, harguments]
  rfl

lemma command_eval_behind_dashes : command "eval" ["--", e] = .ok (some (.calculate e)) := rfl

/-- An expression over the alphabet that is taken for an option is refused; it does not ask for
help. -/
lemma command_eval_taken (h : TakenForOption e) (he : ∀ c ∈ e.toList, inAlphabet c = true) :
    ∃ m, command "eval" [e] = .error m := by
  by_cases hdashes : e = "--"
  · subst hdashes
    exact ⟨.missingArgument "<EXPRESSION>", rfl⟩
  · have hhelp : ¬ asksForHelp e = true := by
      intro hhelp
      obtain ⟨-, c, hc, hforeign⟩ := takenForOption_of_asksForHelp hhelp
      rw [he c hc] at hforeign
      cases hforeign
    have harguments : commandArguments 1 [e] = .error (.unexpectedArgument (optionName e)) := by
      rw [commandArguments, if_neg hdashes, if_neg hhelp, if_pos (isOption_iff.2 h)]
    exact ⟨_, by rw [command, harguments]; rfl⟩

end Request

lemma OptionArguments.ofArguments_eval {front : List String} {options : Options}
    (h : OptionArguments front options) (args : List String) :
    Request.ofArguments (front ++ "eval" :: args)
      = Request.ofCommand (.ok options) "eval" args := by
  rw [Request.ofArguments, h.behind_append]
  rfl

/-! ### Runs -/

/-- A run prints the value of an expression and succeeds, or prints that there is none and
fails. -/
structure Report.Answers (report : Report) (e : String) : Prop where
  value : ∀ result, answer e = .ok result → report.exit = 0 ∧ report.output = result ++ "\n"
  none : ∀ r, answer e = .error r → report = ⟨1, "Error\n", ""⟩

/-- A calculation prints the value, whether or not the note of it can be stored. -/
lemma answers_calculateCommand {σ : Type} [Storage σ] (storage : σ) (key e : String) :
    (calculateCommand storage key e).1.Answers e := by
  constructor
  · intro result h
    rw [calculateCommand, noteOnce, h]
    exact ⟨rfl, rfl⟩
  · intro r h
    rw [calculateCommand, noteOnce, h]
    rfl

/-- What a run does that calculates: it prints the value, unless it looks for a directory for the
history and finds none. Then it says that, and nothing else. -/
structure RunCalculates (options : Options) (around : Surroundings) (settings : Settings)
    (disk : Disk) (e : String) (result : Report × Disk) : Prop where
  answers : options.ephemeral = true ∨ (options.historyDirectory? around settings).isSome = true →
    result.1.Answers e
  complains : options.ephemeral = false → options.historyDirectory? around settings = none →
    result = (.noDataDirectory, disk)

/-- A run of the program that calculates does so. -/
lemma calculates_runCommand {options : Options} {around : Surroundings} {disk : Disk}
    {settings : Settings}
    (hsettings : Settings.ofFile disk (options.settingsPath around) = .ok settings) (e : String)
    (input : ByteArray) :
    RunCalculates options around settings disk e
      (runCommand options (.calculate e) input around disk) := by
  refine ⟨fun hplace => ?_, fun hkept hnone => ?_⟩
  · cases hkept : options.ephemeral with
    | true =>
        rw [runCommand_of_ephemeral hsettings hkept]
        exact answers_calculateCommand _ _ e
    | false =>
        obtain ⟨directory, hdirectory⟩ :=
          Option.isSome_iff_exists.1 (hplace.resolve_left (by simp [hkept]))
        rw [runCommand_of_directory hsettings hkept hdirectory]
        exact answers_calculateCommand _ _ e
  · exact runCommand_of_noDirectory hsettings hkept hnone _ input

/-- **Expressions as arguments of the program.** Take any options, in any order and spelling, any
expression over the alphabet, any input and any disk.

* An expression that begins with a minus and goes on is refused: the run prints nothing, ends as
  one with arguments that make no sense, and leaves the disk as it is.
* With settings that can be read, any other expression is calculated: if it has a value, the run
  prints that on a line and ends with 0, and if it has none, it prints `Error` and ends with 1.
  Only a run that finds no directory for the history, and is to keep one, ends with a message on
  that.
* So is every expression, whatever it begins with, behind `--`. -/
theorem expression_argument {front : List String} {options : Options}
    (hfront : OptionArguments front options) {e : String}
    (he : ∀ c ∈ e.toList, inAlphabet c = true) (input : ByteArray) (around : Surroundings)
    (disk : Disk) :
    (TakenForOption e →
      ∃ m, runProgram (front ++ ["eval", e]) input around disk = (.misuse m, disk)) ∧
    ∀ settings, Settings.ofFile disk (options.settingsPath around) = .ok settings →
      (¬ TakenForOption e → RunCalculates options around settings disk e
        (runProgram (front ++ ["eval", e]) input around disk)) ∧
      RunCalculates options around settings disk e
        (runProgram (front ++ ["eval", "--", e]) input around disk) := by
  refine ⟨fun htaken => ?_, fun settings hsettings => ⟨fun hplain => ?_, ?_⟩⟩
  · obtain ⟨m, hm⟩ := Request.command_eval_taken htaken he
    refine ⟨m, ?_⟩
    rw [runProgram, hfront.ofArguments_eval, Request.ofCommand, hm]
    rfl
  · rw [runProgram, hfront.ofArguments_eval, Request.ofCommand, Request.command_eval hplain]
    exact calculates_runCommand hsettings e input
  · rw [runProgram, hfront.ofArguments_eval, Request.ofCommand,
      Request.command_eval_behind_dashes]
    exact calculates_runCommand hsettings e input

/-- A difference that is calculated, and one that begins with a minus, which is only behind `--`. -/
theorem expression_argument_of_difference :
    let around : Surroundings := ⟨none, "/", none, none, .absent⟩
    let disk : Disk := ⟨[], []⟩
    let front := ["--data-dir", "store", "--config=settings"]
    let options : Options := ⟨some "settings", some "store", false⟩
    OptionArguments front options ∧
      (∃ m, runProgram (front ++ ["eval", "-4+4"]) .empty around disk = (.misuse m, disk)) ∧
      (runProgram (front ++ ["eval", "--", "-4+4"]) .empty around disk).1.output = "0\n" ∧
      (runProgram (front ++ ["eval", "4-4"]) .empty around disk).1.output = "0\n" := by
  intro around disk front options
  have hfront : OptionArguments front options := by
    have hplain : ¬ TakenForOption "store" := fun ⟨c, cs, h⟩ => by cases h
    have hnamed : "settings" ≠ "" := by decide
    have hjoined : "--config=" ++ "settings" = "--config=settings" := by decide
    have h := (OptionArguments.none.dataDirectory (by decide) hplain).settingsFileJoined hnamed
    rwa [hjoined] at h
  have hsettings : Settings.ofFile disk (options.settingsPath around) = .ok .usual := by
    decide +kernel
  have hline : "0" ++ "\n" = "0\n" := by decide
  have hvalue : answer "-4+4" = .ok "0" := by decide +kernel
  have halphabet : ∀ c ∈ "-4+4".toList, inAlphabet c = true := List.all_eq_true.1 (by decide)
  obtain ⟨htaken, hread⟩ := expression_argument hfront halphabet .empty around disk
  obtain ⟨-, hbehind⟩ := hread .usual hsettings
  have houtput := ((hbehind.answers (Or.inr rfl)).value _ hvalue).2
  have hvalue' : answer "4-4" = .ok "0" := by decide +kernel
  have hplain : ¬ TakenForOption "4-4" := fun ⟨c, cs, h⟩ => by cases h
  have halphabet' : ∀ c ∈ "4-4".toList, inAlphabet c = true := List.all_eq_true.1 (by decide)
  obtain ⟨-, hread'⟩ := expression_argument hfront halphabet' .empty around disk
  have houtput' := ((((hread' .usual hsettings).1 hplain).answers (Or.inr rfl)).value _ hvalue').2
  rw [hline] at houtput houtput'
  exact ⟨hfront, htaken ⟨_, _, rfl⟩, houtput, houtput'⟩

/-- **An expression that has a value and is refused.** -/
theorem difference_taken_for_option :
    let run := runProgram ["--data-dir", "store", "eval", "-4+4"] .empty
      ⟨none, "/", none, none, .absent⟩ ⟨[], []⟩
    answer "-4+4" = .ok "0" ∧ run.1.exit = 2 ∧ run.1.output = "" := by
  decide +kernel

end DeskCalculator
