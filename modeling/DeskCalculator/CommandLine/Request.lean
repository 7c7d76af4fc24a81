/-!
The arguments of the program.

Options come first, each at most once, then a command with what belongs to it.

```
[--config FILE] [--data-dir DIRECTORY] [--ephemeral] [--]
[--config FILE] [--data-dir DIRECTORY] [--ephemeral] eval EXPRESSION
[--config FILE] [--data-dir DIRECTORY] [--ephemeral] history
[--config FILE] [--data-dir DIRECTORY] [--ephemeral] clear-history
[--config FILE] [--data-dir DIRECTORY] [--ephemeral] help [COMMAND]
```

The value of an option may be joined to it by an equals sign and may not be empty. An
argument that begins with a minus is an option, unless it is the minus alone or `--` has
come before it. Arguments are read from left to right: the first one that is out of place,
or that asks for help or for the version, decides.

* `Misuse`: why arguments make no sense, with its wording.
* `Options`, `Command`, `Request`: what is asked for.
* `Request.commandArguments`: the arguments of a command.
* `Request.ofArguments`: what arguments ask for, or why they make no sense.
-/

namespace DeskCalculator

/-! ### Misuse -/

/-- The cause why arguments make no sense. -/
inductive Misuse where
  | unknownCommand (name : String)
  | unexpectedArgument (arg : String)
  | unexpectedValue (option value : String)
  | repeatedOption (option : String)
  | missingValue (option : String)
  | missingArgument (name : String)
deriving DecidableEq

/-- The wording of a cause. -/
def Misuse.message : Misuse → String
  | unknownCommand name => "unrecognized subcommand '" ++ name ++ "'"
  | unexpectedArgument arg => "unexpected argument '" ++ arg ++ "' found"
  | unexpectedValue option value =>
    "unexpected value '" ++ value ++ "' for '" ++ option ++ "' found; no more were expected"
  | repeatedOption option => "the argument '" ++ option ++ "' cannot be used multiple times"
  | missingValue option => "a value is required for '" ++ option ++ "' but none was supplied"
  | missingArgument name => "the following required arguments were not provided:\n  " ++ name

/-! ### What is asked for -/

/-- The options. -/
structure Options where
  settingsFile : Option String
  dataDirectory : Option String
  ephemeral : Bool
deriving DecidableEq

/-- The commands; without one there is a conversation. -/
inductive Command where
  | calculate (expression : String)
  | showHistory
  | wipeHistory
  | converse
deriving DecidableEq

/-- What is asked for. -/
inductive Request where
  | showVersion
  | showHelp
  | run (options : Options) (command : Command)
deriving DecidableEq

namespace Request

/-! ### Single arguments -/

/-- An argument that begins with a text. -/
def beginsWith (arg front : String) : Bool := front.toList.isPrefixOf arg.toList

/-- An argument that is read as an option. -/
def isOption (arg : String) : Bool :=
  match arg.toList with
  | '-' :: _ :: _ => true
  | _ => false

/-- An argument that asks for help. -/
def asksForHelp (arg : String) : Bool := arg == "--help" || beginsWith arg "-h"

/-- An argument that asks for the version. -/
def asksForVersion (arg : String) : Bool := arg == "--version" || beginsWith arg "-V"

/-- The name in an option: what stands before an equals sign, or one letter behind a single
minus. -/
def optionName (arg : String) : String :=
  if beginsWith arg "--" then .ofList (arg.toList.takeWhile (· ≠ '='))
  else .ofList (arg.toList.take 2)

/-- The value joined to an option by an equals sign. -/
def joinedValue? (arg : String) : Option String :=
  match arg.toList.dropWhile (· ≠ '=') with
  | [] => none
  | _ :: value => some (.ofList value)

/-! ### Commands -/

/-- The arguments behind `--`, of which there is room for so many. -/
def plainArguments (room : Nat) (args : List String) : Except Misuse (List String) :=
  match args.drop room with
  | [] => .ok args
  | arg :: _ => .error (.unexpectedArgument arg)

/-- The arguments of a command with room for so many, or none if help is asked for. -/
def commandArguments : (room : Nat) → List String → Except Misuse (Option (List String))
  | _, [] => .ok (some [])
  | room, arg :: args =>
    if arg = "--" then some <$> plainArguments room args
    else if asksForHelp arg then .ok none
    else if isOption arg then .error (.unexpectedArgument (optionName arg))
    else
      match room with
      | 0 => .error (.unexpectedArgument arg)
      | room + 1 => Option.map (arg :: ·) <$> commandArguments room args

/-- The names of the commands. -/
def commandNames : List String := ["eval", "history", "clear-history", "help"]

/-- Help is given on one command or on all, so anything behind a first command is too much. -/
def checkHelp (args : List String) : Except Misuse Unit :=
  match args with
  | [] => .ok ()
  | name :: more =>
    if commandNames.contains name then
      match more with
      | [] => .ok ()
      | extra :: _ => .error (.unknownCommand extra)
    else .error (.unknownCommand name)

/-- The command with a name and what stands behind it, or none if help is asked for. -/
def command (name : String) (args : List String) : Except Misuse (Option Command) :=
  match name with
  | "eval" =>
    (commandArguments 1 args).bind fun
      | some (expression :: _) => .ok (some (.calculate expression))
      | some [] => .error (.missingArgument "<EXPRESSION>")
      | none => .ok none
  | "history" => Option.map (fun _ => .showHistory) <$> commandArguments 0 args
  | "clear-history" => Option.map (fun _ => .wipeHistory) <$> commandArguments 0 args
  | "help" => (fun _ => none) <$> checkHelp args
  | _ => .error (.unknownCommand name)

/-! ### Options -/

/-- No options. -/
def noOptions : Options := ⟨none, none, false⟩

/-- Sets the file with the settings, once, to a name. -/
def withSettingsFile (options : Options) (path : String) : Except Misuse Options :=
  if path.isEmpty then .error (.missingValue "--config")
  else if options.settingsFile.isSome then .error (.repeatedOption "--config")
  else .ok { options with settingsFile := some path }

/-- Sets the directory for data, once, to a name. -/
def withDataDirectory (options : Options) (path : String) : Except Misuse Options :=
  if path.isEmpty then .error (.missingValue "--data-dir")
  else if options.dataDirectory.isSome then .error (.repeatedOption "--data-dir")
  else .ok { options with dataDirectory := some path }

/-- Asks, once, for a history that is not kept. -/
def withEphemeral (options : Options) : Except Misuse Options :=
  if options.ephemeral then .error (.repeatedOption "--ephemeral")
  else .ok { options with ephemeral := true }

/-- How an option that takes a value is set. -/
def valued? (name : String) : Option (Options → String → Except Misuse Options) :=
  match name with
  | "--config" => some withSettingsFile
  | "--data-dir" => some withDataDirectory
  | _ => none

/-- The options that take no value. -/
def flags : List String := ["--ephemeral", "--help", "--version"]

/-- The options after one in a single argument. -/
def withSingle (options : Options) (arg : String) : Except Misuse Options :=
  match valued? (optionName arg), joinedValue? arg with
  | some set, some value => set options value
  | some _, none => .error (.missingValue arg)
  | none, some value =>
    if flags.contains (optionName arg) then .error (.unexpectedValue (optionName arg) value)
    else .error (.unexpectedArgument (optionName arg))
  | none, none =>
    if arg = "--ephemeral" then withEphemeral options
    else .error (.unexpectedArgument (optionName arg))

/-! ### Requests -/

/-- The request for a command behind options, which matter only if help is not asked for. -/
def ofCommand (options : Except Misuse Options) (name : String) (args : List String) :
    Except Misuse Request :=
  (command name args).bind fun
    | some command => (.run · command) <$> options
    | none => .ok .showHelp

/-- The request for a conversation, which takes no arguments. -/
def ofConversation (options : Except Misuse Options) (args : List String) :
    Except Misuse Request :=
  match args with
  | [] => (.run · .converse) <$> options
  | arg :: _ => .error (.unexpectedArgument arg)

/-- What arguments ask for behind options. A value that is an argument of its own is looked
at only after the next one, so a fault of it does not keep a command from giving help. -/
def behind (options : Except Misuse Options) : List String → Except Misuse Request
  | [] => ofConversation options []
  | arg :: args =>
    if arg = "--" then ofConversation options args
    else if !isOption arg then ofCommand options arg args
    else
      options.bind fun settled =>
        if asksForVersion arg then .ok .showVersion
        else if asksForHelp arg then .ok .showHelp
        else
          match valued? arg, args with
          | some set, path :: args =>
            if isOption path then .error (.missingValue arg) else behind (set settled path) args
          | _, args => (withSingle settled arg).bind fun options => behind (.ok options) args

/-- What arguments ask for. -/
def ofArguments (args : List String) : Except Misuse Request := behind (.ok noOptions) args

end Request

end DeskCalculator
