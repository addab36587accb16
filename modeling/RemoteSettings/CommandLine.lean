import RemoteSettings.Command
import RemoteSettings.Config.Logging

/-!
# The command line

Options may stand anywhere before and among the words of a command.  The value of an option is the
next word, or stands behind an equals sign.

## Main definitions

* `CommandLine` — what a command line asks for.
* `CommandLine.Problem` — why it asks for nothing.
* `CommandLine.parse` — reads the words of a command line.
-/

namespace RemoteSettings

/-- What a command line asks for. -/
structure CommandLine where
  /-- The path of a configuration file. -/
  file : Option String := none
  baseUrl : Option String := none
  /-- Whether only the configuration in force is to be printed. -/
  printConfig : Bool := false
  /-- How often more talk was asked for. -/
  verbose : Nat := 0
  logFormat : Option LogFormat := none
  command : Option Command := none

namespace CommandLine

/-- Why a command line asks for nothing. -/
inductive Problem
  | help
  | version
  | unexpected (word : String)
  | noValue (option : String)
  | badValue (option value : String)
  | unknownCommand (word : String)
  | missingWords (command : String)
  deriving DecidableEq, Repr

/-- How the program is used, line by line. -/
def usageLines : List String :=
  ["Read and update remote settings groups",
    "",
    "Usage: setting-options [OPTIONS] [COMMAND]",
    "",
    "Commands:",
    "  groups                         List settings groups",
    "  list <GROUP>                   List the settings of a group",
    "  get <GROUP> <SETTING>          Print one setting's value as JSON",
    "  set <GROUP> <SETTING> <VALUE>  Edit and save one setting",
    "  batch <GROUP> <ID=VALUE>...    Edit and save several settings of a group",
    "",
    "Options:",
    "  -c, --config <CONFIG>          Path to configuration file (YAML)",
    "      --base-url <BASE_URL>      API origin override",
    "      --print-config             Print effective configuration (YAML) and exit",
    "  -v, --verbose...               Log verbosity level",
    "      --log-format <LOG_FORMAT>  Log output format: text or json",
    "  -h, --help                     Print help",
    "  -V, --version                  Print version"]

/-- How the program is used. -/
def usage : String := String.join (usageLines.map (· ++ "\n"))

/-- The words for a problem. -/
def Problem.message : Problem → String
  | .help => usage
  | .version => "setting-options 0.1.0\n"
  | .unexpected word => "error: unexpected argument '" ++ word ++ "' found\n"
  | .noValue option => "error: a value is required for '" ++ option ++ "' but none was supplied\n"
  | .badValue option value => "error: invalid value '" ++ value ++ "' for '" ++ option ++ "'\n"
  | .unknownCommand word => "error: unrecognized subcommand '" ++ word ++ "'\n"
  | .missingWords command =>
    "error: the required arguments of '" ++ command ++ "' were not provided\n"

/-- The complaint about a line without a command. -/
def noCommand : String := "no command given, see --help"

/-- The command that words stand for; no words stand for none. -/
def commandOf : List String → Except Problem (Option Command)
  | [] => .ok none
  | ["groups"] => .ok (some .groups)
  | ["list", group] => .ok (some (.list group))
  | ["get", group, id] => .ok (some (.get group id))
  | ["set", group, id, raw] => .ok (some (.set group id raw))
  | "batch" :: group :: first :: more => .ok (some (.batch group (first :: more)))
  | "groups" :: word :: _ => .error (.unexpected word)
  | "list" :: _ :: word :: _ => .error (.unexpected word)
  | "get" :: _ :: _ :: word :: _ => .error (.unexpected word)
  | "set" :: _ :: _ :: _ :: word :: _ => .error (.unexpected word)
  | name :: _ =>
    if ["list", "get", "set", "batch"].contains name then .error (.missingWords name)
    else .error (.unknownCommand name)

/-- The log format with a given name. -/
def formatOf (name : String) : Except Problem LogFormat :=
  (LogFormat.ofName name).mapError fun _ => .badValue "--log-format <LOG_FORMAT>" name

/-- Takes over the value of an option; `none` if the option has no value. -/
def setOption? (l : CommandLine) (option value : String) : Option (Except Problem CommandLine) :=
  if option = "--config" || option = "-c" then some (.ok { l with file := some value })
  else if option = "--base-url" then some (.ok { l with baseUrl := some value })
  else if option = "--log-format" then
    some ((formatOf value).map fun format => { l with logFormat := some format })
  else none

/-- Takes over an option without a value. -/
def setSwitch (l : CommandLine) (option : String) : Except Problem CommandLine :=
  match option.toList with
  | '-' :: 'v' :: more =>
    if more.all (· == 'v') then .ok { l with verbose := l.verbose + 1 + more.length }
    else .error (.unexpected option)
  | _ =>
    if option = "--verbose" then .ok { l with verbose := l.verbose + 1 }
    else if option = "--print-config" then .ok { l with printConfig := true }
    else if option = "--help" || option = "-h" then .error .help
    else if option = "--version" || option = "-V" then .error .version
    else .error (.unexpected option)

/-- The option and the value that stand on either side of an equals sign, if there is one. -/
def splitOption? (word : String) : Option (String × String) :=
  (Assignment.split word.toList).map fun (option, value) =>
    (String.ofList option, String.ofList value)

/-- Whether a word is an option. -/
def isOption (word : String) : Bool :=
  match word.toList with
  | '-' :: _ :: _ => true
  | _ => false

/-- Reads options and the words of a command. -/
def read (l : CommandLine) : List String → List String → Except Problem (CommandLine × List String)
  | words, [] => .ok (l, words)
  | words, "--" :: rest => .ok (l, words ++ rest)
  | words, word :: rest =>
    if !isOption word then read l (words ++ [word]) rest
    else
      match (splitOption? word).bind fun (option, value) => setOption? l option value with
      | some set => do read (← set) words rest
      | none =>
        match rest with
        | [] =>
          if (setOption? l word "").isSome then .error (.noValue word)
          else do read (← setSwitch l word) words []
        | value :: more =>
          match setOption? l word value with
          | some set => do read (← set) words more
          | none => do read (← setSwitch l word) words (value :: more)

/-- Reads the words of a command line. -/
def parse (words : List String) : Except Problem CommandLine := do
  let (l, words) ← read {} [] words
  return { l with command := ← commandOf words }

end CommandLine

end RemoteSettings
