import QualityGate.Args.Request
/-!
The command line as it is declared: its commands, the options of each, how they are spelled and what
the help says of them.
-/

namespace QualityGate.Args

/-! ### Commands -/

/-- **Where options are read**: before any command, or after one. -/
inductive Scope where
  | top | run | list | init | validate | completions
  deriving DecidableEq, Repr

namespace Scope

/-- The scopes of commands, in the order of the help. -/
def commands : List Scope := [run, list, init, validate, completions]

/-- The word that selects a command. -/
def word : Scope → String
  | top => ""
  | run => "run"
  | list => "list"
  | init => "init"
  | validate => "validate"
  | completions => "completions"

/-- The program's name. -/
def programName : String := "lint-pipeline"

/-- The program's version. -/
def version : String := "0.1.0"

/-- The program with the command's word. -/
def invocationName (s : Scope) : String :=
  if s = top then programName else programName ++ " " ++ s.word

/-- Whether words that look like unknown options are taken as arguments. -/
def takesAnything : Scope → Bool
  | top => true
  | run => true
  | _ => false

end Scope

/-- The word that asks for the help of a command. -/
def helpWord : String := "help"

/-! ### Options -/

/-- **An option.** -/
inductive Switch where
  | check | force | verbose | quiet | colour | config | help | version
  deriving DecidableEq, Repr

namespace Switch

/-- The long name. -/
def long : Switch → String
  | check => "check"
  | force => "force"
  | verbose => "verbose"
  | quiet => "quiet"
  | colour => "color"
  | config => "config"
  | help => "help"
  | version => "version"

/-- The letter, if there is one. -/
def short? : Switch → Option Char
  | force => some 'f'
  | verbose => some 'v'
  | quiet => some 'q'
  | help => some 'h'
  | version => some 'V'
  | _ => none

/-- The name of the value, for options that take one. -/
def valueName? : Switch → Option String
  | colour => some "COLOR"
  | config => some "PATH"
  | _ => none

/-- Whether the option takes a value. -/
def takesValue (s : Switch) : Bool :=
  s.valueName?.isSome

/-- The option as messages show it. -/
def shown (s : Switch) : String :=
  "--" ++ s.long ++ (s.valueName?.map fun v => " <" ++ v ++ ">").getD ""

/-- The options that every scope knows. -/
def common : List Switch := [verbose, quiet, colour, config]

/-- What the help says of an option. -/
def about : Switch → String
  | check => "Show the command lines for check mode"
  | force => "Overwrite existing configuration"
  | verbose => "Enable verbose output"
  | quiet => "Suppress non-error output"
  | colour => "Use color output"
  | config => "Configuration file (default: ./lint-pipeline.toml if present)"
  | help => "Print help"
  | version => "Print version"

end Switch

/-- **The options of a scope**, in the order of the help. -/
def Scope.switches (s : Scope) : List Switch :=
  (match s with
   | .list => [Switch.check]
   | .init => [Switch.force]
   | _ => []) ++ Switch.common ++ [.help, .version]

/-- The option with a long name. -/
def Scope.long? (s : Scope) (name : String) : Option Switch :=
  s.switches.find? fun w => w.long = name

/-- The option with a letter. -/
def Scope.short? (s : Scope) (c : Char) : Option Switch :=
  s.switches.find? fun w => w.short? = some c

/-! ### What the help says -/

/-- What a command does. -/
def Scope.about : Scope → String
  | .top => "Runs isort, black, flake8 and mypy, stopping at the first failure"
  | .run => "Run the pipeline (default when no subcommand is given)"
  | .list => "Show the steps and the exact command lines they run"
  | .init => "Write a default configuration file"
  | .validate => "Validate the configuration file"
  | .completions => "Generate shell completions"

/-- What the command that asks for help does. -/
def helpAbout : String := "Print this message or the help of the given subcommand(s)"

/-- What the program does, at length. -/
def longAbout : List String :=
  ["lint-pipeline runs the project's code-quality tools in a fixed order:",
   "",
   "  isort --settings-path .isort.cfg .",
   "  black --line-length 120 --skip-string-normalization [--check] .",
   "  flake8 --config .flake8",
   "  mypy .",
   "",
   "If venv/bin/activate exists it is sourced first. The first tool that fails",
   "stops the run, and its exit status becomes ours.",
   "",
   "Quick start:",
   "  lint-pipeline           # fix formatting locally",
   "  lint-pipeline --check   # verify only, for CI",
   "",
   "Every path and option above can be changed in lint-pipeline.toml",
   "(see `lint-pipeline init`)."]

/-- The words of the arguments of a scope, with what the help says of them. -/
def Scope.positional? : Scope → Option (String × String)
  | .top => some ("[ARGS]...", runArgsAbout)
  | .run => some ("[ARGS]...", runArgsAbout)
  | .completions => some ("<SHELL>", "Shell to generate completions for")
  | _ => none
where
  runArgsAbout : String :=
    "Pass `--check` first to verify formatting without modifying files (for CI). Anything else " ++
      "runs in fix mode and is ignored"

/-- **How a scope is used**, in a line or two. -/
def Scope.usage (s : Scope) : String :=
  "Usage: " ++ s.invocationName ++ " [OPTIONS]" ++
    (s.positional?.map fun p => " " ++ p.1).getD "" ++
    (if s = .top then "\n       " ++ Scope.programName ++ " <COMMAND>" else "")

end QualityGate.Args
