import QualityGate.Args.Help
import QualityGate.Args.Similar
/-!
Why a command line is not carried out: because it asks for help or for the version, or because
something is wrong with it. What is wrong is told in a headline, followed by what would be right.
-/

namespace QualityGate.Args

/-! ### Faults -/

/-- **What a usage line shows as used**: options, and whether the shell argument is among them. -/
structure Used where
  switches : List Switch := []
  shell : Bool := false
  deriving DecidableEq, Repr

/-- **What the help is asked for.** -/
inductive Topic where
  | scope (scope : Scope)
  | help
  deriving DecidableEq, Repr

/-- **Why a command line is not carried out.** Most faults know the scope in which they arose, for the
usage that is shown. -/
inductive Fault where
  /-- Help was asked for, in the long or the short form. -/
  | helpAsked (topic : Topic) (long : Bool)
  /-- The version was asked for. -/
  | versionAsked (scope : Scope)
  /-- An argument that means nothing here; `similar` is an option meant perhaps, `asValue` says
  whether it could be passed as a value, and `used` are the options shown in the usage. -/
  | unknownArgument (scope : Scope) (shown : String) (similar : Option String) (asValue : Bool)
      (used : Used)
  /-- An option given twice. -/
  | repeated (scope : Scope) (switch : Switch)
  /-- An option without the value that it takes. -/
  | missingValue (shown : String) (choices : List String)
  /-- A value that is none of the choices. -/
  | badValue (shown value : String) (choices : List String)
  /-- A value for an option that takes none. -/
  | uselessValue (scope : Scope) (switch : Switch) (value : String) (used : Used)
  /-- The shell to complete for is missing. -/
  | missingShell (used : Used)
  /-- An argument that is no text. -/
  | notText (scope : Scope)
  /-- Help for a command that does not exist. -/
  | unknownCommand (topic : Topic) (word : String)
  deriving DecidableEq, Repr

/-! ### Usage -/

/-- Whether one of the options that every scope knows is among those used. -/
def Used.common (u : Used) : Bool :=
  u.switches.any fun s => Switch.common.contains s

/-- The options in a usage line. Before any command the common options stand as one group once one of
them was used before. -/
def Used.options (u : Used) (scope : Scope) (grouped : Bool) : List String :=
  if scope = .top && grouped then
    let group := "<" ++ String.intercalate "|" (Switch.common.map Switch.shown) ++ ">"
    group :: ((u.switches.filter fun s => !Switch.common.contains s).map Switch.shown)
  else u.switches.eraseDups.map Switch.shown

/-- **The usage line for what was used**, or the general usage if nothing was. -/
def Used.usage (u : Used) (scope : Scope) (grouped : Bool) : String :=
  let parts := u.options scope grouped ++ (if u.shell then ["<SHELL>"] else [])
  if parts = [] then scope.usage
  else "Usage: " ++ String.intercalate " " (scope.invocationName :: parts)

/-- The usage of a help topic. -/
def Topic.usage : Topic → String
  | scope s => s.usage
  | help => "Usage: " ++ Scope.programName ++ " " ++ helpWord ++ " [COMMAND]..."

/-! ### Messages -/

namespace Fault

/-- What is wrong, in one line; for help and version the whole text. -/
def headline : Fault → String
  | helpAsked (.scope s) long => s.help long
  | helpAsked .help _ => helpOfHelp
  | versionAsked s => s.versionText
  | unknownArgument _ shown _ _ _ => "error: unexpected argument '" ++ shown ++ "' found"
  | repeated _ s => "error: the argument '" ++ s.shown ++ "' cannot be used multiple times"
  | missingValue shown _ => "error: a value is required for '" ++ shown ++ "' but none was supplied"
  | badValue shown value _ => "error: invalid value '" ++ value ++ "' for '" ++ shown ++ "'"
  | uselessValue _ s value _ =>
    "error: unexpected value '" ++ value ++ "' for '--" ++ s.long ++ "' found; no more were expected"
  | missingShell _ => "error: the following required arguments were not provided:"
  | notText _ => "error: invalid UTF-8 was detected in one or more arguments"
  | unknownCommand _ w => "error: unrecognized subcommand '" ++ w ++ "'"

/-- The choices that a value could be. -/
def choicesLine (choices : List String) : String :=
  if choices = [] then ""
  else "\n  [possible values: " ++ String.intercalate ", " choices ++ "]"

/-- A hint. -/
def tip (text : String) : String :=
  "\n  tip: " ++ text

/-- What stands between the headline and the last line. -/
def details : Fault → String
  | unknownArgument scope shown similar asValue used =>
    let tips :=
      (similar.map fun s => tip ("a similar argument exists: '" ++ s ++ "'")).getD "" ++
      (if asValue then tip ("to pass '" ++ shown ++ "' as a value, use '-- " ++ shown ++ "'") else "")
    (if tips = "" then "" else "\n" ++ tips) ++ "\n\n" ++
      used.usage scope used.common
  | repeated scope _ => "\n\n" ++ scope.usage
  | missingValue _ choices => choicesLine choices
  | badValue _ value choices =>
    choicesLine choices ++
      ((mostAlike value choices).map fun c =>
        "\n" ++ tip ("a similar value exists: '" ++ c ++ "'")).getD ""
  | uselessValue scope s _ used =>
    "\n\n" ++ ({ used with switches := used.switches ++ [s] } : Used).usage scope used.common
  | missingShell used =>
    "\n  <SHELL>\n\n" ++ ({ used with shell := true } : Used).usage .completions false
  | notText scope => "\n\n" ++ scope.usage
  | unknownCommand topic _ => "\n\n" ++ topic.usage
  | _ => ""

/-- **All that is said about a fault.** -/
def text (f : Fault) : String :=
  match f with
  | helpAsked _ _ => f.headline
  | versionAsked _ => f.headline
  | _ => f.headline ++ f.details ++ "\n\nFor more information, try '--help'.\n"

/-- Whether the user got what was asked for. -/
def isAnswer : Fault → Bool
  | helpAsked _ _ => true
  | versionAsked _ => true
  | _ => false

/-- **The exit code of a fault.** -/
def exitCode (f : Fault) : Int :=
  if f.isAnswer then 0 else 2

end Fault
end QualityGate.Args
