import QualityGate.Args.Spec
/-!
Help texts, short and long. In the short form each option takes one line and texts stand in one
column; in the long form they stand below the option, and the values of an option are explained.
-/

namespace QualityGate.Args

/-! ### Layout -/

/-- The width that texts are wrapped to. -/
def helpWidth : Nat := 100

/-- Spaces. -/
def indent (n : Nat) : String :=
  String.ofList (List.replicate n ' ')

/-- Words put on lines of at most `width` characters; `line` is the line being filled. -/
def wrapOnto (width : Nat) (line : String) : List String → List String
  | [] => [line]
  | w :: ws =>
    if line = "" then wrapOnto width w ws
    else if line.length + 1 + w.length ≤ width then wrapOnto width (line ++ " " ++ w) ws
    else line :: wrapOnto width w ws

/-- **A text wrapped to a width.** -/
def wrap (width : Nat) (s : String) : List String :=
  wrapOnto width "" (s.splitOn " ")

/-- A text that starts at a column, its further lines indented to it. -/
def hanging (column : Nat) (s : String) : String :=
  String.intercalate ("\n" ++ indent column) (wrap (helpWidth - column) s)

/-- A word filled up with spaces. -/
def padded (width : Nat) (s : String) : String :=
  s ++ indent (width - s.length)

/-! ### Options -/

/-- An option with its letter. -/
def Switch.label (s : Switch) : String :=
  (match s.short? with
   | some c => "-" ++ String.singleton c ++ ", "
   | none => "    ") ++ s.shown

/-- What follows the text of an option in the short form. -/
def Switch.shortNote : Switch → String
  | .colour =>
    " [default: auto] [possible values: " ++
      String.intercalate ", " (ColourChoice.listed.map ColourChoice.word) ++ "]"
  | .help => " (see more with '--help')"
  | _ => ""

/-- The option's text in the long form, without its indentation. -/
def Switch.longText : Switch → List String
  | .colour =>
    ["Use color output", "\n", "Possible values:", "- always: Always use color",
     "- auto:   Auto-detect color support", "- never:  Never use color", "",
     "[default: auto]"]
  | .help => ["Print help (see a summary with '-h')"]
  | s => [s.about]

/-- An indented line; the line `"\n"` stands for one that is empty without indentation. -/
def longLine (s : String) : String :=
  if s = "\n" then "" else indent 10 ++ s

/-- The options in the short form. -/
def shortOptions (ss : List Switch) : String :=
  let width := ss.foldl (fun n s => Nat.max n s.label.length) 0
  String.join (ss.map fun s =>
    "  " ++ padded width s.label ++ "  " ++ hanging (width + 4) (s.about ++ s.shortNote) ++ "\n")

/-- The options in the long form. -/
def longOptions (ss : List Switch) : String :=
  String.intercalate "\n" (ss.map fun s =>
    "  " ++ s.label ++ "\n" ++ String.join (s.longText.map fun l => longLine l ++ "\n"))

/-! ### Arguments and commands -/

/-- What the help says of a shell argument's values. -/
def shellValues : String :=
  "[possible values: " ++
    String.intercalate ", " (CompletionShell.listed.map CompletionShell.word) ++ "]"

/-- The arguments in the short form. -/
def shortArguments (s : Scope) (p : String × String) : String :=
  let note := if s = .completions then " " ++ shellValues else ""
  "  " ++ p.1 ++ "  " ++ hanging (p.1.length + 4) (p.2 ++ note) ++ "\n"

/-- The arguments in the long form. -/
def longArguments (s : Scope) (p : String × String) : String :=
  "  " ++ p.1 ++ "\n" ++ indent 10 ++ hanging 10 p.2 ++ "\n" ++
    (if s = .completions then indent 10 ++ "\n" ++ indent 10 ++ shellValues ++ "\n" else "")

/-- The list of commands. -/
def commandList : String :=
  let rows := Scope.commands.map (fun s => (s.word, s.about)) ++ [(helpWord, helpAbout)]
  let width := rows.foldl (fun n r => Nat.max n r.1.length) 0
  String.join (rows.map fun r => "  " ++ padded width r.1 ++ "  " ++ r.2 ++ "\n")

/-! ### Whole texts -/

/-- **The help of a scope**, in the long or the short form. -/
def Scope.help (s : Scope) (long : Bool) : String :=
  let about := if s = .top && long then String.intercalate "\n" longAbout else s.about
  about ++ "\n\n" ++ s.usage ++ "\n" ++
    (if s = .top then "\nCommands:\n" ++ commandList else "") ++
    (match s.positional? with
     | some p =>
       "\nArguments:\n" ++ (if long then longArguments s p else shortArguments s p)
     | none => "") ++
    "\nOptions:\n" ++ (if long then longOptions s.switches else shortOptions s.switches)

/-- The help of the command that asks for help. -/
def helpOfHelp : String :=
  helpAbout ++ "\n\nUsage: " ++ Scope.programName ++ " " ++ helpWord ++ " [COMMAND]...\n\n" ++
    "Arguments:\n  [COMMAND]...  Print help for the subcommand(s)\n"

/-- The version of a scope. -/
def Scope.versionText (s : Scope) : String :=
  Scope.programName ++ (if s = .top then "" else "-" ++ s.word) ++ " " ++ Scope.version ++ "\n"

end QualityGate.Args
