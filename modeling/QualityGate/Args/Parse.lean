import QualityGate.Args.Fault
import QualityGate.Args.Token
/-!
Reading a command line. A command is recognised only as the very first argument; after any option or
plain word its name is an argument like any other. In a run everything from the first plain word on is
taken as it is, and so is what looks like an unknown option.

An option that takes a value has it attached, or takes the next argument. Its value is examined only
when something else is about to be taken in, or at the end (`resolve`), so of two faults the earlier
one is not always the one that is told.
-/

namespace QualityGate.Args

/-! ### What has been given -/

/-- **Something given on the command line**, with its value read. -/
inductive Given where
  | flag (switch : Switch)
  | colour (choice : ColourChoice)
  | config (path : Bytes)
  | shell (shell : CompletionShell)
  deriving DecidableEq, Repr

/-- The option that was given. -/
def Given.switch? : Given → Option Switch
  | flag s => some s
  | colour _ => some .colour
  | config _ => some .config
  | shell _ => none

/-- **What waits to be taken in.** -/
inductive Pending where
  | nothing
  /-- An option whose value is to come. -/
  | awaiting (switch : Switch)
  /-- An option with its value. -/
  | value (switch : Switch) (value : Bytes)
  /-- The word for a shell. -/
  | shellWord (word : Bytes)
  deriving DecidableEq, Repr

/-- **How far reading has come.** -/
structure Progress where
  /-- What was given, in order. -/
  given : List Given := []
  pending : Pending := .nothing
  /-- Whether the place of the shell argument is taken. -/
  shellTaken : Bool := false
  deriving DecidableEq, Repr

namespace Progress

/-- The options given so far. -/
def used (p : Progress) : Used :=
  { switches := p.given.filterMap Given.switch?
    shell := p.given.any fun g => g.switch?.isNone }

/-- Whether an option was given. -/
def has (p : Progress) (s : Switch) : Bool :=
  p.given.any fun g => g.switch? = some s

/-- Takes in something, unless its option was given before. -/
def take (p : Progress) (scope : Scope) (s : Switch) (g : Given) : Except Fault Progress :=
  if p.has s then .error (.repeated scope s)
  else .ok { p with given := p.given ++ [g], pending := .nothing }

end Progress

/-- The words of the colour choices. -/
def colourWords : List String := ColourChoice.listed.map ColourChoice.word

/-- One of some words, or the fault about it. -/
def chooseWord (shown : String) (choices : List (String × α)) (value : Bytes) : Except Fault α :=
  let word := Text.lossy value
  match choices.find? fun c => Text.bytes c.1 = value with
  | some c => .ok c.2
  | none =>
    if word = "" then .error (.missingValue shown (choices.map (·.1)))
    else .error (.badValue shown word (choices.map (·.1)))

/-- Reads the value of an option. -/
def readValue (s : Switch) (v : Bytes) : Except Fault Given :=
  match s with
  | .colour =>
    (chooseWord s.shown (ColourChoice.listed.map fun c => (c.word, c)) v).map .colour
  | .config => if v = [] then .error (.missingValue s.shown []) else .ok (.config v)
  | _ => .ok (.flag s)

/-- The choices for the value of an option. -/
def choicesOf : Switch → List String
  | .colour => colourWords
  | _ => []

/-- Takes in an option with its value. -/
def takeValue (scope : Scope) (p : Progress) (s : Switch) (v : Bytes) : Except Fault Progress :=
  if p.has s then .error (.repeated scope s)
  else
    match readValue s v with
    | .ok g => p.take scope s g
    | .error f => .error f

/-- **Takes in what waits.** -/
def resolve (scope : Scope) (p : Progress) : Except Fault Progress :=
  match p.pending with
  | .nothing => .ok p
  | .awaiting s => .error (.missingValue s.shown (choicesOf s))
  | .value s v => takeValue scope p s v
  | .shellWord w =>
    match chooseWord "<SHELL>" (CompletionShell.listed.map fun c => (c.word, c)) w with
    | .ok c => .ok { p with given := p.given ++ [.shell c], pending := .nothing }
    | .error f => .error f

/-- Takes in what waits, or leaves it when it is faulty. -/
def resolveIfSound (scope : Scope) (p : Progress) : Progress :=
  match resolve scope p with
  | .ok q => q
  | .error _ => p

/-! ### Options -/

/-- Takes in an option without a value; help and version end the reading. -/
def takeFlag (scope : Scope) (p : Progress) (s : Switch) (long : Bool) : Except Fault Progress :=
  match resolve scope p with
  | .error f => .error f
  | .ok p =>
    match s with
    | .help => .error (.helpAsked (.scope scope) long)
    | .version => .error (.versionAsked scope)
    | s => p.take scope s (.flag s)

/-- The fault of a long option that is not known here. -/
def unknownLong (scope : Scope) (p : Progress) (name : Bytes) : Fault :=
  let word := Text.lossy name
  let p := resolveIfSound scope p
  let similar := (mostAlike word (scope.switches.map Switch.long)).bind scope.long?
  let asValue := scope.takesAnything || (scope.positional?.isSome && similar.isNone)
  .unknownArgument scope ("--" ++ word) (similar.map fun s => "--" ++ s.long) asValue
    { p.used with switches := p.used.switches ++ similar.toList }

/-- The fault of an argument that is not known here. -/
def unknownWord (scope : Scope) (shown : String) (asValue : Bool) : Fault :=
  .unknownArgument scope shown none asValue {}

/-- Takes in a long option that is known. -/
def takeLong (scope : Scope) (p : Progress) (s : Switch) (value : Option Bytes) :
    Except Fault Progress :=
  if s.takesValue then
    match resolve scope p with
    | .error f => .error f
    | .ok p =>
      match value with
      | some v => takeValue scope p s v
      | none => .ok { p with pending := .awaiting s }
  else
    match value with
    | some v => .error (.uselessValue scope s (Text.lossy v) p.used)
    | none => takeFlag scope p s true

/-- Takes in the letters of a cluster, one after the other. -/
def takeLetters (scope : Scope) (p : Progress) (rest : Bytes) : List Char → Except Fault Progress
  | [] =>
    if rest = [] then .ok p
    else .error (unknownWord scope ("-" ++ Text.lossy rest) scope.positional?.isSome)
  | c :: cs =>
    match scope.short? c with
    | none => .error (unknownWord scope ("-" ++ String.singleton c) scope.positional?.isSome)
    | some s =>
      match takeFlag scope p s false with
      | .error f => .error f
      | .ok p => takeLetters scope p rest cs

/-- Whether every letter of a cluster is an option here. -/
def allKnown (scope : Scope) (cs : List Char) (rest : Bytes) : Bool :=
  rest = [] && cs.all fun c => (scope.short? c).isSome

/-! ### Words -/

/-- **What a whole command line has given**: options, and the words of a run as they are. -/
structure Reading where
  given : List Given
  words : List Bytes := []
  deriving DecidableEq, Repr

/-- Ends the reading with some words. -/
def finish (scope : Scope) (p : Progress) (words : List Bytes) : Except Fault Reading :=
  match resolve scope p with
  | .ok p => .ok ⟨p.given, words⟩
  | .error f => .error f

/-- Takes in a word where commands take a fixed number of them. -/
def takeWord (scope : Scope) (p : Progress) (w : Bytes) : Except Fault Progress :=
  if scope = .completions && !p.shellTaken then
    match resolve scope p with
    | .ok p => .ok { p with pending := .shellWord w, shellTaken := true }
    | .error f => .error f
  else .error (unknownWord scope (Text.lossy w) false)

/-- The words after the end of the options. -/
def takeWords (scope : Scope) (p : Progress) : List Bytes → Except Fault Progress
  | [] => .ok p
  | w :: ws =>
    match takeWord scope p w with
    | .ok p => takeWords scope p ws
    | .error f => .error f

/-- What one argument leads to: reading goes on from a state, or what is left are the words. -/
abbrev Advance := Progress ⊕ List Bytes

/-- Takes in an argument as a word: the value that an option waits for, or one of the scope's own. -/
def stepWord (scope : Scope) (p : Progress) (arg : Bytes) (rest : List Bytes) : Except Fault Advance :=
  match p.pending with
  | .awaiting s => .ok (.inl { p with pending := .value s arg })
  | _ =>
    if scope.takesAnything then .ok (.inr (arg :: rest))
    else (takeWord scope p arg).map .inl

/-- **Takes in one argument**; `rest` are those that follow. -/
def step (scope : Scope) (p : Progress) (arg : Bytes) (rest : List Bytes) : Except Fault Advance :=
  match Token.ofArg arg with
  | .endOfOptions =>
    if scope.takesAnything then .ok (.inr rest)
    else
      match takeWords scope p rest with
      | .ok p => (resolve scope p).map fun p => .inl p
      | .error f => .error f
  | .long name value =>
    match (Text.decode? name).map fun n => (n, scope.long? n) with
    | some (_, some s) => (takeLong scope p s value).map .inl
    | some (_, none) =>
      if scope.takesAnything then stepWord scope p arg rest else .error (unknownLong scope p name)
    -- A name that is no text is a fault even where words are free.
    | none => .error (unknownLong scope p name)
  | .letters cs bad =>
    -- One letter that is no option makes a word of the whole cluster, where words are free.
    if scope.takesAnything && !allKnown scope cs bad then stepWord scope p arg rest
    else (takeLetters scope p bad cs).map .inl
  | .word => stepWord scope p arg rest

/-- **Reads the arguments of a scope.** -/
def readArgs (scope : Scope) (p : Progress) : List Bytes → Except Fault Reading
  | [] => finish scope p []
  | arg :: rest =>
    match step scope p arg rest with
    | .error f => .error f
    | .ok (.inr words) => finish scope p words
    | .ok (.inl p) =>
      if Token.ofArg arg = .endOfOptions then finish scope p [] else readArgs scope p rest

/-! ### Requests -/

/-- The colour that was chosen. -/
def colourOf (gs : List Given) : ColourChoice :=
  (gs.findSome? fun g => match g with | .colour c => some c | _ => none).getD .auto

/-- The settings file that was named. -/
def configOf (gs : List Given) : Option Bytes :=
  gs.findSome? fun g => match g with | .config p => some p | _ => none

/-- The shell that was named. -/
def shellOf (gs : List Given) : Option CompletionShell :=
  gs.findSome? fun g => match g with | .shell s => some s | _ => none

/-- The words of a run, which have to be text. -/
def runArgsOf (scope : Scope) (words : List Bytes) : Except Fault RunArgs :=
  match words.mapM Text.decode? with
  | some ws => .ok ⟨ws⟩
  | none => .error (.notText scope)

/-- The command of a scope. -/
def commandOf (scope : Scope) (r : Reading) : Except Fault (Option Command) :=
  match scope with
  | .top => .ok none
  | .run => (runArgsOf .run r.words).map fun a => some (.run a)
  | .list => .ok (some (.list (r.given.contains (.flag .check))))
  | .init => .ok (some (.init (r.given.contains (.flag .force))))
  | .validate => .ok (some .validate)
  | .completions =>
    match shellOf r.given with
    | some s => .ok (some (.completions s))
    | none =>
      .error (.missingShell { switches := r.given.filterMap Given.switch? })

/-- **The request that the arguments of a scope make.** -/
def requestOf (scope : Scope) (r : Reading) : Except Fault Request :=
  match commandOf scope r with
  | .error f => .error f
  | .ok command =>
    let run : Except Fault RunArgs := if scope = .top then runArgsOf .top r.words else .ok {}
    run.map fun run =>
      { command := command
        run := run
        verbose := r.given.contains (.flag .verbose)
        quiet := r.given.contains (.flag .quiet)
        colour := colourOf r.given
        config := configOf r.given }

/-- Reads the arguments of a scope and makes the request. -/
def parseScope (scope : Scope) (args : List Bytes) : Except Fault Request :=
  match readArgs scope {} args with
  | .ok r => requestOf scope r
  | .error f => .error f

/-- The topic that a word names. -/
def topicOf? (w : Bytes) : Option Topic :=
  if Text.bytes helpWord = w then some .help
  else (Scope.commands.find? fun s => Text.bytes s.word = w).map .scope

/-- What the command that asks for help answers. -/
def askHelp : List Bytes → Fault
  | [] => .helpAsked (.scope .top) true
  | w :: rest =>
    match topicOf? w with
    | none => .unknownCommand (.scope .top) (Text.lossy w)
    | some topic =>
      match rest with
      | [] => .helpAsked topic true
      | v :: _ => .unknownCommand topic (Text.lossy v)

/-- **Reads a command line**, the program's own name left out. -/
def parse : List Bytes → Except Fault Request
  | [] => parseScope .top []
  | arg :: rest =>
    match topicOf? arg with
    | some .help => .error (askHelp rest)
    | some (.scope s) => parseScope s rest
    | none => parseScope .top (arg :: rest)

end QualityGate.Args
