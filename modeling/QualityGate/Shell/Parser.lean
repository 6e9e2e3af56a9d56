import QualityGate.Shell.Token
/-!
Reading a script from its tokens. A script is read line by line: a line that is not one stands in the
script as a `broken` command, so that everything before it still runs.
-/

namespace QualityGate.Shell

/-! ### Reserved words -/

/-- A word that is reserved where a command may start. -/
def reservedWords : List String :=
  ["if", "then", "else", "elif", "fi", "do", "done", "case", "esac", "while", "until", "for", "\x7b",
   "\x7d", "!"]

/-- The text of a token that is a word without quotes or expansions. -/
def Token.plain? : Token → Option String
  | .word w => (plainWord? w).map Text.lossy
  | _ => none

/-- The reserved word that a token is, if it is one. -/
def Token.reserved? (t : Token) : Option String :=
  t.plain?.filter reservedWords.contains

/-- The reserved words and signs before which a list of commands ends. -/
def closers : List String := ["then", "else", "elif", "fi", "do", "done", "esac", "\x7d"]

/-! ### What a line can lack -/

/-- A place at which a script stops being one: a line, or its end. -/
structure Misfit where
  line : Option Nat
  message : String

/-- **A reader of tokens**: what it reads and what it leaves, or where it gives up. -/
abbrev Reader := StateT (List Placed) (Except Misfit)

/-- The name of a token in a complaint. -/
def Token.label (t : Token) : String :=
  match t with
  | .op "\n" => "newline"
  | .op s => "\x22" ++ s ++ "\x22"
  | .redirect _ _ => "redirection"
  | .word _ =>
    match t.reserved? with
    | some s => "\x22" ++ s ++ "\x22"
    | none => "word"
  | .unfinished _ => "end of file"

/-- **The complaint about what stands next**, with what was expected in its place. -/
def unexpected {α : Type} (expected : Option String) : Reader α := do
  let expecting := match expected with
    | some s => " (expecting \x22" ++ s ++ "\x22)"
    | none => ""
  match ← get with
  | [] => throw ⟨none, "Syntax error: end of file unexpected" ++ expecting⟩
  | ⟨l, .unfinished why⟩ :: _ => throw ⟨some l, why.message⟩
  | ⟨l, t⟩ :: _ =>
    throw ⟨some (if t = .op "\n" then l + 1 else l),
      "Syntax error: " ++ t.label ++ " unexpected" ++ expecting⟩

/-! ### Small readers -/

/-- Tokens without the line ends before them. -/
def withoutLineEnds : List Placed → List Placed
  | ⟨_, .op "\n"⟩ :: ts => withoutLineEnds ts
  | ts => ts

/-- Passes over line ends. -/
def skipLineEnds : Reader Unit :=
  modify withoutLineEnds

/-- The next token, not taken. -/
def peek : Reader (Option Token) :=
  return (← get).head?.map (·.token)

/-- The line of the next token, and 0 where there is none. -/
def nextLine : Reader Nat :=
  return ((← get).head?.map (·.line)).getD 0

/-- Takes the next token. -/
def advance : Reader Unit :=
  modify (·.drop 1)

/-- Takes the next token if it is a given reserved word, and tells whether it was. -/
def acceptWord (w : String) : Reader Bool := do
  if ((← peek).bind Token.reserved?) = some w then advance; return true
  else return false

/-- Takes the next token if it is a given sign, and tells whether it was. -/
def acceptSign (s : String) : Reader Bool := do
  if (← peek) = some (.op s) then advance; return true
  else return false

/-- The reserved word that has to come next. -/
def expectWord (w : String) : Reader Unit := do
  if ← acceptWord w then return () else unexpected (some w)

/-- The sign that has to come next. -/
def expectSign (s : String) : Reader Unit := do
  if ← acceptSign s then return () else unexpected (some s)

/-- The name and value of a word that assigns. -/
def assignment? : Word → Option (Bytes × Word)
  | .literal bs false :: rest =>
    match bs.takeWhile (· ≠ byte '='), bs.dropWhile (· ≠ byte '=') with
    | name, _ :: value =>
      if isName name then
        some (name, if value = [] then rest else .literal value false :: rest)
      else none
    | _, [] => none
  | _ => none

/-- A redirection whose descriptor may be left out. -/
def redirectOf (fd : Option Nat) (kind : RedirectKind) (target : Word) : Redirect :=
  ⟨fd.getD (if kind = .input ∨ kind = .document then 0 else 1), kind, target⟩

/-- What a simple command holds, gathered from the left. -/
structure Gathered where
  assigns : List (Bytes × Word) := []
  words : List Word := []
  redirects : List Redirect := []

/-- **The parts of a simple command** in any order, assignments only before the first word. -/
def gather (g : Gathered) : List Placed → Gathered × List Placed
  | ⟨_, .redirect fd kind⟩ :: ⟨_, .word w⟩ :: ts =>
    gather { g with redirects := g.redirects ++ [redirectOf fd kind w] } ts
  | ⟨_, .word w⟩ :: ts =>
    match assignment? w, g.words with
    | some a, [] => gather { g with assigns := g.assigns ++ [a] } ts
    | _, _ => gather { g with words := g.words ++ [w] } ts
  | ts => (g, ts)

/-- The redirections after a command that is made of others. -/
def redirectsOf : List Placed → List Redirect × List Placed
  | ⟨_, .redirect fd kind⟩ :: ⟨_, .word w⟩ :: ts =>
    let (rs, ts) := redirectsOf ts
    (redirectOf fd kind w :: rs, ts)
  | ts => ([], ts)

/-- Refuses a redirection without a target. -/
def noBareRedirect : Reader Unit := do
  match ← peek with
  | some (.redirect _ _) => advance; unexpected none
  | _ => return ()

/-- A simple command. -/
def simpleCommand (line : Nat) : Reader Script := do
  let (g, ts) := gather {} (← get)
  set ts
  noBareRedirect
  if (← peek) = some (.op "(") then
    if g.words.length = 1 ∧ g.assigns = [] ∧ g.redirects = [] then
      advance
      expectSign ")"
      throw ⟨some line, "Syntax error: Bad function name"⟩
    else unexpected none
  else if g.words = [] ∧ g.assigns = [] ∧ g.redirects = [] then unexpected none
  else return .simple line g.assigns g.words g.redirects

/-- The words that come next. -/
def wordsOf : List Placed → List Word × List Placed
  | ⟨_, .word w⟩ :: ts => let (ws, ts) := wordsOf ts; (w :: ws, ts)
  | ts => ([], ts)

/-- The patterns of one arm, between signs that separate them. -/
def patternsOf : List Placed → List Word × List Placed
  | ⟨_, .word w⟩ :: ⟨_, .op "|"⟩ :: ts => let (ws, ts) := patternsOf ts; (w :: ws, ts)
  | ⟨_, .word w⟩ :: ts => ([w], ts)
  | ts => ([], ts)

/-- Whether a list of commands ends here. -/
def atCloser : Reader Bool := do
  match ← peek with
  | none => return true
  | some (.op ")") => return true
  | some (.op ";;") => return true
  | some t => return (t.reserved?.map closers.contains).getD false

/-! ### Phrases -/

/-- **What can be read.** -/
inductive Phrase where
  /-- Commands up to what closes them, one at least if `filled`. -/
  | commands (filled : Bool)
  /-- Pipelines joined by `&&` and `||`. -/
  | joined
  /-- What is joined to a command that has been read. -/
  | joinedTo (first : Script)
  /-- Commands joined by `|`. -/
  | piped
  /-- One command. -/
  | command
  /-- What follows `if` or `elif`. -/
  | branches
  /-- Commands between `do` and `done`. -/
  | doGroup
  /-- The arms of a selection, up to `esac`. -/
  | arms (subject : Word)
  /-- The commands of one line. -/
  | line

section
variable (self : Phrase → Reader Script)

/-- Commands up to what closes them. -/
def readCommands (filled : Bool) : Reader Script := do
  skipLineEnds
  if ← atCloser then
    if filled then unexpected none else return .nothing
  else
    let c ← self .joined
    if ← acceptSign "&" then return .seq (.background c) (← self (.commands false))
    else if (← acceptSign ";") || (← acceptSign "\n") then
      return .seq c (← self (.commands false))
    else return c

/-- What is joined to a command. -/
def readJoinedTo (first : Script) : Reader Script := do
  if ← acceptSign "&&" then
    skipLineEnds
    self (.joinedTo (.andThen first (← self .piped)))
  else if ← acceptSign "||" then
    skipLineEnds
    self (.joinedTo (.orElse first (← self .piped)))
  else return first

/-- Commands joined by `|`, turned round by a `!` in front. -/
def readPiped : Reader Script := do
  if ← acceptWord "!" then return .negate (← self .piped)
  else
    let c ← self .command
    if ← acceptSign "|" then
      skipLineEnds
      return .pipe c (← self .piped)
    else return c

/-- What follows `for`. -/
def readEach : Reader Script := do
  let line ← nextLine
  match (← peek).bind fun t => match t with
    | .word w => plainWord? w
    | _ => none with
  | none => throw ⟨some line, "Syntax error: Bad for loop variable"⟩
  | some name =>
    if !isName name then throw ⟨some line, "Syntax error: Bad for loop variable"⟩
    advance
    skipLineEnds
    if (← peek).bind Token.plain? = some "in" then
      advance
      let (items, ts) := wordsOf (← get)
      set ts
      let _ ← acceptSign ";"
      skipLineEnds
      return .each name (some items) (← self .doGroup)
    else
      let _ ← acceptSign ";"
      skipLineEnds
      return .each name none (← self .doGroup)

/-- What follows `case`. -/
def readSelection : Reader Script := do
  match ← peek with
  | some (.word subject) =>
    advance
    skipLineEnds
    if (← peek).bind Token.plain? = some "in" then
      advance
      skipLineEnds
      self (.arms subject)
    else unexpected (some "in")
  | _ => unexpected none

/-- The arms of a selection. -/
def readArms (subject : Word) : Reader Script := do
  if ← acceptWord "esac" then return .select subject []
  else
    let _ ← acceptSign "("
    let (patterns, ts) := patternsOf (← get)
    set ts
    if patterns = [] then unexpected none
    expectSign ")"
    let body ← self (.commands false)
    if ← acceptSign ";;" then
      skipLineEnds
      match ← self (.arms subject) with
      | .select _ more => return .select subject ((patterns, body) :: more)
      | other => return other
    else
      expectWord "esac"
      return .select subject [(patterns, body)]

/-- What follows `if` or `elif`. -/
def readBranches : Reader Script := do
  let cond ← self (.commands true)
  expectWord "then"
  let body ← self (.commands true)
  if ← acceptWord "elif" then return .branch cond body (← self .branches)
  else if ← acceptWord "else" then
    let other ← self (.commands true)
    expectWord "fi"
    return .branch cond body other
  else
    expectWord "fi"
    return .branch cond body .nothing

/-- Commands between `do` and `done`. -/
def readDoGroup : Reader Script := do
  expectWord "do"
  let body ← self (.commands true)
  expectWord "done"
  return body

/-- Adds the redirections that follow a command made of others. -/
def withRedirects (c : Script) : Reader Script := do
  let (rs, ts) := redirectsOf (← get)
  set ts
  noBareRedirect
  return if rs = [] then c else .group c rs

/-- One command. -/
def readCommand : Reader Script := do
  let line ← nextLine
  match ← get with
  | ⟨_, .word w⟩ :: ⟨_, .op "("⟩ :: ⟨_, .op ")"⟩ :: rest =>
    match plainWord? w with
    | some name =>
      if isName name then
        set rest
        skipLineEnds
        return .define name (← self .command)
      else throw ⟨some line, "Syntax error: Bad function name"⟩
    | none => throw ⟨some line, "Syntax error: Bad function name"⟩
  | _ =>
    if ← acceptSign "(" then
      let body ← self (.commands true)
      expectSign ")"
      withRedirects (.subshell body)
    else if ← acceptWord "\x7b" then
      let body ← self (.commands true)
      expectWord "\x7d"
      withRedirects body
    else if ← acceptWord "if" then withRedirects (← self .branches)
    else if ← acceptWord "while" then
      let cond ← self (.commands true)
      withRedirects (.loop false cond (← self .doGroup))
    else if ← acceptWord "until" then
      let cond ← self (.commands true)
      withRedirects (.loop true cond (← self .doGroup))
    else if ← acceptWord "for" then withRedirects (← readEach self)
    else if ← acceptWord "case" then withRedirects (← readSelection self)
    else if ((← peek).bind Token.reserved?).isSome then unexpected none
    else simpleCommand line

/-- The commands of one line, to its end. -/
def readLine : Reader Script := do
  let c ← self .joined
  if ← acceptSign "\n" then return c
  else if (← get).isEmpty then return c
  else
    let inBackground ← acceptSign "&"
    if inBackground || (← acceptSign ";") then
      let c := if inBackground then .background c else c
      if (← acceptSign "\n") || (← get).isEmpty then return c
      else return .seq c (← self .line)
    else unexpected none

/-- **One phrase**, read with the help of a reader for smaller ones. -/
def readPhrase : Phrase → Reader Script
  | .commands filled => readCommands self filled
  | .joined => do self (.joinedTo (← self .piped))
  | .joinedTo first => readJoinedTo self first
  | .piped => readPiped self
  | .command => readCommand self
  | .branches => readBranches self
  | .doGroup => readDoGroup self
  | .arms subject => readArms self subject
  | .line => readLine self

end

/-- **Reads a phrase**, nested no deeper than a budget. -/
def read : Nat → Phrase → Reader Script
  | 0, _ => unexpected none
  | n + 1, p => readPhrase (read n) p

/-! ### Whole scripts -/

/-- The lines of a script, read up to one that is broken. -/
def scriptOfTokens (lastLine : Nat) : Nat → List Placed → Script
  | 0, _ => .nothing
  | n + 1, ts =>
    match withoutLineEnds ts with
    | [] => .nothing
    | p :: ts =>
      match read (8 * (p :: ts).length + 8) .line (p :: ts) with
      | .error e => .broken (e.line.getD lastLine) e.message
      | .ok (c, []) => c
      | .ok (c, rest) => .seq c (scriptOfTokens lastLine n rest)

/-- **Reads a script.** -/
def Script.ofBytes (s : Bytes) : Script :=
  let ts := tokens (s.length + 1) 1 0 s
  scriptOfTokens (s.count lineFeed + 1) (ts.length + 1) ts

end QualityGate.Shell
