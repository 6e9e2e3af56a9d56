import QualityGate.Text.Blank
/-!
Log records and the filter that decides which of them show. A filter is a list of directives, each a
level for all targets or for those below a given one; the most specific directive that fits a target
decides.
-/

namespace QualityGate.Console

/-! ### Records -/

/-- **How much a record matters**, from most to least. -/
inductive Level where
  | error | warn | info | debug | trace
  deriving DecidableEq, Repr, Inhabited

namespace Level

/-- Levels in figures; a filter lets through what is at most its own. -/
def rank : Level → Nat
  | error => 1
  | warn => 2
  | info => 3
  | debug => 4
  | trace => 5

/-- The name of a level. -/
def name : Level → String
  | error => "ERROR"
  | warn => "WARN"
  | info => "INFO"
  | debug => "DEBUG"
  | trace => "TRACE"

end Level

/-- **A log record.** Its target says which part of the program speaks. -/
structure Record where
  level : Level
  target : String
  message : String
  /-- Names with values as they are shown. -/
  fields : List (String × String) := []
  deriving DecidableEq, Repr

/-- A record as a line, without its line feed: time, level in five columns, message, fields. -/
def Record.render (time : String) (r : Record) : String :=
  let name := r.level.name
  time ++ " " ++ String.ofList (List.replicate (5 - name.length) ' ') ++ name ++ " " ++ r.message ++
    String.join (r.fields.map fun f => " " ++ f.1 ++ "=" ++ f.2)

/-- The names of a record's fields; its message is one of them. -/
def Record.fieldNames (r : Record) : List String :=
  "message" :: r.fields.map (·.1)

/-! ### Filters -/

/-- **One rule of a filter**: what it lets through (nothing if `none`) of the targets that start with
its own. -/
structure Directive where
  target : Option String := none
  /-- Fields that a record needs. -/
  fields : List String := []
  /-- Whether it speaks about records within spans only; no record is within one. -/
  inSpan : Bool := false
  level : Option Level
  deriving DecidableEq, Repr

/-- **A filter.** -/
abbrev Filter := List Directive

/-- The filter with one level for all targets. -/
def Filter.upTo (l : Level) : Filter := [{ level := some l }]

/-- The length of a directive's target, by which a more specific one is known. -/
def Directive.reach (d : Directive) : Nat :=
  (d.target.map fun t => t.length + 1).getD 0

/-- Whether a directive is at least as specific as another one: its target is longer, or it asks for
as many fields. -/
def Directive.refines (d e : Directive) : Bool :=
  e.reach < d.reach || (e.reach = d.reach && e.fields.length ≤ d.fields.length)

/-- Whether a directive speaks about a record. -/
def Directive.covers (d : Directive) (r : Record) : Bool :=
  !d.inSpan && (d.target.map fun t => t.toList.isPrefixOf r.target.toList).getD true &&
    d.fields.all r.fieldNames.contains

/-- The directive that decides on a record: of those that cover it the most specific, the last one
if there are several. -/
def Filter.decisive? (f : Filter) (r : Record) : Option Directive :=
  f.foldl
    (fun best d =>
      if d.covers r then
        match best with
        | some b => if d.refines b then some d else some b
        | none => some d
      else best)
    none

/-- **Whether a record shows.** -/
def Filter.shows (f : Filter) (r : Record) : Bool :=
  match f.decisive? r with
  | some { level := some l, .. } => r.level.rank ≤ l.rank
  | _ => false

/-! ### Filters as text -/

/-- A level by name or number; `none` within is the level that lets nothing through. -/
def levelOf? (s : String) : Option (Option Level) :=
  let digits := if s.toList.head? = some '+' then s.toList.drop 1 else s.toList
  if digits ≠ [] ∧ digits.all (·.isDigit) then
    match digits.dropWhile (· = '0') with
    | [] => some none
    | ['1'] => some (some .error)
    | ['2'] => some (some .warn)
    | ['3'] => some (some .info)
    | ['4'] => some (some .debug)
    | ['5'] => some (some .trace)
    | _ => none
  else
    match s.toLower with
    | "error" => some (some .error)
    | "warn" => some (some .warn)
    | "info" => some (some .info)
    | "debug" => some (some .debug)
    | "trace" => some (some .trace)
    | "off" => some none
    | _ => none

/-- A character that can start a directive, brackets apart. -/
def startsDirective (c : Char) : Bool :=
  c = '-' || c = ':' || c = '_' || c.isAlphanum || (127 < c.toNat && !Text.isBlank c)

/-- What stands between brackets: a name, which spans alone have, or the name of a field between braces;
a field with a value is about spans as well. -/
structure Scope where
  fields : List String
  inSpan : Bool

/-- What stands between brackets, after the opening one, and the text after the closing one. -/
def scopeOf? (cs : List Char) : Option (Scope × List Char) :=
  let name := cs.takeWhile fun c => c ≠ ']' ∧ c ≠ '\x7b'
  match cs.dropWhile fun c => c ≠ ']' ∧ c ≠ '\x7b' with
  | ']' :: rest => some (⟨[], true⟩, rest)
  | _ :: rest =>
    let field := rest.takeWhile (· ≠ '\x7d')
    match rest.dropWhile (· ≠ '\x7d') with
    | _ :: ']' :: after =>
      if field = [] then none
      else some (⟨[String.ofList field], name ≠ [] || field.contains '='⟩, after)
    | _ => none
  | [] => none

/-- The level after an equals sign; all levels where nothing follows it. -/
def levelAfter? (cs : List Char) : Option (Option Level) :=
  if cs = [] then some (some .trace) else levelOf? (String.ofList cs)

/-- A directive with brackets, read from the opening one on. -/
def bracketed? (target : Option String) (cs : List Char) : Option Directive := do
  let (scope, rest) ← scopeOf? cs
  let level ← match rest with
    | [] => some (some .trace)
    | '=' :: l => levelAfter? l
    | _ => none
  return { target, fields := scope.fields, inSpan := scope.inSpan, level }

/-- **One directive as text**: a level, a target, or a target with brackets or with a level after
`=`. With blanks in front it can only be a target, of which they are part. -/
def directiveOf? (s : String) : Option Directive :=
  let cs := s.toList
  match cs.dropWhile Text.isBlank with
  | [] => none
  | c :: more =>
    if cs ≠ c :: more then
      if startsDirective c && !more.any fun c => c = '=' || c = '[' then
        some { target := some s, level := some .trace }
      else none
    else if c = '[' then bracketed? none more
    else if !startsDirective c then none
    else
      let name := String.ofList (cs.takeWhile fun c => c ≠ '=' ∧ c ≠ '[')
      match cs.dropWhile fun c => c ≠ '=' ∧ c ≠ '[' with
      | [] =>
        match levelOf? s with
        | some l => some { level := l }
        | none => some { target := some s, level := some .trace }
      | '=' :: l => (levelAfter? l).map fun l => { target := some name, level := l }
      | _ :: rest => bracketed? (some name) rest

/-- **A filter as text**: directives between commas, empty ones passed over. There is no filter if one
of them does not read; no directive at all means errors only. -/
def filterOf? (s : String) : Option Filter :=
  match (s.splitOn ",").filter (· ≠ "") with
  | [] => some (.upTo .error)
  | parts => parts.mapM directiveOf?

end QualityGate.Console
