import QualityGate.Shell.Arithmetic
import QualityGate.Shell.Pattern
import QualityGate.Shell.Scene
/-!
From words to the bytes that a command gets: parameters, the output of scripts and arithmetic are put
in, what came from them is split at separators, and patterns become the names of the files that they
match. Taking the output of a script is a parameter of all this.
-/

namespace QualityGate.Shell

open Host (FileTree Location)

/-! ### Fields -/

/-- **Fields in the making**: the finished ones, the last of which comes first, and the one at work,
its last byte first. -/
structure Fields where
  finished : List (List Mark) := []
  current : Option (List Mark) := none
  /-- Whether a blank has just ended a field. -/
  gap : Bool := false

namespace Fields

/-- Adds bytes to the field at work, which then exists even if they are none. -/
def add (f : Fields) (quoted : Bool) (bs : Bytes) : Fields :=
  { f with current := some (bs.foldl (fun acc b => ⟨b, quoted⟩ :: acc) (f.current.getD [])),
           gap := false }

/-- Ends the field at work, if there is one. -/
def close (f : Fields) : Fields :=
  match f.current with
  | some ms => { f with finished := ms.reverse :: f.finished, current := none }
  | none => f

/-- Adds bytes that are split at separators: blank ones count once, others each. -/
def split (separators : Bytes) (f : Fields) (bs : Bytes) : Fields :=
  bs.foldl
    (fun f b =>
      if separators.contains b then
        if isSpace b || b = lineFeed then
          if f.current.isSome then { f.close with gap := true } else f
        else if f.gap then { f with gap := false }
        else ({ f with current := some (f.current.getD []) } : Fields).close
      else f.add false [b])
    f

/-- All fields in order. -/
def all (f : Fields) : List (List Mark) :=
  f.close.finished.reverse

end Fields

/-- The bytes at which fields are split. -/
def separatorsOf (sh : State) : Bytes :=
  (sh.value? (Text.bytes "IFS")).getD [0x20, 0x09, 0x0A]

/-- Words joined by the first separator. -/
def joinArgs (sh : State) : Bytes :=
  match separatorsOf sh with
  | s :: _ => Text.joinBytes s sh.args
  | [] => sh.args.flatten

/-! ### Parameters -/

/-- The letters of the options that are set. -/
def State.optionLetters (sh : State) : Bytes :=
  (if sh.stopOnFailure then [byte 'e'] else []) ++ (if sh.keepsPatterns then [byte 'f'] else []) ++
    (if sh.unsetIsError then [byte 'u'] else []) ++
    (if sh.traces then [byte 'x'] else [])

/-- **The value of a parameter that has one value.** -/
def State.param? (sh : State) (name : Bytes) : Option Bytes :=
  match name with
  | [0x23] => some (decimal sh.args.length)
  | [0x3F] => some (decimal sh.status)
  | [0x24] => some (decimal sh.mainPid)
  | [0x21] => sh.lastJob.map fun n => decimal n
  | [0x2D] => some sh.optionLetters
  | [0x2A] => if sh.args = [] then none else some (joinArgs sh)
  | [0x40] => if sh.args = [] then none else some (Text.joinBytes 0x20 sh.args)
  | name =>
    if name.all isDigit then
      match natOf name with
      | 0 => some sh.name
      | n + 1 => sh.args[n]?
    else sh.value? name

/-- Whether a name stands for all arguments at once. -/
def isAllArgs (name : Bytes) : Bool :=
  name = [0x40] || name = [0x2A]

/-- What a shell says of a parameter that has to be set. -/
def complainUnset {α : Type} (name : Bytes) : Act α := do
  match (← theShell).dialect with
  | .posix => giveUp (name ++ Text.bytes ": parameter not set")
  | .bash =>
    complain (name ++ Text.bytes ": unbound variable")
    throw (.exit 127)

/-! ### Expansion -/

/-- Bytes without the line feeds at their end, and without zeros. -/
def trimOutput (bs : Bytes) : Bytes :=
  ((bs.filter (· ≠ 0)).reverse.dropWhile (· = lineFeed)).reverse

/-- The parts of a text between double quotes. -/
def quotedParts (s : Bytes) : Word :=
  match wordParts .whole (s.length + 2) true [] (s ++ [0x22]) with
  | .ok (ps, _) => orderParts ps
  | .error _ => [.literal s true]

/-- What an arithmetic fault says. -/
def faultMessage (source : Bytes) : Arithmetic.Fault → Bytes
  | .primaryExpected =>
    Text.bytes "arithmetic expression: expecting primary: \x22" ++ source ++ [0x22]
  | .unfinished => Text.bytes "arithmetic expression: expecting EOF: \x22" ++ source ++ [0x22]
  | .divisionByZero =>
    Text.bytes "arithmetic expression: division by zero: \x22" ++ source ++ [0x22]
  | .notNumber v => Text.bytes "Illegal number: " ++ v

/-- **The value of an arithmetic expression**; its assignments are made. -/
def evalArithmetic (source : Bytes) : Act Bytes := do
  let sh ← theShell
  match (do (← Arithmetic.Expr.ofBytes source).eval ⟨sh.value?, []⟩) with
  | .error f => giveUp (faultMessage source f)
  | .ok (i, sc) =>
    for (name, v) in sc.assigned.reverse do
      assign name (decimal v)
    return decimal i

section
variable (takeOutput : Bytes → Act Bytes)

/-- Adds a value: whole if it is quoted or nothing is to be split. -/
def addValue (splits quoted : Bool) (f : Fields) (v : Bytes) : Act Fields := do
  if quoted then return f.add true v
  else if splits then return f.split (separatorsOf (← theShell)) v
  else return f.add false v

/-- Adds all arguments: `$@` between quotes keeps them apart, as both forms do outside. -/
def addArgs (splits quoted : Bool) (name : Bytes) (f : Fields) : Act Fields := do
  let sh ← theShell
  if !splits || (quoted && name = [0x2A]) then
    return f.add quoted (if name = [0x2A] then joinArgs sh else Text.joinBytes 0x20 sh.args)
  else
    match sh.args with
    | [] => return f
    | a :: rest =>
      let first ← addValue splits quoted f a
      rest.foldlM (fun f a => addValue splits quoted f.close a) first

/-- **Adds one part of a word.** Words within it are expanded in their turn, nested no deeper than
a budget. -/
def addPart (splits : Bool) : Nat → Part → Fields → Act Fields
  | 0, _, f => return f
  | n + 1, part, f => do
    -- the literal parts of a default were not split when it was read, so they are split here
    let addWord (quoted : Bool) (w : Bytes) (f : Fields) : Act Fields :=
      (wordOf quoted w).foldlM
        (fun f p => match p with
          | .literal bs false => addValue splits false f bs
          | p => addPart splits n p f) f
    let plainWord (w : Bytes) : Act (List Mark) := do
      let f ← (wordOf false w).foldlM (fun f p => addPart false n p f) ({} : Fields)
      return (f.all.head?).getD []
    match part with
    | .literal bs quoted => return f.add quoted bs
    | .output source quoted => addValue splits quoted f (trimOutput (← takeOutput source))
    | .arith source quoted =>
      let text ←
        if source.contains (byte '$') || source.contains 0x60 then do
          let f ← (quotedParts source).foldlM (fun f p => addPart false n p f) ({} : Fields)
          pure (unmarked ((f.all.head?).getD []))
        else pure source
      addValue splits quoted f (← evalArithmetic text)
    | .param name use quoted =>
      let sh ← theShell
      let value := sh.param? name
      let missing (orEmpty : Bool) : Bool := value.isNone || (orEmpty && value = some [])
      let put (f : Fields) : Act Fields := do
        match value with
        | some v => if isAllArgs name then addArgs splits quoted name f else addValue splits quoted f v
        | none =>
          if isAllArgs name then return f
          else if sh.unsetIsError then complainUnset name
          else if quoted then return f.add true []
          else return f
      match use with
      | .value => put f
      | .length =>
        if value.isNone && sh.unsetIsError then complainUnset name
        else addValue splits quoted f (decimal ((value.getD []).length))
      | .orWord e w => if missing e then addWord quoted w f else put f
      | .ifSet e w => if missing e then return f else addWord quoted w f
      | .orAssign e w =>
        if missing e then
          let v := unmarked (← plainWord w)
          assign name v
          addValue splits quoted f v
        else put f
      | .orComplain e w =>
        if missing e then
          let text ← if w = [] then
              pure (Text.bytes (if e then "parameter not set or null" else "parameter not set"))
            else pure (unmarked (← plainWord w))
          giveUp (name ++ Text.bytes ": " ++ text)
        else put f
      | .cut atEnd longest w =>
        match value with
        | none => put f
        | some v => addValue splits quoted f (Pattern.cut (← plainWord w) atEnd longest v)

/-- How deep words may be nested in words. -/
def nesting : Nat := 200

/-- A leading tilde as the home directory. -/
def expandTilde (w : Word) : Act Word := do
  match w with
  | .literal (0x7E :: rest) false :: more =>
    if rest = [] ∧ more ≠ [] ∨ rest ≠ [] ∧ rest.head? ≠ some Host.Path.slash then return w
    else
      match (← theShell).value? (Text.bytes "HOME") with
      | some home => return .literal home true :: .literal rest false :: more
      | none => return w
  | w => return w

/-- The fields of a word before patterns are matched. -/
def fieldsOf (splits : Bool) (w : Word) : Act (List (List Mark)) := do
  let w ← expandTilde w
  let noArgs := (← theShell).args = [] && w.any fun p => match p with
    | .param name .value true => name = [0x40]
    | _ => false
  let w := if noArgs then w.filter (· ≠ .literal [] true) else w
  let f ← w.foldlM (fun f p => addPart takeOutput splits nesting p f) ({} : Fields)
  return f.all

end

/-! ### File names -/

/-- A list of names in the order of their bytes. -/
def sortBytes (bs : List Bytes) : List Bytes :=
  bs.mergeSort fun a b => !Text.before b a

/-- A pattern cut at its slashes. -/
def splitMarks : List Mark → List (List Mark)
  | [] => [[]]
  | m :: r =>
    if m.byte = Host.Path.slash then [] :: splitMarks r
    else
      match splitMarks r with
      | [] => [[m]]
      | p :: ps => (m :: p) :: ps

/-- The paths that match the rest of a pattern, from a path that has been reached. -/
def matchPaths (files : FileTree) (cwd : Location) (reached : Bytes) : List (List Mark) → List Bytes
  | [] => [reached]
  | piece :: rest =>
    let under := fun (name : Bytes) =>
      reached ++ name ++ (if rest = [] then [] else [Host.Path.slash])
    if Pattern.isActive piece then
      match files.stat cwd (if reached = [] then [Host.Path.dot] else reached) with
      | .ok (l, .directory) =>
        let hidden := (piece.head?.map (·.byte)) = some Host.Path.dot
        let names := (files.children l).filter fun name =>
          (hidden || name.head? ≠ some Host.Path.dot) && Pattern.fits piece name
        (sortBytes names).flatMap fun name => matchPaths files cwd (under name) rest
      | _ => []
    else
      let path := under (unmarked piece)
      if rest = [] ∧ !files.exists? cwd path then [] else matchPaths files cwd path rest

/-- **A field as file names**: those that it matches, or itself. -/
def pathsOf (ms : List Mark) : Act (List Bytes) := do
  if Pattern.isActive ms && !(← theShell).keepsPatterns then
    let m ← theMachine
    match matchPaths m.files (← theShell).cwd [] (splitMarks ms) with
    | [] => return [unmarked ms]
    | paths => return paths
  else return [unmarked ms]

section
variable (takeOutput : Bytes → Act Bytes)

/-- **The arguments that a word stands for.** -/
def expandWord (w : Word) : Act (List Bytes) := do
  let fields ← fieldsOf takeOutput true w
  return (← fields.mapM pathsOf).flatten

/-- The one argument that a word stands for where nothing is split. -/
def expandWhole (w : Word) : Act Bytes := do
  return unmarked (((← fieldsOf takeOutput false w).head?).getD [])

/-- A word as a pattern. -/
def expandPattern (w : Word) : Act (List Mark) := do
  return (← fieldsOf takeOutput false w).head?.getD []

end
end QualityGate.Shell
