import QualityGate.Shell.Scene
/-!
Conditions that scripts test: about files, about words and about numbers, joined by `-a`, `-o`, `!`
and parentheses.
-/

namespace QualityGate.Shell.Condition

open Host (FileTree Location Entry)

/-- Why a condition has no answer. -/
inductive Fault where
  | illegalNumber (text : Bytes)
  | unexpectedOperator (text : Bytes)
  | argumentExpected (operator : Option Bytes)
  | closingExpected
  deriving DecidableEq, Repr

/-- What a shell says of a condition without an answer. -/
def Fault.message : Fault → Bytes
  | illegalNumber t => Text.bytes "Illegal number: " ++ t
  | unexpectedOperator t => t ++ Text.bytes ": unexpected operator"
  | argumentExpected (some op) => op ++ Text.bytes ": argument expected"
  | argumentExpected none => Text.bytes "argument expected"
  | closingExpected => Text.bytes "closing paren expected"

/-- A number as a condition reads it. -/
def number (s : Bytes) : Except Fault Int :=
  let t := (s.dropWhile isSpace).reverse.dropWhile isSpace |>.reverse
  match intOf? t with
  | some i => .ok i
  | none => .error (.illegalNumber s)

/-- What conditions are asked about. -/
structure Place where
  files : FileTree
  cwd : Location

/-- The answer of an operator before one word, if there is such an operator. -/
def unary? (p : Place) (op arg : Bytes) : Option Bool :=
  let found : Option Entry := (p.files.stat p.cwd arg).toOption.map (·.2)
  let isFile := match found with
    | some (.file _ _) | some (.utility _) => true
    | _ => false
  match op with
  | [0x2D, c] =>
    if c = byte 'n' then some (arg ≠ [])
    else if c = byte 'z' then some (arg = [])
    else if c = byte 'e' ∨ c = byte 'r' ∨ c = byte 'w' then some found.isSome
    else if c = byte 'f' then some isFile
    else if c = byte 'd' then some (found = some .directory)
    else if c = byte 'x' then
      some (match found with
        | some (.file _ x) => x
        | some .device => false
        | some _ => true
        | none => false)
    else if c = byte 's' then
      some (match found with
        | some (.file data _) => data ≠ []
        | some .device => false
        | some _ => true
        | none => false)
    else if [byte 'h', byte 'L', byte 'b', byte 'c', byte 'p', byte 'S', byte 'g', byte 'u', byte 'k',
        byte 't'].contains c then some false
    else none
  | _ => none

/-- The answer of an operator between two words, if there is such an operator. -/
def binary? (a op b : Bytes) : Option (Except Fault Bool) :=
  let compare := fun (f : Int → Int → Bool) => some do return f (← number a) (← number b)
  let is := fun (s : String) => op = Text.bytes s
  if is "=" ∨ is "==" then some (.ok (a = b))
  else if is "!=" then some (.ok (a ≠ b))
  else if is "<" then some (.ok (Text.before a b))
  else if is ">" then some (.ok (Text.before b a))
  else if is "-eq" then compare fun x y => x = y
  else if is "-ne" then compare fun x y => x ≠ y
  else if is "-lt" then compare fun x y => x < y
  else if is "-le" then compare fun x y => x ≤ y
  else if is "-gt" then compare fun x y => y < x
  else if is "-ge" then compare fun x y => y ≤ x
  else none

/-- What can be read of a condition. -/
inductive Level where
  | either
  | both
  | single

/-- A reader of conditions, over the words that are left. -/
abbrev Reader := StateT (List Bytes) (Except Fault)

/-- One level of a condition, read with the help of a reader for the others. -/
def readLevel (p : Place) (self : Level → Reader Bool) : Level → Reader Bool
  | .either => do
    let a ← self .both
    match ← get with
    | [0x2D, 0x6F] :: rest => set rest; let b ← self .either; return a || b
    | _ => return a
  | .both => do
    let a ← self .single
    match ← get with
    | [0x2D, 0x61] :: rest => set rest; let b ← self .both; return a && b
    | _ => return a
  | .single => do
    match ← get with
    | [] => throw (.argumentExpected none)
    | [a] => set ([] : List Bytes); return a ≠ []
    | a :: b :: rest =>
      match rest with
      | c :: rest2 =>
        match binary? a b c with
        | some answer => set rest2; answer
        | none => prefixed a b rest
      | [] => prefixed a b rest
where
  /-- A condition that starts with an operator of its own, or a word alone. -/
  prefixed (a b : Bytes) (rest : List Bytes) : Reader Bool := do
    if a = [0x21] then
      set (b :: rest)
      return !(← self .single)
    else if a = [0x28] then
      set (b :: rest)
      let v ← self .either
      match ← get with
      | [0x29] :: rest => set rest; return v
      | _ => throw .closingExpected
    else
      match unary? p a b with
      | some v => set rest; return v
      | none => set (b :: rest); return a ≠ []

/-- Reads one level, nested no deeper than a budget. -/
def read (p : Place) : Nat → Level → Reader Bool
  | 0, _ => throw (.argumentExpected none)
  | n + 1, l => readLevel p (read p n) l

/-- **The answer to a condition**; that without a word does not hold. Where words are left over, the
last one before them is what is complained about. -/
def holds (p : Place) (args : List Bytes) : Except Fault Bool :=
  match args with
  | [] => .ok false
  | [a] => .ok (a ≠ [])
  | [a, b] =>
    match unary? p a b, binary? a b [] with
    | none, some _ => .error (.argumentExpected (some b))
    | _, _ => whole args
  | _ => whole args
where
  /-- The answer to a condition of several words. -/
  whole (args : List Bytes) : Except Fault Bool :=
    match read p (4 * args.length + 4) .either args with
    | .error e => .error e
    | .ok (v, []) => .ok v
    | .ok (_, rest) =>
      .error (.unexpectedOperator ((args[args.length - rest.length - 1]?).getD []))

end QualityGate.Shell.Condition
