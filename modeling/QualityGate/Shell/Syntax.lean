import QualityGate.Text.Utf8
/-!
The syntax of shell scripts. A word is a list of parts, each a literal or something to be expanded;
what stands inside an expansion is kept as source text and read when it is expanded. Scripts are
trees of commands.
-/

namespace QualityGate.Shell

/-! ### Words -/

/-- **What is asked of a parameter.** -/
inductive ParamUse where
  /-- Its value. -/
  | value
  /-- The length of its value. -/
  | length
  /-- Its value, or a word where it is unset (or empty, if `orEmpty`). -/
  | orWord (orEmpty : Bool) (word : Bytes)
  /-- The same, and the word is assigned. -/
  | orAssign (orEmpty : Bool) (word : Bytes)
  /-- The same, and the word is a complaint. -/
  | orComplain (orEmpty : Bool) (word : Bytes)
  /-- A word where it is set (and not empty, if `orEmpty`). -/
  | ifSet (orEmpty : Bool) (word : Bytes)
  /-- Its value without what a pattern matches at one end. -/
  | cut (atEnd longest : Bool) (pattern : Bytes)
  deriving DecidableEq, Repr

/-- **A part of a word.** Quoted parts are not split or matched against file names. -/
inductive Part where
  | literal (bytes : Bytes) (quoted : Bool)
  | param (name : Bytes) (use : ParamUse) (quoted : Bool)
  /-- The output of a script. -/
  | output (source : Bytes) (quoted : Bool)
  /-- The value of an arithmetic expression. -/
  | arith (source : Bytes) (quoted : Bool)
  deriving DecidableEq, Repr

/-- A word. -/
abbrev Word := List Part

/-! ### Commands -/

/-- **What a redirection does.** -/
inductive RedirectKind where
  /-- Reads from a file. -/
  | input
  /-- Writes to a file from its start. -/
  | output
  /-- Writes at the end of a file. -/
  | append
  /-- Uses what another descriptor uses, or none. -/
  | copy
  /-- Reads a document that stands in the script itself. -/
  | document
  deriving DecidableEq, Repr

/-- **A redirection** of a descriptor. -/
structure Redirect where
  fd : Nat
  kind : RedirectKind
  target : Word
  deriving DecidableEq, Repr

/-- **A script.** -/
inductive Script where
  | nothing
  /-- A command with what is assigned before it, on a line of its own number. -/
  | simple (line : Nat) (assigns : List (Bytes × Word)) (words : List Word)
      (redirects : List Redirect)
  | seq (first second : Script)
  | andThen (first second : Script)
  | orElse (first second : Script)
  | negate (body : Script)
  | pipe (first second : Script)
  | subshell (body : Script)
  /-- A command with redirections around it. -/
  | group (body : Script) (redirects : List Redirect)
  | branch (cond body other : Script)
  | loop (untilTrue : Bool) (cond body : Script)
  | each (name : Bytes) (items : Option (List Word)) (body : Script)
  /-- The first script whose patterns fit a word. -/
  | select (subject : Word) (arms : List (List Word × Script))
  | define (name : Bytes) (body : Script)
  | background (body : Script)
  /-- A place at which the script stops being one. -/
  | broken (line : Nat) (message : String)
  deriving Repr

/-! ### Bytes as characters -/

/-- A byte by its ASCII character. -/
def byte (c : Char) : UInt8 := UInt8.ofNat c.toNat

/-- A byte that starts a name. -/
def isNameStart (b : UInt8) : Bool :=
  (byte 'a' ≤ b && b ≤ byte 'z') || (byte 'A' ≤ b && b ≤ byte 'Z') || b = byte '_'

/-- A decimal digit. -/
def isDigit (b : UInt8) : Bool :=
  byte '0' ≤ b && b ≤ byte '9'

/-- A byte of a name. -/
def isNameByte (b : UInt8) : Bool :=
  isNameStart b || isDigit b

/-- Whether some bytes are a name. -/
def isName : Bytes → Bool
  | [] => false
  | b :: r => isNameStart b && r.all isNameByte

/-- A space or a tab. -/
def isSpace (b : UInt8) : Bool :=
  b = 0x20 || b = 0x09

/-- The line feed. -/
def lineFeed : UInt8 := 0x0A

/-- The natural number that decimal digits write. -/
def natOf (ds : Bytes) : Nat :=
  ds.foldl (fun n b => n * 10 + (b.toNat - 48)) 0

/-- An integer as it is written in decimal, if it is one. -/
def intOf? (s : Bytes) : Option Int :=
  match s with
  | 0x2D :: d :: r => if (d :: r).all isDigit then some (-(natOf (d :: r) : Int)) else none
  | 0x2B :: d :: r => if (d :: r).all isDigit then some (natOf (d :: r)) else none
  | d :: r => if (d :: r).all isDigit then some (natOf (d :: r)) else none
  | [] => none

/-- The decimal digits of an integer. -/
def decimal (i : Int) : Bytes :=
  Text.bytes (toString i)

end QualityGate.Shell
