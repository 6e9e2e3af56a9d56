import QualityGate.Shell.Syntax
/-!
Cutting a script into tokens: words, operators and line ends. A word is read with its quotes and
expansions; inside an expansion only its end is looked for.
-/

namespace QualityGate.Shell

/-! ### Finding the end of an expansion -/

/-- The rest of a text between apostrophes, and what follows. -/
def apostrophed : Bytes → Option (Bytes × Bytes)
  | [] => none
  | b :: r => if b = 0x27 then some ([], r) else (apostrophed r).map fun p => (b :: p.1, p.2)

/-- **The source up to a closing byte**, quotes and nested pairs passed over; `acc` holds what is
passed, reversed. -/
def enclosed (opening closing : UInt8) (acc : Bytes) (depth : Nat) (inQuotes : Bool) :
    Bytes → Option (Bytes × Bytes)
  | [] => none
  | b :: r =>
    if b = byte '\\' then
      match r with
      | [] => none
      | c :: r => enclosed opening closing (c :: b :: acc) depth inQuotes r
    else if b = 0x22 then enclosed opening closing (b :: acc) depth (!inQuotes) r
    else if b = closing && !inQuotes then
      match depth with
      | 0 => some (acc.reverse, r)
      | d + 1 => enclosed opening closing (b :: acc) d inQuotes r
    else if b = opening && !inQuotes then enclosed opening closing (b :: acc) (depth + 1) inQuotes r
    else enclosed opening closing (b :: acc) depth inQuotes r

/-- The source between backquotes, within double quotes or not. -/
def backquoted (inQuotes : Bool) (acc : Bytes) : Bytes → Option (Bytes × Bytes)
  | [] => none
  | b :: r =>
    if b = 0x60 then some (acc.reverse, r)
    else if b = byte '\\' then
      match r with
      | [] => none
      | c :: r =>
        if c = 0x60 || c = byte '\\' || c = byte '$' || (inQuotes && c = 0x22) then
          backquoted inQuotes (c :: acc) r
        else backquoted inQuotes (c :: b :: acc) r
    else backquoted inQuotes (b :: acc) r

/-! ### Parameters -/

/-- What follows a parameter's name between braces. -/
def paramUse (s : Bytes) : Option ParamUse :=
  let (colon, s) := match s with
    | 0x3A :: r => (true, r)
    | s => (false, s)
  match s with
  | [] => if colon then none else some .value
  | b :: w =>
    if b = byte '-' then some (.orWord colon w)
    else if b = byte '=' then some (.orAssign colon w)
    else if b = byte '?' then some (.orComplain colon w)
    else if b = byte '+' then some (.ifSet colon w)
    else if colon then none
    else if b = byte '#' then
      match w with
      | 0x23 :: p => some (.cut false true p)
      | p => some (.cut false false p)
    else if b = byte '%' then
      match w with
      | 0x25 :: p => some (.cut true true p)
      | p => some (.cut true false p)
    else none

/-- A parameter that is named by a single sign. -/
def isSignParam (b : UInt8) : Bool :=
  isDigit b || [byte '@', byte '*', byte '#', byte '?', byte '-', byte '$', byte '!'].contains b

/-- The name at the start of some bytes, and what follows. -/
def leadingName : Bytes → Bytes × Bytes
  | [] => ([], [])
  | b :: r =>
    if isNameStart b then ((b :: r).takeWhile isNameByte, (b :: r).dropWhile isNameByte)
    else if isDigit b then ((b :: r).takeWhile isDigit, (b :: r).dropWhile isDigit)
    else if isSignParam b then ([b], r)
    else ([], b :: r)

/-- A parameter between braces. -/
def bracedParam (source : Bytes) : Option (Bytes × ParamUse) :=
  match source with
  | 0x23 :: b :: r =>
    let (name, rest) := leadingName (b :: r)
    if name ≠ [] && rest = [] then some (name, .length) else (paramUse (b :: r)).map fun u => ([0x23], u)
  | s =>
    let (name, rest) := leadingName s
    if name = [] then none else (paramUse rest).map fun u => (name, u)

/-! ### Words -/

/-- Why a script cannot be cut into tokens. -/
inductive Unfinished where
  | quotes | script | parameter | arithmetic | badParameter
  deriving DecidableEq, Repr

/-- What the shell says about an unfinished token. -/
def Unfinished.message : Unfinished → String
  | quotes => "Syntax error: Unterminated quoted string"
  | script => "Syntax error: end of file unexpected (expecting \x22)\x22)"
  | parameter => "Syntax error: Missing '\x7d'"
  | arithmetic => "Syntax error: Missing '))'"
  | badParameter => "Bad substitution"

/-- A byte that ends a word. -/
def endsWord (b : UInt8) : Bool :=
  isSpace b || b = lineFeed ||
    [byte ';', byte '&', byte '|', byte '<', byte '>', byte '(', byte ')'].contains b

/-- A literal byte added to the parts read so far, the last of which comes first. -/
def addByte (b : UInt8) (quoted : Bool) : List Part → List Part
  | .literal bs q :: ps => if q = quoted then .literal (b :: bs) q :: ps
    else .literal [b] quoted :: .literal bs q :: ps
  | ps => .literal [b] quoted :: ps

/-- Parts in order, their literals in order. -/
def orderParts (ps : List Part) : Word :=
  ps.reverse.map fun p => match p with
    | .literal bs q => .literal bs.reverse q
    | p => p

/-- **An expansion after its dollar sign**; none if the sign stands for itself. -/
def dollar (quoted : Bool) (s : Bytes) : Except Unfinished (Option Part × Bytes) :=
  match s with
  | 0x28 :: 0x28 :: r =>
    match enclosed (byte '(') (byte ')') [] 0 false r with
    | some (source, 0x29 :: rest) => .ok (some (.arith source quoted), rest)
    -- two brackets that are not closed together start a command in a subshell
    | _ =>
      match enclosed (byte '(') (byte ')') [] 0 false (0x28 :: r) with
      | some (source, rest) => .ok (some (.output source quoted), rest)
      | none => .error .arithmetic
  | 0x28 :: r =>
    match enclosed (byte '(') (byte ')') [] 0 false r with
    | some (source, rest) => .ok (some (.output source quoted), rest)
    | none => .error .script
  | 0x7B :: r =>
    match enclosed (byte '\x7b') (byte '\x7d') [] 0 false r with
    | some (source, rest) =>
      match bracedParam source with
      | some (name, use) => .ok (some (.param name use quoted), rest)
      | none => .error .badParameter
    | none => .error .parameter
  | b :: r =>
    if isNameStart b then
      .ok (some (.param ((b :: r).takeWhile isNameByte) .value quoted),
        (b :: r).dropWhile isNameByte)
    else if isSignParam b then .ok (some (.param [b] .value quoted), r)
    else .ok (none, b :: r)
  | [] => .ok (none, [])

/-- **What is read as a word.** -/
inductive Extent where
  /-- A word among others. -/
  | word
  /-- All of a text, such as a word that stands inside an expansion. -/
  | whole
  /-- All of a document, in which double quotes stand for themselves. -/
  | document
  deriving DecidableEq

/-- **The parts of a word**, the last one first, and what follows the word. Between double quotes
(`inQuotes`), and in a document, few signs have a meaning. -/
def wordParts (extent : Extent) :
    Nat → Bool → List Part → Bytes → Except Unfinished (List Part × Bytes)
  | 0, _, ps, s => .ok (ps, s)
  | n + 1, inQuotes, ps, s =>
    match s with
    | [] => if inQuotes ∧ extent ≠ .document then .error .quotes else .ok (ps, [])
    | b :: r =>
      if b = byte '$' then
        match dollar inQuotes r with
        | .error e => .error e
        | .ok (some p, rest) => wordParts extent n inQuotes (p :: ps) rest
        | .ok (none, rest) => wordParts extent n inQuotes (addByte b inQuotes ps) rest
      else if b = 0x60 then
        match backquoted inQuotes [] r with
        | some (source, rest) => wordParts extent n inQuotes (.output source inQuotes :: ps) rest
        | none => .error .quotes
      else if b = byte '\\' then
        match r with
        | [] => .ok (addByte b inQuotes ps, [])
        | c :: r =>
          if c = lineFeed then wordParts extent n inQuotes ps r
          else if inQuotes &&
              !(c = byte '$' || c = 0x60 || (c = 0x22 && extent ≠ .document) || c = byte '\\') then
            wordParts extent n inQuotes (addByte c true (addByte b true ps)) r
          else wordParts extent n inQuotes (addByte c true ps) r
      else if b = 0x22 && extent ≠ .document then
        wordParts extent n (!inQuotes) (.literal [] true :: ps) r
      else if inQuotes then wordParts extent n inQuotes (addByte b true ps) r
      else if b = 0x27 then
        match apostrophed r with
        | some (text, rest) => wordParts extent n inQuotes (.literal text.reverse true :: ps) rest
        | none => .error .quotes
      else if extent = .word && endsWord b then .ok (ps, s)
      else wordParts extent n inQuotes (addByte b false ps) r

/-- A word that stands inside an expansion, read to its end. -/
def wordOf (quoted : Bool) (s : Bytes) : Word :=
  match wordParts .whole (s.length + 1) false [] s with
  | .ok (ps, _) =>
    (orderParts ps).map fun p => match p with
      | .literal bs q => .literal bs (q || quoted)
      | .param n u q => .param n u (q || quoted)
      | .output t q => .output t (q || quoted)
      | .arith t q => .arith t (q || quoted)
  | .error _ => [.literal s quoted]

/-- The text of a document as a word. -/
def wordOfDocument (s : Bytes) : Except Unfinished Word :=
  return orderParts (← wordParts .document (s.length + 1) true [] s).1

/-! ### Tokens -/

/-- **A token.** -/
inductive Token where
  | word (w : Word)
  /-- A redirection sign with the descriptor before it. -/
  | redirect (fd : Option Nat) (kind : RedirectKind)
  /-- Any other operator, or a line end. -/
  | op (text : String)
  /-- The place at which the text ends within a token. -/
  | unfinished (why : Unfinished)
  deriving DecidableEq, Repr

/-- A token with the line on which it stands. -/
structure Placed where
  line : Nat
  token : Token

/-- The bytes of a word that is one literal without quotes. -/
def plainWord? : Word → Option Bytes
  | [.literal bs false] => some bs
  | _ => none

/-- An operator at the start of some bytes, and what follows. -/
def operator? : Bytes → Option (Token × Bytes)
  | 0x0A :: r => some (.op "\n", r)
  | 0x3B :: 0x3B :: r => some (.op ";;", r)
  | 0x3B :: r => some (.op ";", r)
  | 0x26 :: 0x26 :: r => some (.op "&&", r)
  | 0x26 :: r => some (.op "&", r)
  | 0x7C :: 0x7C :: r => some (.op "||", r)
  | 0x7C :: r => some (.op "|", r)
  | 0x28 :: r => some (.op "(", r)
  | 0x29 :: r => some (.op ")", r)
  | 0x3E :: 0x3E :: r => some (.redirect none .append, r)
  | 0x3E :: 0x26 :: r => some (.redirect none .copy, r)
  | 0x3E :: 0x7C :: r => some (.redirect none .output, r)
  | 0x3E :: r => some (.redirect none .output, r)
  | 0x3C :: 0x26 :: r => some (.redirect (some 0) .copy, r)
  | 0x3C :: r => some (.redirect none .input, r)
  | _ => none

/-- A redirection sign directly after a descriptor's number. -/
def numberedRedirect? (s : Bytes) : Option (Token × Bytes) :=
  let ds := s.takeWhile isDigit
  if ds = [] then none
  else
    match operator? (s.dropWhile isDigit) with
    | some (.redirect _ k, r) => some (.redirect (some (natOf ds)) k, r)
    | _ => none

/-- Bytes without the blanks, joined lines and comment at their start, and how many lines were
joined. -/
def skipBlanks (joined : Nat) : Bytes → Nat × Bytes
  | [] => (joined, [])
  | b :: r =>
    if isSpace b then skipBlanks joined r
    else if b = byte '\\' then
      match r with
      | 0x0A :: r => skipBlanks (joined + 1) r
      | r => (joined, b :: r)
    else if b = byte '#' then (joined, r.dropWhile (· ≠ lineFeed))
    else (joined, b :: r)

/-! ### Documents -/

/-- **A document that stands in a script**, after the line on which it is asked for. -/
structure Document where
  fd : Option Nat
  body : Except Unfinished Word
  /-- The lines that it takes, its closing line among them. -/
  lines : Nat

/-- The lines of a document up to the one that closes it, how many they are, and what follows. -/
def documentLines (dropsTabs : Bool) (close : Bytes) : Nat → Bytes → Bytes × Nat × Bytes
  | 0, s => ([], 0, s)
  | n + 1, s =>
    let line := s.takeWhile (· ≠ lineFeed)
    let line := if dropsTabs then line.dropWhile (· = 0x09) else line
    match s.dropWhile (· ≠ lineFeed) with
    | [] => (if line = close then [] else line, 0, [])
    | _ :: rest =>
      if line = close then ([], 1, rest)
      else
        let (more, count, rest) := documentLines dropsTabs close n rest
        (line ++ lineFeed :: more, count + 1, rest)

/-- **A document asked for at the start of some bytes**, and the bytes without it. It stands for itself
if the word that closes it has quotes. -/
def document? (s : Bytes) : Option (Document × Bytes) :=
  let digits := s.takeWhile isDigit
  match s.dropWhile isDigit with
  | 0x3C :: 0x3C :: r =>
    let (dropsTabs, r) := match r with
      | 0x2D :: r => (true, r)
      | r => (false, r)
    let r := r.dropWhile isSpace
    match wordParts .word (r.length + 1) false [] r with
    | .ok (p :: ps, rest) =>
      let word := orderParts (p :: ps)
      let close := (word.map fun p => match p with
        | .literal bs _ => bs
        | _ => []).flatten
      let isQuoted := word.any fun p => match p with
        | .literal _ q => q
        | _ => false
      let (text, count, after) :=
        documentLines dropsTabs close (rest.length + 1) ((rest.dropWhile (· ≠ lineFeed)).drop 1)
      some
        (⟨if digits = [] then none else some (natOf digits),
          if isQuoted then .ok [.literal text true] else wordOfDocument text, count⟩,
        rest.takeWhile (· ≠ lineFeed) ++ lineFeed :: after)
    | _ => none
  | _ => none

/-- **The tokens of a script**; the last one may be unfinished. The next line comes after the lines that
documents have taken (`taken`). -/
def tokens : Nat → Nat → Nat → Bytes → List Placed
  | 0, _, _, _ => []
  | n + 1, line, taken, s =>
    let (joined, s) := skipBlanks 0 s
    let line := line + joined
    match s with
    | [] => []
    | b :: r =>
      match document? (b :: r) with
      | some (d, rest) =>
        match d.body with
        | .error e => [⟨line, .unfinished e⟩]
        | .ok body =>
          ⟨line, .redirect d.fd .document⟩ :: ⟨line, .word body⟩ ::
            tokens n line (taken + d.lines) rest
      | none =>
        match (numberedRedirect? (b :: r)).orElse fun _ => operator? (b :: r) with
        | some (.op "\n", rest) => ⟨line, .op "\n"⟩ :: tokens n (line + 1 + taken) 0 rest
        | some (t, rest) => ⟨line, t⟩ :: tokens n line taken rest
        | none =>
          match wordParts .word ((b :: r).length + 1) false [] (b :: r) with
          | .error e => [⟨line, .unfinished e⟩]
          | .ok (ps, rest) =>
            let crossed := ((b :: r).take ((b :: r).length - rest.length)).count lineFeed
            ⟨line, .word (orderParts ps)⟩ :: tokens n (line + crossed) taken rest

end QualityGate.Shell
