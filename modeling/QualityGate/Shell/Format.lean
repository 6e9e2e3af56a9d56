import QualityGate.Shell.Arithmetic
import QualityGate.Text.ByteOrder
/-!
The two printers of scripts: words with spaces between, and values laid out by a format. Both know
escapes after a backslash. A format is used again as long as it takes arguments and some are left.
-/

namespace QualityGate.Shell.Format

/-! ### Escapes -/

/-- The byte of an escape that is a single letter. -/
def letterEscape? (b : UInt8) : Option UInt8 :=
  [(byte 'a', 7), (byte 'b', 8), (byte 'f', 12), (byte 'n', 10), (byte 'r', 13), (byte 't', 9),
   (byte 'v', 11), (byte 'e', 27), (byte '\\', 0x5C)].lookup b

/-- An octal digit. -/
def isOctal (b : UInt8) : Bool :=
  byte '0' ≤ b && b ≤ byte '7'

/-- The byte that up to three octal digits stand for, and how many they are. -/
def octal (s : Bytes) : UInt8 × Nat :=
  let ds := (s.take 3).takeWhile isOctal
  (UInt8.ofNat (Arithmetic.natOfBase 8 ds), ds.length)

/-- **Bytes with their escapes replaced**, the last byte first; the flag tells whether an escape
ended all output. With `zeroed`, octal digits may follow a zero that does not count. -/
def unescape (zeroed : Bool) (acc : Bytes) : Nat → Bytes → Bytes × Bool
  | 0, _ => (acc, false)
  | _ + 1, [] => (acc, false)
  | n + 1, b :: r =>
    if b ≠ byte '\\' then unescape zeroed (b :: acc) n r
    else
      match r with
      | [] => (b :: acc, false)
      | c :: r2 =>
        if zeroed && c = byte 'c' then (acc, true)
        else if zeroed && c = byte '0' then
          let (v, k) := octal r2
          unescape zeroed (v :: acc) n (r2.drop k)
        else if isOctal c then
          let (v, k) := octal (c :: r2)
          unescape zeroed (v :: acc) n ((c :: r2).drop k)
        else
          match letterEscape? c with
          | some v => unescape zeroed (v :: acc) n r2
          | none => unescape zeroed (c :: b :: acc) n r2

/-! ### Words -/

/-- Words with spaces between. -/
def spaced (args : List Bytes) : Bytes :=
  Text.joinBytes 0x20 args

/-- **What is printed for words** where escapes always count, and only a first `-n` is an option. -/
def echoEscaped (args : List Bytes) : Bytes :=
  let (bare, args) := match args with
    | [0x2D, 0x6E] :: rest => (true, rest)
    | args => (false, args)
  let text := spaced args
  let (out, stopped) := unescape true [] (text.length + 1) text
  out.reverse ++ (if bare || stopped then [] else [lineFeed])

/-- The options at the start of words: whether the line end is left out, whether escapes count, and
the words after them. -/
def echoOptions (bare escapes : Bool) : List Bytes → Bool × Bool × List Bytes
  | [] => (bare, escapes, [])
  | a :: rest =>
    match a with
    | 0x2D :: l :: ls =>
      if (l :: ls).all fun b => b = byte 'n' || b = byte 'e' || b = byte 'E' then
        echoOptions (bare || (l :: ls).contains (byte 'n'))
          ((l :: ls).foldl (fun e b => if b = byte 'e' then true else if b = byte 'E' then false else e)
            escapes) rest
      else (bare, escapes, a :: rest)
    | _ => (bare, escapes, a :: rest)

/-- **What is printed for words** where escapes count only on demand. -/
def echoOptional (args : List Bytes) : Bytes :=
  let (bare, escapes, args) := echoOptions false false args
  let text := spaced args
  if escapes then
    let (out, stopped) := unescape true [] (text.length + 1) text
    out.reverse ++ (if bare || stopped then [] else [lineFeed])
  else text ++ (if bare then [] else [lineFeed])

/-! ### Formats -/

/-- How a value is laid out. -/
structure Layout where
  left : Bool := false
  zero : Bool := false
  plus : Bool := false
  blank : Bool := false
  alternate : Bool := false
  width : Nat := 0
  precision : Option Nat := none

/-- Flags at the start of a directive. -/
def flags (l : Layout) : Bytes → Layout × Bytes
  | [] => (l, [])
  | b :: r =>
    if b = byte '-' then flags { l with left := true } r
    else if b = byte '0' then flags { l with zero := true } r
    else if b = byte '+' then flags { l with plus := true } r
    else if b = byte ' ' then flags { l with blank := true } r
    else if b = byte '#' then flags { l with alternate := true } r
    else (l, b :: r)

/-- A number that arguments give, and what is odd about it. -/
def numberOf (s : Bytes) : Int × Option String :=
  match s with
  | [] => (0, none)
  | b :: r =>
    if b = 0x27 ∨ b = 0x22 then ((r.head?.map (·.toNat)).getD 0, none)
    else
      let (minus, ds) :=
        if b = byte '-' then (true, r) else if b = byte '+' then (false, r) else (false, b :: r)
      if ds.head?.any isDigit then
        let (n, rest) := Arithmetic.numeral ds
        (if minus then -(n : Int) else n, if rest = [] then none else some "not completely converted")
      else (0, some "expected numeric value")

/-- Bytes filled up to the width. -/
def pad (l : Layout) (bs : Bytes) : Bytes :=
  let fill := l.width - bs.length
  if l.left then bs ++ List.replicate fill 0x20 else List.replicate fill 0x20 ++ bs

/-- A number's sign and digits filled up to the width. -/
def padNumber (l : Layout) (sign digits : Bytes) : Bytes :=
  let digits := match l.precision with
    | some p => List.replicate (p - digits.length) (byte '0') ++ digits
    | none => digits
  if l.zero && !l.left && l.precision.isNone then
    sign ++ List.replicate (l.width - sign.length - digits.length) (byte '0') ++ digits
  else pad l (sign ++ digits)

/-- The digits of a natural number in a base. -/
def digitsIn (base : Nat) (upper : Bool) (n : Nat) : Bytes :=
  let cs := Nat.toDigits base n
  cs.map fun c => byte (if upper then c.toUpper else c)

/-- What has come of a format so far, the output's last byte first. -/
structure Progress where
  out : Bytes := []
  args : List Bytes
  complaints : List Bytes := []
  /-- Whether the format has taken an argument. -/
  took : Bool := false
  stopped : Bool := false
  /-- Whether the format holds something that is no directive. -/
  broken : Bool := false

/-- Takes an argument; an empty one where none is left. -/
def Progress.take (p : Progress) : Bytes × Progress :=
  ((p.args.head?).getD [], { p with args := p.args.drop 1, took := true })

/-- Takes a number. -/
def Progress.takeNumber (p : Progress) : Int × Progress :=
  let (a, p) := p.take
  let (i, odd) := numberOf a
  match odd with
  | some message =>
    (i, { p with complaints := p.complaints ++ [a ++ Text.bytes (": " ++ message)] })
  | none => (i, p)

/-- Stops at something that is no directive. -/
def Progress.refuse (p : Progress) (text : Bytes) : Progress :=
  { p with stopped := true, broken := true
           complaints := p.complaints ++ [text ++ Text.bytes ": invalid directive"] }

/-- Adds output. -/
def Progress.put (p : Progress) (bs : Bytes) : Progress :=
  { p with out := bs.reverse ++ p.out }

/-- A width or precision: digits, or an argument for `*`. -/
def measure (p : Progress) (s : Bytes) : Int × Progress × Bytes :=
  match s with
  | 0x2A :: r => let (i, p) := p.takeNumber; (i, p, r)
  | s => (natOf (s.takeWhile isDigit), p, s.dropWhile isDigit)

/-- **One directive**, after its percent sign. -/
def directive (p : Progress) (text : Bytes) : Progress × Bytes :=
  let (l, s) := flags {} text
  let (w, p, s) := measure p s
  -- a negative width asks for the left side
  let l := { l with width := w.natAbs, left := l.left || w < 0 }
  let (l, p, s) := match s with
    | 0x2E :: r =>
      let (k, p, r) := measure p r
      -- a negative precision counts as none
      ({ l with precision := if k < 0 then none else some k.toNat }, p, r)
    | s => (l, p, s)
  match s with
  | [] => (p.refuse [byte '%'], [])
  | c :: r =>
    if c = byte '%' ∧ text.head? = some c then (p.put [c], r)
    else if c = byte 's' then
      let (a, p) := p.take
      (p.put (pad l (match l.precision with | some k => a.take k | none => a)), r)
    else if c = byte 'b' then
      let (a, p) := p.take
      let (out, stopped) := unescape true [] (a.length + 1) a
      ({ p.put (pad l out.reverse) with stopped := stopped }, if stopped then [] else r)
    else if c = byte 'c' then
      let (a, p) := p.take
      (p.put (pad l (a.take 1)), r)
    else if c = byte 'd' ∨ c = byte 'i' then
      let (i, p) := p.takeNumber
      let sign := if i < 0 then [byte '-'] else if l.plus then [byte '+']
        else if l.blank then [byte ' '] else []
      (p.put (padNumber l sign (decimal i.natAbs)), r)
    else if c = byte 'u' ∨ c = byte 'o' ∨ c = byte 'x' ∨ c = byte 'X' then
      let (i, p) := p.takeNumber
      let n := (i % Arithmetic.wordBound).toNat
      let base := if c = byte 'u' then 10 else if c = byte 'o' then 8 else 16
      let lead := if !l.alternate ∨ n = 0 then [] else if c = byte 'o' then [byte '0']
        else if c = byte 'u' then [] else [byte '0', c]
      (p.put (padNumber l lead (digitsIn base (c = byte 'X') n)), r)
    else (p.refuse (byte '%' :: text.take (text.length - r.length)), [])

/-- One use of a format. -/
def once : Nat → Progress → Bytes → Progress
  | 0, p, _ => p
  | _ + 1, p, [] => p
  | n + 1, p, b :: r =>
    if b = byte '%' then
      let (p, r) := directive p r
      once n p r
    else if b = byte '\\' then
      match r with
      | [] => p.put [b]
      | c :: r2 =>
        if isOctal c then
          let (v, k) := octal (c :: r2)
          once n (p.put [v]) ((c :: r2).drop k)
        else
          match letterEscape? c with
          | some v => once n (p.put [v]) r2
          | none => once n (p.put [b, c]) r2
    else once n (p.put [b]) r

/-- A format used until its arguments are gone. -/
def repeated : Nat → Progress → Bytes → Progress
  | 0, p, _ => p
  | n + 1, p, fmt =>
    let p := once (fmt.length + 1) { p with took := false } fmt
    if p.stopped || !p.took || p.args = [] then p else repeated n p fmt

/-- **What comes of a format** with some arguments. -/
def print (fmt : Bytes) (args : List Bytes) : Progress :=
  repeated (args.length + 1) { args := args } fmt

end QualityGate.Shell.Format
