import QualityGate.Toml.Reply
import QualityGate.Decimal.Binary64
/-!
Numbers: integers in four radices, which have to fit 64 bits with a sign, and floating-point
numbers. Digits may be grouped by single underscores, each between two digits.
-/

namespace QualityGate.Toml

/-! ### Digits -/

/-- A decimal digit. -/
def isDigit (c : Char) : Bool :=
  '0' ≤ c ∧ c ≤ '9'

/-- A hexadecimal digit. -/
def isHexDigit (c : Char) : Bool :=
  isDigit c ∨ ('a' ≤ c ∧ c ≤ 'f') ∨ ('A' ≤ c ∧ c ≤ 'F')

/-- An octal digit. -/
def isOctalDigit (c : Char) : Bool :=
  '0' ≤ c ∧ c ≤ '7'

/-- A binary digit. -/
def isBinaryDigit (c : Char) : Bool :=
  c = '0' ∨ c = '1'

/-- The value of a digit in any radix up to sixteen. -/
def digitValue (c : Char) : Nat :=
  if isDigit c then c.toNat - 48
  else if 'a' ≤ c ∧ c ≤ 'f' then c.toNat - 87
  else c.toNat - 55

/-- The number that digits write. -/
def numberOf (radix : Nat) (ds : List Char) : Nat :=
  ds.foldl (fun n c => n * radix + digitValue c) 0

/-- **Further digits**, single underscores among them left out; an underscore needs a digit after
it. `acc` holds the digits read, reversed. -/
def moreDigits (p : Char → Bool) (acc : List Char) : Input → Reply (List Char)
  | [] => .ok acc.reverse []
  | c :: r =>
    if p c then moreDigits p (c :: acc) r
    else if c = '_' then
      match r with
      | [] => .committed [] { wanted := [.described "digit"] }
      | d :: r2 =>
        if p d then moreDigits p (d :: acc) r2
        else .committed (d :: r2) { wanted := [.described "digit"] }
    else .ok acc.reverse (c :: r)

/-- One digit and further ones. -/
def digits (p : Char → Bool) : Input → Reply (List Char)
  | [] => .tentative [] {}
  | c :: r => if p c then moreDigits p [c] r else .tentative (c :: r) {}

/-! ### Integers -/

/-- A decimal numeral: a sign and digits, of which the first is not a superfluous zero. -/
structure Numeral where
  negative : Bool
  digits : List Char

/-- The sign that may stand before a number. -/
def takeSign : Input → Bool × Input
  | '+' :: r => (false, r)
  | '-' :: r => (true, r)
  | s => (false, s)

/-- Reads a decimal numeral. -/
def numeral (s : Input) : Reply Numeral :=
  let (negative, s) := takeSign s
  let body : Reply (List Char) :=
    match s with
    | '0' :: r => .ok ['0'] r
    | _ => digits isDigit s
  (body.map fun ds => ⟨negative, ds⟩).labelled "integer"

/-- The bound of signed 64-bit integers. -/
def signedBound : Int := 9223372036854775808

/-- The integer of a numeral that was read from `start` on. -/
def signed (start : Input) (negative : Bool) (n : Nat) (rest : Input) : Reply Int :=
  let i : Int := if negative then -n else n
  if signedBound ≤ i then .breaks start "number too large to fit in target type"
  else if i < -signedBound then .breaks start "number too small to fit in target type"
  else .ok i rest

/-- An integer in another radix, after its mark. -/
def radixInteger (start : Input) (radix : Nat) (p : Char → Bool) (label : String) (s : Input) :
    Reply Int :=
  ((digits p s).labelled label).commit.andThen fun ds rest =>
    signed start false (numberOf radix ds) rest

/-- **Reads an integer.** -/
def integer (s : Input) : Reply Int :=
  match s with
  | '0' :: 'x' :: r => radixInteger s 16 isHexDigit "hexadecimal integer" r
  | '0' :: 'o' :: r => radixInteger s 8 isOctalDigit "octal integer" r
  | '0' :: 'b' :: r => radixInteger s 2 isBinaryDigit "binary integer" r
  | _ => (numeral s).andThen fun n rest => signed s n.negative (numberOf 10 n.digits) rest

/-! ### Floating-point numbers -/

/-- Digits that may start with zeros, once a point or an exponent mark has been read. -/
def freeDigits (s : Input) : Reply (List Char) :=
  (digits isDigit s).commit

/-- The exponent, if its mark stands here. -/
def exponentPart? : Input → Option (Reply Int)
  | c :: r =>
    if c = 'e' ∨ c = 'E' then
      let (negative, r) := takeSign r
      some ((freeDigits r).map fun ds =>
        let n : Int := numberOf 10 ds
        if negative then -n else n)
    else none
  | [] => none

/-- The digits after the point and the exponent. -/
def fractionAndExponent (s : Input) : Reply (List Char × Int) :=
  match s with
  | '.' :: r =>
    ((freeDigits r).wanting [.described "digit"]).andThen fun ds rest =>
      match exponentPart? rest with
      | some reply => reply.map fun e => (ds, e)
      | none => .ok (ds, 0) rest
  | _ =>
    match exponentPart? s with
    | some reply => reply.map fun e => ([], e)
    | none => .tentative s {}

/-- A floating-point number in decimal notation. One that is too large is refused, but not one that
is too small. -/
def decimalFloat (s : Input) : Reply Binary64 :=
  (numeral s).andThen fun n rest =>
    (fractionAndExponent rest).andThen fun p rest =>
      let value := Binary64.ofDecimal n.negative (numberOf 10 (n.digits ++ p.1)) (p.2 - p.1.length)
      if value = .infinite false then .committed s {} else .ok value rest

/-- The two named numbers, with their sign. -/
def namedFloat (s : Input) : Reply Binary64 :=
  let (negative, r) := takeSign s
  match r with
  | 'i' :: 'n' :: 'f' :: rest => .ok (.infinite negative) rest
  | 'n' :: 'a' :: 'n' :: rest => .ok .notANumber rest
  | _ => .tentative r {}

/-- **Reads a floating-point number.** -/
def float (s : Input) : Reply Binary64 :=
  ((decimalFloat s).orElse fun _ => namedFloat s).labelled "floating-point number"

end QualityGate.Toml
