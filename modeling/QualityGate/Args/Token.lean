import QualityGate.Text.Utf8
/-!
One argument by its form: the mark that ends the options, a long option with or without a value
attached, a cluster of option letters, or a plain word. Arguments are bytes and need not be text.
-/

namespace QualityGate.Args

/-- The hyphen. -/
def hyphen : UInt8 := 0x2D

/-- The byte between an option and its value. -/
def equals : UInt8 := 0x3D

/-- **The form of an argument.** -/
inductive Token where
  /-- The mark after which nothing is an option. -/
  | endOfOptions
  /-- A long option's name, which may be no text, and the value attached to it. -/
  | long (name : Bytes) (value : Option Bytes)
  /-- Letters of options, and what follows them that is no text. -/
  | letters (known : List Char) (rest : Bytes)
  /-- Anything else. -/
  | word
  deriving DecidableEq, Repr

/-- The longest start of some bytes that is text, and what follows it. -/
def cutText (bs : Bytes) : List Char × Bytes :=
  match bs with
  | [] => ([], [])
  | b :: r =>
    match (Text.headScalar b r).1 with
    | some c =>
      let (cs, rest) := cutText (Text.headScalar b r).2
      (c :: cs, rest)
    | none => ([], b :: r)
termination_by bs.length
decreasing_by
  have := Text.length_headScalar_le b r
  simp only [List.length_cons]
  omega

/-- **The form of an argument.** -/
def Token.ofArg : Bytes → Token
  | [a, b] => if a = hyphen ∧ b = hyphen then endOfOptions else ofStart a [b]
  | a :: r => ofStart a r
  | [] => word
where
  ofStart (a : UInt8) (r : Bytes) : Token :=
    if a ≠ hyphen then word
    else
      match r with
      | [] => word
      | b :: name =>
        if b = hyphen then
          match name.dropWhile (· ≠ equals) with
          | [] => long name none
          | _ :: v => long (name.takeWhile (· ≠ equals)) (some v)
        else
          let (cs, rest) := cutText (b :: name)
          letters cs rest

end QualityGate.Args
