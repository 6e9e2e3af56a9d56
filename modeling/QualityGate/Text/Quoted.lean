import QualityGate.Text.Printable
/-!
A text between double quotes, for a reader who must see where it begins and ends. `quoted` escapes
the quote and the backslash, names the common control characters, and writes any other character
that does not show as its code point in hexadecimal.
-/

namespace QualityGate.Text

/-! ### Hexadecimal -/

/-- The digits of a number in lower-case hexadecimal, most significant first. -/
def hexDigits (n : Nat) : List Char :=
  Nat.toDigits 16 n

/-! ### Quoting -/

/-- **One character inside quotes.** -/
def quotedChar (c : Char) : List Char :=
  if c = '\x00' then ['\\', '0']
  else if c = '\t' then ['\\', 't']
  else if c = '\r' then ['\\', 'r']
  else if c = '\n' then ['\\', 'n']
  else if c = '\x22' then ['\\', '\x22']
  else if c = '\\' then ['\\', '\\']
  else if isPrintable c then [c]
  else ['\\', 'u', '\x7b'] ++ hexDigits c.toNat ++ ['\x7d']

/-- **A text inside quotes.** -/
def quoted (s : String) : String :=
  String.ofList ('\x22' :: s.toList.flatMap quotedChar ++ ['\x22'])

/-- A list of texts, each in quotes, between square brackets. -/
def quotedList (xs : List String) : String :=
  "[" ++ String.intercalate ", " (xs.map quoted) ++ "]"

end QualityGate.Text
