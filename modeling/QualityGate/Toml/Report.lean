import QualityGate.Toml.Document
import QualityGate.Text.Utf8
/-!
A fault of a document shown in its text: the line it stands on, with marks under it, and the message.
Places are counted in bytes and shown in characters.
-/

namespace QualityGate.Toml

/-- The number of bytes of a text. -/
def bytesIn (s : List Char) : Nat :=
  s.foldl (fun n c => n + c.utf8Size) 0

/-- **Where a fault is shown**: a line, counted from zero, and a column in it. -/
structure Position where
  line : Nat
  column : Nat

/-- The text between the last line feed and the end. -/
def lastLine (s : List Char) : List Char :=
  (s.reverse.takeWhile (· ≠ '\n')).reverse

/-- **The position of the place where a text has been read up to `before`.** The end of the text is
shown one past the last character. A column counts the characters before it on the line; before a
character of several bytes it counts bytes. -/
def positionOf (before after : List Char) : Position :=
  match after with
  | c :: _ =>
    let here := lastLine before
    let column := if c.utf8Size = 1 then here.length else bytesIn here
    ⟨before.count '\n', column⟩
  | [] =>
    match before.reverse with
    | [] => ⟨0, 0⟩
    | _ :: r =>
      let earlier := r.reverse
      ⟨earlier.count '\n', (lastLine earlier).length + 1⟩

/-- The lines of a text, cut at line feeds only. -/
def plainLines (s : List Char) : List (List Char) :=
  match s with
  | [] => [[]]
  | c :: r =>
    match plainLines r with
    | [] => [[c]]
    | l :: ls => if c = '\n' then [] :: l :: ls else (c :: l) :: ls

/-- Spaces. -/
def spaces (n : Nat) : String :=
  String.ofList (List.replicate n ' ')

/-- **The report of a fault** in the text `s`. -/
def report (s : List Char) (f : Fault) : String :=
  let before := s.take (s.length - f.span.start.length)
  let at_ := positionOf before f.span.start
  let content := (plainLines s).getD at_.line []
  let gutter := (toString (at_.line + 1)).length
  let marked := bytesIn (f.span.start.take (f.span.start.length - f.span.stop.length))
  let marks := Nat.max 1 (Nat.min marked (bytesIn content - at_.column))
  "TOML parse error at line " ++ toString (at_.line + 1) ++ ", column " ++
    toString (at_.column + 1) ++ "\n" ++
  spaces (gutter + 1) ++ "|\n" ++
  toString (at_.line + 1) ++ " | " ++ String.ofList content ++ "\n" ++
  spaces (gutter + 1) ++ "|" ++ spaces (at_.column + 1) ++
    String.ofList (List.replicate marks '^') ++ "\n" ++
  f.message ++ "\n"

end QualityGate.Toml
