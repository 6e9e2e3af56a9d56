/-!
Text with colours. A line is made of pieces, each plain or with a style; whether styles show is
settled when the line is rendered, so the text itself never depends on it.
-/

namespace QualityGate.Console

/-- **A colour of the terminal.** -/
inductive Colour where
  | red | green | yellow | cyan
  deriving DecidableEq, Repr

/-- The terminal's number for a colour. -/
def Colour.code : Colour → Nat
  | red => 31
  | green => 32
  | yellow => 33
  | cyan => 36

/-- **How a piece of text is set off.** -/
structure Style where
  colour : Option Colour := none
  bold : Bool := false
  dim : Bool := false
  deriving DecidableEq, Repr

/-- **A piece of text with its style.** -/
structure Piece where
  text : String
  style : Style := {}
  deriving DecidableEq, Repr

/-- The escape sequence for a number of the terminal. -/
def escapeSequence (code : Nat) : String :=
  "\x1b[" ++ toString code ++ "m"

/-- The sequences that start a style, its colour first. -/
def Style.start (s : Style) : String :=
  (s.colour.map fun c => escapeSequence c.code).getD "" ++
  (if s.bold then escapeSequence 1 else "") ++ (if s.dim then escapeSequence 2 else "")

/-- A piece as it is written. -/
def Piece.render (coloured : Bool) (p : Piece) : String :=
  if coloured && p.style ≠ {} then p.style.start ++ p.text ++ escapeSequence 0 else p.text

/-- A line of pieces as it is written, without its line feed. -/
def render (coloured : Bool) (ps : List Piece) : String :=
  String.join (ps.map (Piece.render coloured))

/-- A piece without style. -/
def plain (text : String) : Piece := ⟨text, {}⟩

/-- A piece in one colour. -/
def inColour (c : Colour) (text : String) : Piece := ⟨text, { colour := some c }⟩

/-- A bold piece. -/
def bold (text : String) : Piece := ⟨text, { bold := true }⟩

/-- A dim piece. -/
def dim (text : String) : Piece := ⟨text, { dim := true }⟩

/-- A bold piece in one colour. -/
def boldIn (c : Colour) (text : String) : Piece := ⟨text, { colour := some c, bold := true }⟩

/-- Without colours only the texts are left. -/
theorem render_false (ps : List Piece) : render false ps = String.join (ps.map (·.text)) := by
  have h : Piece.render false = fun p => p.text := by funext p; simp [Piece.render]
  rw [render, h]

end QualityGate.Console
