import QualityGate.Shell.Syntax
/-!
Patterns of scripts: `*` for any bytes, `?` for one, brackets for one of a class. A byte that was
quoted stands for itself, so a pattern is made of bytes that each know whether they were.
-/

namespace QualityGate.Shell

/-- **A byte and whether it was quoted.** -/
structure Mark where
  byte : UInt8
  quoted : Bool
  deriving DecidableEq, Repr

/-- The bytes alone. -/
def unmarked (ms : List Mark) : Bytes :=
  ms.map (·.byte)

namespace Pattern

/-- One piece of a pattern. -/
inductive Piece where
  | one (b : UInt8)
  | anyOne
  | any
  | oneOf (inverted : Bool) (ranges : List (UInt8 × UInt8))
  deriving DecidableEq, Repr

/-- The ranges of a class up to its closing bracket; the first member may be a closing bracket. -/
def ranges (first : Bool) : List Mark → Option (List (UInt8 × UInt8) × List Mark)
  | [] => none
  | a :: r =>
    if a.byte = byte ']' ∧ !a.quoted ∧ !first then some ([], r)
    else
      match r with
      | ⟨0x2D, false⟩ :: b :: r2 =>
        if b.byte = byte ']' ∧ !b.quoted then
          (ranges false (⟨0x2D, false⟩ :: b :: r2)).map fun p => ((a.byte, a.byte) :: p.1, p.2)
        else (ranges false r2).map fun p => ((a.byte, b.byte) :: p.1, p.2)
      | r => (ranges false r).map fun p => ((a.byte, a.byte) :: p.1, p.2)
termination_by ms => ms.length

/-- A class after its opening bracket. -/
def oneOf? (ms : List Mark) : Option (Piece × List Mark) :=
  match ms with
  | ⟨b, false⟩ :: r =>
    if b = byte '!' ∨ b = byte '^' then (ranges true r).map fun p => (.oneOf true p.1, p.2)
    else (ranges true ms).map fun p => (.oneOf false p.1, p.2)
  | ms => (ranges true ms).map fun p => (.oneOf false p.1, p.2)

/-- **The pieces of a pattern**; a bracket that nothing closes stands for itself. -/
def pieces : Nat → List Mark → List Piece
  | 0, _ => []
  | _ + 1, [] => []
  | n + 1, m :: r =>
    if m.quoted then .one m.byte :: pieces n r
    else if m.byte = byte '*' then .any :: pieces n r
    else if m.byte = byte '?' then .anyOne :: pieces n r
    else if m.byte = byte '[' then
      match oneOf? r with
      | some (p, rest) => p :: pieces n rest
      | none => .one m.byte :: pieces n r
    else .one m.byte :: pieces n r

/-- Whether one byte fits a piece that stands for one byte. -/
def Piece.fits (b : UInt8) : Piece → Bool
  | one c => b = c
  | anyOne => true
  | any => false
  | oneOf inverted rs => (rs.any fun r => r.1 ≤ b && b ≤ r.2) != inverted

/-- **Whether all of some bytes match.** -/
def isMatch : List Piece → Bytes → Bool
  | [], s => s = []
  | .any :: ps, s => isMatchAfterAny ps s
  | _ :: _, [] => false
  | p :: ps, b :: s => p.fits b && isMatch ps s
where
  /-- Whether some end of the bytes matches. -/
  isMatchAfterAny (ps : List Piece) : Bytes → Bool
    | [] => isMatch ps []
    | b :: s => isMatch ps (b :: s) || isMatchAfterAny ps s

/-- Whether a pattern has anything but bytes that stand for themselves. -/
def isActive (ms : List Mark) : Bool :=
  (pieces ms.length ms).any fun p => match p with
    | .one _ => false
    | _ => true

/-- Whether some bytes match a pattern. -/
def fits (pattern : List Mark) (s : Bytes) : Bool :=
  isMatch (pieces pattern.length pattern) s

/-- **Bytes without what a pattern matches at one end**: the shortest such stretch, or the longest. -/
def cut (pattern : List Mark) (atEnd longest : Bool) (s : Bytes) : Bytes :=
  let ps := pieces pattern.length pattern
  let lengths := if longest then (List.range (s.length + 1)).reverse else List.range (s.length + 1)
  let removed := lengths.find? fun n =>
    isMatch ps (if atEnd then s.drop (s.length - n) else s.take n)
  match removed with
  | none => s
  | some n => if atEnd then s.take (s.length - n) else s.drop n

end Pattern
end QualityGate.Shell
