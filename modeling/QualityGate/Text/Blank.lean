/-!
The blank characters of Unicode, and the cuts made with them: what is left of a text once its
blank ends are removed (`trim`), whether anything is left at all (`isBlankText`), and the lines
of a text (`lines`).
-/

namespace QualityGate.Text

/-! ### Blank characters -/

/-- **The code points with the property White_Space**, as closed ranges in increasing order. -/
def blankRanges : List (Nat × Nat) :=
  [(0x09, 0x0D), (0x20, 0x20), (0x85, 0x85), (0xA0, 0xA0), (0x1680, 0x1680), (0x2000, 0x200A),
   (0x2028, 0x2029), (0x202F, 0x202F), (0x205F, 0x205F), (0x3000, 0x3000)]

/-- A character is blank when it has the property White_Space. -/
def isBlank (c : Char) : Bool :=
  blankRanges.any fun r => r.1 ≤ c.toNat && c.toNat ≤ r.2

/-- No digit is blank. -/
theorem isBlank_of_isDigit {c : Char} (h : c.isDigit = true) : isBlank c = false := by
  have hrange : 48 ≤ c.toNat ∧ c.toNat ≤ 57 := Char.isDigit_iff_toNat.mp h
  simp only [isBlank, blankRanges, List.any_cons, List.any_nil, Bool.or_eq_false_iff,
    Bool.and_eq_false_iff, decide_eq_false_iff_not, and_true]
  omega

/-! ### Cutting blank ends -/

/-- **Text without its blank ends.** -/
def trim (s : List Char) : List Char :=
  ((s.dropWhile isBlank).reverse.dropWhile isBlank).reverse

/-- Whether a text holds no character but blanks; the empty text does. -/
def isBlankText (s : String) : Bool :=
  s.toList.all isBlank

/-! ### Lines -/

/-- A line as it stood before its line feed loses one carriage return at its end. -/
def dropReturn (l : List Char) : List Char :=
  if l.getLast? = some '\r' then l.dropLast else l

/-- **The lines of a text.** A line feed ends a line, alone or after a carriage return; what
follows the last line feed is a line of its own unless it is empty. -/
def lines (s : List Char) : List (List Char) :=
  match s with
  | [] => []
  | c :: t =>
    let line := (c :: t).takeWhile (· ≠ '\n')
    match _h : (c :: t).dropWhile (· ≠ '\n') with
    | [] => [line]
    | _ :: rest => dropReturn line :: lines rest
termination_by s.length
decreasing_by
  have h1 : ((c :: t).dropWhile (· ≠ '\n')).length ≤ (c :: t).length :=
    (List.dropWhile_sublist _).length_le
  rw [_h] at h1
  simp only [List.length_cons] at h1 ⊢
  omega

/-- The first `n` lines of a text. -/
def firstLines (n : Nat) (s : String) : List String :=
  ((lines s.toList).take n).map String.ofList

end QualityGate.Text
