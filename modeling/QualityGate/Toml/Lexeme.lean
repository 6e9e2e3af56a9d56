import QualityGate.Toml.Reply
/-!
What stands between the meaningful parts of a document: blanks, line ends and comments.
-/

namespace QualityGate.Toml

/-! ### Blanks and line ends -/

/-- A space or a tab. -/
def isSpace (c : Char) : Bool :=
  c = ' ' ∨ c = '\t'

/-- The text after any spaces and tabs. -/
def skipSpaces (s : Input) : Input :=
  s.dropWhile isSpace

/-- The text after a line end, which is a line feed, alone or after a carriage return. -/
def afterNewline? : Input → Option Input
  | '\n' :: r => some r
  | '\r' :: '\n' :: r => some r
  | _ => none

/-! ### Comments -/

/-- A character past ASCII. -/
def isBeyondAscii (c : Char) : Bool :=
  0x80 ≤ c.toNat

/-- A character that a comment may hold. -/
def isCommentChar (c : Char) : Bool :=
  c = '\t' || (0x20 ≤ c.toNat && c.toNat ≤ 0x7E) || isBeyondAscii c

/-- The text after a comment that may stand here. -/
def skipComment : Input → Input
  | '#' :: r => r.dropWhile isCommentChar
  | s => s

/-- Reads the end of a line, which may be the end of the text. -/
def lineEnd (s : Input) : Reply Unit :=
  match s with
  | [] => .ok () []
  | c :: t =>
    match afterNewline? (c :: t) with
    | some r => .ok () r
    | none => .tentative (c :: t) {}

/-- **Reads what may follow on a line**: spaces, a comment, and the end of the line. -/
def lineRest (s : Input) : Reply Unit :=
  lineEnd (skipComment (skipSpaces s))

/-- What a line may go on with. -/
def wantedAtLineRest : List Wanted :=
  [.literal "\n", .literal "#"]

/-! ### Between the items of an array -/

theorem length_afterNewline? {s r : Input} (h : afterNewline? s = some r) : r.length < s.length := by
  unfold afterNewline? at h
  split at h
  all_goals cases h
  all_goals (simp only [List.length_cons]; omega)

theorem length_skipComment_le (s : Input) : (skipComment s).length ≤ s.length := by
  unfold skipComment
  split
  · exact Nat.le_succ_of_le (List.dropWhile_sublist _).length_le
  · exact Nat.le_refl _

/-- **The text after spaces, line ends and comments in any number.** A comment that no line end
follows is left standing. -/
def skipFiller (s : Input) : Input :=
  match s with
  | [] => []
  | c :: r =>
    if isSpace c then skipFiller r
    else if c = '#' then
      match _h : afterNewline? (skipComment (c :: r)) with
      | some rest => skipFiller rest
      | none => c :: r
    else
      match _h : afterNewline? (c :: r) with
      | some rest => skipFiller rest
      | none => c :: r
termination_by s.length
decreasing_by
  · simp
  · have h1 := length_afterNewline? _h
    have h2 := length_skipComment_le (c :: r)
    omega
  · exact length_afterNewline? _h

/-- The text after spaces and line ends in any number. -/
def skipSpacesAndNewlines (s : Input) : Input :=
  match s with
  | [] => []
  | c :: r =>
    if isSpace c then skipSpacesAndNewlines r
    else
      match _h : afterNewline? (c :: r) with
      | some rest => skipSpacesAndNewlines rest
      | none => c :: r
termination_by s.length
decreasing_by
  · simp
  · exact length_afterNewline? _h

theorem length_skipSpacesAndNewlines_le (s : Input) :
    (skipSpacesAndNewlines s).length ≤ s.length := by
  fun_induction skipSpacesAndNewlines s with
  | case1 => simp
  | case2 c r h ih => simp only [List.length_cons]; omega
  | case3 c r h rest hr ih =>
    have := length_afterNewline? hr
    omega
  | case4 => exact Nat.le_refl _

end QualityGate.Toml
