import QualityGate.Toml.Lexeme
/-!
The four kinds of strings: basic ones between double quotes, in which a backslash escapes, literal
ones between apostrophes, in which nothing does, and the two kinds that span lines between tripled
quotes.
-/

namespace QualityGate.Toml

/-! ### Characters -/

/-- The quote of basic strings. -/
def quote : Char := '\x22'

/-- The quote of literal strings. -/
def apostrophe : Char := '\x27'

/-- A character that a basic string holds as it is. -/
def isBasicChar (c : Char) : Bool :=
  isSpace c || c.toNat = 0x21 || (0x23 ≤ c.toNat && c.toNat ≤ 0x5B) ||
  (0x5D ≤ c.toNat && c.toNat ≤ 0x7E) || isBeyondAscii c

/-- A character that a literal string holds. -/
def isLiteralChar (c : Char) : Bool :=
  c = '\t' || (0x20 ≤ c.toNat && c.toNat ≤ 0x26) || (0x28 ≤ c.toNat && c.toNat ≤ 0x7E) ||
  isBeyondAscii c

/-! ### Escapes -/

/-- The value of a hexadecimal digit. -/
def hexDigit? (c : Char) : Option Nat :=
  if '0' ≤ c ∧ c ≤ '9' then some (c.toNat - 48)
  else if 'a' ≤ c ∧ c ≤ 'f' then some (c.toNat - 87)
  else if 'A' ≤ c ∧ c ≤ 'F' then some (c.toNat - 55)
  else none

/-- The number that hexadecimal digits write. -/
def hexValue (ds : List Char) : Nat :=
  ds.foldl (fun n c => n * 16 + (hexDigit? c).getD 0) 0

/-- The character of a code point, surrogates and larger numbers left out. -/
def scalar? (n : Nat) : Option Char :=
  if h : n.isValidChar then some (Char.ofNatAux n h) else none

/-- A code point of exactly `n` hexadecimal digits. -/
def hexEscape (n : Nat) (s : Input) : Reply Char :=
  let ds := (s.take n).takeWhile fun c => (hexDigit? c).isSome
  if ds.length = n then
    match scalar? (hexValue ds) with
    | some c => .ok c (s.drop n)
    | none => .breaks s "value is out of range"
  else .committed s {}

/-- What may follow a backslash. -/
def wantedEscapes : List Wanted :=
  ["b", "f", "n", "r", "t", "u", "U", "\\", "\x22"].map .literal

/-- **Reads an escape** from the character after the backslash on. A character of ASCII that
escapes nothing is taken in before the complaint is made. -/
def escape (c : Char) (r : Input) : Reply Char :=
  if c = 'b' then .ok '\x08' r
  else if c = 'f' then .ok '\x0C' r
  else if c = 'n' then .ok '\n' r
  else if c = 'r' then .ok '\r' r
  else if c = 't' then .ok '\t' r
  else if c = 'u' then (hexEscape 4 r).labelled "unicode 4-digit hex code"
  else if c = 'U' then (hexEscape 8 r).labelled "unicode 8-digit hex code"
  else if c = '\\' then .ok '\\' r
  else if c = quote then .ok quote r
  else
    .committed (if isBeyondAscii c then c :: r else r)
      { label := some "escape sequence", wanted := wantedEscapes }

theorem length_of_hexEscape {n : Nat} {s rest : Input} {d : Char}
    (h : hexEscape n s = .ok d rest) : rest.length ≤ s.length := by
  unfold hexEscape at h
  simp only at h
  split at h
  · split at h
    · simp only [Reply.ok.injEq] at h
      rw [← h.2]
      simp
    · simp [Reply.breaks] at h
  · simp at h

theorem length_of_escape {c d : Char} {r rest : Input} (h : escape c r = .ok d rest) :
    rest.length ≤ r.length := by
  have lab : ∀ (x : Reply Char) (n : String), x.labelled n = .ok d rest → x = .ok d rest := by
    intro x n hx
    cases x <;> simp [Reply.labelled, Reply.onComplaint] at hx ⊢
    exact hx
  unfold escape at h
  repeat' split at h
  all_goals first
    | (simp only [Reply.ok.injEq] at h; exact Nat.le_of_eq (congrArg List.length h.2.symm))
    | exact length_of_hexEscape (lab _ _ h)
    | simp at h

/-! ### Strings of one line -/

/-- **The rest of a basic string** after its opening quote; `acc` holds what is read, reversed. -/
def basicRest (acc : List Char) (s : Input) : Reply String :=
  match s with
  | [] => .committed [] { label := some "basic string" }
  | [c] =>
    if c = quote then .ok (String.ofList acc.reverse) []
    else .committed (if isBasicChar c then [] else [c]) { label := some "basic string" }
  | c :: d :: r =>
    if c = quote then .ok (String.ofList acc.reverse) (d :: r)
    else if c = '\\' then
      match _h : escape d r with
      | .ok e rest => basicRest (e :: acc) rest
      | .tentative p m => .committed p m
      | .committed p m => .committed p m
    else if isBasicChar c then basicRest (c :: acc) (d :: r)
    else .committed (c :: d :: r) { label := some "basic string" }
termination_by s.length
decreasing_by
  · have := length_of_escape _h
    simp only [List.length_cons]
    omega
  · simp

/-- The rest of a literal string after its opening apostrophe. -/
def literalRest (s : Input) : Reply String :=
  match s.dropWhile isLiteralChar with
  | c :: r =>
    if c = apostrophe then .ok (String.ofList (s.takeWhile isLiteralChar)) r
    else .committed (c :: r) { label := some "literal string" }
  | [] => .committed [] { label := some "literal string" }

/-! ### Strings of many lines -/

/-- The text after a line end that directly follows the opening quotes. -/
def dropFirstNewline (s : Input) : Input :=
  (afterNewline? s).getD s

/-- Whether a backslash-line-end begins after a backslash: spaces, then a line end. -/
def afterLineContinuation? (s : Input) : Option Input :=
  (afterNewline? (skipSpaces s)).map skipSpacesAndNewlines

theorem length_afterLineContinuation? {s r : Input} (h : afterLineContinuation? s = some r) :
    r.length ≤ s.length := by
  unfold afterLineContinuation? at h
  obtain ⟨u, hu, rfl⟩ := Option.map_eq_some_iff.1 h
  have h1 := length_afterNewline? hu
  have h2 : (skipSpaces s).length ≤ s.length := (List.dropWhile_sublist _).length_le
  have h3 := length_skipSpacesAndNewlines_le u
  omega

/-- Whether a text goes on with something that a basic string of many lines may hold, quotes
apart. -/
def startsBasicContent : Input → Bool
  | [] => false
  | ['\\'] => false
  | c :: r => c = '\\' || isBasicChar c || (afterNewline? (c :: r)).isSome

/-- The complaint about a basic string of many lines. -/
def basicBlockComplaint : Complaint := { label := some "multiline basic string" }

/-- **The rest of a basic string of many lines.** One or two quotes belong to the string when
something that is no quote follows, or when the closing quotes do. -/
def basicBlockRest (acc : List Char) (s : Input) : Reply String :=
  match s with
  | [] => .committed [] basicBlockComplaint
  | c :: r =>
    if c = quote then
      match r with
      | [] => .committed [c] basicBlockComplaint
      | d :: r1 =>
        if d = quote then
          match r1 with
          | [] => .committed (c :: d :: r1) basicBlockComplaint
          | e :: r2 =>
            if e = quote then
              -- up to two quotes may stand before the three that close the text
              match r2 with
              | '\x22' :: '\x22' :: r4 => .ok (String.ofList (quote :: quote :: acc).reverse) r4
              | '\x22' :: r3 => .ok (String.ofList (quote :: acc).reverse) r3
              | _ => .ok (String.ofList acc.reverse) r2
            else if startsBasicContent (e :: r2) then
              basicBlockRest (quote :: quote :: acc) (e :: r2)
            else .committed (e :: r2) basicBlockComplaint
        else if startsBasicContent (d :: r1) then basicBlockRest (quote :: acc) (d :: r1)
        else .committed (d :: r1) basicBlockComplaint
    else if c = '\\' then
      match _hc : afterLineContinuation? r with
      | some rest => basicBlockRest acc rest
      | none =>
        match r with
        | [] => .committed [c] basicBlockComplaint
        | d :: r1 =>
          match _h : escape d r1 with
          | .ok e rest => basicBlockRest (e :: acc) rest
          | .tentative p m => .committed p m
          | .committed p m => .committed p m
    else if isBasicChar c then basicBlockRest (c :: acc) r
    else
      match _hn : afterNewline? (c :: r) with
      | some rest => basicBlockRest ('\n' :: acc) rest
      | none => .committed (c :: r) basicBlockComplaint
termination_by s.length
decreasing_by
  all_goals simp only [List.length_cons]
  all_goals first
    | omega
    | (have hl := length_afterLineContinuation? _hc; omega)
    | (have hl := length_of_escape _h; omega)
    | (have hl := length_afterNewline? _hn; simp only [List.length_cons] at hl; omega)

/-- The complaint about a literal string of many lines. -/
def literalBlockComplaint : Complaint := { label := some "multiline literal string" }

/-- Whether a text goes on with something that a literal string of many lines may hold, apostrophes
apart. -/
def startsLiteralContent : Input → Bool
  | [] => false
  | c :: r => isLiteralChar c || (afterNewline? (c :: r)).isSome

/-- **The rest of a literal string of many lines.** A line end is read as a line feed. -/
def literalBlockRest (acc : List Char) (s : Input) : Reply String :=
  match s with
  | [] => .committed [] literalBlockComplaint
  | c :: r =>
    if c = apostrophe then
      match r with
      | [] => .committed [c] literalBlockComplaint
      | d :: r1 =>
        if d = apostrophe then
          match r1 with
          | [] => .committed (c :: d :: r1) literalBlockComplaint
          | e :: r2 =>
            if e = apostrophe then
              -- up to two apostrophes may stand before the three that close the text
              match r2 with
              | '\x27' :: '\x27' :: r4 =>
                .ok (String.ofList (apostrophe :: apostrophe :: acc).reverse) r4
              | '\x27' :: r3 => .ok (String.ofList (apostrophe :: acc).reverse) r3
              | _ => .ok (String.ofList acc.reverse) r2
            else if startsLiteralContent (e :: r2) then
              literalBlockRest (apostrophe :: apostrophe :: acc) (e :: r2)
            else .committed (c :: d :: e :: r2) literalBlockComplaint
        else if startsLiteralContent (d :: r1) then
          literalBlockRest (apostrophe :: acc) (d :: r1)
        else .committed (c :: d :: r1) literalBlockComplaint
    else if isLiteralChar c then literalBlockRest (c :: acc) r
    else
      match _hn : afterNewline? (c :: r) with
      | some rest => literalBlockRest ('\n' :: acc) rest
      | none => .committed (c :: r) literalBlockComplaint
termination_by s.length
decreasing_by
  all_goals simp only [List.length_cons]
  all_goals first
    | omega
    | (have hl := length_afterNewline? _hn; simp only [List.length_cons] at hl; omega)

/-! ### Any string -/

/-- **Reads a string** of any kind, from its opening quote on. -/
def text : Input → Reply String
  | '\x22' :: '\x22' :: '\x22' :: r =>
    (basicBlockRest [] (dropFirstNewline r)).labelled "multiline basic string"
  | '\x22' :: r => basicRest [] r
  | '\x27' :: '\x27' :: '\x27' :: r => literalBlockRest [] (dropFirstNewline r)
  | '\x27' :: r => literalRest r
  | s => .tentative s {}

/-- Reads a string of one line, as a key may be. -/
def lineText : Input → Reply String
  | '\x22' :: r => basicRest [] r
  | '\x27' :: r => literalRest r
  | s => .tentative s {}

end QualityGate.Toml
