/-!
The answer of a reader: a value and what is left of the text, or a complaint at the place where
reading stopped. A complaint is either tentative, so that another reading may be tried, or committed,
so that it is final. A place in a text is told by the text that follows it.

What a complaint says is built from the inside out (`Complaint.message`): the innermost name of what
was being read, what would have been accepted there, and a cause of another kind.
-/

namespace QualityGate.Toml

/-- A text still to be read; also the place where it begins. -/
abbrev Input := List Char

/-! ### Complaints -/

/-- **Something that would have been accepted.** -/
inductive Wanted where
  /-- A character or a short text as it is written. -/
  | literal (text : String)
  /-- Anything that fits a description. -/
  | described (what : String)
  deriving DecidableEq, Repr

/-- How a message shows what would have been accepted. -/
def Wanted.show : Wanted → String
  | literal t => if t = "\n" then "newline" else "`" ++ t ++ "`"
  | described w => w

/-- **What is wrong at some place.** -/
structure Complaint where
  /-- The innermost thing that was being read. -/
  label : Option String := none
  /-- What would have been accepted, innermost first. -/
  wanted : List Wanted := []
  /-- A rule beyond the grammar that is broken. -/
  cause : Option String := none
  deriving DecidableEq, Repr, Inhabited

/-- **The message of a complaint**, a line for each part that it has. -/
def Complaint.message (c : Complaint) : String :=
  let named := (c.label.map fun l => ["invalid " ++ l]).getD []
  let wanted :=
    if c.wanted = [] then [] else ["expected " ++ String.intercalate ", " (c.wanted.map Wanted.show)]
  String.intercalate "\n" (named ++ wanted ++ (c.cause.map fun t => [t]).getD [])

/-! ### Replies -/

/-- **What a reader answers.** -/
inductive Reply (α : Type) where
  /-- A value, and the text after it. -/
  | ok (value : α) (rest : Input)
  /-- A complaint that leaves room for another reading. -/
  | tentative (place : Input) (complaint : Complaint)
  /-- A complaint that is final. -/
  | committed (place : Input) (complaint : Complaint)
  deriving Repr

namespace Reply

/-- Reads on after a value. -/
def andThen (r : Reply α) (next : α → Input → Reply β) : Reply β :=
  match r with
  | ok v rest => next v rest
  | tentative p c => tentative p c
  | committed p c => committed p c

/-- Changes the value. -/
def map (f : α → β) (r : Reply α) : Reply β :=
  r.andThen fun v rest => ok (f v) rest

/-- Makes every complaint final. -/
def commit : Reply α → Reply α
  | tentative p c => committed p c
  | r => r

/-- Changes a complaint of either kind. -/
def onComplaint (f : Complaint → Complaint) : Reply α → Reply α
  | ok v rest => ok v rest
  | tentative p c => tentative p (f c)
  | committed p c => committed p (f c)

/-- Names what was being read, unless something within it is named already. -/
def labelled (r : Reply α) (name : String) : Reply α :=
  r.onComplaint fun c => { c with label := c.label <|> some name }

/-- Adds what would have been accepted. -/
def wanting (r : Reply α) (ws : List Wanted) : Reply α :=
  r.onComplaint fun c => { c with wanted := c.wanted ++ ws }

/-- Tries another reading after a tentative complaint, which is dropped. -/
def orElse (r : Reply α) (other : Unit → Reply α) : Reply α :=
  match r with
  | tentative _ _ => other ()
  | r => r

/-- A complaint about a rule beyond the grammar. -/
def breaks (place : Input) (cause : String) : Reply α :=
  committed place { cause := some cause }

@[simp] theorem andThen_ok (v : α) (rest : Input) (f : α → Input → Reply β) :
    (ok v rest).andThen f = f v rest := rfl

@[simp] theorem labelled_ok (v : α) (rest : Input) (n : String) :
    (ok v rest).labelled n = ok v rest := rfl

@[simp] theorem wanting_ok (v : α) (rest : Input) (ws : List Wanted) :
    (ok v rest).wanting ws = ok v rest := rfl

@[simp] theorem commit_ok (v : α) (rest : Input) : (ok v rest).commit = ok v rest := rfl

end Reply

/-- Reads one character that satisfies `p`. -/
def oneOf (p : Char → Bool) : Input → Reply Char
  | c :: r => if p c then .ok c r else .tentative (c :: r) {}
  | [] => .tentative [] {}

/-- Reads a given text. -/
def exactly (t : List Char) (s : Input) : Reply Unit :=
  if t.isPrefixOf s then .ok () (s.drop t.length) else .tentative s {}

end QualityGate.Toml
