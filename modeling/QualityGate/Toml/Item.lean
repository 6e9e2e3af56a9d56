import QualityGate.Toml.Reply
import QualityGate.Decimal.Binary64
/-!
What a document holds: scalars, arrays, and tables of keys with items, each with its place in the
text. A table remembers how it came about, because that decides which later lines may add to it.
-/

namespace QualityGate.Toml

/-! ### Places -/

/-- **A stretch of text**: what followed its start and what followed its end. -/
structure Span where
  start : Input
  stop : Input

instance : Inhabited Span := ⟨[], []⟩

/-- A key and where it stands. -/
structure Key where
  name : String
  span : Span

/-! ### Items -/

/-- **A value without parts.** -/
inductive Scalar where
  | string (s : String)
  | integer (n : Int)
  | float (x : Binary64)
  | boolean (b : Bool)
  | dateTime

/-- **How a table came about.** -/
structure TableForm where
  /-- Written between braces. -/
  inline : Bool := false
  /-- Only named on the way to another table. -/
  implicit : Bool := false
  /-- Only named as the first part of a dotted key. -/
  dotted : Bool := false
  /-- Where it stands, unless it is only named. -/
  span : Option Span := none

instance : Inhabited TableForm := ⟨{}⟩

/-- **An item of a document.** -/
inductive Item where
  | scalar (value : Scalar) (span : Span)
  | array (items : List Item) (span : Span)
  | table (form : TableForm) (entries : List (Key × Item))
  | tables (list : List (TableForm × List (Key × Item)))

/-- Keys with their items, in the order in which they came to stand. -/
abbrev Entries := List (Key × Item)

/-- **A table** with how it came about. -/
structure Table where
  form : TableForm := {}
  entries : Entries := []

namespace Item

/-- Where an item stands; a list of tables reaches from its first one to its last. -/
def span? : Item → Option Span
  | scalar _ s => some s
  | array _ s => some s
  | table f _ => f.span
  | tables l =>
    match l.head?.bind (·.1.span), l.getLast?.bind (·.1.span) with
    | some a, some b => some ⟨a.start, b.stop⟩
    | _, _ => none

/-- What a message calls an item of its kind. -/
def kindName : Item → String
  | scalar (.string _) _ => "string"
  | scalar (.integer _) _ => "integer"
  | scalar (.float _) _ => "float"
  | scalar (.boolean _) _ => "boolean"
  | scalar .dateTime _ => "datetime"
  | array _ _ => "array"
  | table f _ => if f.inline then "inline table" else "table"
  | tables _ => "array of tables"

end Item

/-! ### Looking up keys -/

namespace Entries

/-- The item of a key. -/
def get? (name : String) : Entries → Option Item
  | [] => none
  | (k, i) :: r => if k.name = name then some i else get? name r

/-- The entries with another item for a key that is there. -/
def update (name : String) (item : Item) : Entries → Entries
  | [] => []
  | (k, i) :: r => if k.name = name then (k, item) :: r else (k, i) :: update name item r

/-- The entries without a key. -/
def erase (name : String) (es : Entries) : Entries :=
  es.filter fun e => e.1.name ≠ name

end Entries

end QualityGate.Toml
