import QualityGate.Calendar
import QualityGate.Toml.Number
/-!
Dates and times. Nothing asks for their value, so reading only says whether one stands here and
where it ends: a date, a time of day, or both with an offset.
-/

namespace QualityGate.Toml

/-! ### Fields of fixed width -/

/-- A number of exactly `n` digits within bounds; one out of bounds breaks a rule, and other
characters are a complaint without one. -/
def field (n low high : Nat) (s : Input) : Reply Nat :=
  let ds := s.take n
  if ds.length = n ∧ ds.all isDigit then
    let v := numberOf 10 ds
    if low ≤ v ∧ v ≤ high then .ok v (s.drop n)
    else .tentative s { cause := some "value is out of range" }
  else .tentative s {}

/-- A given character. -/
def mark (c : Char) (s : Input) : Reply Unit :=
  (oneOf (· = c) s).map fun _ => ()

/-! ### Dates -/

/-- Reads a date; after the year's dash nothing else can be meant. -/
def date (s : Input) : Reply Unit :=
  (field 4 0 9999 s).andThen fun year s =>
    (mark '-' s).andThen fun _ s =>
      (((field 2 1 12 s).andThen fun month s =>
        (mark '-' s).andThen fun _ s =>
          (field 2 1 31 s).andThen fun day rest =>
            if Calendar.daysIn year month < day then .breaks s "value is out of range"
            else .ok () rest)).commit

/-! ### Times -/

/-- The fraction of a second, if its point and a digit stand here. -/
def skipSecondFraction (s : Input) : Input :=
  match s with
  | '.' :: c :: r => if isDigit c then r.dropWhile isDigit else s
  | _ => s

/-- Reads a time of day; after the hour's colon nothing else can be meant. -/
def time (s : Input) : Reply Unit :=
  (field 2 0 23 s).andThen fun _ s =>
    (mark ':' s).andThen fun _ s =>
      ((field 2 0 59 s).andThen fun _ s =>
        (mark ':' s).andThen fun _ s =>
          (field 2 0 60 s).andThen fun _ rest => .ok () (skipSecondFraction rest)).commit

/-- Reads an offset from universal time. -/
def offset (s : Input) : Reply Unit :=
  match s with
  | c :: r =>
    if c = 'Z' ∨ c = 'z' then .ok () r
    else if c = '+' ∨ c = '-' then
      ((field 2 0 23 r).andThen fun _ s =>
        (mark ':' s).andThen fun _ s => (field 2 0 59 s).map fun _ => ()).commit.labelled "time offset"
    else .tentative s {}
  | [] => .tentative s {}

/-- What an attempt that may fail leaves: the rest after it, or the text before it. -/
def optional (r : Reply Unit) (s : Input) : Reply Unit :=
  r.orElse fun _ => .ok () s

/-- **Reads a date, a time, or both.** -/
def dateTime (s : Input) : Reply Unit :=
  let dated :=
    (date s).andThen fun _ rest =>
      match rest with
      | c :: r =>
        if c = 'T' ∨ c = 't' ∨ c = ' ' then
          optional ((time r).andThen fun _ rest => optional (offset rest) rest) (c :: r)
        else .ok () (c :: r)
      | [] => .ok () []
  (dated.labelled "date-time").orElse fun _ => (time s).labelled "time"

end QualityGate.Toml
