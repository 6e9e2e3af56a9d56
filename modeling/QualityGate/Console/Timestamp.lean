import QualityGate.Calendar
/-!
Points in time as they stand in front of log records: date and time of day in universal time, down to
microseconds.
-/

namespace QualityGate.Console

/-- **A point in time**, counted from the start of 1970. -/
structure Timestamp where
  seconds : Nat
  nanos : Nat
  deriving DecidableEq, Repr

namespace Timestamp

/-- A number with zeros in front, to a width. -/
def padded (width n : Nat) : String :=
  let digits := toString n
  String.ofList (List.replicate (width - digits.length) '0') ++ digits

/-- **A point in time as text.** -/
def render (t : Timestamp) : String :=
  let date := Calendar.Date.ofDays (t.seconds / 86400)
  let clock := t.seconds % 86400
  padded 4 date.year ++ "-" ++ padded 2 date.month ++ "-" ++ padded 2 date.day ++ "T" ++
    padded 2 (clock / 3600) ++ ":" ++ padded 2 (clock / 60 % 60) ++ ":" ++ padded 2 (clock % 60) ++
    "." ++ padded 6 (t.nanos / 1000) ++ "Z"

end Timestamp
end QualityGate.Console
