/-!
The units in which a duration is written, their spellings, and what one of each is worth: a number
of nanoseconds for the units below a second, a number of seconds for the others.
-/

namespace QualityGate

/-- **The units of time.** A month and a year have their mean length in the Gregorian calendar. -/
inductive TimeUnit where
  | nanosecond | microsecond | millisecond | second | minute | hour | day | week | month | year
  deriving DecidableEq, Repr

namespace TimeUnit

/-- The spellings of each unit; case matters (`m` is a minute, `M` a month). -/
def spellings : List (TimeUnit × List String) :=
  [(nanosecond, ["nanos", "nsec", "ns"]),
   (microsecond, ["usec", "us", "µs"]),
   (millisecond, ["millis", "msec", "ms"]),
   (second, ["seconds", "second", "secs", "sec", "s"]),
   (minute, ["minutes", "minute", "min", "mins", "m"]),
   (hour, ["hours", "hour", "hrs", "hr", "h"]),
   (day, ["days", "day", "d"]),
   (week, ["weeks", "week", "wks", "wk", "w"]),
   (month, ["months", "month", "M"]),
   (year, ["years", "year", "yrs", "yr", "y"])]

/-- The unit that a word names. -/
def ofName? (name : List Char) : Option TimeUnit :=
  (spellings.find? fun entry => entry.2.any fun s => s.toList = name).map (·.1)

/-- **What a count is measured in**: `nanos k` and `secs k` are `k` nanoseconds or seconds each. -/
inductive Scale where
  | nanos (each : Nat)
  | secs (each : Nat)
  deriving DecidableEq, Repr

/-- What one unit is worth when whole units are counted. -/
def scale : TimeUnit → Scale
  | nanosecond => .nanos 1
  | microsecond => .nanos 1000
  | millisecond => .nanos 1000000
  | second => .secs 1
  | minute => .secs 60
  | hour => .secs 3600
  | day => .secs 86400
  | week => .secs 604800
  | month => .secs 2630016
  | year => .secs 31557600

/-- **What one unit is worth when a fraction of it is taken.** Fractions of a minute and of the units
below it are counted in nanoseconds, of an hour and above in seconds; a nanosecond has none. -/
def fractionScale? : TimeUnit → Option Scale
  | nanosecond => none
  | microsecond => some (.nanos 1000)
  | millisecond => some (.nanos 1000000)
  | second => some (.nanos 1000000000)
  | minute => some (.nanos 60000000000)
  | unit => some unit.scale

/-- Nanoseconds in one unit of a scale. -/
def Scale.toNanos : Scale → Nat
  | .nanos k => k
  | .secs k => k * 1000000000

/-- Both readings of a unit have the same length. -/
theorem toNanos_fractionScale? {u : TimeUnit} {s : Scale} (h : u.fractionScale? = some s) :
    s.toNanos = u.scale.toNanos := by
  cases u <;> simp [fractionScale?] at h <;> subst h <;> rfl

end TimeUnit
end QualityGate
