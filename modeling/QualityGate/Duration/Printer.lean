import QualityGate.Duration.Basic
/-!
Two ways to write a duration. `print` breaks it into the largest units first and leaves out what is
zero, as in `1h 30m`; it is what a message to the user says. `compact` writes one decimal number in
the unit that suits its size, as in `1.5s` or `300ms`; it is what the log says.
-/

namespace QualityGate.Duration

/-! ### By units, largest first -/

/-- One item: nothing for zero, else the count and the name. -/
def printItem (name : String) (n : Nat) : List String :=
  if n = 0 then [] else [toString n ++ name]

/-- One item whose name takes an `s` for any count but one. -/
def printPlural (name : String) (n : Nat) : List String :=
  if n = 0 then [] else [toString n ++ name ++ (if n = 1 then "" else "s")]

/-- **The items of a duration**, from years down to nanoseconds. -/
def items (d : Duration) : List String :=
  let years := d.secs / 31557600
  let inYear := d.secs % 31557600
  let months := inYear / 2630016
  let inMonth := inYear % 2630016
  let days := inMonth / 86400
  let inDay := inMonth % 86400
  printPlural "year" years ++ printPlural "month" months ++ printPlural "day" days ++
  printItem "h" (inDay / 3600) ++ printItem "m" (inDay % 3600 / 60) ++
  printItem "s" (inDay % 60) ++
  printItem "ms" (d.nanos / 1000000) ++ printItem "us" (d.nanos / 1000 % 1000) ++
  printItem "ns" (d.nanos % 1000)

/-- **A duration by its units**, `0s` when there are none. -/
def print (d : Duration) : String :=
  if d = zero then "0s" else String.intercalate " " d.items

/-! ### As one decimal number -/

/-- The digits of `n` after the point, of which there are `width`, without zeros at their end. -/
def fractionDigits (width n : Nat) : String :=
  let digits := (Nat.repr n).toList
  let padded := List.replicate (width - digits.length) '0' ++ digits
  let kept := (padded.reverse.dropWhile (· = '0')).reverse
  if kept = [] then "" else "." ++ String.ofList kept

/-- **A duration as one number**, in the largest of s, ms, µs and ns in which it is at least one. -/
def compact (d : Duration) : String :=
  if 0 < d.secs then toString d.secs ++ fractionDigits 9 d.nanos ++ "s"
  else if 1000000 ≤ d.nanos then
    toString (d.nanos / 1000000) ++ fractionDigits 6 (d.nanos % 1000000) ++ "ms"
  else if 1000 ≤ d.nanos then
    toString (d.nanos / 1000) ++ fractionDigits 3 (d.nanos % 1000) ++ "µs"
  else toString d.nanos ++ "ns"

/-- Two digits after the point. -/
def twoDigits (n : Nat) : String :=
  if n < 10 then "0" ++ toString n else toString n

/-- `n / unit` to the nearest hundredth, a half to the even neighbour. -/
def hundredths (n unit : Nat) : Nat :=
  let q := n * 100 / unit
  let r := n * 100 % unit
  if unit < 2 * r ∨ (2 * r = unit ∧ q % 2 = 1) then q + 1 else q

/-- **A duration as one number with two places.** -/
def brief (d : Duration) : String :=
  let shown (n unit : Nat) (name : String) : String :=
    let h := hundredths n unit
    toString (h / 100) ++ "." ++ twoDigits (h % 100) ++ name
  if 0 < d.secs then shown d.toNanos 1000000000 "s"
  else if 1000000 ≤ d.nanos then shown d.nanos 1000000 "ms"
  else if 1000 ≤ d.nanos then shown d.nanos 1000 "µs"
  else shown d.nanos 1 "ns"

end QualityGate.Duration
