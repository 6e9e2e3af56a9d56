/-!
Binary floating-point numbers of 64 bits by their exact value: a natural mantissa times a power of
two. `ofDecimal` rounds a decimal to the nearest such number, a tie to the even mantissa, and
`shortest` finds the fewest decimal digits that round back. All arithmetic is on natural numbers.
-/

namespace QualityGate

/-- **A floating-point number.** A finite one is `mantissa * 2 ^ (exponent - 1074)`, with a sign of
its own so that zero has two forms. -/
inductive Binary64 where
  | finite (negative : Bool) (mantissa exponent : Nat)
  | infinite (negative : Bool)
  | notANumber
  deriving DecidableEq, Repr, Inhabited

namespace Binary64

/-! ### Rounding -/

/-- The quotient of two naturals to the nearest natural, a tie to the even one. -/
def roundedQuotient (num den : Nat) : Nat :=
  let q := num / den
  let r := num % den
  if den < 2 * r ∨ (2 * r = den ∧ q % 2 = 1) then q + 1 else q

/-- The exponent at which `num / den`, scaled by `2 ^ 1074`, has a mantissa of at most 53 bits. -/
def exponentOf (num den : Nat) : Nat :=
  let scaled := num * Nat.pow 2 1074 / den
  Nat.log2 scaled - 52

/-- **The number nearest to `num / den`.** -/
def ofQuotient (negative : Bool) (num den : Nat) : Binary64 :=
  let e := exponentOf num den
  let m := roundedQuotient (num * Nat.pow 2 1074) (den * Nat.pow 2 e)
  let (m, e) := if m = Nat.pow 2 53 then (Nat.pow 2 52, e + 1) else (m, e)
  if 2045 < e then infinite negative else finite negative m e

/-- **The number nearest to `digits * 10 ^ exponent`.** Far outside the range the answer is known
without computing the power. -/
def ofDecimal (negative : Bool) (digits : Nat) (exponent : Int) : Binary64 :=
  let magnitude : Int := exponent + (Nat.toDigits 10 digits).length
  if digits = 0 ∨ magnitude < -400 then finite negative 0 0
  else if 400 < magnitude then infinite negative
  else if 0 ≤ exponent then ofQuotient negative (digits * Nat.pow 10 exponent.toNat) 1
  else ofQuotient negative digits (Nat.pow 10 (-exponent).toNat)

/-! ### The fewest digits -/

/-- Twice the bounds of the interval that rounds to `m` at exponent `e`, in units of half an ulp:
the lower bound is nearer at a power of two. -/
def doubledBounds (m e : Nat) : Nat × Nat × Nat :=
  if m = Nat.pow 2 52 ∧ 0 < e then (4 * m - 1, 4 * m, 4 * m + 2) else (4 * m - 2, 4 * m, 4 * m + 2)

/-- Decimal digits and an exponent. -/
structure Digits where
  digits : Nat
  exponent : Int
  deriving DecidableEq, Repr

/-- The two neighbours of a value on the grid of multiples of `10 ^ k`, of which the nearer one in
the interval is taken. Values are `x * 2 ^ e / 2 ^ 1076`. -/
def onGrid? (low mid high e : Nat) (even : Bool) (k : Int) : Option Digits :=
  let up : Nat := if 0 ≤ k then Nat.pow 10 k.toNat else 1
  let down : Nat := if 0 ≤ k then 1 else Nat.pow 10 (-k).toNat
  -- A multiple `n` of the grid equals `n * up * 2 ^ 1076 / (down * 2 ^ e)` in the units of `x`.
  let unitNum := up * Nat.pow 2 1076
  let unitDen := down * Nat.pow 2 e
  let floor := mid * unitDen / unitNum
  let inside (n : Nat) : Bool :=
    let v := n * unitNum
    if even then low * unitDen ≤ v && v ≤ high * unitDen else low * unitDen < v && v < high * unitDen
  let below := mid * unitDen - floor * unitNum
  let above := (floor + 1) * unitNum - mid * unitDen
  let lowIn := inside floor && floor ≠ 0
  let highIn := inside (floor + 1)
  if lowIn && (!highIn || below < above || (below = above && floor % 2 = 0)) then some ⟨floor, k⟩
  else if highIn then some ⟨floor + 1, k⟩
  else none

/-- The first grid, from coarse to fine, that has a point in the interval. -/
def search (low mid high e : Nat) (even : Bool) (k : Int) : Nat → Digits
  | 0 => ⟨0, 0⟩
  | n + 1 =>
    match onGrid? low mid high e even k with
    | some d => d
    | none => search low mid high e even (k - 1) n

/-- **The fewest digits that round back** to `m * 2 ^ (e - 1074)`, the nearest of those. -/
def shortest (m e : Nat) : Digits :=
  let (low, mid, high) := doubledBounds m e
  let top : Int := (Nat.toDigits 10 (m * Nat.pow 2 e / Nat.pow 2 1074)).length
  let lead : Int :=
    if m * Nat.pow 2 e < Nat.pow 2 1074 then 1 - ((1074 - Nat.log2 (m * Nat.pow 2 e)) * 3 / 10 : Int)
    else top
  search low mid high e (m % 2 = 0) lead 40

/-! ### Positional notation -/

/-- Digits without an exponent, a point among or after them. -/
def positional (d : Digits) : String :=
  let ds := Nat.toDigits 10 d.digits
  if 0 ≤ d.exponent then String.ofList (ds ++ List.replicate d.exponent.toNat '0') ++ ".0"
  else
    let places := (-d.exponent).toNat
    let padded := List.replicate (places + 1 - ds.length) '0' ++ ds
    let cut := padded.length - places
    String.ofList (padded.take cut ++ '.' :: padded.drop cut)

/-- **A number in positional notation**, with the fewest digits and at least one place. -/
def toText : Binary64 → String
  | notANumber => "NaN"
  | infinite negative => if negative then "-inf" else "inf"
  | finite negative m e =>
    let body := if m = 0 then "0.0" else positional (shortest m e)
    if negative then "-" ++ body else body

end Binary64
end QualityGate
