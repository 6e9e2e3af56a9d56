/-!
How alike two words are, for suggestions. The measure counts the characters that both words share at
nearly the same place, less for those that stand in another order. Two words are alike when the
measure is above seven tenths; among several the most alike is suggested.
-/

namespace QualityGate.Args

/-- A non-negative fraction. -/
structure Ratio where
  num : Nat
  den : Nat

/-- Whether one fraction is at most another. -/
def Ratio.le (a b : Ratio) : Bool :=
  a.num * b.den ≤ b.num * a.den

/-! ### Shared characters -/

/-- The first free place within the bounds at which a character stands. -/
def freePlace? (c : Char) (low high : Nat) (taken : List Nat) : Nat → List Char → Option Nat
  | _, [] => none
  | j, d :: r =>
    if low ≤ j && j < high && c = d && !taken.contains j then some j
    else freePlace? c low high taken (j + 1) r

/-- Pairs of places, one in each word, at which the words share a character; each place is used at
most once. -/
def sharedPlaces (range : Nat) (b : List Char) :
    Nat → List (Char × Nat) → List Nat → List Char → List (Char × Nat) × List Nat
  | _, matched, taken, [] => (matched.reverse, taken)
  | i, matched, taken, c :: r =>
    match freePlace? c (i - range) (i + range + 1) taken 0 b with
    | some j => sharedPlaces range b (i + 1) ((c, i) :: matched) (j :: taken) r
    | none => sharedPlaces range b (i + 1) matched taken r

/-- **How alike two words are**, from nought to one. -/
def likeness (a b : List Char) : Ratio :=
  if a = [] ∧ b = [] then ⟨1, 1⟩
  else if a = [] ∨ b = [] then ⟨0, 1⟩
  else
    let range := Nat.max a.length b.length / 2 - 1
    let (matched, taken) := sharedPlaces range b 0 [] [] a
    let inA := matched.map (·.1)
    let inB := (b.zipIdx.filter fun p => taken.contains p.2).map (·.1)
    let m := inA.length
    let moved := ((inA.zip inB).filter fun p => p.1 ≠ p.2).length / 2
    if m = 0 then ⟨0, 1⟩
    else ⟨m * m * b.length + m * m * a.length + (m - moved) * a.length * b.length,
      3 * a.length * b.length * m⟩

/-- **The most alike of some candidates**, the last one of equals, if any is alike enough. -/
def mostAlike (word : String) (candidates : List String) : Option String :=
  let rated := candidates.map fun c => (likeness word.toList c.toList, c)
  let alike := rated.filter fun p => 7 * p.1.den < 10 * p.1.num
  (alike.foldl
    (fun best p =>
      match best with
      | some b => if b.1.le p.1 then some p else some b
      | none => some p)
    none).map (·.2)

end QualityGate.Args
