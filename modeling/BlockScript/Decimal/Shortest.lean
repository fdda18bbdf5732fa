import BlockScript.Decimal.Binary

/-! The shortest decimal that reads back as a given binary value. The search walks from coarse to
fine decimal grids, and the first grid with a point among the reals that round to the value wins. -/
namespace BlockScript.Decimal

/-- The number `digits * 10 ^ exponent`. -/
structure Scientific where
  digits : Nat
  exponent : Int

/-- A number on a decimal grid of step `10 ^ grid`: the value is `numerator / denominator` steps,
and the reals that round to it reach from `lower` to `upper`, both over the same denominator. -/
structure Neighbourhood where
  lower : Nat
  numerator : Nat
  upper : Nat
  denominator : Nat
  closed : Bool

/-- Half the gap to the next value lies on each side; below a power of two the gap is half as wide,
except where the subnormal values continue with the same gap. The ends round to the value when its
significand is even. -/
def neighbourhood (significand : Nat) (exponent grid : Int) : Neighbourhood :=
  let quarter := Nat.pow 2 (exponent - 2).toNat * Nat.pow 10 (-grid).toNat
  let below := if significand = leadingBit && exponent != -1074 then 1 else 2
  { lower := (4 * significand - below) * quarter
    numerator := 4 * significand * quarter
    upper := (4 * significand + 2) * quarter
    denominator := Nat.pow 2 (2 - exponent).toNat * Nat.pow 10 grid.toNat
    closed := significand % 2 == 0 }

def Neighbourhood.holds (around : Neighbourhood) (point : Nat) : Bool :=
  let scaled := point * around.denominator
  if around.closed then around.lower ≤ scaled && scaled ≤ around.upper
  else around.lower < scaled && scaled < around.upper

/-- The nearest grid point that reads back, if there is one; of two at the same distance the one
farther from zero. -/
def Neighbourhood.point? (around : Neighbourhood) : Option Nat :=
  let floor := around.numerator / around.denominator
  let down := around.holds floor
  let up := around.holds (floor + 1)
  if down && up then
    if 2 * (around.numerator % around.denominator) < around.denominator then some floor
    else some (floor + 1)
  else if down then some floor
  else if up then some (floor + 1)
  else none

def firstPoint (significand : Nat) (exponent : Int) : (count : Nat) → (grid : Int) → Scientific
  | 0, grid =>
    let around := neighbourhood significand exponent grid
    ⟨around.numerator / around.denominator,grid⟩
  | count + 1, grid =>
    match (neighbourhood significand exponent grid).point? with
    | some point => ⟨point,grid⟩
    | none => firstPoint significand exponent count (grid - 1)

/-- An upper bound for the decimal exponent of the value; `0.30103` stands for the decimal
logarithm of two. -/
def exponentBound (significand : Nat) (exponent : Int) : Int :=
  (significand.log2 + exponent + 1) * 30103 / 100000 + 1

/-- Seventeen digits always suffice, so the search never runs out of grids. -/
def shortest (significand : Nat) (exponent : Int) : Scientific :=
  if significand = 0 then ⟨0,0⟩
  else firstPoint significand exponent 20 (exponentBound significand exponent)

end BlockScript.Decimal
