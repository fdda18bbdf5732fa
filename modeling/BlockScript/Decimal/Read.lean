/-! Numbers read from text. A reader takes the whole text or refuses it. -/
namespace BlockScript.Decimal

/-- Splits off a leading sign; true stands for minus. -/
def splitSign : List Char → Bool × List Char
  | '-' :: rest => (true,rest)
  | '+' :: rest => (false,rest)
  | text => (false,text)

def digitsValue (digits : List Char) : Nat :=
  digits.foldl (fun value digit => 10 * value + (digit.toNat - '0'.toNat)) 0

def natural? (text : List Char) : Option Nat :=
  if text.isEmpty || !text.all Char.isDigit then none else some (digitsValue text)

def signed? (text : List Char) : Option Int :=
  let (negative,rest) := splitSign text
  (natural? rest).map fun value => if negative then -(value : Int) else value

def fitsWord (value : Int) : Bool :=
  Int64.minValue.toInt ≤ value && value ≤ Int64.maxValue.toInt

def integer? (text : String) : Option Int64 :=
  match signed? text.toList with
  | some value => if fitsWord value then some (Int64.ofInt value) else none
  | none => none

def power? : List Char → Option Int
  | [] => some 0
  | mark :: rest => if mark = 'e' || mark = 'E' then signed? rest else none

/-- Digits with at most one point, at least one of them, and then a power of ten. -/
def unsignedReal? (text : List Char) : Option Float :=
  let (whole,rest) := text.span Char.isDigit
  let (fraction,rest) :=
    match rest with
    | '.' :: rest => rest.span Char.isDigit
    | rest => ([],rest)
  if whole.isEmpty && fraction.isEmpty then none
  else (power? rest).map fun power =>
    let exponent : Int := power - fraction.length
    Float.ofScientific (digitsValue (whole ++ fraction)) (exponent < 0) exponent.natAbs

def namedReal? (text : List Char) : Option Float :=
  let word := text.map Char.toLower
  if word == "inf".toList || word == "infinity".toList then some (1.0 / 0.0)
  else if word == "nan".toList then some (0.0 / 0.0)
  else none

def real? (text : String) : Option Float :=
  let (negative,rest) := splitSign text.toList
  ((unsignedReal? rest).or (namedReal? rest)).map fun value => if negative then -value else value

end BlockScript.Decimal
