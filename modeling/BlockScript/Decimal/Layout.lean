import BlockScript.Decimal.Shortest

/-! How a real number is written: by place value, or with one digit before the point and a power
of ten. -/
namespace BlockScript.Decimal

structure Layout where
  /-- The least and the greatest decimal exponent written by place value, or all of them. -/
  positional : Option (Int × Int)
  /-- What follows a whole number. -/
  wholeMark : String

/-- Place value throughout, and a whole number looks like an integer. -/
def plain : Layout := ⟨none,""⟩

/-- Place value from one in ten thousand up to sixteen digits before the point, and a point in
every number written so. -/
def exact : Layout := ⟨some (-4,15),".0"⟩

def Layout.admits (layout : Layout) (exponent : Int) : Bool :=
  match layout.positional with
  | none => true
  | some (least,greatest) => least ≤ exponent && exponent ≤ greatest

def zeros (count : Nat) : List Char := List.replicate count '0'

def placeValue (wholeMark : String) (digits : List Char) (point : Int) : String :=
  let whole := point.toNat
  if point ≤ 0 then "0." ++ String.ofList (zeros (-point).toNat ++ digits)
  else if digits.length ≤ whole then
    String.ofList (digits ++ zeros (whole - digits.length)) ++ wholeMark
  else String.ofList (digits.take whole) ++ "." ++ String.ofList (digits.drop whole)

def powerOfTen (digits : List Char) (exponent : Int) : String :=
  let rest := digits.drop 1
  String.ofList (digits.take 1) ++ (if rest.isEmpty then "" else "." ++ String.ofList rest)
    ++ "e" ++ toString exponent

def Layout.unsigned (layout : Layout) (number : Scientific) : String :=
  let digits := Nat.toDigits 10 number.digits
  let point := digits.length + number.exponent
  if number.digits = 0 then placeValue layout.wholeMark digits 1
  else if layout.admits (point - 1) then placeValue layout.wholeMark digits point
  else powerOfTen digits (point - 1)

/-- Every number but the undefined one carries its sign, also zero. -/
def Layout.render (layout : Layout) (value : Float) : String :=
  let sign := if isNegative value then "-" else ""
  match magnitude value with
  | .undefined => "NaN"
  | .infinite => sign ++ "inf"
  | .finite significand exponent => sign ++ layout.unsigned (shortest significand exponent)

end BlockScript.Decimal
