/-! The number behind the 64 bits of a floating-point value. -/
namespace BlockScript.Decimal

/-- A finite value is `significand * 2 ^ exponent`, apart from its sign. -/
inductive Magnitude
  | undefined
  | infinite
  | finite (significand : Nat) (exponent : Int)

def leadingBit : Nat := 0x10000000000000

def isNegative (value : Float) : Bool := value.toBits >>> 63 == 1

/-- The leading bit is not stored, so it is added. The subnormal values have none and share the
smallest exponent with the values next to them. -/
def magnitude (value : Float) : Magnitude :=
  let bits := value.toBits.toNat
  let field : Nat := bits / leadingBit % 0x800
  let fraction : Nat := bits % leadingBit
  if field = 0x7ff then
    if fraction = 0 then .infinite else .undefined
  else if field = 0 then .finite fraction (-1074)
  else .finite (leadingBit + fraction) ((field : Int) - 1075)

end BlockScript.Decimal
