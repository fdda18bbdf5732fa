import BlockScript.Decimal.Read
import BlockScript.Eval.Fault

/-! Operators on values. Integers are exact or overflow; as soon as one operand is real both are. -/
namespace BlockScript

def Arithmetic.onReals : Arithmetic → Float → Float → Float
  | plus, left, right => left + right
  | minus, left, right => left - right
  | times, left, right => left * right
  | divide, left, right => left / right

/-- The unbounded result. A quotient is cut off toward zero. -/
def Arithmetic.onIntegers : Arithmetic → Int → Int → Int
  | plus, left, right => left + right
  | minus, left, right => left - right
  | times, left, right => left * right
  | divide, left, right => left.tdiv right

/-- A zero divisor is found before the result is. -/
def Arithmetic.onWords (operator : Arithmetic) (left right : Int64) : Except Fault Value :=
  if operator = .divide ∧ right = 0 then .error .divisionByZero
  else
    let result := operator.onIntegers left.toInt right.toInt
    if Decimal.fitsWord result then .ok (.int (Int64.ofInt result)) else .error (.overflow operator)

def Arithmetic.apply (operator : Arithmetic) (left right : Value) : Except Fault Value :=
  match left, right with
  | .int left, .int right => operator.onWords left right
  | left, right =>
    match left.toReal?, right.toReal? with
    | some first, some second => .ok (.real (operator.onReals first second))
    | _, _ => .error (.invalidOperands (.arithmetic operator) left right)

/-- Two values that cannot be ordered are only unequal. -/
def Relation.holds : Relation → Option Ordering → Bool
  | equal, order => order == some .eq
  | notEqual, order => order != some .eq
  | less, order => order == some .lt
  | lessOrEqual, order => order == some .lt || order == some .eq
  | greater, order => order == some .gt
  | greaterOrEqual, order => order == some .gt || order == some .eq

def orderReals (left right : Float) : Option Ordering :=
  if left < right then some .lt
  else if left == right then some .eq
  else if right < left then some .gt
  else none

/-- Texts are only equal or not; numbers are in order. -/
def Relation.apply (relation : Relation) (left right : Value) : Except Fault Bool :=
  match relation, left, right with
  | .equal, .string left, .string right => .ok (left == right)
  | .notEqual, .string left, .string right => .ok (left != right)
  | relation, .int left, .int right => .ok (relation.holds (some (compare left.toInt right.toInt)))
  | relation, left, right =>
    match left.toReal?, right.toReal? with
    | some first, some second => .ok (relation.holds (orderReals first second))
    | _, _ => .error (.invalidOperands (.test (.compare relation)) left right)

def Test.decide (operator : Test) (left right : Value) : Except Fault Bool :=
  match operator, left, right with
  | .both, .int left, .int right => .ok (left != 0 && right != 0)
  | .either, .int left, .int right => .ok (left != 0 || right != 0)
  | .compare relation, left, right => relation.apply left right
  | operator, left, right => .error (.invalidOperands (.test operator) left right)

def Test.apply (operator : Test) (left right : Value) : Except Fault Value :=
  (operator.decide left right).map fun holds => .int (if holds then 1 else 0)

end BlockScript
