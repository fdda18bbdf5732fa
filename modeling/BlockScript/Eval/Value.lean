import BlockScript.Decimal.Layout
import BlockScript.Text.Quoted
import BlockScript.Tree.Operator

/-! The values of the language. -/
namespace BlockScript

/-- A name is a value until something asks what it holds; void is the result of an action. -/
inductive Value
  | int (number : Int64)
  | real (number : Float)
  | string (text : String)
  | name (text : String)
  | void

namespace Value

def conforms : Value → TypeName → Bool
  | int _, .int => true
  | int number, .unsignedInt => 0 ≤ number
  | real _, .float => true
  | string _, .string => true
  | _, _ => false

def isVoid : Value → Bool
  | void => true
  | _ => false

def toReal? : Value → Option Float
  | int number => some (Float.ofInt number.toInt)
  | real number => some number
  | _ => none

def render : Value → String
  | int number => toString number.toInt
  | real number => Decimal.plain.render number
  | string text => text
  | name text => text
  | void => ""

def inspect : Value → String
  | int number => "Int(" ++ toString number.toInt ++ ")"
  | real number => "Real(" ++ Decimal.exact.render number ++ ")"
  | string text => "Str(" ++ Text.quoted text ++ ")"
  | name text => "Name(" ++ Text.quoted text ++ ")"
  | void => "Void"

end Value

end BlockScript
