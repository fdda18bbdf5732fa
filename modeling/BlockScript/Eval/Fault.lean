import BlockScript.Eval.Value
import BlockScript.Tree.Render

/-! Why a statement failed. -/
namespace BlockScript

inductive Operator
  | arithmetic (operator : Arithmetic)
  | test (operator : Test)
deriving DecidableEq

def Operator.spelling : Operator → String
  | arithmetic operator => operator.spelling
  | test operator => operator.spelling

inductive Control
  | conditional
  | loop
  | iteration
deriving DecidableEq

def Control.word : Control → String
  | conditional => "if"
  | loop => "while"
  | iteration => "for"

inductive Fault
  | sinkFull
  | undeclaredVariable (name : String)
  | unassignedVariable (name : String)
  | undeclaredFunction (name : String)
  | undeclaredHandler (name : String)
  | typeMismatch (name : String) (expected : TypeName) (value : Value)
  | invalidTarget (target : Node)
  | argumentCount (function : String) (given expected : Nat)
  | argumentMismatch (function : String) (parameter : TypedName) (found : TypeName)
  | argumentNotVariable (function : String) (argument : Node)
  | returnMismatch (function : String) (expected : TypeName) (value : Value)
  | depthExceeded (function : String)
  | returnOutside (value : Value)
  | invalidOperands (operator : Operator) (left right : Value)
  | divisionByZero
  | overflow (operator : Arithmetic)
  | invalidCondition (value : Value)
  | invalidIterator (iterator : Node)
  | invalidIterable (value : Value)
  | missingBody (control : Control)
  | unexpectedMark (mark : Node)
  | notExpression (node : Node)

def Fault.message : Fault → String
  | sinkFull => "IO error: sink is full"
  | undeclaredVariable name => "Undeclared variable: " ++ name
  | unassignedVariable name => "No value assigned to variable: " ++ name
  | undeclaredFunction name => "Undeclared function: " ++ name
  | undeclaredHandler name => "Undeclared system handler: " ++ name
  | typeMismatch name expected value =>
    "Type mismatch: " ++ name ++ " is declared " ++ expected.spelling ++ ", got " ++ value.inspect
  | invalidTarget target => "Values can only be assigned to variables: " ++ target.render
  | argumentCount function given expected =>
    "Invalid function call: " ++ function ++ " called with " ++ toString given
      ++ " arguments, expected " ++ toString expected
  | argumentMismatch function parameter found =>
    "Argument mismatch: " ++ function ++ " expects " ++ parameter.render ++ ", got a "
      ++ found.spelling ++ " variable"
  | argumentNotVariable function argument =>
    "Arguments to " ++ function ++ " must be variables, got " ++ argument.render
  | returnMismatch function expected value =>
    "Return type mismatch: " ++ function ++ " returns " ++ expected.spelling ++ ", got "
      ++ value.inspect
  | depthExceeded function => "Maximum call depth exceeded calling " ++ function
  | returnOutside value => "Return outside of a function: " ++ value.inspect
  | invalidOperands operator left right =>
    "Invalid operands for " ++ operator.spelling ++ ": " ++ left.inspect ++ " and " ++ right.inspect
  | divisionByZero => "Division by zero"
  | overflow operator => "Integer overflow in " ++ operator.spelling
  | invalidCondition value => "Condition must be an integer, got " ++ value.inspect
  | invalidIterator iterator => "Loop iterator must be a name, got " ++ iterator.render
  | invalidIterable value => "Cannot iterate over " ++ value.inspect
  | missingBody control => control.word ++ " statement without a body"
  | unexpectedMark mark => "Unexpected marker: " ++ mark.render
  | notExpression node => "Not an expression: " ++ node.render

structure Failure where
  fault : Fault
  statement : Node

def Failure.message (failure : Failure) : String :=
  "Error executing statement: " ++ failure.statement.render ++ " - " ++ failure.fault.message

end BlockScript
