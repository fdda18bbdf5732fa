import BlockScript.Tree.Operator

/-! The tree of a statement. A file is the list of its top-level statements, in the order in which
they run; a block is a list of statements too. -/
namespace BlockScript

structure TypedName where
  name : String
  type : TypeName
deriving DecidableEq

/-- A name stays a name until its value is asked for. The arguments of a call form a chain that
grows to the left and holds the last argument alone or at the right end of a link. A control
statement is a header until its block is attached, and the three marks stand for block structure
that is still open; none of these forms is left in a well-formed file. -/
inductive Node
  | int (value : Int64)
  | real (value : Float)
  | name (text : String)
  | string (text : String)
  | arithmetic (operator : Arithmetic) (left right : Node)
  | test (operator : Test) (left right : Node)
  | assign (target value : Node)
  | field (object member : Node)
  | argument (left right : Node)
  | lastArgument (operand : Node)
  | typed (declared : TypedName)
  | function (called : String) (returns : TypeName) (parameters : List TypedName) (body : List Node)
  | call (called : String) (arguments : Node)
  | callNoArgs (called : String)
  | handler (called : String)
  | ifThen (condition : Node) (body otherwise : Option (List Node))
  | whileDo (condition : Node) (body : Option (List Node))
  | forIn (iterator collection : Node) (body : Option (List Node))
  | put (operand : Node)
  | ret (operand : Node)
  | block (statements : List Node)
  | elseMark
  | doMark
  | lineMark

namespace Node

def name? : Node → Option String
  | name text => some text
  | _ => none

def awaitsBody : Node → Bool
  | ifThen _ none _ | whileDo _ none | forIn _ _ none => true
  | _ => false

def isDoMark : Node → Bool
  | doMark => true
  | _ => false

def isElseMark : Node → Bool
  | elseMark => true
  | _ => false

def argumentList : Node → List Node
  | argument left right => argumentList left ++ [right]
  | lastArgument operand => argumentList operand
  | operand => [operand]

end Node

end BlockScript
