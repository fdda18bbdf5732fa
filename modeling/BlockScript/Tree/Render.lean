import BlockScript.Decimal.Layout
import BlockScript.Tree.Basic

/-! Trees as text. An operator comes before its operands, and parentheses close every form that has
parts, except calls and their arguments. -/
namespace BlockScript

def TypedName.render (declared : TypedName) : String :=
  declared.type.spelling ++ " " ++ declared.name

namespace Node

def renderPair (head left right : String) : String :=
  "(" ++ head ++ " " ++ left ++ " " ++ right ++ ")"

mutual

def render : Node → String
  | int value => toString value.toInt
  | real value => Decimal.exact.render value
  | name text => text
  | string text => "\"" ++ text ++ "\""
  | arithmetic operator left right => renderPair operator.spelling left.render right.render
  | test operator left right => renderPair operator.spelling left.render right.render
  | assign target value => renderPair "=" target.render value.render
  | field object member => renderPair "." object.render member.render
  | argument left right => left.render ++ ", " ++ right.render
  | lastArgument operand => operand.render
  | typed declared => "(" ++ declared.render ++ ")"
  | function called returns parameters body =>
    "(fn " ++ returns.spelling ++ " " ++ called ++ " ("
      ++ ", ".intercalate (parameters.map TypedName.render) ++ ") (do"
      ++ renderStatements body ++ ")"
  | call called arguments => called ++ "(" ++ arguments.render ++ ")"
  | callNoArgs called => called ++ "()"
  | handler called => "(system_handler " ++ called ++ ")"
  | ifThen condition body otherwise =>
    "(if " ++ condition.render ++ renderSlot " " body ++ renderSlot " else " otherwise ++ ")"
  | whileDo condition body => "(while " ++ condition.render ++ renderSlot " " body ++ ")"
  | forIn iterator collection body =>
    "(for " ++ iterator.render ++ " in " ++ collection.render ++ renderSlot " " body ++ ")"
  | put operand => "(put " ++ operand.render ++ ")"
  | ret operand => "(ret " ++ operand.render ++ ")"
  | block statements => "(do" ++ renderStatements statements
  | elseMark => "else"
  | doMark => "do"
  | lineMark => "\\n"
termination_by structural node => node

def renderSlot (lead : String) : Option (List Node) → String
  | none => ""
  | some statements => lead ++ "(do" ++ renderStatements statements
termination_by structural slot => slot

def renderStatements : List Node → String
  | [] => ")"
  | statement :: rest => " " ++ statement.render ++ renderStatements rest
termination_by structural statements => statements

end

end Node

def renderFile (roots : List Node) : String :=
  String.join (roots.map fun root => root.render ++ "\n")

end BlockScript
