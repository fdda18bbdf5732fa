import BlockScript.Eval.Operation
import BlockScript.Eval.State

/-! The values of expressions. Operands are evaluated from left to right, and a name is looked up
only where a value is needed. -/
namespace BlockScript

/-- How the body of a function is run, once its context is in place. -/
abbrev Enter := List Node → Run (Option Value)

def maxDepth : Nat := 64

def resolve (value : Value) : Run Value := do
  match value with
  | .name text =>
    let scope ← Run.scope
    match scope.value? text with
    | some held => return held
    | none =>
      if (scope.declared? text).isSome then Run.fail (.unassignedVariable text)
      else Run.fail (.undeclaredVariable text)
  | value => return value

namespace Function

/-- Adds one parameter to the context of a call. The argument is a variable of the caller, declared
with exactly the type of the parameter; its value is copied if it has one. -/
def bindArgument (function : Function) (caller : Scope) (context : Context) (parameter : TypedName)
    (argument : Node) : Except Fault Context :=
  match argument with
  | .name given =>
    match (caller.declared? given).bind Declared.type? with
    | none => .error (.undeclaredVariable given)
    | some found =>
      if found ≠ parameter.type then .error (.argumentMismatch function.called parameter found)
      else
        let context := context.declare parameter.name (.typed parameter.type)
        match caller.value? given with
        | some value => .ok (context.bind parameter.name value)
        | none => .ok context
  | argument => .error (.argumentNotVariable function.called argument)

def bindArguments (function : Function) (caller : Scope) :
    Context → List TypedName → List Node → Except Fault Context
  | context, parameter :: parameters, argument :: arguments =>
    match function.bindArgument caller context parameter argument with
    | .ok context => function.bindArguments caller context parameters arguments
    | .error fault => .error fault
  | context, _, _ => .ok context

/-- The context of a call, or the first reason against it: the number of arguments, the depth, and
then the arguments from left to right. -/
def accept (function : Function) (caller : Scope) (depth : Nat) (arguments : List Node) :
    Except Fault Context :=
  if arguments.length ≠ function.parameters.length then
    .error (.argumentCount function.called arguments.length function.parameters.length)
  else if maxDepth ≤ depth then .error (.depthExceeded function.called)
  else function.bindArguments caller .empty function.parameters arguments

def answer (function : Function) (returned : Option Value) : Except Fault Value :=
  let value := returned.getD .void
  if value.isVoid || value.conforms function.returns then .ok value
  else .error (.returnMismatch function.called function.returns value)

end Function

def call (enter : Enter) (called : String) (arguments : List Node) : Run Value := do
  let state ← get
  match state.scope.declared? called with
  | some (.function function) =>
    Run.record (.called function.called function.parameters.length state.depth)
    let context ← Run.lift (function.accept state.scope state.depth arguments)
    let returned ← Run.deeper (Run.within context (enter function.body))
    Run.lift (function.answer returned)
  | _ => Run.fail (.undeclaredFunction called)

def handlerCommand? : Node → Option HandlerCommand
  | .name "start" => some .start
  | .name "stop" => some .stop
  | _ => none

def commandHandler (command : HandlerCommand) (called : String) : Run Value := do
  match (← Run.scope).declared? called with
  | some .handler =>
    Run.command command called
    return .void
  | _ => Run.fail (.undeclaredHandler called)

def targetType (name : String) : Run TypeName := do
  match (← Run.scope).declared? name with
  | some declared =>
    match declared.type? with
    | some type => return type
    | none => Run.fail (.invalidTarget (.name name))
  | none => Run.fail (.undeclaredVariable name)

def store (name : String) (type : TypeName) (value : Value) : Run Value := do
  if value.conforms type then
    Run.modifyScope fun scope => scope.assign name value
    return value
  else Run.fail (.typeMismatch name type value)

/-- A name evaluates to itself. Assigning to a field runs the field, then the value, and stores
nothing. -/
def evaluate (enter : Enter) : Node → Run Value
  | .int value => return .int value
  | .real value => return .real value
  | .name text => return .name text
  | .string text => return .string text
  | .arithmetic operator left right => do
    let left ← evaluate enter left >>= resolve
    let right ← evaluate enter right >>= resolve
    Run.lift (operator.apply left right)
  | .test operator left right => do
    let left ← evaluate enter left >>= resolve
    let right ← evaluate enter right >>= resolve
    Run.lift (operator.apply left right)
  | .assign target value =>
    match target with
    | .field _ _ => do
      discard (evaluate enter target)
      discard (evaluate enter value)
      return .void
    | .name text => do
      let type ← targetType text
      let value ← evaluate enter value >>= resolve
      store text type value
    | target => Run.fail (.invalidTarget target)
  | .field object member =>
    match object, handlerCommand? member with
    | .name called, some command => commandHandler command called
    | object, _ => do
      discard (evaluate enter object)
      evaluate enter member
  | .call called arguments => call enter called arguments.argumentList
  | .callNoArgs called => call enter called []
  | .elseMark => Run.fail (.unexpectedMark .elseMark)
  | .doMark => Run.fail (.unexpectedMark .doMark)
  | .lineMark => Run.fail (.unexpectedMark .lineMark)
  | node => Run.fail (.notExpression node)
termination_by structural node => node

def evaluateResolved (enter : Enter) (node : Node) : Run Value := evaluate enter node >>= resolve

end BlockScript
