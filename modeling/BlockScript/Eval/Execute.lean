import BlockScript.Eval.Evaluate

/-! The effect of statements. A statement may return a value to the call around it, and then what
follows it is not run. -/
namespace BlockScript

@[inline] def orNext (first next : Run (Option Value)) : Run (Option Value) := do
  match ← first with
  | some value => return some value
  | none => next

def repeatWhile (condition : Run Bool) (body : Run (Option Value)) : (rounds : Nat) →
    Run (Option Value)
  | 0 => throw .outOfRounds
  | rounds + 1 => do
    if ← condition then orNext body (repeatWhile condition body rounds) else return none

def countUp (step : Nat → Run (Option Value)) : (first count : Nat) → Run (Option Value)
  | _, 0 => return none
  | first, count + 1 => orNext (step first) (countUp step (first + 1) count)

def forEach {α : Type} (step : α → Run (Option Value)) : List α → Run (Option Value)
  | [] => return none
  | item :: items => orNext (step item) (forEach step items)

def condition (enter : Enter) (node : Node) : Run Bool := do
  match ← evaluateResolved enter node with
  | .int number => return number != 0
  | value => Run.fail (.invalidCondition value)

/-- What `put` writes for a value. A name is described by what it is declared as. -/
def outputText (scope : Scope) (value : Value) : String :=
  match value with
  | .name text =>
    match scope.declared? text with
    | some (.function function) =>
      text ++ " is a function with:\n\t" ++ function.returns.spelling ++ " specifier\n"
    | some .handler => text ++ " is a system handler.\n"
    | _ =>
      match scope.value? text with
      | some held => held.render ++ "\n"
      | none => "no value assigned to " ++ text ++ " variable.\n"
  | .void => ""
  | value => value.render ++ "\n"

def declare (name : String) (declared : Declared) : Run (Option Value) := do
  Run.modifyScope fun scope => scope.declare name declared
  return none

/-- Runs an iteration once for each item of the collection, which is fixed beforehand. Every round
has a context of its own that holds the iterator. -/
def iterate (iterator : String) (body : Run (Option Value)) (collection : Value) :
    Run (Option Value) :=
  match collection with
  | .int number =>
    countUp (fun item => Run.within (.single iterator .int (.int (Int64.ofNat item))) body) 0
      number.toInt.toNat
  | .string text =>
    forEach (fun item =>
      Run.within (.single iterator .string (.string (String.singleton item))) body) text.toList
  | value => Run.fail (.invalidIterable value)

mutual

def execute (rounds : Nat) (enter : Enter) : Node → Run (Option Value)
  | .typed declared => declare declared.name (.typed declared.type)
  | .function called returns parameters body =>
    declare called (.function ⟨called,returns,parameters,body⟩)
  | .handler called => declare called .handler
  | .put operand => do
    let value ← evaluate enter operand
    Run.write (outputText (← Run.scope) value)
    return none
  | .ret operand => do return some (← evaluateResolved enter operand)
  | .block statements => Run.within .empty (executeAll rounds enter statements)
  | .ifThen _ none _ => Run.fail (.missingBody .conditional)
  | .ifThen test (some body) otherwise => do
    if ← condition enter test then Run.within .empty (executeAll rounds enter body)
    else
      match otherwise with
      | some statements => Run.within .empty (executeAll rounds enter statements)
      | none => return none
  | .whileDo _ none => Run.fail (.missingBody .loop)
  | .whileDo test (some body) =>
    repeatWhile (condition enter test) (Run.within .empty (executeAll rounds enter body)) rounds
  | .forIn _ _ none => Run.fail (.missingBody .iteration)
  | .forIn (.name iterator) collection (some body) => do
    iterate iterator (executeAll rounds enter body) (← evaluateResolved enter collection)
  | .forIn iterator _ (some _) => Run.fail (.invalidIterator iterator)
  | expression => do
    discard (evaluate enter expression)
    return none
termination_by structural node => node

def executeAll (rounds : Nat) (enter : Enter) : List Node → Run (Option Value)
  | [] => return none
  | statement :: rest => orNext (execute rounds enter statement) (executeAll rounds enter rest)
termination_by structural statements => statements

end

/-- Runs function bodies with at most `levels` calls nested in one another. A call made at the
greatest depth is refused before its body is entered, so that many levels are enough. -/
def enterAt (rounds : Nat) : (levels : Nat) → Enter
  | 0 => fun _ => throw .outOfRounds
  | levels + 1 => executeAll rounds (enterAt rounds levels)

def runStatement (rounds : Nat) (statement : Node) : Run (Option Value) :=
  execute rounds (enterAt rounds maxDepth) statement

end BlockScript
