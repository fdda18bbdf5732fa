import BlockScript.Eval.Session
import BlockScript.Proofs.Eval.Frame
import Mathlib.Logic.Relation

/-! The states that a session goes through. A visit is a part of a program together with the state
in which it begins; while it runs it leads to visits of its own parts and of the functions that it
calls. -/
namespace BlockScript

/-- What may run by itself. An iteration has one context for each item that is left. -/
inductive Task
  | expression (node : Node)
  | statement (node : Node)
  | sequence (statements : List Node)
  | iteration (contexts : List Context) (body : List Node)

structure Visit where
  task : Task
  state : State

namespace State

/-- Calls may nest as far as the depth leaves room. -/
def enter (rounds : Nat) (state : State) : Enter := enterAt rounds (maxDepth - state.depth)

def inside (context : Context) (state : State) : State :=
  { state with scope := state.scope.push context }

def calling (function : Function) (context : Context) (state : State) : State where
  scope := state.scope.push context
  depth := state.depth + 1
  sink := state.sink
  handlers := state.handlers
  log := .called function.called function.parameters.length state.depth :: state.log

def executing (root : Node) (state : State) : State :=
  { state with log := .executing root :: state.log }

end State

namespace Node

def calling? : Node → Option (String × List Node)
  | call called arguments => some (called,arguments.argumentList)
  | callNoArgs called => some (called,[])
  | _ => none

def declares? : Node → Option (String × Declared)
  | typed declared => some (declared.name,.typed declared.type)
  | function called returns parameters body =>
    some (called,.function ⟨called,returns,parameters,body⟩)
  | handler called => some (called,.handler)
  | _ => none

/-- Every other node is evaluated where a statement stands. -/
def isStatement : Node → Bool
  | typed _ | function _ _ _ _ | handler _ | put _ | ret _ | block _ | ifThen _ _ _ | whileDo _ _
  | forIn _ _ _ => true
  | _ => false

end Node

def Value.rounds? (iterator : String) : Value → Option (List Context)
  | int number => some ((List.range number.toInt.toNat).map fun item =>
      .single iterator .int (.int (Int64.ofNat item)))
  | string text => some (text.toList.map fun item =>
      .single iterator .string (.string (String.singleton item)))
  | _ => none

def Task.run (rounds : Nat) (enter : Enter) : Task → Run Unit
  | expression node => discard (evaluate enter node)
  | statement node => discard (execute rounds enter node)
  | sequence statements => discard (executeAll rounds enter statements)
  | iteration contexts body => discard
      (forEach (fun context => Run.within context (executeAll rounds enter body)) contexts)

def Visit.EndsIn (rounds : Nat) (visit : Visit) (last : State) : Prop :=
  let run := visit.task.run rounds (visit.state.enter rounds)
  run visit.state = .ok () last ∨ ∃ fault, run visit.state = .error (.fault fault) last

/-- The visits that come next inside of a visit. A loop that goes on is visited again. -/
inductive Leads (rounds : Nat) : Visit → Visit → Prop
  | arithmeticLeft (operator : Arithmetic) (left right : Node) (state : State) :
      Leads rounds ⟨.expression (.arithmetic operator left right),state⟩ ⟨.expression left,state⟩
  | arithmeticRight (operator : Arithmetic) (left right : Node) (state next : State)
      (value : Value)
      (first : evaluateResolved (state.enter rounds) left state = .ok value next) :
      Leads rounds ⟨.expression (.arithmetic operator left right),state⟩ ⟨.expression right,next⟩
  | testLeft (operator : Test) (left right : Node) (state : State) :
      Leads rounds ⟨.expression (.test operator left right),state⟩ ⟨.expression left,state⟩
  | testRight (operator : Test) (left right : Node) (state next : State) (value : Value)
      (first : evaluateResolved (state.enter rounds) left state = .ok value next) :
      Leads rounds ⟨.expression (.test operator left right),state⟩ ⟨.expression right,next⟩
  | assigned (name : String) (value : Node) (state next : State) (type : TypeName)
      (target : targetType name state = .ok type next) :
      Leads rounds ⟨.expression (.assign (.name name) value),state⟩ ⟨.expression value,next⟩
  | assignedField (object member value : Node) (state : State) :
      Leads rounds ⟨.expression (.assign (.field object member) value),state⟩
        ⟨.expression (.field object member),state⟩
  | assignedNothing (object member value : Node) (state next : State) (found : Value)
      (target : evaluate (state.enter rounds) (.field object member) state = .ok found next) :
      Leads rounds ⟨.expression (.assign (.field object member) value),state⟩
        ⟨.expression value,next⟩
  | object (object member : Node) (state : State)
      (plain : ∀ called command, object = .name called → handlerCommand? member = some command →
        False) :
      Leads rounds ⟨.expression (.field object member),state⟩ ⟨.expression object,state⟩
  | member (object member : Node) (state next : State) (found : Value)
      (plain : ∀ called command, object = .name called → handlerCommand? member = some command →
        False)
      (first : evaluate (state.enter rounds) object state = .ok found next) :
      Leads rounds ⟨.expression (.field object member),state⟩ ⟨.expression member,next⟩
  | call (node : Node) (called : String) (arguments : List Node) (state : State)
      (function : Function) (context : Context) (calls : node.calling? = some (called,arguments))
      (declared : state.scope.declared? called = some (.function function))
      (accepted : function.accept state.scope state.depth arguments = .ok context) :
      Leads rounds ⟨.expression node,state⟩
        ⟨.sequence function.body,state.calling function context⟩
  | put (operand : Node) (state : State) :
      Leads rounds ⟨.statement (.put operand),state⟩ ⟨.expression operand,state⟩
  | ret (operand : Node) (state : State) :
      Leads rounds ⟨.statement (.ret operand),state⟩ ⟨.expression operand,state⟩
  | evaluated (node : Node) (state : State) (plain : node.isStatement = false) :
      Leads rounds ⟨.statement node,state⟩ ⟨.expression node,state⟩
  | block (statements : List Node) (state : State) :
      Leads rounds ⟨.statement (.block statements),state⟩
        ⟨.sequence statements,state.inside .empty⟩
  | tested (test : Node) (body : List Node) (otherwise : Option (List Node)) (state : State) :
      Leads rounds ⟨.statement (.ifThen test (some body) otherwise),state⟩
        ⟨.expression test,state⟩
  | thenBody (test : Node) (body : List Node) (otherwise : Option (List Node)) (state next : State)
      (holds : condition (state.enter rounds) test state = .ok true next) :
      Leads rounds ⟨.statement (.ifThen test (some body) otherwise),state⟩
        ⟨.sequence body,next.inside .empty⟩
  | elseBody (test : Node) (body otherwise : List Node) (state next : State)
      (fails : condition (state.enter rounds) test state = .ok false next) :
      Leads rounds ⟨.statement (.ifThen test (some body) (some otherwise)),state⟩
        ⟨.sequence otherwise,next.inside .empty⟩
  | loopTested (test : Node) (body : List Node) (state : State) :
      Leads rounds ⟨.statement (.whileDo test (some body)),state⟩ ⟨.expression test,state⟩
  | loopBody (test : Node) (body : List Node) (state next : State)
      (holds : condition (state.enter rounds) test state = .ok true next) :
      Leads rounds ⟨.statement (.whileDo test (some body)),state⟩
        ⟨.sequence body,next.inside .empty⟩
  | loopAgain (test : Node) (body : List Node) (state next last : State)
      (holds : condition (state.enter rounds) test state = .ok true next)
      (round : Run.within .empty (executeAll rounds (state.enter rounds) body) next =
        .ok none last) :
      Leads rounds ⟨.statement (.whileDo test (some body)),state⟩
        ⟨.statement (.whileDo test (some body)),last⟩
  | collection (iterator : String) (collection : Node) (body : List Node) (state : State) :
      Leads rounds ⟨.statement (.forIn (.name iterator) collection (some body)),state⟩
        ⟨.expression collection,state⟩
  | iteration (iterator : String) (collection : Node) (body : List Node) (state next : State)
      (value : Value) (contexts : List Context)
      (found : evaluateResolved (state.enter rounds) collection state = .ok value next)
      (items : value.rounds? iterator = some contexts) :
      Leads rounds ⟨.statement (.forIn (.name iterator) collection (some body)),state⟩
        ⟨.iteration contexts body,next⟩
  | item (context : Context) (contexts : List Context) (body : List Node) (state : State) :
      Leads rounds ⟨.iteration (context :: contexts) body,state⟩
        ⟨.sequence body,state.inside context⟩
  | items (context : Context) (contexts : List Context) (body : List Node) (state next : State)
      (round : Run.within context (executeAll rounds (state.enter rounds) body) state =
        .ok none next) :
      Leads rounds ⟨.iteration (context :: contexts) body,state⟩ ⟨.iteration contexts body,next⟩
  | first (statement : Node) (rest : List Node) (state : State) :
      Leads rounds ⟨.sequence (statement :: rest),state⟩ ⟨.statement statement,state⟩
  | rest (statement : Node) (rest : List Node) (state next : State)
      (first : execute rounds (state.enter rounds) statement state = .ok none next) :
      Leads rounds ⟨.sequence (statement :: rest),state⟩ ⟨.sequence rest,next⟩

structure Script where
  keepGoing : Bool
  roots : List Node

namespace Script

def run (rounds : Nat) (script : Script) (state : State) : Option State :=
  if script.keepGoing then (interpretAll rounds script.roots state).map (·.2)
  else (interpret rounds script.roots state).map (·.2)

inductive Begins (rounds : Nat) (keepGoing : Bool) : List Node → State → Node → State → Prop
  | here (root : Node) (roots : List Node) (state : State) :
      Begins rounds keepGoing (root :: roots) state root state
  | later (root begun : Node) (roots : List Node) (state next before : State)
      (failure : Option Failure) (ran : runRoot rounds root state = some (failure,next))
      (goesOn : keepGoing = true ∨ failure = none)
      (after : Begins rounds keepGoing roots next begun before) :
      Begins rounds keepGoing (root :: roots) state begun before

end Script

namespace Session

inductive Begins (rounds : Nat) : List Script → State → Node → State → Prop
  | now (script : Script) (scripts : List Script) (state : State) (root : Node) (before : State)
      (begins : Script.Begins rounds script.keepGoing script.roots state root before) :
      Begins rounds (script :: scripts) state root before
  | later (script : Script) (scripts : List Script) (state next : State) (root : Node)
      (before : State) (ran : script.run rounds state = some next)
      (after : Begins rounds scripts next root before) :
      Begins rounds (script :: scripts) state root before

def Visits (rounds : Nat) (sink : Sink) (scripts : List Script) (visit : Visit) : Prop :=
  ∃ root before, Begins rounds scripts (.initial sink) root before ∧
    Relation.ReflTransGen (Leads rounds) ⟨.statement root,before.executing root⟩ visit

/-- The states between the statements of a session and inside of them. -/
def Reaches (rounds : Nat) (sink : Sink) (scripts : List Script) (state : State) : Prop :=
  ∃ visit, Visits rounds sink scripts visit ∧ (visit.state = state ∨ visit.EndsIn rounds state)

end Session

end BlockScript
