import BlockScript.Eval.Table
import BlockScript.Eval.Value
import BlockScript.Tree.Basic

/-! Scopes: a chain of contexts, searched from the innermost to the global one. To declare a name
reserves no value for it; the first assignment stores one. -/
namespace BlockScript

structure Function where
  called : String
  returns : TypeName
  parameters : List TypedName
  body : List Node

inductive Declared
  | typed (type : TypeName)
  | function (function : Function)
  | handler

/-- The type that an assigned value is checked against; a function has none. -/
def Declared.type? : Declared → Option TypeName
  | typed type => some type
  | handler => some .systemHandler
  | function _ => none

structure Context where
  declared : Table Declared
  values : Table Value

namespace Context

def empty : Context := ⟨.empty,.empty⟩

def declare (context : Context) (name : String) (declared : Declared) : Context :=
  { context with declared := context.declared.insert name declared }

def bind (context : Context) (name : String) (value : Value) : Context :=
  { context with values := context.values.insert name value }

def owns (context : Context) (name : String) : Bool :=
  context.declared.contains name || context.values.contains name

def single (name : String) (type : TypeName) (value : Value) : Context :=
  (empty.declare name (.typed type)).bind name value

end Context

/-- The current context and the ones around it, innermost first. There is always a current one; at
the top level that is the global context. -/
structure Scope where
  current : Context
  outer : List Context

def bindOwner? (name : String) (value : Value) : List Context → Option (List Context)
  | [] => none
  | context :: outer =>
    if context.owns name then some (context.bind name value :: outer)
    else (bindOwner? name value outer).map (context :: ·)

namespace Scope

def initial : Scope := ⟨.empty,[]⟩

def contexts (scope : Scope) : List Context := scope.current :: scope.outer

def push (scope : Scope) (context : Context) : Scope := ⟨context,scope.contexts⟩

/-- The global context is never popped. -/
def pop (scope : Scope) : Scope :=
  match scope.outer with
  | context :: outer => ⟨context,outer⟩
  | [] => scope

def declare (scope : Scope) (name : String) (declared : Declared) : Scope :=
  { scope with current := scope.current.declare name declared }

def declared? (scope : Scope) (name : String) : Option Declared :=
  scope.contexts.findSome? fun context => context.declared.find? name

/-- The value in the innermost context that owns the name. A declaration without a value hides the
values farther out. -/
def value? (scope : Scope) (name : String) : Option Value :=
  (scope.contexts.find? fun context => context.owns name).bind fun context =>
    context.values.find? name

/-- Stores a value in the innermost context that owns the name, or in the current one if none
does. -/
def assign (scope : Scope) (name : String) (value : Value) : Scope :=
  match bindOwner? name value scope.contexts with
  | some (current :: outer) => ⟨current,outer⟩
  | _ => { scope with current := scope.current.bind name value }

@[simp] theorem pop_push (scope : Scope) (context : Context) :
    (scope.push context).pop = scope := rfl

end Scope

end BlockScript
