import BlockScript.Eval.Fault
import BlockScript.Eval.Handler
import BlockScript.Eval.Scope
import BlockScript.Eval.Sink

/-! The state of a session and the runs that change it. A run ends with a result, with a fault, or
because some loop took more rounds than it was given. -/
namespace BlockScript

inductive Event
  | executing (statement : Node)
  | failed (fault : Fault)
  | called (function : String) (arity depth : Nat)
  | handler (command : HandlerCommand) (name : String) (notice : HandlerNotice)

/-- The log holds the most recent event first. -/
structure State where
  scope : Scope
  depth : Nat
  sink : Sink
  handlers : Registry
  log : List Event

def State.initial (sink : Sink) : State := ⟨.initial,0,sink,.empty,[]⟩

inductive Halt
  | fault (fault : Fault)
  | outOfRounds

abbrev Run := EStateM Halt State

namespace Run

variable {α : Type}

def fail (fault : Fault) : Run α := throw (.fault fault)

def lift (result : Except Fault α) : Run α :=
  match result with
  | .ok value => pure value
  | .error fault => fail fault

def scope : Run Scope := do return (← get).scope

def record (event : Event) : Run Unit :=
  modify fun state => { state with log := event :: state.log }

def modifyScope (change : Scope → Scope) : Run Unit :=
  modify fun state => { state with scope := change state.scope }

/-- Changes the state before a run and changes it again after it, however the run ends. -/
def between (before after : State → State) (run : Run α) : Run α := fun state =>
  match run (before state) with
  | .ok value state => .ok value (after state)
  | .error halt state => .error halt (after state)

def within (context : Context) (run : Run α) : Run α :=
  between (fun state => { state with scope := state.scope.push context })
    (fun state => { state with scope := state.scope.pop }) run

def deeper (run : Run α) : Run α :=
  between (fun state => { state with depth := state.depth + 1 })
    (fun state => { state with depth := state.depth - 1 }) run

def write (text : String) : Run Unit := do
  let (fits,sink) := (← get).sink.write text
  modify fun state => { state with sink }
  if fits then pure () else fail .sinkFull

def command (command : HandlerCommand) (name : String) : Run Unit := do
  let (notice,handlers) := (← get).handlers.obey command name
  modify fun state => { state with handlers }
  record (.handler command name notice)

end Run

end BlockScript
