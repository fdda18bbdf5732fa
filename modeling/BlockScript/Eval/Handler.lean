import BlockScript.Eval.Table

/-! System handlers: a registry of the ones that were ever started. -/
namespace BlockScript

inductive HandlerState
  | running
  | stopped
deriving DecidableEq

inductive HandlerCommand
  | start
  | stop
deriving DecidableEq

inductive HandlerNotice
  | started
  | alreadyRunning
  | stopped
  | alreadyStopped
  | neverStarted
deriving DecidableEq

namespace HandlerNotice

def isWarning : HandlerNotice → Bool
  | started | stopped => false
  | alreadyRunning | alreadyStopped | neverStarted => true

def stateAfter : HandlerNotice → Option HandlerState
  | started | alreadyRunning => some .running
  | stopped | alreadyStopped => some .stopped
  | neverStarted => none

def message : HandlerNotice → String
  | started => "started"
  | alreadyRunning => "already running"
  | stopped => "stopped"
  | alreadyStopped => "already stopped"
  | neverStarted => "stop requested before start"

end HandlerNotice

structure Registry where
  states : Table HandlerState

namespace Registry

def empty : Registry := ⟨.empty⟩

def state? (registry : Registry) (name : String) : Option HandlerState := registry.states.find? name

def obey (registry : Registry) (command : HandlerCommand) (name : String) :
    HandlerNotice × Registry :=
  match command, registry.state? name with
  | .start, some .running => (.alreadyRunning,⟨registry.states.insert name .running⟩)
  | .start, _ => (.started,⟨registry.states.insert name .running⟩)
  | .stop, some .running => (.stopped,⟨registry.states.insert name .stopped⟩)
  | .stop, some .stopped => (.alreadyStopped,registry)
  | .stop, none => (.neverStarted,registry)

/-- A notice tells the state that the registry then shows. -/
theorem state?_obey (registry : Registry) (command : HandlerCommand) (name : String) :
    (registry.obey command name).2.state? name = (registry.obey command name).1.stateAfter := by
  unfold obey
  split <;> simp_all [state?,HandlerNotice.stateAfter]

end Registry

end BlockScript
