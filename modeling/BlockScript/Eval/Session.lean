import BlockScript.Eval.Execute

/-! Sessions: files run one after the other, root by root, on one state. A run has no result when a
loop took more rounds than it was given. -/
namespace BlockScript

/-- A root may neither fail nor return. -/
def Fault.ofReturn : Option Value → Option Fault
  | some value => some (.returnOutside value)
  | none => none

def runRoot (rounds : Nat) (root : Node) (state : State) : Option (Option Failure × State) :=
  let state := { state with log := .executing root :: state.log }
  let settle (fault : Option Fault) (state : State) : Option Failure × State :=
    match fault with
    | some fault => (some ⟨fault,root⟩,{ state with log := .failed fault :: state.log })
    | none => (none,state)
  match runStatement rounds root state with
  | .ok returned state => some (settle (Fault.ofReturn returned) state)
  | .error (.fault fault) state => some (settle (some fault) state)
  | .error .outOfRounds _ => none

def interpret (rounds : Nat) : List Node → State → Option (Option Failure × State)
  | [], state => some (none,state)
  | root :: roots, state =>
    match runRoot rounds root state with
    | none => none
    | some (some failure,state) => some (some failure,state)
    | some (none,state) => interpret rounds roots state

def interpretAll (rounds : Nat) : List Node → State → Option (List Failure × State)
  | [], state => some ([],state)
  | root :: roots, state =>
    match runRoot rounds root state with
    | none => none
    | some (failure,state) =>
      (interpretAll rounds roots state).map fun (failures,state) =>
        (failure.toList ++ failures,state)

end BlockScript
