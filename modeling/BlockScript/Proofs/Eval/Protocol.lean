import BlockScript.Proofs.Eval.Mentions
import BlockScript.Proofs.Eval.Upheld
import BlockScript.Proofs.Grammar.Calls
import Mathlib.Data.List.Forall2

/-! What a call checks, what the body of the function then finds, and what a refused call leaves
alone. -/
namespace BlockScript
open Run

/-- The argument names a variable or a handler of exactly the type of the parameter. -/
def Scope.Takes (caller : Scope) (parameter : TypedName) (argument : Node) : Prop :=
  ∃ given declared, argument = .name given ∧ caller.declared? given = some declared ∧
    declared.type? = some parameter.type

def lastType? (parameters : List TypedName) (name : String) : Option TypeName :=
  (parameters.reverse.find? fun parameter => name = parameter.name).map (·.type)

def Scope.lastValue? (caller : Scope) (parameters : List TypedName) (arguments : List Node)
    (name : String) : Option Value :=
  (parameters.zip arguments).reverse.findSome? fun (parameter,argument) =>
    if name = parameter.name then argument.name?.bind caller.value? else none

/-- The context declares the parameters and nothing else. All values are those that the arguments
have in the scope of the caller. -/
structure Context.Binds (context : Context) (caller : Scope) (parameters : List TypedName)
    (arguments : List Node) : Prop where
  declared : ∀ name, context.declared.find? name = (lastType? parameters name).map .typed
  values : ∀ name, context.values.find? name = caller.lastValue? parameters arguments name

namespace State

def returning (state : State) : State :=
  { state with scope := state.scope.pop, depth := state.depth - 1 }

def noting (function : Function) (state : State) : State :=
  { state with
    log := .called function.called function.parameters.length state.depth :: state.log }

end State

namespace Function

inductive Refuses (function : Function) (caller : Scope) (parameter : TypedName) :
    Node → Fault → Prop
  | notVariable (argument : Node) (apart : ∀ given, argument ≠ .name given) :
      Refuses function caller parameter argument (.argumentNotVariable function.called argument)
  | undeclared (given : String) (absent : caller.declared? given = none) :
      Refuses function caller parameter (.name given) (.undeclaredVariable given)
  | callable (given : String) (other : Function)
      (declares : caller.declared? given = some (.function other)) :
      Refuses function caller parameter (.name given) (.undeclaredVariable given)
  | mismatch (given : String) (declared : Declared) (found : TypeName)
      (declares : caller.declared? given = some declared) (typed : declared.type? = some found)
      (apart : found ≠ parameter.type) :
      Refuses function caller parameter (.name given)
        (.argumentMismatch function.called parameter found)

/-- The first thing that is wrong with a call: the number of arguments, the depth, or the first
argument that is refused. -/
inductive Rejects (function : Function) (caller : Scope) (depth : Nat) (arguments : List Node) :
    Fault → Prop
  | count (apart : arguments.length ≠ function.parameters.length) :
      Rejects function caller depth arguments
        (.argumentCount function.called arguments.length function.parameters.length)
  | depth (same : arguments.length = function.parameters.length) (deep : maxDepth ≤ depth) :
      Rejects function caller depth arguments (.depthExceeded function.called)
  | argument (front back : List TypedName) (parameter : TypedName) (given rest : List Node)
      (argument : Node) (fault : Fault) (same : arguments.length = function.parameters.length)
      (shallow : depth < maxDepth) (parameters : function.parameters = front ++ parameter :: back)
      (split : arguments = given ++ argument :: rest) (fine : List.Forall₂ caller.Takes front given)
      (refuses : function.Refuses caller parameter argument fault) :
      Rejects function caller depth arguments fault

variable (function : Function) {caller : Scope} {depth : Nat} {arguments : List Node}
  {context next : Context}

theorem bindArgument_of_takes (parameter : TypedName) (argument : Node)
    (takes : caller.Takes parameter argument) :
    ∃ next, function.bindArgument caller context parameter argument = .ok next := by
  obtain ⟨given,declared,rfl,declares,typed⟩ := takes
  have found : (caller.declared? given).bind Declared.type? = some parameter.type := by
    rw [declares]
    exact typed
  simp only [bindArgument,found]
  cases caller.value? given <;> simp

theorem refuses_of_bindArgument (parameter : TypedName) (argument : Node) (fault : Fault)
    (refused : function.bindArgument caller context parameter argument = .error fault) :
    function.Refuses caller parameter argument fault := by
  cases argument with
  | name given =>
    simp only [bindArgument] at refused
    cases declares : caller.declared? given with
    | none =>
      simp only [declares,Option.bind_none] at refused
      cases refused
      exact .undeclared given declares
    | some declared =>
      simp only [declares,Option.bind_some] at refused
      cases typed : declared.type? with
      | none =>
        simp only [typed] at refused
        cases refused
        cases declared with
        | function other => exact .callable given other declares
        | _ => contradiction
      | some found =>
        simp only [typed] at refused
        split at refused
        next apart =>
          cases refused
          exact .mismatch given declared found declares typed apart
        next => split at refused <;> contradiction
  | _ =>
    cases refused
    apply Refuses.notVariable
    intro given same
    cases same

theorem bindArguments_of_takes {parameters : List TypedName} {arguments : List Node}
    (takes : List.Forall₂ caller.Takes parameters arguments) (begun : Context) :
    ∃ context, function.bindArguments caller begun parameters arguments = .ok context := by
  induction takes generalizing begun with
  | nil => exact ⟨begun,rfl⟩
  | cons first _ ih =>
    obtain ⟨middle,step⟩ := function.bindArgument_of_takes _ _ first
    obtain ⟨context,rest⟩ := ih middle
    refine ⟨context,?_⟩
    rw [bindArguments,step]
    exact rest

theorem takes_of_bindArguments (parameters : List TypedName) (arguments : List Node)
    (same : arguments.length = parameters.length) (begun : Context)
    (bound : function.bindArguments caller begun parameters arguments = .ok context) :
    List.Forall₂ caller.Takes parameters arguments := by
  induction parameters generalizing arguments begun with
  | nil =>
    obtain rfl := List.length_eq_zero_iff.mp same
    exact .nil
  | cons parameter parameters ih =>
    cases arguments with
    | nil => contradiction
    | cons argument arguments =>
      rw [bindArguments] at bound
      split at bound
      next middle step =>
        obtain ⟨given,declared,named,declares,typed,_⟩ :=
          function.bindArgument_ok parameter argument step
        exact .cons ⟨given,declared,named,declares,typed⟩
          (ih arguments (Nat.succ.inj same) middle bound)
      next => contradiction

theorem refuses_of_bindArguments (parameters : List TypedName) (arguments : List Node)
    (begun : Context) (fault : Fault)
    (refused : function.bindArguments caller begun parameters arguments = .error fault) :
    ∃ front back parameter given rest argument, parameters = front ++ parameter :: back ∧
      arguments = given ++ argument :: rest ∧ List.Forall₂ caller.Takes front given ∧
        function.Refuses caller parameter argument fault := by
  induction parameters generalizing arguments begun with
  | nil => cases arguments <;> simp [bindArguments] at refused
  | cons parameter parameters ih =>
    cases arguments with
    | nil => simp [bindArguments] at refused
    | cons argument arguments =>
      rw [bindArguments] at refused
      split at refused
      next middle step =>
        obtain ⟨given,declared,named,declares,typed,_⟩ :=
          function.bindArgument_ok parameter argument step
        obtain ⟨front,back,other,before,rest,bad,rfl,rfl,fine,refuses⟩ :=
          ih arguments middle refused
        exact ⟨parameter :: front,back,other,argument :: before,rest,bad,rfl,rfl,
          .cons ⟨given,declared,named,declares,typed⟩ fine,refuses⟩
      next reason step =>
        cases refused
        exact ⟨[],parameters,parameter,[],arguments,argument,rfl,rfl,.nil,
          function.refuses_of_bindArgument parameter argument fault step⟩

/-- A call is accepted exactly if nothing is wrong with its arguments and there is room for it. -/
theorem accept_iff :
    (∃ context, function.accept caller depth arguments = .ok context) ↔
      arguments.length = function.parameters.length ∧ depth < maxDepth ∧
        List.Forall₂ caller.Takes function.parameters arguments := by
  constructor
  · rintro ⟨context,accepted⟩
    obtain ⟨same,shallow,bound⟩ := function.accept_ok accepted
    exact ⟨same,shallow,function.takes_of_bindArguments _ _ same .empty bound⟩
  · rintro ⟨same,shallow,takes⟩
    obtain ⟨context,bound⟩ := function.bindArguments_of_takes takes .empty
    refine ⟨context,?_⟩
    rw [accept,if_neg (not_not.mpr same),if_neg (Nat.not_le_of_lt shallow)]
    exact bound

theorem rejects_of_accept (fault : Fault)
    (rejected : function.accept caller depth arguments = .error fault) :
    function.Rejects caller depth arguments fault := by
  unfold accept at rejected
  split at rejected
  next apart =>
    cases rejected
    exact .count apart
  next counted =>
    have same := not_not.mp counted
    split at rejected
    next deep =>
      cases rejected
      exact .depth same deep
    next shallow =>
      obtain ⟨front,back,parameter,given,rest,argument,parameters,split,fine,refuses⟩ :=
        function.refuses_of_bindArguments _ _ .empty fault rejected
      exact .argument front back parameter given rest argument fault same
        (Nat.lt_of_not_le shallow) parameters split fine refuses

end Function

theorem lastType?_cons (parameter : TypedName) (parameters : List TypedName) (name : String) :
    lastType? (parameter :: parameters) name =
      (lastType? parameters name).or (if name = parameter.name then some parameter.type else none)
      := by
  unfold lastType?
  rw [List.reverse_cons,List.find?_append,List.find?_singleton]
  cases parameters.reverse.find? fun parameter => name = parameter.name with
  | some other => rfl
  | none => by_cases same : name = parameter.name <;> simp [same]

theorem Scope.lastValue?_cons (caller : Scope) (parameter : TypedName)
    (parameters : List TypedName) (argument : Node) (arguments : List Node) (name : String) :
    caller.lastValue? (parameter :: parameters) (argument :: arguments) name =
      (caller.lastValue? parameters arguments name).or
        (if name = parameter.name then argument.name?.bind caller.value? else none) := by
  unfold lastValue?
  rw [List.zip_cons_cons,List.reverse_cons,List.findSome?_append]
  simp

namespace Function

variable (function : Function) {caller : Scope} {depth : Nat} {arguments : List Node}
  {context next : Context}

theorem bindArgument_binds (parameter : TypedName) (argument : Node) (name : String)
    (bound : function.bindArgument caller context parameter argument = .ok next) :
    next.declared.find? name =
        (if name = parameter.name then some (.typed parameter.type)
          else context.declared.find? name) ∧
      next.values.find? name =
        (if name = parameter.name then argument.name?.bind caller.value? else none).or
          (context.values.find? name) := by
  obtain ⟨given,declared,rfl,_,_,rfl⟩ := function.bindArgument_ok parameter argument bound
  by_cases same : name = parameter.name
  · cases held : caller.value? given <;>
      simp [Context.declare,Context.bind,Node.name?,held,same]
  · cases held : caller.value? given <;>
      simp [Context.declare,Context.bind,Table.find?_insert,same]

theorem bindArguments_binds (parameters : List TypedName) (arguments : List Node)
    (same : arguments.length = parameters.length) (begun : Context)
    (bound : function.bindArguments caller begun parameters arguments = .ok context)
    (name : String) :
    context.declared.find? name =
        ((lastType? parameters name).map .typed).or (begun.declared.find? name) ∧
      context.values.find? name =
        (caller.lastValue? parameters arguments name).or (begun.values.find? name) := by
  induction parameters generalizing arguments begun with
  | nil =>
    obtain rfl := List.length_eq_zero_iff.mp same
    obtain rfl : begun = context := by simpa [bindArguments] using bound
    exact ⟨rfl,rfl⟩
  | cons parameter parameters ih =>
    cases arguments with
    | nil => contradiction
    | cons argument arguments =>
      rw [bindArguments] at bound
      split at bound
      next middle step =>
        obtain ⟨declared,values⟩ := ih arguments (Nat.succ.inj same) middle bound
        obtain ⟨declares,stores⟩ := function.bindArgument_binds parameter argument name step
        rw [lastType?_cons,caller.lastValue?_cons,Option.or_assoc,← stores]
        refine ⟨?_,values⟩
        rw [declared,declares]
        cases lastType? parameters name with
        | some type => rfl
        | none => by_cases here : name = parameter.name <;> simp [here]
      next => contradiction

theorem binds_of_accept (accepted : function.accept caller depth arguments = .ok context) :
    context.Binds caller function.parameters arguments := by
  obtain ⟨same,_,bound⟩ := function.accept_ok accepted
  have binds := function.bindArguments_binds _ _ same .empty bound
  constructor
  · intro name
    rw [(binds name).1]
    exact Option.or_none
  · intro name
    rw [(binds name).2]
    exact Option.or_none

def leave (function : Function) :
    EStateM.Result Halt State (Option Value) → EStateM.Result Halt State Value
  | .ok returned next => Run.lift (function.answer returned) next.returning
  | .error halt next => .error halt next.returning

theorem leave_ok (ended : EStateM.Result Halt State (Option Value)) (value : Value) (last : State)
    (left : function.leave ended = .ok value last) :
    value = .void ∨ value.conforms function.returns = true := by
  cases ended with
  | ok returned next => exact function.answer_ok returned value (ok_of_lift _ _ _ _ left)
  | error halt next => cases left

end Function

section
variable (enter : Enter) (called : String) (arguments : List Node) (state : State)
  (function : Function) (found : state.scope.declared? called = some (.function function))
include found

theorem call_found :
    call enter called arguments state =
      (do
        let context ← lift (function.accept state.scope state.depth arguments)
        let returned ← deeper (within context (enter function.body))
        lift (function.answer returned)) (state.noting function) := by
  have seen (next : State → Run Value) : (get >>= next) state = next state state := rfl
  unfold call
  rw [seen,found]
  rfl

theorem call_accepted (context : Context)
    (accepted : function.accept state.scope state.depth arguments = .ok context) :
    call enter called arguments state =
      function.leave (enter function.body (state.calling function context)) := by
  rw [call_found enter called arguments state function found,accepted]
  change (deeper (within context (enter function.body)) >>= fun returned =>
    lift (function.answer returned)) (state.noting function) = _
  cases ended : enter function.body (state.calling function context) with
  | ok returned next =>
    have ran : deeper (within context (enter function.body)) (state.noting function) =
        .ok returned next.returning := between_of_ok _ _ _ _ _ _ (between_of_ok _ _ _ _ _ _ ended)
    exact bind_of_ok _ _ _ _ _ ran
  | error halt next =>
    have ran : deeper (within context (enter function.body)) (state.noting function) =
        .error halt next.returning :=
          between_of_error _ _ _ _ _ _ (between_of_error _ _ _ _ _ _ ended)
    exact bind_of_error _ _ _ _ _ ran

theorem call_rejected (fault : Fault)
    (rejected : function.accept state.scope state.depth arguments = .error fault) :
    call enter called arguments state = .error (.fault fault) (state.noting function) := by
  rw [call_found enter called arguments state function found,rejected]
  rfl

end

/-- However bodies are run, the call runs the body of the function in the context, and nothing else
before and after it. -/
def Node.Enters (node : Node) (state : State) (function : Function) (context : Context) : Prop :=
  ∀ enter : Enter, evaluate enter node state =
    function.leave (enter function.body (state.calling function context))

/-- The body of a function is entered exactly in the context that the arguments make. -/
theorem enters_iff (node : Node) (called : String) (arguments : List Node) (state : State)
    (function : Function) (context : Context) (calls : node.calling? = some (called,arguments))
    (found : state.scope.declared? called = some (.function function)) :
    node.Enters state function context ↔
      function.accept state.scope state.depth arguments = .ok context := by
  constructor
  · intro enters
    have shown (enter : Enter) : call enter called arguments state =
        function.leave (enter function.body (state.calling function context)) := by
      rw [← evaluate_calling enter node called arguments calls]
      exact enters enter
    -- A body that leaves its context in place shows which one it was run in.
    let probe : Enter := fun _ seen => .error .outOfRounds (seen.inside .empty)
    cases accepted : function.accept state.scope state.depth arguments with
    | ok other =>
      have ran := call_accepted probe called arguments state function found other accepted
      injection ran.symm.trans (shown probe) with _ same
      have same : other = context := congrArg (fun last : State => last.scope.current) same
      rw [same]
    | error fault =>
      have ran := call_rejected probe called arguments state function found fault accepted
      cases ran.symm.trans (shown probe)
  · intro accepted enter
    rw [evaluate_calling _ node called arguments calls]
    exact call_accepted enter called arguments state function found context accepted

/-- Where there is room for a call its body is run one call deeper. -/
theorem State.enter_calling (rounds : Nat) (state : State) (function : Function)
    (context : Context) (shallow : state.depth < maxDepth) :
    state.enter rounds = executeAll rounds ((state.calling function context).enter rounds) := by
  have deeper : maxDepth - state.depth = maxDepth - (state.depth + 1) + 1 := by omega
  unfold State.enter
  rw [deeper]
  rfl

/-- A written call enters the function if nothing is wrong with it, and then the parameters have
the values that the arguments had. Otherwise the first thing that is wrong is all that happens. -/
theorem call_protocol (rounds : Nat) (tokens : List Token) (called : String)
    (arguments : List Node) (state : State) (function : Function) (stop : Grammar.Of .semicolon)
    (fileEnd : Grammar.Of .fileEnd) (written : Grammar.Call tokens called arguments)
    (found : state.scope.declared? called = some (.function function)) :
    ∃ node, Grammar.Expression 2 tokens node ∧
      build (tokens ++ [stop.val,fileEnd.val]) = ⟨[node],[]⟩ ∧
      ((∃ context, node.Enters state function context) ↔
        arguments.length = function.parameters.length ∧ state.depth < maxDepth ∧
          List.Forall₂ state.scope.Takes function.parameters arguments) ∧
      (∀ context, node.Enters state function context →
        context.Binds state.scope function.parameters arguments ∧
        evaluate (state.enter rounds) node state =
          function.leave (executeAll rounds ((state.calling function context).enter rounds)
            function.body (state.calling function context))) ∧
      ((¬∃ context, node.Enters state function context) →
        ∃ fault, function.Rejects state.scope state.depth arguments fault ∧
          ∀ enter, evaluate enter node state = .error (.fault fault) (state.noting function)) ∧
      ∀ enter value next, evaluate enter node state = .ok value next →
        value = .void ∨ value.conforms function.returns = true := by
  obtain ⟨node,expression,calls,built⟩ := written.build stop fileEnd
  have enters (context : Context) :=
    enters_iff node called arguments state function context calls found
  refine ⟨node,expression,built,?_,?_,?_,?_⟩
  · simp only [enters]
    exact function.accept_iff
  · intro context entered
    have accepted := (enters context).mp entered
    have shallow := (function.accept_ok accepted).2.1
    refine ⟨function.binds_of_accept accepted,?_⟩
    rw [entered (state.enter rounds),State.enter_calling rounds state function context shallow]
  · intro refused
    cases rejected : function.accept state.scope state.depth arguments with
    | ok context => exact (refused ⟨context,(enters context).mpr rejected⟩).elim
    | error fault =>
      refine ⟨fault,function.rejects_of_accept fault rejected,?_⟩
      intro enter
      rw [evaluate_calling _ node called arguments calls]
      exact call_rejected enter called arguments state function found fault rejected
  · intro enter value next ran
    rw [evaluate_calling _ node called arguments calls] at ran
    cases accepted : function.accept state.scope state.depth arguments with
    | ok context =>
      rw [call_accepted enter called arguments state function found context accepted] at ran
      exact function.leave_ok _ value next ran
    | error fault =>
      rw [call_rejected enter called arguments state function found fault accepted] at ran
      cases ran

/-- `f(b, a)` -/
def swapping : List Token :=
  [⟨.name,"f",⟨.start,.start⟩⟩,⟨.opening,"(",⟨.start,.start⟩⟩,⟨.name,"b",⟨.start,.start⟩⟩,
    ⟨.comma,",",⟨.start,.start⟩⟩,⟨.name,"a",⟨.start,.start⟩⟩,⟨.closing,")",⟨.start,.start⟩⟩]

/-- `int f(int a, int b) do put a; put b; done` -/
def swapped : Function :=
  ⟨"f",.int,[⟨"a",.int⟩,⟨"b",.int⟩],[.block [.put (.name "a"),.put (.name "b")]]⟩

/-- The function is declared, and `int a; a = 1; int b; b = 2;`. -/
def State.swapping : State :=
  { State.initial .unlimited with
    scope := ⟨⟨⟨[("f",.function swapped),("a",.typed .int),("b",.typed .int)]⟩,
      ⟨[("a",.int 1),("b",.int 2)]⟩⟩,[]⟩ }

/-- The parameters take the values of the variables with each other's name. -/
theorem swapping_protocol :
    Grammar.Call swapping "f" [.name "b",.name "a"] ∧
    State.swapping.scope.declared? "f" = some (.function swapped) ∧
    ∃ node context, build (swapping ++ [semicolon.val,.fileEnd .start]) = ⟨[node],[]⟩ ∧
      node.Enters .swapping swapped context ∧
      context.values.find? "a" = some (.int 2) ∧ context.values.find? "b" = some (.int 1) := by
  have written : Grammar.Call swapping "f" [.name "b",.name "a"] :=
    .given ⟨⟨.name,"f",⟨.start,.start⟩⟩,rfl⟩ ⟨⟨.opening,"(",⟨.start,.start⟩⟩,rfl⟩
      ⟨⟨.closing,")",⟨.start,.start⟩⟩,rfl⟩ _ _
      (.more _ _ _ _ ⟨⟨.comma,",",⟨.start,.start⟩⟩,rfl,rfl⟩
        (.one _ _ (.name 2 ⟨⟨.name,"b",⟨.start,.start⟩⟩,rfl⟩))
        (.name 2 ⟨⟨.name,"a",⟨.start,.start⟩⟩,rfl⟩))
  obtain ⟨node,_,built,enters,binds,_⟩ := call_protocol 0 swapping "f" [.name "b",.name "a"]
    .swapping swapped semicolon ⟨.fileEnd .start,rfl⟩ written rfl
  have takes : List.Forall₂ State.swapping.scope.Takes swapped.parameters
      [.name "b",.name "a"] :=
    .cons ⟨"b",.typed .int,rfl,rfl,rfl⟩ (.cons ⟨"a",.typed .int,rfl,rfl,rfl⟩ .nil)
  obtain ⟨context,entered⟩ := enters.mpr ⟨rfl,by decide,takes⟩
  obtain ⟨⟨_,values⟩,_⟩ := binds context entered
  exact ⟨written,rfl,node,context,built,entered,(values "a").trans rfl,(values "b").trans rfl⟩

end BlockScript
