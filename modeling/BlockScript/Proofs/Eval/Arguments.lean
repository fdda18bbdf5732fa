import BlockScript.Eval.Evaluate

/-! The context of a call: what it takes from the caller and what it declares. -/
namespace BlockScript

structure Scope.AgreeOn (left right : Scope) (name : String) : Prop where
  declared : left.declared? name = right.declared? name
  value : left.value? name = right.value? name

namespace Context

theorem contains_declare (context : Context) (name other : String) (declared : Declared) :
    (context.declare name declared).declared.contains other = true ↔
      other = name ∨ context.declared.contains other = true := by
  by_cases same : other = name <;> simp [declare,Table.contains,Table.find?_insert,same]

def Plain (context : Context) : Prop :=
  ∀ name declared, context.declared.find? name = some declared → ∃ type, declared = .typed type

theorem plain_empty : empty.Plain := fun _ _ => nofun

theorem Plain.declare (context : Context) (plain : context.Plain) (name : String)
    (type : TypeName) : (context.declare name (.typed type)).Plain := by
  intro other declared found
  simp only [Context.declare,Table.find?_insert] at found
  split at found
  · exact ⟨type,(Option.some.inj found).symm⟩
  · exact plain other declared found

theorem plain_single (name : String) (type : TypeName) (value : Value) :
    (single name type value).Plain := plain_empty.declare empty name type

end Context

namespace Function

variable (function : Function) {caller : Scope} {depth : Nat} {arguments : List Node}
  {context next : Context}

theorem accept_ok (accepted : function.accept caller depth arguments = .ok context) :
    arguments.length = function.parameters.length ∧ depth < maxDepth ∧
      function.bindArguments caller .empty function.parameters arguments = .ok context := by
  unfold accept at accepted
  split at accepted
  · contradiction
  next counted =>
    split at accepted
    · contradiction
    next shallow => exact ⟨by simpa using counted,Nat.lt_of_not_le shallow,accepted⟩

/-- The argument is a variable of the caller that has the type of the parameter. -/
theorem bindArgument_ok (parameter : TypedName) (argument : Node)
    (bound : function.bindArgument caller context parameter argument = .ok next) :
    ∃ given declared, argument = .name given ∧ caller.declared? given = some declared ∧
      declared.type? = some parameter.type ∧
        next = match caller.value? given with
          | some value =>
            (context.declare parameter.name (.typed parameter.type)).bind parameter.name value
          | none => context.declare parameter.name (.typed parameter.type) := by
  cases argument with
  | name given =>
    simp only [bindArgument] at bound
    cases found : (caller.declared? given).bind Declared.type? with
    | none => simp [found] at bound
    | some type =>
      obtain ⟨declared,declares,typed⟩ := Option.bind_eq_some_iff.mp found
      simp only [found] at bound
      split at bound
      · contradiction
      next same =>
        obtain rfl : type = parameter.type := by simpa using same
        refine ⟨given,declared,rfl,declares,typed,?_⟩
        cases held : caller.value? given <;> simp only [held] at bound <;>
          exact (Except.ok.inj bound).symm
  | _ => contradiction

theorem bindArgument_declared (parameter : TypedName) (argument : Node)
    (bound : function.bindArgument caller context parameter argument = .ok next) :
    next.declared = context.declared.insert parameter.name (.typed parameter.type) := by
  obtain ⟨given,_,_,_,_,rfl⟩ := function.bindArgument_ok parameter argument bound
  split <;> rfl

/-- What survives each parameter survives all of them. -/
theorem bindArguments_holds (holds : Context → Prop)
    (kept : ∀ parameter argument before after, holds before →
      function.bindArgument caller before parameter argument = .ok after → holds after)
    (parameters : List TypedName) (arguments : List Node) (begun : Context)
    (bound : function.bindArguments caller begun parameters arguments = .ok context)
    (first : holds begun) : holds context := by
  induction parameters generalizing begun arguments with
  | nil =>
    obtain rfl : begun = context := by simpa [bindArguments] using bound
    exact first
  | cons parameter parameters ih =>
    cases arguments with
    | nil =>
      obtain rfl : begun = context := by simpa [bindArguments] using bound
      exact first
    | cons argument arguments =>
      simp only [bindArguments] at bound
      split at bound
      next middle step =>
        exact ih arguments middle bound (kept parameter argument begun middle first step)
      next => contradiction

/-- What an empty context has and every argument keeps, the context of a call has. -/
theorem accept_holds (holds : Context → Prop) (empty : holds .empty)
    (kept : ∀ parameter argument before after, holds before →
      function.bindArgument caller before parameter argument = .ok after → holds after)
    (accepted : function.accept caller depth arguments = .ok context) : holds context :=
  function.bindArguments_holds holds kept _ _ .empty
    (function.accept_ok accepted).2.2 empty

theorem plain_of_accept (accepted : function.accept caller depth arguments = .ok context) :
    context.Plain := by
  refine function.accept_holds Context.Plain Context.plain_empty ?_ accepted
  intro parameter argument before after plain bound
  have declared := function.bindArgument_declared parameter argument bound
  have kept := plain.declare before parameter.name parameter.type
  unfold Context.Plain at kept ⊢
  rwa [declared]

theorem declares_of_accept (accepted : function.accept caller depth arguments = .ok context)
    (parameter : TypedName) (member : parameter ∈ function.parameters) :
    context.declared.contains parameter.name = true := by
  have declares (name : String) (argument : Node) (other : TypedName) (before after : Context)
      (step : function.bindArgument caller before other argument = .ok after) :
      after.declared.contains name = true ↔
        name = other.name ∨ before.declared.contains name = true := by
    rw [function.bindArgument_declared other argument step]
    exact before.contains_declare other.name name _
  obtain ⟨counted,_,bound⟩ := function.accept_ok accepted
  clear accepted
  generalize function.parameters = parameters, Context.empty = begun at counted bound member
  induction parameters generalizing begun arguments with
  | nil => contradiction
  | cons other parameters ih =>
    cases arguments with
    | nil => contradiction
    | cons argument arguments =>
      simp only [bindArguments] at bound
      split at bound
      next middle step =>
        obtain rfl | member := List.mem_cons.mp member
        · refine function.bindArguments_holds (·.declared.contains parameter.name = true) ?_
            parameters arguments middle bound ?_
          · intro another argument before after held step
            exact (declares _ argument another before after step).mpr (.inr held)
          · exact (declares _ argument parameter begun middle step).mpr (.inl rfl)
        · exact ih middle (by simpa using counted) bound member
      next => contradiction

/-- A call depends on its caller only by the variables that are its arguments. -/
theorem accept_congr (left right : Scope) (depth : Nat) (arguments : List Node)
    (agree : ∀ name, .name name ∈ arguments → left.AgreeOn right name) :
    function.accept left depth arguments = function.accept right depth arguments := by
  have same (parameters : List TypedName) (context : Context) :
      function.bindArguments left context parameters arguments =
        function.bindArguments right context parameters arguments := by
    induction arguments generalizing parameters context with
    | nil => cases parameters <;> rfl
    | cons argument arguments ih =>
      cases parameters with
      | nil => rfl
      | cons parameter parameters =>
        have here : function.bindArgument left context parameter argument =
            function.bindArgument right context parameter argument := by
          cases argument with
          | name given =>
            have looked := agree given List.mem_cons_self
            simp only [bindArgument,looked.declared,looked.value]
          | _ => rfl
        have rest := ih fun name member => agree name (List.mem_cons_of_mem argument member)
        simp only [bindArguments,here,rest]
  unfold accept
  rw [same]

end Function

end BlockScript
