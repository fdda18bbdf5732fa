import BlockScript.Proofs.Eval.Reached

/-! Declarations and values. No step of a session stores a value where its name is not declared, and
so a name is declared, read and written in one and the same context. -/
namespace BlockScript
open Run

/-- Neither a name that is still to be looked up nor void. -/
def Value.isData : Value → Bool
  | int _ | real _ | string _ => true
  | name _ | void => false

theorem Value.isData_of_conforms (value : Value) (type : TypeName)
    (conforms : value.conforms type = true) : value.isData = true := by
  cases value <;> first | rfl | simp [Value.conforms] at conforms

namespace Context

def Accounted (context : Context) : Prop :=
  ∀ name value, context.values.find? name = some value →
    context.declared.contains name = true ∧ value.isData = true

theorem accounted_empty : empty.Accounted := fun _ _ => nofun

theorem Accounted.declare (context : Context) (accounted : context.Accounted) (name : String)
    (declared : Declared) : (context.declare name declared).Accounted := by
  intro other value held
  obtain ⟨here,data⟩ := accounted other value held
  exact ⟨(context.contains_declare name other declared).mpr (.inr here),data⟩

theorem Accounted.bind (context : Context) (accounted : context.Accounted) (name : String)
    (value : Value) (declares : context.declared.contains name = true)
    (data : value.isData = true) : (context.bind name value).Accounted := by
  intro other held found
  simp only [Context.bind,Table.find?_insert] at found
  split at found
  next same =>
    subst same
    obtain rfl := Option.some.inj found
    exact ⟨declares,data⟩
  next => exact accounted other held found

theorem Accounted.declares (context : Context) (accounted : context.Accounted) (name : String)
    (owns : context.owns name = true) : context.declared.contains name = true := by
  simp only [Context.owns,Bool.or_eq_true] at owns
  rcases owns with declares | holds
  · exact declares
  · obtain ⟨value,held⟩ := Option.isSome_iff_exists.mp holds
    exact (accounted name value held).1

theorem accounted_single (name : String) (type : TypeName) (value : Value)
    (data : value.isData = true) : (single name type value).Accounted :=
  (accounted_empty.declare empty name (.typed type)).bind _ name value
    ((empty.contains_declare name name _).mpr (.inl rfl)) data

end Context

namespace Scope

/-- The innermost context that owns the name also declares it, and there the name is looked up,
read and written. -/
structure Selects (scope : Scope) (name : String) (inner : List Context) (context : Context)
    (outer : List Context) : Prop extends Owner scope name inner context outer where
  declares : context.declared.contains name = true
  declared : scope.declared? name = context.declared.find? name
  value : scope.value? name = context.values.find? name
  assigned : ∀ value,
    (scope.assign name value).contexts = inner ++ context.bind name value :: outer

variable {scope : Scope} (all : scope.All Context.Accounted)
include all

theorem selects_of_owner {name : String} {inner outer : List Context} {context : Context}
    (owner : Owner scope name inner context outer) : Selects scope name inner context outer := by
  have accounted := all context (by simp [owner.split])
  have declares := accounted.declares context name owner.owns
  obtain ⟨declared,found⟩ := Option.isSome_iff_exists.mp declares
  refine ⟨owner,declares,?_,owner.value?,owner.assigned⟩
  rw [owner.declared? declared found,found]

theorem selects_of_declared (name : String) (declared : (scope.declared? name).isSome = true) :
    ∃ inner context outer, Selects scope name inner context outer := by
  obtain ⟨inner,context,outer,owner⟩ := scope.owner_of_declared name declared
  exact ⟨inner,context,outer,selects_of_owner all owner⟩

theorem isData_of_value? (name : String) (value : Value) (held : scope.value? name = some value) :
    value.isData = true := by
  obtain ⟨context,found,held⟩ := Option.bind_eq_some_iff.mp held
  exact (all context (List.mem_of_find?_eq_some found) name value held).2

theorem accounted_assign (name : String) (value : Value)
    (declared : (scope.declared? name).isSome = true) (data : value.isData = true) :
    (scope.assign name value).All Context.Accounted := by
  obtain ⟨inner,context,outer,owner⟩ := scope.owner_of_declared name declared
  have here := all context (by simp [owner.split])
  exact Scope.All.assign _ scope all owner value
    (here.bind context name value (here.declares context name owner.owns) data)

end Scope

theorem Function.accounted_of_accept (function : Function) (caller : Scope)
    (all : caller.All Context.Accounted) (depth : Nat) (arguments : List Node) (context : Context)
    (accepted : function.accept caller depth arguments = .ok context) : context.Accounted := by
  refine function.accept_holds Context.Accounted Context.accounted_empty ?_ accepted
  intro parameter argument before after accounted bound
  obtain ⟨given,_,_,_,_,rfl⟩ := function.bindArgument_ok parameter argument bound
  have declared := accounted.declare before parameter.name (.typed parameter.type)
  split
  next value held =>
    exact declared.bind _ parameter.name value
      ((before.contains_declare parameter.name parameter.name _).mpr (.inl rfl))
      (Scope.isData_of_value? all given value held)
  next => exact declared

/-- All that a session does to a context keeps the values declared and keeps them data. -/
theorem upheld_accounted (rounds : Nat) : Upheld rounds Context.Accounted fun _ => True where
  empty := Context.accounted_empty
  item := by
    intro value iterator contexts items context member
    obtain ⟨type,item,rfl,conforms⟩ :=
      value.single_of_rounds iterator contexts items context member
    exact Context.accounted_single iterator type item (item.isData_of_conforms type conforms)
  stored := by
    intro scope name declared type value all found _ conforms
    exact scope.accounted_assign all name value (by rw [found]; rfl)
      (value.isData_of_conforms type conforms)
  declared := by
    intro node name declared state _ _ all
    exact (all state.scope.current List.mem_cons_self).declare _ name declared
  accepted := by
    intro node called arguments state function context _ _ _ accepted all
    exact function.accounted_of_accept state.scope all state.depth arguments context accepted

theorem resolve_ok (value result : Value) (state next : State)
    (ran : resolve value state = .ok result next) :
    next = state ∧ ((∃ text, value = .name text ∧ state.scope.value? text = some result) ∨
      value = result ∧ ∀ text, value ≠ .name text) := by
  cases value with
  | name text =>
    simp only [resolve,scope_bind] at ran
    cases held : state.scope.value? text with
    | some found =>
      rw [held] at ran
      cases ran
      exact ⟨rfl,.inl ⟨text,rfl,held⟩⟩
    | none =>
      simp only [held] at ran
      split at ran <;> contradiction
  | int | real | string | void =>
    cases ran
    exact ⟨rfl,.inr ⟨rfl,nofun⟩⟩

theorem store_ok (name : String) (type : TypeName) (value result : Value) (state next : State)
    (ran : store name type value state = .ok result next) :
    result = value ∧ next = { state with scope := state.scope.assign name value } := by
  unfold store at ran
  split at ran
  · cases ran
    exact ⟨rfl,rfl⟩
  · contradiction

section
variable {rounds : Nat} {state : State} (all : state.scope.All Context.Accounted)
include all

theorem accounted_resolved (node : Node) (value : Value) (next : State)
    (ran : evaluateResolved (state.enter rounds) node state = .ok value next) :
    next.scope.All Context.Accounted :=
  (upheld_accounted rounds).after_resolved ran (fun _ _ => trivial) all

theorem resolved_not_name (node : Node) (value : Value) (next : State)
    (ran : evaluateResolved (state.enter rounds) node state = .ok value next) (text : String) :
    value ≠ .name text := by
  obtain ⟨found,middle,evaluated,resolved⟩ := ok_of_bind _ _ _ _ _ ran
  have held := (upheld_accounted rounds).after_evaluate evaluated (fun _ _ => trivial) all
  obtain ⟨_,⟨given,_,stored⟩ | ⟨rfl,plain⟩⟩ := resolve_ok found value middle next resolved
  · have data := middle.scope.isData_of_value? held given value stored
    rintro rfl
    contradiction
  · exact plain text

/-- An assignment that succeeds writes the value of its right side where that side leaves the name
declared. -/
theorem assign_selects (name : String) (value : Node) (result : Value) (last : State)
    (ran : evaluate (state.enter rounds) (.assign (.name name) value) state = .ok result last) :
    ∃ next inner context outer, evaluateResolved (state.enter rounds) value state = .ok result next ∧
      next.scope.Selects name inner context outer ∧
        last = { next with scope := next.scope.assign name result } := by
  obtain ⟨type,begun,target,ran⟩ := ok_of_bind _ _ _ _ _ ran
  obtain ⟨rfl,declared,found,_⟩ := targetType_ok name state begun type target
  obtain ⟨held,next,resolved,ran⟩ := ok_of_bind _ _ _ _ _ ran
  obtain ⟨rfl,rfl⟩ := store_ok name type held result next last ran
  have declares : (next.scope.declared? name).isSome = true := by
    rw [declared_evaluateResolved value begun next _ resolved name,found]
    rfl
  obtain ⟨inner,context,outer,selects⟩ :=
    next.scope.selects_of_declared (accounted_resolved all value _ next resolved) name declares
  exact ⟨next,inner,context,outer,resolved,selects,rfl⟩

end

/-- In every state of a session each stored value is data and is held where its name is declared.
A name that is owned at all is looked up, read and written in one and the same context, an
assignment that succeeds writes to such a context, and no expression resolves to a name. -/
theorem values_accounted (rounds : Nat) (sink : Sink) (scripts : List Script) (state : State)
    (reached : Session.Reaches rounds sink scripts state) :
    state.scope.All Context.Accounted ∧
    (∀ name, (∃ inner context outer, state.scope.Selects name inner context outer) ∨
      ∀ context ∈ state.scope.contexts, context.owns name = false) ∧
    (∀ name value result last,
      evaluate (state.enter rounds) (.assign (.name name) value) state = .ok result last →
        ∃ next inner context outer,
          evaluateResolved (state.enter rounds) value state = .ok result next ∧
          next.scope.Selects name inner context outer ∧
          last = { next with scope := next.scope.assign name result }) ∧
    ∀ node value next, evaluateResolved (state.enter rounds) node state = .ok value next →
      ∀ text, value ≠ .name text := by
  have all := (upheld_accounted rounds).reaches (fun _ _ => trivial) reached
  refine ⟨all,?_,assign_selects all,resolved_not_name all⟩
  intro name
  refine (state.scope.owner_or_none name).imp_left ?_
  rintro ⟨inner,context,outer,owner⟩
  exact ⟨inner,context,outer,state.scope.selects_of_owner all owner⟩

/-- `int x; x = 5; int f(int a) do a = a + 1; ret a; done for i in 2 do f(x); done` -/
def counting : Script :=
  ⟨false,[.typed ⟨"x",.int⟩,.assign (.name "x") (.int 5),
    .function "f" .int [⟨"a",.int⟩] [.block
      [.assign (.name "a") (.arithmetic .plus (.name "a") (.int 1)),.ret (.name "a")]],
    .forIn (.name "i") (.int 2) (some [.call "f" (.lastArgument (.name "x"))])]⟩

/-- In the call inside of the loop. -/
theorem counting_accounted :
    ∃ state, Session.Reaches 1 .unlimited [counting] state ∧ state.depth = 1 ∧
      state.scope.contexts.length = 3 ∧ state.scope.value? "a" = some (.int 5) ∧
      state.scope.All Context.Accounted := by
  have begins : Session.Begins 1 [counting] (.initial .unlimited)
      (.forIn (.name "i") (.int 2) (some [.call "f" (.lastArgument (.name "x"))])) _ :=
    .now _ _ _ _ _ (.later _ _ _ _ _ _ none rfl (.inr rfl)
      (.later _ _ _ _ _ _ none rfl (.inr rfl) (.later _ _ _ _ _ _ none rfl (.inr rfl)
        (.here _ _ _))))
  have looped (node : Node) (plain : node.isStatement = false) (before : State) :
      Relation.ReflTransGen (Leads 1) ⟨.statement (.forIn (.name "i") (.int 2) (some [node])),before⟩
        ⟨.expression node,before.inside (.single "i" .int (.int 0))⟩ :=
    .tail (.tail (.tail (.single (.iteration "i" (.int 2) _ before before (.int 2) _ rfl rfl))
      (.item _ _ _ before)) (.first _ _ _)) (.evaluated _ _ plain)
  have reached : Session.Reaches 1 .unlimited [counting] _ :=
    ⟨_,⟨_,_,begins,(looped _ rfl _).tail (.call _ "f" _ _ _ _ rfl rfl rfl)⟩,.inl rfl⟩
  exact ⟨_,reached,rfl,rfl,rfl,(values_accounted 1 .unlimited [counting] _ reached).1⟩

end BlockScript
