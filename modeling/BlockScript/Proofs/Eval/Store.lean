import BlockScript.Proofs.Eval.Reached

/-! The types of stored values. The type of a variable is checked where a value is assigned to it
and where an argument is passed, but a declaration keeps whatever value the name already has. -/
namespace BlockScript

theorem Value.conforms_typed {value : Value} {declared : Declared} {type : TypeName}
    (typed : declared.type? = some type) (conforms : value.conforms type = true) :
    declared = .typed type := by
  cases declared with
  | typed other =>
    obtain rfl := Option.some.inj typed
    rfl
  | function function => contradiction
  | handler =>
    obtain rfl := Option.some.inj typed
    cases value <;> contradiction

namespace Context

def Sound (context : Context) : Prop :=
  ∀ name value, context.values.find? name = some value →
    ∃ type, context.declared.find? name = some (.typed type) ∧ value.conforms type = true

theorem Sound.bind (context : Context) (sound : context.Sound) (name : String) (type : TypeName)
    (value : Value) (declared : context.declared.find? name = some (.typed type))
    (conforms : value.conforms type = true) : (context.bind name value).Sound := by
  intro other held found
  simp only [Context.bind,Table.find?_insert] at found
  split at found
  next same =>
    obtain rfl := same
    obtain rfl := Option.some.inj found
    exact ⟨type,declared,conforms⟩
  next => exact sound other held found

theorem Sound.find?_declared (context : Context) (sound : context.Sound) (name : String)
    (owned : context.owns name = true) : ∃ declared, context.declared.find? name = some declared := by
  simp only [owns,Table.contains,Bool.or_eq_true] at owned
  rcases owned with owned | owned
  · exact Option.isSome_iff_exists.mp owned
  · obtain ⟨value,held⟩ := Option.isSome_iff_exists.mp owned
    obtain ⟨type,declared,_⟩ := sound name value held
    exact ⟨_,declared⟩

/-- What the context holds for the name may stay when the name is declared. -/
def Admits (context : Context) (name : String) (declared : Declared) : Prop :=
  ∀ value, context.values.find? name = some value →
    ∃ type, declared = .typed type ∧ value.conforms type = true

theorem sound_declare_iff (context : Context) (sound : context.Sound) (name : String)
    (declared : Declared) : (context.declare name declared).Sound ↔ context.Admits name declared := by
  constructor
  · intro kept value held
    obtain ⟨type,found,conforms⟩ := kept name value held
    refine ⟨type,?_,conforms⟩
    simpa [Context.declare] using found
  · intro admits other value held
    by_cases same : other = name
    · obtain rfl := same
      obtain ⟨type,rfl,conforms⟩ := admits value held
      exact ⟨type,by simp [Context.declare],conforms⟩
    · obtain ⟨type,found,conforms⟩ := sound other value held
      refine ⟨type,?_,conforms⟩
      simp only [Context.declare]
      rwa [Table.find?_insert_of_ne _ _ same]

theorem sound_empty : empty.Sound := by
  intro name value held
  simp [empty] at held

theorem sound_single (name : String) (type : TypeName) (value : Value)
    (conforms : value.conforms type = true) : (single name type value).Sound := by
  have declared : (empty.declare name (.typed type)).Sound :=
    (sound_declare_iff empty sound_empty name _).mpr fun _ held => by simp [empty] at held
  exact declared.bind _ name type value (by simp [declare]) conforms

end Context

namespace Scope

theorem sound_assign (scope : Scope) (name : String) (declared : Declared) (type : TypeName)
    (value : Value) (sound : scope.All Context.Sound)
    (found : scope.declared? name = some declared) (typed : declared.type? = some type)
    (conforms : value.conforms type = true) : (scope.assign name value).All Context.Sound := by
  obtain ⟨inner,context,outer,owner⟩ := scope.owner_of_declared name (by rw [found]; rfl)
  have here := sound context (by simp [owner.split])
  obtain ⟨first,declares⟩ := here.find?_declared context name owner.owns
  obtain rfl : first = declared := by
    rw [owner.declared? first declares] at found
    exact Option.some.inj found
  obtain rfl := Value.conforms_typed typed conforms
  exact Scope.All.assign _ scope sound owner value
    (here.bind context name type value declares conforms)

theorem conforms_value? (scope : Scope) (name : String) (declared : Declared) (value : Value)
    (sound : scope.All Context.Sound) (found : scope.declared? name = some declared)
    (held : scope.value? name = some value) :
    ∃ type, declared = .typed type ∧ value.conforms type = true := by
  obtain ⟨inner,context,outer,owner⟩ := scope.owner_of_declared name (by rw [found]; rfl)
  rw [owner.value?] at held
  obtain ⟨type,declares,conforms⟩ := sound context (by simp [owner.split]) name value held
  rw [owner.declared? _ declares] at found
  exact ⟨type,(Option.some.inj found).symm,conforms⟩

end Scope

namespace Function

/-- No parameter that was given no value takes over the value of an earlier one of the same name,
unless that value may stay. -/
def Admits (function : Function) (caller : Scope) (arguments : List Node) (context : Context) :
    Prop :=
  ∀ parameter given, (parameter,Node.name given) ∈ function.parameters.zip arguments →
    caller.value? given = none → ∀ value, context.values.find? parameter.name = some value →
      ∃ type, context.declared.find? parameter.name = some (.typed type) ∧
        value.conforms type = true

/-- The context of a call after some of its arguments: a value that does not conform was left
behind by a parameter that was given none. -/
def Bound (caller : Scope) (taken : List (TypedName × Node)) (context : Context) : Prop :=
  ∀ name value, context.values.find? name = some value →
    ∃ type, context.declared.find? name = some (.typed type) ∧
      (value.conforms type = true ∨ ∃ parameter given, (parameter,Node.name given) ∈ taken ∧
        parameter.name = name ∧ caller.value? given = none)

theorem Bound.step (function : Function) (caller : Scope) (sound : caller.All Context.Sound)
    (taken : List (TypedName × Node)) (context next : Context) (parameter : TypedName)
    (argument : Node) (bound : Bound caller taken context)
    (ran : function.bindArgument caller context parameter argument = .ok next) :
    Bound caller (taken ++ [(parameter,argument)]) next := by
  obtain ⟨given,declared,rfl,declares,typed,made⟩ :=
    function.bindArgument_ok parameter argument ran
  have kept (other : String) (value : Value) (apart : other ≠ parameter.name)
      (held : context.values.find? other = some value) :
      ∃ type, (context.declare parameter.name (.typed parameter.type)).declared.find? other =
          some (.typed type) ∧
        (value.conforms type = true ∨ ∃ earlier name, (earlier,Node.name name) ∈
          taken ++ [(parameter,.name given)] ∧ earlier.name = other ∧
            caller.value? name = none) := by
    obtain ⟨type,found,fine⟩ := bound other value held
    refine ⟨type,?_,?_⟩
    · simp only [Context.declare]
      rwa [Table.find?_insert_of_ne _ _ apart]
    · rcases fine with conforms | ⟨earlier,name,member,same,absent⟩
      · exact .inl conforms
      · exact .inr ⟨earlier,name,List.mem_append_left _ member,same,absent⟩
  intro other value held
  cases passed : caller.value? given with
  | some argument =>
    rw [passed] at made
    subst made
    by_cases same : other = parameter.name
    · subst same
      obtain ⟨type,rfl,conforms⟩ :=
        caller.conforms_value? given declared argument sound declares passed
      obtain rfl := Option.some.inj typed
      obtain rfl : argument = value := by simpa [Context.bind] using held
      exact ⟨_,by simp [Context.bind,Context.declare],.inl conforms⟩
    · refine kept other value same ?_
      simpa [Context.bind,Context.declare,Table.find?_insert_of_ne _ _ same] using held
  | none =>
    rw [passed] at made
    subst made
    by_cases same : other = parameter.name
    · subst same
      exact ⟨parameter.type,by simp [Context.declare],
        .inr ⟨parameter,given,by simp,rfl,passed⟩⟩
    · exact kept other value same held

theorem Bound.arguments (function : Function) (caller : Scope) (sound : caller.All Context.Sound)
    (parameters : List TypedName) (arguments : List Node) (taken : List (TypedName × Node))
    (context next : Context) (bound : Bound caller taken context)
    (ran : function.bindArguments caller context parameters arguments = .ok next) :
    Bound caller (taken ++ parameters.zip arguments) next := by
  induction parameters generalizing arguments taken context with
  | nil =>
    obtain rfl : context = next := by simpa [bindArguments] using ran
    simpa using bound
  | cons parameter parameters ih =>
    cases arguments with
    | nil =>
      obtain rfl : context = next := by simpa [bindArguments] using ran
      simpa using bound
    | cons argument arguments =>
      simp only [bindArguments] at ran
      split at ran
      next middle first =>
        have step := bound.step function caller sound taken context middle parameter argument first
        have all := ih arguments (taken ++ [(parameter,argument)]) middle step ran
        simpa using all
      next => contradiction

/-- The context of a call is sound exactly if no parameter without a value takes over one that does
not conform. -/
theorem sound_accept_iff (function : Function) (caller : Scope) (depth : Nat)
    (arguments : List Node) (context : Context) (sound : caller.All Context.Sound)
    (accepted : function.accept caller depth arguments = .ok context) :
    context.Sound ↔ function.Admits caller arguments context := by
  have ran := (function.accept_ok accepted).2.2
  have begun : Bound caller [] .empty := by
    intro name value held
    simp [Context.empty] at held
  have bound := Bound.arguments function caller sound function.parameters arguments [] .empty context
    begun ran
  constructor
  · intro held parameter given _ _ value found
    exact held parameter.name value found
  · intro admits name value found
    obtain ⟨type,declared,conforms | ⟨parameter,given,member,rfl,absent⟩⟩ := bound name value found
    · exact ⟨type,declared,conforms⟩
    · exact admits parameter given (by simpa using member) absent value found

end Function

/-- The declarations that a visit makes itself let the values stay that they find. -/
def Visit.Fits (visit : Visit) : Prop :=
  match visit.task with
  | .statement node => ∀ name declared, node.declares? = some (name,declared) →
      visit.state.scope.current.Admits name declared
  | .expression node => ∀ called arguments function context,
      node.calling? = some (called,arguments) →
        visit.state.scope.declared? called = some (.function function) →
          function.accept visit.state.scope visit.state.depth arguments = .ok context →
            function.Admits visit.state.scope arguments context
  | _ => True

/-- Declarations that let their values stay are all that soundness needs. -/
theorem upheld_sound (rounds : Nat) : Upheld rounds Context.Sound Visit.Fits where
  empty := Context.sound_empty
  item := by
    intro value iterator contexts items context member
    obtain ⟨type,item,rfl,conforms⟩ :=
      value.single_of_rounds iterator contexts items context member
    exact Context.sound_single iterator type item conforms
  stored := fun scope name declared type value sound found typed conforms =>
    scope.sound_assign name declared type value sound found typed conforms
  declared := by
    intro node name declared state fits declares sound
    have here : state.scope.current.Sound := sound _ List.mem_cons_self
    exact (Context.sound_declare_iff _ here name declared).mpr (fits name declared declares)
  accepted := by
    intro node called arguments state function context fits calls declared accepted sound
    exact (function.sound_accept_iff state.scope state.depth arguments context sound accepted).mpr
      (fits called arguments function context calls declared accepted)

/-- The values that a session stores conform to the types of their variables, in every context and
at every moment, exactly if no declaration of it takes over a value that does not conform. -/
theorem store_sound_iff (rounds : Nat) (sink : Sink) (scripts : List Script) :
    (∀ state, Session.Reaches rounds sink scripts state → state.scope.All Context.Sound) ↔
      ∀ visit, Session.Visits rounds sink scripts visit → visit.Fits := by
  constructor
  · intro sound visit visits
    have here := sound visit.state ⟨visit,visits,.inl rfl⟩
    obtain ⟨task,state⟩ := visit
    cases task with
    | statement node =>
      intro name declared declares
      have ended : Visit.EndsIn rounds ⟨.statement node,state⟩
          { state with scope := state.scope.declare name declared } := by
        refine .inl ?_
        simp only [Task.run]
        rw [execute_declares _ rounds node name declared declares]
        rfl
      have kept := sound _ ⟨_,visits,.inr ended⟩
      exact (Context.sound_declare_iff _ (here _ List.mem_cons_self) name declared).mp
        (kept _ List.mem_cons_self)
    | expression node =>
      intro called arguments function context calls declared accepted
      obtain ⟨root,before,begins,within⟩ := visits
      have leads : Leads rounds _ _ :=
        .call node called arguments state function context calls declared accepted
      have kept := sound _ ⟨_,⟨root,before,begins,within.tail leads⟩,.inl rfl⟩
      exact (function.sound_accept_iff state.scope state.depth arguments context here accepted).mp
        (kept context List.mem_cons_self)
    | sequence | iteration => trivial
  · intro fits state reached
    exact (upheld_sound rounds).reaches fits reached

/-- `int x; x = 5; string x;` -/
def redeclaring : Script :=
  ⟨false,[.typed ⟨"x",.int⟩,.assign (.name "x") (.int 5),.typed ⟨"x",.string⟩]⟩

/-- `int f(int a, string a) do done int x; string y; x = 5; f(x, y);` -/
def repeating : Script :=
  ⟨false,[.function "f" .int [⟨"a",.int⟩,⟨"a",.string⟩] [.block []],.typed ⟨"x",.int⟩,
    .typed ⟨"y",.string⟩,.assign (.name "x") (.int 5),
    .call "f" (.argument (.name "x") (.name "y"))]⟩

/-- A declaration takes over the value of an earlier one, and so does a parameter. -/
theorem store_unsound :
    (¬∀ state, Session.Reaches 1 .unlimited [redeclaring] state →
      state.scope.All Context.Sound) ∧
    ¬∀ state, Session.Reaches 1 .unlimited [repeating] state →
      state.scope.All Context.Sound := by
  have unfit (context : Context) (name : String)
      (held : context.values.find? name = some (.int 5))
      (declared : context.declared.find? name = some (.typed .string)) : ¬context.Sound := by
    intro sound
    obtain ⟨type,found,conforms⟩ := sound name _ held
    obtain rfl := Declared.typed.inj (Option.some.inj (declared.symm.trans found))
    contradiction
  constructor
  · intro sound
    have begins : Session.Begins 1 [redeclaring] (.initial .unlimited) (.typed ⟨"x",.string⟩) _ :=
      .now _ _ _ _ _ (.later _ _ _ _ _ _ none rfl (.inr rfl)
        (.later _ _ _ _ _ _ none rfl (.inr rfl) (.here _ _ _)))
    have reached := sound _ ⟨_,⟨_,_,begins,.refl⟩,.inr (.inl rfl)⟩
    exact unfit _ "x" rfl rfl (reached _ List.mem_cons_self)
  · intro sound
    have begins : Session.Begins 1 [repeating] (.initial .unlimited)
        (.call "f" (.argument (.name "x") (.name "y"))) _ :=
      .now _ _ _ _ _ (.later _ _ _ _ _ _ none rfl (.inr rfl)
        (.later _ _ _ _ _ _ none rfl (.inr rfl) (.later _ _ _ _ _ _ none rfl (.inr rfl)
          (.later _ _ _ _ _ _ none rfl (.inr rfl) (.here _ _ _)))))
    let f : Function := ⟨"f",.int,[⟨"a",.int⟩,⟨"a",.string⟩],[.block []]⟩
    have entered (state : State) (context : Context)
        (declared : state.scope.declared? "f" = some (.function f))
        (accepted : f.accept state.scope state.depth [.name "x",.name "y"] = .ok context) :
        Relation.ReflTransGen (Leads 1)
          ⟨.statement (.call "f" (.argument (.name "x") (.name "y"))),state⟩
          ⟨.sequence f.body,state.calling f context⟩ :=
      .tail (.single (.evaluated _ state rfl)) (.call _ "f" _ state f context rfl declared accepted)
    have reached := sound _ ⟨_,⟨_,_,begins,entered _ _ rfl rfl⟩,.inl rfl⟩
    exact unfit _ "a" rfl rfl (reached _ List.mem_cons_self)

end BlockScript
