import BlockScript.Proofs.Eval.Stable
import BlockScript.Proofs.Eval.Owner

/-! Shadowed names. Where a context declares a name, nothing that runs there reaches the name in
the contexts around it. -/
namespace BlockScript
open Run

def Context.entry (context : Context) (name : String) : Option Declared × Option Value :=
  (context.declared.find? name,context.values.find? name)

theorem Context.entry_bind (context : Context) (name other : String) (value : Value)
    (apart : name ≠ other) : (context.bind other value).entry name = context.entry name := by
  simp [entry,bind,Table.find?_insert_of_ne _ _ apart]

namespace Scope

def entries (scope : Scope) (name : String) : List (Option Declared × Option Value) :=
  scope.contexts.map (·.entry name)

/-- There are `around` contexts around the current one, and all but the `near` innermost ones say
about the name what was seen. -/
def Knows (name : String) (seen : List (Option Declared × Option Value)) (near around : Nat)
    (scope : Scope) : Prop :=
  scope.outer.length = around ∧ (scope.entries name).drop near = seen

/-- The name is said nothing new about beyond a context that declares it, which has `near` contexts
nearer to the current one. -/
structure Shadowed (name : String) (seen : List (Option Declared × Option Value))
    (near around : Nat) (scope : Scope) : Prop where
  knows : Knows name seen (near + 1) around scope
  declares : ∃ context, scope.contexts[near]? = some context ∧
    context.declared.contains name = true

variable {name : String} {seen : List (Option Declared × Option Value)} {near around : Nat}
  {scope : Scope}

theorem Knows.push (knows : Knows name seen near around scope) (context : Context) :
    Knows name seen (near + 1) (around + 1) (scope.push context) :=
  ⟨congrArg (· + 1) knows.1,knows.2⟩

theorem Knows.pop (knows : Knows name seen (near + 1) (around + 1) scope) :
    Knows name seen near around scope.pop := by
  obtain ⟨current,outer⟩ := scope
  obtain ⟨counted,same⟩ := knows
  cases outer with
  | nil => contradiction
  | cons context outer => exact ⟨Nat.succ.inj counted,same⟩

namespace Shadowed

theorem pop (shadowed : Shadowed name seen (near + 1) (around + 1) scope) :
    Shadowed name seen near around scope.pop := by
  refine ⟨shadowed.knows.pop,?_⟩
  obtain ⟨current,outer⟩ := scope
  cases outer with
  | nil => exact absurd shadowed.knows.1 nofun
  | cons context outer => exact shadowed.declares

theorem declare (shadowed : Shadowed name seen near around scope) (other : String)
    (declared : Declared) : Shadowed name seen near around (scope.declare other declared) := by
  obtain ⟨knows,declares⟩ := shadowed
  refine ⟨knows,?_⟩
  cases near with
  | zero =>
    obtain ⟨context,found,contains⟩ := declares
    obtain rfl := Option.some.inj found
    exact ⟨_,rfl,(scope.current.contains_declare other name declared).mpr (.inr contains)⟩
  | succ near => exact declares

/-- The owner of the name is found no later than the context that declares it. -/
theorem owner_near (shadowed : Shadowed name seen near around scope) {inner outer : List Context}
    {context : Context} (owner : Owner scope name inner context outer) : inner.length ≤ near := by
  obtain ⟨shadowing,found,contains⟩ := shadowed.declares
  refine Nat.le_of_not_lt fun before => ?_
  rw [owner.split,List.getElem?_append_left before] at found
  have foreign := owner.passed shadowing (List.mem_of_getElem? found)
  simp [Context.owns,contains] at foreign

theorem assign (shadowed : Shadowed name seen near around scope) (other : String) (value : Value)
    (declared : (scope.declared? other).isSome = true) :
    Shadowed name seen near around (scope.assign other value) := by
  obtain ⟨inner,context,outer,owner⟩ := scope.owner_of_declared other declared
  have stored := owner.assigned value
  have same := scope.declarations_assign other value
  obtain ⟨counted,seen⟩ := shadowed.knows
  refine ⟨⟨?_,?_⟩,?_⟩
  · have lengths := congrArg List.length same
    simpa [declarations,contexts,counted] using lengths
  · rw [← seen]
    unfold entries
    rw [stored,owner.split]
    by_cases here : name = other
    · subst here
      obtain ⟨between,rfl⟩ := Nat.exists_eq_add_of_le (shadowed.owner_near owner)
      simp [List.drop_append,Nat.add_assoc]
    · simp [Context.entry_bind _ _ _ _ here]
  · obtain ⟨shadowing,found,contains⟩ := shadowed.declares
    have tables := congrArg (·[near]?) same
    simp only [declarations,List.getElem?_map,found,Option.map_some] at tables
    obtain ⟨next,found,table⟩ := Option.map_eq_some_iff.mp tables
    exact ⟨next,found,by rwa [table]⟩

end Shadowed

end Scope

/-- No single step reaches a name beyond the context that declares it. -/
theorem stable_shadowed (name : String) (seen : List (Option Declared × Option Value))
    (near around : Nat) :
    Stable (fun entered => Scope.Shadowed name seen (near + entered) (around + entered))
      (fun _ _ => True) where
  pushed := fun shadowed context _ => ⟨shadowed.knows.push context,shadowed.declares⟩
  popped := fun shadowed => shadowed.pop
  assigned := fun shadowed other value declared => shadowed.assign other value declared
  declares := fun shadowed _ other declared _ _ => shadowed.declare other declared
  inside := fun _ _ _ _ _ => trivial
  body := fun _ _ _ _ _ _ => trivial

section
variable {rounds levels : Nat} {name : String} {seen : List (Option Declared × Option Value)}
  {around : Nat}

/-- What runs in a context that declares the name leaves the name alone in all other contexts. -/
theorem declaring_spares (context : Context) (declares : context.declared.contains name = true)
    (statements : List Node) :
    Guards (State.Holds (Scope.Knows name seen 0 around) levels) (Halt.Allowed True)
      (within context (executeAll rounds (enterAt rounds levels) statements)) := by
  have ran := (stable_shadowed name seen 0 (around + 1)).executeAll rounds levels 0
    statements (fun _ _ => trivial)
  refine ran.within context ?_ ?_
  · rintro state ⟨room,knows⟩
    exact ⟨room,knows.push context,context,rfl,declares⟩
  · rintro state ⟨room,shadowed⟩
    exact ⟨room,shadowed.knows.pop⟩

theorem iterate_spares (body : List Node) (collection : Value) :
    Guards (State.Holds (Scope.Knows name seen 0 around) levels) (Halt.Allowed True)
      (iterate name (executeAll rounds (enterAt rounds levels) body) collection) := by
  have declares (type : TypeName) (value : Value) :
      (Context.single name type value).declared.contains name = true :=
    (Context.empty.contains_declare name name (.typed type)).mpr (.inl rfl)
  cases collection with
  | int number => exact Guards.countUp 0 _ fun _ => declaring_spares _ (declares _ _) body
  | string text => exact Guards.forEach _ fun _ => declaring_spares _ (declares _ _) body
  | _ => exact guards_fail _ nofun

theorem call_spares (called : String) (arguments : List Node) (function : Function)
    (parameter : TypedName) (member : parameter ∈ function.parameters)
    (named : parameter.name = name) (state : State)
    (declared : state.scope.declared? called = some (.function function))
    (held : State.Holds (Scope.Knows name seen 0 around) levels state) :
    Ends (fun _ next => Scope.Knows name seen 0 around next.scope)
      (call (enterAt rounds levels) called arguments) state := by
  refine (ends_get _).mpr ?_
  rw [declared]
  dsimp only
  refine (ends_record _ _).mpr ?_
  cases accepted : function.accept state.scope state.depth arguments with
  | error fault => exact held.2
  | ok context =>
    have shallow := (function.accept_ok accepted).2.1
    have room := held.1
    obtain ⟨fewer,rfl⟩ : ∃ fewer, levels = fewer + 1 := ⟨levels - 1,by omega⟩
    have declares := function.declares_of_accept accepted parameter member
    rw [named] at declares
    have inside : Guards (State.Holds (Scope.Knows name seen 0 around) fewer) (Halt.Allowed True)
        (within context (enterAt rounds (fewer + 1) function.body)) :=
      declaring_spares context declares function.body
    have deep : Guards (State.Holds (Scope.Knows name seen 0 around) (fewer + 1)) (Halt.Allowed True)
        (deeper (within context (enterAt rounds (fewer + 1) function.body))) := by
      refine inside.deeper ?_ ?_
      · rintro state ⟨room,knows⟩
        exact ⟨by dsimp only; omega,knows⟩
      · rintro state ⟨room,knows⟩
        exact ⟨by dsimp only; omega,knows⟩
    have whole := deep.bind fun returned => guards_lift (function.answer returned) fun _ _ => nofun
    exact (whole { state with log := _ :: state.log } held).mono fun _ _ after => after.2.2

end

/-- There are as many contexts, and all but the `near` innermost ones say the same about the
name. -/
def Scope.SameBeyond (near : Nat) (name : String) (before after : Scope) : Prop :=
  after.outer.length = before.outer.length ∧
    (after.entries name).drop near = (before.entries name).drop near

/-- Where a context declares a name, whatever runs leaves the name as it is in the contexts around
that one, however it ends. So nothing is written to the name outside of the context by what follows
a declaration of it, by the rounds of a `for` that iterates with it, or by a call that has a
parameter of that name. -/
theorem shadowed_untouched (rounds : Nat) (name : String) (state : State) :
    (∀ (near : Nat) (context : Context), state.scope.contexts[near]? = some context →
      context.declared.contains name = true →
        (∀ node, Ends (fun _ next => state.scope.SameBeyond (near + 1) name next.scope)
          (execute rounds (state.enter rounds) node) state) ∧
        ∀ node, Ends (fun _ next => state.scope.SameBeyond (near + 1) name next.scope)
          (evaluate (state.enter rounds) node) state) ∧
    (∀ node declared rest, node.declares? = some (name,declared) →
      Ends (fun _ next => state.scope.SameBeyond 1 name next.scope)
        (executeAll rounds (state.enter rounds) (node :: rest)) state) ∧
    (∀ collection body, Ends (fun _ next => state.scope.SameBeyond 0 name next.scope)
      (iterate name (executeAll rounds (state.enter rounds) body) collection) state) ∧
    ∀ called function arguments parameter,
      state.scope.declared? called = some (.function function) →
        parameter ∈ function.parameters → parameter.name = name →
          Ends (fun _ next => state.scope.SameBeyond 0 name next.scope)
            (call (state.enter rounds) called arguments) state := by
  have room : maxDepth ≤ state.depth + (maxDepth - state.depth) := by omega
  refine ⟨?_,?_,?_,?_⟩
  · intro near context found declares
    have stable := stable_shadowed name ((state.scope.entries name).drop (near + 1)) near
      state.scope.outer.length
    have here : State.Holds (Scope.Shadowed name ((state.scope.entries name).drop (near + 1)) near
        state.scope.outer.length) (maxDepth - state.depth) state :=
      ⟨room,⟨rfl,rfl⟩,context,found,declares⟩
    constructor
    · intro node
      exact (stable.execute rounds _ 0 node trivial state here).mono
        fun _ _ after => after.2.2.knows
    · intro node
      exact (stable.evaluate rounds _ 0 node state here).mono
        fun _ _ after => after.2.2.knows
  · intro node declared rest declares
    have stable := stable_shadowed name ((state.scope.entries name).drop 1) 0
      state.scope.outer.length
    change Ends _ (orNext (execute rounds (state.enter rounds) node)
      (executeAll rounds (state.enter rounds) rest)) state
    rw [execute_declares _ rounds node name declared declares]
    have here : State.Holds (Scope.Shadowed name ((state.scope.entries name).drop 1) 0
        state.scope.outer.length) (maxDepth - state.depth)
        { state with scope := state.scope.declare name declared } :=
      ⟨room,⟨rfl,rfl⟩,_,rfl,(state.scope.current.contains_declare name name declared).mpr (.inl rfl)⟩
    exact (stable.executeAll rounds _ 0 rest (fun _ _ => trivial) _ here).mono
      fun _ _ after => after.2.2.knows
  · intro collection body
    exact (iterate_spares body collection state ⟨room,rfl,rfl⟩).mono fun _ _ after => after.2.2
  · intro called function arguments parameter declared member named
    exact call_spares called arguments function parameter member named state declared
      ⟨room,rfl,rfl⟩

/-- `int x; x = 1; int set() do x = 7; done int keep(int x) do x = 9; done`, and then inside of
two blocks of which the outer one declares `int x`. -/
def State.shadowing : State :=
  { State.initial .unlimited with
    scope := ⟨.empty,[⟨⟨[("x",.typed .int)]⟩,.empty⟩,
      ⟨⟨[("x",.typed .int),
          ("set",.function ⟨"set",.int,[],[.block [.assign (.name "x") (.int 7)]]⟩),
          ("keep",.function
            ⟨"keep",.int,[⟨"x",.int⟩],[.block [.assign (.name "x") (.int 9)]]⟩)]⟩,
        ⟨[("x",.int 1)]⟩⟩]⟩ }

/-- A call of `set` writes to the inner `x`; a string `x` and the parameter of `keep` take all that
is written to them. -/
theorem shadowing_untouched :
    (∃ context, State.shadowing.scope.contexts[1]? = some context ∧
      context.declared.contains "x" = true ∧
      Ends (fun _ next => State.shadowing.scope.SameBeyond 2 "x" next.scope)
        (execute 0 (State.shadowing.enter 0) (.callNoArgs "set")) .shadowing) ∧
    (∃ last, execute 0 (State.shadowing.enter 0) (.callNoArgs "set") .shadowing = .ok none last ∧
      last.scope.entries "x" =
        [(none,none),(some (.typed .int),some (.int 7)),(some (.typed .int),some (.int 1))]) ∧
    Ends (fun _ next => State.shadowing.scope.SameBeyond 1 "x" next.scope)
      (executeAll 0 (State.shadowing.enter 0)
        [.typed ⟨"x",.string⟩,.assign (.name "x") (.string "s")]) .shadowing ∧
    Ends (fun _ next => State.shadowing.scope.SameBeyond 0 "x" next.scope)
      (call (State.shadowing.enter 0) "keep" [.name "x"]) .shadowing := by
  obtain ⟨beyond,declaration,_,parameter⟩ := shadowed_untouched 0 "x" .shadowing
  refine ⟨⟨_,rfl,rfl,(beyond 1 _ rfl rfl).1 _⟩,⟨_,rfl,rfl⟩,?_,?_⟩
  · exact declaration (.typed ⟨"x",.string⟩) (.typed .string) _ rfl
  · exact parameter "keep" _ [.name "x"] ⟨"x",.int⟩ rfl List.mem_cons_self rfl

end BlockScript
