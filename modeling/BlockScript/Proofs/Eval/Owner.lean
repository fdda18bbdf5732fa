import BlockScript.Eval.Scope

/-! The context that owns a name. A value is read from it and written to it, and contexts nearer to
the current one have nothing to do with the name. -/
namespace BlockScript

/-- The innermost context of a scope that owns the name, between the contexts on both sides. -/
structure Owner (scope : Scope) (name : String) (inner : List Context) (context : Context)
    (outer : List Context) : Prop where
  split : scope.contexts = inner ++ context :: outer
  passed : ∀ other ∈ inner, other.owns name = false
  owns : context.owns name = true

theorem Context.find?_of_not_owns (context : Context) (name : String)
    (foreign : context.owns name = false) :
    context.declared.find? name = none ∧ context.values.find? name = none := by
  simpa [owns,Table.contains] using foreign

theorem bindOwner?_passed (name : String) (value : Value) (inner : List Context) (context : Context)
    (outer : List Context) (passed : ∀ other ∈ inner, other.owns name = false)
    (owns : context.owns name = true) :
    bindOwner? name value (inner ++ context :: outer) =
      some (inner ++ context.bind name value :: outer) := by
  induction inner with
  | nil => simp [bindOwner?,owns]
  | cons other inner ih =>
    obtain ⟨here,others⟩ := List.forall_mem_cons.mp passed
    simp [bindOwner?,here,ih others]

namespace Scope

theorem owner_or_none (scope : Scope) (name : String) :
    (∃ inner context outer, Owner scope name inner context outer) ∨
      ∀ context ∈ scope.contexts, context.owns name = false := by
  cases found : scope.contexts.find? (·.owns name) with
  | none => exact .inr (by simpa using List.find?_eq_none.mp found)
  | some context =>
    obtain ⟨owns,inner,outer,split,passed⟩ := List.find?_eq_some_iff_append.mp found
    exact .inl ⟨inner,context,outer,split,by simpa using passed,owns⟩

theorem owner_of_declared (scope : Scope) (name : String)
    (declared : (scope.declared? name).isSome = true) :
    ∃ inner context outer, Owner scope name inner context outer := by
  refine (scope.owner_or_none name).resolve_right ?_
  intro foreign
  obtain ⟨found,same⟩ := Option.isSome_iff_exists.mp declared
  obtain ⟨context,member,here⟩ := List.exists_of_findSome?_eq_some same
  have absent := (context.find?_of_not_owns name (foreign context member)).1
  rw [absent] at here
  contradiction

end Scope

namespace Owner

variable {scope : Scope} {name : String} {inner outer : List Context} {context : Context}
  (owner : Owner scope name inner context outer)
include owner

theorem value? : scope.value? name = context.values.find? name := by
  have passed : inner.find? (·.owns name) = none := by simpa using owner.passed
  simp [Scope.value?,owner.split,List.find?_append,passed,owner.owns]

theorem declared? (declared : Declared) (here : context.declared.find? name = some declared) :
    scope.declared? name = some declared := by
  have passed : inner.findSome? (·.declared.find? name) = none := by
    refine List.findSome?_eq_none_iff.mpr ?_
    intro other member
    exact (other.find?_of_not_owns name (owner.passed other member)).1
  simp [Scope.declared?,owner.split,List.findSome?_append,passed,here]

/-- An assignment goes to the owner, and all other contexts stay as they are. -/
theorem assigned (value : Value) :
    (scope.assign name value).contexts = inner ++ context.bind name value :: outer := by
  have bound := bindOwner?_passed name value inner context outer owner.passed owner.owns
  rw [← owner.split] at bound
  unfold Scope.assign
  rw [bound]
  cases inner <;> rfl

end Owner

end BlockScript
