import BlockScript.Proofs.Eval.Unmentioned

/-! Laws of the chain of contexts. A write reaches the context that a read looks into, whatever the
contexts declare and hold, and what is written in a context is gone with it. -/
namespace BlockScript

theorem Table.insertEntry_insertEntry {α : Type} (name : String) (first second : α)
    (entries : List (String × α)) :
    insertEntry name second (insertEntry name first entries) = insertEntry name second entries := by
  induction entries with
  | nil => simp [insertEntry]
  | cons entry rest ih =>
    by_cases here : name = entry.1
    · simp [insertEntry,here]
    · simp [insertEntry,here,ih]

namespace Context

theorem bind_bind (context : Context) (name : String) (first second : Value) :
    (context.bind name first).bind name second = context.bind name second := by
  simp only [bind,Table.insert,Table.insertEntry_insertEntry]

theorem owns_bind (context : Context) (name : String) (value : Value) :
    (context.bind name value).owns name = true := by
  simp [owns,bind,Table.contains]

theorem entry_bind_self (context : Context) (name : String) (value : Value) :
    (context.bind name value).entry name = ((context.entry name).1,some value) := by
  simp [entry,bind]

theorem besides_bind (context : Context) (name : String) (value : Value) :
    Besides name (context.bind name value) context :=
  fun other apart => context.entry_bind other name value apart

end Context

theorem bindOwner?_none (name : String) (value : Value) (contexts : List Context)
    (foreign : ∀ context ∈ contexts, context.owns name = false) :
    bindOwner? name value contexts = none := by
  induction contexts with
  | nil => rfl
  | cons context outer ih =>
    obtain ⟨here,others⟩ := List.forall_mem_cons.mp foreign
    simp [bindOwner?,here,ih others]

namespace Scope

theorem contexts_inj (left right : Scope) (same : left.contexts = right.contexts) :
    left = right := by
  obtain ⟨current,outer⟩ := left
  obtain ⟨other,around⟩ := right
  obtain ⟨rfl,rfl⟩ := List.cons.inj same
  rfl

/-- The context that a value for the name goes to, between the contexts on both sides: the innermost
one that owns the name, or the current one if none does. -/
structure Target (scope : Scope) (name : String) (inner : List Context) (context : Context)
    (outer : List Context) : Prop where
  split : scope.contexts = inner ++ context :: outer
  passed : ∀ other ∈ inner, other.owns name = false
  chosen : context.owns name = true ∨
    inner = [] ∧ ∀ other ∈ scope.contexts, other.owns name = false

theorem exists_target (scope : Scope) (name : String) :
    ∃ inner context outer, Target scope name inner context outer := by
  rcases scope.owner_or_none name with ⟨inner,context,outer,owner⟩ | foreign
  · exact ⟨inner,context,outer,owner.split,owner.passed,.inl owner.owns⟩
  · exact ⟨[],scope.current,scope.outer,rfl,by simp,.inr ⟨rfl,foreign⟩⟩

namespace Target

variable {scope : Scope} {name : String} {inner outer : List Context} {context : Context}
  (target : Target scope name inner context outer)
include target

/-- The value goes to the target, and all other contexts stay as they are. -/
theorem assigned (value : Value) :
    (scope.assign name value).contexts = inner ++ context.bind name value :: outer := by
  rcases target.chosen with owns | ⟨rfl,foreign⟩
  · have owner : Owner scope name inner context outer := ⟨target.split,target.passed,owns⟩
    exact owner.assigned value
  · have nowhere := bindOwner?_none name value scope.contexts foreign
    obtain ⟨rfl,rfl⟩ := List.cons.inj target.split
    unfold Scope.assign
    rw [nowhere]
    rfl

/-- Once it holds a value it owns the name, and it is still the first that does. -/
theorem owner_assign (value : Value) :
    Owner (scope.assign name value) name inner (context.bind name value) outer :=
  ⟨target.assigned value,target.passed,context.owns_bind name value⟩

theorem value?_assign (value : Value) : (scope.assign name value).value? name = some value := by
  rw [(target.owner_assign value).value?]
  exact Table.find?_insert_self context.values name value

theorem assign_assign (first second : Value) :
    (scope.assign name first).assign name second = scope.assign name second := by
  apply contexts_inj
  rw [(target.owner_assign first).assigned second,target.assigned second,context.bind_bind]

theorem besides_assign (value : Value) :
    Scope.Besides name (scope.assign name value) scope := by
  unfold Scope.Besides
  rw [target.assigned value,target.split]
  have same (contexts : List Context) :
      List.Forall₂ (Context.Besides name) contexts contexts :=
    List.forall₂_same.mpr fun other _ => .refl other
  exact List.rel_append (same inner) (.cons (context.besides_bind name value) (same outer))

end Target

/-- Popped as often, scopes that differ in one name still differ in it at most. -/
theorem Besides.pops {hidden : String} {left right : Scope} (besides : Besides hidden left right)
    (popped : Nat) : Besides hidden (Scope.pop^[popped] left) (Scope.pop^[popped] right) := by
  induction popped generalizing left right with
  | zero => exact besides
  | succ popped ih => exact ih besides.pop

theorem declarations_pop (left right : Scope) (same : left.declarations = right.declarations) :
    left.pop.declarations = right.pop.declarations := by
  obtain ⟨current,outer⟩ := left
  obtain ⟨other,around⟩ := right
  obtain ⟨_,beyond⟩ := List.cons.inj same
  cases outer with
  | nil =>
    obtain rfl := List.map_eq_nil_iff.mp beyond.symm
    exact same
  | cons context outer =>
    obtain ⟨next,around,rfl,first,rest⟩ := List.map_eq_cons_iff.mp beyond.symm
    exact beyond

theorem declarations_pops (left right : Scope) (same : left.declarations = right.declarations)
    (popped : Nat) : (pop^[popped] left).declarations = (pop^[popped] right).declarations := by
  induction popped generalizing left right with
  | zero => exact same
  | succ popped ih => exact ih _ _ (left.declarations_pop right same)

inductive Edit
  | declare (name : String) (declared : Declared)
  | bind (name : String) (value : Value)

def edit (scope : Scope) : Edit → Scope
  | .declare name declared => scope.declare name declared
  | .bind name value => { scope with current := scope.current.bind name value }

theorem outer_edits (scope : Scope) (edits : List Edit) :
    (edits.foldl edit scope).outer = scope.outer := by
  induction edits generalizing scope with
  | nil => rfl
  | cons first edits ih =>
    rw [List.foldl_cons,ih]
    cases first <;> rfl

theorem pop_edits_push (scope : Scope) (context : Context) (edits : List Edit) :
    (edits.foldl edit (scope.push context)).pop = scope := by
  have around := outer_edits (scope.push context) edits
  obtain ⟨current,outer⟩ := scope
  unfold pop
  rw [around]
  rfl

/-- An assignment is read back. It changes what one context says about one name, namely the
innermost context that owns the name, or the current one if none does, so that no other name and no
declaration looks different from here or from any context farther out. A later assignment to the
name leaves nothing of it. What a context is given is gone when the context is popped. -/
theorem assign_laws (scope : Scope) (name : String) (value : Value) :
    (scope.assign name value).value? name = some value ∧
    (∃ inner context outer changed, Target scope name inner context outer ∧
      (scope.assign name value).contexts = inner ++ changed :: outer ∧
      changed.entry name = ((context.entry name).1,some value) ∧
      ∀ other, other ≠ name → changed.entry other = context.entry other) ∧
    (∀ popped other, other ≠ name →
      (pop^[popped] (scope.assign name value)).value? other = (pop^[popped] scope).value? other) ∧
    (∀ popped other, (pop^[popped] (scope.assign name value)).declared? other =
      (pop^[popped] scope).declared? other) ∧
    (∀ next, (scope.assign name value).assign name next = scope.assign name next) ∧
    ∀ context (edits : List Edit), (edits.foldl edit (scope.push context)).pop = scope := by
  obtain ⟨inner,context,outer,target⟩ := scope.exists_target name
  refine ⟨target.value?_assign value,?_,?_,?_,target.assign_assign value,scope.pop_edits_push⟩
  · refine ⟨inner,context,outer,context.bind name value,target,target.assigned value,?_,?_⟩
    · exact context.entry_bind_self name value
    · intro other apart
      exact context.entry_bind other name value apart
  · intro popped other apart
    exact (((target.besides_assign value).pops popped).agreeOn other apart).value
  · intro popped other
    rw [declared?_declarations,declared?_declarations]
    exact congrArg _ (declarations_pops _ _ (scope.declarations_assign name value) popped)

/-- The current context says nothing about `x`, the one around it declares it without a value, and
the global one holds a value for it without a declaration. -/
def layered : Scope :=
  ⟨.empty,[Context.empty.declare "x" (.typed .string),Context.empty.bind "x" (.int 1)]⟩

/-- The value goes to the declaration in the middle, since the context nearer does not own the name.
-/
theorem layered_laws :
    layered.value? "x" = none ∧
    (layered.assign "x" (.string "s")).value? "x" = some (.string "s") ∧
    (pop^[2] (layered.assign "x" (.string "s"))).value? "x" = some (.int 1) ∧
    (pop^[1] (layered.assign "x" (.string "s"))).value? "y" = (pop^[1] layered).value? "y" ∧
    (layered.assign "x" (.string "s")).assign "x" (.int 2) = layered.assign "x" (.int 2) := by
  obtain ⟨held,_,others,_,again,_⟩ := assign_laws layered "x" (.string "s")
  exact ⟨rfl,held,rfl,others 1 "y" (by decide),again (.int 2)⟩

end Scope

end BlockScript
