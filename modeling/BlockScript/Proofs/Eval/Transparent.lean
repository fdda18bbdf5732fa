import BlockScript.Proofs.Eval.Coupled
import BlockScript.Proofs.Eval.Owner

/-! Blocks without declarations of their own. Their context stays empty, and an empty context is
neither read nor written, however far the contexts of inner blocks and of calls go beyond it. -/
namespace BlockScript
open Run

/-- The left scope has one more context than the right one. It is empty, and `entered` contexts are
nearer to the current one. -/
def Scope.Padded (entered : Nat) (left right : Scope) : Prop :=
  ∃ above below, above.length = entered ∧ below ≠ [] ∧
    left.contexts = above ++ .empty :: below ∧ right.contexts = above ++ below

@[simp] theorem Context.owns_empty (name : String) : Context.empty.owns name = false := rfl

@[simp] theorem Context.find?_empty (name : String) :
    Context.empty.declared.find? name = none := rfl

theorem Scope.contexts_pop (scope : Scope) (more : scope.outer ≠ []) :
    scope.pop.contexts = scope.outer := by
  obtain ⟨current,outer⟩ := scope
  cases outer with
  | nil => contradiction
  | cons context outer => rfl

namespace Scope.Padded

variable {entered : Nat} {left right : Scope}

theorem declared? (padded : Padded entered left right) (name : String) :
    left.declared? name = right.declared? name := by
  obtain ⟨above,below,_,_,longer,shorter⟩ := padded
  simp [Scope.declared?,longer,shorter,List.findSome?_append,List.findSome?_cons]

theorem value? (padded : Padded entered left right) (name : String) :
    left.value? name = right.value? name := by
  obtain ⟨above,below,_,_,longer,shorter⟩ := padded
  simp [Scope.value?,longer,shorter,List.find?_append]

theorem push (padded : Padded entered left right) (context : Context) :
    Padded (entered + 1) (left.push context) (right.push context) := by
  obtain ⟨above,below,counted,some,longer,shorter⟩ := padded
  refine ⟨context :: above,below,by simp [counted],some,?_,?_⟩
  · exact congrArg (context :: ·) longer
  · exact congrArg (context :: ·) shorter

theorem pop (padded : Padded (entered + 1) left right) : Padded entered left.pop right.pop := by
  obtain ⟨above,below,counted,some,longer,shorter⟩ := padded
  cases above with
  | nil => contradiction
  | cons context above =>
    obtain ⟨_,longer⟩ := List.cons.inj longer
    obtain ⟨_,shorter⟩ := List.cons.inj shorter
    refine ⟨above,below,by simpa using counted,some,?_,?_⟩
    · rw [left.contexts_pop (by simp [longer]),longer]
      rfl
    · rw [right.contexts_pop (by simp [shorter,some]),shorter]
      rfl

theorem assign (padded : Padded entered left right) (name : String) (value : Value)
    (declared : (left.declared? name).isSome = true) :
    Padded entered (left.assign name value) (right.assign name value) := by
  rw [padded.declared? name] at declared
  obtain ⟨inner,context,outer,owner⟩ := right.owner_of_declared name declared
  obtain ⟨above,below,counted,some,longer,shorter⟩ := padded
  have stored := owner.assigned value
  -- The owner is farther out than the empty context or nearer than it.
  have beyond (between : List Context) (far : inner = above ++ between)
      (same : below = between ++ context :: outer) :
      Padded entered (left.assign name value) (right.assign name value) := by
    subst far same
    have passed : ∀ other ∈ above ++ .empty :: between, other.owns name = false := by
      have all := owner.passed
      simp only [List.mem_append,List.mem_cons] at all ⊢
      rintro other (member | rfl | member)
      · exact all other (.inl member)
      · rfl
      · exact all other (.inr member)
    have here : Owner left name (above ++ .empty :: between) context outer :=
      ⟨by simp [longer],passed,owner.owns⟩
    refine ⟨above,between ++ context.bind name value :: outer,counted,by simp,?_,?_⟩
    · simp [here.assigned value]
    · simp [stored]
  rcases List.append_eq_append_iff.mp (shorter.symm.trans owner.split) with
    ⟨between,far,same⟩ | ⟨between,near,same⟩
  · exact beyond between far same
  · cases between with
    | nil => exact beyond [] (by simpa using near.symm) (by simpa using same.symm)
    | cons first between =>
      obtain ⟨rfl,rfl⟩ := List.cons.inj same
      subst near
      have here : Owner left name inner context (between ++ .empty :: below) :=
        ⟨by simp [longer],owner.passed,owner.owns⟩
      refine ⟨inner ++ context.bind name value :: between,below,by simpa using counted,some,?_,?_⟩
      · simp [here.assigned value]
      · simp [stored]

theorem declare (padded : Padded (entered + 1) left right) (name : String) (declared : Declared) :
    Padded (entered + 1) (left.declare name declared) (right.declare name declared) := by
  obtain ⟨above,below,counted,some,longer,shorter⟩ := padded
  cases above with
  | nil => contradiction
  | cons context above =>
    obtain ⟨first,outer⟩ := List.cons.inj longer
    obtain ⟨same,others⟩ := List.cons.inj shorter
    refine ⟨context.declare name declared :: above,below,counted,some,?_,?_⟩
    · rw [← first]
      exact congrArg (left.current.declare name declared :: ·) outer
    · rw [← same]
      exact congrArg (right.current.declare name declared :: ·) others

theorem pop_eq (padded : Padded 0 left right) : left.pop = right := by
  obtain ⟨above,below,counted,some,longer,shorter⟩ := padded
  obtain rfl := List.length_eq_zero_iff.mp counted
  obtain ⟨current,outer⟩ := right
  obtain ⟨_,around⟩ := List.cons.inj longer
  obtain rfl : current :: outer = below := shorter
  unfold Scope.pop
  rw [around]

end Scope.Padded

/-- Where the empty context is the current one, statements may not declare anything. -/
def Node.Undeclaring (entered : Nat) (node : Node) : Prop := entered = 0 → node.declares? = none

/-- An empty context in the chain makes no difference to any single step. -/
theorem coupled_padded : Coupled Scope.Padded Node.Undeclaring where
  declared := fun padded name => padded.declared? name
  value := fun padded name => padded.value? name
  pushed := fun padded context _ => padded.push context
  popped := fun padded => padded.pop
  assigned := fun padded name value declared => padded.assign name value declared
  declares := by
    intro entered left right padded node name declared undeclaring declares
    cases entered with
    | zero => simp [undeclaring rfl] at declares
    | succ entered => exact padded.declare name declared
  inside := fun _ _ _ _ _ => nofun
  body := fun _ _ _ _ _ _ => nofun

/-- A block none of whose own statements declares anything does what its statements do in the
current context: it ends in the same way, and it leaves the same state. -/
theorem block_transparent (rounds : Nat) (statements : List Node)
    (undeclaring : ∀ statement ∈ statements, statement.declares? = none) (state : State) :
    execute rounds (state.enter rounds) (.block statements) state =
      executeAll rounds (state.enter rounds) statements state := by
  have padded : Scope.Padded 0 (state.scope.push .empty) state.scope :=
    ⟨[],state.scope.contexts,rfl,by simp [Scope.contexts],rfl,rfl⟩
  have runs : Coupled.AlikeAt Scope.Padded Node.Undeclaring True rounds rounds
      (maxDepth - state.depth) := coupled_padded.runs (fun _ _ _ _ => ⟨trivial,rfl⟩) _
  have met := runs 0 statements (fun statement member _ => undeclaring statement member)
    (state.inside .empty) state ⟨by simp only [State.inside]; omega,state.scope,padded,rfl⟩
  refine Meet.eq (met.between ?_) fun _ _ same => same
  rintro left _ ⟨_,scope,padded,rfl⟩
  exact congrArg ({ left with scope := · }) padded.pop_eq

/-- `int x; x = 5; int f() do int y; y = 2; x = x * y; done` -/
def State.doubling : State :=
  { State.initial .unlimited with
    scope := ⟨⟨⟨[("x",.typed .int),("f",.function ⟨"f",.int,[],[.block [.typed ⟨"y",.int⟩,
        .assign (.name "y") (.int 2),
        .assign (.name "x") (.arithmetic .times (.name "x") (.name "y"))]]⟩)]⟩,
      ⟨[("x",.int 5)]⟩⟩,[]⟩ }

/-- `x = x + 1; do string x; x = "s"; done f(); ret x;` -/
def doublingStatements : List Node :=
  [.assign (.name "x") (.arithmetic .plus (.name "x") (.int 1)),
    .block [.typed ⟨"x",.string⟩,.assign (.name "x") (.string "s")],.callNoArgs "f",.ret (.name "x")]

/-- The inner block has a variable of its own, and `f` finds the outer one. -/
theorem doubling_transparent :
    (∀ statement ∈ doublingStatements, statement.declares? = none) ∧
    execute 0 (State.doubling.enter 0) (.block doublingStatements) .doubling =
      executeAll 0 (State.doubling.enter 0) doublingStatements .doubling ∧
    ∃ last, executeAll 0 (State.doubling.enter 0) doublingStatements .doubling =
      .ok (some (.int 12)) last := by
  have undeclaring : ∀ statement ∈ doublingStatements, statement.declares? = none := by
    simp [doublingStatements,Node.declares?]
  exact ⟨undeclaring,block_transparent 0 doublingStatements undeclaring .doubling,_,rfl⟩

end BlockScript
