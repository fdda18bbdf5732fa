import BlockScript.Proofs.Eval.Reached

/-! However a run ends, the contexts and the depth are those that it began with. On the way calls
nest no deeper than the limit. -/
namespace BlockScript
open Run

/-- What follows a visit begins at its depth, and the body of a call one deeper. -/
theorem Leads.depth_or_deeper {rounds : Nat} {visit next : Visit} (leads : Leads rounds visit next) :
    next.state.depth = visit.state.depth ∨
      visit.state.depth < maxDepth ∧ next.state.depth = visit.state.depth + 1 := by
  cases leads with
  | arithmeticLeft | testLeft | assignedField | object | put | ret | evaluated | block | tested
  | loopTested | collection | item | first => exact .inl rfl
  | call node called arguments state function context calls declared accepted =>
    exact .inr ⟨(function.accept_ok accepted).2.1,rfl⟩
  | arithmeticRight operator left right state next value first =>
    exact .inl (depth_evaluateResolved left state next value first)
  | testRight operator left right state next value first =>
    exact .inl (depth_evaluateResolved left state next value first)
  | assigned name value state next type target =>
    obtain ⟨rfl,_⟩ := targetType_ok name state next type target
    exact .inl rfl
  | assignedNothing object member value state next found target =>
    exact .inl (depth_evaluate _ state next found target)
  | member object member state next found plain first =>
    exact .inl (depth_evaluate object state next found first)
  | thenBody test body otherwise state next holds =>
    exact .inl (depth_condition test state next true holds)
  | elseBody test body otherwise state next fails =>
    exact .inl (depth_condition test state next false fails)
  | loopBody test body state next holds =>
    exact .inl (depth_condition test state next true holds)
  | loopAgain test body state next last holds round =>
    exact .inl ((depth_within .empty body next last none round).trans
      (depth_condition test state next true holds))
  | iteration iterator collection body state next value contexts found =>
    exact .inl (depth_evaluateResolved collection state next value found)
  | items context contexts body state next round =>
    exact .inl (depth_within context body state next none round)
  | rest statement rest state next first =>
    have entered := enterAt_keeps rounds (maxDepth - state.depth)
    have executed := (executes_keep entered rounds).1 statement
    exact .inl (congrArg Prod.fst (executed.ok state next none first))

theorem Leads.depth_le {rounds : Nat} {visit next : Visit} (leads : Leads rounds visit next)
    (shallow : visit.state.depth ≤ maxDepth) : next.state.depth ≤ maxDepth := by
  rcases leads.depth_or_deeper with same | ⟨room,deeper⟩ <;> omega

theorem Task.run_keeps (rounds levels : Nat) (task : Task) :
    Keeps State.surroundings (task.run rounds (enterAt rounds levels)) := by
  have entered := enterAt_keeps rounds levels
  cases task with
  | expression node => exact (evaluate_keeps entered node).surroundings.discard
  | statement node => exact ((executes_keep entered rounds).1 node).discard
  | sequence statements => exact ((executes_keep entered rounds).2 statements).discard
  | iteration contexts body =>
    have each := (executes_keep entered rounds).2 body
    exact (Keeps.forEach (fun context => each.within context) contexts).surroundings.discard

theorem Visit.EndsIn.surroundings {rounds : Nat} {visit : Visit} {last : State}
    (ended : visit.EndsIn rounds last) : last.surroundings = visit.state.surroundings := by
  have ends := (visit.task.run_keeps rounds (maxDepth - visit.state.depth)).ends visit.state
  rcases ended with ended | ⟨fault,ended⟩
  · exact (ends_of_ok _ () last ended).mp ends
  · exact (ends_of_error _ _ last ended).mp ends

theorem depth_of_visits {rounds : Nat} {visit last : Visit}
    (reached : Relation.ReflTransGen (Leads rounds) visit last)
    (shallow : visit.state.depth ≤ maxDepth) : last.state.depth ≤ maxDepth := by
  induction reached with
  | refl => exact shallow
  | tail _ leads ih => exact leads.depth_le ih

def State.AtTop (state : State) : Prop := state.scope.outer = [] ∧ state.depth = 0

theorem State.atTop_of_surroundings (state next : State) (top : state.AtTop)
    (same : next.surroundings = state.surroundings) : next.AtTop := by
  obtain ⟨depth,around⟩ := Prod.mk.inj same
  refine ⟨?_,depth.trans top.2⟩
  have none : next.scope.outer.map (·.declared) = state.scope.outer.map (·.declared) := around
  simpa [top.1] using none

theorem runRoot_atTop (rounds : Nat) (root : Node) (state next : State)
    (failure : Option Failure) (top : state.AtTop)
    (ran : runRoot rounds root state = some (failure,next)) : next.AtTop := by
  refine runRoot_ends State.AtTop root state next failure ran (fun _ _ top => top) ?_
  have kept := (executes_keep (enterAt_keeps rounds maxDepth) rounds).1 root
  exact (kept.ends (state.executing root)).mono fun _ last same =>
    (state.executing root).atTop_of_surroundings last top same

/-- However a statement ends, by a result, a returned value or a fault, it leaves as many contexts
and the depth that it found, and around the current context it leaves all declarations. An
expression leaves those of the current context too. Where calls are nested within the limit they
stay so on the way. After every root of a session there is only the global context. -/
theorem stack_discipline (rounds : Nat) :
    (∀ state : State,
      (∀ node, Ends (fun _ next => next.depth = state.depth ∧
          next.scope.contexts.length = state.scope.contexts.length ∧
          next.scope.outer.map (·.declared) = state.scope.outer.map (·.declared))
        (execute rounds (state.enter rounds) node) state) ∧
      (∀ node, Ends (fun _ next => next.depth = state.depth ∧
          next.scope.contexts.map (·.declared) = state.scope.contexts.map (·.declared))
        (evaluate (state.enter rounds) node) state) ∧
      (state.depth ≤ maxDepth → ∀ task visit,
        Relation.ReflTransGen (Leads rounds) ⟨task,state⟩ visit →
          visit.state.depth ≤ maxDepth ∧
            ∀ last, visit.EndsIn rounds last → last.depth ≤ maxDepth)) ∧
    ∀ sink scripts root before failure next,
      Session.Begins rounds scripts (.initial sink) root before →
        runRoot rounds root before = some (failure,next) →
          next.scope.outer = [] ∧ next.depth = 0 := by
  constructor
  · intro state
    have entered : ∀ body, Keeps State.surroundings (state.enter rounds body) :=
      enterAt_keeps rounds (maxDepth - state.depth)
    refine ⟨?_,?_,?_⟩
    · intro node
      refine (((executes_keep entered rounds).1 node).ends state).mono ?_
      intro _ next same
      obtain ⟨depth,around⟩ := Prod.mk.inj same
      have around : next.scope.outer.map (·.declared) = state.scope.outer.map (·.declared) := around
      refine ⟨depth,?_,around⟩
      have lengths := congrArg List.length around
      simpa [Scope.contexts] using lengths
    · intro node
      exact ((evaluate_keeps entered node).ends state).mono fun _ _ same => Prod.mk.inj same
    · intro shallow task visit reached
      have here := depth_of_visits reached shallow
      refine ⟨here,?_⟩
      intro last ended
      have same : last.depth = visit.state.depth := congrArg Prod.fst ended.surroundings
      rwa [same]
  · intro sink scripts root before failure next begins ran
    have kept (root : Node) (state : State) (failure : Option Failure) (next : State)
        (_ : True) (top : state.AtTop) (ran : runRoot rounds root state = some (failure,next)) :
        next.AtTop := runRoot_atTop rounds root state next failure top ran
    have top := begins.holds kept (fun _ _ _ => trivial) ⟨rfl,rfl⟩
    exact runRoot_atTop rounds root before next failure top ran

/-- `int f() do for i in 2 do 1 / 0; done done while 1 do f(); done` -/
def dividing : Script :=
  ⟨true,[.function "f" .int []
      [.block [.forIn (.name "i") (.int 2) (some [.arithmetic .divide (.int 1) (.int 0)])]],
    .whileDo (.int 1) (some [.callNoArgs "f"])]⟩

/-- The division fails in a round of a `for`, in a call, in a round of a `while`. -/
theorem dividing_unwinds :
    ∃ before failure next,
      Session.Begins 1 [dividing] (.initial .unlimited)
        (.whileDo (.int 1) (some [.callNoArgs "f"])) before ∧
      runRoot 1 (.whileDo (.int 1) (some [.callNoArgs "f"])) before = some (some failure,next) ∧
      failure.fault = .divisionByZero ∧ next.scope.outer = [] ∧ next.depth = 0 := by
  obtain ⟨before,failure,next,begins,ran,divided⟩ : ∃ before failure next,
      Session.Begins 1 [dividing] (.initial .unlimited)
        (.whileDo (.int 1) (some [.callNoArgs "f"])) before ∧
      runRoot 1 (.whileDo (.int 1) (some [.callNoArgs "f"])) before = some (some failure,next) ∧
      failure.fault = .divisionByZero :=
    ⟨_,_,_,.now _ _ _ _ _ (.later _ _ _ _ _ _ none rfl (.inl rfl) (.here _ _ _)),rfl,rfl⟩
  have unwound := (stack_discipline 1).2 _ _ _ _ _ _ begins ran
  exact ⟨before,failure,next,begins,ran,divided,unwound⟩

end BlockScript
