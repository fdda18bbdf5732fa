import BlockScript.Proofs.Eval.Roots
import BlockScript.Proofs.Eval.Upheld

/-! Statements and whole sessions uphold what their visits uphold. -/
namespace BlockScript
open Run

section
variable {rounds : Nat} {good : Context → Prop} {allowed : Visit → Prop} {levels : Nat}

theorem depth_within (context : Context) (body : List Node) (state next : State)
    (returned : Option Value)
    (ran : within context (executeAll rounds (enterAt rounds levels) body) state =
      .ok returned next) : next.depth = state.depth := by
  have kept := (executes_keep (enterAt_keeps rounds levels) rounds).2 body
  exact congrArg Prod.fst ((kept.within context).ok state next returned ran)

theorem depth_condition (test : Node) (state next : State) (holds : Bool)
    (ran : condition (enterAt rounds levels) test state = .ok holds next) :
    next.depth = state.depth :=
  congrArg Prod.fst ((condition_keeps (enterAt_keeps rounds levels) test).ok state next holds ran)

namespace Good

theorem inside {body : List Node} (fine : Good rounds good allowed levels (.sequence body))
    {state : State} {context : Context} (depth : maxDepth - state.depth = levels)
    (sheltered : Sheltered rounds allowed ⟨.sequence body,state.inside context⟩)
    (all : state.scope.All good) (made : good context) :
    Ends (fun _ next => next.scope.All good)
      (within context (executeAll rounds (enterAt rounds levels) body)) state := by
  refine (ends_within _ _).mpr ?_
  have ran := fine (state.inside context) depth sheltered (all.push good state.scope context made)
  exact ((ends_discard _).mp ran).mono fun _ next held => Scope.All.pop good next.scope held

theorem tested {test : Node} (fine : Good rounds good allowed levels (.expression test))
    {state : State} (depth : maxDepth - state.depth = levels)
    (sheltered : Sheltered rounds allowed ⟨.expression test,state⟩) (all : state.scope.All good) :
    Ends (fun _ next => next.scope.All good) (condition (enterAt rounds levels) test) state := by
  refine (fine.resolved depth sheltered all).bind ?_
  intro value middle _ held
  cases value <;> exact held

theorem declaration (upheld : Upheld rounds good allowed) (node : Node) (name : String)
    (declared : Declared) (declares : node.declares? = some (name,declared)) :
    Good rounds good allowed levels (.statement node) := by
  intro state _ sheltered all
  refine (ends_discard _).mpr ?_
  rw [execute_declares _ rounds node name declared declares]
  intro context member
  obtain rfl | member := List.mem_cons.mp member
  · exact upheld.declared node name declared state sheltered.here declares all
  · exact all context (List.mem_cons_of_mem _ member)

theorem put {operand : Node} (fine : Good rounds good allowed levels (.expression operand)) :
    Good rounds good allowed levels (.statement (.put operand)) := by
  intro state depth sheltered all
  refine (ends_discard _).mpr ?_
  refine (fine.evaluated depth (sheltered.step (.put operand state)) all).bind ?_
  intro value middle _ held
  refine (ends_scope _).mpr ?_
  have kept : Keeps State.scope (do write (outputText middle.scope value); return none : Run (Option Value)) :=
    (keeps_write _ fun _ _ => rfl).bind fun _ => keeps_pure none
  refine (kept.ends middle).mono ?_
  intro _ next same
  rwa [same]

theorem ret {operand : Node} (fine : Good rounds good allowed levels (.expression operand)) :
    Good rounds good allowed levels (.statement (.ret operand)) := by
  intro state depth sheltered all
  refine (ends_discard _).mpr ?_
  exact (fine.resolved depth (sheltered.step (.ret operand state)) all).bind fun _ _ _ held => held

theorem block {statements : List Node} (upheld : Upheld rounds good allowed)
    (fine : Good rounds good allowed levels (.sequence statements)) :
    Good rounds good allowed levels (.statement (.block statements)) := by
  intro state depth sheltered all
  refine (ends_discard _).mpr ?_
  exact fine.inside depth (sheltered.step (.block statements state)) all upheld.empty

theorem ifThen {test : Node} {body : List Node} {otherwise : Option (List Node)}
    (upheld : Upheld rounds good allowed)
    (goodTest : Good rounds good allowed levels (.expression test))
    (goodBody : Good rounds good allowed levels (.sequence body))
    (goodOther : ∀ statements, otherwise = some statements →
      Good rounds good allowed levels (.sequence statements)) :
    Good rounds good allowed levels (.statement (.ifThen test (some body) otherwise)) := by
  intro state depth sheltered all
  refine (ends_discard _).mpr ?_
  have begun := goodTest.tested depth (sheltered.step (.tested test body otherwise state)) all
  have deep (next : State) (holds : Bool)
      (ran : condition (enterAt rounds levels) test state = .ok holds next) :
      maxDepth - next.depth = levels := by rw [depth_condition test state next holds ran,depth]
  have thenRuns (next : State) (held : next.scope.All good)
      (ran : condition (enterAt rounds levels) test state = .ok true next) :
      Ends (fun _ next => next.scope.All good)
        (within .empty (executeAll rounds (enterAt rounds levels) body)) next := by
    have holds := ran
    rw [← state.enter_of_depth depth] at holds
    exact goodBody.inside (deep next true ran)
      (sheltered.step (.thenBody test body otherwise state next holds)) held upheld.empty
  cases otherwise with
  | none =>
    refine begun.bind ?_
    intro holds next ran held
    cases holds with
    | true => exact thenRuns next held ran
    | false => exact held
  | some statements =>
    refine begun.bind ?_
    intro holds next ran held
    cases holds with
    | true => exact thenRuns next held ran
    | false =>
      have fails := ran
      rw [← state.enter_of_depth depth] at fails
      exact (goodOther statements rfl).inside (deep next false ran)
        (sheltered.step (.elseBody test body statements state next fails)) held upheld.empty

theorem whileDo {test : Node} {body : List Node} (upheld : Upheld rounds good allowed)
    (goodTest : Good rounds good allowed levels (.expression test))
    (goodBody : Good rounds good allowed levels (.sequence body)) :
    Good rounds good allowed levels (.statement (.whileDo test (some body))) := by
  -- The loop visits itself again after each round, with fewer rounds to go.
  have loop (budget : Nat) (state : State) (depth : maxDepth - state.depth = levels)
      (sheltered : Sheltered rounds allowed ⟨.statement (.whileDo test (some body)),state⟩)
      (all : state.scope.All good) :
      Ends (fun _ next => next.scope.All good)
        (repeatWhile (condition (enterAt rounds levels) test)
          (within .empty (executeAll rounds (enterAt rounds levels) body)) budget) state := by
    induction budget generalizing state with
    | zero => exact all
    | succ budget ih =>
      refine (goodTest.tested depth (sheltered.step (.loopTested test body state)) all).bind ?_
      intro holds next ran held
      cases holds with
      | false => exact held
      | true =>
        have deep : maxDepth - next.depth = levels := by
          rw [depth_condition test state next true ran,depth]
        rw [← state.enter_of_depth depth] at ran
        refine (goodBody.inside deep (sheltered.step (.loopBody test body state next ran)) held
          upheld.empty).orNext ?_
        intro last round kept
        have deeper : maxDepth - last.depth = levels := by
          rw [depth_within .empty body next last none round,deep]
        rw [← state.enter_of_depth depth] at round
        exact ih last deeper (sheltered.step (.loopAgain test body state next last ran round)) kept
  intro state depth sheltered all
  exact (ends_discard _).mpr (loop rounds state depth sheltered all)

theorem iteration {contexts : List Context} {body : List Node}
    (made : ∀ context ∈ contexts, good context)
    (goodBody : Good rounds good allowed levels (.sequence body)) :
    Good rounds good allowed levels (.iteration contexts body) := by
  induction contexts with
  | nil => exact fun state _ _ all => (ends_discard _).mpr all
  | cons context contexts ih =>
    intro state depth sheltered all
    refine (ends_discard _).mpr ?_
    have first := goodBody.inside depth (sheltered.step (.item context contexts body state)) all
      (made context List.mem_cons_self)
    refine first.orNext ?_
    intro next ran held
    have deep : maxDepth - next.depth = levels := by
      rw [depth_within context body state next none ran,depth]
    rw [← state.enter_of_depth depth] at ran
    have others := ih (fun other member => made other (List.mem_cons_of_mem context member))
    exact (ends_discard _).mp
      (others next deep (sheltered.step (.items context contexts body state next ran)) held)

theorem forIn {iterator : String} {collection : Node} {body : List Node}
    (upheld : Upheld rounds good allowed)
    (goodCollection : Good rounds good allowed levels (.expression collection))
    (goodBody : Good rounds good allowed levels (.sequence body)) :
    Good rounds good allowed levels
      (.statement (.forIn (.name iterator) collection (some body))) := by
  intro state depth sheltered all
  refine (ends_discard _).mpr ?_
  refine (goodCollection.resolved depth
    (sheltered.step (.collection iterator collection body state)) all).bind ?_
  intro value next ran held
  cases items : value.rounds? iterator with
  | none =>
    rw [iterate_nothing iterator _ value items]
    exact held
  | some contexts =>
    rw [iterate_rounds iterator _ value contexts items]
    have deep : maxDepth - next.depth = levels := by
      rw [depth_evaluateResolved collection state next value ran,depth]
    rw [← state.enter_of_depth depth] at ran
    have all := iteration (upheld.item value iterator contexts items) goodBody
    exact (ends_discard _).mp (all next deep (sheltered.step
      (.iteration iterator collection body state next value contexts ran items)) held)

theorem cons {statement : Node} {rest : List Node}
    (goodFirst : Good rounds good allowed levels (.statement statement))
    (goodRest : Good rounds good allowed levels (.sequence rest)) :
    Good rounds good allowed levels (.sequence (statement :: rest)) := by
  intro state depth sheltered all
  refine (ends_discard _).mpr ?_
  have begun := (ends_discard _).mp
    (goodFirst state depth (sheltered.step (.first statement rest state)) all)
  refine begun.orNext ?_
  intro next ran held
  have kept := (executes_keep (enterAt_keeps rounds levels) rounds).1 statement
  have same : next.depth = state.depth := congrArg Prod.fst (kept.ok state next none ran)
  have deep : maxDepth - next.depth = levels := by rw [same,depth]
  rw [← state.enter_of_depth depth] at ran
  exact (ends_discard _).mp
    (goodRest next deep (sheltered.step (.rest statement rest state next ran)) held)

theorem quiet {node : Node}
    (same : Keeps State.scope (execute rounds (enterAt rounds levels) node)) :
    Good rounds good allowed levels (.statement node) := by
  intro state _ _ all
  refine (ends_discard _).mpr ((same.ends state).mono ?_)
  intro _ next same
  rwa [same]

theorem statements (upheld : Upheld rounds good allowed)
    (expressions : ∀ node, Good rounds good allowed levels (.expression node)) :
    (∀ node, Good rounds good allowed levels (.statement node)) ∧
      ∀ list, Good rounds good allowed levels (.sequence list) := by
  refine execute.mutual_induct _ _ ?typed ?function ?handler ?put ?ret ?block ?ifNothing ?ifThen
    ?whileNothing ?whileDo ?forNothing ?forIn ?forOther ?expression ?nil ?cons
  case typed => exact fun _ => declaration upheld _ _ _ rfl
  case function => exact fun _ _ _ _ => declaration upheld _ _ _ rfl
  case handler => exact fun _ => declaration upheld _ _ _ rfl
  case put => exact fun operand => put (expressions operand)
  case ret => exact fun operand => ret (expressions operand)
  case block => exact fun _ fine => block upheld fine
  case ifNothing => exact fun _ _ => quiet (keeps_fail _)
  case ifThen =>
    intro test body otherwise fine other
    refine ifThen upheld (expressions test) fine ?_
    rintro statements rfl
    exact other
  case whileNothing => exact fun _ => quiet (keeps_fail _)
  case whileDo => exact fun test _ fine => whileDo upheld (expressions test) fine
  case forNothing => exact fun _ _ => quiet (keeps_fail _)
  case forIn => exact fun _ collection _ fine => forIn upheld (expressions collection) fine
  case forOther =>
    intro iterator collection body other
    cases iterator with
    | name text => exact (other text rfl).elim
    | _ => exact quiet (keeps_fail _)
  case expression =>
    intro node
    intros
    have plain : node.isStatement = false := by
      cases node with
      | ifThen _ body _ | whileDo _ body | forIn _ _ body => cases body <;> grind
      | _ => grind [Node.isStatement]
    intro state depth sheltered all
    refine (ends_discard _).mpr ?_
    rw [execute_evaluates _ rounds node plain]
    have ran := expressions node state depth (sheltered.step (.evaluated node state plain)) all
    exact ran.bind fun _ _ _ held => held
  case nil => exact fun state _ _ all => (ends_discard _).mpr all
  case cons => exact fun _ _ goodFirst goodRest => cons goodFirst goodRest

theorem sequence (upheld : Upheld rounds good allowed) (levels : Nat) (list : List Node) :
    Good rounds good allowed levels (.sequence list) := by
  -- At level 0 no call is accepted; a call at any other level runs its body one level down.
  induction levels generalizing list with
  | zero => exact (statements upheld (expression upheld (by omega))).2 list
  | succ levels ih =>
    refine (statements upheld (expression upheld ?_)).2 list
    intro fewer same body
    obtain rfl : levels = fewer := by omega
    exact ih body

end Good

def Task.All (good : Context → Prop) : Task → Prop
  | iteration contexts _ => ∀ context ∈ contexts, good context
  | _ => True

namespace Upheld
variable (upheld : Upheld rounds good allowed)
include upheld

theorem expression (levels : Nat) (node : Node) :
    Good rounds good allowed levels (.expression node) :=
  Good.expression upheld (fun fewer _ body => Good.sequence upheld fewer body) node

theorem statement (levels : Nat) (node : Node) :
    Good rounds good allowed levels (.statement node) :=
  (Good.statements upheld (upheld.expression levels)).1 node

theorem after_evaluate {node : Node} {state next : State} {value : Value}
    (ran : evaluate (state.enter rounds) node state = .ok value next)
    (sheltered : Sheltered rounds allowed ⟨.expression node,state⟩) (all : state.scope.All good) :
    next.scope.All good :=
  (ends_of_ok _ value next ran).mp ((upheld.expression _ node).evaluated rfl sheltered all)

theorem after_resolved {node : Node} {state next : State} {value : Value}
    (ran : evaluateResolved (state.enter rounds) node state = .ok value next)
    (sheltered : Sheltered rounds allowed ⟨.expression node,state⟩) (all : state.scope.All good) :
    next.scope.All good :=
  (ends_of_ok _ value next ran).mp ((upheld.expression _ node).resolved rfl sheltered all)

theorem after_condition {test : Node} {state next : State} {holds : Bool}
    (ran : condition (state.enter rounds) test state = .ok holds next)
    (sheltered : Sheltered rounds allowed ⟨.expression test,state⟩) (all : state.scope.All good) :
    next.scope.All good :=
  (ends_of_ok _ holds next ran).mp ((upheld.expression _ test).tested rfl sheltered all)

theorem after_inside {context : Context} {body : List Node} {state next : State} {levels : Nat}
    {returned : Option Value} (depth : maxDepth - state.depth = levels)
    (ran : within context (executeAll rounds (enterAt rounds levels) body) state =
      .ok returned next)
    (sheltered : Sheltered rounds allowed ⟨.sequence body,state.inside context⟩)
    (all : state.scope.All good) (made : good context) : next.scope.All good :=
  (ends_of_ok _ returned next ran).mp
    ((Good.sequence upheld levels body).inside depth sheltered all made)

theorem leads_task {visit next : Visit} (step : Leads rounds visit next)
    (made : visit.task.All good) : next.task.All good := by
  cases step with
  | iteration iterator collection body state next value contexts found items =>
    exact upheld.item value iterator contexts items
  | items context contexts => exact fun other member => made other (List.mem_cons_of_mem _ member)
  | _ => exact trivial

theorem leads_scope {visit next : Visit} (step : Leads rounds visit next)
    (sheltered : Sheltered rounds allowed visit) (made : visit.task.All good)
    (all : visit.state.scope.All good) : next.state.scope.All good := by
  have tested {test : Node} {state middle : State} {holds : Bool} {task : Task}
      (first : Leads rounds ⟨task,state⟩ ⟨.expression test,state⟩)
      (sheltered : Sheltered rounds allowed ⟨task,state⟩) (all : state.scope.All good)
      (ran : condition (state.enter rounds) test state = .ok holds middle) :
      middle.scope.All good := upheld.after_condition ran (sheltered.step first) all
  cases step with
  | arithmeticLeft | testLeft | assignedField | object | put | ret | evaluated | tested
  | loopTested | collection | first => exact all
  | arithmeticRight operator left right state next value first =>
    exact upheld.after_resolved first (sheltered.step (.arithmeticLeft operator left right state)) all
  | testRight operator left right state next value first =>
    exact upheld.after_resolved first (sheltered.step (.testLeft operator left right state)) all
  | assigned name value state next type target =>
    obtain ⟨rfl,_⟩ := targetType_ok name state next type target
    exact all
  | assignedNothing object member value state next found target =>
    exact upheld.after_evaluate target
      (sheltered.step (.assignedField object member value state)) all
  | member object member state next found plain first =>
    exact upheld.after_evaluate first (sheltered.step (.object object member state plain)) all
  | call node called arguments state function context calls declared accepted =>
    exact Scope.All.push good state.scope all context (upheld.accepted node called arguments state
      function context sheltered.here calls declared accepted all)
  | block => exact Scope.All.push good _ all _ upheld.empty
  | thenBody test body otherwise state next holds =>
    have held := tested (.tested test body otherwise state) sheltered all holds
    exact Scope.All.push good next.scope held _ upheld.empty
  | elseBody test body otherwise state next fails =>
    have held := tested (.tested test body (some otherwise) state) sheltered all fails
    exact Scope.All.push good next.scope held _ upheld.empty
  | loopBody test body state next holds =>
    have held := tested (.loopTested test body state) sheltered all holds
    exact Scope.All.push good next.scope held _ upheld.empty
  | loopAgain test body state next last holds round =>
    have held := tested (.loopTested test body state) sheltered all holds
    have deep : next.depth = state.depth := depth_condition test state next true holds
    exact upheld.after_inside (by rw [deep]) round
      (sheltered.step (.loopBody test body state next holds)) held upheld.empty
  | iteration iterator collection body state next value contexts found =>
    exact upheld.after_resolved found
      (sheltered.step (.collection iterator collection body state)) all
  | item context contexts body state =>
    exact Scope.All.push good state.scope all context (made context List.mem_cons_self)
  | items context contexts body state next round =>
    exact upheld.after_inside rfl round (sheltered.step (.item context contexts body state)) all
      (made context List.mem_cons_self)
  | rest statement rest state next first =>
    have ran := (ends_discard _).mp
      (upheld.statement _ statement state rfl (sheltered.step (.first statement rest state)) all)
    exact (ends_of_ok _ none next first).mp ran

/-- What a visit leads to is allowed, and finds good contexts only. -/
theorem visited {visit last : Visit} (reached : Relation.ReflTransGen (Leads rounds) visit last)
    (sheltered : Sheltered rounds allowed visit) (made : visit.task.All good)
    (all : visit.state.scope.All good) :
    Sheltered rounds allowed last ∧ last.task.All good ∧ last.state.scope.All good := by
  induction reached with
  | refl => exact ⟨sheltered,made,all⟩
  | tail _ step ih =>
    obtain ⟨sheltered,made,all⟩ := ih
    exact ⟨sheltered.step step,upheld.leads_task step made,upheld.leads_scope step sheltered made all⟩

theorem ends {visit : Visit} {last : State} (ended : visit.EndsIn rounds last)
    (sheltered : Sheltered rounds allowed visit) (made : visit.task.All good)
    (all : visit.state.scope.All good) : last.scope.All good := by
  have ran : Ends (fun _ next => next.scope.All good)
      (visit.task.run rounds (visit.state.enter rounds)) visit.state := by
    obtain ⟨task,state⟩ := visit
    cases task with
    | expression node => exact upheld.expression _ node state rfl sheltered all
    | statement node => exact upheld.statement _ node state rfl sheltered all
    | sequence list => exact Good.sequence upheld _ list state rfl sheltered all
    | iteration contexts body =>
      exact Good.iteration made (Good.sequence upheld _ body) state rfl sheltered all
  rcases ended with ended | ⟨fault,ended⟩
  · exact (ends_of_ok _ () last ended).mp ran
  · exact (ends_of_error _ _ last ended).mp ran

theorem ran_root {root : Node} {state next : State} {failure : Option Failure}
    (ran : runRoot rounds root state = some (failure,next)) (depth : state.depth = 0)
    (sheltered : Sheltered rounds allowed ⟨.statement root,state.executing root⟩)
    (all : state.scope.All good) : next.depth = 0 ∧ next.scope.All good := by
  have ends := (ends_discard _).mp (upheld.statement maxDepth root (state.executing root)
    (by simp [State.executing,depth]) sheltered all)
  have kept := ((executes_keep (enterAt_keeps rounds maxDepth) rounds).1 root).ends
    (state.executing root)
  constructor
  · refine runRoot_ends (·.depth = 0) root state next failure ran (fun _ _ same => same) ?_
    refine kept.mono ?_
    intro _ last same
    have deep : last.depth = state.depth := congrArg Prod.fst same
    rw [deep,depth]
  · exact runRoot_ends (·.scope.All good) root state next failure ran (fun _ _ held => held) ends

/-- A session of allowed visits reaches only states whose contexts are good. -/
theorem reaches {sink : Sink} {scripts : List Script}
    (permitted : ∀ visit, Session.Visits rounds sink scripts visit → allowed visit) {state : State}
    (reached : Session.Reaches rounds sink scripts state) : state.scope.All good := by
  obtain ⟨visit,⟨root,before,begins,within⟩,here⟩ := reached
  have sheltered (root : Node) (before : State)
      (begins : Session.Begins rounds scripts (.initial sink) root before) :
      Sheltered rounds allowed ⟨.statement root,before.executing root⟩ :=
    fun later reached => permitted later ⟨root,before,begins,reached⟩
  have empty : (State.initial sink).scope.All good := by
    intro context member
    obtain rfl := List.mem_singleton.mp member
    exact upheld.empty
  have kept (root : Node) (state : State) (failure : Option Failure) (next : State)
      (sheltered : Sheltered rounds allowed ⟨.statement root,state.executing root⟩)
      (here : state.depth = 0 ∧ state.scope.All good)
      (ran : runRoot rounds root state = some (failure,next)) :
      next.depth = 0 ∧ next.scope.All good := upheld.ran_root ran here.1 sheltered here.2
  obtain ⟨_,held⟩ := Session.Begins.holds kept begins sheltered ⟨rfl,empty⟩
  obtain ⟨safe,made,all⟩ := upheld.visited within (sheltered root before begins) trivial held
  rcases here with rfl | ended
  · exact all
  · exact upheld.ends ended safe made all

end Upheld

end

end BlockScript
