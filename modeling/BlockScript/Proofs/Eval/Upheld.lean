import BlockScript.Proofs.Eval.Arguments
import BlockScript.Proofs.Eval.Owner
import BlockScript.Proofs.Eval.Visit

/-! Properties of every live context that a session upholds. It is enough to look at the places
where contexts are made, where a value is stored and where a name is declared. -/
namespace BlockScript
open Run

section
variable (enter : Enter)

theorem evaluate_calling (node : Node) (called : String) (arguments : List Node)
    (calls : node.calling? = some (called,arguments)) :
    evaluate enter node = call enter called arguments := by
  cases node with
  | call other given =>
    obtain ⟨rfl,rfl⟩ : other = called ∧ given.argumentList = arguments := by
      simpa [Node.calling?] using calls
    rfl
  | callNoArgs other =>
    obtain ⟨rfl,rfl⟩ : other = called ∧ [] = arguments := by simpa [Node.calling?] using calls
    rfl
  | _ => simp [Node.calling?] at calls

theorem execute_declares (rounds : Nat) (node : Node) (name : String) (declared : Declared)
    (declares : node.declares? = some (name,declared)) :
    execute rounds enter node = declare name declared := by
  cases node with
  | typed typed =>
    obtain ⟨rfl,rfl⟩ : typed.name = name ∧ Declared.typed typed.type = declared := by
      simpa [Node.declares?] using declares
    rfl
  | function called returns parameters body =>
    obtain ⟨rfl,rfl⟩ : called = name ∧
        Declared.function ⟨called,returns,parameters,body⟩ = declared := by
      simpa [Node.declares?] using declares
    rfl
  | handler called =>
    obtain ⟨rfl,rfl⟩ : called = name ∧ Declared.handler = declared := by
      simpa [Node.declares?] using declares
    rfl
  | _ => simp [Node.declares?] at declares

theorem execute_evaluates (rounds : Nat) (node : Node) (plain : node.isStatement = false) :
    execute rounds enter node = (do discard (evaluate enter node); return none) := by
  cases node <;> first | rfl | contradiction

end

theorem countUp_range (step : Nat → Run (Option Value)) (first count : Nat) :
    countUp step first count = forEach step (List.range' first count) := by
  induction count generalizing first with
  | zero => rfl
  | succ count ih => simp [countUp,List.range'_succ,forEach,ih]

theorem forEach_map {α β : Type} (step : β → Run (Option Value)) (change : α → β)
    (items : List α) : forEach step (items.map change) = forEach (fun item => step (change item)) items := by
  induction items with
  | nil => rfl
  | cons item items ih => simp [forEach,ih]

theorem iterate_rounds (iterator : String) (body : Run (Option Value)) (value : Value)
    (contexts : List Context) (items : value.rounds? iterator = some contexts) :
    iterate iterator body value = forEach (within · body) contexts := by
  cases value with
  | int number =>
    obtain rfl := Option.some.inj items
    rw [iterate,countUp_range,forEach_map,List.range_eq_range']
  | string text =>
    obtain rfl := Option.some.inj items
    rw [iterate,forEach_map]
  | _ => simp [Value.rounds?] at items

/-- Each round has a context with the iterator alone, which holds an item of its type. -/
theorem Value.single_of_rounds (value : Value) (iterator : String) (contexts : List Context)
    (items : value.rounds? iterator = some contexts) (context : Context)
    (member : context ∈ contexts) :
    ∃ type item, context = .single iterator type item ∧ item.conforms type = true := by
  cases value with
  | int number =>
    obtain rfl := Option.some.inj items
    obtain ⟨item,_,rfl⟩ := List.mem_map.mp member
    exact ⟨_,_,rfl,rfl⟩
  | string text =>
    obtain rfl := Option.some.inj items
    obtain ⟨item,_,rfl⟩ := List.mem_map.mp member
    exact ⟨_,_,rfl,rfl⟩
  | _ => contradiction

theorem iterate_nothing (iterator : String) (body : Run (Option Value)) (value : Value)
    (items : value.rounds? iterator = none) :
    iterate iterator body value = fail (.invalidIterable value) := by
  cases value with
  | int number => simp [Value.rounds?] at items
  | string text => simp [Value.rounds?] at items
  | _ => rfl

def Scope.All (good : Context → Prop) (scope : Scope) : Prop :=
  ∀ context ∈ scope.contexts, good context

theorem Scope.All.push (good : Context → Prop) (scope : Scope) (all : scope.All good)
    (context : Context) (made : good context) : (scope.push context).All good := by
  intro other member
  obtain rfl | member := List.mem_cons.mp member
  · exact made
  · exact all other member

theorem Scope.All.pop (good : Context → Prop) (scope : Scope) (all : scope.All good) :
    scope.pop.All good := by
  intro other member
  refine all other ?_
  obtain ⟨current,outer⟩ := scope
  cases outer with
  | nil => exact member
  | cons context outer => exact List.mem_cons_of_mem current member

theorem Scope.All.assign (good : Context → Prop) (scope : Scope) (all : scope.All good)
    {name : String} {inner outer : List Context} {context : Context}
    (owner : Owner scope name inner context outer) (value : Value)
    (bound : good (context.bind name value)) : (scope.assign name value).All good := by
  unfold All at all ⊢
  rw [owner.split] at all
  rw [owner.assigned value]
  grind

/-- A property of contexts survives everything that the allowed visits do themselves. -/
structure Upheld (rounds : Nat) (good : Context → Prop) (allowed : Visit → Prop) : Prop where
  empty : good .empty
  item : ∀ (value : Value) iterator contexts, value.rounds? iterator = some contexts →
    ∀ context ∈ contexts, good context
  stored : ∀ (scope : Scope) name declared type (value : Value), scope.All good →
    scope.declared? name = some declared → declared.type? = some type →
      value.conforms type = true → (scope.assign name value).All good
  declared : ∀ (node : Node) name declared (state : State), allowed ⟨.statement node,state⟩ →
    node.declares? = some (name,declared) → state.scope.All good →
      good (state.scope.current.declare name declared)
  accepted : ∀ (node : Node) called arguments (state : State) function context,
    allowed ⟨.expression node,state⟩ → node.calling? = some (called,arguments) →
      state.scope.declared? called = some (.function function) →
        function.accept state.scope state.depth arguments = .ok context →
          state.scope.All good → good context

def Sheltered (rounds : Nat) (allowed : Visit → Prop) (visit : Visit) : Prop :=
  ∀ later, Relation.ReflTransGen (Leads rounds) visit later → allowed later

section
variable {rounds : Nat} {good : Context → Prop} {allowed : Visit → Prop}

theorem Sheltered.here {visit : Visit} (sheltered : Sheltered rounds allowed visit) :
    allowed visit := sheltered visit .refl

theorem Sheltered.step {visit next : Visit} (sheltered : Sheltered rounds allowed visit)
    (leads : Leads rounds visit next) : Sheltered rounds allowed next :=
  fun later reached => sheltered later (.head leads reached)

def Good (rounds : Nat) (good : Context → Prop) (allowed : Visit → Prop) (levels : Nat)
    (task : Task) : Prop :=
  ∀ state : State, maxDepth - state.depth = levels → Sheltered rounds allowed ⟨task,state⟩ →
    state.scope.All good →
      Ends (fun _ next => next.scope.All good) (task.run rounds (enterAt rounds levels)) state

variable {levels : Nat}

theorem State.enter_of_depth (state : State) (depth : maxDepth - state.depth = levels) :
    state.enter rounds = enterAt rounds levels := by rw [State.enter,depth]

theorem targetType_ok (name : String) (state next : State) (type : TypeName)
    (found : targetType name state = .ok type next) :
    next = state ∧ ∃ declared, state.scope.declared? name = some declared ∧
      declared.type? = some type := by
  unfold targetType at found
  rw [scope_bind] at found
  cases same : state.scope.declared? name with
  | none =>
    rw [same] at found
    cases found
  | some declared =>
    cases typed : declared.type? with
    | none =>
      simp only [same,typed] at found
      cases found
    | some other =>
      simp only [same,typed] at found
      cases found
      exact ⟨rfl,declared,rfl,typed⟩

theorem depth_evaluate (node : Node) (state next : State) (value : Value)
    (ran : evaluate (enterAt rounds levels) node state = .ok value next) :
    next.depth = state.depth :=
  congrArg Prod.fst ((evaluate_keeps (enterAt_keeps rounds levels) node).ok state next value ran)

theorem depth_evaluateResolved (node : Node) (state next : State) (value : Value)
    (ran : evaluateResolved (enterAt rounds levels) node state = .ok value next) :
    next.depth = state.depth :=
  congrArg Prod.fst
    ((evaluateResolved_keeps (enterAt_keeps rounds levels) node).ok state next value ran)

theorem declared_evaluateResolved (node : Node) (state next : State) (value : Value)
    (ran : evaluateResolved (enterAt rounds levels) node state = .ok value next) (name : String) :
    next.scope.declared? name = state.scope.declared? name := by
  have same : next.scope.declarations = state.scope.declarations := congrArg Prod.snd
    ((evaluateResolved_keeps (enterAt_keeps rounds levels) node).ok state next value ran)
  rw [Scope.declared?_declarations,same,← Scope.declared?_declarations]

namespace Good

theorem evaluated {node : Node} (fine : Good rounds good allowed levels (.expression node))
    {state : State} (depth : maxDepth - state.depth = levels)
    (sheltered : Sheltered rounds allowed ⟨.expression node,state⟩) (all : state.scope.All good) :
    Ends (fun _ next => next.scope.All good) (evaluate (enterAt rounds levels) node) state :=
  (ends_discard _).mp (fine state depth sheltered all)

theorem resolved {node : Node} (fine : Good rounds good allowed levels (.expression node))
    {state : State} (depth : maxDepth - state.depth = levels)
    (sheltered : Sheltered rounds allowed ⟨.expression node,state⟩) (all : state.scope.All good) :
    Ends (fun _ next => next.scope.All good) (evaluateResolved (enterAt rounds levels) node)
      state := by
  refine (fine.evaluated depth sheltered all).bind ?_
  intro value middle _ held
  have kept : Keeps State.scope (resolve value) := keeps_resolve value
  refine (kept.ends middle).mono ?_
  intro _ next same
  rwa [same]

theorem operands {node left right : Node} (goodLeft : Good rounds good allowed levels (.expression left))
    (goodRight : Good rounds good allowed levels (.expression right))
    (leadsLeft : ∀ state, Leads rounds ⟨.expression node,state⟩ ⟨.expression left,state⟩)
    (leadsRight : ∀ state next value,
      evaluateResolved (state.enter rounds) left state = .ok value next →
        Leads rounds ⟨.expression node,state⟩ ⟨.expression right,next⟩)
    (apply : Value → Value → Except Fault Value)
    (same : evaluate (enterAt rounds levels) node = (do
      let first ← evaluate (enterAt rounds levels) left >>= resolve
      let second ← evaluate (enterAt rounds levels) right >>= resolve
      lift (apply first second))) :
    Good rounds good allowed levels (.expression node) := by
  intro state depth sheltered all
  refine (ends_discard _).mpr ?_
  rw [same]
  refine (goodLeft.resolved depth (sheltered.step (leadsLeft state)) all).bind ?_
  intro first middle ran held
  have deep := depth_evaluateResolved left state middle first ran
  have leads := leadsRight state middle first (by rwa [state.enter_of_depth depth])
  refine (goodRight.resolved (by rw [deep,depth]) (sheltered.step leads) held).bind ?_
  intro second last _ kept
  exact Ends.lift (fun _ _ => kept) (fun _ _ => kept)

theorem assign {name : String} {value : Node} (upheld : Upheld rounds good allowed)
    (fine : Good rounds good allowed levels (.expression value)) :
    Good rounds good allowed levels (.expression (.assign (.name name) value)) := by
  intro state depth sheltered all
  refine (ends_discard _).mpr ?_
  have begun : Ends (fun _ next => next.scope.All good) (targetType name) state := by
    have kept : Keeps State.scope (targetType name) := keeps_targetType name
    refine (kept.ends state).mono ?_
    intro _ next same
    rwa [same]
  refine begun.bind ?_
  intro type next found _
  have leads : Leads rounds _ _ := .assigned name value state next type found
  obtain ⟨rfl,declared,declares,typed⟩ := targetType_ok name state next type found
  refine (fine.resolved depth (sheltered.step leads) all).bind ?_
  intro held middle ran kept
  unfold store
  split
  next conforms =>
    change (middle.scope.assign name held).All good
    refine upheld.stored middle.scope name declared type held kept ?_ typed conforms
    rw [declared_evaluateResolved value next middle held ran name,declares]
  next => exact kept

theorem assignField {object member value : Node}
    (goodTarget : Good rounds good allowed levels (.expression (.field object member)))
    (goodValue : Good rounds good allowed levels (.expression value)) :
    Good rounds good allowed levels (.expression (.assign (.field object member) value)) := by
  intro state depth sheltered all
  refine (ends_discard _).mpr ?_
  have begun := goodTarget.evaluated depth (sheltered.step (.assignedField object member value state))
    all
  refine ((ends_discard _).mpr begun).bind ?_
  intro nothing next ran held
  obtain ⟨found,ran⟩ := ok_of_discard _ nothing next ran
  have deep := depth_evaluate _ state next found ran
  rw [← state.enter_of_depth depth] at ran
  have leads : Leads rounds _ _ := .assignedNothing object member value state next found ran
  have kept := goodValue.evaluated (by rw [deep,depth]) (sheltered.step leads) held
  exact ((ends_discard _).mpr kept).bind fun _ _ _ last => last

theorem field {object member : Node}
    (plain : ∀ called command, object = .name called → handlerCommand? member = some command → False)
    (goodObject : Good rounds good allowed levels (.expression object))
    (goodMember : Good rounds good allowed levels (.expression member)) :
    Good rounds good allowed levels (.expression (.field object member)) := by
  intro state depth sheltered all
  refine (ends_discard _).mpr ?_
  rw [evaluate]
  · have begun := goodObject.evaluated depth (sheltered.step (.object object member state plain)) all
    refine ((ends_discard _).mpr begun).bind ?_
    intro nothing next ran held
    obtain ⟨found,ran⟩ := ok_of_discard _ nothing next ran
    have deep := depth_evaluate _ state next found ran
    rw [← state.enter_of_depth depth] at ran
    have leads : Leads rounds _ _ := .member object member state next found plain ran
    exact goodMember.evaluated (by rw [deep,depth]) (sheltered.step leads) held
  · exact plain

theorem call {node : Node} {called : String} {arguments : List Node}
    (upheld : Upheld rounds good allowed) (calls : node.calling? = some (called,arguments))
    (deeper : ∀ fewer, levels = fewer + 1 → ∀ body, Good rounds good allowed fewer (.sequence body)) :
    Good rounds good allowed levels (.expression node) := by
  intro state depth sheltered all
  refine (ends_discard _).mpr ?_
  rw [evaluate_calling _ node called arguments calls]
  refine (ends_get _).mpr ?_
  split
  next function declared =>
    refine (ends_record _ _).mpr ?_
    cases accepted : function.accept state.scope state.depth arguments with
    | error fault => exact all
    | ok context =>
      have room := (function.accept_ok accepted).2.1
      obtain ⟨fewer,rfl⟩ : ∃ fewer, levels = fewer + 1 := ⟨levels - 1,by omega⟩
      have leads : Leads rounds _ _ :=
        .call node called arguments state function context calls declared accepted
      have made := upheld.accepted node called arguments state function context sheltered.here calls
        declared accepted all
      have ran := deeper fewer rfl function.body (state.calling function context)
        (by simp only [State.calling]; omega) (sheltered.step leads)
        (Scope.All.push good state.scope all context made)
      have body : Ends (fun _ next => next.scope.pop.All good)
          (enterAt rounds (fewer + 1) function.body) (state.calling function context) :=
        ((ends_discard _).mp ran).mono fun _ next held => Scope.All.pop good next.scope held
      have whole : Ends (fun _ next => next.scope.All good)
          (Run.deeper (within context (enterAt rounds (fewer + 1) function.body)))
          { state with log := .called function.called function.parameters.length state.depth ::
            state.log } := (ends_deeper _).mpr ((ends_within _ _).mpr body)
      refine whole.bind ?_
      intro returned last _ kept
      exact Ends.lift (fun _ _ => kept) (fun _ _ => kept)
  next => exact all

theorem still {node : Node}
    (same : Keeps State.scope (evaluate (enterAt rounds levels) node)) :
    Good rounds good allowed levels (.expression node) := by
  intro state _ _ all
  refine (ends_discard _).mpr ((same.ends state).mono ?_)
  intro _ next same
  rwa [same]

/-- Expressions leave good contexts if the bodies of the functions they call do. -/
theorem expression (upheld : Upheld rounds good allowed)
    (deeper : ∀ fewer, levels = fewer + 1 → ∀ body, Good rounds good allowed fewer (.sequence body))
    (node : Node) : Good rounds good allowed levels (.expression node) := by
  induction node using evaluate.induct with
  | case1 | case2 | case3 | case4 => exact still (keeps_pure _)
  | case5 operator left right ihLeft ihRight =>
    exact operands ihLeft ihRight (.arithmeticLeft operator left right)
      (.arithmeticRight operator left right) operator.apply rfl
  | case6 operator left right ihLeft ihRight =>
    exact operands ihLeft ihRight (.testLeft operator left right)
      (.testRight operator left right) operator.apply rfl
  | case7 value object member ihTarget ihValue => exact assignField ihTarget ihValue
  | case8 value text ihValue => exact assign upheld ihValue
  | case9 value target notField notName =>
    cases target with
    | field object member => exact (notField object member rfl).elim
    | name text => exact (notName text rfl).elim
    | _ => exact still (keeps_fail _)
  | case10 member called command found =>
    refine still ?_
    rw [evaluate]
    · exact keeps_commandHandler command called fun _ _ _ => rfl
    · exact found
  | case11 member object plain ihObject ihMember => exact field plain ihObject ihMember
  | case12 called arguments => exact call upheld rfl deeper
  | case13 called => exact call upheld rfl deeper
  | case14 | case15 | case16 => exact still (keeps_fail _)
  | case17 node => cases node <;> first | exact still (keeps_fail _) | simp_all

end Good

end

end BlockScript
