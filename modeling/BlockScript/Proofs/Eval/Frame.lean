import BlockScript.Proofs.Eval.Guards

/-! What runs leave alone. An expression changes neither the depth nor any declaration; a statement
may declare, but only in the current context. -/
namespace BlockScript

namespace Run

variable {α β View : Type}

/-- However the run ends, the view of the state is what it was. -/
def Keeps (view : State → View) (run : Run α) : Prop :=
  ∀ seen, Guards (view · = seen) (fun _ => True) run

variable {view : State → View}

theorem Keeps.ends {run : Run α} (kept : Keeps view run) (state : State) :
    Ends (fun _ next => view next = view state) run state :=
  (kept (view state) state rfl).mono fun _ _ ended => ended.2

theorem keeps_of_ends {run : Run α}
    (ends : ∀ state, Ends (fun _ next => view next = view state) run state) : Keeps view run := by
  rintro _ state rfl
  exact (ends state).mono fun _ _ same => ⟨fun _ _ => trivial,same⟩

theorem Keeps.ok {run : Run α} (kept : Keeps view run) (state next : State) (value : α)
    (ran : run state = .ok value next) : view next = view state :=
  (ends_of_ok run value next ran).mp (kept.ends state)

theorem keeps_pure (value : α) : Keeps view (pure value) := fun _ => guards_pure value

theorem keeps_throw (halt : Halt) : Keeps view (throw halt : Run α) :=
  fun _ => guards_throw halt trivial

theorem keeps_fail (fault : Fault) : Keeps view (fail fault : Run α) :=
  fun _ => guards_fail fault trivial

theorem keeps_lift (result : Except Fault α) : Keeps view (lift result) :=
  fun _ => guards_lift result fun _ _ => trivial

theorem keeps_get : Keeps view (get : Run State) := keeps_of_ends fun _ => rfl

theorem keeps_scope : Keeps view scope := keeps_of_ends fun _ => rfl

theorem keeps_modify (change : State → State) (same : ∀ state, view (change state) = view state) :
    Keeps view (modify change : Run Unit) :=
  fun _ => guards_modify change fun state here => (same state).trans here

theorem Keeps.bind {first : Run α} {next : α → Run β} (begun : Keeps view first)
    (goes : ∀ value, Keeps view (next value)) : Keeps view (first >>= next) :=
  fun seen => (begun seen).bind fun value => goes value seen

theorem Keeps.mono {Coarser : Type} {run : Run α} (kept : Keeps view run)
    (coarse : View → Coarser) : Keeps (coarse ∘ view) run := by
  refine keeps_of_ends ?_
  intro state
  exact (kept.ends state).mono fun _ _ same => congrArg coarse same

theorem Keeps.discard {run : Run α} (kept : Keeps view run) : Keeps view (discard run) :=
  fun seen => (kept seen).discard

theorem Keeps.orNext {first next : Run (Option Value)} (begun : Keeps view first)
    (goes : Keeps view next) : Keeps view (orNext first next) :=
  fun seen => (begun seen).orNext (goes seen)

theorem Keeps.forEach {step : β → Run (Option Value)} (kept : ∀ item, Keeps view (step item))
    (items : List β) : Keeps view (forEach step items) :=
  fun seen => Guards.forEach items fun item => kept item seen

theorem Keeps.countUp {step : Nat → Run (Option Value)} (kept : ∀ item, Keeps view (step item))
    (first count : Nat) : Keeps view (countUp step first count) :=
  fun seen => Guards.countUp first count fun item => kept item seen

theorem Keeps.repeatWhile {condition : Run Bool} {body : Run (Option Value)}
    (tested : Keeps view condition) (kept : Keeps view body) (rounds : Nat) :
    Keeps view (repeatWhile condition body rounds) :=
  fun seen => Guards.repeatWhile rounds trivial (tested seen) (kept seen)

theorem keeps_write (text : String) (same : ∀ state sink, view { state with sink } = view state) :
    Keeps view (write text) :=
  fun _ => Guards.write text trivial fun state sink here => (same state sink).trans here

theorem keeps_record (event : Event)
    (same : ∀ state log, view { state with log } = view state) : Keeps view (record event) :=
  keeps_modify _ fun _ => same _ _

theorem keeps_command (command : HandlerCommand) (name : String)
    (same : ∀ state handlers log, view { state with handlers, log } = view state) :
    Keeps view (Run.command command name) :=
  fun _ => Guards.command command name fun state handlers log here =>
    (same state handlers log).trans here

end Run

def Scope.declarations (scope : Scope) : List (Table Declared) := scope.contexts.map (·.declared)

def State.standing (state : State) : Nat × List (Table Declared) :=
  (state.depth,state.scope.declarations)

def State.surroundings (state : State) : Nat × List (Table Declared) :=
  (state.depth,state.scope.declarations.tail)

namespace Run

variable {α : Type}

theorem Keeps.surroundings {run : Run α} (kept : Keeps State.standing run) :
    Keeps State.surroundings run :=
  kept.mono fun standing => (standing.1,standing.2.tail)

/-- What a run declares in a context of its own is gone with that context. -/
theorem Keeps.within {run : Run α} (kept : Keeps State.surroundings run) (context : Context) :
    Keeps State.standing (within context run) := by
  refine keeps_of_ends ?_
  intro state
  rw [ends_within]
  refine (kept.ends _).mono ?_
  intro _ next same
  obtain ⟨depth,around⟩ := Prod.mk.injEq .. ▸ same
  refine Prod.ext depth ?_
  obtain ⟨⟨current,outer⟩,_⟩ := next
  simp only [Scope.declarations,Scope.contexts,Scope.push,List.map_cons,List.tail_cons] at around
  cases outer with
  | nil => simp at around
  | cons context outer =>
    simpa [State.standing,Scope.declarations,Scope.contexts,Scope.pop] using around

theorem Keeps.deeper {run : Run α} (kept : Keeps State.standing run) :
    Keeps State.standing (deeper run) := by
  refine keeps_of_ends ?_
  intro state
  rw [ends_deeper]
  refine (kept.ends _).mono ?_
  intro _ next same
  obtain ⟨depth,around⟩ := Prod.mk.injEq .. ▸ same
  refine Prod.ext ?_ around
  change next.depth - 1 = state.depth
  change next.depth = state.depth + 1 at depth
  omega

end Run

theorem map_declared_bindOwner (name : String) (value : Value) (contexts bound : List Context)
    (owned : bindOwner? name value contexts = some bound) :
    bound.map (·.declared) = contexts.map (·.declared) := by
  induction contexts generalizing bound with
  | nil => simp [bindOwner?] at owned
  | cons context outer ih =>
    simp only [bindOwner?] at owned
    split at owned
    · obtain rfl := Option.some.inj owned
      rfl
    · obtain ⟨rest,found,rfl⟩ := Option.map_eq_some_iff.mp owned
      simp [ih rest found]

theorem Scope.declared?_declarations (scope : Scope) (name : String) :
    scope.declared? name = scope.declarations.findSome? (·.find? name) := by
  rw [declarations,List.findSome?_map]
  rfl

theorem Scope.declarations_assign (scope : Scope) (name : String) (value : Value) :
    (scope.assign name value).declarations = scope.declarations := by
  unfold assign
  split
  next current outer owned =>
    exact map_declared_bindOwner name value scope.contexts (current :: outer) owned
  next => rfl

namespace Run

variable {View : Type} {view : State → View}

theorem keeps_resolve (value : Value) : Keeps view (resolve value) := by
  unfold resolve
  split
  next text =>
    refine keeps_scope.bind ?_
    intro scope
    split
    · exact keeps_pure _
    · split
      · exact keeps_fail _
      · exact keeps_fail _
  next => exact keeps_pure _

theorem keeps_commandHandler (command : HandlerCommand) (called : String)
    (same : ∀ state handlers log, view { state with handlers, log } = view state) :
    Keeps view (commandHandler command called) := by
  refine keeps_scope.bind ?_
  intro scope
  split
  · exact (keeps_command command called same).bind fun _ => keeps_pure _
  · exact keeps_fail _

theorem keeps_targetType (name : String) : Keeps view (targetType name) := by
  refine keeps_scope.bind ?_
  intro scope
  split
  · split
    · exact keeps_pure _
    · exact keeps_fail _
  · exact keeps_fail _

theorem keeps_store (name : String) (type : TypeName) (value : Value) :
    Keeps State.standing (store name type value) := by
  unfold store
  split
  · refine Keeps.bind (keeps_modify _ ?_) fun _ => keeps_pure value
    intro state
    exact congrArg (state.depth,·) (state.scope.declarations_assign name value)
  · exact keeps_fail _

end Run

section
variable {enter : Enter} (entered : ∀ body, Run.Keeps State.surroundings (enter body))
include entered
open Run

theorem keeps_call (called : String) (arguments : List Node) :
    Keeps State.standing (call enter called arguments) := by
  refine keeps_get.bind ?_
  intro state
  split
  next function _ =>
    refine (keeps_record _ fun _ _ => rfl).bind ?_
    intro _
    refine (keeps_lift _).bind ?_
    intro context
    refine ((entered function.body).within context).deeper.bind ?_
    intro returned
    exact keeps_lift _
  next => exact keeps_fail _

theorem evaluate_keeps (node : Node) : Keeps State.standing (evaluate enter node) := by
  induction node using evaluate.induct with
  | case1 | case2 | case3 | case4 => exact keeps_pure _
  | case5 operator left right ihLeft ihRight =>
    refine (ihLeft.bind keeps_resolve).bind ?_
    intro first
    refine (ihRight.bind keeps_resolve).bind ?_
    intro second
    exact keeps_lift _
  | case6 operator left right ihLeft ihRight =>
    refine (ihLeft.bind keeps_resolve).bind ?_
    intro first
    refine (ihRight.bind keeps_resolve).bind ?_
    intro second
    exact keeps_lift _
  | case7 value object member ihTarget ihValue =>
    exact ihTarget.discard.bind fun _ => ihValue.discard.bind fun _ => keeps_pure _
  | case8 value text ihValue =>
    refine (keeps_targetType text).bind ?_
    intro type
    refine (ihValue.bind keeps_resolve).bind ?_
    intro held
    exact keeps_store text type held
  | case9 value target notField notName =>
    cases target with
    | field object member => exact (notField object member rfl).elim
    | name text => exact (notName text rfl).elim
    | _ => exact keeps_fail _
  | case10 member called command found =>
    rw [evaluate]
    · exact keeps_commandHandler command called fun _ _ _ => rfl
    · exact found
  | case11 member object plain ihObject ihMember =>
    rw [evaluate]
    · exact ihObject.discard.bind fun _ => ihMember
    · exact plain
  | case12 called arguments => exact keeps_call entered called arguments.argumentList
  | case13 called => exact keeps_call entered called []
  | case14 | case15 | case16 => exact keeps_fail _
  | case17 node => cases node <;> first | exact keeps_fail _ | simp_all

theorem evaluateResolved_keeps (node : Node) :
    Keeps State.standing (evaluateResolved enter node) :=
  (evaluate_keeps entered node).bind keeps_resolve

theorem condition_keeps (node : Node) : Keeps State.standing (condition enter node) := by
  refine (evaluateResolved_keeps entered node).bind ?_
  intro value
  split
  · exact keeps_pure _
  · exact keeps_fail _

omit entered in
theorem iterate_keeps (iterator : String) (body : Run (Option Value)) (collection : Value)
    (kept : Keeps State.surroundings body) :
    Keeps State.standing (iterate iterator body collection) := by
  unfold iterate
  split
  · exact Keeps.countUp (fun _ => kept.within _) 0 _
  · exact Keeps.forEach (fun _ => kept.within _) _
  · exact keeps_fail _

omit entered in
theorem declare_keeps (name : String) (declared : Declared) :
    Keeps State.surroundings (declare name declared) :=
  Keeps.bind (keeps_modify _ fun _ => rfl) fun _ => keeps_pure none

/-- However a statement ends, the depth and the declarations around the current context are those
before it. -/
theorem executes_keep (rounds : Nat) :
    (∀ node, Keeps State.surroundings (execute rounds enter node)) ∧
      ∀ statements, Keeps State.surroundings (executeAll rounds enter statements) := by
  refine execute.mutual_induct _ _ ?typed ?function ?handler ?put ?ret ?block ?ifNothing ?ifThen
    ?whileNothing ?whileDo ?forNothing ?forIn ?forOther ?expression ?nil ?cons
  case typed => exact fun declared => declare_keeps declared.name _
  case function => exact fun called _ _ _ => declare_keeps called _
  case handler => exact fun called => declare_keeps called _
  case put =>
    intro operand
    refine (evaluate_keeps entered operand).surroundings.bind ?_
    intro value
    refine keeps_scope.bind ?_
    intro scope
    exact (keeps_write _ fun _ _ => rfl).bind fun _ => keeps_pure none
  case ret =>
    intro operand
    exact (evaluateResolved_keeps entered operand).surroundings.bind fun _ => keeps_pure _
  case block =>
    intro statements inside
    exact (inside.within .empty).surroundings
  case ifThen =>
    intro test body otherwise inside instead
    have tested := (condition_keeps entered test).surroundings
    have kept := (inside.within .empty).surroundings
    cases otherwise with
    | none =>
      refine tested.bind ?_
      intro holds
      cases holds with
      | true => exact kept
      | false => exact keeps_pure none
    | some statements =>
      refine tested.bind ?_
      intro holds
      cases holds with
      | true => exact kept
      | false => exact (instead.within .empty).surroundings
  case whileDo =>
    intro test body inside
    exact ((condition_keeps entered test).repeatWhile (inside.within .empty) rounds).surroundings
  case forIn =>
    intro iterator collection body inside
    refine ((evaluateResolved_keeps entered collection).bind ?_).surroundings
    intro value
    exact iterate_keeps iterator _ value inside
  case ifNothing => exact fun _ _ => keeps_fail _
  case whileNothing => exact fun _ => keeps_fail _
  case forNothing => exact fun _ _ => keeps_fail _
  case forOther =>
    intro iterator collection body other
    cases iterator with
    | name text => exact (other text rfl).elim
    | _ => exact keeps_fail _
  case expression =>
    intro node
    intros
    rw [execute]
    · exact (evaluate_keeps entered node).surroundings.discard.bind fun _ => keeps_pure none
    all_goals assumption
  case nil => exact keeps_pure none
  case cons =>
    intro statement rest first others
    exact first.orNext others

end

theorem enterAt_keeps (rounds levels : Nat) (body : List Node) :
    Run.Keeps State.surroundings (enterAt rounds levels body) := by
  induction levels generalizing body with
  | zero => exact Run.keeps_throw .outOfRounds
  | succ levels ih => exact (executes_keep ih rounds).2 body

end BlockScript
