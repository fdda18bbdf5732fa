import BlockScript.Proofs.Build.Structure
import BlockScript.Proofs.Eval.Alike
import BlockScript.Proofs.Eval.Stack

/-! Scopes that programs do not tell apart. It is enough that single steps treat them alike: then
every expression and every statement does, with all the functions that are called on the way. -/
namespace BlockScript
open Run

/-- Scopes that belong together, in a relation for each number of contexts that were entered, and
the statements that may run there. -/
structure Coupled (alike : Nat → Scope → Scope → Prop) (fit : Nat → Node → Prop) : Prop where
  declared : ∀ {entered left right}, alike entered left right → ∀ name,
    left.declared? name = right.declared? name
  value : ∀ {entered left right}, alike entered left right → ∀ name,
    left.value? name = right.value? name
  pushed : ∀ {entered left right}, alike entered left right → ∀ context : Context, context.Plain →
    alike (entered + 1) (left.push context) (right.push context)
  popped : ∀ {entered left right}, alike (entered + 1) left right →
    alike entered left.pop right.pop
  assigned : ∀ {entered left right}, alike entered left right → ∀ name value,
    (left.declared? name).isSome = true →
      alike entered (left.assign name value) (right.assign name value)
  declares : ∀ {entered left right}, alike entered left right → ∀ node name declared,
    fit entered node → node.declares? = some (name,declared) →
      alike entered (left.declare name declared) (right.declare name declared)
  inside : ∀ {entered node}, fit entered node → ∀ block ∈ node.blocks, ∀ statement ∈ block,
    fit (entered + 1) statement
  body : ∀ {entered left right}, alike entered left right → ∀ called function,
    left.declared? called = some (.function function) → ∀ statement ∈ function.body,
      fit (entered + 1) statement

/-- States with scopes that belong together and that are else the same. There are levels enough for
all calls that the depth still allows. -/
def State.Beside (alike : Scope → Scope → Prop) (levels : Nat) (left right : State) : Prop :=
  maxDepth ≤ left.depth + levels ∧
    ∃ scope, alike left.scope scope ∧ right = { left with scope }

namespace Run

section
variable {alike : Scope → Scope → Prop} {levels : Nat} {endless : Prop}

theorem alike_write (text : String) :
    Alike (State.Beside alike levels) endless (write text) (write text) := by
  refine Alike.get ?_
  rintro left _ ⟨_,scope,_,rfl⟩
  dsimp only
  generalize left.sink.write text = outcome
  obtain ⟨fits,sink⟩ := outcome
  refine (alike_modify _ ?_).bind ?_
  · rintro left _ ⟨room,scope,here,rfl⟩
    exact ⟨room,scope,here,rfl⟩
  · intro _
    cases fits with
    | true => exact alike_pure ()
    | false => exact alike_fail .sinkFull

theorem alike_record (event : Event) :
    Alike (State.Beside alike levels) endless (record event) (record event) := by
  refine alike_modify _ ?_
  rintro left _ ⟨room,scope,here,rfl⟩
  exact ⟨room,scope,here,rfl⟩

theorem alike_command (command : HandlerCommand) (name : String) :
    Alike (State.Beside alike levels) endless (Run.command command name)
      (Run.command command name) := by
  refine Alike.get ?_
  rintro left _ ⟨_,scope,_,rfl⟩
  dsimp only
  generalize left.handlers.obey command name = outcome
  obtain ⟨notice,handlers⟩ := outcome
  refine (alike_modify _ ?_).bind fun _ => alike_record _
  rintro left _ ⟨room,scope,here,rfl⟩
  exact ⟨room,scope,here,rfl⟩

theorem alike_modifyScope (change : Scope → Scope)
    (kept : ∀ left right, alike left right → alike (change left) (change right)) :
    Alike (State.Beside alike levels) endless (modifyScope change) (modifyScope change) := by
  refine alike_modify _ ?_
  rintro left _ ⟨room,scope,here,rfl⟩
  exact ⟨room,_,kept _ _ here,rfl⟩

theorem Alike.within {inner : Scope → Scope → Prop} {first second : Run (Option Value)}
    (ran : Alike (State.Beside inner levels) endless first second) (context : Context)
    (pushed : ∀ left right, alike left right → inner (left.push context) (right.push context))
    (popped : ∀ left right, inner left right → alike left.pop right.pop) :
    Alike (State.Beside alike levels) endless (Run.within context first)
      (Run.within context second) := by
  refine ran.between ?_ ?_
  · rintro left _ ⟨room,scope,here,rfl⟩
    exact ⟨room,_,pushed _ _ here,rfl⟩
  · rintro left _ ⟨room,scope,here,rfl⟩
    exact ⟨room,_,popped _ _ here,rfl⟩

theorem Alike.deeper {first second : Run (Option Value)}
    (ran : Alike (State.Beside alike levels) endless first second) :
    Alike (State.Beside alike (levels + 1)) endless (deeper first) (deeper second) := by
  refine ran.between ?_ ?_
  · rintro left _ ⟨room,scope,here,rfl⟩
    exact ⟨by dsimp only; omega,scope,here,rfl⟩
  · rintro left _ ⟨room,scope,here,rfl⟩
    exact ⟨by dsimp only; omega,scope,here,rfl⟩

theorem alike_resolve (value : Value)
    (agree : ∀ name, value = .name name →
      ∀ left right, alike left right → left.AgreeOn right name) :
    Alike (State.Beside alike levels) endless (resolve value) (resolve value) := by
  unfold resolve
  split
  next text =>
    refine Alike.scope ?_
    rintro left _ ⟨_,scope,here,rfl⟩
    have looked := agree text rfl _ _ here
    dsimp only
    rw [looked.value,looked.declared]
    split
    · exact alike_pure _
    · split
      · exact alike_fail _
      · exact alike_fail _
  next => exact alike_pure _

theorem alike_print (value : Value)
    (agree : ∀ name, value = .name name →
      ∀ left right, alike left right → left.AgreeOn right name) :
    Alike (State.Beside alike levels) endless
      (do Run.write (outputText (← Run.scope) value))
      (do Run.write (outputText (← Run.scope) value)) := by
  refine Alike.scope ?_
  rintro left _ ⟨_,scope,here,rfl⟩
  have same : outputText left.scope value = outputText scope value := by
    cases value with
    | name text =>
      have looked := agree text rfl _ _ here
      simp only [outputText,looked.declared,looked.value]
    | _ => rfl
  dsimp only
  rw [same]
  exact alike_write _

section
variable {name : String}
  (agree : ∀ left right, alike left right → left.declared? name = right.declared? name)
include agree

theorem alike_commandHandler (command : HandlerCommand) :
    Alike (State.Beside alike levels) endless (commandHandler command name)
      (commandHandler command name) := by
  refine Alike.scope ?_
  rintro left _ ⟨_,scope,here,rfl⟩
  dsimp only
  rw [agree _ _ here]
  split
  · exact (alike_command command name).bind fun _ => alike_pure _
  · exact alike_fail _

theorem alike_targetType :
    Alike (State.Beside alike levels) endless (targetType name) (targetType name) := by
  refine Alike.scope ?_
  rintro left _ ⟨_,scope,here,rfl⟩
  dsimp only
  rw [agree _ _ here]
  split
  · split
    · exact alike_pure _
    · exact alike_fail _
  · exact alike_fail _

/-- Calls are alike if the bodies are that the calls enter. -/
theorem alike_call {enter other : Enter} (arguments : List Node)
    (given : ∀ argument, .name argument ∈ arguments →
      ∀ left right, alike left right → left.AgreeOn right argument)
    (deep : ∀ (left : State) scope function context, maxDepth ≤ left.depth + levels →
      alike left.scope scope → left.scope.declared? name = some (.function function) →
        function.accept left.scope left.depth arguments = .ok context →
          Alike (State.Beside alike levels) endless
            (deeper (Run.within context (enter function.body)))
            (deeper (Run.within context (other function.body)))) :
    Alike (State.Beside alike levels) endless (call enter name arguments)
      (call other name arguments) := by
  refine Alike.get ?_
  rintro left _ ⟨room,scope,here,rfl⟩
  dsimp only
  rw [← agree _ _ here]
  split
  next function declared =>
    refine (alike_record _).bind ?_
    intro _
    rw [← function.accept_congr left.scope scope left.depth arguments
      fun argument member => given argument member _ _ here]
    cases accepted : function.accept left.scope left.depth arguments with
    | error fault => exact alike_fail fault
    | ok context =>
      refine (deep left scope function context room here declared accepted).bind ?_
      intro returned
      exact alike_lift (function.answer returned)
  next => exact alike_fail _

end

end

end Run

namespace Coupled

section
variable {alike : Nat → Scope → Scope → Prop} {fit : Nat → Node → Prop} {endless : Prop}
  {rounds others levels : Nat} (coupled : Coupled alike fit)
include coupled

theorem agree (entered : Nat) (name : String) (left right : Scope)
    (here : alike entered left right) : left.AgreeOn right name :=
  ⟨coupled.declared here name,coupled.value here name⟩

theorem resolve (entered : Nat) (value : Value) :
    Alike (State.Beside (alike entered) levels) endless (resolve value) (resolve value) :=
  alike_resolve value fun name _ => coupled.agree entered name

theorem store (entered : Nat) (name : String) (type : TypeName) (value : Value)
    (left right : State) (beside : State.Beside (alike entered) levels left right)
    (declared : (left.scope.declared? name).isSome = true) :
    Meet (State.Beside (alike entered) levels) endless (store name type value left)
      (store name type value right) := by
  obtain ⟨room,scope,here,rfl⟩ := beside
  unfold BlockScript.store
  split
  · exact ⟨rfl,room,_,coupled.assigned here name value declared,rfl⟩
  · exact ⟨rfl,nofun,room,scope,here,rfl⟩

def AlikeAt (alike : Nat → Scope → Scope → Prop) (fit : Nat → Node → Prop) (endless : Prop)
    (rounds others levels : Nat) : Prop :=
  ∀ entered statements, (∀ statement ∈ statements, fit entered statement) →
    Alike (State.Beside (alike entered) levels) endless
      (executeAll rounds (enterAt rounds levels) statements)
      (executeAll others (enterAt others levels) statements)

theorem call (deeper : ∀ fewer, levels = fewer + 1 → AlikeAt alike fit endless rounds others fewer)
    (entered : Nat) (called : String) (arguments : List Node) :
    Alike (State.Beside (alike entered) levels) endless
      (call (enterAt rounds levels) called arguments)
      (call (enterAt others levels) called arguments) := by
  refine alike_call (fun _ _ here => coupled.declared here called) arguments
    (fun argument _ => coupled.agree entered argument) ?_
  intro left scope function context room here declared accepted
  have shallow := (function.accept_ok accepted).2.1
  obtain ⟨fewer,rfl⟩ : ∃ fewer, levels = fewer + 1 := ⟨levels - 1,by omega⟩
  have body := deeper fewer rfl (entered + 1) function.body
    (coupled.body here called function declared)
  have inside := body.within context
    (fun _ _ here => coupled.pushed here context (function.plain_of_accept accepted))
    (fun _ _ here => coupled.popped here)
  exact inside.deeper

theorem assign (entered : Nat) (name : String) (value : Node)
    (resolved : Alike (State.Beside (alike entered) levels) endless
      (evaluateResolved (enterAt rounds levels) value)
      (evaluateResolved (enterAt others levels) value)) :
    Alike (State.Beside (alike entered) levels) endless
      (evaluate (enterAt rounds levels) (.assign (.name name) value))
      (evaluate (enterAt others levels) (.assign (.name name) value)) := by
  intro left right beside
  have typed : Alike (State.Beside (alike entered) levels) endless (targetType name)
      (targetType name) := alike_targetType fun _ _ here => coupled.declared here name
  refine (typed left right beside).bind ?_
  intro type next last found beside
  refine (resolved next last beside).bind ?_
  intro held middle other ran beside
  refine coupled.store entered name type held middle other beside ?_
  -- The value is found first, and that leaves all declarations in place.
  obtain ⟨rfl,declared,declares,_⟩ := targetType_ok name left next type found
  rw [declared_evaluateResolved value next middle held ran name,declares]
  rfl

theorem evaluate
    (deeper : ∀ fewer, levels = fewer + 1 → AlikeAt alike fit endless rounds others fewer)
    (entered : Nat) (node : Node) :
    Alike (State.Beside (alike entered) levels) endless (evaluate (enterAt rounds levels) node)
      (evaluate (enterAt others levels) node) := by
  induction node using evaluate.induct with
  | case1 | case2 | case3 | case4 => exact alike_pure _
  | case5 operator left right ihLeft ihRight =>
    refine (ihLeft.bind (coupled.resolve entered)).bind ?_
    intro first
    refine (ihRight.bind (coupled.resolve entered)).bind ?_
    intro second
    exact alike_lift _
  | case6 operator left right ihLeft ihRight =>
    refine (ihLeft.bind (coupled.resolve entered)).bind ?_
    intro first
    refine (ihRight.bind (coupled.resolve entered)).bind ?_
    intro second
    exact alike_lift _
  | case7 value object member ihTarget ihValue =>
    exact ihTarget.discard.bind fun _ => ihValue.discard.bind fun _ => alike_pure _
  | case8 value text ihValue =>
    exact coupled.assign entered text value (ihValue.bind (coupled.resolve entered))
  | case9 value target notField notName =>
    cases target with
    | field object member => exact (notField object member rfl).elim
    | name text => exact (notName text rfl).elim
    | _ => exact alike_fail _
  | case10 member called command found =>
    rw [BlockScript.evaluate,BlockScript.evaluate]
    · exact alike_commandHandler (fun _ _ here => coupled.declared here called) command
    · exact found
    · exact found
  | case11 member object plain ihObject ihMember =>
    rw [BlockScript.evaluate,BlockScript.evaluate]
    · exact ihObject.discard.bind fun _ => ihMember
    · exact plain
    · exact plain
  | case12 called arguments => exact coupled.call deeper entered called arguments.argumentList
  | case13 called => exact coupled.call deeper entered called []
  | case14 | case15 | case16 => exact alike_fail _
  | case17 node => cases node <;> first | exact alike_fail _ | simp_all

theorem evaluateResolved
    (deeper : ∀ fewer, levels = fewer + 1 → AlikeAt alike fit endless rounds others fewer)
    (entered : Nat) (node : Node) :
    Alike (State.Beside (alike entered) levels) endless
      (evaluateResolved (enterAt rounds levels) node)
      (evaluateResolved (enterAt others levels) node) :=
  (coupled.evaluate deeper entered node).bind (coupled.resolve entered)

theorem condition
    (deeper : ∀ fewer, levels = fewer + 1 → AlikeAt alike fit endless rounds others fewer)
    (entered : Nat) (node : Node) :
    Alike (State.Beside (alike entered) levels) endless (condition (enterAt rounds levels) node)
      (condition (enterAt others levels) node) := by
  refine (coupled.evaluateResolved deeper entered node).bind ?_
  intro value
  cases value with
  | int number => exact alike_pure _
  | _ => exact alike_fail _

theorem inBlock (entered : Nat) {first second : Run (Option Value)} (context : Context)
    (plain : context.Plain)
    (ran : Alike (State.Beside (alike (entered + 1)) levels) endless first second) :
    Alike (State.Beside (alike entered) levels) endless (Run.within context first)
      (Run.within context second) :=
  ran.within context (fun _ _ here => coupled.pushed here context plain)
    (fun _ _ here => coupled.popped here)

theorem iterate (entered : Nat) (iterator : String) (collection : Value)
    {first second : Run (Option Value)}
    (ran : Alike (State.Beside (alike (entered + 1)) levels) endless first second) :
    Alike (State.Beside (alike entered) levels) endless (iterate iterator first collection)
      (iterate iterator second collection) := by
  unfold BlockScript.iterate
  split
  · exact alike_joins.countUp 0 _ fun _ =>
      coupled.inBlock entered _ (Context.plain_single iterator _ _) ran
  · exact alike_joins.forEach _ fun _ =>
      coupled.inBlock entered _ (Context.plain_single iterator _ _) ran
  · exact alike_fail _

theorem declaration (entered : Nat) (node : Node) (name : String) (declared : Declared)
    (fits : fit entered node) (declares : node.declares? = some (name,declared)) :
    Alike (State.Beside (alike entered) levels) endless (declare name declared)
      (declare name declared) := by
  refine (alike_modifyScope _ ?_).bind fun _ => alike_pure none
  intro left right here
  exact coupled.declares here node name declared fits declares

/-- Statements that are fit to run are alike if the bodies of the functions they call are. -/
theorem executes
    (loops : ∀ entered test body, fit entered (.whileDo test (some body)) →
      endless ∧ rounds = others)
    (deeper : ∀ fewer, levels = fewer + 1 → AlikeAt alike fit endless rounds others fewer) :
    (∀ node entered, fit entered node → Alike (State.Beside (alike entered) levels) endless
      (execute rounds (enterAt rounds levels) node)
      (execute others (enterAt others levels) node)) ∧
    ∀ statements entered, (∀ statement ∈ statements, fit entered statement) →
      Alike (State.Beside (alike entered) levels) endless
        (executeAll rounds (enterAt rounds levels) statements)
        (executeAll others (enterAt others levels) statements) := by
  refine execute.mutual_induct _ _ ?typed ?function ?handler ?put ?ret ?block ?ifNothing ?ifThen
    ?whileNothing ?whileDo ?forNothing ?forIn ?forOther ?expression ?nil ?cons
  case typed => exact fun declared entered fits => coupled.declaration entered _ _ _ fits rfl
  case function => exact fun _ _ _ _ entered fits => coupled.declaration entered _ _ _ fits rfl
  case handler => exact fun _ entered fits => coupled.declaration entered _ _ _ fits rfl
  case put =>
    intro operand entered _
    refine (coupled.evaluate deeper entered operand).bind ?_
    intro value
    exact (alike_print value fun name _ => coupled.agree entered name).bind fun _ => alike_pure none
  case ret =>
    intro operand entered _
    exact (coupled.evaluateResolved deeper entered operand).bind fun _ => alike_pure _
  case block =>
    intro statements inside entered fits
    refine coupled.inBlock entered .empty Context.plain_empty (inside (entered + 1) ?_)
    exact coupled.inside fits statements (by simp [Node.blocks])
  case ifThen =>
    intro test body otherwise inside instead entered fits
    have thenRuns := coupled.inBlock entered .empty Context.plain_empty
      (inside (entered + 1) (coupled.inside fits body (by simp [Node.blocks])))
    cases otherwise with
    | none =>
      refine (coupled.condition deeper entered test).bind ?_
      intro holds
      cases holds with
      | true => exact thenRuns
      | false => exact alike_pure none
    | some statements =>
      refine (coupled.condition deeper entered test).bind ?_
      intro holds
      cases holds with
      | true => exact thenRuns
      | false =>
        refine coupled.inBlock entered .empty Context.plain_empty (instead (entered + 1) ?_)
        exact coupled.inside fits statements (by simp [Node.blocks])
  case whileDo =>
    intro test body inside entered fits
    obtain ⟨fine,rfl⟩ := loops entered test body fits
    refine (coupled.condition deeper entered test).repeatWhile rounds fine ?_
    refine coupled.inBlock entered .empty Context.plain_empty (inside (entered + 1) ?_)
    exact coupled.inside fits body (by simp [Node.blocks])
  case forIn =>
    intro iterator collection body inside entered fits
    refine (coupled.evaluateResolved deeper entered collection).bind ?_
    intro value
    refine coupled.iterate entered iterator value (inside (entered + 1) ?_)
    exact coupled.inside fits body (by simp [Node.blocks])
  case ifNothing => exact fun _ _ _ _ => alike_fail _
  case whileNothing => exact fun _ _ _ => alike_fail _
  case forNothing => exact fun _ _ _ _ => alike_fail _
  case forOther =>
    intro iterator collection body other entered _
    cases iterator with
    | name text => exact (other text rfl).elim
    | _ => exact alike_fail _
  case expression =>
    intro node
    intros
    rw [execute,execute]
    · exact (coupled.evaluate deeper _ node).discard.bind fun _ => alike_pure none
    all_goals assumption
  case nil => exact fun _ _ => alike_pure none
  case cons =>
    intro statement rest first following entered fits
    obtain ⟨here,after⟩ := List.forall_mem_cons.mp fits
    exact (first entered here).orNext (following entered after)

/-- At every level, what is fit to run in scopes that belong together runs alike. -/
theorem runs
    (loops : ∀ entered test body, fit entered (.whileDo test (some body)) →
      endless ∧ rounds = others) (levels : Nat) : AlikeAt alike fit endless rounds others levels := by
  induction levels with
  | zero =>
    refine fun entered statements => (coupled.executes loops ?_).2 statements entered
    intro fewer same
    omega
  | succ levels ih =>
    refine fun entered statements => (coupled.executes loops ?_).2 statements entered
    intro fewer same
    obtain rfl : levels = fewer := by omega
    exact ih

theorem statement
    (loops : ∀ entered test body, fit entered (.whileDo test (some body)) →
      endless ∧ rounds = others) (levels entered : Nat) (node : Node) (fits : fit entered node) :
    Alike (State.Beside (alike entered) levels) endless (execute rounds (enterAt rounds levels) node)
      (execute others (enterAt others levels) node) :=
  (coupled.executes loops fun fewer _ => coupled.runs loops fewer).1 node entered fits

end

end Coupled

end BlockScript
