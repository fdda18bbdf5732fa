import BlockScript.Proofs.Build.Structure
import BlockScript.Proofs.Eval.Roots
import BlockScript.Proofs.Eval.Upheld

/-! Complete statements do not halt for their structure. No body is missing, and unless the mark of
an `else` was left in a block, no mark is met. -/
namespace BlockScript
open Run

def Halt.Orderly (loose : Prop) : Halt → Prop
  | .fault (.missingBody _) => False
  | .fault (.unexpectedMark _) => loose
  | _ => True

def Table.Complete (loose : Prop) (table : Table Declared) : Prop :=
  ∀ name function, table.find? name = some (.function function) →
    ∀ node ∈ function.body, node.Fit loose

def State.Complete (loose : Prop) (state : State) : Prop :=
  ∀ table ∈ state.scope.declarations, table.Complete loose

/-- A run that halts for no structure, if it begins with complete functions. -/
abbrev Run.Orderly {α : Type} (loose : Prop) (run : Run α) : Prop :=
  Guards (State.Complete loose) (Halt.Orderly loose) run

variable {loose : Prop} {α : Type}

theorem Table.complete_empty : (Table.empty : Table Declared).Complete loose := by
  intro name function found
  contradiction

theorem Table.Complete.insert (table : Table Declared) (complete : table.Complete loose)
    (name : String) (declared : Declared)
    (whole : ∀ function, declared = .function function → ∀ node ∈ function.body, node.Fit loose) :
    (table.insert name declared).Complete loose := by
  intro other function found
  by_cases same : other = name
  · subst same
    rw [Table.find?_insert_self] at found
    exact whole function (Option.some.inj found)
  · rw [Table.find?_insert_of_ne _ _ same] at found
    exact complete other function found

namespace State

theorem complete_initial (sink : Sink) : (State.initial sink).Complete loose := by
  intro table member
  obtain rfl := List.mem_singleton.mp member
  exact Table.complete_empty

theorem Complete.body (state : State) (complete : state.Complete loose) (called : String)
    (function : Function) (declared : state.scope.declared? called = some (.function function)) :
    ∀ node ∈ function.body, node.Fit loose := by
  rw [Scope.declared?_declarations] at declared
  obtain ⟨table,member,found⟩ := List.exists_of_findSome?_eq_some declared
  exact complete table member called function found

theorem Complete.declare (state : State) (complete : state.Complete loose) (name : String)
    (declared : Declared)
    (whole : ∀ function, declared = .function function → ∀ node ∈ function.body, node.Fit loose) :
    State.Complete loose { state with scope := state.scope.declare name declared } := by
  obtain ⟨here,around⟩ := List.forall_mem_cons.mp complete
  exact List.forall_mem_cons.mpr ⟨here.insert _ name declared whole,around⟩

end State

namespace Run

theorem orderly_within {run : Run α} (context : Context) (made : context.declared.Complete loose)
    (orderly : Orderly loose run) : Orderly loose (within context run) := by
  refine orderly.within context ?_ ?_
  · intro state complete
    exact List.forall_mem_cons.mpr ⟨made,complete⟩
  · intro state complete table member
    obtain ⟨⟨current,outer⟩,depth,sink,handlers,log⟩ := state
    refine complete table ?_
    cases outer with
    | nil => exact member
    | cons context outer => exact List.mem_cons_of_mem current.declared member

theorem orderly_resolve (value : Value) : Orderly loose (resolve value) := by
  unfold resolve
  split
  next text =>
    refine Guards.scope ?_
    intro state _
    split
    · exact guards_pure _
    · split
      · exact guards_fail _ trivial
      · exact guards_fail _ trivial
  next => exact guards_pure _

theorem orderly_commandHandler (command : HandlerCommand) (called : String) :
    Orderly loose (commandHandler command called) := by
  refine Guards.scope ?_
  intro state _
  split
  · exact (Guards.command command called fun _ _ _ complete => complete).bind fun _ => guards_pure _
  · exact guards_fail _ trivial

theorem orderly_targetType (name : String) : Orderly loose (targetType name) := by
  refine Guards.scope ?_
  intro state _
  split
  · split
    · exact guards_pure _
    · exact guards_fail _ trivial
  · exact guards_fail _ trivial

theorem orderly_store (name : String) (type : TypeName) (value : Value) :
    Orderly loose (store name type value) := by
  unfold store
  split
  · refine Guards.bind (guards_modify _ ?_) fun _ => guards_pure value
    intro state complete table member
    exact complete table (by rwa [← state.scope.declarations_assign name value])
  · exact guards_fail _ trivial

end Run

theorem Arithmetic.apply_orderly (operator : Arithmetic) (left right : Value) (fault : Fault)
    (failed : operator.apply left right = .error fault) : Halt.Orderly loose (.fault fault) := by
  unfold apply onWords at failed
  dsimp only at failed
  repeat' split at failed
  all_goals first | contradiction | (obtain rfl := Except.error.inj failed; trivial)

theorem Test.apply_orderly (operator : Test) (left right : Value) (fault : Fault)
    (failed : operator.apply left right = .error fault) : Halt.Orderly loose (.fault fault) := by
  cases decided : operator.decide left right with
  | ok holds => simp [apply,decided,Except.map] at failed
  | error reason =>
    obtain rfl : reason = fault := by simpa [apply,decided,Except.map] using failed
    unfold decide Relation.apply at decided
    repeat' split at decided
    all_goals first | contradiction | (obtain rfl := Except.error.inj decided; trivial)

/-- A call is refused for no structure, or its context declares complete functions only. -/
def Function.Admitted (loose : Prop) : Except Fault Context → Prop
  | .ok context => context.declared.Complete loose
  | .error fault => Halt.Orderly loose (.fault fault)

namespace Function

theorem bindArgument_admitted (function : Function) (caller : Scope) (context : Context)
    (parameter : TypedName) (argument : Node) (complete : context.declared.Complete loose) :
    Admitted loose (function.bindArgument caller context parameter argument) := by
  have declared : (context.declare parameter.name (.typed parameter.type)).declared.Complete loose :=
    complete.insert _ parameter.name _ (by simp)
  unfold bindArgument
  split
  · split
    · trivial
    · split
      · trivial
      · dsimp only
        split <;> exact declared
  · trivial

theorem bindArguments_admitted (function : Function) (caller : Scope) (parameters : List TypedName)
    (arguments : List Node) (context : Context) (complete : context.declared.Complete loose) :
    Admitted loose (function.bindArguments caller context parameters arguments) := by
  induction parameters generalizing arguments context with
  | nil => simpa only [bindArguments,Admitted] using complete
  | cons parameter parameters ih =>
    cases arguments with
    | nil => simpa only [bindArguments,Admitted] using complete
    | cons argument arguments =>
      have first := function.bindArgument_admitted caller context parameter argument complete
      unfold bindArguments
      split
      next middle bound =>
        rw [bound] at first
        exact ih arguments middle first
      next fault bound =>
        rw [bound] at first
        exact first

theorem accept_admitted (function : Function) (caller : Scope) (depth : Nat)
    (arguments : List Node) : Admitted loose (function.accept caller depth arguments) := by
  unfold accept
  split
  · trivial
  · split
    · trivial
    · exact function.bindArguments_admitted caller _ arguments .empty Table.complete_empty

theorem answer_orderly (function : Function) (returned : Option Value) (fault : Fault)
    (failed : function.answer returned = .error fault) : Halt.Orderly loose (.fault fault) := by
  unfold answer at failed
  dsimp only at failed
  split at failed
  · contradiction
  · obtain rfl := Except.error.inj failed
    trivial

end Function

section
variable {enter : Enter}
  (entered : ∀ body, (∀ node ∈ body, node.Fit loose) → Orderly loose (enter body))
include entered

theorem call_orderly (called : String) (arguments : List Node) :
    Orderly loose (call enter called arguments) := by
  refine Guards.get ?_
  intro state complete
  split
  next function declared =>
    have body := complete.body state called function declared
    refine (Guards.record _ fun _ _ complete => complete).bind ?_
    intro _
    have admitted : Function.Admitted loose _ :=
      function.accept_admitted state.scope state.depth arguments
    cases accepted : function.accept state.scope state.depth arguments with
    | error fault =>
      rw [accepted] at admitted
      exact guards_fail fault admitted
    | ok context =>
      rw [accepted] at admitted
      have ran := orderly_within context admitted (entered function.body body)
      have deep : Orderly loose (deeper (within context (enter function.body))) :=
        ran.deeper (fun _ complete => complete) (fun _ complete => complete)
      exact deep.bind fun returned =>
        guards_lift _ (function.answer_orderly returned)
  next => exact guards_fail _ trivial

/-- An expression is never refused for its structure. -/
theorem evaluate_orderly (node : Node) (raw : node.Raw) :
    Orderly loose (evaluate enter node) := by
  induction raw with
  | int | real | name | string => exact guards_pure _
  | arithmetic operator left right _ _ ihLeft ihRight =>
    refine (ihLeft.bind orderly_resolve).bind ?_
    intro first
    refine (ihRight.bind orderly_resolve).bind ?_
    intro second
    exact guards_lift _ (operator.apply_orderly first second)
  | test operator left right _ _ ihLeft ihRight =>
    refine (ihLeft.bind orderly_resolve).bind ?_
    intro first
    refine (ihRight.bind orderly_resolve).bind ?_
    intro second
    exact guards_lift _ (operator.apply_orderly first second)
  | assign target value first _ ihTarget ihValue =>
    cases first with
    | field => exact ihTarget.discard.bind fun _ => ihValue.discard.bind fun _ => guards_pure _
    | name text =>
      refine (orderly_targetType text).bind ?_
      intro type
      refine (ihValue.bind orderly_resolve).bind ?_
      intro held
      exact orderly_store text type held
    | _ => exact guards_fail _ trivial
  | field object member _ _ ihObject ihMember =>
    by_cases commands : ∃ called command, object = .name called ∧
      handlerCommand? member = some command
    · obtain ⟨called,command,rfl,found⟩ := commands
      rw [evaluate]
      · exact orderly_commandHandler command called
      · exact found
    · rw [evaluate]
      · exact ihObject.discard.bind fun _ => ihMember
      · intro called command named found
        exact commands ⟨called,command,named,found⟩
  | call called arguments => exact call_orderly entered called arguments.argumentList
  | callNoArgs called => exact call_orderly entered called []
  | argument | lastArgument | ifThen | whileDo | forIn | put | ret => exact guards_fail _ trivial

theorem evaluateResolved_orderly (node : Node) (raw : node.Raw) :
    Orderly loose (evaluateResolved enter node) :=
  (evaluate_orderly entered node raw).bind orderly_resolve

theorem condition_orderly (node : Node) (raw : node.Raw) :
    Orderly loose (condition enter node) := by
  refine (evaluateResolved_orderly entered node raw).bind ?_
  intro value
  split
  · exact guards_pure _
  · exact guards_fail _ trivial

omit entered in
theorem iterate_orderly (iterator : String) (body : Run (Option Value)) (collection : Value)
    (orderly : Orderly loose body) : Orderly loose (iterate iterator body collection) := by
  have single (type : TypeName) (value : Value) :
      (Context.single iterator type value).declared.Complete loose :=
    Table.complete_empty.insert _ iterator (.typed type) (by simp)
  unfold iterate
  split
  · exact Guards.countUp 0 _ fun _ => orderly_within _ (single _ _) orderly
  · exact Guards.forEach _ fun _ => orderly_within _ (single _ _) orderly
  · exact guards_fail _ trivial

omit entered in
theorem declare_orderly (name : String) (declared : Declared)
    (whole : ∀ function, declared = .function function → ∀ node ∈ function.body, node.Fit loose) :
    Orderly loose (declare name declared) := by
  refine Guards.bind (guards_modify _ ?_) fun _ => guards_pure none
  intro state complete
  exact complete.declare state name declared whole

omit entered in
theorem executeAll_orderly (rounds : Nat) (statements : List Node)
    (each : ∀ node ∈ statements, Orderly loose (execute rounds enter node)) :
    Orderly loose (executeAll rounds enter statements) := by
  induction statements with
  | nil => exact guards_pure none
  | cons statement rest ih =>
    obtain ⟨first,others⟩ := List.forall_mem_cons.mp each
    exact first.orNext (ih others)

theorem execute_orderly (rounds : Nat) (node : Node) (fit : node.Fit loose) :
    Orderly loose (execute rounds enter node) := by
  have inside (body : List Node) (each : ∀ node ∈ body, Orderly loose (execute rounds enter node)) :
      Orderly loose (within .empty (executeAll rounds enter body)) :=
    orderly_within .empty Table.complete_empty (executeAll_orderly rounds body each)
  induction fit with
  | raw node raw whole =>
    cases plain : node.isStatement with
    | false =>
      rw [execute_evaluates enter rounds node plain]
      exact (evaluate_orderly entered node raw).discard.bind fun _ => guards_pure none
    | true =>
      cases raw with
      | put operand inner =>
        refine (evaluate_orderly entered operand inner).bind ?_
        intro value
        refine Guards.scope ?_
        intro state _
        exact (Guards.write _ trivial fun _ _ complete => complete).bind fun _ => guards_pure none
      | ret operand inner =>
        exact (evaluateResolved_orderly entered operand inner).bind fun _ => guards_pure _
      | _ => contradiction
  | typed declared => exact declare_orderly declared.name _ (by simp)
  | handler called => exact declare_orderly called _ (by simp)
  | function called returns parameters body whole =>
    refine declare_orderly called _ ?_
    rintro _ ⟨⟩
    exact whole
  | block statements _ ih => exact inside statements ih
  | ifThen test body otherwise raw _ _ ihBody ihOtherwise =>
    have tested := condition_orderly entered test raw
    cases otherwise with
    | none =>
      refine tested.bind ?_
      intro holds
      cases holds with
      | true => exact inside body ihBody
      | false => exact guards_pure none
    | some statements =>
      refine tested.bind ?_
      intro holds
      cases holds with
      | true => exact inside body ihBody
      | false => exact inside statements (ihOtherwise statements rfl)
  | whileDo test body raw _ ih =>
    exact Guards.repeatWhile rounds trivial (condition_orderly entered test raw) (inside body ih)
  | forIn iterator collection body _ raw _ ih =>
    cases iterator with
    | name text =>
      refine (evaluateResolved_orderly entered collection raw).bind ?_
      intro value
      exact iterate_orderly text _ value (executeAll_orderly rounds body ih)
    | _ => exact guards_fail _ trivial
  | elseMark allowed => exact Guards.bind (guards_fail _ allowed).discard fun _ => guards_pure none

end

/-- Complete bodies run without a fault of structure, with all the calls in them. -/
theorem enterAt_orderly (rounds levels : Nat) (body : List Node)
    (fit : ∀ node ∈ body, node.Fit loose) : Orderly loose (enterAt rounds levels body) := by
  induction levels generalizing body with
  | zero => exact guards_throw .outOfRounds trivial
  | succ levels ih =>
    exact executeAll_orderly rounds body fun node member =>
      execute_orderly ih rounds node (fit node member)

theorem runRoot_orderly (rounds : Nat) (root : Node) (state next : State)
    (failure : Option Failure) (fit : root.Fit loose) (complete : state.Complete loose)
    (ran : runRoot rounds root state = some (failure,next)) :
    (∀ failed, failure = some failed → Halt.Orderly loose (.fault failed.fault)) ∧
      next.Complete loose := by
  have ends := execute_orderly (enterAt_orderly rounds maxDepth) rounds root fit
    (state.executing root) complete
  obtain ⟨last,log,rfl,⟨returned,same,rfl⟩ | ⟨fault,same,rfl⟩⟩ :=
    runRoot_ran root state next failure ran
  · refine ⟨?_,((ends_of_ok _ returned last same).mp ends).2⟩
    intro failed found
    cases returned with
    | none => contradiction
    | some value =>
      obtain rfl := Option.some.inj found
      trivial
  · obtain ⟨orderly,complete⟩ := (ends_of_error _ _ last same).mp ends
    refine ⟨?_,complete⟩
    intro failed found
    obtain rfl := Option.some.inj found
    exact orderly _ rfl

/-- No root of a session of complete files fails for its structure. -/
theorem session_orderly (rounds : Nat) (sink : Sink) (scripts : List Script)
    (fit : ∀ script ∈ scripts, ∀ root ∈ script.roots, root.Fit loose) (root : Node)
    (before next : State) (failure : Failure)
    (begins : Session.Begins rounds scripts (.initial sink) root before)
    (ran : runRoot rounds root before = some (some failure,next)) :
    Halt.Orderly loose (.fault failure.fault) := by
  have permitted (root : Node) (before : State)
      (begins : Session.Begins rounds scripts (.initial sink) root before) : root.Fit loose := by
    obtain ⟨script,member,rooted⟩ := begins.member
    exact fit script member root rooted
  have kept (root : Node) (state : State) (failure : Option Failure) (next : State)
      (fit : root.Fit loose) (complete : state.Complete loose)
      (ran : runRoot rounds root state = some (failure,next)) : next.Complete loose :=
    (runRoot_orderly rounds root state next failure fit complete ran).2
  have complete := begins.holds kept permitted (State.complete_initial sink)
  exact (runRoot_orderly rounds root before next (some failure) (permitted root before begins)
    complete ran).1 failure rfl

end BlockScript
