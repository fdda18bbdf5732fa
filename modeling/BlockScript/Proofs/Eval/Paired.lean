import BlockScript.Proofs.Eval.Joins
import BlockScript.Proofs.Eval.Mentions
import BlockScript.Proofs.Eval.Visit
import BlockScript.Proofs.Eval.Arguments

/-! Relations of runs that hold of every program. It is enough that they hold of single steps and of
runs that are put together: then they hold of every statement, with all the functions that are
called on the way. -/
namespace BlockScript
open Run

/-- The single steps of programs that mention no other names are pairs. The two sides of a pair may
have different numbers of rounds. -/
structure Pairing.Steps (pairing : Pairing) (names : String → Prop) (rounds others : Nat) : Prop
    extends pairing.Joins where
  throw : ∀ {α : Type} (halt : Halt), pairing α (throw halt) (throw halt)
  resolve : ∀ value : Value, value.Within names → pairing Value (resolve value) (resolve value)
  targetType : ∀ name, names name → pairing TypeName (targetType name) (targetType name)
  store : ∀ name type value, names name →
    pairing Value (store name type value) (store name type value)
  commandHandler : ∀ command called, names called →
    pairing Value (commandHandler command called) (commandHandler command called)
  print : ∀ value : Value, value.Within names →
    pairing Unit (do Run.write (outputText (← Run.scope) value))
      (do Run.write (outputText (← Run.scope) value))
  declare : ∀ (node : Node) name declared, node.Within names →
    node.declares? = some (name,declared) →
      pairing (Option Value) (declare name declared) (declare name declared)
  within : ∀ (context : Context) (first second : Run (Option Value)), context.Plain →
    pairing (Option Value) first second →
      pairing (Option Value) (Run.within context first) (Run.within context second)
  call : ∀ (enter other : Enter) called arguments, names called →
    (∀ argument ∈ arguments, argument.Within names) →
      (∀ body : List Node, (∀ statement ∈ body, statement.Within names) →
        pairing (Option Value) (enter body) (other body)) →
          pairing Value (call enter called arguments) (call other called arguments)
  loop : ∀ (condition test : Run Bool) (body other : Run (Option Value)),
    pairing Bool condition test → pairing (Option Value) body other →
      pairing (Option Value) (repeatWhile condition body rounds) (repeatWhile test other others)

namespace Pairing.Steps

variable {pairing : Pairing} {names : String → Prop} {rounds others : Nat}
  (steps : pairing.Steps names rounds others)
include steps

theorem fail {α : Type} (fault : Fault) : pairing α (Run.fail fault) (Run.fail fault) :=
  steps.throw (.fault fault)

theorem lift {α : Type} (result : Except Fault α) :
    pairing α (Run.lift result) (Run.lift result) := by
  cases result with
  | ok value => exact steps.pure value
  | error fault => exact steps.fail fault

section
variable {enter other : Enter}
  (bodies : ∀ body : List Node, (∀ statement ∈ body, statement.Within names) →
    pairing (Option Value) (enter body) (other body))
include bodies

omit bodies in
theorem resolved (node : Node) (within : node.Within names)
    (evaluated : pairing Value (evaluate enter node) (evaluate other node)) :
    pairing Value (evaluateResolved enter node) (evaluateResolved other node) := by
  refine steps.bind evaluated ?_
  rintro value (⟨state,next,ran⟩ | ⟨state,next,ran⟩)
  · exact steps.resolve value (evaluate_within node within ran)
  · exact steps.resolve value (evaluate_within node within ran)

theorem evaluate (node : Node) (within : node.Within names) :
    pairing Value (evaluate enter node) (evaluate other node) := by
  induction node using evaluate.induct with
  | case1 | case2 | case3 | case4 => exact steps.pure _
  | case5 operator left right ihLeft ihRight =>
    have first : left.Within names := within.part (by simp +contextual [Node.names])
    have second : right.Within names := within.part (by simp +contextual [Node.names])
    refine steps.bind (steps.resolved left first (ihLeft first)) ?_
    intro _ _
    refine steps.bind (steps.resolved right second (ihRight second)) ?_
    intro _ _
    exact steps.lift _
  | case6 operator left right ihLeft ihRight =>
    have first : left.Within names := within.part (by simp +contextual [Node.names])
    have second : right.Within names := within.part (by simp +contextual [Node.names])
    refine steps.bind (steps.resolved left first (ihLeft first)) ?_
    intro _ _
    refine steps.bind (steps.resolved right second (ihRight second)) ?_
    intro _ _
    exact steps.lift _
  | case7 value object member ihTarget ihValue =>
    have assigned (name : String) (inside : name ∈ (Node.field object member).names) :
        name ∈ (Node.assign (.field object member) value).names := List.mem_append_left _ inside
    have target := steps.discard (ihTarget (within.part assigned))
    have right := steps.discard (ihValue (within.part (by simp +contextual [Node.names])))
    exact steps.bind target fun _ _ => steps.bind right fun _ _ => steps.pure _
  | case8 value text ihValue =>
    have name : names text := within text (by simp [Node.Mentions,Node.names])
    have right : value.Within names := within.part (by simp +contextual [Node.names])
    refine steps.bind (steps.targetType text name) ?_
    intro type _
    refine steps.bind (steps.resolved value right (ihValue right)) ?_
    intro held _
    exact steps.store text type held name
  | case9 value target notField notName =>
    cases target with
    | field object member => exact (notField object member rfl).elim
    | name text => exact (notName text rfl).elim
    | _ => exact steps.fail _
  | case10 member called command found =>
    have name : names called :=
      within called (by simp [Node.Mentions,Node.names_command called member command found])
    rw [BlockScript.evaluate,BlockScript.evaluate]
    · exact steps.commandHandler command called name
    · exact found
    · exact found
  | case11 member object plain ihObject ihMember =>
    have split := Node.names_field object member plain
    have first := ihObject (within.part (by simp +contextual [split]))
    have second := ihMember (within.part (by simp +contextual [split]))
    rw [BlockScript.evaluate,BlockScript.evaluate]
    · exact steps.bind (steps.discard first) fun _ _ => second
    · exact plain
    · exact plain
  | case12 called arguments =>
    have name : names called := within called List.mem_cons_self
    have given : arguments.Within names := within.part (by simp +contextual [Node.names])
    exact steps.call enter other called _ name given.arguments bodies
  | case13 called =>
    exact steps.call enter other called [] (within called List.mem_cons_self)
      (List.forall_mem_nil _) bodies
  | case14 | case15 | case16 => exact steps.fail _
  | case17 node => cases node <;> first | exact steps.fail _ | simp_all

theorem evaluateResolved (node : Node) (within : node.Within names) :
    pairing Value (evaluateResolved enter node) (evaluateResolved other node) :=
  steps.resolved node within (steps.evaluate bodies node within)

theorem condition (node : Node) (within : node.Within names) :
    pairing Bool (condition enter node) (condition other node) := by
  refine steps.bind (steps.evaluateResolved bodies node within) ?_
  intro value _
  cases value with
  | int number => exact steps.pure _
  | _ => exact steps.fail _

omit bodies in
theorem iterate (iterator : String) (collection : Value) {first second : Run (Option Value)}
    (paired : pairing (Option Value) first second) :
    pairing (Option Value) (iterate iterator first collection)
      (iterate iterator second collection) := by
  unfold BlockScript.iterate
  split
  · exact steps.countUp 0 _ fun _ => steps.within _ _ _ (Context.plain_single iterator _ _) paired
  · exact steps.forEach _ fun _ => steps.within _ _ _ (Context.plain_single iterator _ _) paired
  · exact steps.fail _

omit bodies in
theorem put {operand : Node} (within : operand.Within names)
    (evaluated : pairing Value (BlockScript.evaluate enter operand)
      (BlockScript.evaluate other operand)) :
    pairing (Option Value) (execute rounds enter (.put operand))
      (execute others other (.put operand)) := by
  have written (value : Value) (fine : value.Within names) :=
    steps.bind (steps.print value fine) fun _ _ => steps.pure (none : Option Value)
  refine steps.bind evaluated ?_
  rintro value (⟨state,next,ran⟩ | ⟨state,next,ran⟩)
  · exact written value (evaluate_within operand within ran)
  · exact written value (evaluate_within operand within ran)

/-- Statements that mention no other names are pairs if the bodies of functions are. -/
theorem executes :
    (∀ node : Node, node.Within names →
      pairing (Option Value) (execute rounds enter node) (execute others other node)) ∧
    ∀ statements : List Node, (∀ statement ∈ statements, statement.Within names) →
      pairing (Option Value) (executeAll rounds enter statements)
        (executeAll others other statements) := by
  have block (first second : Run (Option Value)) (paired : pairing (Option Value) first second) :=
    steps.within .empty first second Context.plain_empty paired
  refine execute.mutual_induct _ _ ?typed ?function ?handler ?put ?ret ?block ?ifNothing ?ifThen
    ?whileNothing ?whileDo ?forNothing ?forIn ?forOther ?expression ?nil ?cons
  case typed => exact fun declared within => steps.declare _ _ _ within rfl
  case function => exact fun _ _ _ _ within => steps.declare _ _ _ within rfl
  case handler => exact fun _ within => steps.declare _ _ _ within rfl
  case put =>
    intro operand within
    have inside : operand.Within names := within.part (by simp +contextual [Node.names])
    exact steps.put inside (steps.evaluate bodies operand inside)
  case ret =>
    intro operand within
    have inside : operand.Within names := within.part (by simp +contextual [Node.names])
    exact steps.bind (steps.evaluateResolved bodies operand inside) fun _ _ => steps.pure _
  case block =>
    intro statements inside within
    exact block _ _ (inside (within.block statements (by simp [Node.blocks])))
  case ifThen =>
    intro test body otherwise inside instead within
    have tested := steps.condition bodies test (within.part (by simp +contextual [Node.names]))
    have thenRuns := block _ _ (inside (within.block body (by simp [Node.blocks])))
    cases otherwise with
    | none =>
      refine steps.bind tested ?_
      intro holds _
      cases holds with
      | true => exact thenRuns
      | false => exact steps.pure none
    | some statements =>
      have elseRuns := block _ _ (instead (within.block statements (by simp [Node.blocks])))
      refine steps.bind tested ?_
      intro holds _
      cases holds with
      | true => exact thenRuns
      | false => exact elseRuns
  case whileDo =>
    intro test body inside within
    have tested := steps.condition bodies test (within.part (by simp +contextual [Node.names]))
    exact steps.loop _ _ _ _ tested
      (block _ _ (inside (within.block body (by simp [Node.blocks]))))
  case forIn =>
    intro iterator collection body inside within
    refine steps.bind (steps.evaluateResolved bodies collection
      (within.part (by simp +contextual [Node.names]))) ?_
    intro value _
    exact steps.iterate iterator value (inside (within.block body (by simp [Node.blocks])))
  case ifNothing => exact fun _ _ _ => steps.fail _
  case whileNothing => exact fun _ _ => steps.fail _
  case forNothing => exact fun _ _ _ => steps.fail _
  case forOther =>
    intro iterator collection body other _
    cases iterator with
    | name text => exact (other text rfl).elim
    | _ => exact steps.fail _
  case expression =>
    intro node
    intros
    rw [execute,execute]
    · refine steps.bind (steps.discard (steps.evaluate bodies node ?_)) fun _ _ => steps.pure none
      assumption
    all_goals assumption
  case nil => exact fun _ => steps.pure none
  case cons =>
    intro statement rest first following within
    obtain ⟨here,after⟩ := List.forall_mem_cons.mp within
    exact steps.orNext (first here) (following after)

end

/-- At every level the bodies of functions are pairs. -/
theorem enterAt (levels : Nat) (body : List Node)
    (within : ∀ statement ∈ body, statement.Within names) :
    pairing (Option Value) (enterAt rounds levels body) (enterAt others levels body) := by
  induction levels generalizing body with
  | zero => exact steps.throw .outOfRounds
  | succ levels ih => exact (steps.executes ih).2 body within

theorem statement (levels : Nat) (node : Node) (within : node.Within names) :
    pairing (Option Value) (execute rounds (BlockScript.enterAt rounds levels) node)
      (execute others (BlockScript.enterAt others levels) node) :=
  (steps.executes fun body => steps.enterAt levels body).1 node within

end Pairing.Steps

end BlockScript
