import BlockScript.Proofs.Eval.Coupled

/-! Properties of scopes that single steps keep. Every run and every visit keeps them then. -/
namespace BlockScript
open Run

/-- Properties of scopes, one for each number of contexts that were entered, that single steps
keep, and the statements that may run there. -/
structure Stable (held : Nat → Scope → Prop) (fit : Nat → Node → Prop) : Prop where
  pushed : ∀ {entered scope}, held entered scope → ∀ context : Context, context.Plain →
    held (entered + 1) (scope.push context)
  popped : ∀ {entered scope}, held (entered + 1) scope → held entered scope.pop
  assigned : ∀ {entered scope}, held entered scope → ∀ name value,
    (scope.declared? name).isSome = true → held entered (scope.assign name value)
  declares : ∀ {entered scope}, held entered scope → ∀ node name declared, fit entered node →
    node.declares? = some (name,declared) → held entered (scope.declare name declared)
  inside : ∀ {entered node}, fit entered node → ∀ block ∈ node.blocks, ∀ statement ∈ block,
    fit (entered + 1) statement
  body : ∀ {entered scope}, held entered scope → ∀ called function,
    scope.declared? called = some (.function function) → ∀ statement ∈ function.body,
      fit (entered + 1) statement

def Scope.Itself (held : Nat → Scope → Prop) (entered : Nat) (left right : Scope) : Prop :=
  left = right ∧ held entered left

def State.Holds (held : Scope → Prop) (levels : Nat) (state : State) : Prop :=
  maxDepth ≤ state.depth + levels ∧ held state.scope

def Task.Fits (fit : Nat → Node → Prop) (entered : Nat) : Task → Prop
  | expression _ => True
  | statement node => fit entered node
  | sequence statements => ∀ statement ∈ statements, fit entered statement
  | iteration contexts body =>
    (∀ context ∈ contexts, context.Plain) ∧ ∀ statement ∈ body, fit (entered + 1) statement

namespace Stable

variable {held : Nat → Scope → Prop} {fit : Nat → Node → Prop}

theorem coupled (stable : Stable held fit) : Coupled (Scope.Itself held) fit where
  declared := by
    rintro _ _ _ ⟨rfl,_⟩ _
    rfl
  value := by
    rintro _ _ _ ⟨rfl,_⟩ _
    rfl
  pushed := by
    rintro _ _ _ ⟨rfl,here⟩ context plain
    exact ⟨rfl,stable.pushed here context plain⟩
  popped := by
    rintro _ _ _ ⟨rfl,here⟩
    exact ⟨rfl,stable.popped here⟩
  assigned := by
    rintro _ _ _ ⟨rfl,here⟩ name value declared
    exact ⟨rfl,stable.assigned here name value declared⟩
  declares := by
    rintro _ _ _ ⟨rfl,here⟩ node name declared fits declares
    exact ⟨rfl,stable.declares here node name declared fits declares⟩
  inside := fun fits => stable.inside fits
  body := by
    rintro _ _ _ ⟨rfl,here⟩ called function declared
    exact stable.body here called function declared

theorem guards_of_alike {α : Type} {endless : Prop} {levels entered : Nat} {run : Run α}
    (alike : Alike (State.Beside (Scope.Itself held entered) levels) endless run run) :
    Guards (State.Holds (held entered) levels) (Halt.Allowed endless) run := by
  rintro state ⟨room,here⟩
  have met := alike state state ⟨room,_,⟨rfl,here⟩,rfl⟩
  unfold Ends
  cases ran : run state <;> rw [ran] at met
  · obtain ⟨_,room,_,⟨_,here⟩,_⟩ := met
    exact ⟨fun _ => nofun,room,here⟩
  · obtain ⟨_,fine,room,_,⟨_,here⟩,_⟩ := met
    refine ⟨?_,room,here⟩
    rintro _ ⟨⟩
    exact fine

section
variable (stable : Stable held fit)
include stable

/-- Statements that are fit to run leave scopes with the property, at every level. -/
theorem runs (rounds levels : Nat) :
    Coupled.AlikeAt (Scope.Itself held) fit True rounds rounds levels :=
  stable.coupled.runs (fun _ _ _ _ => ⟨trivial,rfl⟩) levels

theorem evaluate (rounds levels entered : Nat) (node : Node) :
    Guards (State.Holds (held entered) levels) (Halt.Allowed True)
      (evaluate (enterAt rounds levels) node) :=
  guards_of_alike (stable.coupled.evaluate (fun fewer _ => stable.runs rounds fewer) entered node)

theorem evaluateResolved (rounds levels entered : Nat) (node : Node) :
    Guards (State.Holds (held entered) levels) (Halt.Allowed True)
      (evaluateResolved (enterAt rounds levels) node) :=
  guards_of_alike
    (stable.coupled.evaluateResolved (fun fewer _ => stable.runs rounds fewer) entered node)

theorem condition (rounds levels entered : Nat) (node : Node) :
    Guards (State.Holds (held entered) levels) (Halt.Allowed True)
      (condition (enterAt rounds levels) node) :=
  guards_of_alike (stable.coupled.condition (fun fewer _ => stable.runs rounds fewer) entered node)

theorem execute (rounds levels entered : Nat) (node : Node) (fits : fit entered node) :
    Guards (State.Holds (held entered) levels) (Halt.Allowed True)
      (execute rounds (enterAt rounds levels) node) :=
  guards_of_alike
    (stable.coupled.statement (fun _ _ _ _ => ⟨trivial,rfl⟩) levels entered node fits)

theorem executeAll (rounds levels entered : Nat) (statements : List Node)
    (fits : ∀ statement ∈ statements, fit entered statement) :
    Guards (State.Holds (held entered) levels) (Halt.Allowed True)
      (executeAll rounds (enterAt rounds levels) statements) :=
  guards_of_alike (stable.runs rounds levels entered statements fits)

theorem inBlock (rounds levels entered : Nat) (context : Context) (plain : context.Plain)
    (body : List Node) (fits : ∀ statement ∈ body, fit (entered + 1) statement) :
    Guards (State.Holds (held entered) levels) (Halt.Allowed True)
      (within context (BlockScript.executeAll rounds (enterAt rounds levels) body)) :=
  guards_of_alike (stable.coupled.inBlock entered context plain
    (stable.runs rounds levels (entered + 1) body fits))

/-- The visits inside of a visit find what the visit found, with at most one more context. -/
theorem leads {rounds : Nat} {visit next : Visit} (leads : Leads rounds visit next) (entered : Nat)
    (fits : visit.task.Fits fit entered) (here : held entered visit.state.scope) :
    ∃ deeper, next.task.Fits fit deeper ∧ held deeper next.state.scope := by
  have holds : State.Holds (held entered) (maxDepth - visit.state.depth) visit.state :=
    ⟨by omega,here⟩
  cases leads with
  | arithmeticLeft | testLeft | assignedField | object | put | ret | evaluated | tested | loopTested
  | collection => exact ⟨entered,trivial,here⟩
  | arithmeticRight operator left right state next value first =>
    exact ⟨entered,trivial,((stable.evaluateResolved rounds _ entered left).ok holds first).2⟩
  | testRight operator left right state next value first =>
    exact ⟨entered,trivial,((stable.evaluateResolved rounds _ entered left).ok holds first).2⟩
  | assigned name value state next type target =>
    obtain ⟨rfl,_⟩ := targetType_ok name state next type target
    exact ⟨entered,trivial,here⟩
  | assignedNothing object member value state next found target =>
    exact ⟨entered,trivial,((stable.evaluate rounds _ entered _).ok holds target).2⟩
  | member object member state next found plain first =>
    exact ⟨entered,trivial,((stable.evaluate rounds _ entered object).ok holds first).2⟩
  | call node called arguments state function context calls declared accepted =>
    exact ⟨entered + 1,stable.body here called function declared,
      stable.pushed here context (function.plain_of_accept accepted)⟩
  | block statements =>
    exact ⟨entered + 1,stable.inside fits statements (by simp [Node.blocks]),
      stable.pushed here .empty Context.plain_empty⟩
  | thenBody test body otherwise state next result =>
    have tested := (stable.condition rounds _ entered test).ok holds result
    exact ⟨entered + 1,stable.inside fits body (by simp [Node.blocks]),
      stable.pushed tested.2 .empty Context.plain_empty⟩
  | elseBody test body otherwise state next result =>
    have tested := (stable.condition rounds _ entered test).ok holds result
    exact ⟨entered + 1,stable.inside fits otherwise (by simp [Node.blocks]),
      stable.pushed tested.2 .empty Context.plain_empty⟩
  | loopBody test body state next result =>
    have tested := (stable.condition rounds _ entered test).ok holds result
    exact ⟨entered + 1,stable.inside fits body (by simp [Node.blocks]),
      stable.pushed tested.2 .empty Context.plain_empty⟩
  | loopAgain test body state next last result round =>
    have fine := stable.inside fits body (by simp [Node.blocks])
    have inside := stable.inBlock rounds (maxDepth - state.depth) entered .empty
      Context.plain_empty body fine
    have tested := (stable.condition rounds _ entered test).ok holds result
    exact ⟨entered,fits,(inside.ok tested round).2⟩
  | iteration iterator collection body state next value contexts found items =>
    refine ⟨entered,⟨?_,stable.inside fits body (by simp [Node.blocks])⟩,
      ((stable.evaluateResolved rounds _ entered collection).ok holds found).2⟩
    intro context member
    obtain ⟨type,item,rfl,_⟩ := value.single_of_rounds iterator contexts items context member
    exact Context.plain_single iterator type item
  | item context contexts body =>
    exact ⟨entered + 1,fits.2,stable.pushed here context (fits.1 context List.mem_cons_self)⟩
  | items context contexts body state next round =>
    have plain := List.forall_mem_cons.mp fits.1
    have inside := stable.inBlock rounds (maxDepth - state.depth) entered context plain.1 body fits.2
    exact ⟨entered,⟨plain.2,fits.2⟩,(inside.ok holds round).2⟩
  | first statement rest => exact ⟨entered,(List.forall_mem_cons.mp fits).1,here⟩
  | rest statement rest state next first =>
    obtain ⟨fine,after⟩ := List.forall_mem_cons.mp fits
    exact ⟨entered,after,((stable.execute rounds _ entered statement fine).ok holds first).2⟩

end

end Stable

end BlockScript
