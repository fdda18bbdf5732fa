import BlockScript.Proofs.Eval.Coupled
import BlockScript.Proofs.Eval.Paired
import BlockScript.Proofs.Eval.Roots
import BlockScript.Proofs.Eval.Shadow
import Mathlib.Data.List.Forall2

/-! Names that a program does not mention. Whatever the contexts say about such a name, the program
does the same, and it leaves what they say as it is. -/
namespace BlockScript
open Run

def Context.Besides (hidden : String) (left right : Context) : Prop :=
  ∀ name, name ≠ hidden → left.entry name = right.entry name

def Scope.Besides (hidden : String) (left right : Scope) : Prop :=
  List.Forall₂ (Context.Besides hidden) left.contexts right.contexts

/-- The states differ in what their contexts say about the hidden name at most. -/
structure State.Besides (hidden : String) (left right : State) : Prop where
  scope : left.scope.Besides hidden right.scope
  rest : right = { left with scope := right.scope }

/-- No body of a function that has another name mentions the hidden one. -/
def Table.Silent (hidden : String) (table : Table Declared) : Prop :=
  ∀ called function, called ≠ hidden → table.find? called = some (.function function) →
    ∀ statement ∈ function.body, ¬ statement.Mentions hidden

def Scope.Silent (hidden : String) (scope : Scope) : Prop :=
  ∀ table ∈ scope.declarations, table.Silent hidden

variable {hidden : String}

theorem Node.within_of_not_mentions (node : Node) (unmentioned : ¬ node.Mentions hidden) :
    node.Within (· ≠ hidden) := by
  rintro name mentioned rfl
  exact unmentioned mentioned

namespace Context.Besides

variable {left right : Context} (besides : Besides hidden left right)

theorem refl (context : Context) : Besides hidden context context := fun _ _ => rfl

include besides

theorem owns (name : String) (apart : name ≠ hidden) : left.owns name = right.owns name := by
  obtain ⟨declared,value⟩ := Prod.mk.inj (besides name apart)
  simp only [Context.owns,Table.contains,declared,value]

theorem bind (name : String) (value : Value) :
    Besides hidden (left.bind name value) (right.bind name value) := by
  intro other apart
  obtain ⟨declared,held⟩ := Prod.mk.inj (besides other apart)
  simp only [entry,Context.bind,Table.find?_insert,declared,held]

theorem declare (name : String) (kind : Declared) :
    Besides hidden (left.declare name kind) (right.declare name kind) := by
  intro other apart
  obtain ⟨declared,held⟩ := Prod.mk.inj (besides other apart)
  simp only [entry,Context.declare,Table.find?_insert,declared,held]

end Context.Besides

theorem bindOwner?_besides (name : String) (apart : name ≠ hidden) (value : Value)
    {left right : List Context} (besides : List.Forall₂ (Context.Besides hidden) left right) :
    Option.Rel (List.Forall₂ (Context.Besides hidden)) (bindOwner? name value left)
      (bindOwner? name value right) := by
  induction besides with
  | nil => exact .none
  | @cons context other around beyond here rest ih =>
    simp only [bindOwner?,here.owns name apart]
    generalize bindOwner? name value around = first at ih ⊢
    generalize bindOwner? name value beyond = second at ih ⊢
    cases other.owns name with
    | true => exact .some (.cons (here.bind name value) rest)
    | false =>
      cases ih with
      | none => exact .none
      | some bound => exact .some (.cons here bound)

namespace Scope.Besides

variable {left right : Scope} (besides : Besides hidden left right)
include besides

theorem agreeOn (name : String) (apart : name ≠ hidden) : left.AgreeOn right name := by
  unfold Besides at besides
  constructor
  · unfold Scope.declared?
    generalize left.contexts = contexts, right.contexts = others at besides
    induction besides with
    | nil => rfl
    | cons here _ ih =>
      have declared := congrArg Prod.fst (here name apart)
      simp only [Context.entry] at declared
      simp only [List.findSome?_cons,declared,ih]
  · unfold Scope.value?
    generalize left.contexts = contexts, right.contexts = others at besides
    induction besides with
    | nil => rfl
    | cons here _ ih =>
      have held := congrArg Prod.snd (here name apart)
      simp only [Context.entry] at held
      simp only [List.find?_cons,here.owns name apart]
      split
      · exact held
      · exact ih

theorem push (context : Context) : Besides hidden (left.push context) (right.push context) :=
  .cons (.refl context) besides

theorem pop : Besides hidden left.pop right.pop := by
  obtain ⟨current,outer⟩ := left
  obtain ⟨other,around⟩ := right
  obtain ⟨here,rest⟩ := List.forall₂_cons.mp besides
  cases rest with
  | nil => exact .cons here .nil
  | cons next rest => exact .cons next rest

theorem declare (name : String) (declared : Declared) :
    Besides hidden (left.declare name declared) (right.declare name declared) := by
  obtain ⟨here,rest⟩ := List.forall₂_cons.mp besides
  exact .cons (here.declare name declared) rest

theorem assign (name : String) (apart : name ≠ hidden) (value : Value) :
    Besides hidden (left.assign name value) (right.assign name value) := by
  obtain ⟨here,rest⟩ := List.forall₂_cons.mp besides
  have bound := bindOwner?_besides name apart value besides
  unfold Scope.assign
  generalize bindOwner? name value left.contexts = first at bound ⊢
  generalize bindOwner? name value right.contexts = second at bound ⊢
  cases bound with
  | none => exact .cons (here.bind name value) rest
  | some bound =>
    cases bound with
    | nil => exact .cons (here.bind name value) rest
    | cons current outer => exact .cons current outer

end Scope.Besides

namespace Scope.Silent

variable {scope : Scope} (silent : scope.Silent hidden)
include silent

theorem body (called : String) (apart : called ≠ hidden) (function : Function)
    (declared : scope.declared? called = some (.function function)) :
    ∀ statement ∈ function.body, statement.Within (· ≠ hidden) := by
  rw [Scope.declared?_declarations] at declared
  obtain ⟨table,member,found⟩ := List.exists_of_findSome?_eq_some declared
  intro statement inside
  exact statement.within_of_not_mentions
    (silent table member called function apart found statement inside)

theorem push (context : Context) (plain : context.Plain) : (scope.push context).Silent hidden := by
  refine List.forall_mem_cons.mpr ⟨?_,silent⟩
  intro called function _ found
  obtain ⟨type,same⟩ := plain called _ found
  contradiction

theorem pop : scope.pop.Silent hidden := by
  obtain ⟨current,outer⟩ := scope
  cases outer with
  | nil => exact silent
  | cons context outer => exact (List.forall_mem_cons.mp silent).2

theorem declare (name : String) (declared : Declared)
    (within : ∀ function, declared = .function function →
      ∀ statement ∈ function.body, statement.Within (· ≠ hidden)) :
    (scope.declare name declared).Silent hidden := by
  obtain ⟨here,around⟩ := List.forall_mem_cons.mp silent
  refine List.forall_mem_cons.mpr ⟨?_,around⟩
  intro called function apart found statement inside mentioned
  simp only [Scope.declare,Context.declare,Table.find?_insert] at found
  split at found
  · exact within function (Option.some.inj found) statement inside hidden mentioned rfl
  · exact here called function apart found statement inside mentioned

theorem assign (name : String) (value : Value) : (scope.assign name value).Silent hidden := by
  unfold Silent
  rwa [scope.declarations_assign name value]

end Scope.Silent

structure Scope.Unaware (hidden : String) (left right : Scope) : Prop where
  besides : left.Besides hidden right
  silent : left.Silent hidden

theorem State.Beside.besides {levels : Nat} {left right : State}
    (beside : State.Beside (Scope.Unaware hidden) levels left right) :
    left.Besides hidden right := by
  obtain ⟨_,scope,here,rfl⟩ := beside
  exact ⟨here.besides,rfl⟩

theorem unaware_within {levels : Nat} {first second : Run (Option Value)} (context : Context)
    (plain : context.Plain)
    (ran : Alike (State.Beside (Scope.Unaware hidden) levels) True first second) :
    Alike (State.Beside (Scope.Unaware hidden) levels) True (within context first)
      (within context second) := by
  refine ran.within context ?_ ?_
  · rintro left right ⟨besides,silent⟩
    exact ⟨besides.push context,silent.push context plain⟩
  · rintro left right ⟨besides,silent⟩
    exact ⟨besides.pop,silent.pop⟩

/-- What mentions other names only runs alike on states that differ in the hidden name. The depth
plays no part here: there are levels for all depths. -/
theorem steps_unaware (hidden : String) (rounds : Nat) :
    Pairing.Steps (fun _ => Alike (State.Beside (Scope.Unaware hidden) maxDepth) True) (· ≠ hidden)
      rounds rounds where
  toJoins := alike_joins
  throw := fun halt => alike_throw halt fun _ => trivial
  resolve := by
    intro value within
    exact alike_resolve value fun name same _ _ here => here.besides.agreeOn name (within name same)
  targetType := fun name apart => alike_targetType fun _ _ here =>
    (here.besides.agreeOn name apart).declared
  store := by
    intro name type value apart
    unfold store
    split
    · refine (alike_modifyScope _ ?_).bind fun _ => alike_pure value
      rintro left right ⟨besides,silent⟩
      exact ⟨besides.assign name apart value,silent.assign name value⟩
    · exact alike_fail _
  commandHandler := fun command called apart => alike_commandHandler
    (fun _ _ here => (here.besides.agreeOn called apart).declared) command
  print := by
    intro value within
    exact alike_print value fun name same _ _ here => here.besides.agreeOn name (within name same)
  declare := by
    intro node name declared within declares
    refine (alike_modifyScope _ ?_).bind fun _ => alike_pure none
    rintro left right ⟨besides,silent⟩
    refine ⟨besides.declare name declared,silent.declare name declared ?_⟩
    rintro function rfl
    cases node with
    | function called returns parameters body =>
      cases declares
      exact within.block body (by simp [Node.blocks])
    | _ => cases declares
  within := fun context _ _ plain ran => unaware_within context plain ran
  call := by
    intro enter other called arguments apart given bodies
    refine alike_call (fun _ _ here => (here.besides.agreeOn called apart).declared) arguments ?_ ?_
    · intro argument member left right here
      exact here.besides.agreeOn argument (given _ member argument List.mem_cons_self)
    · intro left scope function context _ here declared accepted
      -- The function has another name, so that its body does not mention the hidden one either.
      have body := bodies function.body (here.silent.body called apart function declared)
      have inside := unaware_within context (function.plain_of_accept accepted) body
      refine inside.between ?_ ?_
      · rintro left _ ⟨_,scope,here,rfl⟩
        exact ⟨by omega,scope,here,rfl⟩
      · rintro left _ ⟨_,scope,here,rfl⟩
        exact ⟨by omega,scope,here,rfl⟩
  loop := fun _ _ _ _ tested round => tested.repeatWhile rounds trivial round

/-- A root whose statement runs alike from two states fails alike. -/
theorem runRoot_meet {related : State → State → Prop} {endless : Prop} {rounds others : Nat}
    (root : Node) (left right : State)
    (met : Meet related endless (runStatement rounds root (left.executing root))
      (runStatement others root (right.executing root)))
    (noted : ∀ event left right, related left right →
      related { left with log := event :: left.log } { right with log := event :: right.log }) :
    Option.Rel (fun first second => first.1 = second.1 ∧ related first.2 second.2)
      (runRoot rounds root left) (runRoot others root right) := by
  unfold State.executing at met
  unfold runRoot
  dsimp only
  generalize runStatement rounds root _ = first at met ⊢
  generalize runStatement others root _ = second at met ⊢
  cases first with
  | ok returned last =>
    cases second with
    | ok same next =>
      obtain ⟨rfl,after⟩ := met
      cases returned with
      | some value => exact .some ⟨rfl,noted _ _ _ after⟩
      | none => exact .some ⟨rfl,after⟩
    | error => exact met.elim
  | error halt last =>
    cases second with
    | ok => exact met.elim
    | error same next =>
      obtain ⟨rfl,_,after⟩ := met
      cases halt with
      | fault fault => exact .some ⟨rfl,noted _ _ _ after⟩
      | outOfRounds => exact .none

/-- A name that a root does not mention does not matter to it. Take two states that differ in what
their contexts say about the name and in nothing else, and let no function that has another name
mention it. From both states the root fails alike or not at all, and the states after it have the
same output, handlers and log, and differ in the name only. So a loop goes on forever from both
states or from neither. -/
theorem unmentioned_unobserved (rounds : Nat) (hidden : String) (root : Node) (left right : State)
    (besides : left.Besides hidden right) (silent : left.scope.Silent hidden)
    (unmentioned : ¬ root.Mentions hidden) :
    Option.Rel (fun first second => first.1 = second.1 ∧ first.2.Besides hidden second.2)
      (runRoot rounds root left) (runRoot rounds root right) := by
  obtain ⟨scopes,same⟩ := besides
  have ran := (steps_unaware hidden rounds).statement maxDepth root
    (root.within_of_not_mentions unmentioned)
  have met := ran (left.executing root) (right.executing root)
    ⟨Nat.le_add_left _ _,right.scope,⟨scopes,silent⟩,congrArg (State.executing root) same⟩
  have ended := runRoot_meet root left right met fun _ _ _ ⟨room,scope,here,same⟩ =>
    ⟨room,scope,here,by rw [same]⟩
  generalize runRoot rounds root left = first at ended ⊢
  generalize runRoot rounds root right = second at ended ⊢
  cases ended with
  | none => exact .none
  | some ended => exact .some ⟨ended.1,ended.2.besides⟩

/-- `int x; x = 3; int show(int y) do x = x * y; put x; put "z"; done`, and then the current context
in a block. -/
def State.showing (current : Context) : State :=
  { State.initial .unlimited with
    scope := ⟨current,[⟨⟨[("x",.typed .int),
        ("show",.function ⟨"show",.int,[⟨"y",.int⟩],[.block
          [.assign (.name "x") (.arithmetic .times (.name "x") (.name "y")),.put (.name "x"),
            .put (.string "z")]]⟩)]⟩,
      ⟨[("x",.int 3)]⟩⟩]⟩ }

/-- `string z; z = "s";` or else `int z() do put z; done`. -/
def hidingText : Context := ⟨⟨[("z",.typed .string)]⟩,⟨[("z",.string "s")]⟩⟩

def hidingFunction : Context := ⟨⟨[("z",.function ⟨"z",.int,[],[.put (.name "z")]⟩)]⟩,.empty⟩

/-- `show(x);` writes 9 and the text `z`, whatever the name `z` is declared as. -/
theorem showing_unobserved :
    Option.Rel (fun first second => first.1 = second.1 ∧ first.2.Besides "z" second.2)
      (runRoot 0 (.call "show" (.lastArgument (.name "x"))) (.showing hidingText))
      (runRoot 0 (.call "show" (.lastArgument (.name "x"))) (.showing hidingFunction)) ∧
    ∃ last, runRoot 0 (.call "show" (.lastArgument (.name "x"))) (.showing hidingFunction) =
      some (none,last) ∧ last.sink.written = "9\nz\n".toUTF8 := by
  refine ⟨unmentioned_unobserved 0 "z" _ _ _ ⟨.cons ?_ (.cons (.refl _) .nil),rfl⟩ ?_ ?_,_,rfl,rfl⟩
  · intro name apart
    change hidingText.entry name = hidingFunction.entry name
    simp [Context.entry,hidingText,hidingFunction,Table.find?,Table.findEntry,Table.empty,apart]
  · refine List.forall_mem_cons.mpr ⟨?_,List.forall_mem_singleton.mpr ?_⟩
    · intro called function apart found
      simp [State.showing,hidingText,Table.find?,Table.findEntry,apart] at found
    · intro called function _ found
      simp only [Table.find?,Table.findEntry] at found
      split at found
      · cases found
      · split at found
        · cases found
          simp [Node.Mentions,Node.names,Node.statementNames]
        · cases found
  · simp [Node.Mentions,Node.names]

end BlockScript
