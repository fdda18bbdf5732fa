import BlockScript.Proofs.Build.Structure
import BlockScript.Proofs.Eval.Ends

/-! The names that a tree mentions. An expression yields no other name, since a call returns none
and a name that is looked up is not looked up again. -/
namespace BlockScript
open Run

namespace Node

mutual

/-- The names of variables, parameters, iterators, functions and handlers in the tree. The word
behind the dot of a command to a handler is no name. -/
def names : Node → List String
  | name text => [text]
  | arithmetic _ left right | test _ left right | assign left right | argument left right =>
    left.names ++ right.names
  | field object member =>
    match object, handlerCommand? member with
    | name called, some _ => [called]
    | object, _ => object.names ++ member.names
  | lastArgument operand | put operand | ret operand => operand.names
  | typed declared => [declared.name]
  | function called _ parameters body =>
    called :: (parameters.map TypedName.name ++ statementNames body)
  | call called arguments => called :: arguments.names
  | callNoArgs called | handler called => [called]
  | ifThen condition body otherwise => condition.names ++ slotNames body ++ slotNames otherwise
  | whileDo condition body => condition.names ++ slotNames body
  | forIn iterator collection body => iterator.names ++ collection.names ++ slotNames body
  | block statements => statementNames statements
  | int _ | real _ | string _ | elseMark | doMark | lineMark => []
termination_by structural node => node

def slotNames : Option (List Node) → List String
  | none => []
  | some statements => statementNames statements
termination_by structural slot => slot

def statementNames : List Node → List String
  | [] => []
  | statement :: rest => statement.names ++ statementNames rest
termination_by structural statements => statements

end

def Mentions (node : Node) (name : String) : Prop := name ∈ node.names

def Within (names : String → Prop) (node : Node) : Prop := ∀ name, node.Mentions name → names name

theorem names_command (called : String) (member : Node) (command : HandlerCommand)
    (found : handlerCommand? member = some command) :
    (field (name called) member).names = [called] := by
  simp [names,found]

example : (field (name "h") (name "start")).names = ["h"] := rfl

theorem names_field (object member : Node)
    (plain : ∀ called command, object = .name called → handlerCommand? member = some command → False) :
    (field object member).names = object.names ++ member.names := by
  rw [names]
  exact plain

theorem mem_statementNames (name : String) (statements : List Node) :
    name ∈ statementNames statements ↔ ∃ statement ∈ statements, name ∈ statement.names := by
  induction statements with
  | nil => simp [statementNames]
  | cons statement rest ih => simp [statementNames,ih]

theorem names_of_blocks (node : Node) (block : List Node) (owned : block ∈ node.blocks)
    (statement : Node) (member : statement ∈ block) (name : String)
    (inside : name ∈ statement.names) : name ∈ node.names := by
  have here := (mem_statementNames name block).mpr ⟨statement,member,inside⟩
  cases node with
  | function called returns parameters body =>
    obtain rfl := List.mem_singleton.mp owned
    simp [names,here]
  | block statements =>
    obtain rfl := List.mem_singleton.mp owned
    simp [names,here]
  | ifThen test body otherwise =>
    simp only [blocks,List.mem_append,Option.mem_toList] at owned
    rcases owned with rfl | rfl <;> simp [names,slotNames,here]
  | whileDo test body =>
    obtain rfl := Option.mem_toList.mp owned
    simp [names,slotNames,here]
  | forIn iterator collection body =>
    obtain rfl := Option.mem_toList.mp owned
    simp [names,slotNames,here]
  | _ => contradiction

theorem names_of_argumentList (node argument : Node) (member : argument ∈ node.argumentList)
    (name : String) (inside : name ∈ argument.names) : name ∈ node.names := by
  induction node using argumentList.induct with
  | case1 left right ih =>
    rcases List.mem_append.mp member with member | member
    · simp [names,ih member]
    · obtain rfl := List.mem_singleton.mp member
      simp [names,inside]
  | case2 operand ih => exact ih member
  | case3 operand plain last =>
    rw [argumentList] at member
    · obtain rfl := List.mem_singleton.mp member
      exact inside
    · exact plain
    · exact last

namespace Within

variable {names : String → Prop} {node : Node} (within : node.Within names)
include within

theorem part {part : Node} (inside : ∀ name ∈ part.names, name ∈ node.names) :
    part.Within names := fun name mentioned => within name (inside name mentioned)

theorem block (block : List Node) (owned : block ∈ node.blocks) :
    ∀ statement ∈ block, statement.Within names :=
  fun statement member => within.part (node.names_of_blocks block owned statement member)

theorem arguments : ∀ argument ∈ node.argumentList, argument.Within names :=
  fun argument member => within.part (node.names_of_argumentList argument member)

end Within

end Node

def Value.Within (names : String → Prop) (value : Value) : Prop :=
  ∀ name, value = .name name → names name

theorem Value.within_of_conforms {names : String → Prop} (value : Value) (type : TypeName)
    (conforms : value.conforms type = true) : value.Within names := by
  rintro name rfl
  contradiction

theorem Function.answer_ok (function : Function) (returned : Option Value) (value : Value)
    (answered : function.answer returned = .ok value) :
    value = .void ∨ value.conforms function.returns = true := by
  simp only [answer] at answered
  split at answered
  next fine =>
    obtain rfl := Except.ok.inj answered
    rcases Bool.or_eq_true_iff.mp fine with void | conforms
    · generalize returned.getD .void = value at void
      cases value <;> first | exact .inl rfl | contradiction
    · exact .inr conforms
  next => contradiction

section
variable {enter : Enter} {names : String → Prop} {state next : State} {value : Value}

theorem ok_of_lift {α : Type} (result : Except Fault α) (value : α) (state next : State)
    (ran : lift result state = .ok value next) : result = .ok value := by
  cases result with
  | ok other =>
    cases ran
    rfl
  | error fault => contradiction

/-- A call returns no name, because no value that conforms to a type is one. -/
theorem call_within (called : String) (arguments : List Node)
    (ran : call enter called arguments state = .ok value next) : value.Within names := by
  obtain ⟨seen,_,found,ran⟩ := ok_of_bind _ _ _ _ _ ran
  cases declared : seen.scope.declared? called with
  | none =>
    simp only [declared] at ran
    contradiction
  | some kind =>
    cases kind with
    | typed | handler =>
      simp only [declared] at ran
      contradiction
    | function function =>
      simp only [declared] at ran
      obtain ⟨_,_,_,ran⟩ := ok_of_bind _ _ _ _ _ ran
      obtain ⟨_,_,_,ran⟩ := ok_of_bind _ _ _ _ _ ran
      obtain ⟨returned,_,_,ran⟩ := ok_of_bind _ _ _ _ _ ran
      rcases function.answer_ok returned value (ok_of_lift _ _ _ _ ran) with rfl | conforms
      · exact nofun
      · exact value.within_of_conforms _ conforms

theorem Arithmetic.apply_within (operator : Arithmetic) (left right : Value)
    (applied : operator.apply left right = .ok value) : value.Within names := by
  unfold Arithmetic.apply at applied
  split at applied
  next first second =>
    simp only [Arithmetic.onWords] at applied
    split at applied
    · contradiction
    · split at applied
      · cases applied
        exact nofun
      · contradiction
  next =>
    split at applied
    · cases applied
      exact nofun
    · contradiction

theorem Test.apply_within (operator : Test) (left right : Value)
    (applied : operator.apply left right = .ok value) : value.Within names := by
  unfold Test.apply at applied
  cases decided : operator.decide left right with
  | error fault =>
    rw [decided] at applied
    contradiction
  | ok holds =>
    rw [decided] at applied
    cases applied
    exact nofun

theorem commandHandler_within (command : HandlerCommand) (called : String)
    (ran : commandHandler command called state = .ok value next) : value.Within names := by
  unfold commandHandler at ran
  rw [scope_bind] at ran
  cases declared : state.scope.declared? called with
  | none =>
    simp only [declared] at ran
    contradiction
  | some kind =>
    cases kind with
    | handler =>
      simp only [declared] at ran
      obtain ⟨_,_,_,ran⟩ := ok_of_bind _ _ _ _ _ ran
      cases ran
      exact nofun
    | _ =>
      simp only [declared] at ran
      contradiction

/-- An expression yields no name but those that it mentions. -/
theorem evaluate_within (node : Node) (within : node.Within names)
    (ran : evaluate enter node state = .ok value next) : value.Within names := by
  induction node using evaluate.induct generalizing state next value with
  | case1 | case2 | case4 =>
    cases ran
    exact nofun
  | case3 text =>
    cases ran
    rintro _ ⟨⟩
    exact within text List.mem_cons_self
  | case5 operator left right =>
    obtain ⟨first,_,_,ran⟩ := ok_of_bind _ _ _ _ _ ran
    obtain ⟨second,_,_,ran⟩ := ok_of_bind _ _ _ _ _ ran
    exact operator.apply_within first second (ok_of_lift _ _ _ _ ran)
  | case6 operator left right =>
    obtain ⟨first,_,_,ran⟩ := ok_of_bind _ _ _ _ _ ran
    obtain ⟨second,_,_,ran⟩ := ok_of_bind _ _ _ _ _ ran
    exact operator.apply_within first second (ok_of_lift _ _ _ _ ran)
  | case7 =>
    obtain ⟨_,_,_,ran⟩ := ok_of_bind _ _ _ _ _ ran
    obtain ⟨_,_,_,ran⟩ := ok_of_bind _ _ _ _ _ ran
    cases ran
    exact nofun
  | case8 right text =>
    obtain ⟨type,_,_,ran⟩ := ok_of_bind _ _ _ _ _ ran
    obtain ⟨held,_,_,ran⟩ := ok_of_bind _ _ _ _ _ ran
    unfold store at ran
    split at ran
    next conforms =>
      cases ran
      exact Value.within_of_conforms _ type conforms
    next => contradiction
  | case9 right target notField notName =>
    cases target with
    | field object member => exact (notField object member rfl).elim
    | name text => exact (notName text rfl).elim
    | _ => contradiction
  | case10 member called command found =>
    rw [evaluate] at ran
    · exact commandHandler_within command called ran
    · exact found
  | case11 member object plain ihObject ihMember =>
    rw [evaluate] at ran
    · obtain ⟨_,_,_,ran⟩ := ok_of_bind _ _ _ _ _ ran
      exact ihMember (within.part (by simp +contextual [Node.names_field _ _ plain])) ran
    · exact plain
  | case12 called arguments => exact call_within called arguments.argumentList ran
  | case13 called => exact call_within called [] ran
  | case14 | case15 | case16 => contradiction
  | case17 node => cases node <;> first | contradiction | simp_all

end

end BlockScript
