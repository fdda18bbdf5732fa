import BlockScript.Build.Program

/-! Tokens that delimit nothing. Such a token looks at the operands only and changes nothing else. -/
namespace BlockScript

/-- What operators make of tokens. Nothing in it is a block or a mark of one. -/
inductive Node.Raw : Node → Prop
  | int (value : Int64) : Raw (.int value)
  | real (value : Float) : Raw (.real value)
  | name (text : String) : Raw (.name text)
  | string (text : String) : Raw (.string text)
  | arithmetic (operator : Arithmetic) (left right : Node) (first : Raw left)
      (second : Raw right) : Raw (.arithmetic operator left right)
  | test (operator : Test) (left right : Node) (first : Raw left) (second : Raw right) :
      Raw (.test operator left right)
  | assign (target value : Node) (first : Raw target) (second : Raw value) :
      Raw (.assign target value)
  | field (object member : Node) (first : Raw object) (second : Raw member) :
      Raw (.field object member)
  | argument (left right : Node) (first : Raw left) (second : Raw right) :
      Raw (.argument left right)
  | lastArgument (operand : Node) (inner : Raw operand) : Raw (.lastArgument operand)
  | call (called : String) (arguments : Node) (inner : Raw arguments) :
      Raw (.call called arguments)
  | callNoArgs (called : String) : Raw (.callNoArgs called)
  | ifThen (condition : Node) (inner : Raw condition) : Raw (.ifThen condition none none)
  | whileDo (condition : Node) (inner : Raw condition) : Raw (.whileDo condition none)
  | forIn (iterator collection : Node) (first : Raw iterator) (second : Raw collection) :
      Raw (.forIn iterator collection none)
  | put (operand : Node) (inner : Raw operand) : Raw (.put operand)
  | ret (operand : Node) (inner : Raw operand) : Raw (.ret operand)

theorem Node.Raw.isDoMark (node : Node) (raw : node.Raw) : node.isDoMark = false := by
  cases raw <;> rfl

theorem Node.Raw.chain (node : Node) (raw : node.Raw) : (Assembly.chain node).Raw := by
  cases raw with
  | argument left right first second => exact .argument left right first second
  | lastArgument operand inner => exact .lastArgument operand inner
  | _ =>
    refine .lastArgument _ ?_
    constructor <;> assumption

namespace Assembly

structure Effect (effect : List Node → List Node × Option BuildError) : Prop where
  failed : ∀ operands error, (effect operands).2 = some error → (effect operands).1 = operands
  left : ∀ operands, (effect operands).2 = none → (effect operands).1 ≠ []
  raw : ∀ operands, (∀ node ∈ operands, node.Raw) → ∀ node ∈ (effect operands).1, node.Raw

def Affects (token : Token) (effect : List Node → List Node × Option BuildError) : Prop :=
  ∀ assembly : Assembly, assembly.apply token =
    ({ assembly with operands := (effect assembly.operands).1 },(effect assembly.operands).2)

theorem effect_fails (error : BuildError) : Effect fun operands => (operands,some error) where
  failed := fun _ _ _ => rfl
  left := fun _ absent => by contradiction
  raw := fun _ raw => raw

theorem effect_push (node : Node) (raw : node.Raw) :
    Effect fun operands => (node :: operands,none) where
  failed := fun _ _ fault => by contradiction
  left := fun operands _ => List.cons_ne_nil node operands
  raw := fun operands others => List.forall_mem_cons.mpr ⟨raw,others⟩

theorem effect_one (token : Token) (make : Node → Node)
    (made : ∀ operand : Node, operand.Raw → (make operand).Raw) :
    Effect fun operands => ((takeOne ⟨operands,[],[],[],false⟩ token make).1.operands,
      (takeOne ⟨operands,[],[],[],false⟩ token make).2) := by
  constructor
  · intro operands error failed
    unfold takeOne at failed ⊢
    split
    · split
      · rfl
      · simp_all
    · rfl
  · intro operands fine
    unfold takeOne at fine ⊢
    split
    · split
      · simp_all
      · simp
    · simp_all
  · intro operands raw
    unfold takeOne
    split
    next operand rest same =>
      have same : operands = operand :: rest := same
      rw [same] at raw ⊢
      obtain ⟨first,others⟩ := List.forall_mem_cons.mp raw
      split
      · exact raw
      · exact List.forall_mem_cons.mpr ⟨made operand first,others⟩
    next => exact raw

theorem effect_two (token : Token) (make : Node → Node → Node)
    (made : ∀ left right : Node, left.Raw → right.Raw → (make left right).Raw) :
    Effect fun operands => ((takeTwo ⟨operands,[],[],[],false⟩ token make).1.operands,
      (takeTwo ⟨operands,[],[],[],false⟩ token make).2) := by
  constructor
  · intro operands error failed
    unfold takeTwo at failed ⊢
    split
    · split
      · rfl
      · simp_all
    · rfl
  · intro operands fine
    unfold takeTwo at fine ⊢
    split
    · split
      · simp_all
      · simp
    · simp_all
  · intro operands raw
    unfold takeTwo
    split
    next right left rest same =>
      have same : operands = right :: left :: rest := same
      rw [same] at raw ⊢
      obtain ⟨second,others⟩ := List.forall_mem_cons.mp raw
      obtain ⟨first,others⟩ := List.forall_mem_cons.mp others
      split
      · exact raw
      · exact List.forall_mem_cons.mpr ⟨made left right first second,others⟩
    next => exact raw

theorem takeOne_operands (assembly : Assembly) (token : Token) (make : Node → Node) :
    assembly.takeOne token make =
      ({ assembly with operands :=
          (takeOne ⟨assembly.operands,[],[],[],false⟩ token make).1.operands },
        (takeOne ⟨assembly.operands,[],[],[],false⟩ token make).2) := by
  obtain ⟨operands,roots,openBlocks,reports,skipping⟩ := assembly
  cases operands with
  | nil => rfl
  | cons operand rest =>
    simp only [takeOne]
    split <;> rfl

theorem takeTwo_operands (assembly : Assembly) (token : Token) (make : Node → Node → Node) :
    assembly.takeTwo token make =
      ({ assembly with operands :=
          (takeTwo ⟨assembly.operands,[],[],[],false⟩ token make).1.operands },
        (takeTwo ⟨assembly.operands,[],[],[],false⟩ token make).2) := by
  obtain ⟨operands,roots,openBlocks,reports,skipping⟩ := assembly
  match operands with
  | [] | [_] => rfl
  | right :: left :: rest =>
    simp only [takeTwo]
    split <;> rfl

/-- A token that delimits nothing does the same to the operands of every assembly. -/
theorem affects_of_plain (token : Token) (plain : token.kind.delimits = false) :
    ∃ effect, Effect effect ∧ Affects token effect := by
  have push (node : Node) (raw : node.Raw)
      (same : ∀ assembly : Assembly, assembly.apply token = (assembly.pushOperand node,none)) :
      ∃ effect, Effect effect ∧ Affects token effect := ⟨_,effect_push node raw,same⟩
  have fail (error : BuildError)
      (same : ∀ assembly : Assembly, assembly.apply token = (assembly,some error)) :
      ∃ effect, Effect effect ∧ Affects token effect := ⟨_,effect_fails error,same⟩
  have one (make : Node → Node) (made : ∀ operand : Node, operand.Raw → (make operand).Raw)
      (same : ∀ assembly : Assembly, assembly.apply token = assembly.takeOne token make) :
      ∃ effect, Effect effect ∧ Affects token effect :=
    ⟨_,effect_one token make made,fun assembly => (same assembly).trans (takeOne_operands ..)⟩
  have two (make : Node → Node → Node)
      (made : ∀ left right : Node, left.Raw → right.Raw → (make left right).Raw)
      (same : ∀ assembly : Assembly, assembly.apply token = assembly.takeTwo token make) :
      ∃ effect, Effect effect ∧ Affects token effect :=
    ⟨_,effect_two token make made,fun assembly => (same assembly).trans (takeTwo_operands ..)⟩
  cases kind : token.kind with
  | integer =>
    cases read : Decimal.integer? token.lexeme with
    | some value => exact push _ (.int value) fun _ => by simp [apply,kind,read]
    | none => exact fail (.invalidNumber token.lexeme) fun _ => by simp [apply,kind,read]
  | real =>
    cases read : Decimal.real? token.lexeme with
    | some value => exact push _ (.real value) fun _ => by simp [apply,kind,read]
    | none => exact fail (.invalidNumber token.lexeme) fun _ => by simp [apply,kind,read]
  | name => exact push _ (.name token.lexeme) fun _ => by simp [apply,kind]
  | string => exact push _ (.string token.lexeme) fun _ => by simp [apply,kind]
  | callNoArgs => exact push _ (.callNoArgs token.lexeme) fun _ => by simp [apply,kind]
  | additive | multiplicative =>
    cases read : Arithmetic.ofSpelling? token.lexeme with
    | some operator => exact two _ (.arithmetic operator) fun _ => by simp [apply,kind,read]
    | none => exact fail (.unknownOperator token.lexeme) fun _ => by simp [apply,kind,read]
  | comparison =>
    cases read : Relation.ofSpelling? token.lexeme with
    | some relation => exact two _ (.test (.compare relation)) fun _ => by simp [apply,kind,read]
    | none => exact fail (.unknownOperator token.lexeme) fun _ => by simp [apply,kind,read]
  | andWord => exact two _ (.test .both) fun _ => by simp [apply,kind]
  | orWord => exact two _ (.test .either) fun _ => by simp [apply,kind]
  | assign => exact two _ .assign fun _ => by simp [apply,kind]
  | dot => exact two _ .field fun _ => by simp [apply,kind]
  | comma => exact two _ .argument fun _ => by simp [apply,kind]
  | call =>
    exact one _ (fun operand raw => .call token.lexeme _ (raw.chain operand))
      fun _ => by simp [apply,kind]
  | putWord => exact one _ .put fun _ => by simp [apply,kind]
  | retWord => exact one _ .ret fun _ => by simp [apply,kind]
  | ifWord => exact one _ .ifThen fun _ => by simp [apply,kind]
  | whileWord => exact one _ .whileDo fun _ => by simp [apply,kind]
  | forWord => exact two _ .forIn fun _ => by simp [apply,kind]
  | specifier | inWord | semicolon | opening | closing | fileEnd =>
    exact fail (.unexpected token.kind) fun _ => by simp [apply,kind]
  | statementEnd | doWord | doneWord | elseWord => simp [kind,TokenKind.delimits] at plain

end Assembly

end BlockScript
