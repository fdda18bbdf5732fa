import BlockScript.Proofs.Eval.Visit
import BlockScript.Proofs.Grammar.Containment

/-! Written calls. However many arguments a call has, its tree gives them back in the order in which
they were written. -/
namespace BlockScript.Grammar

inductive Arguments : List Token → List Node → Prop
  | one (tokens : List Token) (node : Node) (written : Expression 2 tokens node) :
      Arguments tokens [node]
  | more (tokens rest : List Token) (nodes : List Node) (node : Node) (comma : Spelled .comma ",")
      (earlier : Arguments tokens nodes) (written : Expression 2 rest node) :
      Arguments (tokens ++ comma.val :: rest) (nodes ++ [node])

inductive Call : List Token → String → List Node → Prop
  | nothing (called : Of .name) (opening : Of .opening) (closing : Of .closing) :
      Call [called.val,opening.val,closing.val] called.val.lexeme []
  | given (called : Of .name) (opening : Of .opening) (closing : Of .closing)
      (tokens : List Token) (arguments : List Node) (written : Arguments tokens arguments) :
      Call (called.val :: opening.val :: tokens ++ [closing.val]) called.val.lexeme arguments

theorem Expression.loosen {level lower : Nat} {tokens : List Token} {node : Node}
    (written : Expression level tokens node) (below : lower ≤ level) :
    Expression lower tokens node := by
  cases written with
  | name _ token => exact .name lower token
  | integer _ token value read => exact .integer lower token value read
  | real _ token value read => exact .real lower token value read
  | string _ token => exact .string lower token
  | joined _ joiner token left right first second allowed leftWritten rightWritten =>
    exact .joined lower joiner token left right first second (below.trans allowed) leftWritten
      rightWritten
  | parentheses _ opening closing tokens node written =>
    exact .parentheses lower opening closing tokens node written
  | callNoArgs _ called opening closing => exact .callNoArgs lower called opening closing
  | callOne _ called opening closing tokens node written =>
    exact .callOne lower called opening closing tokens node written
  | callMany _ called opening closing tokens earlier last written =>
    exact .callMany lower called opening closing tokens earlier last written

/-- An expression is an argument by itself. -/
theorem argumentList_of_expression {tokens : List Token} {node : Node}
    (written : Expression 2 tokens node) : node.argumentList = [node] := by
  have single := chain_of_expression 2 tokens node (Nat.le_refl 2) written
  cases node with
  | argument left right => cases single
  | lastArgument operand =>
    have same : Node.lastArgument operand = .lastArgument (.lastArgument operand) := single
    have size := congrArg sizeOf (Node.lastArgument.inj same)
    simp at size
  | _ => rfl

/-- A single argument is what it is. Several ones form a chain. -/
theorem Arguments.chained {tokens : List Token} {nodes : List Node}
    (written : Arguments tokens nodes) :
    (∃ node, nodes = [node] ∧ Expression 2 tokens node) ∨
      ∃ earlier last, Expression 1 tokens (.argument earlier last) ∧
        (Node.argument earlier last).argumentList = nodes := by
  induction written with
  | one tokens node written => exact .inl ⟨node,rfl,written⟩
  | more tokens rest nodes node comma earlier written ih =>
    apply Or.inr
    obtain ⟨first,rfl,before⟩ | ⟨first,second,before,listed⟩ := ih
    · refine ⟨first,node,?_,?_⟩
      · exact .joined 1 .argument comma tokens rest first node (Nat.le_refl 1)
          (before.loosen (Nat.le_succ 1)) written
      · rw [Node.argumentList,argumentList_of_expression before]
    · refine ⟨.argument first second,node,?_,?_⟩
      · exact .joined 1 .argument comma tokens rest _ node (Nat.le_refl 1) before written
      · rw [Node.argumentList,listed]

theorem Call.expression {tokens : List Token} {called : String} {arguments : List Node}
    (written : Call tokens called arguments) :
    ∃ node, Expression 2 tokens node ∧ node.calling? = some (called,arguments) := by
  cases written with
  | nothing called opening closing => exact ⟨_,.callNoArgs 2 called opening closing,rfl⟩
  | given called opening closing tokens arguments written =>
    obtain ⟨node,rfl,alone⟩ | ⟨earlier,last,chain,rfl⟩ := written.chained
    · refine ⟨_,.callOne 2 called opening closing tokens node alone,?_⟩
      rw [Node.calling?,Node.argumentList,argumentList_of_expression alone]
    · exact ⟨_,.callMany 2 called opening closing tokens earlier last chain,rfl⟩

/-- A written call is built as a call of its name with its arguments. -/
theorem Call.build {tokens : List Token} {called : String} {arguments : List Node}
    (written : Call tokens called arguments) (stop : Of .semicolon) (fileEnd : Of .fileEnd) :
    ∃ node, Expression 2 tokens node ∧ node.calling? = some (called,arguments) ∧
      build (tokens ++ [stop.val,fileEnd.val]) = ⟨[node],[]⟩ := by
  obtain ⟨node,expression,calls⟩ := written.expression
  have program : Program _ _ := .simple _ [] node [] (.expression tokens node stop expression) .nil
  refine ⟨node,expression,calls,?_⟩
  simpa using (Runs.program program).build fileEnd

end BlockScript.Grammar
