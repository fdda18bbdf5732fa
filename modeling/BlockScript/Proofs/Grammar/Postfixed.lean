import BlockScript.Proofs.Build.Feed
import BlockScript.Proofs.Grammar.Basic

/-! Tokens in postfix order that leave one operand behind when they are assembled. -/
namespace BlockScript.Grammar

/-- Assembling the tokens leaves the node as the last operand. -/
structure Postfixed (tokens : List Token) (node : Node) : Prop where
  assembled : ∀ assembly : Assembly, assembly.skipping = false →
    tokens.foldl Assembly.feed assembly = assembly.pushOperand node
  operand : node.isDoMark = false

namespace Postfixed

theorem ne_nil (tokens : List Token) (node : Node) (made : Postfixed tokens node) :
    tokens ≠ [] := by
  intro empty
  subst empty
  have same := congrArg Assembly.operands (made.assembled .empty rfl)
  simp [Assembly.pushOperand,Assembly.empty] at same

theorem single (token : Token) (node : Node) (operand : node.isDoMark = false)
    (applied : ∀ assembly : Assembly, assembly.apply token = (assembly.pushOperand node,none)) :
    Postfixed [token] node := by
  refine ⟨?_,operand⟩
  intro assembly awake
  exact assembly.feed_awake _ token awake (applied assembly)

theorem one (tokens : List Token) (token : Token) (node made : Node) (first : Postfixed tokens node)
    (operand : made.isDoMark = false)
    (applied : ∀ assembly : Assembly,
      (assembly.pushOperand node).apply token = (assembly.pushOperand made,none)) :
    Postfixed (tokens ++ [token]) made := by
  refine ⟨?_,operand⟩
  intro assembly awake
  rw [List.foldl_append,first.assembled assembly awake]
  exact (assembly.pushOperand node).feed_awake _ token awake (applied assembly)

theorem two (left right : List Token) (token : Token) (first second made : Node)
    (firstMade : Postfixed left first) (secondMade : Postfixed right second)
    (operand : made.isDoMark = false)
    (applied : ∀ assembly : Assembly,
      ((assembly.pushOperand first).pushOperand second).apply token =
        (assembly.pushOperand made,none)) :
    Postfixed (left ++ right ++ [token]) made := by
  refine ⟨?_,operand⟩
  intro assembly awake
  rw [List.foldl_append,List.foldl_append,firstMade.assembled assembly awake,
    secondMade.assembled (assembly.pushOperand first) awake]
  exact ((assembly.pushOperand first).pushOperand second).feed_awake _ token awake
    (applied assembly)

/-- Operands before their operator make the tree of the operator. -/
theorem joined (joiner : Joiner) (token : Spelled joiner.kind joiner.spelling)
    (left right : List Token) (first second : Node) (firstMade : Postfixed left first)
    (secondMade : Postfixed right second) :
    Postfixed (left ++ right ++ [token.val]) (joiner.join first second) := by
  obtain ⟨token,kind,text⟩ := token
  refine two left right token first second _ firstMade secondMade ?_ ?_
  · cases joiner <;> rfl
  · intro assembly
    have sides : (second.isDoMark || first.isDoMark) = false := by
      simp [firstMade.operand,secondMade.operand]
    have taken (make : Node → Node → Node) :
        ((assembly.pushOperand first).pushOperand second).takeTwo token make =
          (assembly.pushOperand (make first second),none) := by
      simp [Assembly.takeTwo,Assembly.pushOperand,sides]
    cases joiner with
    | argument | assign | either | both | field =>
      simp only [Joiner.kind] at kind
      simp only [Assembly.apply,kind]
      exact taken _
    | compare relation =>
      simp only [Joiner.kind] at kind
      simp only [Joiner.spelling] at text
      simp only [Assembly.apply,kind,text,Relation.ofSpelling?_spelling]
      exact taken _
    | arithmetic sign =>
      simp only [Joiner.spelling] at text
      have signed : token.kind = .additive ∨ token.kind = .multiplicative := by
        cases sign <;> simp [kind,Joiner.kind]
      rcases signed with signed | signed <;>
        simp only [Assembly.apply,signed,text,Arithmetic.ofSpelling?_spelling] <;> exact taken _

theorem callOne (called : Token) (text : String) (tokens : List Token) (node : Node)
    (kind : called.kind = .call) (named : called.lexeme = text)
    (single : Assembly.chain node = .lastArgument node) (made : Postfixed tokens node) :
    Postfixed (tokens ++ [called]) (.call text (.lastArgument node)) := by
  refine one tokens called node _ made rfl ?_
  intro assembly
  simp [Assembly.apply,kind,Assembly.takeOne,Assembly.pushOperand,made.operand,named,single]

theorem callMany (called : Token) (text : String) (tokens : List Token) (earlier last : Node)
    (kind : called.kind = .call) (named : called.lexeme = text)
    (made : Postfixed tokens (.argument earlier last)) :
    Postfixed (tokens ++ [called]) (.call text (.argument earlier last)) := by
  refine one tokens called _ _ made rfl ?_
  intro assembly
  simp [Assembly.apply,kind,Assembly.takeOne,Assembly.pushOperand,made.operand,named,
    Assembly.chain]

end Postfixed

end BlockScript.Grammar
