import BlockScript.Build.Error
import BlockScript.Decimal.Read
import BlockScript.Tree.Basic

/-! Trees put together from postfix tokens. Operands collect until an operator takes them; a
statement end turns what is left into roots. A `do` leaves a mark among the roots, and its `done`
makes a block of everything behind that mark and attaches it to the root before. -/
namespace BlockScript

/-- Every list holds the most recent element first. -/
structure Assembly where
  operands : List Node
  roots : List Node
  openBlocks : List Token
  reports : List Report
  skipping : Bool

structure Built where
  roots : List Node
  reports : List Report

def TokenKind.delimits : TokenKind → Bool
  | statementEnd | doWord | doneWord | elseWord => true
  | _ => false

namespace Assembly

def empty : Assembly := ⟨[],[],[],[],false⟩

/-- A step of the assembly, which may have failed and then has changed nothing but block
structure. -/
abbrev Outcome := Assembly × Option BuildError

def report (assembly : Assembly) (error : BuildError) (token : Token) : Assembly :=
  { assembly with reports := ⟨error,token⟩ :: assembly.reports }

/-- A control header stays a root only while its `do` may still follow. -/
def dropHeader (assembly : Assembly) (token : Token) : Assembly :=
  match assembly.roots with
  | root :: below =>
    if root.awaitsBody then { assembly with roots := below }.report .missingBlock token
    else assembly
  | [] => assembly

def declare (assembly : Assembly) (declaration : Node) (token : Token) : Assembly :=
  let assembly := assembly.dropHeader token
  { assembly with roots := declaration :: assembly.roots }

/-- Makes an operand a root. Only a `do` may follow a header. -/
def promote (token : Token) (assembly : Assembly) (node : Node) : Assembly :=
  let assembly := if node.isDoMark then assembly else assembly.dropHeader token
  { assembly with roots := node :: assembly.roots }

def flush (assembly : Assembly) (token : Token) : Assembly :=
  { assembly.operands.foldl (promote token) assembly with operands := [] }

def pushOperand (assembly : Assembly) (node : Node) : Assembly :=
  { assembly with operands := node :: assembly.operands }

/-- Replaces the last operand. A `do` is none. -/
def takeOne (assembly : Assembly) (token : Token) (make : Node → Node) : Outcome :=
  match assembly.operands with
  | operand :: rest =>
    if operand.isDoMark then (assembly,some (.notEnoughOperands token.lexeme))
    else ({ assembly with operands := make operand :: rest },none)
  | [] => (assembly,some (.notEnoughOperands token.lexeme))

def takeTwo (assembly : Assembly) (token : Token) (make : Node → Node → Node) : Outcome :=
  match assembly.operands with
  | right :: left :: rest =>
    if right.isDoMark || left.isDoMark then (assembly,some (.notEnoughOperands token.lexeme))
    else ({ assembly with operands := make left right :: rest },none)
  | _ => (assembly,some (.notEnoughOperands token.lexeme))

def chain : Node → Node
  | .argument left right => .argument left right
  | .lastArgument operand => .lastArgument operand
  | operand => .lastArgument operand

/-- Gives a finished block to the root before it, if that still wants one; otherwise the block is
a statement of its own. -/
def attach (assembly : Assembly) (body : List Node) : Outcome :=
  match assembly.roots with
  | .elseMark :: .ifThen condition (some first) none :: below =>
    ({ assembly with roots := .ifThen condition (some first) (some body) :: below },none)
  | .elseMark :: below => ({ assembly with roots := below },some .unattachableElse)
  | .function called returns parameters [] :: below =>
    ({ assembly with roots := .function called returns parameters [.block body] :: below },none)
  | .ifThen condition none otherwise :: below =>
    ({ assembly with roots := .ifThen condition (some body) otherwise :: below },none)
  | .whileDo condition none :: below =>
    ({ assembly with roots := .whileDo condition (some body) :: below },none)
  | .forIn iterator collection none :: below =>
    ({ assembly with roots := .forIn iterator collection (some body) :: below },none)
  | roots => ({ assembly with roots := .block body :: roots },none)

/-- The roots behind the innermost `do` mark become a block, and the mark goes. -/
def closeBlock (assembly : Assembly) (token : Token) : Outcome :=
  let assembly := assembly.dropHeader token
  match assembly.roots.span fun root => !root.isDoMark with
  | (_,[]) => (assembly,some .unmatchedDone)
  | (inner,_ :: outer) =>
    { assembly with roots := outer, openBlocks := assembly.openBlocks.drop 1 }.attach inner.reverse

/-- What a token does when nothing is being skipped. -/
def apply (assembly : Assembly) (token : Token) : Outcome :=
  let lexeme := token.lexeme
  match token.kind with
  | .integer =>
    match Decimal.integer? lexeme with
    | some value => (assembly.pushOperand (.int value),none)
    | none => (assembly,some (.invalidNumber lexeme))
  | .real =>
    match Decimal.real? lexeme with
    | some value => (assembly.pushOperand (.real value),none)
    | none => (assembly,some (.invalidNumber lexeme))
  | .name => (assembly.pushOperand (.name lexeme),none)
  | .string => (assembly.pushOperand (.string lexeme),none)
  | .callNoArgs => (assembly.pushOperand (.callNoArgs lexeme),none)
  | .additive | .multiplicative =>
    match Arithmetic.ofSpelling? lexeme with
    | some operator => assembly.takeTwo token (.arithmetic operator)
    | none => (assembly,some (.unknownOperator lexeme))
  | .comparison =>
    match Relation.ofSpelling? lexeme with
    | some relation => assembly.takeTwo token (.test (.compare relation))
    | none => (assembly,some (.unknownOperator lexeme))
  | .andWord => assembly.takeTwo token (.test .both)
  | .orWord => assembly.takeTwo token (.test .either)
  | .assign => assembly.takeTwo token .assign
  | .dot => assembly.takeTwo token .field
  | .comma => assembly.takeTwo token .argument
  | .call => assembly.takeOne token fun operand => .call lexeme (chain operand)
  | .putWord => assembly.takeOne token .put
  | .retWord => assembly.takeOne token .ret
  | .ifWord => assembly.takeOne token fun condition => .ifThen condition none none
  | .whileWord => assembly.takeOne token fun condition => .whileDo condition none
  | .forWord => assembly.takeTwo token fun iterator collection => .forIn iterator collection none
  | .elseWord => (assembly.pushOperand .elseMark,none)
  | .doWord =>
    ({ assembly.pushOperand .doMark with openBlocks := token :: assembly.openBlocks },none)
  | .doneWord => assembly.closeBlock token
  | .statementEnd => (assembly.flush token,none)
  | .specifier | .inWord | .semicolon | .opening | .closing | .fileEnd =>
    (assembly,some (.unexpected token.kind))

/-- An error discards the statement being built, up to the next delimiter. -/
def recover (token : Token) (outcome : Outcome) : Assembly :=
  match outcome with
  | (assembly,none) => assembly
  | (assembly,some error) =>
    { assembly with operands := [], skipping := !token.kind.delimits }.report error token

def feed (assembly : Assembly) (token : Token) : Assembly :=
  if !assembly.skipping then recover token (assembly.apply token)
  else if !token.kind.delimits then assembly
  else
    let resumed := { assembly with operands := [], skipping := false }
    if token.kind = .statementEnd then resumed else recover token (resumed.apply token)

/-- The roots before the first open `do`, without the header or `else` that it belongs to, or
nothing if no block is open. The roots come in source order. -/
def beforeOpenBlock? (roots : List Node) : Option (List Node) :=
  match roots.span fun root => !root.isDoMark with
  | (_,[]) => none
  | (before,_ :: _) =>
    match before.getLast? with
    | some root => if root.awaitsBody || root.isElseMark then some before.dropLast else some before
    | none => some before

def closeOpenBlocks (assembly : Assembly) : Assembly :=
  match beforeOpenBlock? assembly.roots.reverse with
  | none => assembly
  | some kept =>
    assembly.openBlocks.reverse.foldl (fun assembly token => assembly.report .unclosedDo token)
      { assembly with roots := kept.reverse, openBlocks := [] }

def dropElseMarks (assembly : Assembly) (token : Token) : Assembly :=
  if assembly.roots.any Node.isElseMark then
    { assembly with roots := assembly.roots.filter fun root => !root.isElseMark }.report
      .danglingElse token
  else assembly

def finish (assembly : Assembly) (last : Token) : Built :=
  let assembly := (((assembly.flush last).dropHeader last).closeOpenBlocks).dropElseMarks last
  ⟨assembly.roots.reverse,assembly.reports.reverse⟩

end Assembly

end BlockScript
