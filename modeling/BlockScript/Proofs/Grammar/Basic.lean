import BlockScript.Build.Program

/-! The surface grammar: which token lists write which trees. A program may be written in many
ways, since parentheses may stand around any expression; they have to stand where an operand is
looser than its place allows. -/
namespace BlockScript.Grammar

abbrev Of (kind : TokenKind) := {token : Token // token.kind = kind}

abbrev Spelled (kind : TokenKind) (text : String) :=
  {token : Token // token.kind = kind ∧ token.lexeme = text}

/-- What stands between two operands. A comma joins the arguments of a call. -/
inductive Joiner
  | argument
  | assign
  | either
  | both
  | compare (relation : Relation)
  | arithmetic (sign : Arithmetic)
  | field
deriving DecidableEq

namespace Joiner

def kind : Joiner → TokenKind
  | argument => .comma
  | assign => .assign
  | either => .orWord
  | both => .andWord
  | compare _ => .comparison
  | arithmetic .plus | arithmetic .minus => .additive
  | arithmetic .times | arithmetic .divide => .multiplicative
  | field => .dot

def spelling : Joiner → String
  | argument => ","
  | assign => "="
  | either => "or"
  | both => "and"
  | compare relation => relation.spelling
  | arithmetic sign => sign.spelling
  | field => "."

def level : Joiner → Nat
  | argument => 1
  | assign => 2
  | either => 3
  | both => 4
  | compare _ => 5
  | arithmetic .plus | arithmetic .minus => 6
  | arithmetic .times | arithmetic .divide => 7
  | field => 8

/-- Only assignments group to the right. -/
def leftLevel (joiner : Joiner) : Nat := if joiner = assign then joiner.level + 1 else joiner.level

def rightLevel (joiner : Joiner) : Nat := if joiner = assign then joiner.level else joiner.level + 1

def join : Joiner → Node → Node → Node
  | argument => .argument
  | assign => .assign
  | either => .test .either
  | both => .test .both
  | compare relation => .test (.compare relation)
  | arithmetic sign => .arithmetic sign
  | field => .field

end Joiner

/-- The tokens write the expression where every operator outside of parentheses has at least the
given level. At level 1 they may also write the arguments of a call, at least two. -/
inductive Expression : Nat → List Token → Node → Prop
  | name (level : Nat) (token : Of .name) : Expression level [token.val] (.name token.val.lexeme)
  | integer (level : Nat) (token : Of .integer) (value : Int64)
      (read : Decimal.integer? token.val.lexeme = some value) :
      Expression level [token.val] (.int value)
  | real (level : Nat) (token : Of .real) (value : Float)
      (read : Decimal.real? token.val.lexeme = some value) :
      Expression level [token.val] (.real value)
  | string (level : Nat) (token : Of .string) :
      Expression level [token.val] (.string token.val.lexeme)
  | joined (level : Nat) (joiner : Joiner) (token : Spelled joiner.kind joiner.spelling)
      (left right : List Token) (first second : Node) (allowed : level ≤ joiner.level)
      (leftWritten : Expression joiner.leftLevel left first)
      (rightWritten : Expression joiner.rightLevel right second) :
      Expression level (left ++ token.val :: right) (joiner.join first second)
  | parentheses (level : Nat) (opening : Of .opening) (closing : Of .closing) (tokens : List Token)
      (node : Node) (written : Expression 2 tokens node) :
      Expression level (opening.val :: tokens ++ [closing.val]) node
  | callNoArgs (level : Nat) (called : Of .name) (opening : Of .opening) (closing : Of .closing) :
      Expression level [called.val,opening.val,closing.val] (.callNoArgs called.val.lexeme)
  | callOne (level : Nat) (called : Of .name) (opening : Of .opening) (closing : Of .closing)
      (tokens : List Token) (node : Node) (written : Expression 2 tokens node) :
      Expression level (called.val :: opening.val :: tokens ++ [closing.val])
        (.call called.val.lexeme (.lastArgument node))
  | callMany (level : Nat) (called : Of .name) (opening : Of .opening) (closing : Of .closing)
      (tokens : List Token) (earlier last : Node)
      (written : Expression 1 tokens (.argument earlier last)) :
      Expression level (called.val :: opening.val :: tokens ++ [closing.val])
        (.call called.val.lexeme (.argument earlier last))

inductive Parameters : List Token → List TypedName → Prop
  | one (type : TypeName) (specifier : Spelled .specifier type.spelling) (name : Of .name) :
      Parameters [specifier.val,name.val] [⟨name.val.lexeme,type⟩]
  | more (tokens : List Token) (parameters : List TypedName) (comma : Of .comma) (type : TypeName)
      (specifier : Spelled .specifier type.spelling) (name : Of .name)
      (earlier : Parameters tokens parameters) :
      Parameters (tokens ++ [comma.val,specifier.val,name.val])
        (parameters ++ [⟨name.val.lexeme,type⟩])

inductive Simple : List Token → Node → Prop
  | declared (type : TypeName) (specifier : Spelled .specifier type.spelling) (name : Of .name)
      (stop : Of .semicolon) (holds : type ≠ .systemHandler) :
      Simple [specifier.val,name.val,stop.val] (.typed ⟨name.val.lexeme,type⟩)
  | handler (specifier : Spelled .specifier TypeName.systemHandler.spelling) (name : Of .name)
      (stop : Of .semicolon) :
      Simple [specifier.val,name.val,stop.val] (.handler name.val.lexeme)
  | expression (tokens : List Token) (node : Node) (stop : Of .semicolon)
      (written : Expression 2 tokens node) : Simple (tokens ++ [stop.val]) node
  | put (word : Of .putWord) (tokens : List Token) (node : Node) (stop : Of .semicolon)
      (written : Expression 2 tokens node) : Simple (word.val :: tokens ++ [stop.val]) (.put node)
  | ret (word : Of .retWord) (tokens : List Token) (node : Node) (stop : Of .semicolon)
      (written : Expression 2 tokens node) : Simple (word.val :: tokens ++ [stop.val]) (.ret node)

inductive Header : List Token → (List Node → Node) → Prop
  | standalone : Header [] .block
  | ifThen (word : Of .ifWord) (tokens : List Token) (condition : Node)
      (written : Expression 2 tokens condition) :
      Header (word.val :: tokens) fun body => .ifThen condition (some body) none
  | whileDo (word : Of .whileWord) (tokens : List Token) (condition : Node)
      (written : Expression 2 tokens condition) :
      Header (word.val :: tokens) fun body => .whileDo condition (some body)
  | forIn (word : Of .forWord) (before : List Token) (iterator : String) (inWord : Of .inWord)
      (tokens : List Token) (collection : Node) (named : Expression 2 before (.name iterator))
      (written : Expression 2 tokens collection) :
      Header (word.val :: before ++ inWord.val :: tokens)
        fun body => .forIn (.name iterator) collection (some body)
  | functionNoParameters (type : TypeName) (specifier : Spelled .specifier type.spelling)
      (name : Of .name) (opening : Of .opening) (closing : Of .closing)
      (returns : type ≠ .systemHandler) :
      Header [specifier.val,name.val,opening.val,closing.val]
        fun body => .function name.val.lexeme type [] [.block body]
  | function (type : TypeName) (specifier : Spelled .specifier type.spelling) (name : Of .name)
      (opening : Of .opening) (tokens : List Token) (parameters : List TypedName)
      (closing : Of .closing) (returns : type ≠ .systemHandler)
      (written : Parameters tokens parameters) :
      Header (specifier.val :: name.val :: opening.val :: tokens ++ [closing.val])
        fun body => .function name.val.lexeme type parameters [.block body]

inductive Program : List Token → List Node → Prop
  | nil : Program [] []
  | simple (tokens rest : List Token) (statement : Node) (statements : List Node)
      (written : Simple tokens statement) (after : Program rest statements) :
      Program (tokens ++ rest) (statement :: statements)
  | block (head inner rest : List Token) (make : List Node → Node) (body statements : List Node)
      (doWord : Of .doWord) (doneWord : Of .doneWord) (header : Header head make)
      (inside : Program inner body) (after : Program rest statements) :
      Program (head ++ doWord.val :: inner ++ doneWord.val :: rest) (make body :: statements)
  | ifElse (word : Of .ifWord) (tokens inner other rest : List Token) (condition : Node)
      (body otherwise statements : List Node) (doWord : Of .doWord) (doneWord : Of .doneWord)
      (elseWord : Of .elseWord) (doAgain : Of .doWord) (doneAgain : Of .doneWord)
      (written : Expression 2 tokens condition) (inside : Program inner body)
      (instead : Program other otherwise) (after : Program rest statements) :
      Program (word.val :: tokens ++ doWord.val :: inner ++ doneWord.val :: elseWord.val ::
          doAgain.val :: other ++ doneAgain.val :: rest)
        (.ifThen condition (some body) (some otherwise) :: statements)

end BlockScript.Grammar
