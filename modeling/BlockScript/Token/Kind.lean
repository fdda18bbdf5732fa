/-! The kinds of token. The last four do not stand in a text: three mark calls and statement ends in
postfix order, and one marks the end. -/
namespace BlockScript

inductive TokenKind
  | name
  | integer
  | real
  | string
  | specifier
  | ifWord
  | elseWord
  | whileWord
  | forWord
  | inWord
  | doWord
  | doneWord
  | putWord
  | retWord
  | additive
  | multiplicative
  | comparison
  | andWord
  | orWord
  | assign
  | dot
  | comma
  | semicolon
  | opening
  | closing
  | call
  | callNoArgs
  | statementEnd
  | fileEnd
deriving DecidableEq

namespace TokenKind

def all : List TokenKind :=
  [name, integer, real, string, specifier, ifWord, elseWord, whileWord, forWord, inWord, doWord,
   doneWord, putWord, retWord, additive, multiplicative, comparison, andWord, orWord, assign, dot,
   comma, semicolon, opening, closing, call, callNoArgs, statementEnd, fileEnd]

theorem mem_all (kind : TokenKind) : kind ∈ all := by cases kind <;> decide

def describe : TokenKind → String
  | name => "name"
  | integer => "integer"
  | real => "real"
  | string => "string"
  | specifier => "specifier"
  | ifWord => "if"
  | elseWord => "else"
  | whileWord => "while"
  | forWord => "for"
  | inWord => "in"
  | doWord => "do"
  | doneWord => "done"
  | putWord => "put"
  | retWord => "ret"
  | additive => "additive operator"
  | multiplicative => "multiplicative operator"
  | comparison => "comparison operator"
  | andWord => "and"
  | orWord => "or"
  | assign => "="
  | dot => "."
  | comma => ","
  | semicolon => ";"
  | opening => "("
  | closing => ")"
  | call => "function call"
  | callNoArgs => "no-arg function call"
  | statementEnd => "end of statement"
  | fileEnd => "end of file"

def label : TokenKind → String
  | name => "Name"
  | integer => "IntNumber"
  | real => "RealNumber"
  | string => "String"
  | specifier => "Specifier"
  | ifWord => "If"
  | elseWord => "Else"
  | whileWord => "While"
  | forWord => "For"
  | inWord => "In"
  | doWord => "Do"
  | doneWord => "Done"
  | putWord => "Put"
  | retWord => "Ret"
  | additive => "AddOperator"
  | multiplicative => "MultOperator"
  | comparison => "BooleanOperator"
  | andWord => "And"
  | orWord => "Or"
  | assign => "Assign"
  | dot => "Dot"
  | comma => "Comma"
  | semicolon => "Semicolon"
  | opening => "OpeningParenthesis"
  | closing => "ClosingParenthesis"
  | call => "FunctionCall"
  | callNoArgs => "NoArgFunctionName"
  | statementEnd => "NextLine"
  | fileEnd => "Eof"

def ofLabel? (text : String) : Option TokenKind := all.find? fun kind => kind.label == text

theorem ofLabel?_label (kind : TokenKind) : ofLabel? kind.label = some kind := by
  cases kind <;> decide

/-- The kinds of `do`, `done`, `else` and the end, which shape blocks and so outlive an error in
the statement before them. -/
def isStructural : TokenKind → Bool
  | doWord | doneWord | elseWord | fileEnd => true
  | _ => false

def endsStatement (kind : TokenKind) : Bool := kind == semicolon || kind.isStructural

end TokenKind

end BlockScript
