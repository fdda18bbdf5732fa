import BlockScript.Token.Basic

/-! What can go wrong while a tree is built. A report holds an error and the token that showed
it. -/
namespace BlockScript

inductive DeclarationPart
  | name
  | endOrParameters
  | parameterType
  | parameterName
  | commaOrClosing
deriving DecidableEq

def DeclarationPart.describe : DeclarationPart → String
  | name => "a name"
  | endOrParameters => "\";\" or \"(\""
  | parameterType => "a parameter type"
  | parameterName => "a parameter name"
  | commaOrClosing => "\",\" or \")\""

inductive BuildError
  | notEnoughOperands (lexeme : String)
  | invalidNumber (lexeme : String)
  | unknownOperator (lexeme : String)
  | unknownSpecifier (lexeme : String)
  | unmatchedDone
  | unclosedDo
  | missingBlock
  | unattachableElse
  | danglingElse
  | unbalancedParenthesis
  | commaOutsideCall
  | inOutsideFor
  | unexpected (kind : TokenKind)
  | expected (part : DeclarationPart)
  | handlerParameters
  | unfinishedDeclaration
deriving DecidableEq

def BuildError.message : BuildError → String
  | notEnoughOperands lexeme => "Not enough operands for \"" ++ lexeme ++ "\""
  | invalidNumber lexeme => "Invalid number \"" ++ lexeme ++ "\""
  | unknownOperator lexeme => "Unknown operator \"" ++ lexeme ++ "\""
  | unknownSpecifier lexeme => "Unknown type specifier \"" ++ lexeme ++ "\""
  | unmatchedDone => "\"done\" without a matching \"do\""
  | unclosedDo => "\"do\" is never closed by \"done\""
  | missingBlock => "\"if\", \"while\" and \"for\" need a \"do\" block"
  | unattachableElse => "\"else\" block must follow a closed \"if\" block"
  | danglingElse => "\"else\" without a block"
  | unbalancedParenthesis => "Unbalanced parenthesis"
  | commaOutsideCall => "\",\" outside of a function call"
  | inOutsideFor => "\"in\" outside of a for loop"
  | unexpected kind => "Unexpected \"" ++ kind.describe ++ "\""
  | expected part => "Expected " ++ part.describe ++ " in declaration"
  | handlerParameters => "System handler declaration cannot take parameters"
  | unfinishedDeclaration => "Unexpected end of file in declaration"

structure Report where
  error : BuildError
  token : Token
deriving DecidableEq

def Report.message (report : Report) : String :=
  report.error.message ++ " at " ++ report.token.span.render ++ " near \"" ++ report.token.lexeme
    ++ "\""

def renderReports (reports : List Report) : String :=
  "Found " ++ toString reports.length ++ " errors while building the tree\n"
    ++ String.join (reports.map fun report => report.message ++ "\n")

end BlockScript
