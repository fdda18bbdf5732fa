import BlockScript.Span
import BlockScript.Token.Kind

/-! Tokens: a kind, the text it was read from and where that text stands. -/
namespace BlockScript

/-- The lexeme of a string token is what stands between its quotes. -/
structure Token where
  kind : TokenKind
  lexeme : String
  span : Span
deriving DecidableEq

namespace Token

def fileEnd (place : Position) : Token := ⟨.fileEnd,"",⟨place,place⟩⟩

def retyped (token : Token) (kind : TokenKind) : Token := { token with kind }

def render (token : Token) : String :=
  token.kind.describe ++ " \"" ++ token.lexeme ++ "\" at " ++ token.span.render

end Token

end BlockScript
