import BlockScript.Token.Basic

/-! Token listings: one line a token, and a line number where a new line starts. -/
namespace BlockScript

def padLeft (width : Nat) (text : String) : String :=
  String.ofList (List.replicate (width - text.length) ' ') ++ text

def padRight (width : Nat) (text : String) : String :=
  text ++ String.ofList (List.replicate (width - text.length) ' ')

def listingLine (previousLine : Nat) (token : Token) : String :=
  let line := token.span.first.line
  (if line = previousLine then "   | " else padLeft 4 (toString line) ++ " ")
    ++ padRight 20 token.kind.label ++ " " ++ token.lexeme ++ "\n"

def listingFrom : (previousLine : Nat) → List Token → String
  | _, [] => ""
  | previousLine, token :: rest =>
    listingLine previousLine token ++ listingFrom token.span.first.line rest

/-- No token stands on a line before the first. -/
def listing (tokens : List Token) : String := listingFrom 0 tokens

end BlockScript
