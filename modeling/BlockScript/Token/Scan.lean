import BlockScript.Text.Blank
import BlockScript.Token.Basic
import BlockScript.Token.Match

/-! Reading a text as tokens. Blanks and comments separate them; every token carries the places
where its text starts and stops. -/
namespace BlockScript

inductive ScanError
  | unexpectedCharacter (char : Char) (place : Position)
  | unterminatedString (place : Position)
deriving DecidableEq

def ScanError.message : ScanError → String
  | .unexpectedCharacter char place =>
    "Unexpected character '" ++ String.singleton char ++ "' at " ++ place.render
  | .unterminatedString place => "Unterminated string starting at " ++ place.render

structure Cursor where
  place : Position
  rest : List Char

namespace Cursor

def ofText (text : String) : Cursor := ⟨.start,text.toList⟩

def advance (cursor : Cursor) (count : Nat) : Cursor :=
  ⟨cursor.place.walk (cursor.rest.take count),cursor.rest.drop count⟩

/-- Moves over blanks and comments. A comment starts with two slashes and lasts for its line. -/
def skipTo (inComment : Bool) (place : Position) : List Char → Cursor
  | [] => ⟨place,[]⟩
  | char :: rest =>
    if inComment then skipTo (char != '\n') (place.after char) rest
    else if Text.isBlank char then skipTo false (place.after char) rest
    else if ['/','/'].isPrefixOf (char :: rest) then skipTo true (place.after char) rest
    else ⟨place,char :: rest⟩

def skip (cursor : Cursor) : Cursor := skipTo false cursor.place cursor.rest

def take (cursor : Cursor) (found : Token.Match) : Token × Cursor :=
  let text := cursor.rest.take found.length
  let lexeme := if found.kind = .string then (text.drop 1).dropLast else text
  let after := cursor.advance found.length
  (⟨found.kind,String.ofList lexeme,⟨cursor.place,after.place⟩⟩,after)

/-- The next token and where reading goes on. At the end of the text that is the end token, again
and again. -/
def next (cursor : Cursor) : Except ScanError (Token × Cursor) :=
  let cursor := cursor.skip
  match cursor.rest with
  | [] => .ok (.fileEnd cursor.place,cursor)
  | char :: _ =>
    match Token.Match.ofText? cursor.rest with
    | some found => .ok (cursor.take found)
    | none =>
      .error (if char = '\"' then .unterminatedString cursor.place
        else .unexpectedCharacter char cursor.place)

theorem skipTo_length_le (inComment : Bool) (place : Position) (text : List Char) :
    (skipTo inComment place text).rest.length ≤ text.length := by
  induction text generalizing inComment place with
  | nil => simp [skipTo]
  | cons char rest ih =>
    simp only [skipTo]
    split
    · exact Nat.le_succ_of_le (ih _ _)
    · split
      · exact Nat.le_succ_of_le (ih _ _)
      · split
        · exact Nat.le_succ_of_le (ih _ _)
        · simp

/-- Every token but the last one takes something of the text, so scanning ends. -/
theorem next_length_lt {cursor after : Cursor} {token : Token}
    (read : cursor.next = .ok (token,after)) (inner : token.kind ≠ .fileEnd) :
    after.rest.length < cursor.rest.length := by
  have skipped := skipTo_length_le false cursor.place cursor.rest
  simp only [next] at read
  split at read
  · simp only [Except.ok.injEq,Prod.mk.injEq] at read
    exact absurd (by rw [← read.1]; rfl) inner
  · rename_i char rest present
    split at read
    · rename_i found taken
      simp only [Except.ok.injEq,take,Prod.mk.injEq] at read
      have positive := Token.Match.length_pos taken
      have nonempty : 0 < cursor.skip.rest.length := by simp [present]
      rw [← read.2]
      simp only [advance,List.length_drop]
      have bound : cursor.skip.rest.length ≤ cursor.rest.length := skipped
      omega
    · simp at read

end Cursor

def tokensFrom (cursor : Cursor) : Except ScanError (List Token) :=
  match read : cursor.next with
  | .error error => .error error
  | .ok (token,after) =>
    if inner : token.kind = .fileEnd then .ok [token]
    else
      have := Cursor.next_length_lt read inner
      match tokensFrom after with
      | .error error => .error error
      | .ok tokens => .ok (token :: tokens)
termination_by cursor.rest.length

def tokens (text : String) : Except ScanError (List Token) := tokensFrom (.ofText text)

end BlockScript
