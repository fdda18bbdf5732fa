import BlockScript.Text.Unprintable
import BlockScript.Text.Combining

/-! Quoted text, in which every character can be told apart on a screen. -/
namespace BlockScript.Text

/-- A short escape where there is one; otherwise a character that a reader cannot see, or that
would join the one before it, is written as its number in base sixteen. -/
def escape (char : Char) : String :=
  match char with
  | '\x00' => "\\0"
  | '\t' => "\\t"
  | '\n' => "\\n"
  | '\r' => "\\r"
  | '\"' => "\\\""
  | '\\' => "\\\\"
  | char =>
    if isCombining char || isUnprintable char then
      "\\u\x7b" ++ String.ofList (Nat.toDigits 16 char.toNat) ++ "\x7d"
    else String.singleton char

def quoted (text : String) : String := "\"" ++ String.join (text.toList.map escape) ++ "\""

end BlockScript.Text
