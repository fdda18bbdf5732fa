import BlockScript.Console.Command

/-! Conversations: lines are run one by one on the same session, and a line that fails does not end
it. -/
namespace BlockScript.Console

def greeting : String :=
  "Welcome to the doscript REPL!\nEOF to exit. (Ctrl+D on *nix, Ctrl+Z on Windows)\n"

def prompt : String := "> "

structure Answer where
  output : ByteArray
  notes : String
  state : State

/-- Runs a line without the blanks around it. What the program writes comes before a complaint. -/
def answer (rounds : Nat) (verbose : Bool) (line : String) (state : State) : Option Answer :=
  let fresh := { state with sink := .unlimited }
  (runText rounds ⟨verbose,false⟩ (Text.trim line) fresh).map fun reply =>
    let complaint :=
      match reply.complaint with
      | some complaint => "Error: " ++ complaint.message ++ "\n"
      | none => ""
    ⟨reply.state.sink.written ++ complaint.toUTF8,reply.notes,reply.state⟩

/-- The lines of a text; the last one may lack its end. -/
def linesOf (text : String) : List String :=
  let lines := text.splitOn "\n"
  if lines.getLast? = some "" then lines.dropLast else lines

/-- Output and notes of a whole conversation from a given state on. There is a prompt before each
line and one more at the end of the input. -/
def converseFrom (rounds : Nat) (verbose : Bool) :
    List String → State → Option (ByteArray × String)
  | [], _ => some (prompt.toUTF8,"")
  | line :: lines, state =>
    match answer rounds verbose line state with
    | none => none
    | some reply =>
      (converseFrom rounds verbose lines reply.state).map fun (output,notes) =>
        (prompt.toUTF8 ++ reply.output ++ output,reply.notes ++ notes)

def converse (rounds : Nat) (verbose : Bool) (input : String) : Option Outcome :=
  (converseFrom rounds verbose (linesOf input) (.initial .unlimited)).map fun (output,notes) =>
    ⟨greeting.toUTF8 ++ output,notes,true,none⟩

end BlockScript.Console
