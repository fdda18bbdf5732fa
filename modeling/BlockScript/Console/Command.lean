import BlockScript.Build.Program
import BlockScript.Console.Listing
import BlockScript.Console.Log
import BlockScript.Eval.Session
import BlockScript.Token.Scan

/-! What each command does, as a function of what it reads. -/
namespace BlockScript.Console

inductive FileError
  | notFound
  | denied
  | directory
  | invalidText

def FileError.message : FileError → String
  | notFound => "No such file or directory (os error 2)"
  | denied => "Permission denied (os error 13)"
  | directory => "Is a directory (os error 21)"
  | invalidText => "stream did not contain valid UTF-8"

inductive Complaint
  | file (error : FileError)
  | scan (error : ScanError)
  | execution (failure : Failure)
  | statementsFailed (count : Nat)

def Complaint.message : Complaint → String
  | file error => "IO error: " ++ error.message
  | scan error => error.message
  | execution failure => failure.message
  | statementsFailed count => toString count ++ " statements failed"

structure Options where
  verbose : Bool
  keepGoing : Bool

/-- What running a text leads to. The notes go to the error stream. -/
structure Reply where
  notes : String
  complaint : Option Complaint
  state : State

/-- The complaint about a text none of whose statements failed while it ran. -/
def buildComplaint (reports : List Report) : Option Complaint :=
  if reports.isEmpty then none else some (.statementsFailed reports.length)

/-- Runs the roots in one of the two ways: up to the first failure, or through all of them. The
notes list all failures in the second case; in the first one the complaint is the failure. -/
def runRoots (rounds : Nat) (keepGoing : Bool) (built : Built) (state : State) : Option Reply :=
  if keepGoing then
    (interpretAll rounds built.roots state).map fun (failures,state) =>
      { notes := String.join (failures.map fun failure => failure.message ++ "\n")
        complaint :=
          if failures.isEmpty then buildComplaint built.reports
          else some (.statementsFailed failures.length)
        state }
  else
    (interpret rounds built.roots state).map fun (failure,state) =>
      { notes := ""
        complaint := (failure.map .execution).or (buildComplaint built.reports)
        state }

def buildNotes (verbose : Bool) (tokens : List Token) (built : Built) : String :=
  (if verbose then listing tokens else "")
    ++ renderLog verbose (built.reports.map Report.logLine)
    ++ (if verbose then renderFile built.roots else "")
    ++ (if built.reports.isEmpty then "" else renderReports built.reports)

/-- Runs a text on a session. What could be built is run even if the rest could not. -/
def runText (rounds : Nat) (options : Options) (text : String) (state : State) : Option Reply :=
  match tokens text with
  | .error error => some ⟨"",some (.scan error),state⟩
  | .ok tokens =>
    let built := build tokens
    (runRoots rounds options.keepGoing built { state with log := [] }).map fun reply =>
      let events := reply.state.log.reverse.flatMap Event.logLines
      { reply with
        notes := buildNotes options.verbose tokens built ++ renderLog options.verbose events
          ++ reply.notes }

structure Outcome where
  output : ByteArray
  notes : String
  succeeded : Bool
  written : Option ByteArray

def complain (complaint : Complaint) : Outcome :=
  ⟨.empty,complaint.message ++ "\n",false,none⟩

def decodeScript (script : Except FileError ByteArray) : Except FileError String :=
  match script with
  | .error error => .error error
  | .ok bytes =>
    match String.fromUTF8? bytes with
    | some text => .ok text
    | none => .error .invalidText

/-- Where a script writes to: the screen, or a file that was just created or could not be. -/
inductive Target
  | screen
  | file (created : Except FileError Unit)

def Target.place (target : Target) (output : ByteArray) : ByteArray × Option ByteArray :=
  match target with
  | screen => (output,none)
  | file _ => (.empty,some output)

/-- Runs a script in a new session. An unreadable script comes before a missing target. -/
def runScript (rounds : Nat) (options : Options) (script : Except FileError ByteArray)
    (target : Target) : Option Outcome :=
  match decodeScript script, target with
  | .error error, _ | .ok _, .file (.error error) => some (complain (.file error))
  | .ok text, target =>
    (runText rounds options text (.initial .unlimited)).map fun reply =>
      let (output,written) := target.place reply.state.sink.written
      { output
        notes := reply.notes
          ++ (match reply.complaint with
              | some complaint => complaint.message ++ "\n"
              | none => "")
        succeeded := reply.complaint.isNone
        written }

def listScript (script : Except FileError ByteArray) : Outcome :=
  match decodeScript script with
  | .error error => complain (.file error)
  | .ok text =>
    match tokens text with
    | .error error => complain (.scan error)
    | .ok tokens => ⟨(listing tokens).toUTF8,"",true,none⟩

end BlockScript.Console
